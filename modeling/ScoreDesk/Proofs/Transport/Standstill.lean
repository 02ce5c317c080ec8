import Mathlib
import ScoreDesk.Proofs.Transport.FailedOperations
import ScoreDesk.Proofs.Transport.LateLooks

namespace ScoreDesk.Transport

variable {World Engine : Type}

def Status.standing? : Status → Option Poll
  | .idle => some .idle
  | .playing => none
  | .paused => some .paused

namespace Deck

variable {d : Device World Engine} {tree : FileTree} {deck : Deck World Engine}

theorem poll_standing {outcome : Poll} (standing : deck.state.status.standing? = some outcome) :
    deck.poll d = (outcome, deck) := by
  unfold poll
  cases status : deck.state.status with
  | playing =>
    rw [status] at standing
    cases standing
  | idle | paused =>
    rw [status] at standing
    obtain rfl := Option.some.inj standing
    rfl

theorem stop_refused (idle : deck.state.status = .idle) :
    deck.stop d = (.error (.invalidTransition .stop .idle), deck) := by
  unfold stop
  rw [idle]

theorem Unloaded.operate_fails (unloaded : deck.Unloaded) {operation : Operation}
    {x : TransportError} (fails : (deck.operate d tree operation).1 = .error x) :
    (deck.operate d tree operation).2.Unloaded := by
  by_cases stops : operation = .stop
  · subst stops
    have refused : deck.operate d tree .stop = _ := stop_refused (by rw [unloaded.2]; rfl)
    rwa [refused]
  · rcases fails_cases stops fails with spares | clears
    · obtain ⟨world, outcome⟩ := spares.outcome
      rw [outcome]
      exact unloaded
    · exact clears.unloaded

end Deck

namespace Monitor

/-- The deck stands as given, and what is published of it is what a look at it finds. -/
structure StandsAt (engine : Option Engine) (state : State) (m : Monitor World Engine) : Prop where
  engine : m.deck.engine = engine
  state : m.deck.state = state
  published : m.deck.state.status.standing? = some m.published

variable {d : Device World Engine} {tree : FileTree} {m : Monitor World Engine}
variable {engine : Option Engine} {state : State}

theorem StandsAt.cancelPolling (stands : m.StandsAt engine state) :
    m.cancelPolling.StandsAt engine state := by
  unfold Monitor.cancelPolling
  split
  · exact stands
  · exact ⟨stands.engine, stands.state, stands.published⟩

theorem StandsAt.prepare (stands : m.StandsAt engine state) (operation : Operation) :
    (m.prepare operation).StandsAt engine state := by
  cases operation <;> first | exact stands | exact stands.cancelPolling

theorem StandsAt.look (d : Device World Engine) (stands : m.StandsAt engine state) (i : Nat) :
    (m.look d i).StandsAt engine state := by
  unfold Monitor.look
  split
  · have found : m.deck.poll d = (m.published, m.deck) :=
      Deck.poll_standing stands.published
    rw [found]
    exact ⟨stands.engine, stands.state, stands.published⟩
  · exact stands

theorem perform_fails {operation : Operation} {x : TransportError}
    (fails : (m.perform d tree operation).1 = .error x) :
    (m.deck.operate d tree operation).1 = .error x ∧
      (m.perform d tree operation).2 =
        { m with deck := (m.deck.operate d tree operation).2 } := by
  obtain ⟨result, effect⟩ := m.perform_effect d tree operation
  rw [result] at fails
  rcases effect with ⟨-, left⟩ | ⟨ok, -⟩
  · exact ⟨fails, left⟩
  · rw [fails] at ok
    cases ok

theorem perform_pause_ok (ok : (m.perform d tree .pause).1 = .ok ()) :
    ∃ (engine : Option Engine) (state : State), state.status = .paused ∧
      (m.perform d tree .pause).2.StandsAt engine state := by
  have outcome := m.deck.pause_outcome d
  unfold perform at ok ⊢
  dsimp only at ok ⊢
  generalize m.deck.pause d = paused at ok outcome ⊢
  rcases paused with ⟨x | _, deck⟩
  · cases ok
  · rcases outcome with ⟨⟨x, failed⟩, _⟩ | ⟨_, status⟩
    · cases failed
    · have kept := cancelPolling_deck { m with deck }
      refine ⟨deck.engine, deck.state, status, congrArg Deck.engine kept, congrArg Deck.state kept,
        ?_⟩
      change (Monitor.cancelPolling _).deck.state.status.standing? = some .paused
      rw [kept, status]
      rfl

theorem unloaded_publish {deck : Deck World Engine} (unloaded : deck.Unloaded) :
    ({ m with deck }.publish .idle).StandsAt none .zero := by
  refine ⟨unloaded.1, unloaded.2, ?_⟩
  change deck.state.status.standing? = some .idle
  rw [unloaded.2]
  rfl

theorem perform_stop_ok (ok : (m.perform d tree .stop).1 = .ok ()) :
    (m.perform d tree .stop).2.StandsAt none .zero := by
  have unloaded := m.deck.stop_unloaded d
  unfold perform at ok ⊢
  dsimp only at ok ⊢
  generalize m.deck.stop d = outcome at ok unloaded ⊢
  rcases outcome with ⟨x | _, deck⟩
  · cases ok
  · exact unloaded_publish (unloaded rfl)

theorem perform_reset : (m.perform d tree .reset).2.StandsAt none .zero :=
  unloaded_publish (m.deck.reset_unloaded d)

theorem perform_pause_refused (paused : m.deck.state.status ≠ .playing) :
    m.perform d tree .pause = (.error (.invalidTransition .pause m.deck.state.status), m) := by
  have refused := Deck.pause_refused d fun plays => paused plays.1
  unfold perform
  dsimp only
  rw [refused]

theorem StandsAt.perform_unloaded (stands : m.StandsAt none .zero) {operation : Operation}
    (unstarted : operation.starts = true → (m.perform d tree operation).1 ≠ .ok ()) :
    (m.perform d tree operation).2.StandsAt none .zero := by
  cases result : (m.perform d tree operation).1 with
  | error x =>
    obtain ⟨fails, left⟩ := perform_fails result
    have unloaded := Deck.Unloaded.operate_fails ⟨stands.engine, stands.state⟩ fails
    rw [left]
    refine ⟨unloaded.1, unloaded.2, ?_⟩
    have published := stands.published
    rw [stands.state] at published
    rw [← published, unloaded.2]
  | ok _ =>
    cases operation with
    | play source => exact absurd result (unstarted rfl)
    | playFrom source ask => exact absurd result (unstarted rfl)
    | resume source => exact absurd result (unstarted rfl)
    | pause =>
      have silent : m.deck.state.status ≠ .playing := by
        rw [stands.state]
        decide
      rw [perform_pause_refused silent]
      exact stands
    | stop => exact perform_stop_ok result
    | reset => exact perform_reset

end Monitor

namespace Usage

variable {d : Device World Engine} {u : Usage World Engine}
variable {engine : Option Engine} {state : State}

def served? (d : Device World Engine) (u : Usage World Engine) :
    Turn World → Option (Operation × Result)
  | .serve tree => u.asked.map fun operation =>
    (operation, (u.monitor.perform d tree operation).1)
  | _ => none

def served (d : Device World Engine) (u : Usage World Engine) :
    List (Turn World) → List (Operation × Result)
  | [] => []
  | t :: rest => (u.served? d t).toList ++ (u.turn d t).served d rest

theorem turn_serve {tree : FileTree} {operation : Operation} {result : Result}
    (serves : u.served? d (.serve tree) = some (operation, result)) :
    (u.monitor.perform d tree operation).1 = result ∧
      (u.turn d (.serve tree)).monitor = (u.monitor.perform d tree operation).2 := by
  obtain ⟨asked, found, same⟩ := Option.map_eq_some_iff.1 serves
  obtain ⟨rfl, rfl⟩ := Prod.mk.inj same
  refine ⟨rfl, ?_⟩
  unfold turn serve
  rw [found]

-- One case for each turn: a poller's turns and the world's leave the deck where it stands.
theorem stands_turn (stands : u.monitor.StandsAt engine state) (t : Turn World)
    (serving : ∀ tree operation, t = .serve tree → u.asked = some operation →
      (u.monitor.perform d tree operation).2.StandsAt engine state) :
    (u.turn d t).monitor.StandsAt engine state := by
  cases t with
  | ask operation =>
    unfold turn
    dsimp only
    split
    · exact stands
    · exact stands.prepare operation
  | serve tree =>
    unfold turn serve
    dsimp only
    split
    · exact stands
    · rename_i operation asked
      exact serving tree operation rfl asked
  | wake i => exact ⟨stands.engine, stands.state, stands.published⟩
  | notice i => exact ⟨stands.engine, stands.state, stands.published⟩
  | look i => exact stands.look d i
  | wait ms => exact ⟨stands.engine, stands.state, stands.published⟩
  | drift change => exact ⟨stands.engine, stands.state, stands.published⟩

theorem stands_run {harmless : Operation × Result → Prop}
    (serving : ∀ (m : Monitor World Engine) (tree : FileTree) (operation : Operation),
      m.StandsAt engine state → harmless (operation, (m.perform d tree operation).1) →
        (m.perform d tree operation).2.StandsAt engine state)
    (stands : u.monitor.StandsAt engine state) {turns : List (Turn World)}
    (only : ∀ s ∈ u.served d turns, harmless s) :
    (u.run d turns).monitor.StandsAt engine state := by
  induction turns generalizing u with
  | nil => exact stands
  | cons t rest ih =>
    rw [served, List.forall_mem_append] at only
    refine ih (stands_turn stands t fun tree operation serve asked => ?_) only.2
    refine serving _ tree operation stands (only.1 _ ?_)
    simp [serve, served?, asked]

/-- From a pause that succeeded on, a deck stays as it is and is published as paused until anything
    but a pause is served. From a stop or a reset that succeeded on, it stays blank and is published
    as idle until something starts it. -/
theorem rest_outlasts_looks (d : Device World Engine) (world : World) (periodMs : Nat)
    (before : List (Turn World)) (tree : FileTree) (after : List (Turn World)) :
    let asking := run d { monitor := .start world periodMs } before
    let answered := asking.turn d (.serve tree)
    let later := answered.run d after
    (asking.served? d (.serve tree) = some (.pause, .ok ()) →
      (∀ s ∈ answered.served d after, s.1.isPause = true) →
        later.monitor.deck.state.status = .paused ∧
          answered.monitor.deck.Same later.monitor.deck ∧ later.monitor.published = .paused) ∧
    (asking.served? d (.serve tree) = some (.stop, .ok ()) ∨
        asking.served? d (.serve tree) = some (.reset, .ok ()) →
      (∀ s ∈ answered.served d after, s.1.starts = true → s.2 ≠ .ok ()) →
        later.monitor.deck.Unloaded ∧ later.monitor.published = .idle) := by
  intro asking answered later
  constructor
  · intro paused only
    obtain ⟨ok, left⟩ := turn_serve paused
    obtain ⟨engine, state, status, stands⟩ := Monitor.perform_pause_ok ok
    rw [← left] at stands
    have still : later.monitor.StandsAt engine state := by
      refine stands_run (fun m tree operation stands pauses => ?_) stands only
      cases operation <;> cases pauses
      have silent : m.deck.state.status ≠ .playing := by
        rw [stands.state, status]
        decide
      rw [Monitor.perform_pause_refused silent]
      exact stands
    have published := still.published
    rw [still.state, status] at published
    refine ⟨by rw [still.state, status], ⟨?_, ?_⟩, (Option.some.inj published).symm⟩
    · rw [still.engine, stands.engine]
    · rw [still.state, stands.state]
  · intro halted only
    have stands : answered.monitor.StandsAt none .zero := by
      rcases halted with stopped | reset
      · obtain ⟨ok, left⟩ := turn_serve stopped
        rw [left]
        exact Monitor.perform_stop_ok ok
      · obtain ⟨-, left⟩ := turn_serve reset
        rw [left]
        exact Monitor.perform_reset
    have still : later.monitor.StandsAt none .zero := by
      refine stands_run (fun m tree operation stands unstarted => ?_) stands only
      exact stands.perform_unloaded unstarted
    have published := still.published
    rw [still.state] at published
    exact ⟨⟨still.engine, still.state⟩, (Option.some.inj published).symm⟩

/-- A poller that has taken its beat before a pause looks after it, at an engine that says zero. -/
example :
    let tree : FileTree := ⟨[], [(["score.midi"], .file [])]⟩
    let turns : List (Turn Script) := [.ask (.play ⟨"score.ly"⟩), .serve tree, .wake 0,
      .wait 100, .wake 0, .ask .pause, .serve tree, .look 0]
    let u := run Script.device { monitor := .start {} 100 } turns
    u.monitor.publications = 2 ∧ u.monitor.published = .paused ∧
      u.monitor.deck.state.status = .paused := by
  decide +kernel

end Usage

end ScoreDesk.Transport
