import Mathlib
import ScoreDesk.Proofs.Transport.DeckOperations
import ScoreDesk.Transport.Script

namespace ScoreDesk.Transport

variable {World Engine : Type}

def Operation.isPause : Operation → Bool
  | .pause => true
  | _ => false

/-- What happens next to a monitor: an operation is asked for, the one that was asked for gets the
    deck, or a poller takes a step. In between, time passes and the world changes. -/
inductive Turn (World : Type) where
  | ask (operation : Operation)
  | serve (tree : FileTree)
  | wake (i : Nat)
  | notice (i : Nat)
  | look (i : Nat)
  | wait (ms : Nat)
  | drift (change : World → World)

/-- A monitor in use: the operation in progress, and how the latest one other than a pause ended. -/
structure Usage (World Engine : Type) where
  monitor : Monitor World Engine
  asked : Option Operation := none
  latest : Option Result := none

namespace Usage

def serve (d : Device World Engine) (tree : FileTree) (u : Usage World Engine) :
    Usage World Engine :=
  match u.asked with
  | none => u
  | some operation =>
    let (result, monitor) := u.monitor.perform d tree operation
    { monitor, latest := if operation.isPause then u.latest else some result }

def turn (d : Device World Engine) (u : Usage World Engine) : Turn World → Usage World Engine
  | .ask operation =>
    if u.asked.isSome then u
    else { u with monitor := u.monitor.prepare operation, asked := some operation }
  | .serve tree => u.serve d tree
  | .wake i => { u with monitor := u.monitor.wake i }
  | .notice i => { u with monitor := u.monitor.notice i }
  | .look i => { u with monitor := u.monitor.look d i }
  | .wait ms => { u with monitor := { u.monitor with now := u.monitor.now + ms } }
  | .drift change =>
    let deck := u.monitor.deck
    { u with monitor := { u.monitor with deck := { deck with world := change deck.world } } }

def run (d : Device World Engine) (u : Usage World Engine) (turns : List (Turn World)) :
    Usage World Engine :=
  turns.foldl (turn d) u

end Usage

def Poll.phase : Poll → PollerPhase
  | .progress _ => .waiting
  | _ => .finished

namespace Deck

def Plays (deck : Deck World Engine) : Prop :=
  deck.engine.isSome ∧ deck.state.status = .playing

def Starts (outcome : Result × Deck World Engine) : Prop :=
  outcome.1 = .ok () → outcome.2.Plays

variable (d : Device World Engine) (tree : FileTree) (source : Path) (deck : Deck World Engine)

theorem Settled.starts {outcome : Result × Deck World Engine} (settled : Settled outcome) :
    Starts outcome := by
  intro ok
  rcases settled with ⟨_, plays⟩ | ⟨⟨x, failed⟩, _⟩
  · exact plays
  · rw [ok] at failed
    cases failed

theorem play_starts : Starts (deck.play d tree source) := by
  cases found : renditionOf tree source with
  | error x =>
    rw [play_missing d deck found]
    exact fun ok => by cases ok
  | ok path => exact (play_found d deck found).starts

theorem playFrom_starts (ask : String → Option String) :
    Starts (deck.playFrom d tree source ask) := by
  cases found : renditionOf tree source with
  | error x =>
    rw [playFrom_missing d deck ask found]
    exact fun ok => by cases ok
  | ok path => exact (playFrom_found d deck ask found).starts

theorem resume_starts : Starts (deck.resume d tree source) := by
  unfold resume
  split
  · rename_i e paused held
    split
    · exact fun ok => by cases ok
    · exact fun _ => ⟨by simp [held], rfl⟩
  · exact deck.play_starts d tree source

theorem stop_unloaded (ok : (deck.stop d).1 = .ok ()) : (deck.stop d).2.Unloaded := by
  revert ok
  unfold stop
  split
  · exact fun ok => by cases ok
  · split
    · rename_i held
      exact fun _ => ⟨held, rfl⟩
    · split
      · exact fun ok => by cases ok
      · exact fun _ => ⟨rfl, rfl⟩

theorem stop_idle (ok : (deck.stop d).1 = .ok ()) : (deck.stop d).2.state.status = .idle := by
  rw [(deck.stop_unloaded d ok).2]
  rfl

theorem pause_outcome : (∃ x, (deck.pause d).1 = .error x) ∧
      (deck.pause d).2.engine = deck.engine ∧ (deck.pause d).2.state = deck.state ∨
    (deck.pause d).1 = .ok () ∧ (deck.pause d).2.state.status = .paused := by
  unfold pause
  split
  · split
    · rename_i x world failed
      exact .inl ⟨⟨x, rfl⟩, rfl, rfl⟩
    · exact .inr ⟨rfl, rfl⟩
  · exact .inl ⟨⟨_, rfl⟩, rfl, rfl⟩

theorem reset_status : (deck.reset d).state.status = .idle := by
  rw [(reset_unloaded d deck).2]
  rfl

theorem playing_of_poll (playing : (deck.poll d).2.state.status = .playing) :
    deck.state.status = .playing ∧ (deck.engine.isSome →
      (deck.poll d).2.engine.isSome ∧ ∃ timestamp, (deck.poll d).1 = .progress timestamp) := by
  revert playing
  unfold poll
  split
  · rename_i e now held
    dsimp only
    split
    · intro playing
      rw [reset_status] at playing
      cases playing
    · exact fun _ => ⟨now, fun some => ⟨some, _, rfl⟩⟩
  · rename_i paused
    intro playing
    rw [paused] at playing
    cases playing
  · rename_i busy
    intro playing
    refine ⟨playing, fun held => ?_⟩
    obtain ⟨e, engine⟩ := Option.isSome_iff_exists.1 held
    exact (busy e playing engine).elim

end Deck

namespace Poller

theorem wake_cancelled (period now : Nat) (p : Poller) :
    (p.wake period now).cancelled = p.cancelled := by
  unfold wake
  split
  · rfl
  · split <;> rfl
  · rfl

theorem wake_isLive (period now : Nat) (p : Poller) : (p.wake period now).isLive = p.isLive := by
  unfold wake
  split
  · rfl
  · rename_i waits _
    split
    · rw [isLive, isLive, waits]
      rfl
    · rfl
  · rfl

theorem wake_of_finished {p : Poller} (done : p.phase = .finished) (period now : Nat) :
    p.wake period now = p := by
  rw [wake, done]

end Poller

namespace Monitor

def OneUncancelled (m : Monitor World Engine) : Prop :=
  ∀ (i : Nat) (p : Poller), m.pollers[i]? = some p → p.cancelled = false → m.current = some i

def Watched (m : Monitor World Engine) : Prop :=
  ∃ i p, m.current = some i ∧ m.pollers[i]? = some p ∧ p.isLive

section Modify

variable {m : Monitor World Engine} {f : Poller → Poller}

theorem exists_of_getElem?_modify {pollers : List Poller} {i j : Nat} {q : Poller}
    (found : (pollers.modify i f)[j]? = some q) :
    ∃ p, pollers[j]? = some p ∧ (q = p ∨ q = f p) := by
  rw [List.getElem?_modify] at found
  obtain ⟨p, here, rfl⟩ := Option.map_eq_some_iff.1 found
  refine ⟨p, here, ?_⟩
  by_cases same : i = j
  · exact .inr (if_pos same)
  · exact .inl (if_neg same)

theorem OneUncancelled.modify (single : m.OneUncancelled)
    (same : ∀ p, (f p).cancelled = false → p.cancelled = false) (i : Nat) :
    ({ m with pollers := m.pollers.modify i f } : Monitor World Engine).OneUncancelled := by
  intro j q found uncancelled
  obtain ⟨p, here, rfl | rfl⟩ := exists_of_getElem?_modify found
  · exact single j _ here uncancelled
  · exact single j p here (same p uncancelled)

theorem Watched.modify (watched : m.Watched) (keeps : ∀ p : Poller, p.isLive → (f p).isLive)
    (i : Nat) :
    ({ m with pollers := m.pollers.modify i f } : Monitor World Engine).Watched := by
  obtain ⟨j, p, current, here, live⟩ := watched
  refine ⟨j, if i = j then f p else p, current, ?_, ?_⟩
  · rw [List.getElem?_modify, here]
    rfl
  · split
    · exact keeps p live
    · exact live

end Modify

theorem cancelPolling_current (m : Monitor World Engine) : m.cancelPolling.current = none := by
  unfold cancelPolling
  split
  · rename_i none
    exact none
  · rfl

theorem cancelPolling_deck (m : Monitor World Engine) : m.cancelPolling.deck = m.deck := by
  unfold cancelPolling
  split <;> rfl

theorem OneUncancelled.cancelled {m : Monitor World Engine} (single : m.OneUncancelled)
    (idle : m.current = none) {i : Nat} {p : Poller} (here : m.pollers[i]? = some p) :
    p.cancelled = true := by
  cases cancelled : p.cancelled with
  | true => rfl
  | false =>
    have current := single i p here cancelled
    rw [idle] at current
    cases current

theorem OneUncancelled.cancelPolling {m : Monitor World Engine} (single : m.OneUncancelled) :
    m.cancelPolling.OneUncancelled := by
  unfold Monitor.cancelPolling
  split
  · exact single
  · rename_i i current
    intro j q found uncancelled
    dsimp only at found
    rw [List.getElem?_modify] at found
    obtain ⟨p, here, rfl⟩ := Option.map_eq_some_iff.1 found
    by_cases same : i = j
    · simp [same] at uncancelled
    · rw [if_neg same] at uncancelled
      have other := single j p here uncancelled
      rw [current] at other
      exact absurd (Option.some.inj other) same

theorem startPolling_watched (m : Monitor World Engine) : m.startPolling.Watched :=
  ⟨m.cancelPolling.pollers.length, {}, rfl, List.getElem?_concat_length, rfl⟩

theorem OneUncancelled.startPolling {m : Monitor World Engine} (single : m.OneUncancelled) :
    m.startPolling.OneUncancelled := by
  intro i p found uncancelled
  have before := single.cancelPolling
  have current := m.cancelPolling_current
  unfold Monitor.startPolling at found ⊢
  generalize m.cancelPolling = stopped at found before current ⊢
  dsimp only at found ⊢
  rcases lt_trichotomy i stopped.pollers.length with older | newest | beyond
  · rw [List.getElem?_append_left older] at found
    have cancelled := before.cancelled current found
    rw [uncancelled] at cancelled
    cases cancelled
  · rw [newest]
  · rw [List.getElem?_eq_none (by simpa using beyond)] at found
    cases found

/-- What comes of an operation other than a pause: it fails; or it succeeds and leaves the deck
    idle; or it succeeds and a new poller looks at the engine that plays. -/
theorem perform_cases (d : Device World Engine) (tree : FileTree) (m : Monitor World Engine)
    {operation : Operation} (other : operation.isPause = false) :
    ((∃ x, (m.perform d tree operation).1 = .error x) ∧
        ∃ deck, (m.perform d tree operation).2 = { m with deck }) ∨
      (m.perform d tree operation).1 = .ok () ∧
        ((∃ deck, deck.state.status = .idle ∧
            (m.perform d tree operation).2 = { m with deck }.publish .idle) ∨
          ∃ deck : Deck World Engine, deck.Plays ∧
            (m.perform d tree operation).2 = { m with deck }.startPolling) := by
  have started {outcome : Result × Deck World Engine} (starts : Deck.Starts outcome) :
      ((∃ x, (perform.started m outcome).1 = .error x) ∧
          ∃ deck, (perform.started m outcome).2 = { m with deck }) ∨
        (perform.started m outcome).1 = .ok () ∧
          ∃ deck : Deck World Engine, deck.Plays ∧
            (perform.started m outcome).2 = { m with deck }.startPolling := by
    rcases outcome with ⟨x | _, deck⟩
    · exact .inl ⟨⟨x, rfl⟩, deck, rfl⟩
    · exact .inr ⟨rfl, deck, starts rfl, rfl⟩
  cases operation with
  | play source =>
    exact (started (m.deck.play_starts d tree source)).imp_right fun h => ⟨h.1, .inr h.2⟩
  | playFrom source ask =>
    exact (started (m.deck.playFrom_starts d tree source ask)).imp_right fun h => ⟨h.1, .inr h.2⟩
  | pause => cases other
  | resume source =>
    exact (started (m.deck.resume_starts d tree source)).imp_right fun h => ⟨h.1, .inr h.2⟩
  | stop =>
    have idle := m.deck.stop_idle d
    unfold perform
    dsimp only
    generalize m.deck.stop d = outcome at idle ⊢
    rcases outcome with ⟨x | _, deck⟩
    · exact .inl ⟨⟨x, rfl⟩, deck, rfl⟩
    · exact .inr ⟨rfl, .inl ⟨deck, idle rfl, rfl⟩⟩
  | reset => exact .inr ⟨rfl, .inl ⟨m.deck.reset d, m.deck.reset_status d, rfl⟩⟩

end Monitor

namespace Usage

/-- The latest operation succeeded, and nothing but a pause is in progress. -/
def Expects (u : Usage World Engine) : Prop :=
  u.latest = some (.ok ()) ∧ ∀ operation, u.asked = some operation → operation.isPause = true

/-- Where the latest operation succeeded a deck that plays is looked at; else no poller is left. -/
structure Tended (u : Usage World Engine) : Prop where
  single : u.monitor.OneUncancelled
  dismissed : ¬ u.Expects → u.monitor.current = none
  watched : u.Expects → u.monitor.deck.state.status = .playing →
    u.monitor.deck.engine.isSome ∧ u.monitor.Watched

theorem start_tended (world : World) (periodMs : Nat) :
    ({ monitor := .start world periodMs } : Usage World Engine).Tended where
  single := fun i p here => by simp [Monitor.start] at here
  dismissed := fun _ => rfl
  watched := fun expects => by cases expects.1

variable {u : Usage World Engine}

theorem Tended.ask (tended : u.Tended) (operation : Operation) (free : u.asked = none) :
    ({ u with monitor := u.monitor.prepare operation, asked := some operation } :
      Usage World Engine).Tended := by
  -- Only a pause leaves the poller alone until it has succeeded.
  cases pauses : operation.isPause with
  | true =>
    cases operation <;> cases pauses
    have same : ({ u with asked := some .pause } : Usage World Engine).Expects ↔ u.Expects := by
      simp [Expects, free, Operation.isPause]
    exact ⟨tended.single, fun not => tended.dismissed fun expects => not (same.2 expects),
      fun expects => tended.watched (same.1 expects)⟩
  | false =>
    have prepared : u.monitor.prepare operation = u.monitor.cancelPolling := by
      cases operation <;> first | rfl | cases pauses
    have not : ¬ ({ u with monitor := u.monitor.prepare operation, asked := some operation } :
        Usage World Engine).Expects := fun expects => by
      have pause := expects.2 operation rfl
      rw [pauses] at pause
      cases pause
    refine ⟨?_, fun _ => ?_, fun expects => absurd expects not⟩
    · rw [prepared]
      exact tended.single.cancelPolling
    · rw [prepared]
      exact u.monitor.cancelPolling_current

theorem Tended.pause (d : Device World Engine) (tree : FileTree) (tended : u.Tended)
    (asked : u.asked = some .pause) :
    ({ monitor := (u.monitor.perform d tree .pause).2, latest := u.latest } :
      Usage World Engine).Tended := by
  have same (monitor : Monitor World Engine) :
      ({ monitor, latest := u.latest } : Usage World Engine).Expects ↔ u.Expects := by
    simp [Expects, asked, Operation.isPause]
  have outcome := u.monitor.deck.pause_outcome d
  unfold Monitor.perform
  dsimp only
  generalize u.monitor.deck.pause d = paused at outcome ⊢
  rcases paused with ⟨x | _, deck⟩
  · rcases outcome with ⟨_, engine, state⟩ | ⟨ok, _⟩
    · refine ⟨tended.single, fun not => tended.dismissed fun expects => not ((same _).2 expects),
        fun expects playing => ?_⟩
      dsimp only at engine state playing ⊢
      rw [state] at playing
      rw [engine]
      exact tended.watched ((same _).1 expects) playing
    · cases ok
  · rcases outcome with ⟨⟨x, failed⟩, _⟩ | ⟨_, status⟩
    · cases failed
    · have stopped := Monitor.OneUncancelled.cancelPolling
        (m := { u.monitor with deck }) tended.single
      have current := Monitor.cancelPolling_current { u.monitor with deck }
      have kept := Monitor.cancelPolling_deck { u.monitor with deck }
      refine ⟨stopped, fun _ => current, fun _ playing => ?_⟩
      change (Monitor.cancelPolling _).deck.state.status = _ at playing
      rw [kept] at playing
      exact absurd (status.symm.trans playing) (by decide)

theorem Tended.perform (d : Device World Engine) (tree : FileTree) (tended : u.Tended)
    {operation : Operation} (asked : u.asked = some operation)
    (other : operation.isPause = false) :
    ({ monitor := (u.monitor.perform d tree operation).2,
       latest := some (u.monitor.perform d tree operation).1 } : Usage World Engine).Tended := by
  have idle : u.monitor.current = none := tended.dismissed fun expects => by
    have pause := expects.2 operation asked
    rw [other] at pause
    cases pause
  rcases u.monitor.perform_cases d tree other with
    ⟨⟨x, failed⟩, deck, left⟩ | ⟨ok, ⟨deck, status, left⟩ | ⟨deck, plays, left⟩⟩
  · rw [failed, left]
    exact ⟨tended.single, fun _ => idle, fun expects => by cases expects.1⟩
  · rw [ok, left]
    refine ⟨tended.single, fun _ => idle, fun _ playing => ?_⟩
    change deck.state.status = _ at playing
    rw [status] at playing
    cases playing
  · rw [ok, left]
    have single : Monitor.OneUncancelled { u.monitor with deck } := tended.single
    refine ⟨single.startPolling, fun not => absurd ⟨rfl, fun _ none => by cases none⟩ not,
      fun _ _ => ⟨?_, Monitor.startPolling_watched _⟩⟩
    have kept := Monitor.cancelPolling_deck { u.monitor with deck }
    exact kept ▸ plays.1

-- Waking, noticing and looking: each changes one poller, and the deck at most by a look.
theorem Tended.tick (tended : u.Tended) (deck : Deck World Engine) {f : Poller → Poller}
    (same : ∀ p, (f p).cancelled = false → p.cancelled = false) (i : Nat)
    (plays : deck.state.status = .playing → u.monitor.deck.state.status = .playing)
    (keeps : deck.state.status = .playing → u.monitor.deck.engine.isSome →
      deck.engine.isSome ∧ ∀ p : Poller, p.isLive → (f p).isLive) :
    ({ u with monitor := { u.monitor with deck, pollers := u.monitor.pollers.modify i f } } :
      Usage World Engine).Tended := by
  refine ⟨tended.single.modify same i, tended.dismissed, fun expects playing => ?_⟩
  obtain ⟨held, watched⟩ := tended.watched expects (plays playing)
  obtain ⟨engine, live⟩ := keeps playing held
  exact ⟨engine, watched.modify live i⟩

theorem Tended.wake (tended : u.Tended) (i : Nat) :
    ({ u with monitor := u.monitor.wake i } : Usage World Engine).Tended := by
  refine tended.tick u.monitor.deck (fun p => ?_) i id fun _ held => ⟨held, fun p => ?_⟩
  · rw [Poller.wake_cancelled]
    exact id
  · rw [Poller.wake_isLive]
    exact id

theorem Tended.notice (tended : u.Tended) (i : Nat) :
    ({ u with monitor := u.monitor.notice i } : Usage World Engine).Tended := by
  refine tended.tick u.monitor.deck (fun p => ?_) i id fun _ held => ⟨held, fun p => ?_⟩
  · split <;> exact id
  · split
    · rename_i waits
      simp [Poller.isLive, waits.2]
    · exact id

theorem Tended.look (d : Device World Engine) (tended : u.Tended) (i : Nat) :
    ({ u with monitor := u.monitor.look d i } : Usage World Engine).Tended := by
  unfold Monitor.look
  split
  · have playing := u.monitor.deck.playing_of_poll d
    generalize u.monitor.deck.poll d = found at playing ⊢
    obtain ⟨outcome, deck⟩ := found
    dsimp only at playing ⊢
    let f := fun p : Poller => { p with phase := outcome.phase }
    have after := tended.tick deck (f := f) (fun _ => id) i (fun now => (playing now).1)
      fun now held => by
        obtain ⟨engine, timestamp, rfl⟩ := (playing now).2 held
        refine ⟨engine, fun p live => ?_⟩
        simp only [Poller.isLive, Bool.and_eq_true] at live ⊢
        exact ⟨live.1, rfl⟩
    exact ⟨after.single, after.dismissed, after.watched⟩
  · exact tended

theorem Tended.turn (d : Device World Engine) (tended : u.Tended) (turn : Turn World) :
    (u.turn d turn).Tended := by
  cases turn with
  | ask operation =>
    unfold Usage.turn
    dsimp only
    split
    · exact tended
    · rename_i free
      exact tended.ask operation (by simpa using free)
  | serve tree =>
    unfold Usage.turn Usage.serve
    dsimp only
    split
    · exact tended
    · rename_i operation asked
      cases pauses : operation.isPause with
      | true =>
        cases operation <;> cases pauses
        exact tended.pause d tree asked
      | false => exact tended.perform d tree asked pauses
  | wake i => exact tended.wake i
  | notice i => exact tended.notice i
  | look i => exact tended.look d i
  | wait ms => exact ⟨tended.single, tended.dismissed, tended.watched⟩
  | drift change => exact ⟨tended.single, tended.dismissed, tended.watched⟩

-- By induction on the turns: each of them keeps the pollers tended.
theorem Tended.run (d : Device World Engine) (tended : u.Tended) (turns : List (Turn World)) :
    (u.run d turns).Tended := by
  induction turns generalizing u with
  | nil => exact tended
  | cons turn rest ih => exact ih (tended.turn d turn)

/-- While no operation is in progress and the deck plays, a poller that was neither cancelled nor is
    done exists exactly when the latest operation other than a pause succeeded. -/
theorem poller_live_iff_latest_ok (d : Device World Engine) (world : World) (periodMs : Nat)
    (turns : List (Turn World)) :
    let u : Usage World Engine := run d { monitor := .start world periodMs } turns
    u.asked = none → u.monitor.deck.state.status = .playing →
      ((∃ p ∈ u.monitor.pollers, p.isLive) ↔ u.latest = some (.ok ())) := by
  intro u free playing
  have tended : u.Tended := (start_tended world periodMs).run d turns
  constructor
  · rintro ⟨p, member, live⟩
    obtain ⟨i, bound, rfl⟩ := List.mem_iff_getElem.1 member
    have here := List.getElem?_eq_getElem bound
    by_contra failed
    -- No poller is current then, so this one was cancelled.
    have dismissed := tended.dismissed fun expects => failed expects.1
    have cancelled := tended.single.cancelled dismissed here
    simp [Poller.isLive, cancelled] at live
  · intro ok
    have expects : u.Expects := ⟨ok, fun operation asked => by rw [free] at asked; cases asked⟩
    obtain ⟨_, i, p, _, here, live⟩ := tended.watched expects playing
    exact ⟨p, List.mem_of_getElem? here, live⟩

theorem started_score_is_watched :
    let tree : FileTree := ⟨[], [(["score.midi"], .file [])]⟩
    let turns : List (Turn Script) :=
      [.ask (.play ⟨"score.ly"⟩), .serve tree, .wake 0, .wait 100, .wake 0]
    let u := run Script.device { monitor := .start {} 100 } turns
    u.asked = none ∧ u.monitor.deck.state.status = .playing ∧
      ((∃ p ∈ u.monitor.pollers, p.isLive) ↔ u.latest = some (.ok ())) := by
  intro tree turns u
  have free : u.asked = none := by decide +kernel
  have playing : u.monitor.deck.state.status = .playing := by decide +kernel
  exact ⟨free, playing, poller_live_iff_latest_ok Script.device {} 100 turns free playing⟩

/-- A score without a MIDI file ends the watch over the one that plays. -/
theorem missing_file_ends_watch :
    let tree : FileTree := ⟨[], [(["score.midi"], .file [])]⟩
    let turns : List (Turn Script) :=
      [.ask (.play ⟨"score.ly"⟩), .serve tree, .ask (.play ⟨"other.ly"⟩), .serve tree]
    let u := run Script.device { monitor := .start {} 100 } turns
    u.asked = none ∧ u.monitor.deck.state.status = .playing ∧
      ¬ ∃ p ∈ u.monitor.pollers, p.isLive := by
  decide +kernel

end Usage

end ScoreDesk.Transport
