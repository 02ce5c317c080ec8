import Mathlib
import ScoreDesk.Proofs.Runs
import ScoreDesk.Proofs.Transport.EndNoticed

namespace ScoreDesk.Transport

variable {World Engine : Type}

def Operation.starts : Operation → Bool
  | .play _ | .playFrom _ _ | .resume _ => true
  | .pause | .stop | .reset => false

def Turn.poller? : Turn World → Option Nat
  | .wake i | .notice i | .look i => some i
  | _ => none

structure Sight where
  positionMs : Nat
  ended : Bool
  durationMs : Nat

def Sight.isEnd (s : Sight) : Bool :=
  s.ended || s.positionMs = 0

def Device.sight (d : Device World Engine) (e : Engine) (world : World) : Sight :=
  let (positionMs, world) := d.position e world
  let (ended, world) := d.ended e world
  ⟨positionMs, ended, (d.duration e world).1⟩

namespace Deck

def Same (deck other : Deck World Engine) : Prop :=
  other.engine = deck.engine ∧ other.state = deck.state

/-- The deck plays an engine that has ended or stands at the beginning. -/
def AtEnd (d : Device World Engine) (deck : Deck World Engine) : Prop :=
  deck.state.status = .playing ∧ ∃ e, deck.engine = some e ∧ (d.sight e deck.world).isEnd

/-- The deck plays an engine that is at its end or not where the state has it. -/
def HasNews (d : Device World Engine) (deck : Deck World Engine) : Prop :=
  deck.state.status = .playing ∧ ∃ e, deck.engine = some e ∧
    let sight := d.sight e deck.world
    (sight.isEnd ∨ sight.positionMs ≠ deck.state.positionMs ∨
      sight.durationMs ≠ deck.state.durationMs)

variable (d : Device World Engine) (deck : Deck World Engine)

/-- A look leaves a deck alone that plays nothing, unloads an engine at its end, and else writes
    down what it sees. -/
theorem poll_sight :
    ¬ deck.Plays ∧ (deck.poll d).2 = deck ∨
      deck.state.status = .playing ∧ ∃ e, deck.engine = some e ∧
        let sight := d.sight e deck.world
        (sight.isEnd = true ∧ (deck.poll d).2.Unloaded ∨
          sight.isEnd = false ∧ (deck.poll d).2.engine = some e ∧
            (deck.poll d).2.state = { deck.state with
              positionMs := sight.positionMs, durationMs := sight.durationMs }) := by
  unfold poll
  split
  · rename_i e playing held
    refine .inr ⟨playing, e, held, ?_⟩
    dsimp only
    split
    · rename_i ends
      exact .inl ⟨ends, reset_unloaded d _⟩
    · rename_i onward
      exact .inr ⟨Bool.eq_false_of_not_eq_true onward, held, rfl⟩
  · rename_i paused
    refine .inl ⟨fun plays => ?_, rfl⟩
    rw [plays.2] at paused
    cases paused
  · rename_i busy
    refine .inl ⟨fun plays => ?_, rfl⟩
    obtain ⟨e, held⟩ := Option.isSome_iff_exists.1 plays.1
    exact busy e plays.2 held

variable {d deck}

theorem Unloaded.not_plays (unloaded : deck.Unloaded) : ¬ deck.Plays := by
  intro plays
  have held := plays.1
  rw [unloaded.1] at held
  cases held

theorem plays_of_held {e : Engine} (held : deck.engine = some e)
    (playing : deck.state.status = .playing) : deck.Plays :=
  ⟨by rw [held]; rfl, playing⟩

theorem poll_plays_iff : (deck.poll d).2.Plays ↔ deck.Plays ∧ ¬ deck.AtEnd d := by
  rcases deck.poll_sight d with
    ⟨idle, same⟩ | ⟨playing, e, held, ⟨ends, unloaded⟩ | ⟨onward, engine, state⟩⟩
  · rw [same]
    exact ⟨fun plays => absurd plays idle, And.left⟩
  · constructor
    · exact fun plays => absurd plays unloaded.not_plays
    · exact fun both => absurd ⟨playing, e, held, ends⟩ both.2
  · refine ⟨fun _ => ⟨plays_of_held held playing, ?_⟩, fun _ => plays_of_held engine ?_⟩
    · rintro ⟨_, e', held', ends⟩
      obtain rfl := Option.some.inj (held.symm.trans held')
      rw [onward] at ends
      cases ends
    · rw [state]
      exact playing

theorem poll_same_iff : deck.Same (deck.poll d).2 ↔ ¬ deck.HasNews d := by
  rcases deck.poll_sight d with
    ⟨idle, same⟩ | ⟨playing, e, held, ⟨ends, unloaded⟩ | ⟨onward, engine, state⟩⟩
  · rw [same]
    refine ⟨fun _ news => ?_, fun _ => ⟨rfl, rfl⟩⟩
    obtain ⟨playing, e, held, _⟩ := news
    exact idle (plays_of_held held playing)
  · refine ⟨fun same => ?_, fun none => absurd ⟨playing, e, held, .inl ends⟩ none⟩
    have gone := same.1
    rw [unloaded.1, held] at gone
    cases gone
  · constructor
    · rintro ⟨_, same⟩ ⟨_, e', held', news⟩
      obtain rfl := Option.some.inj (held.symm.trans held')
      rw [state] at same
      have position := congrArg State.positionMs same
      have duration := congrArg State.durationMs same
      rcases news with ends | elsewhere | longer
      · rw [onward] at ends
        cases ends
      · exact elsewhere position
      · exact longer duration
    · intro none
      refine ⟨engine.trans held.symm, ?_⟩
      rw [state]
      have position : (d.sight e deck.world).positionMs = deck.state.positionMs := by
        by_contra elsewhere
        exact none ⟨playing, e, held, .inr (.inl elsewhere)⟩
      have duration : (d.sight e deck.world).durationMs = deck.state.durationMs := by
        by_contra longer
        exact none ⟨playing, e, held, .inr (.inr longer)⟩
      rw [position, duration]

end Deck

namespace Monitor

variable (m : Monitor World Engine) (i : Nat)

def Cancelled : Prop :=
  ∃ p, m.pollers[i]? = some p ∧ p.cancelled = true

def Due : Prop :=
  ∃ p, m.pollers[i]? = some p ∧ p.phase = .waiting ∧ ∃ due ≤ m.now, p.due = some due

/-- The poller has taken its beat and will look as soon as it has the deck. -/
def Awaits : Prop :=
  ∃ p, m.pollers[i]? = some p ∧ p.phase = .looking

variable {m i} {n : Monitor World Engine} {f : Poller → Poller} {j : Nat}

theorem awaits_modify (modified : n.pollers = m.pollers.modify j f) :
    n.Awaits i ↔ ∃ p, m.pollers[i]? = some p ∧ (if j = i then f p else p).phase = .looking := by
  unfold Awaits
  rw [modified, List.getElem?_modify]
  cases m.pollers[i]? with
  | none => simp
  | some p => by_cases same : j = i <;> simp [same]

theorem awaits_modify_of_iff (modified : n.pollers = m.pollers.modify j f)
    (same : ∀ p, (f p).phase = .looking ↔ p.phase = .looking) : n.Awaits i ↔ m.Awaits i := by
  rw [awaits_modify modified]
  refine exists_congr fun p => and_congr_right fun _ => ?_
  split
  · exact same p
  · exact Iff.rfl

theorem awaits_cancelPolling : m.cancelPolling.Awaits i ↔ m.Awaits i := by
  unfold cancelPolling
  split
  · exact Iff.rfl
  · exact awaits_modify_of_iff rfl fun _ => Iff.rfl

theorem awaits_startPolling : m.startPolling.Awaits i ↔ m.Awaits i := by
  refine Iff.trans ?_ awaits_cancelPolling
  unfold startPolling Awaits
  dsimp only
  rw [List.getElem?_append]
  split
  · exact Iff.rfl
  · rename_i beyond
    have absent := List.getElem?_eq_none (Nat.le_of_not_lt beyond)
    constructor
    · rintro ⟨p, here, looking⟩
      obtain rfl := List.mem_singleton.1 (List.mem_of_getElem? here)
      cases looking
    · rintro ⟨p, here, _⟩
      rw [absent] at here
      cases here

theorem prepare_deck (operation : Operation) : (m.prepare operation).deck = m.deck := by
  cases operation <;> first | rfl | exact m.cancelPolling_deck

theorem awaits_prepare (operation : Operation) :
    (m.prepare operation).Awaits i ↔ m.Awaits i := by
  cases operation <;> first | exact Iff.rfl | exact awaits_cancelPolling

theorem perform_effect (d : Device World Engine) (tree : FileTree) (m : Monitor World Engine)
    (operation : Operation) :
    let outcome := m.deck.operate d tree operation
    let held : Monitor World Engine := { m with deck := outcome.2 }
    (m.perform d tree operation).1 = outcome.1 ∧
      ((∃ x, outcome.1 = .error x) ∧ (m.perform d tree operation).2 = held ∨
        outcome.1 = .ok () ∧
          (operation.starts = true ∧ (m.perform d tree operation).2 = held.startPolling ∨
            operation = .pause ∧
              (m.perform d tree operation).2 = held.cancelPolling.publish .paused ∨
            (operation = .stop ∨ operation = .reset) ∧
              (m.perform d tree operation).2 = held.publish .idle)) := by
  have started (outcome : Result × Deck World Engine) :
      (perform.started m outcome).1 = outcome.1 ∧
        ((∃ x, outcome.1 = .error x) ∧
            (perform.started m outcome).2 = { m with deck := outcome.2 } ∨
          outcome.1 = .ok () ∧
            (perform.started m outcome).2 = { m with deck := outcome.2 }.startPolling) := by
    rcases outcome with ⟨x | _, deck⟩
    · exact ⟨rfl, .inl ⟨⟨x, rfl⟩, rfl⟩⟩
    · exact ⟨rfl, .inr ⟨rfl, rfl⟩⟩
  cases operation with
  | play source =>
    exact (started (m.deck.play d tree source)).imp_right
      (Or.imp_right fun h => ⟨h.1, .inl ⟨rfl, h.2⟩⟩)
  | playFrom source ask =>
    exact (started (m.deck.playFrom d tree source ask)).imp_right
      (Or.imp_right fun h => ⟨h.1, .inl ⟨rfl, h.2⟩⟩)
  | resume source =>
    exact (started (m.deck.resume d tree source)).imp_right
      (Or.imp_right fun h => ⟨h.1, .inl ⟨rfl, h.2⟩⟩)
  | pause =>
    unfold perform Deck.operate
    dsimp only
    generalize m.deck.pause d = paused
    rcases paused with ⟨x | _, deck⟩
    · exact ⟨rfl, .inl ⟨⟨x, rfl⟩, rfl⟩⟩
    · exact ⟨rfl, .inr ⟨rfl, .inr (.inl ⟨rfl, rfl⟩)⟩⟩
  | stop =>
    unfold perform Deck.operate
    dsimp only
    generalize m.deck.stop d = stopped
    rcases stopped with ⟨x | _, deck⟩
    · exact ⟨rfl, .inl ⟨⟨x, rfl⟩, rfl⟩⟩
    · exact ⟨rfl, .inr ⟨rfl, .inr (.inr ⟨.inl rfl, rfl⟩)⟩⟩
  | reset => exact ⟨rfl, .inr ⟨rfl, .inr (.inr ⟨.inr rfl, rfl⟩)⟩⟩

theorem perform_deck (d : Device World Engine) (tree : FileTree) (m : Monitor World Engine)
    (operation : Operation) :
    (m.perform d tree operation).2.deck = (m.deck.operate d tree operation).2 := by
  rcases (m.perform_effect d tree operation).2 with
    ⟨-, left⟩ | ⟨-, ⟨-, left⟩ | ⟨-, left⟩ | ⟨-, left⟩⟩
  · rw [left]
  · rw [left]
    exact cancelPolling_deck _
  · rw [left]
    exact cancelPolling_deck _
  · rw [left]
    rfl

theorem awaits_perform (d : Device World Engine) (tree : FileTree) (operation : Operation) :
    (m.perform d tree operation).2.Awaits i ↔ m.Awaits i := by
  rcases (m.perform_effect d tree operation).2 with
    ⟨-, left⟩ | ⟨-, ⟨-, left⟩ | ⟨-, left⟩ | ⟨-, left⟩⟩
  · rw [left]
    exact Iff.rfl
  · rw [left]
    exact awaits_startPolling
  · rw [left]
    exact awaits_cancelPolling
  · rw [left]
    exact Iff.rfl

theorem wake_looking_iff (period now : Nat) (p : Poller) : (p.wake period now).phase = .looking ↔
    (p.phase = .waiting ∧ ∃ due ≤ now, p.due = some due) ∨ p.phase = .looking := by
  unfold Poller.wake
  split
  · rename_i waits unset
    simp [waits, unset]
  · rename_i due waits set
    by_cases ready : due ≤ now
    · simp [waits, set, ready]
    · simp [waits, set, ready]
  · rename_i unset set
    refine ⟨.inr, fun either => either.resolve_left ?_⟩
    rintro ⟨waits, due, -, known⟩
    exact set due waits known

theorem awaits_wake (j : Nat) : (m.wake j).Awaits i ↔ j = i ∧ m.Due i ∨ m.Awaits i := by
  rw [awaits_modify (m := m) (n := m.wake j) rfl]
  constructor
  · rintro ⟨p, here, looking⟩
    split at looking
    · rename_i same
      rcases (wake_looking_iff _ _ p).1 looking with ready | before
      · exact .inl ⟨same, p, here, ready⟩
      · exact .inr ⟨p, here, before⟩
    · exact .inr ⟨p, here, looking⟩
  · rintro (⟨rfl, p, here, ready⟩ | ⟨p, here, looking⟩)
    · refine ⟨p, here, ?_⟩
      rw [if_pos rfl]
      exact (wake_looking_iff _ _ p).2 (.inl ready)
    · refine ⟨p, here, ?_⟩
      split
      · exact (wake_looking_iff _ _ p).2 (.inr looking)
      · exact looking

theorem awaits_notice (j : Nat) : (m.notice j).Awaits i ↔ m.Awaits i := by
  refine awaits_modify_of_iff rfl fun p => ?_
  split
  · rename_i waits
    simp [waits.1]
  · exact Iff.rfl

theorem look_cases (d : Device World Engine) (m : Monitor World Engine) (j : Nat) :
    m.Awaits j ∧ (m.look d j).deck = (m.deck.poll d).2 ∧
        (∃ phase, phase ≠ .looking ∧
          (m.look d j).pollers = m.pollers.modify j fun p => { p with phase }) ∧
        (m.look d j).current = m.current ∨
      ¬ m.Awaits j ∧ m.look d j = m := by
  unfold look
  split
  · rename_i due cancelled here
    refine .inl ⟨⟨_, here, rfl⟩, rfl, ⟨_, ?_, rfl⟩, rfl⟩
    split <;> decide
  · rename_i waits
    refine .inr ⟨?_, rfl⟩
    rintro ⟨⟨due, cancelled, phase⟩, here, rfl⟩
    exact waits due cancelled here

theorem awaits_look (d : Device World Engine) (j : Nat) :
    (m.look d j).Awaits i ↔ m.Awaits i ∧ j ≠ i := by
  rcases m.look_cases d j with ⟨_, _, ⟨phase, done, modified⟩, _⟩ | ⟨waits, same⟩
  · rw [awaits_modify modified]
    constructor
    · rintro ⟨p, here, looking⟩
      split at looking
      · exact absurd looking done
      · rename_i other
        exact ⟨⟨p, here, looking⟩, other⟩
    · rintro ⟨⟨p, here, looking⟩, other⟩
      exact ⟨p, here, by rwa [if_neg other]⟩
  · rw [same]
    refine ⟨fun awaits => ⟨awaits, ?_⟩, And.left⟩
    rintro rfl
    exact waits awaits

theorem length_cancelPolling : m.cancelPolling.pollers.length = m.pollers.length := by
  unfold cancelPolling
  split
  · rfl
  · exact List.length_modify ..

theorem current_startPolling : m.startPolling.current = some m.pollers.length := by
  rw [← length_cancelPolling]
  rfl

theorem started_ok {outcome : Result × Deck World Engine} (starts : Deck.Starts outcome)
    (ok : (perform.started m outcome).1 = .ok ()) :
    ∃ deck : Deck World Engine, deck.Plays ∧
      (perform.started m outcome).2 = { m with deck }.startPolling := by
  rcases outcome with ⟨x | _, deck⟩
  · cases ok
  · exact ⟨deck, starts rfl, rfl⟩

theorem perform_starts (d : Device World Engine) (tree : FileTree) {operation : Operation}
    (starts : operation.starts = true) (ok : (m.perform d tree operation).1 = .ok ()) :
    ∃ deck : Deck World Engine, deck.Plays ∧
      (m.perform d tree operation).2 = { m with deck }.startPolling := by
  cases operation with
  | play source => exact started_ok (m.deck.play_starts d tree source) ok
  | playFrom source ask => exact started_ok (m.deck.playFrom_starts d tree source ask) ok
  | resume source => exact started_ok (m.deck.resume_starts d tree source) ok
  | pause => cases starts
  | stop => cases starts
  | reset => cases starts

end Monitor

namespace Usage

variable {u : Usage World Engine}

theorem awaits_turn (d : Device World Engine) (t : Turn World) (i : Nat) :
    (u.turn d t).monitor.Awaits i ↔
      (t = .wake i ∧ u.monitor.Due i) ∨ u.monitor.Awaits i ∧ t ≠ .look i := by
  cases t with
  | ask operation =>
    unfold turn
    dsimp only
    split
    · simp
    · simp [Monitor.awaits_prepare]
  | serve tree =>
    unfold turn serve
    dsimp only
    split
    · simp
    · simp [Monitor.awaits_perform]
  | wake j => simp [turn, Monitor.awaits_wake]
  | notice j => simp [turn, Monitor.awaits_notice]
  | look j => simp [turn, Monitor.awaits_look]
  | wait ms => simp [turn, Monitor.Awaits]
  | drift change => simp [turn, Monitor.Awaits]

/-- A poller waits for the deck when a beat of its came and it has not looked since. -/
theorem awaits_run_iff (d : Device World Engine) {i : Nat} (fresh : ¬ u.monitor.Awaits i)
    (turns : List (Turn World)) :
    (u.run d turns).monitor.Awaits i ↔
      ∃ before after : List (Turn World), turns = before ++ .wake i :: after ∧
        (u.run d before).monitor.Due i ∧ .look i ∉ after := by
  have causes := @foldl_iff_last_cause _ _ (turn d) u (fun v => v.monitor.Awaits i)
    (fun v t => t = .wake i ∧ v.monitor.Due i) (· ≠ .look i) fresh turns
    fun before t _ => awaits_turn d t i
  refine causes.trans ⟨?_, ?_⟩
  · rintro ⟨before, _, after, split, ⟨rfl, due⟩, kept⟩
    exact ⟨before, after, split, due, fun member => kept _ member rfl⟩
  · rintro ⟨before, after, split, due, unseen⟩
    exact ⟨before, .wake i, after, split, ⟨rfl, due⟩, fun later member same =>
      unseen (same ▸ member)⟩

theorem turn_same_iff (d : Device World Engine) {t : Turn World} {i : Nat}
    (own : t.poller? = some i) :
    u.monitor.deck.Same (u.turn d t).monitor.deck ↔
      ¬ (t = .look i ∧ u.monitor.Awaits i ∧ u.monitor.deck.HasNews d) := by
  have alone (other : t ≠ .look i) (same : (u.turn d t).monitor.deck = u.monitor.deck) :
      u.monitor.deck.Same (u.turn d t).monitor.deck ↔
        ¬ (t = .look i ∧ u.monitor.Awaits i ∧ u.monitor.deck.HasNews d) := by
    rw [same]
    exact ⟨fun _ late => other late.1, fun _ => ⟨rfl, rfl⟩⟩
  cases t with
  | wake j => exact alone (by simp) rfl
  | notice j => exact alone (by simp) rfl
  | look j =>
    obtain rfl := Option.some.inj own
    rcases u.monitor.look_cases d j with ⟨awaits, looked, _⟩ | ⟨waits, same⟩
    · change u.monitor.deck.Same (u.monitor.look d j).deck ↔ _
      rw [looked, Deck.poll_same_iff]
      simp [awaits]
    · have left : (u.turn d (.look j)).monitor.deck = u.monitor.deck := congrArg (·.deck) same
      rw [left]
      exact ⟨fun _ late => waits late.2.1, fun _ => ⟨rfl, rfl⟩⟩
  | ask operation => cases own
  | serve tree => cases own
  | wait ms => cases own
  | drift change => cases own

theorem not_plays_turn_iff (d : Device World Engine) {t : Turn World}
    (unserved : ∀ tree, t ≠ .serve tree) :
    ¬ (u.turn d t).monitor.deck.Plays ↔
      (∃ i, t = .look i ∧ u.monitor.Awaits i ∧ u.monitor.deck.AtEnd d) ∨
        ¬ u.monitor.deck.Plays := by
  have alone (other : ∀ i, t ≠ .look i) (plays : (u.turn d t).monitor.deck.Plays ↔
      u.monitor.deck.Plays) : ¬ (u.turn d t).monitor.deck.Plays ↔
        (∃ i, t = .look i ∧ u.monitor.Awaits i ∧ u.monitor.deck.AtEnd d) ∨
          ¬ u.monitor.deck.Plays := by
    rw [plays]
    exact ⟨.inr, fun cause => cause.elim (fun ⟨i, late, _⟩ => absurd late (other i)) id⟩
  cases t with
  | ask operation =>
    refine alone (by simp) ?_
    unfold turn
    dsimp only
    split
    · exact Iff.rfl
    · rw [Monitor.prepare_deck]
  | serve tree => exact absurd rfl (unserved tree)
  | wake i => exact alone (by simp) Iff.rfl
  | notice i => exact alone (by simp) Iff.rfl
  | look i =>
    rcases u.monitor.look_cases d i with ⟨awaits, looked, _⟩ | ⟨waits, same⟩
    · change ¬ (u.monitor.look d i).deck.Plays ↔ _
      rw [looked, Deck.poll_plays_iff]
      constructor
      · intro ceased
        by_cases plays : u.monitor.deck.Plays
        · exact .inl ⟨i, rfl, awaits, by_contra fun onward => ceased ⟨plays, onward⟩⟩
        · exact .inr plays
      · rintro (⟨_, _, _, ends⟩ | idle) ⟨plays, onward⟩
        · exact onward ends
        · exact idle plays
    · change ¬ (u.monitor.look d i).deck.Plays ↔ _
      rw [same]
      refine ⟨.inr, fun cause => cause.elim ?_ id⟩
      rintro ⟨j, late, awaits, _⟩
      cases late
      exact absurd awaits waits
  | wait ms => exact alone (by simp) Iff.rfl
  | drift change => exact alone (by simp) Iff.rfl

theorem not_plays_run_iff (d : Device World Engine) (plays : u.monitor.deck.Plays)
    {turns : List (Turn World)} (unserved : ∀ t ∈ turns, ∀ tree, t ≠ .serve tree) :
    ¬ (u.run d turns).monitor.deck.Plays ↔
      ∃ (before : List (Turn World)) (i : Nat) (after : List (Turn World)),
        turns = before ++ .look i :: after ∧
        (u.run d before).monitor.Awaits i ∧ (u.run d before).monitor.deck.AtEnd d := by
  have causes := @foldl_iff_last_cause _ _ (turn d) u (fun v => ¬ v.monitor.deck.Plays)
    (fun v t => ∃ i, t = .look i ∧ v.monitor.Awaits i ∧ v.monitor.deck.AtEnd d) (fun _ => True)
    (not_not.2 plays) turns fun before t part => by
      have member : t ∈ turns := part.subset (by simp)
      rw [not_plays_turn_iff d (unserved t member), and_true]
  refine causes.trans ⟨?_, ?_⟩
  · rintro ⟨before, _, after, split, ⟨i, rfl, awaits, ends⟩, _⟩
    exact ⟨before, i, after, split, awaits, ends⟩
  · rintro ⟨before, i, after, split, awaits, ends⟩
    exact ⟨before, .look i, after, split, ⟨i, rfl, awaits, ends⟩, fun _ _ => trivial⟩

theorem current_turn (d : Device World Engine) {t : Turn World}
    (unserved : ∀ tree, t ≠ .serve tree) :
    (u.turn d t).monitor.current = u.monitor.current ∨ (u.turn d t).monitor.current = none := by
  cases t with
  | ask operation =>
    unfold turn
    dsimp only
    split
    · exact .inl rfl
    · cases operation <;> first | exact .inl rfl | exact .inr u.monitor.cancelPolling_current
  | serve tree => exact absurd rfl (unserved tree)
  | look i =>
    rcases u.monitor.look_cases d i with ⟨_, _, _, current⟩ | ⟨_, same⟩
    · exact .inl current
    · exact .inl (congrArg (·.current) same)
  | wake i => exact .inl rfl
  | notice i => exact .inl rfl
  | wait ms => exact .inl rfl
  | drift change => exact .inl rfl

theorem current_run (d : Device World Engine) {turns : List (Turn World)}
    (unserved : ∀ t ∈ turns, ∀ tree, t ≠ .serve tree) :
    (u.run d turns).monitor.current = u.monitor.current ∨
      (u.run d turns).monitor.current = none := by
  induction turns generalizing u with
  | nil => exact .inl rfl
  | cons t rest ih =>
    rw [List.forall_mem_cons] at unserved
    rcases ih unserved.2 with same | gone
    · have first := u.current_turn d unserved.1
      rwa [← same] at first
    · exact .inr gone

def LeavesAlone (d : Device World Engine) (u : Usage World Engine) (turns : List (Turn World)) :
    Prop :=
  ∀ before t after i, turns = before ++ t :: after → t.poller? = some i →
    (u.run d before).monitor.Cancelled i →
      (u.run d before).monitor.deck.Same ((u.run d before).turn d t).monitor.deck

/-- Cancelled pollers change nothing unless one whose beat had come before it noticed looks after
    all and has news. So what was started successfully is ended, until the next operation is served,
    by a look that finds its end, and only by its own poller or by such a late one. -/
theorem cancelled_change_iff_late (d : Device World Engine) (world : World) (periodMs : Nat) :
    let u : Usage World Engine := { monitor := .start world periodMs }
    (∀ turns, u.LeavesAlone d turns ↔
      ¬ ∃ (before : List (Turn World)) (i : Nat) (after : List (Turn World)),
        turns = before ++ .look i :: after ∧ (u.run d before).monitor.Cancelled i ∧
        (∃ first between : List (Turn World), before = first ++ .wake i :: between ∧
          (u.run d first).monitor.Due i ∧ .look i ∉ between) ∧
        (u.run d before).monitor.deck.HasNews d) ∧
    ∀ (before : List (Turn World)) (tree : FileTree) (operation : Operation)
      (after : List (Turn World)),
      let asking := u.run d before
      let later (turns : List (Turn World)) := (asking.turn d (.serve tree)).run d turns
      asking.asked = some operation → operation.starts = true →
        (asking.monitor.perform d tree operation).1 = .ok () →
        (∀ t ∈ after, ∀ tree, t ≠ .serve tree) →
          (¬ (later after).monitor.deck.Plays ↔
            ∃ (first : List (Turn World)) (i : Nat) (rest : List (Turn World)),
              after = first ++ .look i :: rest ∧
              (later first).monitor.Awaits i ∧ (later first).monitor.deck.AtEnd d ∧
              (i = asking.monitor.pollers.length ∨ (later first).monitor.Cancelled i)) := by
  intro u
  have fresh (i : Nat) : ¬ u.monitor.Awaits i := by
    rintro ⟨p, here, _⟩
    cases here
  have tended : u.Tended := start_tended world periodMs
  constructor
  · intro turns
    constructor
    · rintro alone ⟨before, i, after, split, cancelled, taken, news⟩
      have same := alone before (.look i) after i split rfl cancelled
      rw [turn_same_iff d rfl] at same
      exact same ⟨rfl, (awaits_run_iff d (fresh i) before).2 taken, news⟩
    · rintro none before t after i split own cancelled
      rw [turn_same_iff d own]
      rintro ⟨rfl, awaits, news⟩
      exact none ⟨before, i, after, split, cancelled,
        (awaits_run_iff d (fresh i) before).1 awaits, news⟩
  · intro before tree operation after asking later asked starts ok unserved
    obtain ⟨deck, plays, started⟩ := Monitor.perform_starts d tree starts ok
    have served : (asking.turn d (.serve tree)).monitor =
        Monitor.startPolling { asking.monitor with deck } := by
      unfold turn serve
      rw [asked]
      exact started
    have playing : (asking.turn d (.serve tree)).monitor.deck.Plays := by
      rw [served]
      have kept := Monitor.cancelPolling_deck { asking.monitor with deck }
      exact kept ▸ plays
    have current : (asking.turn d (.serve tree)).monitor.current =
        some asking.monitor.pollers.length := by
      rw [served]
      exact Monitor.current_startPolling
    rw [not_plays_run_iff d playing unserved]
    refine exists_congr fun first => exists_congr fun i => exists_congr fun rest =>
      and_congr_right fun split => and_congr_right fun awaits => ?_
    refine ⟨fun ends => ⟨ends, ?_⟩, And.left⟩
    -- A poller that was not cancelled is the current one, which is the one started last.
    have single := (((tended.run d before).turn d (.serve tree)).run d first).single
    have still := current_run d (u := asking.turn d (.serve tree)) fun t member =>
      unserved t (by rw [split]; exact List.mem_append_left _ member)
    obtain ⟨p, here, _⟩ := awaits
    cases cancelled : p.cancelled with
    | true => exact .inr ⟨p, here, cancelled⟩
    | false =>
      have mine := single i p here cancelled
      rw [mine, current] at still
      rcases still with same | gone
      · exact .inl (Option.some.inj same)
      · cases gone

/-- A poller that was cancelled when its beat had come takes the beginning of the next playback for
    its end. -/
theorem cancelled_poller_ends_next_playback :
    let tree : FileTree := ⟨[], [(["score.midi"], .file [])]⟩
    let play : List (Turn Script) := [.ask (.play ⟨"score.ly"⟩), .serve tree]
    let turns := play ++ [.wake 0, .wait 100] ++ play ++ [.wake 0]
    let u : Usage Script Unit := { monitor := .start {} 100 }
    let before := u.run Script.device turns
    let after := before.turn Script.device (.look 0)
    ¬ u.LeavesAlone Script.device (turns ++ [.look 0]) ∧
      before.latest = some (.ok ()) ∧ before.monitor.deck.Plays ∧
      after.monitor.deck.Unloaded ∧ after.monitor.current = some 1 ∧ after.asked = none := by
  intro tree play turns u
  -- The state is named so that nothing below evaluates it again.
  dsimp only
  generalize run : u.run Script.device turns = before
  have first : before.monitor.pollers[0]? = some ⟨some 200, true, .looking⟩ := by
    rw [← run]
    decide +kernel
  have held : before.latest = some (.ok ()) ∧ before.monitor.deck.engine = some () ∧
      before.monitor.deck.state.status = .playing := by
    rw [← run]
    decide +kernel
  generalize looked : before.turn Script.device (.look 0) = after
  have gone : after.monitor.deck.engine = none ∧ after.monitor.deck.state = .zero ∧
      after.monitor.current = some 1 ∧ after.asked = none := by
    rw [← looked, ← run]
    decide +kernel
  refine ⟨fun alone => ?_, held.1, Deck.plays_of_held held.2.1 held.2.2, ⟨gone.1, gone.2.1⟩,
    gone.2.2⟩
  have same := alone turns (.look 0) [] 0 rfl rfl
  rw [run, looked] at same
  have emptied := (same ⟨_, first, rfl⟩).1
  rw [gone.1, held.2.1] at emptied
  cases emptied

end Usage

end ScoreDesk.Transport
