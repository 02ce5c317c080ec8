import Mathlib
import ScoreDesk.Proofs.Interactive.Turns

namespace ScoreDesk.Transport

theorem Poll.phase_cases (outcome : Poll) :
    (∃ timestamp, outcome = .progress timestamp) ∧ outcome.phase = .waiting ∨
      (∀ timestamp, outcome ≠ .progress timestamp) ∧ outcome.phase = .finished := by
  cases outcome with
  | progress timestamp => exact .inl ⟨⟨timestamp, rfl⟩, rfl⟩
  | _ => exact .inr ⟨nofun, rfl⟩

namespace Monitor

variable {World Engine : Type} {d : Device World Engine} {tree : FileTree}
variable {m n : Monitor World Engine} {i : Nat} {f : Poller → Poller}

theorem OneUncancelled.prepare (single : m.OneUncancelled) (operation : Operation) :
    (m.prepare operation).OneUncancelled := by
  cases operation <;> first | exact single | exact single.cancelPolling

theorem OneUncancelled.served (single : m.OneUncancelled) (d : Device World Engine)
    (tree : FileTree) (operation : Operation) :
    (m.perform d tree operation).2.OneUncancelled := by
  have held (deck : Deck World Engine) :
      ({ m with deck } : Monitor World Engine).OneUncancelled := single
  rcases (m.perform_effect d tree operation).2 with
    ⟨-, left⟩ | ⟨-, ⟨-, left⟩ | ⟨-, left⟩ | ⟨-, left⟩⟩
  · rw [left]
    exact held _
  · rw [left]
    exact (held _).startPolling
  · rw [left]
    exact (held _).cancelPolling
  · rw [left]
    exact single

theorem OneUncancelled.wake (single : m.OneUncancelled) (i : Nat) : (m.wake i).OneUncancelled :=
  single.modify (fun p => by rw [Poller.wake_cancelled]; exact id) i

theorem OneUncancelled.notice (single : m.OneUncancelled) (i : Nat) :
    (m.notice i).OneUncancelled :=
  single.modify (fun p => by split <;> exact id) i

theorem OneUncancelled.look (single : m.OneUncancelled) (d : Device World Engine) (i : Nat) :
    (m.look d i).OneUncancelled := by
  by_cases awaits : m.Awaits i
  · rw [look_of_awaits d awaits]
    exact single.modify (f := fun p => { p with phase := (m.deck.poll d).1.phase }) (fun p => id) i
  · rw [look_of_not_awaits d awaits]
    exact single

theorem live_iff_watched (single : m.OneUncancelled) :
    (∃ p ∈ m.pollers, p.isLive = true) ↔ m.Watched := by
  constructor
  · rintro ⟨p, member, live⟩
    obtain ⟨j, here⟩ := List.mem_iff_getElem?.1 member
    have uncancelled : p.cancelled = false := by
      simp only [Poller.isLive, Bool.and_eq_true, Bool.not_eq_true'] at live
      exact live.1
    exact ⟨j, p, single j p here uncancelled, here, live⟩
  · rintro ⟨j, p, -, here, live⟩
    exact ⟨p, List.mem_of_getElem? here, live⟩

theorem watched_modify (current : n.current = m.current)
    (modified : n.pollers = m.pollers.modify i f) :
    n.Watched ↔ ∃ j p, m.current = some j ∧ m.pollers[j]? = some p ∧
      (if i = j then f p else p).isLive = true := by
  unfold Watched
  rw [current, modified]
  refine exists_congr fun j => ?_
  rw [List.getElem?_modify]
  cases m.pollers[j]? with
  | none => simp
  | some p => by_cases same : i = j <;> simp [same]

theorem watched_modify_of_same (current : n.current = m.current)
    (modified : n.pollers = m.pollers.modify i f) (same : ∀ p, (f p).isLive = p.isLive) :
    n.Watched ↔ m.Watched := by
  rw [watched_modify current modified]
  refine exists_congr fun j => exists_congr fun p => ?_
  refine and_congr_right fun _ => and_congr_right fun _ => ?_
  split
  · rw [same]
  · exact Iff.rfl

theorem watched_wake (i : Nat) : (m.wake i).Watched ↔ m.Watched :=
  watched_modify_of_same rfl rfl (Poller.wake_isLive m.period m.now)

theorem watched_notice (i : Nat) : (m.notice i).Watched ↔ m.Watched := by
  refine watched_modify_of_same rfl rfl fun p => ?_
  split
  · rename_i waits
    simp [Poller.isLive, waits.2]
  · rfl

def CurrentRests (d : Device World Engine) (m : Monitor World Engine) (i : Nat) : Prop :=
  m.current = some i ∧ m.Awaits i ∧ ∀ timestamp, (m.deck.poll d).1 ≠ .progress timestamp

theorem watched_look (d : Device World Engine) (i : Nat) :
    (m.look d i).Watched ↔ m.Watched ∧ ¬ m.CurrentRests d i := by
  by_cases awaits : m.Awaits i
  · let f (p : Poller) : Poller := { p with phase := (m.deck.poll d).1.phase }
    have onward_iff (p : Poller) (here : m.pollers[i]? = some p) : (f p).isLive = true ↔
        p.isLive = true ∧ ∃ timestamp, (m.deck.poll d).1 = .progress timestamp := by
      obtain ⟨q, there, looking⟩ := awaits
      obtain rfl := Option.some.inj (here.symm.trans there)
      rcases (m.deck.poll d).1.phase_cases with ⟨progress, phase⟩ | ⟨none, phase⟩
      · simp [f, Poller.isLive, phase, looking, progress]
      · simp [f, Poller.isLive, phase, none]
    have current : (m.look d i).current = m.current :=
      congrArg (·.current) (look_of_awaits d awaits)
    have modified : (m.look d i).pollers = m.pollers.modify i f :=
      congrArg (·.pollers) (look_of_awaits d awaits)
    rw [watched_modify current modified]
    constructor
    · rintro ⟨j, p, current, here, live⟩
      by_cases same : i = j
      · subst same
        rw [if_pos rfl, onward_iff p here] at live
        obtain ⟨before, timestamp, progress⟩ := live
        exact ⟨⟨i, p, current, here, before⟩, fun rests => rests.2.2 timestamp progress⟩
      · rw [if_neg same] at live
        refine ⟨⟨j, p, current, here, live⟩, fun rests => same ?_⟩
        exact Option.some.inj (rests.1.symm.trans current)
    · rintro ⟨⟨j, p, current, here, live⟩, onward⟩
      refine ⟨j, p, current, here, ?_⟩
      by_cases same : i = j
      · subst same
        rw [if_pos rfl, onward_iff p here]
        refine ⟨live, ?_⟩
        by_contra none
        exact onward ⟨current, awaits, fun timestamp progress => none ⟨timestamp, progress⟩⟩
      · rwa [if_neg same]
  · rw [look_of_not_awaits d awaits]
    exact ⟨fun watched => ⟨watched, fun rests => awaits rests.2.1⟩, And.left⟩

end Monitor

end ScoreDesk.Transport

namespace ScoreDesk.Interactive

open Transport

variable {World Engine : Type}

namespace Console

variable (d : Device World Engine) (c : Console World Engine)

/-- The current poller is sent away or ends: a command asks for an operation other than a pause, a
    pause succeeds, or the poller finds that nothing goes on. -/
def Dismisses : Turn World → Prop
  | .judge => ∃ command operation, c.stage = .deciding command ∧
      operation? c.source c.monitor.deck.state.status command = some operation ∧
      operation.isPause = false
  | .act tree => c.asks .pause ∧ (c.monitor.perform d tree .pause).1 = .ok ()
  | .look i => c.monitor.CurrentRests d i
  | _ => False

variable {d c}

theorem watched_judge : c.judge.monitor.Watched ↔ c.monitor.Watched ∧ ¬ c.Dismisses d .judge := by
  have of_same (same : c.judge.monitor = c.monitor) (kept : ¬ c.Dismisses d .judge) :
      c.judge.monitor.Watched ↔ c.monitor.Watched ∧ ¬ c.Dismisses d .judge := by
    rw [same]
    exact ⟨fun watched => ⟨watched, kept⟩, And.left⟩
  rcases c.judge_cases with ⟨command, operation, deciding, found, judged⟩ |
    ⟨command, deciding, none, judged⟩ | ⟨busy, judged⟩
  · cases pauses : operation.isPause with
    | true =>
      refine of_same (by rw [judged]; cases operation <;> first | rfl | cases pauses) ?_
      rintro ⟨command', operation', deciding', found', other⟩
      rw [deciding] at deciding'
      cases deciding'
      rw [found] at found'
      cases found'
      rw [pauses] at other
      cases other
    | false =>
      have prepared : c.judge.monitor = c.monitor.cancelPolling := by
        rw [judged]
        cases operation <;> first | rfl | cases pauses
      rw [prepared]
      constructor
      · rintro ⟨i, p, current, -⟩
        rw [c.monitor.cancelPolling_current] at current
        cases current
      · rintro ⟨-, kept⟩
        exact absurd ⟨command, operation, deciding, found, pauses⟩ kept
  · refine of_same (by rw [judged]; rfl) ?_
    rintro ⟨command', operation, deciding', found, -⟩
    rw [deciding] at deciding'
    cases deciding'
    rw [none] at found
    cases found
  · refine of_same (by rw [judged]) ?_
    rintro ⟨command, -, deciding, -⟩
    exact busy command deciding

theorem watched_act (tree : FileTree) : (c.act d tree).monitor.Watched ↔
    c.Starts d (.act tree) ∨ c.monitor.Watched ∧ ¬ c.Dismisses d (.act tree) := by
  rcases c.act_cases d tree with ⟨command, operation, acting, left, -⟩ | ⟨idle, same⟩
  · rw [left]
    have starts_iff : c.Starts d (.act tree) ↔
        operation.starts = true ∧ (c.monitor.perform d tree operation).1 = .ok () := by
      constructor
      · rintro ⟨other, also, done⟩
        rwa [asks_unique ⟨command, acting⟩ also] at done
      · exact fun done => ⟨operation, ⟨command, acting⟩, done⟩
    have dismisses_iff : c.Dismisses d (.act tree) ↔
        operation = .pause ∧ (c.monitor.perform d tree operation).1 = .ok () := by
      constructor
      · rintro ⟨also, ok⟩
        obtain rfl := asks_unique ⟨command, acting⟩ also
        exact ⟨rfl, ok⟩
      · rintro ⟨rfl, ok⟩
        exact ⟨⟨command, acting⟩, ok⟩
    rw [starts_iff, dismisses_iff]
    obtain ⟨result, effect⟩ := c.monitor.perform_effect d tree operation
    rw [result]
    rcases effect with ⟨⟨x, fails⟩, after⟩ | ⟨ok, ⟨starts, after⟩ | ⟨rfl, after⟩ | ⟨halts, after⟩⟩
    · rw [after, fails]
      simp [Monitor.Watched]
    · rw [after, ok]
      simp [starts, Monitor.startPolling_watched]
    · rw [after, ok]
      have unwatched (held : Monitor World Engine) :
          ¬ (held.cancelPolling.publish .paused).Watched := by
        rintro ⟨i, p, current, -⟩
        exact absurd (held.cancelPolling_current.symm.trans current) nofun
      simp [unwatched, Operation.starts]
    · rw [after, ok]
      rcases halts with rfl | rfl <;> simp [Operation.starts, Monitor.Watched, Monitor.publish]
  · rw [same]
    constructor
    · exact fun watched => .inr ⟨watched, fun dismissed => idle _ dismissed.1⟩
    · rintro (⟨operation, asks, -⟩ | ⟨watched, -⟩)
      · exact absurd asks (idle operation)
      · exact watched

theorem watched_turn (d : Device World Engine) (c : Console World Engine) (t : Turn World) :
    (c.turn d t).monitor.Watched ↔
      c.Starts d t ∨ c.monitor.Watched ∧ ¬ c.Dismisses d t := by
  have of_same {t : Turn World} (same : (c.turn d t).monitor.Watched ↔ c.monitor.Watched)
      (still : ¬ c.Starts d t) (kept : ¬ c.Dismisses d t) : (c.turn d t).monitor.Watched ↔
        c.Starts d t ∨ c.monitor.Watched ∧ ¬ c.Dismisses d t := by
    rw [same]
    simp [still, kept]
  cases t with
  | hear line => exact of_same (by rw [turn_hear_monitor]) id id
  | close => exact of_same (by rw [turn_close_monitor]) id id
  | judge =>
    refine (watched_judge (d := d)).trans ?_
    exact ⟨.inr, fun either => either.resolve_left id⟩
  | act tree => exact c.watched_act tree
  | read => exact of_same (congrArg Monitor.Watched c.look_monitor).to_iff id id
  | wake i => exact of_same (Monitor.watched_wake i) id id
  | notice i => exact of_same (Monitor.watched_notice i) id id
  | look i =>
    refine (Monitor.watched_look d i).trans ?_
    exact ⟨.inr, fun either => either.resolve_left id⟩
  | wait ms => exact of_same Iff.rfl id id
  | drift change => exact of_same Iff.rfl id id

theorem oneUncancelled_turn (d : Device World Engine) (t : Turn World)
    (single : c.monitor.OneUncancelled) : (c.turn d t).monitor.OneUncancelled := by
  cases t with
  | hear line => rwa [turn_hear_monitor]
  | close => rwa [turn_close_monitor]
  | judge =>
    change c.judge.monitor.OneUncancelled
    rcases c.judge_monitor with ⟨operation, prepared⟩ | same
    · rw [prepared]
      exact single.prepare operation
    · rwa [same]
  | act tree =>
    change (c.act d tree).monitor.OneUncancelled
    rcases c.act_cases d tree with ⟨_, operation, -, left, -⟩ | ⟨-, same⟩
    · rw [left]
      exact single.served d tree operation
    · rwa [same]
  | read => exact c.look_monitor ▸ single
  | wake i => exact single.wake i
  | notice i => exact single.notice i
  | look i => exact single.look d i
  | wait ms => exact single
  | drift change => exact single

theorem oneUncancelled_run (d : Device World Engine) (single : c.monitor.OneUncancelled)
    (turns : List (Turn World)) : (c.run d turns).monitor.OneUncancelled := by
  induction turns generalizing c with
  | nil => exact single
  | cons t rest ih => exact ih (oneUncancelled_turn d t single)

theorem hasNews_run_iff (d : Device World Engine) (caught : c.seen = c.monitor.publications)
    (turns : List (Turn World)) : (c.run d turns).hasNews = true ↔
      ∃ (before : List (Turn World)) (t : Turn World) (after : List (Turn World)),
        turns = before ++ t :: after ∧ (c.run d before).Publishes d t ∧
        Throughout (turn d) ((c.run d before).turn d t) after fun c t => ¬ c.Reads t := by
  have causes := @foldl_iff_kept _ _ (turn d) c (fun c => c.hasNews = true)
    (fun c t => c.Publishes d t) (fun c t => ¬ c.Reads t) turns
    fun before t _ => hasNews_turn d t (seen_le_run d caught.le before)
  refine causes.trans (or_iff_left ?_)
  rintro ⟨news, -⟩
  simp [hasNews, caught] at news

theorem watched_run_iff (d : Device World Engine) (c : Console World Engine)
    (turns : List (Turn World)) : (c.run d turns).monitor.Watched ↔
      (∃ (before : List (Turn World)) (t : Turn World) (after : List (Turn World)),
        turns = before ++ t :: after ∧ (c.run d before).Starts d t ∧
        Throughout (turn d) ((c.run d before).turn d t) after fun c t => ¬ c.Dismisses d t) ∨
      c.monitor.Watched ∧ Throughout (turn d) c turns fun c t => ¬ c.Dismisses d t :=
  @foldl_iff_kept _ _ (turn d) c (fun c => c.monitor.Watched) (fun c t => c.Starts d t)
    (fun c t => ¬ c.Dismisses d t) turns
    fun before t _ => watched_turn d (before.foldl (turn d) c) t

/-- Nothing is left that a console could hear or read: no commands come any more, there is no news,
    and all pollers are done. -/
structure Deserted (c : Console World Engine) : Prop where
  closed : c.reading = false
  waiting : c.stage = .waiting
  caught : c.hasNews = false
  done : ∀ p ∈ c.monitor.pollers, p.phase = .finished

theorem Deserted.turn (d : Device World Engine) (deserted : c.Deserted) (t : Turn World) :
    (c.turn d t).Deserted ∧ (c.turn d t).lines = c.lines := by
  have of_same {after : Console World Engine} (same : after = c) :
      after.Deserted ∧ after.lines = c.lines := by
    rw [same]
    exact ⟨deserted, rfl⟩
  have modified {f : Poller → Poller} (still : ∀ p, p.phase = .finished → (f p).phase = .finished)
      (i : Nat) : ∀ p ∈ c.monitor.pollers.modify i f, p.phase = .finished := by
    intro p member
    obtain ⟨j, here⟩ := List.mem_iff_getElem?.1 member
    obtain ⟨q, there, rfl | rfl⟩ := Monitor.exists_of_getElem?_modify here
    · exact deserted.done _ (List.mem_of_getElem? there)
    · exact still q (deserted.done q (List.mem_of_getElem? there))
  cases t with
  | hear line => exact of_same (if_neg (by simp [deserted.closed]))
  | close =>
    change c.stopReading.Deserted ∧ c.stopReading.lines = _
    rw [stopReading_of_waiting deserted.waiting]
    exact ⟨⟨rfl, deserted.waiting, deserted.caught, deserted.done⟩, rfl⟩
  | judge =>
    rcases c.judge_cases with ⟨_, _, deciding, -⟩ | ⟨_, deciding, -⟩ | ⟨-, judged⟩
    · rw [deserted.waiting] at deciding
      cases deciding
    · rw [deserted.waiting] at deciding
      cases deciding
    · exact of_same judged
  | act tree =>
    rcases c.act_cases d tree with ⟨_, _, acting, -⟩ | ⟨-, same⟩
    · rw [deserted.waiting] at acting
      cases acting
    · exact of_same same
  | read =>
    rcases c.look_cases with ⟨-, news, -⟩ | ⟨-, same⟩
    · rw [deserted.caught] at news
      cases news
    · exact of_same same
  | wake i =>
    refine ⟨⟨deserted.closed, deserted.waiting, deserted.caught, ?_⟩, rfl⟩
    refine modified (fun p done => ?_) i
    rwa [Poller.wake_of_finished done]
  | notice i =>
    refine ⟨⟨deserted.closed, deserted.waiting, deserted.caught, ?_⟩, rfl⟩
    refine modified (fun p done => ?_) i
    rwa [if_neg (by simp [done])]
  | look i =>
    have waits : ¬ c.monitor.Awaits i := by
      rintro ⟨p, here, looking⟩
      rw [deserted.done p (List.mem_of_getElem? here)] at looking
      cases looking
    refine of_same ?_
    unfold Console.turn
    dsimp only
    rw [Monitor.look_of_not_awaits d waits]
  | wait ms => exact ⟨⟨deserted.closed, deserted.waiting, deserted.caught, deserted.done⟩, rfl⟩
  | drift change => exact ⟨⟨deserted.closed, deserted.waiting, deserted.caught, deserted.done⟩, rfl⟩

theorem Deserted.run (d : Device World Engine) (deserted : c.Deserted)
    (turns : List (Turn World)) :
    (c.run d turns).Deserted ∧ (c.run d turns).lines = c.lines := by
  induction turns generalizing c with
  | nil => exact ⟨deserted, rfl⟩
  | cons t rest ih =>
    obtain ⟨now, lines⟩ := deserted.turn d t
    obtain ⟨later, kept⟩ := ih now
    exact ⟨later, kept.trans lines⟩

/-- There is news, or a poller that will bring some, exactly when an outcome was published that was
    not read since, or when a playback was started, before or by a command, whose poller was not
    sent away since and has not ended. Where there is neither, and no poller that was sent away
    still has to come to rest, a console whose lines have come to an end waits for ever. -/
theorem news_to_come_iff (d : Device World Engine) (world : World) (periodMs : Nat)
    (history : List (Transport.Turn World)) (source : Path) (turns : List (Turn World)) :
    let used : Usage World Engine := Usage.run d { monitor := .start world periodMs } history
    let opened := start used.monitor source
    let c := opened.run d turns
    (c.hasNews = true ∨ (∃ p ∈ c.monitor.pollers, p.isLive = true) ↔
      (∃ (before : List (Turn World)) (t : Turn World) (after : List (Turn World)),
        turns = before ++ t :: after ∧ (opened.run d before).Publishes d t ∧
        Throughout (turn d) ((opened.run d before).turn d t) after fun c t => ¬ c.Reads t) ∨
      (∃ (before : List (Turn World)) (t : Turn World) (after : List (Turn World)),
        turns = before ++ t :: after ∧ (opened.run d before).Starts d t ∧
        Throughout (turn d) ((opened.run d before).turn d t) after
          fun c t => ¬ c.Dismisses d t) ∨
      (∃ p ∈ used.monitor.pollers, p.isLive = true) ∧
        Throughout (turn d) opened turns fun c t => ¬ c.Dismisses d t) ∧
    (c.reading = false → c.stage = .waiting → c.hasNews = false →
      (∀ p ∈ c.monitor.pollers, p.phase = .finished) →
        ∀ later, (c.run d later).stage = .waiting ∧ (c.run d later).lines = c.lines) := by
  intro used opened c
  constructor
  · have tended : used.Tended := (Usage.start_tended world periodMs).run d history
    have single : opened.monitor.OneUncancelled := tended.single
    rw [Monitor.live_iff_watched (oneUncancelled_run d single turns),
      Monitor.live_iff_watched tended.single, hasNews_run_iff d rfl turns,
      watched_run_iff d opened turns]
    exact Iff.rfl
  · intro closed waiting caught done later
    obtain ⟨still, lines⟩ := Deserted.run d ⟨closed, waiting, caught, done⟩ later
    exact ⟨still.waiting, lines⟩

/-- A score is paused before the lines come to an end: nothing is left to wait for. -/
theorem paused_console_waits_for_ever :
    let tree : FileTree := ⟨[], [(["score.midi"], .file [])]⟩
    let used := Usage.run Script.device { monitor := .start {} 100 }
      [.ask (.play ⟨"score.ly"⟩), .serve tree]
    let turns : List (Turn Script) := [.hear "p", .judge, .act tree, .read, .close, .notice 0]
    let c := (start used.monitor ⟨"score.ly"⟩).run Script.device turns
    c.reading = false ∧ ¬ (c.hasNews = true ∨ ∃ p ∈ c.monitor.pollers, p.isLive = true) ∧
      ∀ later, (c.run Script.device later).stage = .waiting := by
  intro tree used turns c
  have left : c.reading = false ∧ c.stage = .waiting ∧ c.hasNews = false ∧
      ∀ p ∈ c.monitor.pollers, p.phase = .finished := by
    decide +kernel
  have live : ¬ ∃ p ∈ c.monitor.pollers, p.isLive = true := by decide +kernel
  obtain ⟨closed, waiting, caught, done⟩ := left
  refine ⟨closed, ?_, fun later => (Deserted.run _ ⟨closed, waiting, caught, done⟩ later).1.waiting⟩
  rintro (news | watched)
  · rw [caught] at news
    cases news
  · exact live watched

end Console

end ScoreDesk.Interactive
