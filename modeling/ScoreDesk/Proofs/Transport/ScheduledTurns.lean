import Mathlib
import ScoreDesk.Proofs.Transport.LateLooks

namespace ScoreDesk.Transport

variable {World Engine : Type}

/-- What happens to a monitor while no operation is in progress. -/
inductive Beat where
  | wake (i : Nat)
  | notice (i : Nat)
  | look (i : Nat)
  | wait (ms : Nat)

def Beat.turn : Beat → Turn World
  | .wake i => .wake i
  | .notice i => .notice i
  | .look i => .look i
  | .wait ms => .wait ms

namespace Monitor

def undergo (d : Device World Engine) (m : Monitor World Engine) : Beat → Monitor World Engine
  | .wake i => m.wake i
  | .notice i => m.notice i
  | .look i => m.look d i
  | .wait ms => { m with now := m.now + ms }

def Passes (d : Device World Engine) (m n : Monitor World Engine) : Prop :=
  ∃ beats : List Beat, beats.foldl (undergo d) m = n

variable {d : Device World Engine} {m n o : Monitor World Engine}

theorem Passes.refl (m : Monitor World Engine) : m.Passes d m := ⟨[], rfl⟩

theorem Passes.trans (first : m.Passes d n) (second : n.Passes d o) : m.Passes d o := by
  obtain ⟨before, rfl⟩ := first
  obtain ⟨after, rfl⟩ := second
  exact ⟨before ++ after, List.foldl_append⟩

theorem Passes.undergo (passes : m.Passes d n) (beat : Beat) : m.Passes d (n.undergo d beat) :=
  passes.trans ⟨[beat], rfl⟩

theorem passes_settleOne (late : Nat → Bool) (i : Nat) :
    m.Passes d (settle.settleOne d late m i) := by
  have none : m.Passes d m := .refl m
  unfold settle.settleOne
  split
  · exact none
  · split
    · split
      · exact ((none.undergo (.wake i)).undergo (.look i)).undergo (.notice i)
      · exact none.undergo (.notice i)
    · split
      · exact none.undergo (.wake i)
      · exact none

theorem passes_settle (late : Nat → Bool) (m : Monitor World Engine) :
    m.Passes d (m.settle d late) :=
  List.foldlRecOn _ _ (.refl m) fun _ passes i _ => passes.trans (passes_settleOne late i)

theorem passes_waitUntil (time : Nat) : m.Passes d (m.waitUntil time) :=
  (Passes.refl m).undergo (.wait (time - m.now))

theorem passes_lookAt (i time : Nat) : m.Passes d (m.lookAt d i time) :=
  ((passes_waitUntil time).undergo (.wake i)).undergo (.look i)

theorem passes_passUntil (limit fuel : Nat) : m.Passes d (passUntil d limit fuel m) := by
  induction fuel generalizing m with
  | zero => exact passes_waitUntil limit
  | succ fuel ih =>
    unfold passUntil
    split
    · exact passes_waitUntil limit
    · rename_i i time _
      exact (passes_lookAt i time).trans ih

/-- Whichever cancelled pollers are late, they and the others only take their turns. -/
theorem passes_pass (late : Nat → Bool) (ms : Nat) (m : Monitor World Engine) :
    m.Passes d (m.pass d late ms) :=
  (passes_settle late m).trans (passes_passUntil _ _)

theorem lt_nextBeat {due period now : Nat} (positive : 0 < period) :
    due < Poller.nextBeat due period now := by
  unfold Poller.nextBeat
  split
  · omega
  · have : 0 < period * ((now - due) / period + 1) := Nat.mul_pos positive (Nat.succ_pos _)
    omega

theorem nextLook?_eq_some_iff {limit i time : Nat} : m.nextLook? limit = some (i, time) ↔
    m.current = some i ∧ time < limit ∧
      ∃ p, m.pollers[i]? = some p ∧ p.due = some time ∧ p.phase = .waiting := by
  unfold nextLook?
  constructor
  · intro next
    obtain ⟨j, current, next⟩ := Option.bind_eq_some_iff.1 next
    obtain ⟨p, here, next⟩ := Option.bind_eq_some_iff.1 next
    obtain ⟨due, set, next⟩ := Option.bind_eq_some_iff.1 next
    split at next
    · rename_i ready
      cases next
      exact ⟨current, ready.2, p, here, set, ready.1⟩
    · cases next
  · rintro ⟨current, early, p, here, set, waits⟩
    simp [current, here, set, waits, early]

theorem look_keeps (i : Nat) : (m.look d i).now = m.now ∧ (m.look d i).period = m.period ∧
    (m.look d i).current = m.current := by
  unfold look
  split <;> exact ⟨rfl, rfl, rfl⟩

theorem lt_of_nextLook?_lookAt (positive : 0 < m.period) {limit i j time later : Nat}
    (next : m.nextLook? limit = some (i, time))
    (after : (m.lookAt d i time).nextLook? limit = some (j, later)) : time < later := by
  obtain ⟨current, -, p, here, set, waits⟩ := nextLook?_eq_some_iff.1 next
  obtain ⟨current', -, q, there, set', -⟩ := nextLook?_eq_some_iff.1 after
  let woken := (m.waitUntil time).wake i
  have same : j = i := by
    have kept := (look_keeps (d := d) (m := woken) i).2.2
    exact Option.some.inj (current'.symm.trans (kept.trans current))
  subst same
  have ready : time ≤ (m.waitUntil time).now := by
    unfold waitUntil
    dsimp only
    omega
  have waked : woken.pollers[j]? = some { p with
      phase := .looking, due := some (Poller.nextBeat time m.period (m.waitUntil time).now) } := by
    change (m.pollers.modify j _)[j]? = _
    rw [List.getElem?_modify_eq, here]
    change some (Poller.wake _ _ p) = _
    rw [Poller.wake, waits, set]
    exact congrArg some (if_pos ready)
  have due : q.due = some (Poller.nextBeat time m.period (m.waitUntil time).now) := by
    rcases woken.look_cases d j with ⟨-, -, ⟨phase, -, modified⟩, -⟩ | ⟨-, same⟩
    · rw [lookAt, modified, List.getElem?_modify_eq, waked] at there
      cases there
      rfl
    · rw [lookAt, same, waked] at there
      cases there
      rfl
  rw [set'] at due
  rw [Option.some.inj due]
  exact lt_nextBeat positive

theorem lookAt_keeps {i time limit : Nat} (now : m.now ≤ limit) (early : time < limit) :
    (m.lookAt d i time).now ≤ limit ∧ (m.lookAt d i time).period = m.period := by
  obtain ⟨same, period, -⟩ := look_keeps (d := d) (m := (m.waitUntil time).wake i) i
  rw [lookAt, same, period]
  refine ⟨?_, rfl⟩
  change m.now + (time - m.now) ≤ limit
  omega

-- The fuel is what the next look still lacks to the limit.
theorem nextLook?_passUntil {limit : Nat} (fuel : Nat) (positive : 0 < m.period)
    (now : m.now ≤ limit)
    (enough : ∀ i time, m.nextLook? limit = some (i, time) → limit ≤ time + fuel) :
    (passUntil d limit fuel m).now = limit ∧ (passUntil d limit fuel m).nextLook? limit = none := by
  have arrived {m : Monitor World Engine} (now : m.now ≤ limit) (gone : m.nextLook? limit = none) :
      (m.waitUntil limit).now = limit ∧ (m.waitUntil limit).nextLook? limit = none :=
    ⟨Nat.add_sub_of_le now, gone⟩
  induction fuel generalizing m with
  | zero =>
    refine arrived now (Option.eq_none_iff_forall_ne_some.2 fun next found => ?_)
    have late := enough _ _ found
    have early := (nextLook?_eq_some_iff.1 found).2.1
    omega
  | succ fuel ih =>
    unfold passUntil
    split
    · rename_i gone
      exact arrived now gone
    · rename_i i time next
      have early := (nextLook?_eq_some_iff.1 next).2.1
      obtain ⟨now', period⟩ := lookAt_keeps (d := d) (i := i) now early
      refine ih (by rwa [period]) now' fun j later after => ?_
      have lacks := enough i time next
      have advance := lt_of_nextLook?_lookAt positive next after
      omega

theorem settleOne_keeps (late : Nat → Bool) (i : Nat) :
    (settle.settleOne d late m i).now = m.now ∧
      (settle.settleOne d late m i).period = m.period := by
  unfold settle.settleOne
  split
  · exact ⟨rfl, rfl⟩
  · split
    · split
      · exact ⟨(look_keeps i).1, (look_keeps i).2.1⟩
      · exact ⟨rfl, rfl⟩
    · split <;> exact ⟨rfl, rfl⟩

theorem settle_keeps (late : Nat → Bool) :
    (m.settle d late).now = m.now ∧ (m.settle d late).period = m.period := by
  refine List.foldlRecOn (motive := fun n : Monitor World Engine =>
    n.now = m.now ∧ n.period = m.period) _ _ ⟨rfl, rfl⟩ ?_
  intro n same i _
  obtain ⟨now, period⟩ := settleOne_keeps (d := d) (m := n) late i
  exact ⟨now.trans same.1, period.trans same.2⟩

/-- When time has passed no look is left over, whichever cancelled pollers were late. -/
theorem pass_in_time (positive : 0 < m.period) (late : Nat → Bool) (ms : Nat) :
    (m.pass d late ms).now = m.now + ms ∧
      (m.pass d late ms).nextLook? (m.now + ms) = none := by
  obtain ⟨now, period⟩ := settle_keeps (d := d) (m := m) late
  refine nextLook?_passUntil _ (by rwa [period]) (by rw [now]; omega) fun i time _ => ?_
  omega

end Monitor

/-- What a program wants of a monitor: a whole operation, or that time passes while some cancelled
    pollers are late; in between the world changes. -/
inductive Errand (World : Type) where
  | operate (tree : FileTree) (operation : Operation)
  | pass (late : Nat → Bool) (ms : Nat)
  | drift (change : World → World)

def Monitor.attend (d : Device World Engine) (m : Monitor World Engine) :
    Errand World → Monitor World Engine
  | .operate tree operation => (m.run d tree operation).2
  | .pass late ms => m.pass d late ms
  | .drift change => { m with deck := { m.deck with world := change m.deck.world } }

namespace Usage

variable (d : Device World Engine) (u : Usage World Engine)

theorem run_beats (beats : List Beat) :
    u.run d (beats.map Beat.turn) =
      { u with monitor := beats.foldl (Monitor.undergo d) u.monitor } := by
  induction beats generalizing u with
  | nil => rfl
  | cons beat rest ih =>
    have first : u.turn d beat.turn = { u with monitor := u.monitor.undergo d beat } := by
      cases beat <;> rfl
    rw [List.map_cons, run, List.foldl_cons, first]
    exact ih _

variable {u}

theorem attend_is_run (free : u.asked = none) (errand : Errand World) :
    ∃ turns, (u.run d turns).monitor = u.monitor.attend d errand ∧
      (u.run d turns).asked = none := by
  cases errand with
  | operate tree operation =>
    refine ⟨[.ask operation, .serve tree], ?_⟩
    have asked : u.turn d (.ask operation) =
        { u with monitor := u.monitor.prepare operation, asked := some operation } := by
      rw [turn, free]
      rfl
    rw [run, List.foldl_cons, asked]
    exact ⟨rfl, rfl⟩
  | pass late ms =>
    obtain ⟨beats, passed⟩ := u.monitor.passes_pass (d := d) late ms
    refine ⟨beats.map Beat.turn, ?_⟩
    rw [run_beats]
    exact ⟨passed, free⟩
  | drift change => exact ⟨[.drift change], rfl, free⟩

/-- Whatever a program wants of a monitor one thing after the other, turns bring it about: all that
    holds of runs of turns holds of its monitor. -/
theorem errands_are_run (free : u.asked = none) (errands : List (Errand World)) :
    ∃ turns, (u.run d turns).monitor = errands.foldl (Monitor.attend d) u.monitor ∧
      (u.run d turns).asked = none := by
  induction errands generalizing u with
  | nil => exact ⟨[], rfl, free⟩
  | cons errand rest ih =>
    obtain ⟨first, attended, freed⟩ := attend_is_run d free errand
    obtain ⟨more, done, after⟩ := ih freed
    refine ⟨first ++ more, ?_⟩
    rw [run, List.foldl_append]
    rw [attended] at done
    exact ⟨done, after⟩

/-- Played again when the first poller is due: all depends on whether that poller is late. -/
example (late : Bool) :
    let tree : FileTree := ⟨[], [(["score.midi"], .file [])]⟩
    let errands : List (Errand Script) := [.operate tree (.play ⟨"score.ly"⟩),
      .pass (fun _ => late) 100, .operate tree (.play ⟨"score.ly"⟩), .pass (fun _ => late) 50]
    let m : Monitor Script Unit := errands.foldl (Monitor.attend Script.device) (.start {} 100)
    m.deck.state.status = if late then .idle else .playing := by
  cases late <;> decide +kernel

end Usage

end ScoreDesk.Transport
