import Mathlib
import ScoreDesk.Proofs.Interactive.Turns
import ScoreDesk.Proofs.Transport.ScheduledTurns

namespace ScoreDesk.Interactive

open Text (Bytes)
open Transport

variable {World Engine : Type}

def beatTurn : Beat → Turn World
  | .wake i => .wake i
  | .notice i => .notice i
  | .look i => .look i
  | .wait ms => .wait ms

namespace Console

section Heard

variable (d : Device World Engine) (c : Console World Engine) (heard : Bytes)

-- Only the stage decides what a console does, so it is told apart first.
theorem hear_heard (line : String) :
    { c with heard }.hear line = { c.hear line with heard } := by
  obtain ⟨monitor, source, old, reading, seen, stage, lines⟩ := c
  cases stage with
  | waiting =>
    by_cases blank : (Text.trimmed line).isEmpty = true
    · simp [hear, blank]
    · cases parsed : Command.parse line <;> simp [hear, blank, parsed, write]
  | _ => rfl

theorem judge_heard : { c with heard }.judge = { c.judge with heard } := by
  obtain ⟨monitor, source, old, reading, seen, stage, lines⟩ := c
  cases stage with
  | deciding command =>
    cases found : operation? source monitor.deck.state.status command <;> simp [judge, found, settle]
  | _ => rfl

theorem act_heard (tree : FileTree) :
    { c with heard }.act d tree = { c.act d tree with heard } := by
  obtain ⟨monitor, source, old, reading, seen, stage, lines⟩ := c
  cases stage with
  | acting command operation =>
    rcases done : monitor.perform d tree operation with ⟨_ | _, after⟩ <;>
      simp [act, done, settle, write]
  | _ => rfl

theorem look_heard : { c with heard }.look = { c.look with heard } := by
  obtain ⟨monitor, source, old, reading, seen, stage, lines⟩ := c
  cases stage with
  | waiting =>
    by_cases news : seen = monitor.publications
    · simp [look, hasNews, news]
    · cases published : monitor.published <;> simp [look, hasNews, news, published, write]
  | _ => rfl

theorem stopReading_heard : { c with heard }.stopReading = { c.stopReading with heard } := by
  obtain ⟨monitor, source, old, reading, seen, stage, lines⟩ := c
  cases stage <;> rfl

theorem turn_heard (t : Turn World) :
    { c with heard }.turn d t = { c.turn d t with heard } := by
  cases t with
  | hear line =>
    unfold turn
    dsimp only
    split
    · exact c.hear_heard heard line
    · rfl
  | close => exact c.stopReading_heard heard
  | judge => exact c.judge_heard heard
  | act tree => exact c.act_heard d heard tree
  | read => exact c.look_heard heard
  | _ => rfl

theorem run_heard (turns : List (Turn World)) :
    { c with heard }.run d turns = { c.run d turns with heard } := by
  induction turns generalizing c with
  | nil => rfl
  | cons t rest ih =>
    rw [run, List.foldl_cons, turn_heard]
    exact ih _

end Heard

def Reaches (d : Device World Engine) (c e : Console World Engine) : Prop :=
  ∃ turns, c.run d turns = e

variable {d : Device World Engine} {tree : FileTree} {c e f : Console World Engine}

theorem Reaches.refl (c : Console World Engine) : c.Reaches d c := ⟨[], rfl⟩

theorem Reaches.trans (first : c.Reaches d e) (second : e.Reaches d f) : c.Reaches d f := by
  obtain ⟨before, rfl⟩ := first
  obtain ⟨after, rfl⟩ := second
  exact ⟨before ++ after, List.foldl_append⟩

theorem Reaches.turn (reaches : c.Reaches d e) (t : Turn World) : c.Reaches d (e.turn d t) :=
  reaches.trans ⟨[t], rfl⟩

theorem reaches_passes {m : Monitor World Engine} (passes : c.monitor.Passes d m) :
    c.Reaches d { c with monitor := m } := by
  obtain ⟨beats, rfl⟩ := passes
  refine ⟨beats.map beatTurn, ?_⟩
  induction beats generalizing c with
  | nil => rfl
  | cons beat rest ih =>
    have first : c.turn d (beatTurn beat) = { c with monitor := c.monitor.undergo d beat } := by
      cases beat <;> rfl
    rw [List.map_cons, run, List.foldl_cons, first]
    exact ih

theorem reaches_obey (reading : c.reading = true) (line : String) :
    c.Reaches d (c.obey d tree line) := by
  have heard := (Reaches.refl (d := d) c).turn (.hear line)
  unfold Console.turn at heard
  dsimp only at heard
  rw [if_pos reading] at heard
  exact (heard.turn .judge).turn (.act tree)

theorem reaches_obeyLines (newsFirst : Nat → Bool) (n : Nat) (lines : List Bytes) :
    c.Reaches d (obeyLines d tree newsFirst n c lines) := by
  induction lines generalizing n c with
  | nil => exact .refl c
  | cons line rest ih =>
    have news : c.Reaches d (if newsFirst n then c.look else c) := by
      split
      · exact (Reaches.refl c).turn .read
      · exact .refl c
    unfold obeyLines
    dsimp only
    generalize (if newsFirst n then c.look else c) = next at news ⊢
    refine news.trans ?_
    split
    · rename_i reading
      split
      · exact (reaches_obey reading _).trans (ih _)
      · exact (Reaches.refl _).turn .close
    · exact .refl _

theorem reaches_beat : c.Reaches d (c.beat d) := by
  unfold beat
  split
  · exact .refl c
  · exact reaches_passes (Monitor.passes_lookAt _ _)

theorem reaches_attend (first : Precedence) (lines : List Bytes) :
    c.Reaches d (c.attend d tree first lines) := by
  unfold attend
  split
  · exact reaches_beat.trans (reaches_obeyLines _ _ _)
  · exact reaches_obeyLines _ _ _

theorem reaches_passUntil (limit fuel : Nat) : c.Reaches d (passUntil d limit fuel c) := by
  induction fuel generalizing c with
  | zero => exact reaches_passes (Monitor.passes_waitUntil limit)
  | succ fuel ih =>
    unfold passUntil
    split
    · exact .refl c
    · split
      · exact reaches_passes (Monitor.passes_waitUntil limit)
      · exact ((reaches_passes (Monitor.passes_lookAt _ _)).turn .read).trans ih

theorem reaches_pass (late : Nat → Bool) (limit : Nat) : c.Reaches d (c.pass d late limit) := by
  unfold pass
  split
  · exact .refl c
  · exact ((reaches_passes (Monitor.passes_settle late c.monitor)).turn .read).trans
      (reaches_passUntil _ _)

/-- What comes to a console from outside: octets are typed, or no more will be, or time passes, or
    the world changes. -/
inductive Event (World : Type) where
  | receive (tree : FileTree) (first : Precedence) (bytes : Bytes)
  | close (tree : FileTree) (first : Precedence)
  | pass (late : Nat → Bool) (limit : Nat)
  | drift (change : World → World)

def handle (d : Device World Engine) (c : Console World Engine) :
    Event World → Console World Engine
  | .receive tree first bytes => c.receive d tree first bytes
  | .close tree first => c.close d tree first
  | .pass late limit => c.pass d late limit
  | .drift change => c.turn d (.drift change)

theorem handle_is_run (d : Device World Engine) (c : Console World Engine) (event : Event World) :
    ∃ turns heard, c.handle d event = { c.run d turns with heard } := by
  have begun (heard : Bytes) {e : Console World Engine}
      (reaches : Reaches d { c with heard } e) : ∃ turns heard, e = { c.run d turns with heard } := by
    obtain ⟨turns, rfl⟩ := reaches
    exact ⟨turns, heard, c.run_heard d heard turns⟩
  cases event with
  | receive tree first bytes => exact begun _ (reaches_attend first _)
  | close tree first => exact begun [] ((reaches_attend first _).turn .close)
  | pass late limit => exact begun c.heard (reaches_pass late limit)
  | drift change => exact ⟨[.drift change], c.heard, rfl⟩

/-- Whatever comes to a console one thing after the other, and whichever of two things that are
    ready comes first, turns bring it about: all that holds of runs of turns holds of it. -/
theorem events_are_run (d : Device World Engine) (c : Console World Engine)
    (events : List (Event World)) :
    ∃ turns heard, events.foldl (handle d) c = { c.run d turns with heard } := by
  induction events generalizing c with
  | nil => exact ⟨[], c.heard, rfl⟩
  | cons event rest ih =>
    obtain ⟨first, heard, handled⟩ := handle_is_run d c event
    obtain ⟨more, last, done⟩ := ih { c.run d first with heard }
    refine ⟨first ++ more, last, ?_⟩
    rw [List.foldl_cons, handled, done, run_heard, run, run, run, List.foldl_append]

end Console

end ScoreDesk.Interactive
