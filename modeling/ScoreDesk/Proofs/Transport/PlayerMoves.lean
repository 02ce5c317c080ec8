import Mathlib
import ScoreDesk.Transport.Player

namespace ScoreDesk.Transport

open Smf (Timeline TimedMessage)

namespace Playhead

@[simp] theorem zero_isRunning : zero.isRunning = false := rfl

@[simp] theorem start_isRunning (now : Nat) (p : Playhead) : (p.start now).isRunning = true := by
  unfold start
  cases h : p.startedAt <;> simp [isRunning, h]

@[simp] theorem tick_isRunning (now : Nat) (p : Playhead) :
    (p.tick now).isRunning = p.isRunning := by
  unfold tick
  cases h : p.startedAt <;> simp [isRunning, h]

@[simp] theorem pause_isRunning (now : Nat) (p : Playhead) : (p.pause now).isRunning = false := rfl

@[simp] theorem stop_isRunning (p : Playhead) : p.stop.isRunning = false := rfl

@[simp] theorem seek_isRunning (now ms : Nat) (p : Playhead) :
    (p.seek now ms).isRunning = p.isRunning := by
  unfold seek
  cases h : p.startedAt <;> simp [isRunning, h]

end Playhead

/-- What can be done to a player at an instant; a look is what asking for its position does. -/
inductive Move where
  | play
  | pause
  | stop
  | seek (ms : Nat)
  | look
  | work
  deriving DecidableEq, Repr

namespace Player

def move (now : Nat) (p : Player) : Move → Player
  | .play => p.play now
  | .pause => p.pause now
  | .stop => p.stop
  | .seek ms => p.seek now ms
  | .look => p.tick now
  | .work => p.work now

def positionAt (now : Nat) (p : Player) : Nat :=
  (p.playhead.tick now).currentMs

def fresh (now : Nat) (p : Player) : List TimedMessage :=
  p.due (p.positionAt now)

def finishes (now : Nat) (p : Player) : Bool :=
  p.timeline.durationMs ≤ p.positionAt now &&
    p.timeline.messages.length ≤ p.cursor + (p.fresh now).length

def advanced (now : Nat) (p : Player) : Player :=
  { p with
    playhead := p.playhead.tick now
    cursor := p.cursor + (p.fresh now).length
    emitted := p.emitted ++ (p.fresh now).map .message }

def finished (now : Nat) (p : Player) : Player :=
  { p with
    playhead := .zero
    cursor := 0
    ended := true
    emitted := p.emitted ++ (p.fresh now).map .message ++ [.silence] }

theorem work_stopped (now : Nat) (p : Player) (stopped : p.playhead.isRunning = false) :
    p.work now = p := by
  simp [work, stopped]

theorem work_running (now : Nat) (p : Player) (running : p.playhead.isRunning = true) :
    p.work now = if p.finishes now then p.finished now else p.advanced now := by
  unfold work
  rw [if_pos running]
  rfl

theorem work_cases (now : Nat) (p : Player) :
    (p.playhead.isRunning = false ∧ p.work now = p) ∨
    (p.playhead.isRunning = true ∧ p.finishes now = false ∧ p.work now = p.advanced now) ∨
    (p.playhead.isRunning = true ∧ p.finishes now = true ∧ p.work now = p.finished now) := by
  cases running : p.playhead.isRunning with
  | false => exact .inl ⟨rfl, work_stopped now p running⟩
  | true =>
    have worked := work_running now p running
    cases finishes : p.finishes now with
    | false => exact .inr (.inl ⟨rfl, rfl, by rw [worked, finishes]; rfl⟩)
    | true => exact .inr (.inr ⟨rfl, rfl, by rw [worked, finishes]; rfl⟩)

theorem finishes_cursor {now : Nat} {p : Player} (finishes : p.finishes now = true) :
    p.timeline.messages.length ≤ p.cursor + (p.fresh now).length := by
  unfold Player.finishes at finishes
  rw [Bool.and_eq_true, decide_eq_true_eq, decide_eq_true_eq] at finishes
  exact finishes.2

theorem fresh_due (now : Nat) (p : Player) :
    ∀ message ∈ p.fresh now, message.atMs ≤ p.positionAt now := by
  intro message member
  have due := List.mem_takeWhile_imp member
  simpa using due

theorem take_cursor_fresh (now : Nat) (p : Player) :
    p.timeline.messages.take (p.cursor + (p.fresh now).length) =
      p.timeline.messages.take p.cursor ++ p.fresh now := by
  have next : p.fresh now <+: p.timeline.messages.drop p.cursor := List.takeWhile_prefix _
  rw [List.take_add, ← List.prefix_iff_eq_take.mp next]

theorem cursor_fresh_le (now : Nat) (p : Player)
    (bound : p.cursor ≤ p.timeline.messages.length) :
    p.cursor + (p.fresh now).length ≤ p.timeline.messages.length := by
  have next : p.fresh now <+: p.timeline.messages.drop p.cursor := List.takeWhile_prefix _
  have lengths := next.length_le
  rw [List.length_drop] at lengths
  omega

end Player

end ScoreDesk.Transport
