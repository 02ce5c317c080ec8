import Mathlib
import ScoreDesk.Proofs.Transport.Delivery

namespace ScoreDesk.Transport

open Smf (Timeline TimedMessage)

namespace Playhead

@[simp] theorem tick_startedAt (now : Nat) (p : Playhead) :
    (p.tick now).startedAt = p.startedAt := by
  unfold tick
  cases h : p.startedAt <;> simp [h]

theorem tick_stopped {p : Playhead} (stopped : p.isRunning = false) (now : Nat) :
    p.tick now = p := by
  unfold tick
  cases since : p.startedAt with
  | none => rfl
  | some instant =>
    rw [isRunning, since] at stopped
    cases stopped

theorem currentMs_tick_ne_zero {since now : Nat} {p : Playhead} (started : p.startedAt = some since)
    (later : since + 1000000 ≤ now) : (p.tick now).currentMs ≠ 0 := by
  have elapsed : 1 ≤ elapsedMs since now := by
    have quotient : 1 ≤ (now - since) / 1000000 := (Nat.one_le_div_iff (by decide)).2 (by omega)
    unfold elapsedMs positionLimit
    omega
  simp only [tick, started, positionLimit]
  omega

end Playhead

namespace Player

def handed (p : Player) : List TimedMessage :=
  messagesOf p.emitted

/-- What is to be handed over up to the end; nothing once the end was declared. -/
def remaining (p : Player) : List TimedMessage :=
  if p.ended then [] else p.timeline.messages.drop p.cursor

/-- All that a player has handed over when it comes to its end, or has come to it. -/
def programme (p : Player) : List TimedMessage :=
  p.handed ++ p.remaining

def Underway (p : Player) : Prop :=
  p.playhead.isRunning = !p.ended

def StartedBy (instant : Nat) (p : Player) : Prop :=
  ∀ since, p.playhead.startedAt = some since → since ≤ instant

def Steady (P : Player → Prop) : Prop :=
  ∀ now p, P p → P (p.work now)

theorem handed_prefix_programme (p : Player) : p.handed <+: p.programme :=
  List.prefix_append _ _

theorem programme_of_ended {p : Player} (ended : p.ended = true) : p.programme = p.handed := by
  simp [programme, remaining, ended]

section Rounds

variable {p : Player}

@[simp] theorem work_timeline (now : Nat) (p : Player) : (p.work now).timeline = p.timeline := by
  rcases p.work_cases now with ⟨-, same⟩ | ⟨-, -, goes⟩ | ⟨-, -, ends⟩
  · rw [same]
  · rw [goes]
    rfl
  · rw [ends]
    rfl

theorem Underway.unended (underway : p.Underway) (running : p.playhead.isRunning = true) :
    p.ended = false := by
  unfold Underway at underway
  rw [running] at underway
  simpa using underway.symm

theorem Underway.work (underway : p.Underway) (now : Nat) : (p.work now).Underway := by
  rcases p.work_cases now with ⟨-, same⟩ | ⟨running, -, goes⟩ | ⟨-, -, ends⟩
  · rwa [same]
  · rw [goes]
    simpa [Underway, advanced] using underway
  · rw [ends]
    rfl

theorem handed_work (now : Nat) (p : Player) :
    (p.work now).handed =
      p.handed ++ if p.playhead.isRunning then p.fresh now else [] := by
  rcases p.work_cases now with ⟨stopped, same⟩ | ⟨running, -, goes⟩ | ⟨running, -, ends⟩
  · simp [same, stopped]
  · simp [goes, running, handed, advanced]
  · simp [ends, running, handed, finished]

theorem fresh_append_drop (now : Nat) (p : Player) :
    p.fresh now ++ p.timeline.messages.drop (p.cursor + (p.fresh now).length) =
      p.timeline.messages.drop p.cursor := by
  have next : p.fresh now <+: p.timeline.messages.drop p.cursor := List.takeWhile_prefix _
  rw [← List.drop_drop]
  conv_rhs => rw [← List.take_append_drop (p.fresh now).length (p.timeline.messages.drop p.cursor)]
  rw [← List.prefix_iff_eq_take.1 next]

theorem Underway.programme_work (underway : p.Underway) (now : Nat) :
    (p.work now).programme = p.programme := by
  have handed := p.handed_work now
  rcases p.work_cases now with ⟨-, same⟩ | ⟨running, -, goes⟩ | ⟨running, finishes, ends⟩
  · rw [same]
  · have unended := underway.unended running
    have going : (p.advanced now).ended = false := unended
    rw [if_pos running] at handed
    unfold programme remaining
    rw [handed, goes, going, unended, List.append_assoc]
    exact congrArg (p.handed ++ ·) (p.fresh_append_drop now)
  · have unended := underway.unended running
    have declared : (p.finished now).ended = true := rfl
    have all := p.fresh_append_drop now
    rw [List.drop_eq_nil_of_le (finishes_cursor finishes), List.append_nil] at all
    rw [if_pos running] at handed
    unfold programme remaining
    rw [handed, ends, declared, unended, all]
    simp

theorem StartedBy.work {instant : Nat} (started : p.StartedBy instant) (now : Nat) :
    (p.work now).StartedBy instant := by
  rcases p.work_cases now with ⟨-, same⟩ | ⟨-, -, goes⟩ | ⟨-, -, ends⟩
  · rwa [same]
  · rw [goes]
    simpa [StartedBy, advanced] using started
  · rw [ends]
    intro since running
    cases running

theorem Underway.cursor_work (underway : p.Underway) {bound : Nat}
    (rewound : p.ended = true → p.cursor ≤ bound) (now : Nat) :
    (p.work now).ended = true → (p.work now).cursor ≤ bound := by
  rcases p.work_cases now with ⟨-, same⟩ | ⟨running, -, goes⟩ | ⟨-, -, ends⟩
  · rwa [same]
  · rw [goes]
    intro ended
    exact absurd ended (by simp [advanced, underway.unended running])
  · rw [ends]
    exact fun _ => Nat.zero_le _

theorem steady_eq (stopped : p.playhead.isRunning = false) : Steady (· = p) := by
  rintro now _ rfl
  exact work_stopped now _ stopped

end Rounds

section Calls

variable {p : Player} (now : Nat)

theorem tick_stopped (stopped : p.playhead.isRunning = false) : p.tick now = p := by
  unfold Player.tick
  rw [Playhead.tick_stopped stopped]

theorem Underway.tick (underway : p.Underway) : (p.tick now).Underway := by
  simpa [Underway, Player.tick] using underway

theorem StartedBy.tick {instant : Nat} (started : p.StartedBy instant) :
    (p.tick now).StartedBy instant := by
  simpa [StartedBy, Player.tick] using started

@[simp] theorem handed_pause (p : Player) : (p.pause now).handed = p.handed := by
  simp [handed, pause, silence]

@[simp] theorem programme_pause (p : Player) : (p.pause now).programme = p.programme := by
  have remaining : (p.pause now).remaining = p.remaining := rfl
  rw [programme, handed_pause, remaining]
  rfl

theorem underway_play (p : Player) : (p.play now).Underway := by
  simp [Underway, play]

theorem remaining_play (p : Player) :
    (p.play now).remaining = p.timeline.messages.drop p.cursor := by
  simp [remaining, play]

theorem programme_play (p : Player) : (p.play now).programme =
    p.programme ++ if p.ended then p.timeline.messages.drop p.cursor else [] := by
  have handed : (p.play now).handed = p.handed := rfl
  rw [programme, handed, remaining_play, programme, remaining]
  cases p.ended <;> simp

theorem startedBy_play (stopped : p.playhead.isRunning = false) :
    (p.play now).StartedBy now := by
  intro since started
  have none : p.playhead.startedAt = none := by
    simpa [Playhead.isRunning] using stopped
  have same : some now = some since := by
    simpa [play, Playhead.start, none] using started
  exact Nat.le_of_eq (Option.some.inj same).symm

theorem startedBy_seek (ms : Nat) (p : Player) : (p.seek now ms).StartedBy now := by
  intro since started
  have mapped : p.playhead.startedAt.map (fun _ => now) = some since := started
  obtain ⟨_, _, rfl⟩ := Option.map_eq_some_iff.1 mapped
  exact Nat.le_refl _

theorem Underway.seek (underway : p.Underway) (ms : Nat) : (p.seek now ms).Underway := by
  simpa [Underway, Player.seek, silence] using underway

@[simp] theorem handed_seek (ms : Nat) (p : Player) : (p.seek now ms).handed = p.handed := by
  simp [handed, seek, silence]

theorem remaining_seek (ms : Nat) (p : Player) : (p.seek now ms).remaining =
    if p.ended then []
    else p.timeline.messages.drop (p.timeline.indexAt (min ms p.timeline.durationMs)) := rfl

end Calls

end Player

end ScoreDesk.Transport
