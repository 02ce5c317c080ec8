import Mathlib
import ScoreDesk.Proofs.Smf.TimelineOrder
import ScoreDesk.Proofs.Transport.PlayerMoves

namespace ScoreDesk.Transport

open Smf (Timeline TimedMessage File)

def Emission.message? : Emission → Option TimedMessage
  | .message m => some m
  | .silence => none

def messagesOf (emitted : List Emission) : List TimedMessage :=
  emitted.filterMap Emission.message?

@[simp] theorem messagesOf_append (first second : List Emission) :
    messagesOf (first ++ second) = messagesOf first ++ messagesOf second :=
  List.filterMap_append

@[simp] theorem messagesOf_messages (messages : List TimedMessage) :
    messagesOf (messages.map .message) = messages := by
  simp [messagesOf, Emission.message?, List.filterMap_map, Function.comp_def]

@[simp] theorem messagesOf_silence : messagesOf [.silence] = [] := rfl

/-- A player in the course of time. `sought` is the time that it was last moved to, if it was not
    rewound since then, and `mark` counts what it had emitted when it was last rewound. -/
structure Playback where
  player : Player
  now : Nat
  sought : Option Nat := none
  mark : Nat := 0

namespace Playback

def start (timeline : Timeline) (now : Nat) : Playback :=
  { player := .ofTimeline timeline, now }

def rewound (s : Playback) (sought : Option Nat) : Playback :=
  { s with sought, mark := s.player.emitted.length }

/-- Some time passes, and then the player is moved. Stopping, seeking and an end that the worker
    declares rewind it. -/
def step (s : Playback) (wait : Nat) (move : Move) : Playback :=
  let now := s.now + wait
  let player := s.player.move now move
  let next := { s with now, player }
  match move with
  | .stop => next.rewound none
  | .seek ms => next.rewound (some ms)
  | _ => if !s.player.ended && player.ended then next.rewound none else next

def run (s : Playback) (moves : List (Nat × Move)) : Playback :=
  moves.foldl (fun s (wait, move) => s.step wait move) s

/-- The timeline messages that were sent since the last rewind. -/
def handed (s : Playback) : List TimedMessage :=
  messagesOf (s.player.emitted.drop s.mark)

def origin (s : Playback) : Nat :=
  match s.sought with
  | none => 0
  | some ms => min ms s.player.timeline.durationMs

def base (s : Playback) : Nat :=
  match s.sought with
  | none => 0
  | some _ => s.player.timeline.indexAt s.origin

structure Sound (timeline : Timeline) (s : Playback) : Prop where
  same : s.player.timeline = timeline
  base_le : s.base ≤ s.player.cursor
  cursor_le : s.player.cursor ≤ timeline.messages.length
  marked : s.mark ≤ s.player.emitted.length
  handed : s.handed = (timeline.messages.take s.player.cursor).drop s.base
  unended : s.player.playhead.isRunning = true → s.player.ended = false

variable {timeline : Timeline} {s : Playback}

theorem start_sound (timeline : Timeline) (now : Nat) : (start timeline now).Sound timeline where
  same := rfl
  base_le := Nat.le_refl 0
  cursor_le := Nat.zero_le _
  marked := Nat.le_refl 0
  handed := by simp [Playback.handed, start, Player.ofTimeline, messagesOf, base]
  unended _ := rfl

theorem handed_append (sound : s.Sound timeline) (emitted : List Emission) :
    messagesOf ((s.player.emitted ++ emitted).drop s.mark) = s.handed ++ messagesOf emitted := by
  rw [List.drop_append_of_le_length sound.marked, messagesOf_append]
  rfl

theorem Sound.quiet (sound : s.Sound timeline) (now : Nat) (player : Player)
    (emitted : List Emission) (silent : messagesOf emitted = [])
    (same : player.timeline = s.player.timeline) (cursor : player.cursor = s.player.cursor)
    (grown : player.emitted = s.player.emitted ++ emitted)
    (unended : player.playhead.isRunning = true → player.ended = false) :
    ({ s with now, player } : Playback).Sound timeline := by
  have base : ({ s with now, player } : Playback).base = s.base := by
    unfold Playback.base origin
    rw [same]
  constructor
  · exact same.trans sound.same
  · rw [base]
    exact cursor ▸ sound.base_le
  · exact cursor ▸ sound.cursor_le
  · have marked := sound.marked
    simp only [grown, List.length_append]
    omega
  · have after := handed_append sound emitted
    rw [← grown, silent, List.append_nil, sound.handed] at after
    rw [base]
    exact cursor ▸ after
  · exact unended

theorem rewound_sound (sought : Option Nat) (same : s.player.timeline = timeline)
    (cursor : s.player.cursor = (s.rewound sought).base)
    (inside : s.player.cursor ≤ timeline.messages.length)
    (unended : s.player.playhead.isRunning = true → s.player.ended = false) :
    (s.rewound sought).Sound timeline := by
  constructor
  · exact same
  · exact Nat.le_of_eq cursor.symm
  · exact inside
  · exact Nat.le_refl _
  · have none : (timeline.messages.take s.player.cursor).drop (s.rewound sought).base = [] := by
      rw [← cursor]
      exact List.drop_eq_nil_of_le (List.length_take_le _ _)
    have sent : (s.rewound sought).handed = [] := by
      unfold Playback.handed rewound
      rw [List.drop_length]
      rfl
    exact sent.trans none.symm
  · exact unended

theorem handed_fresh (sound : s.Sound timeline) (now : Nat) :
    s.handed ++ s.player.fresh now =
      (timeline.messages.take (s.player.cursor + (s.player.fresh now).length)).drop s.base := by
  have next := s.player.take_cursor_fresh now
  have inside : s.base ≤ (timeline.messages.take s.player.cursor).length := by
    have base_le := sound.base_le
    have cursor_le := sound.cursor_le
    rw [List.length_take]
    omega
  rw [sound.same] at next
  rw [next, List.drop_append_of_le_length inside, sound.handed]

theorem Sound.advanced (sound : s.Sound timeline)
    (running : s.player.playhead.isRunning = true) (now : Nat) :
    ({ s with now, player := s.player.advanced now } : Playback).Sound timeline := by
  have base_le := sound.base_le
  have marked := sound.marked
  constructor
  · exact sound.same
  · exact Nat.le_trans base_le (Nat.le_add_right _ _)
  · have bound := s.player.cursor_fresh_le now
    rw [sound.same] at bound
    exact bound sound.cursor_le
  · simp only [Player.advanced, List.length_append]
    omega
  · have after := handed_append sound ((s.player.fresh now).map .message)
    rw [messagesOf_messages, handed_fresh sound] at after
    exact after
  · intro _
    exact sound.unended running

theorem handed_finished (sound : s.Sound timeline) (now : Nat)
    (finishes : s.player.finishes now = true) :
    messagesOf ((s.player.finished now).emitted.drop s.mark) = timeline.messages.drop s.base := by
  have after := handed_append sound ((s.player.fresh now).map .message ++ [.silence])
  have reached := Player.finishes_cursor finishes
  rw [sound.same] at reached
  rw [messagesOf_append, messagesOf_messages, messagesOf_silence, List.append_nil,
    handed_fresh sound, List.take_of_length_le reached, ← List.append_assoc] at after
  exact after

theorem Sound.step (sound : s.Sound timeline) (wait : Nat) (move : Move) :
    (s.step wait move).Sound timeline := by
  have unended := sound.unended
  cases move with
  | play =>
    have quiet := sound.quiet (s.now + wait) (s.player.play (s.now + wait)) [] rfl rfl rfl
      (by simp [Player.play]) (by simp [Player.play])
    simpa [Playback.step, Player.move, Player.play] using quiet
  | pause =>
    have quiet := sound.quiet (s.now + wait) (s.player.pause (s.now + wait)) [.silence] rfl rfl rfl
      rfl (by simp [Player.pause, Player.silence])
    simpa [Playback.step, Player.move, Player.pause, Player.silence] using quiet
  | look =>
    have quiet := sound.quiet (s.now + wait) (s.player.tick (s.now + wait)) [] rfl rfl rfl
      (by simp [Player.tick]) (by simpa [Player.tick] using unended)
    simpa [Playback.step, Player.move, Player.tick] using quiet
  | stop =>
    let next : Playback := { s with now := s.now + wait, player := s.player.stop }
    have stopped : next.player.playhead.isRunning = true → next.player.ended = false := by
      simp [next, Player.stop, Player.silence]
    exact rewound_sound (s := next) none sound.same rfl (Nat.zero_le _) stopped
  | seek ms =>
    let next : Playback := { s with now := s.now + wait, player := s.player.seek (s.now + wait) ms }
    have inside : next.player.cursor ≤ timeline.messages.length := by
      rw [← sound.same]
      exact (List.takeWhile_prefix _).length_le
    have sought : next.player.playhead.isRunning = true → next.player.ended = false := by
      simpa [next, Player.seek, Player.silence] using unended
    exact rewound_sound (s := next) (some ms) sound.same rfl inside sought
  | work =>
    rcases s.player.work_cases (s.now + wait) with ⟨stopped, same⟩ | ⟨running, -, goes⟩ |
      ⟨running, -, ends⟩
    · have quiet := sound.quiet (s.now + wait) s.player [] rfl rfl rfl (by simp) unended
      simpa [Playback.step, Player.move, same] using quiet
    · have advanced := sound.advanced running (s.now + wait)
      have going : (s.player.advanced (s.now + wait)).ended = s.player.ended := rfl
      simpa [Playback.step, Player.move, goes, going] using advanced
    · have declared : (s.player.finished (s.now + wait)).ended = true := rfl
      let next : Playback :=
        { s with now := s.now + wait, player := s.player.finished (s.now + wait) }
      have stopped : next.player.playhead.isRunning = true → next.player.ended = false := by
        simp [next, Player.finished]
      have rewinds : s.step wait .work = next.rewound none := by
        simp [Playback.step, Player.move, ends, declared, unended running, next]
      rw [rewinds]
      exact rewound_sound (s := next) none sound.same rfl (Nat.zero_le _) stopped

theorem run_sound (sound : s.Sound timeline) (moves : List (Nat × Move)) :
    (s.run moves).Sound timeline := by
  induction moves generalizing s with
  | nil => exact sound
  | cons move rest ih => exact ih (sound.step move.1 move.2)

theorem drop_base (sound : s.Sound timeline) (ordered : timeline.Ordered) :
    timeline.messages.drop s.base = timeline.messages.filter (s.origin ≤ ·.atMs) := by
  cases sought : s.sought with
  | none => simp [base, origin, sought]
  | some ms =>
    have dropped := ordered.drop_indexAt s.origin
    simpa only [base, sought, sound.same] using dropped

theorem move_due (p : Player) (now : Nat) (move : Move) :
    ∃ fresh, (p.move now move).emitted = p.emitted ++ fresh ∧
      ∀ message ∈ messagesOf fresh, message.atMs ≤ p.positionAt now := by
  cases move with
  | play => exact ⟨[], by simp [Player.move, Player.play], by simp [messagesOf]⟩
  | pause => exact ⟨[.silence], rfl, by simp⟩
  | look => exact ⟨[], by simp [Player.move, Player.tick], by simp [messagesOf]⟩
  | stop => exact ⟨[.silence], rfl, by simp⟩
  | seek ms => exact ⟨[.silence], rfl, by simp⟩
  | work =>
    rcases p.work_cases now with ⟨-, same⟩ | ⟨-, -, goes⟩ | ⟨-, -, ends⟩
    · exact ⟨[], by simp [Player.move, same], by simp [messagesOf]⟩
    · refine ⟨(p.fresh now).map .message, by simp [Player.move, goes, Player.advanced], ?_⟩
      simpa using p.fresh_due now
    · refine ⟨(p.fresh now).map .message ++ [.silence], ?_, ?_⟩
      · simp [Player.move, ends, Player.finished]
      · simpa using p.fresh_due now

theorem advanced_unsent (sound : s.Sound timeline) (ordered : timeline.Ordered) (now : Nat) :
    ∀ message ∈ timeline.messages.drop (s.player.advanced now).cursor,
      (s.player.advanced now).playhead.currentMs < message.atMs := by
  intro message member
  have before : (timeline.messages.drop s.player.cursor).Pairwise fun a b =>
      decide (b.atMs ≤ s.player.positionAt now) → decide (a.atMs ≤ s.player.positionAt now) := by
    refine (ordered.drop).imp fun {a b} h => ?_
    simp only [decide_eq_true_eq]
    omega
  have rest : timeline.messages.drop (s.player.advanced now).cursor =
      (timeline.messages.drop s.player.cursor).dropWhile (·.atMs ≤ s.player.positionAt now) := by
    rw [← drop_length_takeWhile, List.drop_drop, ← sound.same]
    rfl
  rw [rest, dropWhile_eq_filter_not before] at member
  have late := List.of_mem_filter member
  rw [Bool.not_eq_true', decide_eq_false_iff_not] at late
  exact Nat.lt_of_not_le late

end Playback

/-- Since it was last rewound, a player has sent the messages from the base of playback to the
    cursor, each once and in order. The base is where the timeline begins, or the first message that
    is not before the time sought. No message is sent before its time; while the worker goes on,
    none is left whose time has come; and when it declares the end, none is left at all. -/
theorem messages_handed_exactly_once (f : File) (now : Nat) (moves : List (Nat × Move)) :
    let messages := (Timeline.ofFile f).messages
    let s := (Playback.start (Timeline.ofFile f) now).run moves
    (s.base ≤ s.player.cursor ∧ s.player.cursor ≤ messages.length ∧
      s.handed = (messages.take s.player.cursor).drop s.base) ∧
    messages.drop s.base = messages.filter (s.origin ≤ ·.atMs) ∧
    (∀ wait move, ∃ fresh,
      (s.player.move (s.now + wait) move).emitted = s.player.emitted ++ fresh ∧
        ∀ message ∈ messagesOf fresh, message.atMs ≤ s.player.positionAt (s.now + wait)) ∧
    ∀ wait,
      let p := s.player.work (s.now + wait)
      (p.playhead.isRunning = true →
        ∀ message ∈ messages.drop p.cursor, p.playhead.currentMs < message.atMs) ∧
      (s.player.ended = false → p.ended = true →
        messagesOf (p.emitted.drop s.mark) = messages.drop s.base ∧
          p.cursor = 0 ∧ p.playhead.currentMs = 0 ∧ p.playhead.isRunning = false) := by
  intro messages s
  have ordered := Timeline.ofFile_ordered f
  have sound : s.Sound (Timeline.ofFile f) :=
    Playback.run_sound (Playback.start_sound (Timeline.ofFile f) now) moves
  refine ⟨⟨sound.base_le, sound.cursor_le, sound.handed⟩, Playback.drop_base sound ordered,
    fun wait move => Playback.move_due s.player (s.now + wait) move, fun wait => ?_⟩
  rcases s.player.work_cases (s.now + wait) with ⟨stopped, same⟩ | ⟨running, -, goes⟩ |
    ⟨running, finishes, ends⟩
  · rw [same]
    refine ⟨fun running => absurd running (by simp [stopped]), fun unended ended => ?_⟩
    exact absurd ended (by simp [unended])
  · rw [goes]
    refine ⟨fun _ => Playback.advanced_unsent sound ordered _, fun unended ended => ?_⟩
    exact absurd ended (by simp [Player.advanced, unended])
  · rw [ends]
    refine ⟨fun running => absurd running (by simp [Player.finished]), fun _ _ => ?_⟩
    exact ⟨Playback.handed_finished sound _ finishes, rfl, rfl, rfl⟩

end ScoreDesk.Transport
