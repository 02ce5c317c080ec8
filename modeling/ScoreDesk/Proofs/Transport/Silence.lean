import Mathlib
import ScoreDesk.Proofs.Runs
import ScoreDesk.Proofs.Transport.Delivery

namespace ScoreDesk.Transport

open Smf (TimedMessage Timeline)
open Text (Bytes)

def Emission.octets : Emission → List Bytes
  | .message m => [m.bytes]
  | .silence => Midi.allNotesOff

def sentBy (emitted : List Emission) : List Bytes :=
  (emitted.foldl Emission.perform (.start fun _ => false)).sent

theorem sendAll_working (messages : List Bytes) {outlet : Midi.Outlet}
    (works : outlet.failing = fun _ => false) :
    (outlet.sendAll messages).2.failing = (fun _ => false) ∧
      (outlet.sendAll messages).2.sent = outlet.sent ++ messages := by
  induction messages generalizing outlet with
  | nil => exact ⟨works, by simp [Midi.Outlet.sendAll]⟩
  | cons message rest ih =>
    have sends : outlet.send message =
        (.ok (), { outlet with
          attempts := outlet.attempts + 1, sent := outlet.sent ++ [message] }) := by
      simp [Midi.Outlet.send, works]
    obtain ⟨still, sent⟩ := @ih { outlet with
      attempts := outlet.attempts + 1, sent := outlet.sent ++ [message] } works
    rw [Midi.Outlet.sendAll, sends]
    exact ⟨still, by rw [sent]; simp⟩

theorem perform_working (emission : Emission) {outlet : Midi.Outlet}
    (works : outlet.failing = fun _ => false) :
    (emission.perform outlet).failing = (fun _ => false) ∧
      (emission.perform outlet).sent = outlet.sent ++ emission.octets := by
  cases emission with
  | message m => simp [Emission.perform, Emission.octets, Midi.Outlet.send, works]
  | silence => exact sendAll_working Midi.allNotesOff works

theorem foldl_perform_sent (emitted : List Emission) {outlet : Midi.Outlet}
    (works : outlet.failing = fun _ => false) :
    (emitted.foldl Emission.perform outlet).sent =
      outlet.sent ++ emitted.flatMap Emission.octets := by
  induction emitted generalizing outlet with
  | nil => simp
  | cons emission rest ih =>
    have first := perform_working emission works
    rw [List.foldl_cons, ih first.1, first.2, List.flatMap_cons, List.append_assoc]

theorem sentBy_eq (emitted : List Emission) : sentBy emitted = emitted.flatMap Emission.octets := by
  rw [sentBy, foldl_perform_sent emitted rfl]
  rfl

@[simp] theorem sentBy_append (first second : List Emission) :
    sentBy (first ++ second) = sentBy first ++ sentBy second := by
  simp only [sentBy_eq, List.flatMap_append]

@[simp] theorem sentBy_message (m : TimedMessage) (rest : List Emission) :
    sentBy (.message m :: rest) = m.bytes :: sentBy rest := by
  simp [sentBy_eq, Emission.octets]

theorem allNotesOff_covers {channel : Nat} (bound : channel < 16) :
    [0xb0 ||| channel.toUInt8, 123, 0] ∈ Midi.allNotesOff ∧
      [0xb0 ||| channel.toUInt8, 120, 0] ∈ Midi.allNotesOff := by
  have here : channel ∈ List.range 16 := List.mem_range.2 bound
  exact ⟨List.mem_flatMap_of_mem here (by simp), List.mem_flatMap_of_mem here (by simp)⟩

theorem last_octet_of_mem_allNotesOff {status first second : UInt8}
    (member : [status, first, second] ∈ Midi.allNotesOff) : second = 0 := by
  obtain ⟨channel, -, here⟩ := List.mem_flatMap.1 member
  rcases List.mem_pair.1 here with same | same
  · exact (List.cons.inj (List.cons.inj (List.cons.inj same).2).2).1
  · exact (List.cons.inj (List.cons.inj (List.cons.inj same).2).2).1

theorem message_of_sent {emitted : List Emission} {before after : List Bytes} {octets : Bytes}
    (sent : sentBy emitted = before ++ octets :: after) (other : octets ∉ Midi.allNotesOff) :
    ∃ earlier m later, emitted = earlier ++ .message m :: later ∧ sentBy later = after := by
  rw [sentBy_eq] at sent
  induction emitted generalizing before with
  | nil => simp at sent
  | cons emission rest ih =>
    rw [List.flatMap_cons] at sent
    have later {start : List Bytes}
        (here : rest.flatMap Emission.octets = start ++ octets :: after) :
        ∃ earlier m later, emission :: rest = earlier ++ .message m :: later ∧
          sentBy later = after := by
      obtain ⟨earlier, m, later, rfl, same⟩ := ih here
      exact ⟨emission :: earlier, m, later, rfl, same⟩
    -- The octets come after this emission, or they are part of it, which a sweep excludes.
    rcases List.append_eq_append_iff.1 sent with ⟨start, rfl, here⟩ | ⟨between, split, here⟩
    · exact later here
    · cases between with
      | nil => exact @later [] (by simpa using here.symm)
      | cons first between =>
        rw [List.cons_append] at here
        obtain ⟨rfl, tail⟩ := List.cons.inj here
        cases emission with
        | silence =>
          refine absurd ?_ other
          change octets ∈ Emission.silence.octets
          rw [split]
          simp
        | message m =>
          have single : before = [] ∧ between = [] := by
            have lengths := congrArg List.length split
            simp only [Emission.octets, List.length_append, List.length_cons,
              List.length_nil] at lengths
            exact ⟨List.eq_nil_of_length_eq_zero (by omega),
              List.eq_nil_of_length_eq_zero (by omega)⟩
          exact ⟨[], m, rest, rfl, by rw [sentBy_eq, tail, single.2, List.nil_append]⟩

def Swept (emitted : List Emission) : Prop :=
  ∀ (before : List Emission) (m : TimedMessage) (after : List Emission),
    emitted = before ++ .message m :: after → .silence ∈ after

theorem swept_nil : Swept [] := by
  intro before m after split
  simp at split

theorem swept_append_silence (emitted : List Emission) :
    Swept (emitted ++ [Emission.silence]) := by
  intro before m after split
  rcases split_append_singleton split with ⟨_, other, _⟩ | ⟨between, _, rfl⟩
  · cases other
  · simp

/-- Whether a message ends a note: its release, or a controller that silences the channel. -/
def endsNote (channel note : UInt8) : Bytes → Bool
  | [status, first, second] =>
    (status == 0x80 ||| channel && first == note) ||
      (status == 0x90 ||| channel && first == note && second == 0) ||
      (status == 0xb0 ||| channel && (first == 123 || first == 120))
  | _ => false

/-- A note that was struck and not ended since. -/
def Hangs (sent : List Bytes) (channel note : UInt8) : Prop :=
  ∃ before velocity after, sent = before ++ [0x90 ||| channel, note, velocity] :: after ∧
    velocity ≠ 0 ∧ ∀ message ∈ after, endsNote channel note message = false

theorem allNotesOff_subset_sentBy {emitted : List Emission} (swept : .silence ∈ emitted) :
    Midi.allNotesOff ⊆ sentBy emitted := by
  intro message member
  rw [sentBy_eq]
  exact List.mem_flatMap_of_mem swept member

theorem Swept.none_hangs {emitted : List Emission} (swept : Swept emitted) {channel : Nat}
    (bound : channel < 16) (note : UInt8) : ¬ Hangs (sentBy emitted) channel.toUInt8 note := by
  rintro ⟨before, velocity, after, sent, struck, lasts⟩
  have other : [0x90 ||| channel.toUInt8, note, velocity] ∉ Midi.allNotesOff :=
    fun member => struck (last_octet_of_mem_allNotesOff member)
  obtain ⟨earlier, m, later, split, rfl⟩ := message_of_sent sent other
  have swept_later := allNotesOff_subset_sentBy (swept earlier m later split)
  have ends := lasts _ (swept_later (allNotesOff_covers bound).1)
  simp [endsNote] at ends

/-- On each channel what ends all notes and all sound was sent after every message, and no note
    hangs. -/
structure Silenced (emitted : List Emission) : Prop where
  covered : ∀ (before : List Emission) (m : TimedMessage) (after : List Emission),
    emitted = before ++ .message m :: after →
      sentBy emitted = sentBy before ++ m.bytes :: sentBy after ∧
        ∀ channel : Nat, channel < 16 →
          ([0xb0 ||| channel.toUInt8, 123, 0] : Bytes) ∈ sentBy after ∧
            ([0xb0 ||| channel.toUInt8, 120, 0] : Bytes) ∈ sentBy after
  none_hangs : ∀ channel : Nat, channel < 16 → ∀ note : UInt8,
    ¬ Hangs (sentBy emitted) channel.toUInt8 note

theorem Swept.silenced {emitted : List Emission} (swept : Swept emitted) : Silenced emitted where
  covered before m after split := by
    have subset := allNotesOff_subset_sentBy (swept before m after split)
    refine ⟨by rw [split, sentBy_append, sentBy_message], fun channel bound => ?_⟩
    obtain ⟨notes, sound⟩ := allNotesOff_covers bound
    exact ⟨subset notes, subset sound⟩
  none_hangs _ bound note := swept.none_hangs bound note

namespace Player

def Quiet (p : Player) : Prop :=
  p.playhead.isRunning = false → Swept p.emitted

theorem ofTimeline_quiet (timeline : Timeline) : (ofTimeline timeline).Quiet :=
  fun _ => swept_nil

variable {p : Player}

theorem play_quiet (now : Nat) : (p.play now).Quiet := by
  intro stopped
  simp [play] at stopped

theorem silence_quiet : p.silence.Quiet :=
  fun _ => swept_append_silence p.emitted

theorem Quiet.tick (quiet : p.Quiet) (now : Nat) : (p.tick now).Quiet := by
  intro stopped
  exact quiet (by simpa [Player.tick] using stopped)

theorem Quiet.work (quiet : p.Quiet) (now : Nat) : (p.work now).Quiet := by
  rcases p.work_cases now with ⟨-, same⟩ | ⟨running, -, goes⟩ | ⟨-, -, ends⟩
  · rwa [same]
  · rw [goes]
    intro stopped
    simp [advanced, running] at stopped
  · rw [ends]
    exact fun _ => swept_append_silence _

theorem Quiet.move (quiet : p.Quiet) (now : Nat) (move : Move) : (p.move now move).Quiet := by
  cases move with
  | play => exact play_quiet now
  | pause => exact silence_quiet
  | stop => exact silence_quiet
  | seek ms => exact silence_quiet
  | look => exact quiet.tick now
  | work => exact quiet.work now

theorem isRunning_of_work {now : Nat} (running : (p.work now).playhead.isRunning = true) :
    p.playhead.isRunning = true := by
  rcases p.work_cases now with ⟨-, same⟩ | ⟨before, -, -⟩ | ⟨before, -, -⟩
  · rwa [same] at running
  · exact before
  · exact before

end Player

theorem Playback.run_quiet {s : Playback} (quiet : s.player.Quiet) (moves : List (Nat × Move)) :
    (s.run moves).player.Quiet := by
  induction moves generalizing s with
  | nil => exact quiet
  | cons move rest ih =>
    obtain ⟨wait, move⟩ := move
    have moved : (s.step wait move).player = s.player.move (s.now + wait) move := by
      unfold Playback.step
      cases move <;> first | rfl | (dsimp only; split <;> rfl)
    exact ih (by rw [moved]; exact quiet.move _ move)

end ScoreDesk.Transport
