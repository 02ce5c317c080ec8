import Mathlib
import ScoreDesk.Keyboard.Session
import ScoreDesk.Proofs.NoteNames

namespace ScoreDesk.Keyboard

def isHeard (event : KeyEvent) : Bool :=
  Pitch.inRange event.note

def pressed (events : List KeyEvent) : List Nat :=
  (events.filter KeyEvent.isPress).map KeyEvent.note

@[simp] theorem pressed_append (first second : List KeyEvent) :
    pressed (first ++ second) = pressed first ++ pressed second := by
  simp [pressed]

theorem pressed_dropLast_append (events : List KeyEvent) :
    pressed events.dropLast ++ pressed events.getLast?.toList = pressed events := by
  rcases List.eq_nil_or_concat events with rfl | ⟨before, last, rfl⟩
  · rfl
  · simp

theorem pressed_getLast_cases (events : List KeyEvent) :
    pressed events.getLast?.toList = [] ∨
      ∃ event ∈ events, pressed events.getLast?.toList = [event.note] := by
  cases last : events.getLast? with
  | none => exact .inl rfl
  | some event =>
    have member := List.mem_of_getLast? last
    cases event with
    | press note velocity => exact .inr ⟨_, member, rfl⟩
    | release note => exact .inl rfl

def written (accidentals : Accidentals) (relative : Bool) (note : Nat) : Except PitchError String :=
  (Pitch.name accidentals relative note).map (" " ++ ·)

namespace Chord

theorem flushActive_snd (c : Chord) : c.flushActive.2 = { c with active := .empty } := by
  unfold flushActive
  split
  · rename_i none
    have notes := NoteSet.isEmpty_iff.1 none
    obtain ⟨⟨listed, ascending⟩, released⟩ := c
    subst notes
    rfl
  · rfl

theorem process_press_alone (c : Chord) (note : Nat) :
    c.process note true false = (c.flushActive.1, ⟨NoteSet.empty.insert note, c.released⟩) := by
  have rest := c.flushActive_snd
  simp [process, rest]

theorem process_release_alone (c : Chord) (note : Nat) :
    c.process note false false = (c.flushActive.1, .empty) := by
  have rest := c.flushActive_snd
  simp [process, rest, empty]

def after (event : KeyEvent) : Chord :=
  ⟨if event.isPress then NoteSet.empty.insert event.note else .empty, .empty⟩

theorem after_notes (event : KeyEvent) : (after event).active.notes = pressed [event] := by
  cases event <;> rfl

theorem process_detached {c : Chord} (event : KeyEvent) (detached : c.released = .empty) :
    c.process event.note event.isPress false = (c.flushActive.1, after event) := by
  cases event with
  | press note velocity => simp [process_press_alone, after, KeyEvent.note, KeyEvent.isPress, detached]
  | release note => simp [process_release_alone, after, KeyEvent.note, KeyEvent.isPress, empty]

end Chord

namespace Session

def handleAll (s : Session) (events : List KeyEvent) : Session :=
  events.foldl (fun s event => (s.handle event).2) s

theorem handle_unheard (s : Session) {event : KeyEvent} (unheard : isHeard event = false) :
    s.handle event = (none, s) := by
  unfold isHeard at unheard
  simp [handle, unheard]

theorem handleAll_heard (s : Session) (events : List KeyEvent) :
    s.handleAll events = s.handleAll (events.filter isHeard) := by
  induction events generalizing s with
  | nil => rfl
  | cons event rest ih =>
    cases heard : isHeard event with
    | true =>
      rw [List.filter_cons_of_pos heard]
      exact ih _
    | false =>
      rw [List.filter_cons_of_neg (by simp [heard])]
      show ((s.handle event).2).handleAll rest = _
      rw [handle_unheard s heard]
      exact ih s

/-- What a session without chords has written after some events that it heard: every note that was
    pressed but for one that the last of them pressed, which still waits. -/
structure Detached (accidentals : Accidentals) (relative : Bool) (heard : List KeyEvent)
    (s : Session) : Prop where
  settings : s.settings = { accidentals, relative, chords := false }
  pieces : s.pieces.map .ok = (pressed heard.dropLast).map (written accidentals relative)
  pending : s.chord.active.notes = pressed heard.getLast?.toList
  released : s.chord.released = .empty

section Detached

variable {s : Session} {event : KeyEvent}

theorem handle_nothing_held (heard : isHeard event = true) (single : s.settings.chords = false)
    (detached : s.chord.released = .empty) (held : s.chord.active.notes = []) :
    s.handle event = (none, { s with chord := .after event }) := by
  have empty : s.chord.active.isEmpty = true := NoteSet.isEmpty_iff.2 held
  have flushed : s.chord.flushActive.1 = none := by simp [Chord.flushActive, empty]
  have processed := Chord.process_detached event detached
  unfold isHeard at heard
  simp [handle, heard, single, processed, flushed]

theorem handle_note_held (heard : isHeard event = true) (single : s.settings.chords = false)
    (detached : s.chord.released = .empty) {note : Nat} (held : s.chord.active.notes = [note])
    {name : String}
    (named : Pitch.name s.settings.accidentals s.settings.relative note = .ok name) :
    s.handle event = (some (" " ++ name),
      { s with chord := .after event, pieces := s.pieces ++ [" " ++ name] }) := by
  have filled : s.chord.active.isEmpty = false := by simp [NoteSet.isEmpty, held]
  have flushed : s.chord.flushActive.1 = some s.chord.active := by simp [Chord.flushActive, filled]
  have processed := Chord.process_detached event detached
  have rendered := NoteSet.render_of_notes_eq_singleton held named
  have nonempty : (" " ++ name).isEmpty = false := by simp
  unfold isHeard at heard
  simp [handle, heard, single, processed, flushed, rendered, nonempty]

end Detached

theorem start_detached (accidentals : Accidentals) (relative : Bool) :
    Detached accidentals relative [] (start { accidentals, relative, chords := false }) where
  settings := rfl
  pieces := rfl
  pending := rfl
  released := rfl

theorem Detached.step {accidentals : Accidentals} {relative : Bool} {heard : List KeyEvent}
    {s : Session} (detached : s.Detached accidentals relative heard)
    (inside : ∀ event ∈ heard, isHeard event = true) {event : KeyEvent}
    (hears : isHeard event = true) :
    (s.handle event).2.Detached accidentals relative (heard ++ [event]) := by
  have settings := detached.settings
  have single : s.settings.chords = false := by rw [settings]
  have pending := detached.pending
  have commits := pressed_dropLast_append heard
  have after : (Chord.after event).active.notes = pressed (heard ++ [event]).getLast?.toList := by
    rw [List.getLast?_concat]
    exact Chord.after_notes event
  rcases pressed_getLast_cases heard with silent | ⟨last, member, one⟩
  · rw [handle_nothing_held hears single detached.released (pending.trans silent)]
    refine ⟨settings, ?_, after, rfl⟩
    rw [List.dropLast_concat, ← commits, silent, List.append_nil]
    exact detached.pieces
  · obtain ⟨name, named⟩ := Pitch.exists_name accidentals relative (inside last member)
    have known : Pitch.name s.settings.accidentals s.settings.relative last.note = .ok name := by
      rw [settings]
      exact named
    rw [handle_note_held hears single detached.released (pending.trans one) known]
    refine ⟨settings, ?_, after, rfl⟩
    have piece : written accidentals relative last.note = .ok (" " ++ name) := by
      rw [written, named]
      rfl
    rw [List.dropLast_concat, ← commits, one, List.map_append, List.map_append, detached.pieces,
      List.map_singleton, List.map_singleton, piece]

theorem handleAll_detached (accidentals : Accidentals) (relative : Bool) (heard : List KeyEvent)
    (inside : ∀ event ∈ heard, isHeard event = true) :
    ((start { accidentals, relative, chords := false }).handleAll heard).Detached
      accidentals relative heard := by
  induction heard using List.reverseRecOn with
  | nil => exact start_detached accidentals relative
  | append_singleton heard event ih =>
    have earlier := ih fun e member => inside e (List.mem_append_left _ member)
    rw [handleAll, List.foldl_append]
    exact earlier.step (fun e member => inside e (List.mem_append_left _ member))
      (inside event (by simp))

/-- Without chords a session writes, in order and each on its own, the notes whose presses are
    followed by another event that it hears; only the last event can leave a note that waits. It
    hears the events of written notes, and any other event has no effect at all. -/
theorem notes_written_one_by_one (accidentals : Accidentals) (relative : Bool)
    (events : List KeyEvent) :
    let session := (start { accidentals, relative, chords := false }).handleAll events
    let heard := events.filter fun event => Pitch.inRange event.note
    session.pieces.map .ok =
      (pressed heard.dropLast).map (fun note =>
        (Pitch.name accidentals relative note).map (" " ++ ·)) ∧
    session.chord.active.notes = pressed heard.getLast?.toList ∧
    session.chord.released = .empty ∧
    session = (start { accidentals, relative, chords := false }).handleAll heard ∧
    ∀ (s : Session) (event : KeyEvent), Pitch.inRange event.note = false →
      s.handle event = (none, s) := by
  intro session heard
  have same : session = (start { accidentals, relative, chords := false }).handleAll heard :=
    handleAll_heard _ events
  have detached := handleAll_detached accidentals relative heard
    fun event member => (List.mem_filter.1 member).2
  rw [← same] at detached
  exact ⟨detached.pieces, detached.pending, detached.released, same,
    fun s _ unheard => s.handle_unheard unheard⟩

example :
    ((start {}).handleAll [.press 48 90, .press 50 90, .release 48, .press 52 90, .release 50,
      .release 52]).pieces = [" c", " d", " e"] := by
  decide +kernel

end Session

end ScoreDesk.Keyboard
