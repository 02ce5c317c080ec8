import Mathlib
import ScoreDesk.Proofs.Keyboard.SharedNotes

namespace ScoreDesk.Keyboard

namespace Chord

/-- The notes of a keyboard that is played with one setting of chords: none is held and released at
    once, all can be written, and without chords there is at most one. -/
structure Orderly (chords : Bool) (c : Chord) : Prop where
  apart : ∀ note, ¬ c.Shares note
  written : ∀ note, note ∈ c.active ∨ note ∈ c.released → Pitch.inRange note = true
  alone : chords = false → c.released = .empty ∧ c.active.size ≤ 1

variable {c : Chord} {chords : Bool}

theorem empty_orderly (chords : Bool) : Chord.empty.Orderly chords where
  apart := not_shares_empty
  written := by
    rintro note (active | released)
    · exact absurd active (NoteSet.not_mem_empty note)
    · exact absurd released (NoteSet.not_mem_empty note)
  alone := fun _ => ⟨rfl, Nat.zero_le 1⟩

theorem after_orderly {event : KeyEvent} (heard : isHeard event = true) :
    (after event).Orderly false := by
  cases event with
  | press note velocity =>
    refine ⟨fun m shared => NoteSet.not_mem_empty m shared.2, ?_, fun _ => ⟨rfl, Nat.le_refl 1⟩⟩
    rintro m (active | released)
    · rcases NoteSet.mem_insert.1 active with rfl | none
      · exact heard
      · exact absurd none (NoteSet.not_mem_empty m)
    · exact absurd released (NoteSet.not_mem_empty m)
  | release note => exact empty_orderly false

theorem Orderly.flushed (orderly : c.Orderly chords) {group : NoteSet}
    (flushed : c.flushActive.1 = some group) : group.Writable := by
  unfold flushActive at flushed
  split at flushed
  · cases flushed
  · rename_i filled
    obtain rfl : c.active = group := Option.some.inj flushed
    exact ⟨fun none => filled (NoteSet.isEmpty_iff.2 none),
      fun note member => orderly.written note (.inl member)⟩

theorem Orderly.press (orderly : c.Orderly true) {note : Nat}
    (known : Pitch.inRange note = true) : (c.process note true true).2.Orderly true where
  apart := fun m shared => orderly.apart m (shares_press.1 shared).1
  written := by
    rintro m (active | released)
    · rcases NoteSet.mem_insert.1 active with rfl | active
      · exact known
      · exact orderly.written m (.inl active)
    · exact orderly.written m (.inr (NoteSet.mem_erase.1 released).1)
  alone := nofun

theorem Orderly.release (orderly : c.Orderly true) {note : Nat}
    (known : Pitch.inRange note = true) : (c.process note false true).2.Orderly true where
  apart := fun m shared => orderly.apart m (shares_release.1 shared).1
  written := by
    intro m member
    cases last : (c.active.erase note).isEmpty with
    | true =>
      rw [process_last last] at member
      rcases member with active | released
      · exact orderly.written m (.inl (NoteSet.mem_erase.1 active).1)
      · exact absurd released (NoteSet.not_mem_empty m)
    | false =>
      rw [process_more last] at member
      rcases member with active | released
      · exact orderly.written m (.inl (NoteSet.mem_erase.1 active).1)
      · rcases NoteSet.mem_insert.1 released with rfl | released
        · exact known
        · exact orderly.written m (.inr released)
  alone := nofun

theorem Orderly.process (orderly : c.Orderly chords) {event : KeyEvent}
    (heard : isHeard event = true) :
    (c.process event.note event.isPress chords).2.Orderly chords ∧
      ∀ group, (c.process event.note event.isPress chords).1 = some group → group.Writable := by
  cases chords with
  | false =>
    rw [process_detached event (orderly.alone rfl).1]
    exact ⟨after_orderly heard, fun group flushed => orderly.flushed flushed⟩
  | true =>
    cases event with
    | press note velocity => exact ⟨orderly.press heard, nofun⟩
    | release note =>
      refine ⟨orderly.release heard, fun group completes => ?_⟩
      dsimp only [KeyEvent.note, KeyEvent.isPress] at completes
      cases last : (c.active.erase note).isEmpty with
      | true =>
        rw [process_last last] at completes
        obtain rfl : c.released.insert note = group := Option.some.inj completes
        exact NoteSet.insert_writable heard fun m member => orderly.written m (.inr member)
      | false =>
        rw [process_more last] at completes
        cases completes

end Chord

namespace Session

inductive Request where
  | key (event : KeyEvent)
  | update (settings : Settings)
  | reset

def serve (s : Session) : Request → Option String × Session
  | .key event => s.handle event
  | .update settings => (none, s.update settings)
  | .reset => (none, s.reset)

def serveAll (s : Session) : List Request → List (Option String) × Session
  | [] => ([], s)
  | request :: rest =>
    let (text, s) := s.serve request
    let (texts, s) := s.serveAll rest
    (text :: texts, s)

def completes (s : Session) (event : KeyEvent) : Option NoteSet :=
  if isHeard event then (s.chord.process event.note event.isPress s.settings.chords).1 else none

def Orderly (s : Session) : Prop := s.chord.Orderly s.settings.chords

variable {s : Session}

theorem start_orderly (settings : Settings) : (start settings).Orderly :=
  Chord.empty_orderly settings.chords

theorem handle_pieces (s : Session) (pieces : List String) (event : KeyEvent) :
    ({ s with pieces } : Session).handle event =
      ((s.handle event).1,
        { (s.handle event).2 with pieces := pieces ++ (s.handle event).1.toList }) := by
  unfold handle
  dsimp only
  split
  · simp
  · split
    · simp
    · split
      · split <;> simp
      · simp

theorem serve_pieces (s : Session) (pieces : List String) (request : Request) :
    ({ s with pieces } : Session).serve request =
      ((s.serve request).1,
        { (s.serve request).2 with pieces := pieces ++ (s.serve request).1.toList }) := by
  cases request with
  | key event => exact handle_pieces s pieces event
  | update settings =>
    simp only [serve, update]
    split <;> simp
  | reset => simp [serve, reset]

theorem serveAll_cons (s : Session) (request : Request) (rest : List Request) :
    s.serveAll (request :: rest) =
      ((s.serve request).1 :: ((s.serve request).2.serveAll rest).1,
        ((s.serve request).2.serveAll rest).2) :=
  rfl

theorem serveAll_pieces (s : Session) (pieces : List String) (requests : List Request) :
    ({ s with pieces } : Session).serveAll requests =
      ((s.serveAll requests).1,
        { (s.serveAll requests).2 with
          pieces := pieces ++ (s.serveAll requests).1.reduceOption }) := by
  induction requests generalizing s pieces with
  | nil => simp [serveAll]
  | cons request rest ih =>
    rw [serveAll_cons, serve_pieces, ih, serveAll_cons]
    cases (s.serve request).1 <;> simp [List.reduceOption]

theorem serveAll_inserts (s : Session) (requests : List Request) :
    (s.serveAll requests).2.pieces =
      s.pieces ++ (s.serveAll requests).1.reduceOption :=
  congrArg (fun answered => answered.2.pieces) (serveAll_pieces s s.pieces requests)

theorem handle_chord (s : Session) {event : KeyEvent} (heard : isHeard event = true) :
    (s.handle event).2.chord = (s.chord.process event.note event.isPress s.settings.chords).2 := by
  unfold isHeard at heard
  unfold handle
  simp only [heard, Bool.not_true, Bool.false_eq_true, if_false]
  split
  · rfl
  · split
    · split <;> rfl
    · rfl

theorem handle_settings (s : Session) (event : KeyEvent) :
    (s.handle event).2.settings = s.settings := by
  unfold handle
  dsimp only
  split
  · rfl
  · split
    · rfl
    · split
      · split <;> rfl
      · rfl

theorem Orderly.handle (orderly : s.Orderly) (event : KeyEvent) : (s.handle event).2.Orderly := by
  cases heard : isHeard event with
  | false =>
    rw [s.handle_unheard heard]
    exact orderly
  | true =>
    unfold Session.Orderly
    rw [handle_settings, handle_chord s heard]
    exact (Chord.Orderly.process orderly heard).1

theorem Orderly.serve (orderly : s.Orderly) (request : Request) :
    (s.serve request).2.Orderly := by
  cases request with
  | key event => exact orderly.handle event
  | update settings =>
    dsimp only [Session.serve, update]
    split
    · exact orderly
    · exact Chord.empty_orderly settings.chords
  | reset => exact Chord.empty_orderly s.settings.chords

theorem Orderly.serveAll (orderly : s.Orderly) (requests : List Request) :
    (s.serveAll requests).2.Orderly := by
  induction requests generalizing s with
  | nil => exact orderly
  | cons request rest ih => exact ih (orderly.serve request)

theorem Orderly.completes (orderly : s.Orderly) {event : KeyEvent} {group : NoteSet}
    (completes : s.completes event = some group) : group.Writable := by
  unfold Session.completes at completes
  split at completes
  · rename_i heard
    exact (Chord.Orderly.process orderly heard).2 group completes
  · cases completes

theorem Orderly.answer (orderly : s.Orderly) (event : KeyEvent) :
    (s.handle event).1 = (s.completes event).bind fun group =>
      (group.render s.settings.accidentals s.settings.relative).toOption := by
  cases heard : isHeard event with
  | false => simp [s.handle_unheard heard, Session.completes, heard]
  | true =>
    cases completed : s.completes event with
    | none =>
      have none := completed
      rw [Session.completes, if_pos heard] at none
      unfold isHeard at heard
      simp [Session.handle, heard, none]
    | some group =>
      obtain ⟨text, rendered, nonempty⟩ := (orderly.completes completed).exists_render
        s.settings.accidentals s.settings.relative
      have one := completed
      rw [Session.completes, if_pos heard] at one
      unfold isHeard at heard
      have shown : text.isEmpty = false := by simpa using nonempty
      simp [Session.handle, heard, one, rendered, shown, Except.toOption]

theorem update_fresh (s : Session) {settings : Settings} (changed : settings ≠ s.settings) :
    s.update settings = { start settings with pieces := s.pieces } := by
  rw [update, if_neg changed]
  rfl

/-- Whatever key events come and however settings change in between: no note is held and released at
    once, only notes of the written range are kept, and without chords at most one, which is held.
    Every group that is completed is rendered, as a text that is not empty, and that text is the
    answer. What is inserted is exactly what was answered. With other settings a session answers
    from then on like one that starts with them. -/
theorem notes_kept_and_answers_inserted (settings : Settings) (requests : List Request) :
    let (answers, s) := (start settings).serveAll requests
    (∀ note, ¬ (note ∈ s.chord.active ∧ note ∈ s.chord.released)) ∧
    (∀ note, note ∈ s.chord.active ∨ note ∈ s.chord.released → 12 ≤ note ∧ note ≤ 127) ∧
    (s.settings.chords = false → s.chord.released = .empty ∧ s.chord.active.size ≤ 1) ∧
    (∀ event group, s.completes event = some group →
      ∃ text, group.render s.settings.accidentals s.settings.relative = .ok text ∧ text ≠ "" ∧
        (s.handle event).1 = some text) ∧
    (∀ event, s.completes event = none → (s.handle event).1 = none) ∧
    (∀ event, (s.handle event).2.pieces = s.pieces ++ (s.handle event).1.toList) ∧
    s.pieces = answers.reduceOption ∧
    s.text = String.join answers.reduceOption ∧
    (∀ changed later, changed ≠ s.settings →
      ((s.update changed).serveAll later).1 = ((start changed).serveAll later).1) := by
  dsimp only
  have orderly := (start_orderly settings).serveAll requests
  have inserted := serveAll_inserts (start settings) requests
  rw [show (start settings).pieces = [] from rfl, List.nil_append] at inserted
  refine ⟨orderly.apart, fun note kept => Pitch.inRange_iff.1 (orderly.written note kept),
    orderly.alone, fun event group completed => ?_, fun event waits => ?_, fun event => ?_, ?_, ?_,
    fun changed later differs => ?_⟩
  · obtain ⟨text, rendered, nonempty⟩ := (orderly.completes completed).exists_render _ _
    refine ⟨text, rendered, nonempty, ?_⟩
    rw [orderly.answer, completed, Option.bind_some, rendered]
    rfl
  · rw [orderly.answer, waits, Option.bind_none]
  · exact congrArg (fun answered => answered.2.pieces) (handle_pieces _ _ event)
  · exact inserted
  · rw [text, inserted]
  · rw [update_fresh _ differs, serveAll_pieces]

end Session

end ScoreDesk.Keyboard
