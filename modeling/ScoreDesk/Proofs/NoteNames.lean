import Mathlib
import ScoreDesk.NoteSet

namespace ScoreDesk

namespace Pitch

theorem exists_className (accidentals : Accidentals) {pitchClass : Nat} (bound : pitchClass < 12) :
    ∃ name, className accidentals pitchClass = .ok name := by
  have length : accidentals.classNames.length = 12 := by cases accidentals <;> rfl
  have found : pitchClass < accidentals.classNames.length := by omega
  exact ⟨accidentals.classNames[pitchClass], by simp [className, found]⟩

theorem exists_octaveMark {octave : Nat} (bound : octave ≤ 9) :
    ∃ mark, octaveMark octave = .ok mark := by
  have inside : (0 : Int) ≤ octave ∧ (octave : Int) ≤ 9 := by omega
  exact ⟨_, if_pos inside⟩

theorem inRange_iff {note : Nat} : inRange note = true ↔ 12 ≤ note ∧ note ≤ 127 := by
  unfold inRange
  rw [Bool.and_eq_true, decide_eq_true_iff, decide_eq_true_iff]
  rfl

theorem exists_name (accidentals : Accidentals) (relative : Bool) {note : Nat}
    (written : inRange note = true) : ∃ text, name accidentals relative note = .ok text := by
  have bounds := inRange_iff.1 written
  have octave : note / 12 - 1 ≤ 9 := by omega
  obtain ⟨letter, named⟩ := exists_className accidentals (Nat.mod_lt note (by decide : 0 < 12))
  obtain ⟨mark, marked⟩ := exists_octaveMark octave
  simp only [name, written, if_true, named, marked]
  cases relative
  · exact ⟨letter ++ mark, rfl⟩
  · exact ⟨letter, rfl⟩

end Pitch

namespace NoteSet

theorem isEmpty_iff {s : NoteSet} : s.isEmpty = true ↔ s.notes = [] :=
  List.isEmpty_iff

structure Writable (s : NoteSet) : Prop where
  filled : s.notes ≠ []
  written : ∀ note ∈ s, Pitch.inRange note = true

instance (s : NoteSet) : Decidable s.Writable :=
  decidable_of_iff (s.notes ≠ [] ∧ ∀ note ∈ s.notes, Pitch.inRange note = true)
    ⟨fun ⟨filled, written⟩ => ⟨filled, written⟩,
      fun writable => ⟨writable.filled, writable.written⟩⟩

theorem insert_writable {s : NoteSet} {note : Nat} (known : Pitch.inRange note = true)
    (written : ∀ m ∈ s, Pitch.inRange m = true) : (s.insert note).Writable := by
  have inserted : note ∈ s.insert note := mem_insert.2 (.inl rfl)
  refine ⟨List.ne_nil_of_mem inserted, fun m member => ?_⟩
  rcases mem_insert.1 member with rfl | member
  · exact known
  · exact written m member

theorem exists_names (accidentals : Accidentals) (relative : Bool) {notes : List Nat}
    (written : ∀ note ∈ notes, Pitch.inRange note = true) :
    ∃ names, notes.mapM (Pitch.name accidentals relative) = .ok names ∧
      List.Forall₂ (fun note name => Pitch.name accidentals relative note = .ok name)
        notes names := by
  induction notes with
  | nil => exact ⟨[], rfl, .nil⟩
  | cons note rest ih =>
    obtain ⟨name, named⟩ := Pitch.exists_name accidentals relative (written note (by simp))
    obtain ⟨names, listed, each⟩ := ih fun n member => written n (by simp [member])
    refine ⟨name :: names, ?_, .cons named each⟩
    rw [List.mapM_cons, named, listed]
    rfl

def inscription : List String → String
  | [] => ""
  | [name] => " " ++ name
  | names => " <" ++ " ".intercalate names ++ ">"

theorem render_of_names {accidentals : Accidentals} {relative : Bool} {s : NoteSet}
    {names : List String} (named : s.notes.mapM (Pitch.name accidentals relative) = .ok names) :
    s.render accidentals relative = .ok (inscription names) := by
  unfold render
  rw [named]
  rcases names with _ | ⟨first, _ | ⟨second, rest⟩⟩ <;> rfl

theorem inscription_ne_empty {names : List String} (filled : names ≠ []) :
    inscription names ≠ "" := by
  rcases names with _ | ⟨first, _ | ⟨second, rest⟩⟩
  · exact absurd rfl filled
  · simp [inscription]
  · simp [inscription]

theorem Writable.exists_render {s : NoteSet} (writable : s.Writable) (accidentals : Accidentals)
    (relative : Bool) :
    ∃ text, s.render accidentals relative = .ok text ∧ text ≠ "" := by
  obtain ⟨names, named, each⟩ := exists_names accidentals relative writable.written
  refine ⟨inscription names, render_of_names named, inscription_ne_empty ?_⟩
  rintro rfl
  exact writable.filled (List.forall₂_nil_right_iff.1 each)

theorem render_of_notes_eq_singleton {accidentals : Accidentals} {relative : Bool} {s : NoteSet}
    {note : Nat} {name : String} (single : s.notes = [note])
    (named : Pitch.name accidentals relative note = .ok name) :
    s.render accidentals relative = .ok (" " ++ name) := by
  simp only [render, single, List.mapM_cons, List.mapM_nil, named]
  rfl

end NoteSet

end ScoreDesk
