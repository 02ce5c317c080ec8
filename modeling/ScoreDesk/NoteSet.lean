import ScoreDesk.Pitch

namespace ScoreDesk

structure NoteSet where
  notes : List Nat
  ascending : notes.Pairwise (· < ·)

namespace NoteSet

def insertAscending (note : Nat) : List Nat → List Nat
  | [] => [note]
  | n :: rest =>
    if note < n then note :: n :: rest
    else if note = n then n :: rest
    else n :: insertAscending note rest

theorem mem_insertAscending {note m : Nat} {notes : List Nat} :
    m ∈ insertAscending note notes ↔ m = note ∨ m ∈ notes := by
  induction notes with
  | nil => simp [insertAscending]
  | cons n rest ih =>
    simp only [insertAscending]
    split
    · simp
    · split <;> grind

theorem insertAscending_pairwise {note : Nat} {notes : List Nat}
    (ascending : notes.Pairwise (· < ·)) : (insertAscending note notes).Pairwise (· < ·) := by
  induction notes with
  | nil => simp [insertAscending]
  | cons n rest ih =>
    obtain ⟨above, rest_ascending⟩ := List.pairwise_cons.1 ascending
    simp only [insertAscending]
    split
    · rename_i below
      refine List.pairwise_cons.2 ⟨fun m hm => ?_, ascending⟩
      rcases List.mem_cons.1 hm with rfl | hm
      · exact below
      · exact Nat.lt_trans below (above m hm)
    · split
      · exact ascending
      · refine List.pairwise_cons.2 ⟨fun m hm => ?_, ih rest_ascending⟩
        rcases mem_insertAscending.1 hm with rfl | hm
        · omega
        · exact above m hm

def empty : NoteSet := ⟨[], .nil⟩

instance : Inhabited NoteSet := ⟨empty⟩

instance : Membership Nat NoteSet where
  mem s note := note ∈ s.notes

instance (note : Nat) (s : NoteSet) : Decidable (note ∈ s) :=
  inferInstanceAs (Decidable (note ∈ s.notes))

def insert (s : NoteSet) (note : Nat) : NoteSet :=
  ⟨insertAscending note s.notes, insertAscending_pairwise s.ascending⟩

def erase (s : NoteSet) (note : Nat) : NoteSet :=
  ⟨s.notes.filter (· != note), s.ascending.filter _⟩

def ofList (notes : List Nat) : NoteSet :=
  notes.foldl insert empty

def isEmpty (s : NoteSet) : Bool :=
  s.notes.isEmpty

def size (s : NoteSet) : Nat :=
  s.notes.length

@[simp] theorem notes_empty : empty.notes = [] := rfl

@[simp] theorem not_mem_empty (note : Nat) : note ∉ empty :=
  List.not_mem_nil

@[simp] theorem mem_insert {s : NoteSet} {note m : Nat} : m ∈ s.insert note ↔ m = note ∨ m ∈ s :=
  mem_insertAscending

@[simp] theorem mem_erase {s : NoteSet} {note m : Nat} : m ∈ s.erase note ↔ m ∈ s ∧ m ≠ note := by
  simp only [Membership.mem, erase]
  change m ∈ List.filter _ _ ↔ m ∈ s.notes ∧ _
  simp

theorem ext {s t : NoteSet} (same : ∀ note, note ∈ s ↔ note ∈ t) : s = t := by
  cases s with | mk xs hx =>
  cases t with | mk ys hy =>
  congr
  change ∀ note, note ∈ xs ↔ note ∈ ys at same
  induction xs generalizing ys with
  | nil =>
    cases ys with
    | nil => rfl
    | cons y ys => exact absurd ((same y).2 (by simp)) (by simp)
  | cons x xs ih =>
    cases ys with
    | nil => exact absurd ((same x).1 (by simp)) (by simp)
    | cons y ys =>
      obtain ⟨above_x, xs_ascending⟩ := List.pairwise_cons.1 hx
      obtain ⟨above_y, ys_ascending⟩ := List.pairwise_cons.1 hy
      have head : x = y := by
        have hxy := (same x).1 (by simp)
        have hyx := (same y).2 (by simp)
        simp only [List.mem_cons] at hxy hyx
        rcases hxy with rfl | hxy
        · rfl
        · rcases hyx with rfl | hyx
          · rfl
          · have := above_x _ hyx
            have := above_y _ hxy
            omega
      subst head
      congr
      refine ih xs_ascending ys ys_ascending fun note => ?_
      have hn := same note
      simp only [List.mem_cons] at hn
      constructor
      · intro h
        rcases hn.1 (.inr h) with rfl | h'
        · exact absurd (above_x _ h) (by omega)
        · exact h'
      · intro h
        rcases hn.2 (.inr h) with rfl | h'
        · exact absurd (above_y _ h) (by omega)
        · exact h'

instance : DecidableEq NoteSet := fun s t =>
  decidable_of_iff (s.notes = t.notes) ⟨fun h => by cases s; cases t; congr, fun h => h ▸ rfl⟩

/-- The text that enters the notes into a score: a name, or the names of a chord in angle brackets,
    after a space. An empty set gives no text. -/
def render (accidentals : Accidentals) (relative : Bool) (s : NoteSet) :
    Except PitchError String := do
  match ← s.notes.mapM (Pitch.name accidentals relative) with
  | [] => return ""
  | [name] => return " " ++ name
  | names => return " <" ++ " ".intercalate names ++ ">"

end NoteSet

end ScoreDesk
