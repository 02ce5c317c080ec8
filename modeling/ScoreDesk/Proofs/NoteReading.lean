import Mathlib
import ScoreDesk.Proofs.NoteNames
import ScoreDesk.Proofs.Text.Scan

namespace ScoreDesk

namespace Pitch

def classOf? (letters : String) : Option Nat :=
  Accidentals.sharps.classNames.idxOf? letters <|> Accidentals.flats.classNames.idxOf? letters

def octaveOf? (mark : List Char) : Option Nat :=
  if mark.all (· == '\x27') then some (unmarkedOctave + mark.length)
  else if mark.all (· == ',') then some (unmarkedOctave - mark.length)
  else none

def read? (name : List Char) : Option Nat := do
  let pitchClass ← classOf? (.ofList (name.takeWhile Char.isAlpha))
  let octave ← octaveOf? (name.dropWhile Char.isAlpha)
  return 12 * (octave + 1) + pitchClass

theorem classNames_spec (accidentals : Accidentals) (pitchClass : Fin 12) :
    ∃ letters, accidentals.classNames[pitchClass.val]? = some letters ∧
      classOf? letters = some pitchClass.val ∧ letters.toList.all Char.isAlpha = true := by
  revert pitchClass
  cases accidentals <;> decide +kernel

theorem octaveMark_spec {octave : Nat} {mark : String} (marked : octaveMark octave = .ok mark) :
    octaveOf? mark.toList = some octave ∧ ∀ c ∈ mark.toList, c = '\x27' ∨ c = ',' := by
  unfold octaveMark at marked
  split at marked
  · rename_i bounds
    obtain rfl := Except.ok.inj marked
    rw [String.toList_ofList, Int.toNat_natCast]
    unfold unmarkedOctave
    by_cases above : 3 ≤ octave
    · rw [if_pos above]
      have height : 3 + (octave - 3) = octave := by omega
      refine ⟨?_, fun c member => .inl (List.eq_of_mem_replicate member)⟩
      simp [octaveOf?, unmarkedOctave, height]
    · rw [if_neg above]
      have depth : 3 - (3 - octave) = octave := by omega
      have low : 3 - octave ≠ 0 := by omega
      refine ⟨?_, fun c member => .inr (List.eq_of_mem_replicate member)⟩
      simp [octaveOf?, unmarkedOctave, depth, low]
  · cases marked

theorem name_spec {accidentals : Accidentals} {note : Nat} {text : String}
    (named : name accidentals false note = .ok text) :
    ∃ letters mark : String, text = letters ++ mark ∧
      classOf? letters = some (note % 12) ∧ letters.toList.all Char.isAlpha = true ∧
      octaveMark (note / 12 - 1 : Nat) = .ok mark ∧ inRange note = true := by
  unfold name at named
  split at named
  · rename_i known
    obtain ⟨letters, listed, read, alphabetic⟩ :=
      classNames_spec accidentals ⟨note % 12, Nat.mod_lt note (by decide)⟩
    have bounds := inRange_iff.1 known
    obtain ⟨mark, marked⟩ := exists_octaveMark (show note / 12 - 1 ≤ 9 by omega)
    rw [className, listed, marked] at named
    exact ⟨letters, mark, (Except.ok.inj named).symm, read, alphabetic, marked, known⟩
  · cases named

theorem read?_name {accidentals : Accidentals} {note : Nat} {text : String}
    (named : name accidentals false note = .ok text) : read? text.toList = some note := by
  obtain ⟨letters, mark, rfl, read, alphabetic, marked, known⟩ := name_spec named
  obtain ⟨octave, signs⟩ := octaveMark_spec marked
  have bounds := inRange_iff.1 known
  have inside := List.all_eq_true.1 alphabetic
  have parts : (letters ++ mark).toList.takeWhile Char.isAlpha = letters.toList ∧
      (letters ++ mark).toList.dropWhile Char.isAlpha = mark.toList := by
    rw [String.toList_append]
    cases signed : mark.toList with
    | nil =>
      rw [List.append_nil]
      exact ⟨List.takeWhile_eq_self_iff.2 inside, List.dropWhile_eq_nil_iff.2 inside⟩
    | cons c rest =>
      have outside : c.isAlpha = false := by
        rcases signs c (by simp [signed]) with rfl | rfl <;> rfl
      exact ⟨Text.takeWhile_until inside outside rest, Text.dropWhile_until inside outside rest⟩
  have whole : 12 * (note / 12 - 1 + 1) + note % 12 = note := by omega
  rw [read?, parts.1, parts.2, String.ofList_toList, read, octave]
  exact congrArg some whole

theorem name_clean {accidentals : Accidentals} {note : Nat} {text : String}
    (named : name accidentals false note = .ok text) :
    ∀ c ∈ text.toList, c ≠ ' ' ∧ c ≠ '<' ∧ c ≠ '>' := by
  obtain ⟨letters, mark, rfl, _, alphabetic, marked, _⟩ := name_spec named
  intro c member
  rw [String.toList_append] at member
  rcases List.mem_append.1 member with member | member
  · have letter := List.all_eq_true.1 alphabetic c member
    refine ⟨?_, ?_, ?_⟩ <;> rintro rfl <;> cases letter
  · rcases (octaveMark_spec marked).2 c member with rfl | rfl <;> decide

end Pitch

namespace NoteSet

theorem mem_foldl_insert {s : NoteSet} {notes : List Nat} {note : Nat} :
    note ∈ notes.foldl insert s ↔ note ∈ s ∨ note ∈ notes := by
  induction notes generalizing s with
  | nil => simp
  | cons first rest ih =>
    rw [List.foldl_cons, ih, mem_insert, List.mem_cons]
    tauto

theorem ofList_notes (s : NoteSet) : ofList s.notes = s := by
  refine NoteSet.ext fun note => ?_
  rw [ofList, mem_foldl_insert]
  exact or_iff_right (not_mem_empty note)

def closing : List String → List (List Char)
  | [] => []
  | [last] => [last.toList ++ ['>']]
  | name :: rest => name.toList :: closing rest

def words : List String → List (List Char)
  | [] => []
  | [name] => [name.toList]
  | first :: rest => ('<' :: first.toList) :: closing rest

/-- Reads the groups that words make up. `opened` holds the notes of a chord that is not closed. -/
def readWords (opened : Option (List Nat)) : List (List Char) → Option (List NoteSet)
  | [] => if opened.isNone then some [] else none
  | word :: rest => do
    match opened with
    | none =>
      if word.head? = some '<' then
        let note ← Pitch.read? word.tail
        readWords (some [note]) rest
      else
        let note ← Pitch.read? word
        (readWords none rest).map (.ofList [note] :: ·)
    | some notes =>
      if word.getLast? = some '>' then
        let note ← Pitch.read? word.dropLast
        (readWords none rest).map (.ofList (notes ++ [note]) :: ·)
      else
        let note ← Pitch.read? word
        readWords (some (notes ++ [note])) rest

def readAll? (text : String) : Option (List NoteSet) :=
  readWords none (text.toList.splitOn ' ').tail

theorem toList_closing {names : List String} (filled : names ≠ []) :
    ' ' :: (" ".intercalate names ++ ">").toList = (closing names).flatMap (' ' :: ·) := by
  induction names with
  | nil => exact absurd rfl filled
  | cons name rest ih =>
    cases rest with
    | nil => simp [closing]
    | cons next rest =>
      have later := ih (by simp)
      rw [closing.eq_3 _ _ (by simp), List.flatMap_cons, ← later]
      simp [String.intercalate_cons_cons]

theorem toList_inscription (names : List String) :
    (inscription names).toList = (words names).flatMap (' ' :: ·) := by
  rcases names with _ | ⟨first, _ | ⟨second, rest⟩⟩
  · rfl
  · simp [inscription, words]
  · have later := toList_closing (List.cons_ne_nil second rest)
    rw [words.eq_3 _ _ (by simp), List.flatMap_cons, ← later]
    simp [inscription, String.intercalate_cons_cons]

section Names

variable {accidentals : Accidentals} {notes : List Nat} {names : List String}

theorem readWords_closing
    (named : List.Forall₂ (fun note name => Pitch.name accidentals false note = .ok name)
      notes names) (filled : names ≠ []) (held : List Nat) (rest : List (List Char)) :
    readWords (some held) (closing names ++ rest) =
      (readWords none rest).map (.ofList (held ++ notes) :: ·) := by
  induction named generalizing held with
  | nil => exact absurd rfl filled
  | @cons note name notes names here later ih =>
    have read := Pitch.read?_name here
    cases later with
    | nil => simp [closing, readWords, read]
    | cons next later =>
      have unclosed : name.toList.getLast? ≠ some '>' := fun last =>
        (Pitch.name_clean here _ (List.mem_of_getLast? last)).2.2 rfl
      rw [closing.eq_3 _ _ (by simp), List.cons_append]
      simp only [readWords, if_neg unclosed, read, Option.bind_eq_bind, Option.bind_some]
      rw [ih (by simp), List.append_assoc, List.singleton_append]

theorem readWords_words
    (named : List.Forall₂ (fun note name => Pitch.name accidentals false note = .ok name)
      notes names) (filled : names ≠ []) (rest : List (List Char)) :
    readWords none (words names ++ rest) = (readWords none rest).map (.ofList notes :: ·) := by
  cases named with
  | nil => exact absurd rfl filled
  | @cons note name notes names here later =>
    have read := Pitch.read?_name here
    cases later with
    | nil =>
      have alone : name.toList.head? ≠ some '<' := fun first =>
        (Pitch.name_clean here _ (List.mem_of_mem_head? first)).2.1 rfl
      simp [words, readWords, alone, read]
    | cons next later =>
      rw [words.eq_3 _ _ (by simp), List.cons_append]
      simp only [readWords, List.head?_cons, if_true, List.tail_cons, read, Option.bind_eq_bind,
        Option.bind_some]
      exact readWords_closing (.cons next later) (by simp) [note] rest

theorem closing_clean
    (named : List.Forall₂ (fun note name => Pitch.name accidentals false note = .ok name)
      notes names) : ∀ word ∈ closing names, ' ' ∉ word := by
  induction named with
  | nil => simp [closing]
  | @cons note name notes names here later ih =>
    have clean : ' ' ∉ name.toList := fun blank => (Pitch.name_clean here _ blank).1 rfl
    cases later with
    | nil => simp [closing, clean]
    | cons next later =>
      rw [closing.eq_3 _ _ (by simp)]
      exact List.forall_mem_cons.2 ⟨clean, ih⟩

theorem words_clean
    (named : List.Forall₂ (fun note name => Pitch.name accidentals false note = .ok name)
      notes names) : ∀ word ∈ words names, ' ' ∉ word := by
  cases named with
  | nil => simp [words]
  | @cons note name notes names here later =>
    have clean : ' ' ∉ name.toList := fun blank => (Pitch.name_clean here _ blank).1 rfl
    cases later with
    | nil => simp [words, clean]
    | cons next later =>
      rw [words.eq_3 _ _ (by simp)]
      exact List.forall_mem_cons.2 ⟨by simp [clean], closing_clean (.cons next later)⟩

end Names

/-- A text falls into words that read as some groups, each behind a blank. -/
structure Spells (text : String) (groups : List NoteSet) (written : List (List Char)) : Prop where
  toList : text.toList = written.flatMap (' ' :: ·)
  clean : ∀ word ∈ written, ' ' ∉ word
  read : ∀ rest, readWords none (written ++ rest) = (readWords none rest).map (groups ++ ·)

theorem Spells.nil : Spells "" [] [] where
  toList := rfl
  clean := by simp
  read := by simp

theorem Spells.append {first second : String} {before after : List NoteSet}
    {left right : List (List Char)} (spells : Spells first before left)
    (later : Spells second after right) :
    Spells (first ++ second) (before ++ after) (left ++ right) where
  toList := by
    rw [String.toList_append, spells.toList, later.toList, List.flatMap_append]
  clean := by
    intro word member
    rcases List.mem_append.1 member with member | member
    · exact spells.clean word member
    · exact later.clean word member
  read := by
    intro rest
    rw [List.append_assoc, spells.read, later.read, Option.map_map]
    simp [Function.comp_def]

theorem Writable.spells {s : NoteSet} (writable : s.Writable) (accidentals : Accidentals) :
    ∃ text written, s.render accidentals false = .ok text ∧ Spells text [s] written := by
  obtain ⟨names, listed, named⟩ := exists_names accidentals false writable.written
  have filled : names ≠ [] := by
    rintro rfl
    exact writable.filled (List.forall₂_nil_right_iff.1 named)
  refine ⟨inscription names, words names, render_of_names listed, toList_inscription names,
    words_clean named, fun rest => ?_⟩
  rw [readWords_words named filled rest, ofList_notes]
  rfl

theorem append_flatMap_blank (word : List Char) (words : List (List Char)) :
    word ++ words.flatMap (' ' :: ·) = [' '].intercalate (word :: words) := by
  induction words generalizing word with
  | nil => simp
  | cons next rest ih =>
    rw [List.flatMap_cons, List.cons_append, ih, List.intercalate_cons_cons]
    simp

theorem Spells.readAll?_eq {text : String} {groups : List NoteSet} {written : List (List Char)}
    (spells : Spells text groups written) : readAll? text = some groups := by
  have joined : text.toList = [' '].intercalate ([] :: written) :=
    spells.toList.trans (append_flatMap_blank [] written)
  have clean : ∀ word ∈ [] :: written, ' ' ∉ word :=
    List.forall_mem_cons.2 ⟨by simp, spells.clean⟩
  have whole := spells.read []
  rw [List.append_nil] at whole
  rw [readAll?, joined, List.splitOn_intercalate ' ' clean (by simp), List.tail_cons, whole]
  simp [readWords]

def renderAll (performance : List (NoteSet × Accidentals)) : Except PitchError (List String) :=
  performance.mapM fun played => played.1.render played.2 false

theorem exists_renderAll {performance : List (NoteSet × Accidentals)}
    (writable : ∀ played ∈ performance, played.1.Writable) :
    ∃ texts written, renderAll performance = .ok texts ∧
      Spells (String.join texts) (performance.map Prod.fst) written := by
  induction performance with
  | nil => exact ⟨[], [], rfl, .nil⟩
  | cons played rest ih =>
    obtain ⟨text, written, rendered, spells⟩ :=
      (writable played (by simp)).spells played.2
    obtain ⟨texts, others, listed, later⟩ := ih fun p member => writable p (by simp [member])
    refine ⟨text :: texts, written ++ others, ?_, ?_⟩
    · unfold renderAll at listed ⊢
      rw [List.mapM_cons, rendered, listed]
      rfl
    · rw [String.join_cons]
      exact spells.append later

/-- Groups that were rendered one behind the other, with their octaves and each in either spelling,
    can be read back from the text, so that different groups never give the same text. -/
theorem rendered_groups_read_back {performance : List (NoteSet × Accidentals)}
    (writable : ∀ played ∈ performance, played.1.Writable) :
    ∃ texts, renderAll performance = .ok texts ∧
      readAll? (String.join texts) = some (performance.map Prod.fst) ∧
      ∀ other otherTexts, (∀ played ∈ other, played.1.Writable) →
        renderAll other = .ok otherTexts → String.join otherTexts = String.join texts →
        other.map Prod.fst = performance.map Prod.fst := by
  obtain ⟨texts, written, rendered, spells⟩ := exists_renderAll writable
  refine ⟨texts, rendered, spells.readAll?_eq, fun other otherTexts known listed same => ?_⟩
  obtain ⟨found, _, again, others⟩ := exists_renderAll known
  obtain rfl : found = otherTexts := Except.ok.inj (again.symm.trans listed)
  have one := others.readAll?_eq
  rw [same, spells.readAll?_eq] at one
  exact (Option.some.inj one).symm

/-- A chord, one note in both spellings, and a chord from the lowest note to the highest. -/
theorem mixed_spellings_read_back :
    let performance : List (NoteSet × Accidentals) := [(ofList [60, 64, 67], .sharps),
      (ofList [61], .flats), (ofList [61], .sharps), (ofList [12, 127], .flats)]
    let texts := [" <c\x27 e\x27 g\x27>", " des\x27", " cis\x27",
      " <c,,, g\x27\x27\x27\x27\x27\x27>"]
    (∀ played ∈ performance, played.1.Writable) ∧ renderAll performance = .ok texts ∧
      readAll? (String.join texts) = some (performance.map Prod.fst) := by
  intro performance texts
  have writable : ∀ played ∈ performance, played.1.Writable := by decide
  obtain ⟨found, rendered, read, _⟩ := rendered_groups_read_back writable
  have here : renderAll performance = .ok texts := by decide +kernel
  obtain rfl : found = texts := Except.ok.inj (rendered.symm.trans here)
  exact ⟨writable, here, read⟩

end NoteSet

end ScoreDesk
