import Mathlib
import ScoreDesk.Text.Line
import ScoreDesk.Text.Digit

namespace ScoreDesk.Text

theorem splitAt_eq_splitOn {α : Type} [DecidableEq α] (sep : α) (l : List α) :
    splitAt sep l = l.splitOn sep := by
  unfold List.splitOn
  induction l with
  | nil => rfl
  | cons c rest ih =>
    rw [splitAt, List.splitOnP_cons_eq_if_modifyHead, ih]
    by_cases here : c = sep
    · simp [here]
    · obtain ⟨piece, pieces, split⟩ :=
        List.exists_cons_of_ne_nil (List.splitOnP_ne_nil (· == sep) rest)
      simp [here, split]

section Pieces

variable {α : Type} [DecidableEq α] {sep : α}

theorem splitAt_ne_nil (sep : α) (l : List α) : splitAt sep l ≠ [] := by
  rw [splitAt_eq_splitOn]
  exact List.splitOnP_ne_nil _ _

theorem exists_pieces (sep : α) (l : List α) :
    ∃ before last, splitAt sep l = before ++ [last] :=
  ⟨_, _, (List.dropLast_append_getLast (splitAt_ne_nil sep l)).symm⟩

@[simp] theorem splitAt_sep (rest : List α) : splitAt sep (sep :: rest) = [] :: splitAt sep rest :=
  if_pos rfl

theorem splitAt_append {word rest piece : List α} {pieces : List (List α)} (clean : sep ∉ word)
    (split : splitAt sep rest = piece :: pieces) :
    splitAt sep (word ++ rest) = (word ++ piece) :: pieces := by
  induction word with
  | nil => exact split
  | cons c word ih =>
    have other : c ≠ sep := (List.ne_of_not_mem_cons clean).symm
    rw [List.cons_append, splitAt, if_neg other, ih (List.not_mem_of_not_mem_cons clean)]
    rfl

theorem not_mem_of_mem_splitAt {l piece : List α} (member : piece ∈ splitAt sep l) :
    sep ∉ piece := by
  induction l generalizing piece with
  | nil =>
    rw [List.mem_singleton.mp member]
    exact List.not_mem_nil
  | cons c rest ih =>
    by_cases here : c = sep
    · rw [here, splitAt_sep] at member
      rcases List.mem_cons.mp member with rfl | later
      · exact List.not_mem_nil
      · exact ih later
    · obtain ⟨first, pieces, split⟩ := List.exists_cons_of_ne_nil (splitAt_ne_nil sep rest)
      rw [splitAt, if_neg here, split] at member
      rcases List.mem_cons.mp member with rfl | later
      · have clean : sep ∉ first := ih (by rw [split]; exact List.mem_cons_self)
        simp [clean, Ne.symm here]
      · exact ih (by rw [split]; exact List.mem_cons_of_mem first later)

theorem splitAt_flatMap {lines : List (List α)} (clean : ∀ line ∈ lines, sep ∉ line) :
    splitAt sep (lines.flatMap (· ++ [sep])) = lines ++ [[]] := by
  induction lines with
  | nil => rfl
  | cons line rest ih =>
    obtain ⟨cleanHere, clean⟩ := List.forall_mem_cons.mp clean
    have ended : (line :: rest).flatMap (· ++ [sep]) =
        line ++ sep :: rest.flatMap (· ++ [sep]) := by
      simp
    rw [ended, splitAt_append cleanHere (splitAt_sep _), ih clean, List.append_nil,
      List.cons_append]

theorem lines_of_pieces {s last : List Char} {before : List (List Char)}
    (pieces : splitAt '\n' s = before ++ [last]) :
    lines s = before.map dropReturn ++ [last].filter fun last => !last.isEmpty := by
  simp [lines, pieces]

theorem mem_of_mem_dropReturn {c : Char} {line : List Char} (member : c ∈ dropReturn line) :
    c ∈ line := by
  unfold dropReturn at member
  split at member
  · exact List.mem_of_mem_dropLast member
  · exact member

theorem lineFeed_not_mem_lines {s line : List Char} (member : line ∈ lines s) : '\n' ∉ line := by
  obtain ⟨before, last, pieces⟩ := exists_pieces '\n' s
  have clean : ∀ piece ∈ before ++ [last], '\n' ∉ piece := fun piece inside =>
    not_mem_of_mem_splitAt (pieces ▸ inside)
  rw [lines_of_pieces pieces] at member
  rcases List.mem_append.mp member with ended | unended
  · obtain ⟨piece, inside, rfl⟩ := List.mem_map.mp ended
    exact fun feed => clean piece (List.mem_append_left _ inside) (mem_of_mem_dropReturn feed)
  · exact clean line (List.mem_append_right _ (List.mem_filter.mp unended).1)

end Pieces

section Stop

variable {α : Type} {p : α → Bool} {word : List α} {stop : α}

theorem takeWhile_until (inside : ∀ a ∈ word, p a = true) (outside : p stop = false)
    (rest : List α) : (word ++ stop :: rest).takeWhile p = word := by
  rw [List.takeWhile_append_of_pos inside, List.takeWhile_cons_of_neg (by simp [outside]),
    List.append_nil]

theorem dropWhile_until (inside : ∀ a ∈ word, p a = true) (outside : p stop = false)
    (rest : List α) : (word ++ stop :: rest).dropWhile p = stop :: rest := by
  rw [List.dropWhile_append_of_pos inside, List.dropWhile_cons_of_neg (by simp [outside])]

theorem stop_inj {word' rest rest' : List α} (inside : ∀ a ∈ word, p a = true)
    (inside' : ∀ a ∈ word', p a = true) (outside : p stop = false)
    (same : word ++ stop :: rest = word' ++ stop :: rest') : word = word' ∧ rest = rest' := by
  have words := congrArg (List.takeWhile p) same
  rw [takeWhile_until inside outside, takeWhile_until inside' outside] at words
  subst words
  exact ⟨rfl, List.cons.inj (List.append_cancel_left same) |>.2⟩

end Stop

section Blanks

variable {s : List Char} {c : Char}

theorem dropEndWhile_eq_rdropWhile (p : Char → Bool) (s : List Char) :
    dropEndWhile p s = s.rdropWhile p :=
  rfl

theorem trim_cons (blank : isBlank c = true) (s : List Char) : trim (c :: s) = trim s := by
  rw [trim, List.dropWhile_cons_of_pos blank, trim]

theorem length_trim_le (s : List Char) : (trim s).length ≤ s.length := by
  rw [trim, trimEnd, dropEndWhile_eq_rdropWhile]
  exact (List.rdropWhile_prefix _ _).length_le.trans (List.dropWhile_suffix _).length_le

theorem trim_of_visible (visible : ∀ c ∈ s, isBlank c = false) : trim s = s := by
  have first : s.dropWhile isBlank = s := by
    cases s with
    | nil => rfl
    | cons c rest => exact List.dropWhile_cons_of_neg (by simp [visible c List.mem_cons_self])
  rw [trim, first, trimEnd, dropEndWhile_eq_rdropWhile, List.rdropWhile_eq_self_iff]
  intro nonempty
  simp [visible _ (List.getLast_mem nonempty)]

theorem trimEnd_of_trim_eq (trimmed : trim s = s) : trimEnd s = s := by
  have suffix : s.dropWhile isBlank <:+ s := List.dropWhile_suffix _
  have kept : (trimEnd (s.dropWhile isBlank)).length ≤ (s.dropWhile isBlank).length := by
    rw [trimEnd, dropEndWhile_eq_rdropWhile]
    exact (List.rdropWhile_prefix _ _).length_le
  have whole : s.dropWhile isBlank = s := by
    refine suffix.eq_of_length_le ?_
    calc s.length = (trim s).length := by rw [trimmed]
      _ ≤ (s.dropWhile isBlank).length := kept
  rwa [trim, whole] at trimmed

theorem trim_append (visible : isBlank c = false) (word : List Char) (nonempty : s ≠ [])
    (trimmed : trim s = s) : trim (c :: word ++ s) = c :: word ++ s := by
  have last := trimEnd_of_trim_eq trimmed
  rw [trimEnd, dropEndWhile_eq_rdropWhile, List.rdropWhile_eq_self_iff] at last
  rw [trim, List.cons_append, List.dropWhile_cons_of_neg (by simp [visible]), trimEnd,
    dropEndWhile_eq_rdropWhile, List.rdropWhile_eq_self_iff]
  intro _
  rw [List.getLast_cons (by simp [nonempty]), List.getLast_append_of_ne_nil _ nonempty]
  exact last nonempty

end Blanks

theorem of_ascii {p : Char → Prop} (all : ∀ n : Fin 128, p (Char.ofNat n)) {c : Char}
    (ascii : c.toNat < 128) : p c := by
  have here := all ⟨c.toNat, ascii⟩
  rwa [Char.ofNat_toNat] at here

theorem isDigit_iff {c : Char} : c.isDigit = true ↔ 48 ≤ c.toNat ∧ c.toNat ≤ 57 := by
  simp [Char.isDigit, UInt32.le_iff_toNat_le]

theorem digitValue?_of_isDigit {c : Char} (digit : c.isDigit = true) :
    digitValue? c = some (c.toNat - '0'.toNat) :=
  if_pos digit

theorem le_ofDigitChars (digits : List Char) (n : Nat) : n ≤ Nat.ofDigitChars 10 digits n := by
  rw [Nat.ofDigitChars_eq_ofDigitChars_zero]
  have := Nat.le_mul_of_pos_left n (Nat.pow_pos (n := digits.length) (by decide : 0 < 10))
  omega

def addDigit (limit : Nat) (value : Option Nat) (c : Char) : Option Nat := do
  let n := (← value) * 10 + (← digitValue? c)
  if n < limit then some n else none

theorem foldl_addDigit_none (limit : Nat) (digits : List Char) :
    digits.foldl (addDigit limit) none = none := by
  induction digits with
  | nil => rfl
  | cons c rest ih => exact ih

theorem foldl_addDigit (limit : Nat) {digits : List Char} {v n : Nat} (below : v < limit) :
    digits.foldl (addDigit limit) (some v) = some n ↔
      (∀ c ∈ digits, c.isDigit = true) ∧ Nat.ofDigitChars 10 digits v = n ∧ n < limit := by
  induction digits generalizing v with
  | nil =>
    simp [Nat.ofDigitChars]
    rintro rfl
    exact below
  | cons c rest ih =>
    rw [List.foldl_cons, Nat.ofDigitChars_cons]
    by_cases digit : c.isDigit = true
    · have value : addDigit limit (some v) c =
          if 10 * v + (c.toNat - '0'.toNat) < limit then some (10 * v + (c.toNat - '0'.toNat))
          else none := by
        simp [addDigit, digitValue?_of_isDigit digit, Nat.mul_comm]
      rw [value]
      split
      · rename_i small
        rw [ih small]
        simp [digit]
      · rename_i large
        rw [foldl_addDigit_none]
        refine iff_of_false (by simp) fun ⟨_, same, small⟩ => large ?_
        have := le_ofDigitChars rest (10 * v + (c.toNat - '0'.toNat))
        omega
    · have none : addDigit limit (some v) c = none := by simp [addDigit, digitValue?, digit]
      rw [none, foldl_addDigit_none]
      exact iff_of_false (by simp) fun h => digit (h.1 c (by simp))

/-- A number below a limit is read from its ASCII digits, whatever zeros stand in front. -/
theorem natBelow?_eq_some_iff {limit n : Nat} {digits : List Char} (positive : 0 < limit)
    (nonempty : digits ≠ []) :
    natBelow? limit digits = some n ↔
      (∀ c ∈ digits, c.isDigit = true) ∧ Nat.ofDigitChars 10 digits 0 = n ∧ n < limit := by
  unfold natBelow?
  rw [if_neg (by simpa using nonempty)]
  exact foldl_addDigit limit positive

end ScoreDesk.Text
