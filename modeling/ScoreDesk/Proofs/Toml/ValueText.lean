import Mathlib
import ScoreDesk.Proofs.Text.Scan
import ScoreDesk.Proofs.Toml.QuotedText
import ScoreDesk.Toml.Document

namespace ScoreDesk.Toml

namespace Lexeme

theorem head?_toDigits {n : Nat} (positive : 0 < n) : (Nat.toDigits 10 n).head? ≠ some '0' := by
  induction n using Nat.strongRecOn with
  | ind n ih =>
    by_cases small : n < 10
    · rw [Nat.toDigits_of_lt_base small]
      have all : ∀ m : Fin 10, 0 < m.val → Nat.digitChar m ≠ '0' := by decide
      simpa using all ⟨n, small⟩ positive
    · have tens := ih (n / 10) (by omega) (by omega)
      rw [Nat.toDigits_of_base_le (by decide) (by omega),
        List.head?_append_of_ne_nil _ Nat.toDigits_ne_nil]
      exact tens

theorem digits?_of_digits {isDigit : Char → Bool} {digits : List Char} (nonempty : digits ≠ [])
    (all : ∀ c ∈ digits, isDigit c = true) (underscore : isDigit '_' = false) :
    digits? isDigit digits = some digits := by
  induction digits with
  | nil => exact absurd rfl nonempty
  | cons c rest ih =>
    cases rest with
    | nil => simp [digits?, all c (by simp)]
    | cons d more =>
      have apart (behind : List Char) : d :: more ≠ '_' :: behind := by
        intro same
        have digit := all d (by simp)
        rw [(List.cons.inj same).1, underscore] at digit
        cases digit
      rw [digits?.eq_4 _ _ _ (by simp) apart, if_pos (all c (by simp)),
        ih (by simp) fun e member => all e (by simp [member])]
      rfl

abbrev AllDigits (s : List Char) : Prop :=
  ∀ c ∈ s, c.isDigit = true

theorem natOf_of_digits {digits : List Char} (all : AllDigits digits) :
    natOf 10 digits = Nat.ofDigitChars 10 digits 0 := by
  have from_value (value : Nat) : digits.foldl (fun n c => n * 10 + (Text.hexValue? c).getD 0) value
      = Nat.ofDigitChars 10 digits value := by
    induction digits generalizing value with
    | nil => rfl
    | cons c rest ih =>
      have digit : Text.hexValue? c = some (c.toNat - '0'.toNat) := if_pos (all c (by simp))
      rw [List.foldl_cons, digit, Option.getD_some, Nat.mul_comm value 10, Nat.ofDigitChars_cons]
      exact ih (fun d member => all d (by simp [member])) _
  exact from_value 0

theorem not_mem_of_digits {digits : List Char} (all : AllDigits digits) {c : Char}
    (other : c.isDigit = false) : c ∉ digits :=
  fun member => Bool.false_ne_true (other.symm.trans (all c member))

theorem skipChar?_of_digits {digits : List Char} (all : AllDigits digits) {c : Char}
    (other : c.isDigit = false) : skipChar? c digits = none := by
  cases digits with
  | nil => rfl
  | cons d rest =>
    refine if_neg fun same => not_mem_of_digits all other ?_
    rw [same]
    exact List.mem_cons_self

theorem splitSign_of_digits {digits : List Char} (all : AllDigits digits) :
    splitSign digits = (false, digits) := by
  refine splitSign.eq_3 digits ?_ ?_
  · rintro rest rfl
    exact not_mem_of_digits all (c := '+') (by decide) List.mem_cons_self
  · rintro rest rfl
    exact not_mem_of_digits all (c := '-') (by decide) List.mem_cons_self

theorem allDigits_toDigits (n : Nat) : AllDigits (Nat.toDigits 10 n) :=
  fun _ member => Nat.isDigit_of_mem_toDigits (by decide) (by decide) member

theorem integer?_toDigits {n : Nat} (fits : n < 2 ^ 63) :
    integer? (Nat.toDigits 10 n) = some (n : Int) := by
  have all := allDigits_toDigits n
  have second {c : Char} (other : c.isDigit = false) (rest : List Char) :
      Nat.toDigits 10 n ≠ '0' :: c :: rest :=
    fun same => not_mem_of_digits all other (by simp [same])
  have plain : decimal? (Nat.toDigits 10 n) = some (Nat.toDigits 10 n) := by
    unfold decimal?
    rw [digits?_of_digits Nat.toDigits_ne_nil all (by decide)]
    rcases Nat.eq_zero_or_pos n with rfl | positive
    · decide
    · simp [head?_toDigits positive]
  have value : natOf 10 (Nat.toDigits 10 n) = n := by
    rw [natOf_of_digits all, Nat.ofDigitChars_toDigits (by decide) (by decide)]
  have low : -integerLimit ≤ (n : Int) := by unfold integerLimit; omega
  have high : (n : Int) < integerLimit := by unfold integerLimit; omega
  rw [integer?.eq_4 _ (second (by decide)) (second (by decide)) (second (by decide)),
    splitSign_of_digits all]
  dsimp only
  -- In small steps: with the limit open, Lean would compute with it.
  rw [plain, Option.bind_eq_bind, Option.bind_some, value]
  exact if_pos (And.intro low high)

end Lexeme

namespace Time

open Lexeme

theorem field?_rest {width low high n : Nat} {s rest : List Char}
    (found : field? width low high s = some (n, rest)) : rest = s.drop width := by
  unfold field? at found
  dsimp only at found
  split at found
  · split at found
    · cases found
      rfl
    · cases found
  · cases found

theorem allDigits_behind {width low high n : Nat} {digits rest : List Char}
    (all : AllDigits digits) (found : field? width low high digits = some (n, rest)) :
    AllDigits rest := by
  intro c member
  rw [field?_rest found] at member
  exact all c (List.mem_of_mem_drop member)

theorem date?_of_digits {digits : List Char} (all : AllDigits digits) : date? digits = none := by
  unfold date?
  cases year : field? 4 0 9999 digits with
  | none => rfl
  | some found =>
    have noDash := skipChar?_of_digits (allDigits_behind all year) (c := '-') (by decide)
    simp [noDash]

theorem clock?_of_digits (limits : Limits) {digits : List Char} (all : AllDigits digits) :
    clock? limits digits = none := by
  unfold clock?
  cases hour : field? 2 0 limits.hour digits with
  | none => rfl
  | some found =>
    have noColon := skipChar?_of_digits (allDigits_behind all hour) (c := ':') (by decide)
    simp [noColon]

theorem ofLexeme?_of_digits {digits : List Char} (all : AllDigits digits) :
    ofLexeme? digits = none := by
  unfold ofLexeme?
  rw [date?_of_digits all, clock?_of_digits .plain all]
  rfl

end Time

namespace Reader

open Lexeme
open Quoted (quote apostrophe)

structure ReadsValue (text : List Char) (value : Value) : Prop where
  begins : ∀ rest, skipWhite (text ++ rest) = text ++ rest
  read : ∀ fuel depth rest,
    value? (fuel + 1) depth (text ++ '\n' :: rest) = some (value, '\n' :: rest)

theorem skipWhite_cons {c : Char} (ink : isWhite c = false) (rest : List Char) :
    skipWhite (c :: rest) = c :: rest :=
  List.dropWhile_cons_of_neg (by simp [ink])

theorem encode_head (form : QuoteForm) (s : List Char) :
    ∃ rest, Quoted.encode form s = quote :: rest ∨ Quoted.encode form s = apostrophe :: rest := by
  unfold Quoted.encode
  cases form with
  | basic => exact ⟨_, .inl rfl⟩
  | literal => exact ⟨_, .inr rfl⟩
  | multiBasic => exact ⟨_, .inl rfl⟩
  | multiLiteral => exact ⟨_, .inr rfl⟩

theorem encode_readsValue {form : QuoteForm} {s : List Char} (admits : Quoted.Admits form s) :
    ReadsValue (Quoted.encode form s) (.text (.ofList s)) := by
  have text (rest : List Char) : text? (Quoted.encode form s ++ '\n' :: rest) =
      some (s, '\n' :: rest) := text?_encode admits (by rintro c ⟨⟩; decide)
  obtain ⟨tail, head | head⟩ := encode_head form s
  · rw [head] at text ⊢
    exact ⟨fun _ => skipWhite_cons (by decide) _, fun fuel depth rest =>
      (value?.eq_2 ..).trans (congrArg (Option.map _) (text rest))⟩
  · rw [head] at text ⊢
    exact ⟨fun _ => skipWhite_cons (by decide) _, fun fuel depth rest =>
      (value?.eq_3 ..).trans (congrArg (Option.map _) (text rest))⟩

def isBare (c : Char) : Bool :=
  c.isDigit || c.isLower

theorem lt_of_isBare {c : Char} (bare : isBare c = true) : c.toNat < 128 := by
  simp only [isBare, Bool.or_eq_true, Char.isDigit, Char.isLower, Bool.and_eq_true,
    decide_eq_true_eq, UInt32.le_iff_toNat_le] at bare
  rcases bare with ⟨_, high⟩ | ⟨_, high⟩
  · exact Nat.lt_of_le_of_lt high (by decide)
  · exact Nat.lt_of_le_of_lt high (by decide)

theorem isBare_spec {c : Char} (bare : isBare c = true) :
    endsBare c = false ∧ isWhite c = false ∧ c ≠ '\x22' ∧ c ≠ '\x27' ∧ c ≠ '[' ∧ c ≠ '\x7b' := by
  refine Text.of_ascii (p := fun c => isBare c = true → endsBare c = false ∧ isWhite c = false ∧
    c ≠ '\x22' ∧ c ≠ '\x27' ∧ c ≠ '[' ∧ c ≠ '\x7b') ?_ (lt_of_isBare bare) bare
  decide

theorem readsValue_of_bare {lexeme : List Char} {value : Value} (nonempty : lexeme ≠ [])
    (bare : ∀ c ∈ lexeme, isBare c = true)
    (read : ∀ rest, bare? (lexeme ++ '\n' :: rest) = some (value, '\n' :: rest)) :
    ReadsValue lexeme value := by
  obtain ⟨c, more, rfl⟩ := List.exists_cons_of_ne_nil nonempty
  obtain ⟨_, ink, notQuote, notApostrophe, notBracket, notBrace⟩ := isBare_spec (bare c (by simp))
  refine ⟨fun rest => skipWhite_cons ink _, fun fuel depth rest => ?_⟩
  rw [← read rest]
  exact value?.eq_6 _ _ _ (fun _ same => notQuote (List.cons.inj same).1)
    (fun _ same => notApostrophe (List.cons.inj same).1)
    (fun _ same => notBracket (List.cons.inj same).1)
    (fun _ same => notBrace (List.cons.inj same).1)

theorem lexeme_until {lexeme : List Char} (bare : ∀ c ∈ lexeme, isBare c = true)
    (rest : List Char) :
    (lexeme ++ '\n' :: rest).takeWhile (!endsBare ·) = lexeme ∧
      (lexeme ++ '\n' :: rest).dropWhile (!endsBare ·) = '\n' :: rest := by
  have inside : ∀ c ∈ lexeme, (!endsBare c) = true := fun c member => by
    rw [(isBare_spec (bare c member)).1]
    rfl
  exact ⟨Text.takeWhile_until inside (by decide) rest, Text.dropWhile_until inside (by decide) rest⟩

theorem toList_true : "true".toList = ['t', 'r', 'u', 'e'] := by rfl

theorem toList_false : "false".toList = ['f', 'a', 'l', 's', 'e'] := by rfl

theorem flag_readsValue (b : Bool) :
    ReadsValue (if b then "true" else "false").toList (.flag b) := by
  cases b with
  | false =>
    rw [if_neg Bool.false_ne_true, toList_false]
    have bare : ∀ c ∈ ['f', 'a', 'l', 's', 'e'], isBare c = true := List.all_eq_true.mp (by decide)
    refine readsValue_of_bare (by decide) bare fun rest => ?_
    obtain ⟨taken, left⟩ := lexeme_until bare rest
    unfold bare?
    dsimp only
    rw [taken, left, toList_true, toList_false, if_neg (by decide), if_pos rfl]
  | true =>
    rw [if_pos rfl, toList_true]
    have bare : ∀ c ∈ ['t', 'r', 'u', 'e'], isBare c = true := List.all_eq_true.mp (by decide)
    refine readsValue_of_bare (by decide) bare fun rest => ?_
    obtain ⟨taken, left⟩ := lexeme_until bare rest
    unfold bare?
    dsimp only
    rw [taken, left, toList_true, if_pos rfl]

theorem natural_readsValue {n : Nat} (fits : n < 2 ^ 63) :
    ReadsValue (toString n).toList (.integer n) := by
  have digits : (toString n).toList = Nat.toDigits 10 n := Nat.toList_repr
  have all := allDigits_toDigits n
  have bare : ∀ c ∈ Nat.toDigits 10 n, isBare c = true := fun c member => by
    simp [isBare, all c member]
  have noWord {c : Char} {word : List Char} (letter : c.isDigit = false) :
      Nat.toDigits 10 n ≠ c :: word :=
    fun same => not_mem_of_digits all letter (by simp [same])
  rw [digits]
  refine readsValue_of_bare Nat.toDigits_ne_nil bare fun rest => ?_
  obtain ⟨taken, left⟩ := lexeme_until bare rest
  unfold bare?
  dsimp only
  rw [taken, left, toList_true, toList_false, if_neg (noWord (by decide)),
    if_neg (noWord (by decide)), Time.date?_of_digits all]
  dsimp only
  rw [Time.ofLexeme?_of_digits all, integer?_toDigits fits]

end Reader

end ScoreDesk.Toml
