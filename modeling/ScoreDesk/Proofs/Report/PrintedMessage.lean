import Mathlib
import ScoreDesk.Proofs.Report.StructuredGrammar
import ScoreDesk.Report.Grouped

namespace ScoreDesk

theorem Text.isDecimal_of_isDigit {c : Char} (digit : c.isDigit = true) : isDecimal c = true := by
  have bounds := isDigit_iff.mp digit
  exact inRuns_of_mem (List.mem_cons_self : (0x30, 0x39) ∈ decimalRuns) bounds.1 bounds.2

namespace Report

def Unbroken (s : List Char) : Prop :=
  '\n' ∉ s ∧ '\r' ∉ s

instance (s : List Char) : Decidable (Unbroken s) :=
  inferInstanceAs (Decidable (_ ∧ _))

@[simp] theorem unbroken_append {s t : List Char} :
    Unbroken (s ++ t) ↔ Unbroken s ∧ Unbroken t := by
  simp only [Unbroken, List.mem_append, not_or]
  tauto

@[simp] theorem unbroken_cons {c : Char} {s : List Char} :
    Unbroken (c :: s) ↔ (c ≠ '\n' ∧ c ≠ '\r') ∧ Unbroken s := by
  simp only [Unbroken, List.mem_cons, not_or, ne_comm]
  tauto

def IsNumber (digits : List Char) : Prop :=
  digits ≠ [] ∧ ∀ c ∈ digits, Text.isDecimal c = true

theorem isDigit_of_mem_toDigits {n : Nat} {c : Char} (member : c ∈ Nat.toDigits 10 n) :
    c.isDigit = true :=
  Nat.isDigit_of_mem_toDigits (by decide) (by decide) member

theorem isNumber_toDigits (n : Nat) : IsNumber (Nat.toDigits 10 n) :=
  ⟨Nat.toDigits_ne_nil, fun _ member => Text.isDecimal_of_isDigit (isDigit_of_mem_toDigits member)⟩

@[simp] theorem unbroken_toDigits (n : Nat) : Unbroken (Nat.toDigits 10 n) :=
  ⟨fun member => absurd (isDigit_of_mem_toDigits member) (by decide),
    fun member => absurd (isDigit_of_mem_toDigits member) (by decide)⟩

@[simp] theorem unbroken_word (severity : Severity) : Unbroken severity.word.toList := by
  cases severity <;> exact ⟨by decide, by decide⟩

/-- A message as the compiler has it: a place in a file, counted from 1, and what is wrong there. -/
structure Message where
  file : List Char
  line : Nat
  column : Nat
  severity : Severity
  text : List Char

namespace Message

def printed (m : Message) : List Char :=
  m.file ++ ':' :: Nat.toDigits 10 m.line ++ ':' :: Nat.toDigits 10 m.column ++
    ':' :: ' ' :: m.severity.word.toList ++ ':' :: ' ' :: m.text

def record (m : Message) : Record where
  file := .ofList m.file
  line := m.line - 1
  column := m.column - 1
  severity := m.severity
  message := .ofList m.text
  raw := .ofList m.printed

structure Printable (m : Message) : Prop where
  file_unbroken : Unbroken m.file
  text_unbroken : Unbroken m.text
  text_nonempty : m.text ≠ []
  line_fits : m.line ≤ 4294967295
  column_fits : m.column ≤ 4294967295

/-- The text holds a position of its own, with a severity and something said about it. -/
def QuotesRemark (m : Message) : Prop :=
  ∃ (quoted : List Char) (remark : Remark), m.text = quoted ++ remark.text ∧ remark.Proper

def remark (m : Message) : Remark :=
  ⟨Nat.toDigits 10 m.line, Nat.toDigits 10 m.column, m.severity, m.text⟩

theorem printed_eq (m : Message) : m.printed = m.file ++ m.remark.text := by
  simp [printed, Remark.text, remark]

theorem Printable.unbroken {m : Message} (printable : m.Printable) : Unbroken m.printed := by
  simp [printed, printable.file_unbroken, printable.text_unbroken]

theorem Printable.proper {m : Message} (printable : m.Printable) : m.remark.Proper where
  line_nonempty := (isNumber_toDigits m.line).1
  line_decimal := (isNumber_toDigits m.line).2
  column_nonempty := (isNumber_toDigits m.column).1
  column_decimal := (isNumber_toDigits m.column).2
  message_nonempty := printable.text_nonempty

end Message

theorem numbers_toDigits {n : Nat} (fits : n ≤ 4294967295) : Numbers (Nat.toDigits 10 n) n :=
  ⟨fun _ => isDigit_of_mem_toDigits, Nat.ofDigitChars_toDigits (by decide) (by decide), fits⟩

namespace Remark

def head (r : Remark) : List Char :=
  ':' :: r.line ++ ':' :: r.column ++ ':' :: ' ' :: r.severity.word.toList ++ [':', ' ']

theorem text_eq (r : Remark) : r.text = r.head ++ r.message := by
  simp [text, head]

theorem colon_not_mem_of_decimal {digits : List Char}
    (decimal : ∀ c ∈ digits, Text.isDecimal c = true) : ':' ∉ digits :=
  fun member => absurd (decimal ':' member) (by decide)

theorem colon_not_mem_word (severity : Severity) : ':' ∉ ' ' :: severity.word.toList := by
  cases severity <;> decide

theorem behind_word {word s between : List Char} {r : Remark} (clean : ':' ∉ word)
    (later : between ≠ []) (split : ':' :: word ++ s = between ++ r.text) :
    ∃ between', between = ':' :: word ++ between' ∧ s = between' ++ r.text := by
  rcases List.append_eq_append_iff.mp split with ⟨between', rfl, rest⟩ | ⟨inside, whole, rest⟩
  · exact ⟨between', rfl, rest⟩
  · cases inside with
    | nil => exact ⟨[], by simpa using whole.symm, by simpa using rest.symm⟩
    | cons c inside =>
      -- The colon of `r` would stand in the word.
      obtain ⟨rfl, -⟩ := List.cons.inj rest
      obtain ⟨d, before, rfl⟩ := List.exists_cons_of_ne_nil later
      refine absurd ?_ clean
      rw [(List.cons.inj whole).2]
      simp

theorem past_word {word s between : List Char} {r : Remark} (proper : r.Proper)
    (clean : ':' ∉ word) (none : remark? s = none) (later : between ≠ [])
    (split : ':' :: word ++ s = between ++ r.text) :
    ∃ past, past ≠ [] ∧ between = ':' :: word ++ past ∧ s = past ++ r.text := by
  obtain ⟨past, rfl, rest⟩ := behind_word clean later split
  refine ⟨past, ?_, rfl, rest⟩
  rintro rfl
  rw [rest, List.nil_append, remark?_eq_some_iff.mpr ⟨rfl, proper⟩] at none
  cases none

theorem remark?_colon_blank (s : List Char) : remark? (':' :: ' ' :: s) = none := rfl

theorem remark?_column {digits : List Char} (number : IsNumber digits) (s : List Char) :
    remark? (':' :: digits ++ ':' :: ' ' :: s) = none := by
  have taken : takeNumber? (digits ++ ':' :: ' ' :: s) = some (digits, ':' :: ' ' :: s) :=
    takeNumber?_until number.1 number.2 (by decide)
  simp only [remark?, List.cons_append, skip?_colon, taken, Option.bind_eq_bind, Option.bind_some]
  rfl

theorem in_message_of_later {r r' : Remark} (proper : r.Proper) (proper' : r'.Proper)
    {between : List Char} (later : between ≠ []) (split : r.text = between ++ r'.text) :
    ∃ quoted, between = r.head ++ quoted ∧ r.message = quoted ++ r'.text := by
  have atLine : ':' :: r.line ++ (':' :: r.column ++ (':' :: (' ' :: r.severity.word.toList) ++
      (':' :: [' '] ++ r.message))) = between ++ r'.text := by
    simpa [text] using split
  obtain ⟨_, pastLine, rfl, atColumn⟩ :=
    past_word proper' (colon_not_mem_of_decimal proper.line_decimal)
      (remark?_column ⟨proper.column_nonempty, proper.column_decimal⟩ _) later atLine
  obtain ⟨_, pastColumn, rfl, atSeverity⟩ :=
    past_word proper' (colon_not_mem_of_decimal proper.column_decimal) (remark?_colon_blank _)
      pastLine atColumn
  obtain ⟨_, pastSeverity, rfl, atMessage⟩ :=
    past_word proper' (colon_not_mem_word r.severity) (remark?_colon_blank _) pastColumn atSeverity
  obtain ⟨quoted, rfl, inMessage⟩ := behind_word (by decide : ':' ∉ [' ']) pastSeverity atMessage
  exact ⟨quoted, by simp [head], inMessage⟩

end Remark

namespace Message

variable {m : Message}

/-- The file name is the longest one that a reader can find, where the text quotes no remark. -/
theorem Printable.readsLongest (printable : m.Printable) (named : m.file ≠ [])
    (plain : ¬ m.QuotesRemark) : ReadsLongest m.printed m.file m.remark := by
  refine ⟨⟨m.printed_eq, printable.proper, named⟩, fun file' remark' reads => ?_⟩
  have split : m.file ++ m.remark.text = file' ++ remark'.text :=
    m.printed_eq.symm.trans reads.text
  rcases List.append_eq_append_iff.mp split with ⟨between, rfl, rest⟩ | ⟨shorter, same, -⟩
  · by_cases later : between = []
    · simp [later]
    · obtain ⟨quoted, -, inText⟩ :=
        Remark.in_message_of_later printable.proper reads.proper later rest
      exact absurd ⟨quoted, remark', inText, reads.proper⟩ plain
  · rw [same, List.length_append]
    omega

theorem not_quotesRemark_of_readsLongest {remark : Remark}
    (longest : ReadsLongest m.printed m.file remark) : ¬ m.QuotesRemark := by
  rintro ⟨quoted, inner, inText, proper⟩
  have reads : Reads m.printed (m.file ++ m.remark.head ++ quoted) inner :=
    ⟨by rw [printed_eq, Remark.text_eq, show m.remark.message = m.text from rfl, inText]; simp,
      proper, by simp [Remark.head]⟩
  have longer := longest.2 _ _ reads
  simp [Remark.head] at longer

theorem Printable.cut (printable : m.Printable) {line : List Char}
    (ended : line = m.printed ∨ line = m.printed ++ ['\r']) :
    line.takeWhile (· != '\r') = m.printed := by
  have inside : ∀ c ∈ m.printed, (c != '\r') = true := by
    intro c member
    rw [bne_iff_ne]
    rintro rfl
    exact printable.unbroken.2 member
  rcases ended with rfl | rfl
  · exact List.takeWhile_eq_self_iff.mpr inside
  · exact Text.takeWhile_until inside (by decide) []

end Message

theorem Yields.of_record {line : List Char} {r : Record} (yields : Yields line (.ok r)) :
    ∃ file remark, r.file = .ofList file ∧ ReadsLongest (cutLine line) file remark := by
  cases yields with
  | record reads => exact ⟨_, _, rfl, reads⟩

theorem structuredEntries_append (before after : List Char) :
    structuredEntries (before ++ '\n' :: after) =
      structuredEntries before ++ structuredEntries after := by
  simp only [structuredEntries, Text.splitAt_eq_splitOn, List.splitOn]
  rw [List.splitOnP_append_cons _ _ (by simp), List.filterMap_append]

theorem structuredEntries_joinLines (texts : List (List Char)) (nonempty : texts ≠ []) :
    structuredEntries (Text.joinLines texts) = texts.flatMap structuredEntries := by
  induction texts with
  | nil => exact absurd rfl nonempty
  | cons first rest ih =>
    cases rest with
    | nil => simp [Text.joinLines]
    | cons second rest =>
      have joined : Text.joinLines (first :: second :: rest) =
          first ++ '\n' :: Text.joinLines (second :: rest) := by
        simp [Text.joinLines, List.intercalate]
      rw [joined, structuredEntries_append, ih (List.cons_ne_nil _ _)]
      rfl

theorem structuredEntries_eq_singleton_iff {line : List Char} (one : '\n' ∉ line) {entry : Entry} :
    structuredEntries line = [entry] ↔ structuredEntry? line = some entry := by
  rw [structuredEntries, Text.splitAt_eq_splitOn, List.splitOn_eq_singleton one]
  cases yielded : structuredEntry? line <;> simp [yielded]

/-- Among whatever other lines, and with either line ending, a message is read back from its line
    exactly if it names a file and its text quotes no other message with its position; the lines
    around it yield what they yield without it. -/
theorem printed_message_read_back_iff {m : Message} (printable : m.Printable) {line : List Char}
    (ended : line = m.printed ∨ line = m.printed ++ ['\r']) (before after : List (List Char)) :
    readStructured (.ofList (Text.joinLines (before ++ line :: after))) =
      .ofEntries (before.flatMap structuredEntries ++ structuredEntries line ++
        after.flatMap structuredEntries) ∧
    (structuredEntries line = [.ok m.record] ↔ m.file ≠ [] ∧ ¬ m.QuotesRemark) := by
  have cut := printable.cut ended
  have one : '\n' ∉ line := by
    have unbroken := printable.unbroken.1
    rcases ended with rfl | rfl <;> simpa using unbroken
  constructor
  · rw [readStructured, String.toList_ofList, structuredEntries_joinLines _ (by simp),
      List.flatMap_append, List.flatMap_cons, List.append_assoc]
  · rw [structuredEntries_eq_singleton_iff one, structuredEntry?_eq_some_iff]
    constructor
    · intro yields
      obtain ⟨file, remark, same, longest⟩ := yields.of_record
      obtain rfl : m.file = file := String.ofList_injective same
      rw [cutLine, cut] at longest
      exact ⟨longest.1.named, Message.not_quotesRemark_of_readsLongest longest⟩
    · rintro ⟨named, plain⟩
      have longest := printable.readsLongest named plain
      rw [← cut] at longest
      have yields := Yields.record longest (numbers_toDigits printable.line_fits)
        (numbers_toDigits printable.column_fits)
      rwa [cut] at yields

theorem message_among_numbers_read_back :
    let m : Message :=
      ⟨"lib:2/a.ly".toList, 4294967295, 1, .warning, "see 3:4: error: odd".toList⟩
    let output := "1:2: Parsing...\nlib:2/a.ly:4294967295:1: warning: see 3:4: error: odd\r\n  ^"
    m.Printable ∧ m.file ≠ [] ∧ ¬ m.QuotesRemark ∧ readStructured output = ⟨[m.record], []⟩ := by
  intro m output
  have printable : m.Printable :=
    ⟨by decide, by decide, by decide, by decide, by decide⟩
  obtain ⟨reading, read_back⟩ := printed_message_read_back_iff printable (.inr rfl)
    ["1:2: Parsing...".toList] ["  ^".toList]
  have found : structuredEntries (m.printed ++ ['\r']) = [.ok m.record] := by decide +kernel
  obtain ⟨named, plain⟩ := read_back.mp found
  have lines : output = .ofList (Text.joinLines (["1:2: Parsing...".toList] ++
      (m.printed ++ ['\r']) :: ["  ^".toList])) := by
    decide +kernel
  refine ⟨printable, named, plain, ?_⟩
  rw [lines, reading, found]
  decide +kernel

/-- The message tells of a place in another file, and that place is taken for its own; the reader of
    groups does not do so. -/
theorem quoted_place_taken_for_own :
    let m : Message := ⟨"a.ly".toList, 1, 2, .error, "see b.ly:3:4: warning: bad".toList⟩
    m.Printable ∧ ':' ∉ m.file ∧
      readStructured "a.ly:1:2: error: see b.ly:3:4: warning: bad\n" =
        ⟨[⟨"a.ly:1:2: error: see b.ly", 2, 3, .warning, "bad", .ofList m.printed⟩], []⟩ ∧
      structuredEntries m.printed ≠ [.ok m.record] ∧
      readGrouped "a.ly:1:2: error: see b.ly:3:4: warning: bad\n" = ⟨[m.record], []⟩ := by
  intro m
  refine ⟨⟨by decide, by decide, by decide, by decide, by decide⟩, by decide, ?_, ?_, ?_⟩
  · decide +kernel
  · decide +kernel
  · decide +kernel

end Report

end ScoreDesk
