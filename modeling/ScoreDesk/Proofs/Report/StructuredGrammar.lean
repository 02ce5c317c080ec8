import Mathlib
import ScoreDesk.Proofs.Text.Scan
import ScoreDesk.Report.Structured

namespace ScoreDesk.Report

theorem skip?_eq_some_iff {word s rest : List Char} :
    skip? word s = some rest ↔ s = word ++ rest := by
  unfold skip?
  rw [Option.ite_none_right_eq_some, List.isPrefixOf_iff_prefix]
  constructor
  · rintro ⟨⟨behind, rfl⟩, same⟩
    rw [List.drop_left] at same
    rw [Option.some.inj same]
  · rintro rfl
    exact ⟨List.prefix_append word rest, by rw [List.drop_left]⟩

theorem skip?_colon (s : List Char) : skip? [':'] (':' :: s) = some s :=
  skip?_eq_some_iff.mpr rfl

theorem severityTag?_eq_some_iff {s rest : List Char} {severity : Severity} :
    severityTag? s = some (severity, rest) ↔ s = severity.word.toList ++ rest := by
  have tagged (tag : Severity) :
      skip? tag.word.toList s = some rest ↔ s = tag.word.toList ++ rest :=
    skip?_eq_some_iff
  unfold severityTag?
  cases error : skip? "error".toList s with
  | some behind =>
    have split := skip?_eq_some_iff.1 error
    cases severity with
    | error =>
      rw [split]
      simp [Severity.word]
    | warning =>
      rw [split]
      simp [Severity.word]
  | none =>
    cases severity with
    | error =>
      refine iff_of_false (by simp) fun same => ?_
      have found := (tagged .error).2 same
      exact absurd (error.symm.trans found) (by simp)
    | warning => simpa [Severity.word] using tagged .warning

theorem takeNumber?_until {digits : List Char} {stop : Char} {rest : List Char}
    (nonempty : digits ≠ []) (decimal : ∀ c ∈ digits, Text.isDecimal c = true)
    (outside : Text.isDecimal stop = false) :
    takeNumber? (digits ++ stop :: rest) = some (digits, stop :: rest) := by
  unfold takeNumber?
  rw [Text.takeWhile_until decimal outside, Text.dropWhile_until decimal outside]
  cases digits with
  | nil => exact absurd rfl nonempty
  | cons c more => rfl

theorem of_takeNumber? {s digits rest : List Char} (taken : takeNumber? s = some (digits, rest)) :
    s = digits ++ rest ∧ digits ≠ [] ∧ ∀ c ∈ digits, Text.isDecimal c = true := by
  unfold takeNumber? at taken
  split at taken
  · cases taken
  · rename_i empty
    cases taken
    exact ⟨List.takeWhile_append_dropWhile.symm, empty, fun c member =>
      List.mem_takeWhile_imp member⟩

namespace Remark

def text (r : Remark) : List Char :=
  ':' :: r.line ++ ':' :: r.column ++ ':' :: ' ' :: r.severity.word.toList ++
    ':' :: ' ' :: r.message

/-- A line and a column number of decimal digits, and a message that says something. -/
structure Proper (r : Remark) : Prop where
  line_nonempty : r.line ≠ []
  line_decimal : ∀ c ∈ r.line, Text.isDecimal c = true
  column_nonempty : r.column ≠ []
  column_decimal : ∀ c ∈ r.column, Text.isDecimal c = true
  message_nonempty : r.message ≠ []

end Remark

theorem remark?_eq_some_iff {s : List Char} {r : Remark} :
    remark? s = some r ↔ s = r.text ∧ r.Proper := by
  unfold remark?
  simp only [Option.bind_eq_bind, Option.bind_eq_some_iff, skip?_eq_some_iff]
  constructor
  · rintro ⟨_, rfl, ⟨line, _⟩, line_taken, _, rfl, ⟨column, _⟩, column_taken, _, rfl,
      ⟨severity, _⟩, tag, message, rfl, said⟩
    obtain ⟨rfl, line_nonempty, line_decimal⟩ := of_takeNumber? line_taken
    obtain ⟨rfl, column_nonempty, column_decimal⟩ := of_takeNumber? column_taken
    rw [severityTag?_eq_some_iff] at tag
    split at said
    · cases said
    · rename_i nonempty
      cases said
      refine ⟨by simp [Remark.text, tag], line_nonempty, line_decimal, column_nonempty,
        column_decimal, by simpa using nonempty⟩
  · rintro ⟨rfl, proper⟩
    have colon : Text.isDecimal ':' = false := by decide
    refine ⟨_, by simp only [Remark.text, List.append_assoc, List.cons_append]; rfl, (r.line, _),
      takeNumber?_until proper.line_nonempty proper.line_decimal colon, _, rfl, (r.column, _),
      takeNumber?_until proper.column_nonempty proper.column_decimal colon, _, rfl,
      (r.severity, _), severityTag?_eq_some_iff.2 rfl, r.message, rfl, ?_⟩
    simp [proper.message_nonempty]

/-- A way to read a line as a message about a file. -/
structure Reads (raw file : List Char) (remark : Remark) : Prop where
  text : raw = file ++ remark.text
  proper : remark.Proper
  named : file ≠ []

def ReadsLongest (raw file : List Char) (remark : Remark) : Prop :=
  Reads raw file remark ∧ ∀ file' remark', Reads raw file' remark' → file'.length ≤ file.length

theorem Reads.tail {c : Char} {rest file : List Char} {remark : Remark}
    (reads : Reads (c :: rest) (c :: file) remark) (more : file ≠ []) : Reads rest file remark :=
  ⟨(List.cons.inj reads.text).2, reads.proper, more⟩

theorem Reads.cons {rest file : List Char} {remark : Remark} (reads : Reads rest file remark)
    (c : Char) : Reads (c :: rest) (c :: file) remark :=
  ⟨congrArg (c :: ·) reads.text, reads.proper, List.cons_ne_nil c file⟩

theorem reads_singleton_iff {c : Char} {rest : List Char} {remark : Remark} :
    Reads (c :: rest) [c] remark ↔ remark? rest = some remark := by
  rw [remark?_eq_some_iff]
  constructor
  · exact fun reads => ⟨(List.cons.inj reads.text).2, reads.proper⟩
  · exact fun ⟨text, proper⟩ => ⟨congrArg (c :: ·) text, proper, List.cons_ne_nil c []⟩

theorem Reads.head_eq {c : Char} {rest file : List Char} {remark : Remark}
    (reads : Reads (c :: rest) file remark) : ∃ behind, file = c :: behind := by
  cases file with
  | nil => exact absurd rfl reads.named
  | cons d behind => exact ⟨behind, by rw [(List.cons.inj reads.text).1]⟩

theorem ReadsLongest.cons {rest file : List Char} {remark : Remark}
    (longest : ReadsLongest rest file remark) (c : Char) :
    ReadsLongest (c :: rest) (c :: file) remark := by
  refine ⟨longest.1.cons c, fun file' remark' reads => ?_⟩
  obtain ⟨behind, rfl⟩ := reads.head_eq
  by_cases more : behind = []
  · simp [more]
  · exact Nat.succ_le_succ (longest.2 behind remark' (reads.tail more))

theorem ReadsLongest.unique {raw file file' : List Char} {remark remark' : Remark}
    (longest : ReadsLongest raw file remark) (longest' : ReadsLongest raw file' remark') :
    file = file' ∧ remark = remark' := by
  have length : file.length = file'.length :=
    Nat.le_antisymm (longest'.2 _ _ longest.1) (longest.2 _ _ longest'.1)
  have texts : file ++ remark.text = file' ++ remark'.text :=
    longest.1.text.symm.trans longest'.1.text
  obtain ⟨same, behind⟩ := List.append_inj texts length
  have read := remark?_eq_some_iff.2 ⟨rfl, longest.1.proper⟩
  have read' := remark?_eq_some_iff.2 ⟨rfl, longest'.1.proper⟩
  rw [behind, read'] at read
  exact ⟨same, (Option.some.inj read).symm⟩

theorem splitRemark?_spec (raw : List Char) :
    (∃ file remark, splitRemark? raw = some (file, remark) ∧ ReadsLongest raw file remark) ∨
      splitRemark? raw = none ∧ ∀ file remark, ¬ Reads raw file remark := by
  induction raw with
  | nil =>
    refine .inr ⟨rfl, fun file remark reads => reads.named ?_⟩
    exact (List.append_eq_nil_iff.1 reads.text.symm).1
  | cons c rest ih =>
    -- A file name of one character counts only where no longer one reads.
    rcases ih with ⟨file, remark, found, longest⟩ | ⟨missing, none⟩
    · exact .inl ⟨c :: file, remark, by simp [splitRemark?, found], longest.cons c⟩
    · have short {file : List Char} {remark : Remark} (reads : Reads (c :: rest) file remark) :
          file = [c] := by
        obtain ⟨behind, rfl⟩ := reads.head_eq
        by_contra more
        exact none behind remark (reads.tail (by simpa using more))
      cases here : remark? rest with
      | some remark =>
        refine .inl ⟨[c], remark, by simp [splitRemark?, missing, here],
          reads_singleton_iff.2 here, fun file' remark' reads => ?_⟩
        rw [short reads]
      | none =>
        refine .inr ⟨by simp [splitRemark?, missing, here], fun file remark reads => ?_⟩
        obtain rfl := short reads
        rw [reads_singleton_iff, here] at reads
        cases reads

def Numbers (digits : List Char) (n : Nat) : Prop :=
  (∀ c ∈ digits, c.isDigit = true) ∧ Nat.ofDigitChars 10 digits 0 = n ∧ n ≤ 4294967295

theorem position_eq_some_iff {digits : List Char} {n : Nat} (nonempty : digits ≠ []) :
    Text.natBelow? positionLimit digits = some n ↔ Numbers digits n := by
  rw [Text.natBelow?_eq_some_iff (by decide) nonempty]
  exact and_congr_right fun _ => and_congr_right fun _ => Nat.lt_succ_iff

theorem position_eq_none_iff {digits : List Char} (nonempty : digits ≠ []) :
    Text.natBelow? positionLimit digits = none ↔ ¬ ∃ n, Numbers digits n := by
  simp [Option.eq_none_iff_forall_ne_some, position_eq_some_iff nonempty]

/-- The entry that a line yields: the way to read it whose file name is the longest decides, also
    when its position is out of range. -/
inductive Yields (line : List Char) : Entry → Prop
  | record {file : List Char} {remark : Remark} {l c : Nat}
      (reads : ReadsLongest (line.takeWhile (· != '\r')) file remark)
      (line_number : Numbers remark.line l) (column_number : Numbers remark.column c) :
      Yields line (.ok {
        file := .ofList file
        line := l - 1
        column := c - 1
        severity := remark.severity
        message := .ofList remark.message
        raw := .ofList (line.takeWhile (· != '\r')) })
  | outOfRange {file : List Char} {remark : Remark}
      (reads : ReadsLongest (line.takeWhile (· != '\r')) file remark)
      (out : ¬ ((∃ l, Numbers remark.line l) ∧ ∃ c, Numbers remark.column c)) :
      Yields line (.error (.malformedGroup (.ofList (line.takeWhile (· != '\r')))
        .positionOutOfRange))

def entryOf (raw file : List Char) (remark : Remark) : Entry :=
  match Text.natBelow? positionLimit remark.line, Text.natBelow? positionLimit remark.column with
  | some l, some c =>
    .ok (.ofReported (.ofList file) l c remark.severity (.ofList remark.message) (.ofList raw))
  | _, _ => .error (.malformedGroup (.ofList raw) .positionOutOfRange)

theorem structuredEntry?_eq (line : List Char) :
    structuredEntry? line =
      (splitRemark? (cutLine line)).map fun (file, remark) => entryOf (cutLine line) file remark :=
  rfl

theorem yields_entryOf {line file : List Char} {remark : Remark}
    (reads : ReadsLongest (cutLine line) file remark) :
    Yields line (entryOf (cutLine line) file remark) := by
  have proper := reads.1.proper
  unfold entryOf
  cases l : Text.natBelow? positionLimit remark.line with
  | none =>
    rw [position_eq_none_iff proper.line_nonempty] at l
    exact .outOfRange reads fun both => l both.1
  | some line_number =>
    rw [position_eq_some_iff proper.line_nonempty] at l
    cases c : Text.natBelow? positionLimit remark.column with
    | none =>
      rw [position_eq_none_iff proper.column_nonempty] at c
      exact .outOfRange reads fun both => c both.2
    | some column_number =>
      rw [position_eq_some_iff proper.column_nonempty] at c
      exact .record reads l c

theorem Yields.reads {line : List Char} {entry : Entry} (yields : Yields line entry) :
    ∃ file remark, ReadsLongest (cutLine line) file remark := by
  cases yields with
  | record reads => exact ⟨_, _, reads⟩
  | outOfRange reads => exact ⟨_, _, reads⟩

theorem Numbers.unique {digits : List Char} {n m : Nat} (first : Numbers digits n)
    (second : Numbers digits m) : n = m :=
  first.2.1.symm.trans second.2.1

theorem Yields.unique {line : List Char} {entry entry' : Entry} (yields : Yields line entry)
    (yields' : Yields line entry') : entry = entry' := by
  cases yields with
  | record reads l c =>
    cases yields' with
    | record reads' l' c' =>
      obtain ⟨rfl, rfl⟩ := reads.unique reads'
      rw [l.unique l', c.unique c']
    | outOfRange reads' out =>
      obtain ⟨rfl, rfl⟩ := reads.unique reads'
      exact absurd ⟨⟨_, l⟩, _, c⟩ out
  | outOfRange reads out =>
    cases yields' with
    | record reads' l c =>
      obtain ⟨rfl, rfl⟩ := reads.unique reads'
      exact absurd ⟨⟨_, l⟩, _, c⟩ out
    | outOfRange reads' out' => rfl

theorem structuredEntry?_eq_some_iff {line : List Char} {entry : Entry} :
    structuredEntry? line = some entry ↔ Yields line entry := by
  rw [structuredEntry?_eq]
  rcases splitRemark?_spec (cutLine line) with ⟨file, remark, found, longest⟩ | ⟨missing, none⟩
  · rw [found, Option.map_some, Option.some.injEq]
    have yields := yields_entryOf longest
    exact ⟨fun same => same ▸ yields, fun yields' => yields.unique yields'⟩
  · rw [missing, Option.map_none]
    refine iff_of_false (by simp) fun yields => ?_
    obtain ⟨file, remark, reads⟩ := yields.reads
    exact none file remark reads.1

/-- A text reads line by line: what a line yields, an entry or none, follows from that line alone,
    and the entries stand in the order of their lines. A line yields an entry exactly when there is
    a way to read what stands before its first carriage return. -/
theorem structured_reads_grammar :
    (∀ output : String, readStructured output =
      .ofEntries ((output.toList.splitOn '\n').filterMap structuredEntry?)) ∧
    (∀ line entry, structuredEntry? line = some entry ↔ Yields line entry) ∧
    ∀ line, (∃ entry, Yields line entry) ↔
      ∃ file remark, Reads (line.takeWhile (· != '\r')) file remark := by
  refine ⟨fun output => ?_, fun line entry => structuredEntry?_eq_some_iff, fun line => ?_⟩
  · rw [readStructured, structuredEntries, Text.splitAt_eq_splitOn]
  · constructor
    · rintro ⟨entry, yields⟩
      obtain ⟨file, remark, longest⟩ := yields.reads
      exact ⟨file, remark, longest.1⟩
    · rintro ⟨file, remark, reads⟩
      rcases splitRemark?_spec (cutLine line) with ⟨_, _, _, longest⟩ | ⟨_, none⟩
      · exact ⟨_, yields_entryOf longest⟩
      · exact absurd reads (none file remark)

-- The message of the first position is part of the file name of the second.
example : readStructured "a.ly:1:2: error: see b.ly:3:4: warning: bad\r\n" =
    ⟨[⟨"a.ly:1:2: error: see b.ly", 2, 3, .warning, "bad",
      "a.ly:1:2: error: see b.ly:3:4: warning: bad"⟩], []⟩ := by
  decide +kernel

end ScoreDesk.Report
