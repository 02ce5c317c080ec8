import Mathlib
import ScoreDesk.Proofs.Report.PrintedMessage
import ScoreDesk.Report.Grouped

namespace ScoreDesk

theorem Text.lines_flatMap {lines : List (List Char)}
    (unbroken : ∀ line ∈ lines, Report.Unbroken line) :
    Text.lines (lines.flatMap (· ++ ['\n'])) = lines := by
  have pieces : splitAt '\n' (lines.flatMap (· ++ ['\n'])) = lines ++ [[]] :=
    splitAt_flatMap fun line member => (unbroken line member).1
  have kept : lines.map dropReturn = lines := by
    conv_rhs => rw [← List.map_id lines]
    refine List.map_congr_left fun line member => ?_
    have clean := (unbroken line member).2
    exact if_neg fun last => clean (List.mem_of_getLast? last)
  unfold Text.lines
  rw [pieces]
  simp [kept]

namespace Report

/-- Two decimal digits with a colon between them: a place for a line and a column. -/
def HoldsPosition (line : List Char) : Prop :=
  ∃ before c d after, line = before ++ c :: ':' :: d :: after ∧
    Text.isDecimal c = true ∧ Text.isDecimal d = true

section Anchors

theorem anchorAt?_of_numbers {line column : List Char} (line_number : IsNumber line)
    (column_number : IsNumber column) (rest : List Char) :
    anchorAt? (line ++ ':' :: (column ++ ':' :: rest)) = some ⟨[], line, column, ':' :: rest⟩ := by
  have number {digits : List Char} (is_number : IsNumber digits) (s : List Char) :
      takeNumber? (digits ++ ':' :: s) = some (digits, ':' :: s) :=
    takeNumber?_until is_number.1 is_number.2 (by decide)
  simp only [anchorAt?, number line_number, skip?_colon, number column_number,
    Option.bind_eq_bind, Option.bind_some]
  rfl

theorem findAnchor?_of_numbers {line column : List Char} (line_number : IsNumber line)
    (column_number : IsNumber column) (rest : List Char) :
    findAnchor? (line ++ ':' :: (column ++ ':' :: rest)) =
      some ⟨[], line, column, ':' :: rest⟩ := by
  obtain ⟨c, more, rfl⟩ := List.exists_cons_of_ne_nil line_number.1
  rw [List.cons_append, findAnchor?, ← List.cons_append,
    anchorAt?_of_numbers line_number column_number]

theorem of_anchorAt? {s : List Char} {anchor : Anchor} (here : anchorAt? s = some anchor) :
    ∃ line column rest, s = line ++ ':' :: (column ++ rest) ∧ IsNumber line ∧ IsNumber column := by
  unfold anchorAt? at here
  simp only [Option.bind_eq_bind, Option.bind_eq_some_iff, skip?_eq_some_iff] at here
  obtain ⟨⟨line, _⟩, line_taken, _, rfl, ⟨column, rest⟩, column_taken, -⟩ := here
  obtain ⟨rfl, line_number⟩ := of_takeNumber? line_taken
  obtain ⟨rfl, column_number⟩ := of_takeNumber? column_taken
  exact ⟨line, column, rest, rfl, line_number, column_number⟩

theorem holdsPosition_of_anchorAt? {s : List Char} {anchor : Anchor}
    (here : anchorAt? s = some anchor) : HoldsPosition s := by
  obtain ⟨line, column, rest, rfl, ⟨line_nonempty, line_decimal⟩, column_nonempty,
    column_decimal⟩ := of_anchorAt? here
  obtain ⟨before, c, rfl⟩ := (List.eq_nil_or_concat line).resolve_left line_nonempty
  obtain ⟨d, after, rfl⟩ := List.exists_cons_of_ne_nil column_nonempty
  exact ⟨before, c, d, after ++ rest, by simp, line_decimal c (by simp),
    column_decimal d (by simp)⟩

theorem isSome_anchorAt?_of_digits {c d : Char} (first : Text.isDecimal c = true)
    (second : Text.isDecimal d = true) (after : List Char) :
    (anchorAt? (c :: ':' :: d :: after)).isSome := by
  have line : takeNumber? ([c] ++ ':' :: d :: after) = some ([c], ':' :: d :: after) :=
    takeNumber?_until (List.cons_ne_nil _ _) (by simpa using first) (by decide)
  have column : takeNumber? (d :: after) =
      some (d :: after.takeWhile Text.isDecimal, after.dropWhile Text.isDecimal) := by
    simp [takeNumber?, second]
  rw [List.singleton_append] at line
  simp [anchorAt?, line, skip?_colon, column]

theorem hasAnchor_cons (c : Char) (rest : List Char) :
    hasAnchor (c :: rest) = ((anchorAt? (c :: rest)).isSome || hasAnchor rest) := by
  rw [hasAnchor, findAnchor?, hasAnchor]
  cases anchorAt? (c :: rest) <;> simp

theorem hasAnchor_iff {line : List Char} : hasAnchor line = true ↔ HoldsPosition line := by
  constructor
  · intro found
    induction line with
    | nil => cases found
    | cons c rest ih =>
      rw [hasAnchor_cons, Bool.or_eq_true] at found
      rcases found with here | later
      · obtain ⟨anchor, here⟩ := Option.isSome_iff_exists.mp here
        exact holdsPosition_of_anchorAt? here
      · obtain ⟨before, d, e, after, rfl, digits⟩ := ih later
        exact ⟨c :: before, d, e, after, rfl, digits⟩
  · rintro ⟨before, c, d, after, rfl, first, second⟩
    induction before with
    | nil => rw [List.nil_append, hasAnchor_cons, isSome_anchorAt?_of_digits first second after,
        Bool.true_or]
    | cons b before ih => rw [List.cons_append, hasAnchor_cons, ih, Bool.or_true]

instance (line : List Char) : Decidable (HoldsPosition line) :=
  decidable_of_iff _ hasAnchor_iff

theorem anchorAt?_name {name : List Char} (clean : ':' ∉ name)
    (ends : ∃ c, name.getLast? = some c ∧ Text.isDecimal c = false) (s : List Char) :
    anchorAt? (name ++ s) = none := by
  obtain ⟨last, at_end, outside⟩ := ends
  have inside : last ∈ name := List.mem_of_getLast? at_end
  refine Option.eq_none_iff_forall_ne_some.mpr fun anchor found => ?_
  obtain ⟨line, column, rest, split, ⟨-, decimal⟩, -⟩ := of_anchorAt? found
  have not_in_line : last ∉ line := fun member => by
    rw [decimal last member] at outside
    cases outside
  rcases List.append_eq_append_iff.mp split with ⟨more, rfl, -⟩ | ⟨more, rfl, behind⟩
  · exact not_in_line (List.mem_append_left _ inside)
  · cases more with
    | nil => exact not_in_line (by simpa using inside)
    | cons c more =>
      obtain ⟨rfl, -⟩ := List.cons.inj behind
      exact clean (by simp)

theorem findAnchor?_past {name : List Char} (clean : ':' ∉ name)
    (stops : ∀ c ∈ name.getLast?, Text.isDecimal c = false) (s : List Char) :
    findAnchor? (name ++ s) =
      (findAnchor? s).map fun anchor => { anchor with before := name ++ anchor.before } := by
  induction name with
  | nil => simp
  | cons c rest ih =>
    have at_end := List.getLast?_eq_some_getLast (List.cons_ne_nil c rest)
    have here := anchorAt?_name clean ⟨_, at_end, stops _ at_end⟩ s
    have stops' : ∀ d ∈ rest.getLast?, Text.isDecimal d = false := by
      intro d at_end
      exact stops d (by cases rest <;> simp_all)
    rw [List.cons_append, findAnchor?, ← List.cons_append, here,
      ih (fun member => clean (List.mem_cons_of_mem _ member)) stops']
    cases findAnchor? s <;> rfl

end Anchors

section Groups

variable {first : List Char} {more rest : List (List Char)}

theorem groups_skip (plain : ∀ line ∈ more, hasAnchor line = false) :
    groups (more ++ rest) = groups rest := by
  induction more with
  | nil => rfl
  | cons line more ih =>
    rw [List.cons_append, groups, plain line List.mem_cons_self]
    exact ih fun other member => plain other (List.mem_cons_of_mem _ member)

theorem groups_block (opens : hasAnchor first = true)
    (plain : ∀ line ∈ more, hasAnchor line = false)
    (next : ∀ line ∈ rest.head?, hasAnchor line = true) :
    groups (first :: more ++ rest) = (first :: more) :: groups rest := by
  have inside : ∀ line ∈ more, (!hasAnchor line) = true := fun line member => by
    rw [plain line member]
    rfl
  have taken : (more ++ rest).takeWhile (!hasAnchor ·) = more := by
    cases rest with
    | nil => rw [List.append_nil, List.takeWhile_eq_self_iff.mpr inside]
    | cons line rest => exact Text.takeWhile_until inside (by simp [next line rfl]) rest
  rw [List.cons_append, groups, opens, if_pos rfl, taken, groups_skip plain]

end Groups

namespace Message

variable {m : Message}

def NameEndsInDigit (m : Message) : Prop :=
  ∃ c, m.file.getLast? = some c ∧ Text.isDecimal c = true

instance (m : Message) : Decidable m.NameEndsInDigit :=
  decidable_of_iff (m.file.getLast?.any Text.isDecimal = true) (by
    simp [NameEndsInDigit, Option.any_eq_true])

def remainder (m : Message) : List Char :=
  ' ' :: m.severity.word.toList ++ ':' :: ' ' :: m.text

theorem findAnchor?_printed (clean : ':' ∉ m.file) (plain : ¬ m.NameEndsInDigit) :
    findAnchor? m.printed = some ⟨m.file ++ [':'], Nat.toDigits 10 m.line,
      Nat.toDigits 10 m.column, ':' :: m.remainder⟩ := by
  have split : m.printed = m.file ++ ':' :: (Nat.toDigits 10 m.line ++
      ':' :: (Nat.toDigits 10 m.column ++ ':' :: m.remainder)) := by
    simp [printed, remainder]
  have stops : ∀ c ∈ m.file.getLast?, Text.isDecimal c = false := by
    intro c last
    exact Bool.eq_false_iff.mpr fun digit => plain ⟨c, last, digit⟩
  have colon (s : List Char) : anchorAt? (':' :: s) = none := rfl
  rw [split, findAnchor?_past clean stops, findAnchor?, colon,
    findAnchor?_of_numbers (isNumber_toDigits _) (isNumber_toDigits _)]
  simp

theorem file_split (m : Message) (ends : m.NameEndsInDigit) :
    ∃ name digits, m.file = name ++ digits ∧
      (∀ c ∈ name.getLast?, Text.isDecimal c = false) ∧ IsNumber digits := by
  refine ⟨m.file.rdropWhile Text.isDecimal, m.file.rtakeWhile Text.isDecimal,
    List.rdropWhile_append_rtakeWhile.symm, ?_, ?_, fun c => List.mem_rtakeWhile_imp⟩
  · intro c last
    have nonempty : m.file.rdropWhile Text.isDecimal ≠ [] := by
      intro none
      rw [none] at last
      cases last
    rw [List.getLast?_eq_some_getLast nonempty] at last
    have outside := List.rdropWhile_last_not Text.isDecimal m.file nonempty
    rw [Option.mem_some.mp last] at outside
    exact Bool.eq_false_iff.mpr outside
  · obtain ⟨c, last, digit⟩ := ends
    rw [ne_eq, List.rtakeWhile_eq_nil_iff]
    intro none
    have nonempty : m.file ≠ [] := by
      intro empty
      rw [empty] at last
      cases last
    rw [List.getLast?_eq_some_getLast nonempty, Option.some.injEq] at last
    exact none nonempty (last ▸ digit)

theorem findAnchor?_printed_of_digit (clean : ':' ∉ m.file) (ends : m.NameEndsInDigit) :
    ∃ anchor, findAnchor? m.printed = some anchor ∧ anchor.before.length < m.file.length := by
  obtain ⟨name, digits, whole, stops, number⟩ := m.file_split ends
  have split : m.printed = name ++ (digits ++ ':' :: (Nat.toDigits 10 m.line ++
      ':' :: (Nat.toDigits 10 m.column ++ ':' :: m.remainder))) := by
    simp [printed, remainder, whole]
  have clean' : ':' ∉ name := fun member => clean (by rw [whole]; simp [member])
  have found := findAnchor?_past clean' stops (digits ++ ':' :: (Nat.toDigits 10 m.line ++
    ':' :: (Nat.toDigits 10 m.column ++ ':' :: m.remainder)))
  rw [← split, findAnchor?_of_numbers number (isNumber_toDigits _)] at found
  refine ⟨_, found, ?_⟩
  have := List.length_pos_of_ne_nil number.1
  rw [whole, List.length_append]
  simpa using this

theorem hasAnchor_printed (clean : ':' ∉ m.file) : hasAnchor m.printed = true := by
  by_cases ends : m.NameEndsInDigit
  · obtain ⟨anchor, found, -⟩ := findAnchor?_printed_of_digit clean ends
    rw [hasAnchor, found]
    rfl
  · rw [hasAnchor, findAnchor?_printed clean ends]
    rfl

end Message

theorem position_toDigits {n : Nat} (fits : n ≤ 4294967295) :
    Text.natBelow? positionLimit (Nat.toDigits 10 n) = some n :=
  (position_eq_some_iff Nat.toDigits_ne_nil).mpr (numbers_toDigits fits)

theorem splitTag_word (severity : Severity) (text : List Char) :
    splitTag (severity.word.toList ++ ':' :: text) = (severity, Text.trim text) := by
  cases severity <;> simp [splitTag, Text.splitOnce, Severity.word]

theorem file_of_groupEntry {first : List Char} {more : List (List Char)} {anchor : Anchor}
    {r : Record} (found : findAnchor? first = some anchor)
    (read_ok : groupEntry (first :: more) = .ok r) :
    r.file = .ofList (Text.trim (Text.dropEndWhile (· == ':') anchor.before)) := by
  simp only [groupEntry, found] at read_ok
  split at read_ok
  · cases read_ok
  · split at read_ok
    · cases read_ok
    · split at read_ok
      · cases read_ok
      · rw [← Except.ok.inj read_ok]
        rfl

/-- A message and the lines of its excerpt below it. -/
structure Passage where
  message : Message
  excerpt : List (List Char)

namespace Passage

def lines (p : Passage) : List (List Char) :=
  p.message.printed :: p.excerpt

def written (p : Passage) : List Char :=
  p.lines.flatMap (· ++ ['\n'])

/-- What a reader should make of the passage: the excerpt belongs to the message. -/
def record (p : Passage) : Record where
  file := .ofList p.message.file
  line := p.message.line - 1
  column := p.message.column - 1
  severity := p.message.severity
  message := .ofList (Text.joinLines (p.message.text :: p.excerpt))
  raw := .ofList (Text.joinLines p.lines)

/-- The name and the text have no blanks at their ends, no colon stands in the name, and no line of
    the excerpt looks like the first line of another passage. -/
structure Tidy (p : Passage) : Prop where
  printable : p.message.Printable
  file_nonempty : p.message.file ≠ []
  file_trimmed : Text.trim p.message.file = p.message.file
  file_clean : ':' ∉ p.message.file
  text_trimmed : Text.trim p.message.text = p.message.text
  excerpt_unbroken : ∀ line ∈ p.excerpt, Unbroken line
  excerpt_plain : ∀ line ∈ p.excerpt, ¬ HoldsPosition line

variable {p : Passage}

theorem groups_passages {passages : List Passage} (tidy : ∀ p ∈ passages, p.Tidy) :
    groups (passages.flatMap lines) = passages.map lines := by
  induction passages with
  | nil => rfl
  | cons p rest ih =>
    have others : ∀ q ∈ rest, q.Tidy := fun q member => tidy q (List.mem_cons_of_mem _ member)
    have first := tidy p List.mem_cons_self
    have plain : ∀ line ∈ p.excerpt, hasAnchor line = false := fun line member =>
      Bool.eq_false_iff.mpr fun found => first.excerpt_plain line member (hasAnchor_iff.mp found)
    have next : ∀ line ∈ (rest.flatMap lines).head?, hasAnchor line = true := by
      intro line head
      cases rest with
      | nil => cases head
      | cons q rest =>
        obtain rfl : q.message.printed = line := Option.some.inj head
        exact Message.hasAnchor_printed (others q List.mem_cons_self).file_clean
    rw [List.flatMap_cons, List.map_cons, lines,
      groups_block (Message.hasAnchor_printed first.file_clean) plain next, ih others]

theorem Tidy.unbroken (tidy : p.Tidy) : ∀ line ∈ p.lines, Unbroken line := by
  intro line member
  rcases List.mem_cons.mp member with rfl | member
  · exact tidy.printable.unbroken
  · exact tidy.excerpt_unbroken line member

theorem groupLines_written {passages : List Passage} (tidy : ∀ p ∈ passages, p.Tidy) :
    groupLines (passages.flatMap written) = passages.map lines := by
  have joined : passages.flatMap written = (passages.flatMap lines).flatMap (· ++ ['\n']) := by
    rw [List.flatMap_assoc]
    rfl
  have unbroken : ∀ line ∈ passages.flatMap lines, Unbroken line := by
    intro line member
    obtain ⟨p, inside, member⟩ := List.mem_flatMap.mp member
    exact (tidy p inside).unbroken line member
  rw [groupLines, joined, Text.lines_flatMap unbroken, groups_passages tidy]

theorem Tidy.splitTag (tidy : p.Tidy) :
    splitTag (Text.trim ((':' :: p.message.remainder).dropWhile (· == ':'))) =
      (p.message.severity, p.message.text) := by
  have trimmed : Text.trim p.message.remainder =
      p.message.severity.word.toList ++ ':' :: ' ' :: p.message.text := by
    have visible : ∃ c word, p.message.severity.word.toList ++ [':', ' '] = c :: word ∧
        Text.isBlank c = false := by
      cases p.message.severity
      · exact ⟨'e', _, rfl, by decide⟩
      · exact ⟨'w', _, rfl, by decide⟩
    obtain ⟨c, word, same, visible⟩ := visible
    have split : p.message.severity.word.toList ++ ':' :: ' ' :: p.message.text =
        c :: word ++ p.message.text := by
      rw [← same]
      simp
    rw [Message.remainder, List.cons_append, Text.trim_cons (by decide), split]
    exact Text.trim_append visible word tidy.printable.text_nonempty tidy.text_trimmed
  have dropped : (':' :: p.message.remainder).dropWhile (· == ':') = p.message.remainder := rfl
  rw [dropped, trimmed, splitTag_word, Text.trim_cons (by decide), tidy.text_trimmed]

theorem Tidy.file_eq (tidy : p.Tidy) :
    Text.trim (Text.dropEndWhile (· == ':') (p.message.file ++ [':'])) = p.message.file := by
  have kept : p.message.file.rdropWhile (· == ':') = p.message.file := by
    rw [List.rdropWhile_eq_self_iff]
    intro nonempty colon
    have member := List.getLast_mem nonempty
    rw [beq_iff_eq.mp colon] at member
    exact tidy.file_clean member
  rw [Text.dropEndWhile_eq_rdropWhile, List.rdropWhile_concat_pos _ _ _ (by simp), kept,
    tidy.file_trimmed]

theorem Tidy.groupEntry (tidy : p.Tidy) (plain : ¬ p.message.NameEndsInDigit) :
    groupEntry p.lines = .ok p.record := by
  have named : p.message.file.isEmpty = false := by simpa using tidy.file_nonempty
  simp only [lines, Report.groupEntry, Message.findAnchor?_printed tidy.file_clean plain,
    tidy.file_eq, named, position_toDigits tidy.printable.line_fits,
    position_toDigits tidy.printable.column_fits, tidy.splitTag]
  rfl

theorem Tidy.groupEntry_ne (tidy : p.Tidy) (ends : p.message.NameEndsInDigit) :
    Report.groupEntry p.lines ≠ .ok p.record := by
  intro read_back
  obtain ⟨anchor, found, shorter⟩ := Message.findAnchor?_printed_of_digit tidy.file_clean ends
  have file := String.ofList_injective (file_of_groupEntry found read_back)
  have trimmed := Text.length_trim_le (Text.dropEndWhile (· == ':') anchor.before)
  rw [← file, Text.dropEndWhile_eq_rdropWhile] at trimmed
  have kept := (List.rdropWhile_prefix (· == ':') anchor.before).length_le
  omega

end Passage

theorem ofEntries_eq_iff {entries : List Entry} {records : List Record} :
    Reading.ofEntries entries = ⟨records, []⟩ ↔ entries = records.map .ok := by
  constructor
  · intro reading
    obtain ⟨read_records, errors⟩ := Reading.mk.inj reading
    rw [← read_records]
    clear reading read_records
    induction entries with
    | nil => rfl
    | cons entry rest ih =>
      cases entry with
      | ok record => exact congrArg (Except.ok record :: ·) (ih errors)
      | error e => cases errors
  · rintro rfl
    simp [Reading.ofEntries, List.filterMap_map, Function.comp_def, Entry.record?, Entry.error?]

/-- Passages that are written one below the other are told apart, and each of them is read back
    exactly if its file name does not end in a digit; so all of them are, in their order and without
    an error, exactly if none of the names does. -/
theorem grouped_passages_read_back_iff {passages : List Passage}
    (tidy : ∀ p ∈ passages, p.Tidy) :
    let reading := readGrouped (.ofList (passages.flatMap Passage.written))
    reading = .ofEntries (passages.map (groupEntry ·.lines)) ∧
      (∀ p ∈ passages, groupEntry p.lines = .ok p.record ↔ ¬ p.message.NameEndsInDigit) ∧
      (reading = ⟨passages.map Passage.record, []⟩ ↔
        ∀ p ∈ passages, ¬ p.message.NameEndsInDigit) := by
  intro reading
  have apart : reading = .ofEntries (passages.map (groupEntry ·.lines)) := by
    simp only [reading, readGrouped, String.toList_ofList, Passage.groupLines_written tidy,
      List.map_map]
    rfl
  have each : ∀ p ∈ passages,
      (groupEntry p.lines = .ok p.record ↔ ¬ p.message.NameEndsInDigit) := fun p member =>
    ⟨fun read_back ends => (tidy p member).groupEntry_ne ends read_back,
      (tidy p member).groupEntry⟩
  refine ⟨apart, each, ?_⟩
  rw [apart, ofEntries_eq_iff, List.map_map, List.map_inj_left]
  exact forall₂_congr each

theorem passages_with_numbers_read_back :
    let passages : List Passage :=
      [⟨⟨"lib 2/a.ly".toList, 4294967295, 1, .warning, "see b.ly:3:4: error: odd".toList⟩,
        ["  c4: 5 d".toList, [], "      ^".toList]⟩,
        ⟨⟨"-".toList, 1, 2, .error, "bad".toList⟩, []⟩]
    (∀ p ∈ passages, p.Tidy) ∧ (∀ p ∈ passages, ¬ p.message.NameEndsInDigit) ∧
      readGrouped ("lib 2/a.ly:4294967295:1: warning: see b.ly:3:4: error: odd\n  c4: 5 d\n\n" ++
        "      ^\n-:1:2: error: bad\n") = ⟨passages.map Passage.record, []⟩ := by
  intro passages
  have tidy : ∀ p ∈ passages, p.Tidy := by
    simp only [passages, List.forall_mem_cons]
    refine ⟨?_, ?_, fun p member => by cases member⟩
    · exact ⟨⟨by decide, by decide, by decide, by decide, by decide⟩, by decide, by decide,
        by decide, by decide, by decide, by decide⟩
    · exact ⟨⟨by decide, by decide, by decide, by decide, by decide⟩, by decide, by decide,
        by decide, by decide, by decide, by decide⟩
  have plain : ∀ p ∈ passages, ¬ p.message.NameEndsInDigit := by decide
  obtain ⟨-, -, read_back⟩ := grouped_passages_read_back_iff tidy
  have written : "lib 2/a.ly:4294967295:1: warning: see b.ly:3:4: error: odd\n  c4: 5 d\n\n" ++
      "      ^\n-:1:2: error: bad\n" = String.ofList (passages.flatMap Passage.written) := by
    decide +kernel
  exact ⟨tidy, plain, written ▸ read_back.mpr plain⟩

/-- The digit at the end of the name is taken for the line, the line for the column, and the column
    for a part of the text. -/
theorem digit_of_name_taken_for_line :
    let p : Passage := ⟨⟨"opus1".toList, 3, 7, .error, "bad".toList⟩, []⟩
    p.Tidy ∧ readGrouped "opus1:3:7: error: bad\n" =
      ⟨[⟨"opus", 0, 2, .error, "7: error: bad", "opus1:3:7: error: bad"⟩], []⟩ ∧
      readGrouped (.ofList p.written) ≠ ⟨[p.record], []⟩ ∧
      readStructured (.ofList p.written) = ⟨[p.record], []⟩ := by
  intro p
  refine ⟨⟨⟨by decide, by decide, by decide, by decide, by decide⟩, by decide, by decide, by decide,
    by decide, by decide, by decide⟩, ?_, ?_, ?_⟩
  · decide +kernel
  · decide +kernel
  · decide +kernel

end Report

end ScoreDesk
