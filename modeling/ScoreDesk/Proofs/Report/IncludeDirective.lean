import Mathlib
import ScoreDesk.Proofs.Text.Scan
import ScoreDesk.Report.Document

namespace ScoreDesk.Report.Document

def IsSeparator (c : Char) : Prop :=
  c = '/' ∨ c = '\x5c'

/-- What may stand between the opening quote and the file name: nothing, or directories up to a
    separator, without a quote or a line feed. -/
def IsLead (lead : List Char) : Prop :=
  lead = [] ∨ ∃ directories separator, lead = directories ++ [separator] ∧ IsSeparator separator ∧
    ∀ c ∈ directories, c ≠ '\x22' ∧ c ≠ '\n'

def BeginsInclude (name s : List Char) : Prop :=
  ∃ blanks lead rest,
    s = includeWord ++ (blanks ++ '\x22' :: (lead ++ (name ++ '\x22' :: rest))) ∧
      (∀ c ∈ blanks, Text.isBlank c = true) ∧ IsLead lead

/-- The first directive of a text that includes a file of this name, and what stands before it. -/
structure FirstInclude (name text before behind : List Char) : Prop where
  split : text = before ++ behind
  begins : BeginsInclude name behind
  earliest : ∀ before' behind', text = before' ++ behind' → BeginsInclude name behind' →
    before.length ≤ before'.length

section Directive

variable {name s : List Char}

theorem isPrefixOf_quoted :
    (name ++ ['\x22']).isPrefixOf s = true ↔ ∃ rest, s = name ++ '\x22' :: rest := by
  rw [List.isPrefixOf_iff_prefix]
  constructor
  · rintro ⟨rest, rfl⟩
    exact ⟨rest, by simp⟩
  · rintro ⟨rest, rfl⟩
    exact ⟨rest, by simp⟩

theorem IsSeparator.inside {c : Char} (separator : IsSeparator c) : ¬ (c = '\x22' ∨ c = '\n') := by
  rcases separator with rfl | rfl <;> decide

theorem behindSlash_iff :
    quotesName.behindSlash name s = true ↔ ∃ directories separator rest,
      s = directories ++ separator :: (name ++ '\x22' :: rest) ∧ IsSeparator separator ∧
        ∀ c ∈ directories, c ≠ '\x22' ∧ c ≠ '\n' := by
  induction s with
  | nil => simp [quotesName.behindSlash]
  | cons c s ih =>
    rw [quotesName.behindSlash]
    constructor
    · intro found
      split at found
      · cases found
      · rename_i inside
        rw [not_or] at inside
        rw [Bool.or_eq_true, Bool.and_eq_true, decide_eq_true_eq, isPrefixOf_quoted, ih] at found
        rcases found with ⟨separator, rest, rfl⟩ | ⟨directories, separator, rest, rfl, here, clean⟩
        · exact ⟨[], c, rest, rfl, separator, by simp⟩
        · exact ⟨c :: directories, separator, rest, rfl, here, by simpa using ⟨inside, clean⟩⟩
    · rintro ⟨directories, separator, rest, split, here, clean⟩
      cases directories with
      | nil =>
        obtain ⟨rfl, rfl⟩ := List.cons.inj split
        have quoted : (name ++ ['\x22']).isPrefixOf (name ++ '\x22' :: rest) = true :=
          isPrefixOf_quoted.mpr ⟨rest, rfl⟩
        have separator : c = '/' ∨ c = '\x5c' := here
        simp [here.inside, separator, quoted]
      | cons d directories =>
        obtain ⟨rfl, rfl⟩ := List.cons.inj split
        obtain ⟨inside, clean⟩ := List.forall_mem_cons.mp clean
        rw [if_neg (not_or.mpr inside), Bool.or_eq_true]
        exact .inr (ih.mpr ⟨directories, separator, rest, rfl, here, clean⟩)

theorem quotesName_iff :
    quotesName name s = true ↔ ∃ lead rest, s = lead ++ (name ++ '\x22' :: rest) ∧ IsLead lead := by
  rw [quotesName, Bool.or_eq_true, isPrefixOf_quoted, behindSlash_iff]
  constructor
  · rintro (⟨rest, rfl⟩ | ⟨directories, separator, rest, rfl, here, clean⟩)
    · exact ⟨[], rest, rfl, .inl rfl⟩
    · exact ⟨directories ++ [separator], rest, by simp, .inr ⟨_, _, rfl, here, clean⟩⟩
  · rintro ⟨lead, rest, rfl, rfl | ⟨directories, separator, rfl, here, clean⟩⟩
    · exact .inl ⟨rest, rfl⟩
    · exact .inr ⟨directories, separator, rest, by simp, here, clean⟩

theorem includesAt_iff : includesAt name s = true ↔ BeginsInclude name s := by
  rw [includesAt, Bool.and_eq_true, List.isPrefixOf_iff_prefix]
  constructor
  · rintro ⟨⟨behind, rfl⟩, quoted⟩
    rw [List.drop_left] at quoted
    split at quoted
    case h_1 inner found =>
      obtain ⟨lead, rest, rfl, is_lead⟩ := quotesName_iff.mp quoted
      refine ⟨behind.takeWhile Text.isBlank, lead, rest, ?_, fun c => List.mem_takeWhile_imp,
        is_lead⟩
      rw [← found, List.takeWhile_append_dropWhile]
    case h_2 => cases quoted
  · rintro ⟨blanks, lead, rest, rfl, blank, is_lead⟩
    refine ⟨List.prefix_append _ _, ?_⟩
    rw [List.drop_left, Text.dropWhile_until blank (by decide)]
    exact quotesName_iff.mpr ⟨lead, rest, rfl, is_lead⟩

theorem not_beginsInclude_nil (name : List Char) : ¬ BeginsInclude name [] := by
  rintro ⟨blanks, lead, rest, none, -⟩
  simp [includeWord] at none

theorem IsLead.clean {lead : List Char} (is_lead : IsLead lead) : '\x22' ∉ lead := by
  rcases is_lead with rfl | ⟨directories, separator, rfl, here, clean⟩
  · exact List.not_mem_nil
  · intro member
    rcases List.mem_append.mp member with member | member
    · exact (clean _ member).1 rfl
    · exact here.inside (.inl (List.mem_singleton.mp member).symm)

theorem beginsInclude_quoted_iff {blanks quoted : List Char} (clean : '\x22' ∉ name)
    (blank : ∀ c ∈ blanks, Text.isBlank c = true) (quoted_clean : '\x22' ∉ quoted)
    (rest : List Char) :
    BeginsInclude name (includeWord ++ (blanks ++ '\x22' :: (quoted ++ '\x22' :: rest))) ↔
      ∃ lead, quoted = lead ++ name ∧ IsLead lead := by
  constructor
  · rintro ⟨blanks', lead, rest', split, blank', is_lead⟩
    have behind_blanks := (Text.stop_inj blank blank' (by decide)
      (List.append_cancel_left split)).2
    have inside {word : List Char} (word_clean : '\x22' ∉ word) :
        ∀ c ∈ word, (c != '\x22') = true := fun c member =>
      bne_iff_ne.mpr fun quote => word_clean (quote ▸ member)
    have both : '\x22' ∉ lead ++ name := by simp [is_lead.clean, clean]
    rw [← List.append_assoc] at behind_blanks
    exact ⟨lead, (Text.stop_inj (inside quoted_clean) (inside both) (by decide)
      behind_blanks).1, is_lead⟩
  · rintro ⟨lead, rfl, is_lead⟩
    exact ⟨blanks, lead, rest, by simp, blank, is_lead⟩

end Directive

section Search

variable {name text before behind : List Char} {c : Char}

theorem FirstInclude.before_eq_nil (first : FirstInclude name text before behind)
    (here : BeginsInclude name text) : before = [] :=
  List.length_eq_zero_iff.mp (Nat.le_zero.mp (first.earliest [] text rfl here))

theorem firstInclude_cons (here : ¬ BeginsInclude name (c :: text)) :
    FirstInclude name (c :: text) before behind ↔
      ∃ rest, before = c :: rest ∧ FirstInclude name text rest behind := by
  constructor
  · intro first
    cases before with
    | nil => exact absurd (first.split ▸ first.begins) here
    | cons d rest =>
      obtain ⟨rfl, split⟩ := List.cons.inj first.split
      refine ⟨rest, rfl, split, first.begins, fun before' behind' split' begins' => ?_⟩
      have := first.earliest (c :: before') behind' (congrArg (c :: ·) split') begins'
      simpa using this
  · rintro ⟨rest, rfl, first⟩
    refine ⟨congrArg (c :: ·) first.split, first.begins, fun before' behind' split' begins' => ?_⟩
    cases before' with
    | nil => exact absurd (by rwa [split']) here
    | cons d before' =>
      have := first.earliest before' behind' (List.cons.inj split').2 begins'
      simpa using this

theorem findInclude?_eq_some_iff {line : Nat} :
    findInclude? name text = some line ↔
      ∃ before behind, FirstInclude name text before behind ∧ before.count '\n' = line := by
  induction text generalizing line with
  | nil =>
    refine iff_of_false (by simp [findInclude?]) ?_
    rintro ⟨before, behind, first, -⟩
    obtain ⟨rfl, rfl⟩ := List.append_eq_nil_iff.mp first.split.symm
    exact not_beginsInclude_nil name first.begins
  | cons c text ih =>
    by_cases here : BeginsInclude name (c :: text)
    · rw [findInclude?, if_pos (includesAt_iff.mpr here), Option.some.injEq]
      constructor
      · rintro rfl
        exact ⟨[], _, ⟨rfl, here, fun _ _ _ _ => Nat.zero_le _⟩, rfl⟩
      · rintro ⟨before, behind, first, rfl⟩
        rw [first.before_eq_nil here]
        rfl
    · rw [findInclude?, if_neg (mt includesAt_iff.mp here)]
      simp only [firstInclude_cons here, Option.map_eq_some_iff, ih]
      constructor
      · rintro ⟨_, ⟨rest, behind, first, rfl⟩, rfl⟩
        refine ⟨c :: rest, behind, ⟨rest, rfl, first⟩, ?_⟩
        simp [List.count_cons]
      · rintro ⟨_, behind, ⟨rest, rfl, first⟩, rfl⟩
        refine ⟨_, ⟨rest, behind, first, rfl⟩, ?_⟩
        simp [List.count_cons]

end Search

/-- A reported file is found on the line of the first directive that includes a file of its name.
    A directive includes a file of a name without quotes exactly if what it quotes is the name, or
    directories, a separator and the name. -/
theorem includeLine?_eq_some_iff {document : Document} {reported name : String}
    (named : Path.fileName? ⟨reported⟩ = some name)
    (short : document.text.toList.count '\n' < 2 ^ 32) :
    (∀ line, document.includeLine? reported = some line ↔
      ∃ before behind, FirstInclude name.toList document.text.toList before behind ∧
        before.count '\n' = line) ∧
    ∀ blanks quoted rest, (∀ c ∈ blanks, Text.isBlank c = true) → '\x22' ∉ quoted →
      '\x22' ∉ name.toList →
      (BeginsInclude name.toList
          (includeWord ++ (blanks ++ '\x22' :: (quoted ++ '\x22' :: rest))) ↔
        ∃ lead, quoted = lead ++ name.toList ∧ IsLead lead) := by
  refine ⟨fun line => ?_, fun blanks quoted rest blank quoted_clean clean =>
    beginsInclude_quoted_iff clean blank quoted_clean rest⟩
  have bounded {before behind : List Char}
      (first : FirstInclude name.toList document.text.toList before behind) :
      before.count '\n' < positionLimit := by
    rw [first.split, List.count_append] at short
    unfold positionLimit
    omega
  simp only [includeLine?, named, Option.bind_eq_bind, Option.bind_some, Option.bind_eq_some_iff,
    findInclude?_eq_some_iff]
  constructor
  · rintro ⟨_, ⟨before, behind, first, rfl⟩, shown⟩
    rw [if_pos (bounded first)] at shown
    exact ⟨before, behind, first, Option.some.inj shown⟩
  · rintro ⟨before, behind, first, rfl⟩
    exact ⟨_, ⟨before, behind, first, rfl⟩, if_pos (bounded first)⟩

theorem directive_over_two_lines_found :
    let document : Document :=
      ⟨⟨"score.ly"⟩, "% parts\n\\include \"my-a+b.ily\"\n\\include\n\t\"lib/a+b.ily\"\n"⟩
    Path.fileName? ⟨"/parts/a+b.ily"⟩ = some "a+b.ily" ∧
      document.text.toList.count '\n' < 2 ^ 32 ∧
      document.includeLine? "/parts/a+b.ily" = some 2 ∧
      (∃ before behind, FirstInclude "a+b.ily".toList document.text.toList before behind ∧
        before.count '\n' = 2) ∧
      ¬ BeginsInclude "a+b.ily".toList "\\include \"my-a+b.ily\"".toList := by
  intro document
  have named : Path.fileName? ⟨"/parts/a+b.ily"⟩ = some "a+b.ily" := by decide +kernel
  have short : document.text.toList.count '\n' < 2 ^ 32 := by decide +kernel
  have found : document.includeLine? "/parts/a+b.ily" = some 2 := by decide +kernel
  obtain ⟨line, whole⟩ := includeLine?_eq_some_iff named short
  refine ⟨named, short, found, (line 2).mp found, fun longer => ?_⟩
  have blank : ∀ c ∈ [' '], Text.isBlank c = true := List.forall_mem_singleton.mpr (by decide)
  obtain ⟨lead, split, is_lead⟩ :=
    (whole [' '] "my-a+b.ily".toList [] blank (by decide) (by decide)).mp longer
  have joined : "my-".toList ++ "a+b.ily".toList = "my-a+b.ily".toList := by decide
  obtain rfl : "my-".toList = lead := List.append_cancel_right (joined.trans split)
  rcases is_lead with none | ⟨directories, separator, ends, here, -⟩
  · cases none
  · have last : '-' = separator := by simpa using congrArg List.getLast? ends
    subst last
    exact absurd here (by unfold IsSeparator; decide)

end ScoreDesk.Report.Document
