import Mathlib
import ScoreDesk.Proofs.Report.GroupedMessages

namespace ScoreDesk.Report

theorem decide_holdsPosition (line : List Char) : decide (HoldsPosition line) = hasAnchor line :=
  Bool.eq_iff_iff.mpr (decide_eq_true_iff.trans hasAnchor_iff.symm)

section Groups

variable {lines group : List (List Char)}

theorem groups_flatten (lines : List (List Char)) :
    (groups lines).flatten = lines.dropWhile (!hasAnchor ·) := by
  induction lines with
  | nil => rfl
  | cons line rest ih =>
    cases opens : hasAnchor line with
    | true =>
      rw [groups, if_pos opens, List.flatten_cons, ih, List.cons_append,
        List.takeWhile_append_dropWhile, List.dropWhile_cons_of_neg (by simp [opens])]
    | false =>
      rw [groups, if_neg (by simp [opens]), ih, List.dropWhile_cons_of_pos (by simp [opens])]

theorem of_mem_groups (member : group ∈ groups lines) :
    ∃ first more, group = first :: more ∧ hasAnchor first = true ∧
      ∀ line ∈ more, hasAnchor line = false := by
  induction lines with
  | nil => cases member
  | cons line rest ih =>
    rw [groups] at member
    split at member
    · rename_i opens
      rcases List.mem_cons.mp member with rfl | later
      · refine ⟨line, _, rfl, opens, fun other inside => ?_⟩
        simpa using List.mem_takeWhile_imp inside
      · exact ih later
    · exact ih member

theorem groups_heads (lines : List (List Char)) :
    (groups lines).map List.head? = (lines.filter hasAnchor).map some := by
  induction lines with
  | nil => rfl
  | cons line rest ih =>
    cases opens : hasAnchor line with
    | true =>
      rw [groups, if_pos opens, List.filter_cons_of_pos opens, List.map_cons, List.map_cons, ih,
        List.head?_cons]
    | false => rw [groups, if_neg (by simp [opens]), List.filter_cons_of_neg (by simp [opens]), ih]

end Groups

/-- What is read from a group: a record of all its lines, or an error that names its first line and
    is not about a position that is missing. -/
def Entry.IsReadFrom (group : List (List Char)) : Entry → Prop
  | .ok record => record.raw = .ofList (Text.joinLines group)
  | .error e => ∃ first defect, group.head? = some first ∧
      e = .malformedGroup (.ofList first) defect ∧
      (defect = .noFile ∨ defect = .lineOutOfRange ∨ defect = .columnOutOfRange)

theorem groupEntry_isReadFrom {first : List Char} (opens : hasAnchor first = true)
    (more : List (List Char)) : (groupEntry (first :: more)).IsReadFrom (first :: more) := by
  obtain ⟨anchor, found⟩ := Option.isSome_iff_exists.mp opens
  have malformed (defect : Defect)
      (known : defect = .noFile ∨ defect = .lineOutOfRange ∨ defect = .columnOutOfRange) :
      Entry.IsReadFrom (first :: more) (.error (.malformedGroup (.ofList first) defect)) :=
    ⟨first, defect, rfl, rfl, known⟩
  simp only [groupEntry, found]
  split
  · exact malformed .noFile (.inl rfl)
  · split
    · exact malformed .lineOutOfRange (.inr (.inl rfl))
    · split
      · exact malformed .columnOutOfRange (.inr (.inr rfl))
      · rfl

theorem length_ofEntries (entries : List Entry) :
    (Reading.ofEntries entries).records.length + (Reading.ofEntries entries).errors.length =
      entries.length := by
  induction entries with
  | nil => rfl
  | cons entry rest ih =>
    simp only [Reading.ofEntries] at ih ⊢
    cases entry with
    | ok record =>
      simp only [List.filterMap_cons, Entry.record?, Entry.error?, List.length_cons]
      omega
    | error e =>
      simp only [List.filterMap_cons, Entry.record?, Entry.error?, List.length_cons]
      omega

/-- Grouping loses no line from the first position on, and a group is a line with a position and the
    lines without one below it. From each group one record is read or one error, in the order of the
    lines: the record has the whole group for its raw text, the error names the first line, and that
    a group is empty or has no position is never what is wrong. -/
theorem grouping_is_lossless (output : String) :
    let lines := Text.lines output.toList
    let groups := groupLines output.toList
    let reading := readGrouped output
    groups.flatten = lines.dropWhile (fun line => ¬ HoldsPosition line) ∧
    (∀ group ∈ groups, ∃ first more, group = first :: more ∧ HoldsPosition first ∧
      ∀ line ∈ more, ¬ HoldsPosition line) ∧
    groups.map List.head? = (lines.filter fun line => HoldsPosition line).map some ∧
    reading.records.length + reading.errors.length =
      lines.countP (fun line => HoldsPosition line) ∧
    ∃ entries : List Entry, reading = .ofEntries entries ∧
      List.Forall₂ Entry.IsReadFrom groups entries := by
  intro lines groups reading
  have opening : (fun line => decide (HoldsPosition line)) = hasAnchor :=
    funext decide_holdsPosition
  have heads : groups.map List.head? = (lines.filter fun line => HoldsPosition line).map some := by
    rw [opening]
    exact groups_heads lines
  refine ⟨?_, fun group member => ?_, heads, ?_, groups.map groupEntry, rfl, ?_⟩
  · simp only [decide_not, decide_holdsPosition]
    exact groups_flatten lines
  · obtain ⟨first, more, whole, opens, plain⟩ := of_mem_groups member
    refine ⟨first, more, whole, hasAnchor_iff.mp opens, fun line inside holds => ?_⟩
    rw [← hasAnchor_iff, plain line inside] at holds
    cases holds
  · have counted := congrArg List.length heads
    rw [List.length_map, List.length_map, ← List.countP_eq_length_filter] at counted
    rw [← counted, ← List.length_map groupEntry]
    exact length_ofEntries _
  · rw [List.forall₂_map_right_iff, List.forall₂_same]
    intro group member
    obtain ⟨first, more, rfl, opens, -⟩ := of_mem_groups member
    exact groupEntry_isReadFrom opens more

end ScoreDesk.Report
