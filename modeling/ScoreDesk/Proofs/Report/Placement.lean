import Mathlib
import ScoreDesk.Report.Diagnostic

namespace ScoreDesk

theorem Path.join_of_isAbsolute (dir : Path) {p : Path} (absolute : p.isAbsolute) :
    dir.join p = p := by
  simp [join, absolute]

namespace Report

/-- A record can be shown where it names the document itself, a file that the document includes, or
    a file that is there. A relative path is looked up beside the document. -/
def Record.Placed (tree : FileTree) (document : Document) (r : Record) : Prop :=
  r.file = standardInput ∨ (document.includeLine? r.file).isSome ∨
    tree.exists? (document.dir.join ⟨r.file⟩)

instance (tree : FileTree) (document : Document) (r : Record) :
    Decidable (r.Placed tree document) :=
  inferInstanceAs (Decidable (_ ∨ _ ∨ _))

section Records

variable {tree : FileTree} {document : Document} {r : Record}

theorem resolve_standardInput (stdin : r.file = standardInput) :
    r.resolve tree document = .ok ⟨document.path, r.span, r.severity, r.message⟩ :=
  if_pos stdin

theorem resolve_included {line : Nat} (reported : r.file ≠ standardInput)
    (included : document.includeLine? r.file = some line) :
    r.resolve tree document = .ok ⟨document.path, ⟨⟨line, 0⟩, ⟨line + 1, 0⟩⟩, r.severity,
      (Path.fileName? ⟨r.file⟩).getD r.file ++ s!":{r.line + 1}: " ++ r.message⟩ := by
  rw [Record.resolve, if_neg reported, included]

def Record.shownFile (tree : FileTree) (document : Document) (r : Record) : Path :=
  if Path.isAbsolute ⟨r.file⟩ then
    if Document.sameFile tree document.path ⟨r.file⟩ then document.path else ⟨r.file⟩
  else document.dir.join ⟨r.file⟩

theorem resolve_there (reported : r.file ≠ standardInput)
    (included : document.includeLine? r.file = none)
    (there : tree.exists? (document.dir.join ⟨r.file⟩)) :
    r.resolve tree document = .ok ⟨r.shownFile tree document, r.span, r.severity, r.message⟩ := by
  rw [Record.resolve, if_neg reported, included, Record.shownFile]
  by_cases absolute : Path.isAbsolute ⟨r.file⟩
  · rw [Path.join_of_isAbsolute _ absolute] at there
    simp only [absolute, there, ↓reduceIte]
  · simp only [absolute, there, ↓reduceIte]
    rfl

theorem resolve_of_placed (placed : r.Placed tree document) :
    ∃ diagnostic, r.resolve tree document = .ok diagnostic ∧ diagnostic.severity = r.severity := by
  by_cases stdin : r.file = standardInput
  · exact ⟨_, resolve_standardInput stdin, rfl⟩
  · cases included : document.includeLine? r.file with
    | some line => exact ⟨_, resolve_included stdin included, rfl⟩
    | none =>
      have there : tree.exists? (document.dir.join ⟨r.file⟩) := by
        simpa [Record.Placed, stdin, included] using placed
      exact ⟨_, resolve_there stdin included there, rfl⟩

theorem resolve_of_not_placed (lost : ¬ r.Placed tree document) :
    r.resolve tree document = .error (.unresolvablePath r.file) := by
  obtain ⟨stdin, others⟩ := not_or.mp lost
  obtain ⟨included, missing⟩ := not_or.mp others
  unfold Record.resolve
  rw [if_neg stdin, Option.not_isSome_iff_eq_none.mp included]
  by_cases absolute : Path.isAbsolute ⟨r.file⟩
  · rw [Path.join_of_isAbsolute _ absolute] at missing
    simp [absolute, missing]
  · simp [absolute, missing]

end Records

namespace Analysis

variable (tree : FileTree) (document : Document) (strategy : Strategy) (output : String)

theorem ofOutput_diagnostics :
    (ofOutput tree document strategy output).diagnostics.map .ok =
      ((read strategy output).records.filter (·.Placed tree document)).map
        (·.resolve tree document) := by
  rw [ofOutput, List.filterMap_map, List.map_filterMap, ← List.filterMap_eq_map,
    List.filterMap_filter]
  refine List.filterMap_congr fun r _ => ?_
  by_cases placed : r.Placed tree document
  · obtain ⟨diagnostic, shown, -⟩ := resolve_of_placed placed
    simp [shown, placed]
  · simp [resolve_of_not_placed placed, placed]

theorem ofOutput_dropped :
    (ofOutput tree document strategy output).dropped = (read strategy output).errors ++
      ((read strategy output).records.filter (¬ ·.Placed tree document)).map
        (.unresolvablePath ·.file) := by
  simp only [ofOutput]
  congr 1
  rw [List.filterMap_map, ← List.filterMap_eq_map, List.filterMap_filter]
  refine List.filterMap_congr fun r _ => ?_
  by_cases placed : r.Placed tree document
  · obtain ⟨diagnostic, shown, -⟩ := resolve_of_placed placed
    simp [shown, placed]
  · simp [resolve_of_not_placed placed, placed]

variable {tree document strategy output}

theorem mem_ofOutput_diagnostics {diagnostic : Diagnostic} :
    diagnostic ∈ (ofOutput tree document strategy output).diagnostics ↔
      ∃ r ∈ (read strategy output).records, r.Placed tree document ∧
        r.resolve tree document = .ok diagnostic := by
  have listed : diagnostic ∈ (ofOutput tree document strategy output).diagnostics ↔
      Except.ok diagnostic ∈ (ofOutput tree document strategy output).diagnostics.map
        (Except.ok (ε := ReportError)) := by
    simp
  rw [listed, ofOutput_diagnostics]
  simp [and_assoc]

theorem hasErrors_ofOutput :
    (ofOutput tree document strategy output).hasErrors = true ↔
      ∃ r ∈ (read strategy output).records, r.severity = .error ∧ r.Placed tree document := by
  unfold hasErrors
  rw [List.any_eq_true]
  constructor
  · rintro ⟨diagnostic, member, error⟩
    obtain ⟨r, inside, placed, shown⟩ := mem_ofOutput_diagnostics.mp member
    obtain ⟨other, same, severity⟩ := resolve_of_placed placed
    rw [shown] at same
    cases same
    exact ⟨r, inside, severity ▸ of_decide_eq_true error, placed⟩
  · rintro ⟨r, inside, error, placed⟩
    obtain ⟨diagnostic, shown, severity⟩ := resolve_of_placed placed
    exact ⟨diagnostic, mem_ofOutput_diagnostics.mpr ⟨r, inside, placed, shown⟩,
      decide_eq_true (severity.trans error)⟩

theorem ofOutput_diagnostics_eq_nil_iff :
    (ofOutput tree document strategy output).diagnostics = [] ↔
      ∀ r ∈ (read strategy output).records, ¬ r.Placed tree document := by
  rw [← List.map_eq_nil_iff (f := Except.ok (ε := ReportError)), ofOutput_diagnostics,
    List.map_eq_nil_iff, List.filter_eq_nil_iff]
  simp

end Analysis

end Report

end ScoreDesk
