import Mathlib
import ScoreDesk.Proofs.PathOrder
import ScoreDesk.Proofs.Report.Placement
import ScoreDesk.Report.Board

namespace ScoreDesk.Report

open Std (OrientedCmp TransCmp)

namespace Board

inductive Change where
  | set (file : Path) (diagnostics : List Diagnostic)
  | append (diagnostic : Diagnostic)
  | delete (file : Path)
  | clear
  | replaceWith (a : Analysis)

def change (b : Board) : Change → Board
  | .set file diagnostics => b.set file diagnostics
  | .append diagnostic => b.append diagnostic
  | .delete file => b.delete file
  | .clear => b.clear
  | .replaceWith a => b.replaceWith a

def changeAll (b : Board) (history : List Change) : Board :=
  history.foldl change b

def Ordered (files : List (Path × List Diagnostic)) : Prop :=
  files.Pairwise fun a c => a.1.compare c.1 = .lt

section Alter

variable {file p : Path} {alteration : List Diagnostic → List Diagnostic}
  {files : List (Path × List Diagnostic)} {entry : Path × List Diagnostic}

theorem components_ne_of_lt {p q : Path} (before : p.compare q = .lt) :
    p.components ≠ q.components := by
  intro same
  rw [Path.compare_eq_eq_iff.mpr same] at before
  cases before

theorem mem_alter (member : entry ∈ alter file alteration files) :
    entry ∈ files ∨ entry = (file, alteration []) ∨
      ∃ old ∈ files, entry = (old.1, alteration old.2) := by
  induction files with
  | nil => exact .inr (.inl (List.mem_singleton.mp member))
  | cons first rest ih =>
    obtain ⟨q, shown⟩ := first
    simp only [alter] at member
    split at member
    · rcases List.mem_cons.mp member with new | member
      · exact .inr (.inl new)
      · exact .inl member
    · rcases List.mem_cons.mp member with new | member
      · exact .inr (.inr ⟨(q, shown), by simp, new⟩)
      · exact .inl (List.mem_cons_of_mem _ member)
    · rcases List.mem_cons.mp member with rfl | member
      · exact .inl (by simp)
      · rcases ih member with inside | new | ⟨old, inside, new⟩
        · exact .inl (List.mem_cons_of_mem _ inside)
        · exact .inr (.inl new)
        · exact .inr (.inr ⟨old, List.mem_cons_of_mem _ inside, new⟩)

theorem Ordered.alter (ordered : Ordered files) (file : Path)
    (alteration : List Diagnostic → List Diagnostic) :
    Ordered (Board.alter file alteration files) := by
  induction files with
  | nil => exact List.pairwise_singleton _ _
  | cons first rest ih =>
    obtain ⟨q, shown⟩ := first
    obtain ⟨least, later⟩ := List.pairwise_cons.mp ordered
    simp only [Board.alter]
    split
    case h_1 before =>
      refine List.pairwise_cons.mpr ⟨fun entry member => ?_, ordered⟩
      rcases List.mem_cons.mp member with rfl | member
      · exact before
      · exact TransCmp.lt_trans before (least entry member)
    case h_2 => exact List.pairwise_cons.mpr ⟨least, later⟩
    case h_3 behind =>
      refine List.pairwise_cons.mpr ⟨fun entry member => ?_, ih later⟩
      rcases mem_alter member with inside | rfl | ⟨old, inside, rfl⟩
      · exact least entry inside
      · exact OrientedCmp.lt_of_gt behind
      · exact least old inside

theorem lookup_eq_none (absent : ∀ entry ∈ files, entry.1.components ≠ p.components) :
    (files.find? fun entry => entry.1.same p) = none := by
  simpa [List.find?_eq_none] using absent

theorem Ordered.lookup_alter (ordered : Ordered files) (file p : Path)
    (alteration : List Diagnostic → List Diagnostic) :
    (((Board.alter file alteration files).find? fun entry => entry.1.same p).map (·.2)).getD [] =
      let shown := ((files.find? fun entry => entry.1.same p).map (·.2)).getD []
      if file.same p then alteration shown else shown := by
  induction files with
  | nil => by_cases here : file.same p <;> simp [Board.alter, here]
  | cons first rest ih =>
    obtain ⟨q, shown⟩ := first
    obtain ⟨least, later⟩ := List.pairwise_cons.mp ordered
    simp only [Board.alter]
    split
    case h_1 before =>
      by_cases here : file.same p
      · have absent : ∀ entry ∈ (q, shown) :: rest, entry.1.components ≠ p.components := by
          rw [← Path.same_iff.mp here]
          intro entry member
          rcases List.mem_cons.mp member with rfl | member
          · exact (components_ne_of_lt before).symm
          · exact (components_ne_of_lt (TransCmp.lt_trans before (least entry member))).symm
        rw [lookup_eq_none absent]
        simp [here]
      · simp [here]
    case h_2 same =>
      have both : q.same p = file.same p := by
        unfold Path.same
        rw [Path.compare_eq_eq_iff.mp same]
      by_cases here : file.same p <;> simp [both, here]
    case h_3 behind =>
      by_cases first : q.same p
      · have other : ¬ file.same p := by
          intro here
          apply components_ne_of_lt (OrientedCmp.lt_of_gt behind)
          rw [Path.same_iff.mp first, Path.same_iff.mp here]
        simp [first, other]
      · simpa [first] using ih later

theorem Ordered.lookup_of_mem (ordered : Ordered files) (member : entry ∈ files) :
    (files.find? fun other => other.1.same entry.1) = some entry := by
  induction files with
  | nil => cases member
  | cons first rest ih =>
    obtain ⟨least, later⟩ := List.pairwise_cons.mp ordered
    rcases List.mem_cons.mp member with rfl | member
    · simp
    · have other : ¬ first.1.same entry.1 := by
        rw [Path.same_iff]
        exact components_ne_of_lt (least entry member)
      simp [other, ih later member]

theorem Ordered.components_nodup (ordered : Ordered files) :
    (files.map (·.1.components)).Nodup :=
  List.pairwise_map.mpr (ordered.imp components_ne_of_lt)

theorem length_alter_append (file : Path) (diagnostic : Diagnostic)
    (files : List (Path × List Diagnostic)) :
    ((alter file (· ++ [diagnostic]) files).flatMap (·.2)).length =
      (files.flatMap (·.2)).length + 1 := by
  induction files with
  | nil => rfl
  | cons first rest ih =>
    obtain ⟨q, shown⟩ := first
    simp only [alter]
    split <;> simp only [List.flatMap_cons, List.length_append, List.length_cons, List.length_nil,
      ih] <;> omega

end Alter

/-- A board that shows some diagnostics and nothing else: by file, in their order. -/
structure Shows (b : Board) (diagnostics : List Diagnostic) : Prop where
  ordered : Ordered b.files
  get : ∀ p, b.get p = diagnostics.filter (·.file.same p)
  total : b.total = diagnostics.length
  none_empty : ∀ entry ∈ b.files, entry.2 ≠ []

theorem empty_shows : empty.Shows [] where
  ordered := List.Pairwise.nil
  get _ := rfl
  total := rfl
  none_empty _ member := by cases member

namespace Shows

variable {b : Board} {diagnostics : List Diagnostic}

theorem append (shows : b.Shows diagnostics) (diagnostic : Diagnostic) :
    (b.append diagnostic).Shows (diagnostics ++ [diagnostic]) where
  ordered := shows.ordered.alter _ _
  get p := by
    have before := shows.get p
    unfold Board.get get? at before ⊢
    unfold Board.append
    rw [shows.ordered.lookup_alter, before, List.filter_append]
    by_cases here : diagnostic.file.same p <;> simp [here]
  total := by
    have before := shows.total
    unfold Board.total at before ⊢
    rw [Board.append, length_alter_append, before, List.length_append, List.length_singleton]
  none_empty entry member := by
    rcases mem_alter member with inside | rfl | ⟨old, -, rfl⟩
    · exact shows.none_empty entry inside
    · simp
    · simp

theorem appendAll (shows : b.Shows diagnostics) (more : List Diagnostic) :
    (more.foldl Board.append b).Shows (diagnostics ++ more) := by
  induction more generalizing b diagnostics with
  | nil => simpa using shows
  | cons diagnostic rest ih =>
    rw [List.foldl_cons, List.append_cons]
    exact ih (shows.append diagnostic)

theorem entry_eq (shows : b.Shows diagnostics) {entry : Path × List Diagnostic}
    (member : entry ∈ b.files) : entry.2 = diagnostics.filter (·.file.same entry.1) := by
  rw [← shows.get, Board.get, get?, shows.ordered.lookup_of_mem member]
  rfl

theorem mem_files_iff (shows : b.Shows diagnostics) (components : List Component) :
    components ∈ b.files.map (·.1.components) ↔
      components ∈ diagnostics.map (·.file.components) := by
  rw [List.mem_map, List.mem_map]
  constructor
  · rintro ⟨entry, member, rfl⟩
    obtain ⟨diagnostic, inside⟩ := List.exists_mem_of_ne_nil _ (shows.none_empty entry member)
    rw [shows.entry_eq member] at inside
    obtain ⟨shown, same⟩ := List.mem_filter.mp inside
    exact ⟨diagnostic, shown, Path.same_iff.mp same⟩
  · rintro ⟨diagnostic, member, rfl⟩
    by_contra absent
    have none : b.get diagnostic.file = [] := by
      unfold Board.get get?
      rw [lookup_eq_none fun entry inside same => absent ⟨entry, inside, same⟩]
      rfl
    rw [shows.get, List.filter_eq_nil_iff] at none
    exact none diagnostic member (Path.same_iff.mpr rfl)

theorem size_eq (shows : b.Shows diagnostics) :
    b.size = (diagnostics.map (·.file.components)).toFinset.card := by
  have same : (diagnostics.map (·.file.components)).toFinset =
      (b.files.map (·.1.components)).toFinset := by
    ext components
    rw [List.mem_toFinset, List.mem_toFinset, shows.mem_files_iff]
  rw [same, List.toFinset_card_of_nodup shows.ordered.components_nodup, List.length_map]
  rfl

end Shows

theorem replaceWith_shows (b : Board) (a : Analysis) : (b.replaceWith a).Shows a.diagnostics := by
  have shown := empty_shows.appendAll a.diagnostics
  rwa [List.nil_append] at shown

/-- An analysis keeps every record, and each of them is either placed or dropped, in order. Whatever
    was done to a board before, it then shows exactly the diagnostics of the analysis, by file and
    in order. -/
theorem analysis_shown_in_full (history : List Change) (tree : FileTree) (document : Document)
    (strategy : Strategy) (output : String) :
    let reading := read strategy output
    let a := Analysis.ofOutput tree document strategy output
    let b := (empty.changeAll history).replaceWith a
    a.records = reading.records ∧
      a.diagnostics.map .ok = (reading.records.filter (·.Placed tree document)).map
        (·.resolve tree document) ∧
      a.dropped = reading.errors ++ (reading.records.filter (¬ ·.Placed tree document)).map
        (.unresolvablePath ·.file) ∧
      (∀ p, b.get p = a.diagnostics.filter (·.file.same p)) ∧
      b.total = a.diagnostics.length ∧
      b.size = (a.diagnostics.map (·.file.components)).toFinset.card ∧
      ∀ entry ∈ b.files, entry.2 ≠ [] ∧ entry.2 = a.diagnostics.filter (·.file.same entry.1) := by
  intro reading a b
  have shows : b.Shows a.diagnostics := replaceWith_shows _ a
  refine ⟨rfl, Analysis.ofOutput_diagnostics .., Analysis.ofOutput_dropped .., shows.get,
    shows.total, shows.size_eq, fun entry member => ?_⟩
  exact ⟨shows.none_empty entry member, shows.entry_eq member⟩

end Board

end ScoreDesk.Report
