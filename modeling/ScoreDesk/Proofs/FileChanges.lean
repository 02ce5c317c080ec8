import Mathlib
import ScoreDesk.Proofs.FilePlaces

namespace ScoreDesk.FileTree

def Rooted (tree : FileTree) : Prop :=
  ∀ entry ∈ tree.nodes, tree.node? entry.1.dropLast = some .dir

instance : DecidablePred Rooted := fun tree =>
  inferInstanceAs (Decidable (∀ entry ∈ tree.nodes, tree.node? entry.1.dropLast = some .dir))

def HoldsFile (tree : FileTree) (place : Place) : Prop :=
  ∃ content, tree.node? place = some (.file content)

structure SameDirectories (tree later : FileTree) : Prop where
  here : later.here = tree.here
  dir : ∀ place, later.node? place = some .dir ↔ tree.node? place = some .dir

section Nodes

variable {tree : FileTree} {place other : Place} {node : Node} {name : String}

@[simp] theorem node?_nil (tree : FileTree) : tree.node? [] = some .dir := rfl

theorem node?_of_ne_nil (full : place ≠ []) : tree.node? place = tree.nodes.lookup place := by
  simp [node?, full]

theorem HoldsFile.ne_nil (held : tree.HoldsFile place) : place ≠ [] := by
  rintro rfl
  obtain ⟨content, file⟩ := held
  cases file

theorem HoldsFile.not_dir (held : tree.HoldsFile place) : tree.node? place ≠ some .dir := by
  obtain ⟨content, file⟩ := held
  simp [file]

theorem lookup_replaced (nodes : List (Place × Node)) (place : Place) (node : Node)
    (other : Place) :
    (nodes.map fun entry => if entry.1 = place then (place, node) else entry).lookup other =
      if other = place then (nodes.lookup place).map fun _ => node else nodes.lookup other := by
  induction nodes with
  | nil => simp
  | cons entry rest ih =>
    obtain ⟨key, held⟩ := entry
    rw [List.map_cons]
    by_cases replaced : key = place
    · subst replaced
      rw [if_pos rfl, List.lookup_cons, ih]
      by_cases same : other = key
      · simp [same]
      · simp [same, beq_eq_false_iff_ne.2 same, List.lookup_cons]
    · rw [if_neg replaced, List.lookup_cons, ih]
      by_cases same : other = place
      · subst same
        simp [List.lookup_cons, beq_eq_false_iff_ne.2 (Ne.symm replaced)]
      · simp [same, List.lookup_cons]

theorem node?_put (full : place ≠ []) :
    (tree.put place node).node? other = if other = place then some node else tree.node? other := by
  by_cases root : other = []
  · subst root
    rw [if_neg full.symm]
    rfl
  rw [node?_of_ne_nil root, node?_of_ne_nil root, put]
  split
  · rename_i there
    rw [lookup_replaced]
    have found : ∃ held, tree.nodes.lookup place = some held := by
      rw [← Option.ne_none_iff_exists', ne_eq, List.lookup_eq_none_iff]
      intro absent
      obtain ⟨entry, inside, same⟩ := List.any_eq_true.1 there
      exact absurd (beq_iff_eq.1 same).symm (bne_iff_ne.1 (absent entry inside))
    obtain ⟨held, found⟩ := found
    rw [found]
    rfl
  · rename_i missing
    rw [List.lookup_append]
    by_cases same : other = place
    · subst same
      have absent : tree.nodes.lookup other = none := by
        rw [List.lookup_eq_none_iff]
        intro entry inside
        refine bne_iff_ne.2 fun same => missing ?_
        exact List.any_eq_true.2 ⟨entry, inside, beq_iff_eq.2 same.symm⟩
      simp [absent]
    · simp [same, List.lookup_cons, beq_eq_false_iff_ne.2 same]

theorem lookup_filter_key (keeps : Place → Bool) (nodes : List (Place × Node)) (other : Place) :
    (nodes.filter fun entry => keeps entry.1).lookup other =
      if keeps other then nodes.lookup other else none := by
  induction nodes with
  | nil => simp
  | cons entry rest ih =>
    obtain ⟨key, held⟩ := entry
    by_cases same : other = key
    · subst same
      cases kept : keeps other <;> simp [kept, ih]
    · have differs : (other == key) = false := beq_eq_false_iff_ne.2 same
      cases kept : keeps key <;> simp [kept, ih, List.lookup_cons, differs]

theorem node?_erase (kept : ¬ place <+: other) :
    (tree.erase place).node? other = tree.node? other := by
  by_cases root : other = []
  · subst root
    rfl
  rw [node?_of_ne_nil root, node?_of_ne_nil root, erase, lookup_filter_key fun key =>
    !place.isPrefixOf key]
  simp [kept]

theorem node?_erase_self (full : place ≠ []) : (tree.erase place).node? place = none := by
  rw [node?_of_ne_nil full, erase, lookup_filter_key fun key => !place.isPrefixOf key]
  simp

end Nodes

namespace Rooted

variable {tree : FileTree} {place other : Place} {node : Node} {content : Text.Bytes}

theorem dir_of_node (rooted : tree.Rooted) {name : String}
    (held : tree.node? (place ++ [name]) = some node) : tree.node? place = some .dir := by
  rw [node?_of_ne_nil (by simp), List.lookup_eq_some_iff] at held
  obtain ⟨front, back, split, -⟩ := held
  have parent := rooted (place ++ [name], node) (by simp [split])
  rwa [List.dropLast_concat] at parent

theorem dir_of_below (rooted : tree.Rooted) {below : Place} (proper : below ≠ [])
    (held : tree.node? (place ++ below) = some node) : tree.node? place = some .dir := by
  induction below using List.reverseRecOn generalizing node with
  | nil => exact absurd rfl proper
  | append_singleton between name ih =>
    rw [← List.append_assoc] at held
    have parent := rooted.dir_of_node held
    by_cases last : between = []
    · rwa [last, List.append_nil] at parent
    · exact ih last parent

theorem node?_erase_file (rooted : tree.Rooted) (file : tree.HoldsFile place)
    (elsewhere : other ≠ place) : (tree.erase place).node? other = tree.node? other := by
  by_cases below : place <+: other
  · obtain ⟨rest, rfl⟩ := below
    have proper : rest ≠ [] := by simpa using elsewhere
    have free : tree.node? (place ++ rest) = none := by
      by_contra held
      obtain ⟨node, held⟩ := Option.ne_none_iff_exists'.1 held
      exact file.not_dir (rooted.dir_of_below proper held)
    have gone : (place ++ rest : Place) ≠ [] := by simp [proper]
    rw [free, node?_of_ne_nil gone, erase, lookup_filter_key fun key => !place.isPrefixOf key]
    simp
  · exact node?_erase below

theorem put (rooted : tree.Rooted) (parent : tree.node? place.dropLast = some .dir)
    (free : tree.node? place ≠ some .dir) : (tree.put place (.file content)).Rooted := by
  have full : place ≠ [] := by
    rintro rfl
    exact free rfl
  have kept {dir : Place} (isDir : tree.node? dir = some .dir) :
      (tree.put place (.file content)).node? dir = some .dir := by
    rw [node?_put full, if_neg, isDir]
    rintro rfl
    exact free isDir
  intro entry inside
  have cases : entry ∈ tree.nodes ∨ entry.1 = place := by
    unfold FileTree.put at inside
    split at inside
    · obtain ⟨old, among, replaced⟩ := List.mem_map.1 inside
      split at replaced
      · exact .inr (by rw [← replaced])
      · exact .inl (replaced ▸ among)
    · rcases List.mem_append.1 inside with old | new
      · exact .inl old
      · exact .inr (by rw [List.mem_singleton.1 new])
  rcases cases with old | rfl
  · exact kept (rooted entry old)
  · exact kept parent

theorem erase (rooted : tree.Rooted) (place : Place) : (tree.erase place).Rooted := by
  intro entry inside
  obtain ⟨old, outside⟩ := List.mem_filter.1 inside
  rw [Bool.not_eq_true', ← Bool.not_eq_true, List.isPrefixOf_iff_prefix] at outside
  rw [node?_erase fun below => outside (below.trans (List.dropLast_prefix _))]
  exact rooted entry old

end Rooted

namespace SameDirectories

variable {tree later last : FileTree} {place here : Place} {path : Path}

theorem refl (tree : FileTree) : tree.SameDirectories tree := ⟨rfl, fun _ => .rfl⟩

theorem trans (first : tree.SameDirectories later) (second : later.SameDirectories last) :
    tree.SameDirectories last :=
  ⟨second.here.trans first.here, fun place => (second.dir place).trans (first.dir place)⟩

theorem put {content : Text.Bytes} (free : tree.node? place ≠ some .dir) :
    tree.SameDirectories (tree.put place (.file content)) where
  here := by
    unfold FileTree.put
    split <;> rfl
  dir other := by
    have full : place ≠ [] := by
      rintro rfl
      exact free rfl
    rw [node?_put full]
    split
    · rename_i same
      simp [same, free]
    · rfl

theorem erase (rooted : tree.Rooted) (file : tree.HoldsFile place) :
    tree.SameDirectories (tree.erase place) where
  here := rfl
  dir other := by
    by_cases same : other = place
    · subst same
      simp [node?_erase_self file.ne_nil, file.not_dir]
    · rw [rooted.node?_erase_file file same]

theorem walk_iff (same : tree.SameDirectories later) (components : List Component) :
    later.walk here components = .ok place ↔ tree.walk here components = .ok place := by
  induction components generalizing here with
  | nil => rfl
  | cons component rest ih =>
    by_cases dir : tree.node? here = some .dir
    · have stays := (same.dir here).2 dir
      cases component with
      | name text =>
        simp only [walk, dir, stays]
        split
        · rfl
        · exact ih
      | _ =>
        simp only [walk, dir, stays]
        exact ih
    · have blocked {tree : FileTree} (dir : tree.node? here ≠ some .dir) :
          tree.walk here (component :: rest) ≠ .ok place := by
        cases held : tree.node? here with
        | none => cases component <;> simp [walk, held]
        | some node =>
          cases node with
          | dir => exact absurd held dir
          | file content => cases component <;> simp [walk, held]
      exact iff_of_false (blocked fun later => dir ((same.dir here).1 later)) (blocked dir)

theorem place_iff (same : tree.SameDirectories later) :
    later.place path = .ok place ↔ tree.place path = .ok place := by
  rw [place_eq_ok_iff, place_eq_ok_iff, same.here, same.walk_iff]

theorem find_dir_iff (same : tree.SameDirectories later) :
    later.find path = .ok (place, .dir) ↔ tree.find path = .ok (place, .dir) := by
  rw [find_eq_ok_iff, find_eq_ok_iff, same.place_iff, same.dir]

end SameDirectories

end ScoreDesk.FileTree
