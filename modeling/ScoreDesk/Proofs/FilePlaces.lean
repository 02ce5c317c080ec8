import Mathlib
import ScoreDesk.FileTree
import ScoreDesk.Proofs.PathParts

namespace ScoreDesk.FileTree

def seenFrom (tree : FileTree) (here : Place) : FileTree :=
  { tree with here }

@[simp] theorem here_seenFrom (tree : FileTree) (here : Place) : (tree.seenFrom here).here = here :=
  rfl

@[simp] theorem node?_seenFrom (tree : FileTree) (here place : Place) :
    (tree.seenFrom here).node? place = tree.node? place :=
  rfl

section Walks

variable {tree : FileTree} {here place : Place} {name : String} {before after : List Component}

@[simp] theorem walk_seenFrom (tree : FileTree) (here place : Place) (components : List Component) :
    (tree.seenFrom here).walk place components = tree.walk place components := by
  induction components generalizing place with
  | nil => rfl
  | cons component rest ih =>
    cases component <;> simp only [walk, node?_seenFrom, ih]

theorem walk_append (tree : FileTree) (place : Place) (before after : List Component) :
    tree.walk place (before ++ after) =
      (tree.walk place before).bind fun between => tree.walk between after := by
  induction before generalizing place with
  | nil => rfl
  | cons component rest ih =>
    rw [List.cons_append]
    cases held : tree.node? place with
    | none => cases component <;> simp only [walk, held] <;> rfl
    | some node =>
      cases node with
      | file content => cases component <;> simp only [walk, held] <;> rfl
      | dir =>
        cases component with
        | name text =>
          simp only [walk, held, ih]
          split <;> rfl
        | _ => simp only [walk, held, ih]

theorem walk_append_eq_ok_iff : tree.walk here (before ++ after) = .ok place ↔
    ∃ between, tree.walk here before = .ok between ∧ tree.walk between after = .ok place := by
  rw [walk_append]
  cases tree.walk here before with
  | error e => simp [Except.bind]
  | ok between => simp [Except.bind]

theorem walk_name_eq_ok_iff : tree.walk here [.name name] = .ok place ↔
    tree.node? here = some .dir ∧ name.utf8ByteSize ≤ maxNameBytes ∧ place = here ++ [name] := by
  rw [walk]
  cases tree.node? here with
  | none => simp
  | some node =>
    cases node with
    | file content => simp
    | dir =>
      dsimp only
      split
      · rename_i long
        simp [Nat.not_le.2 long]
      · rename_i short
        simp [walk, Nat.not_lt.1 short, eq_comm]

theorem walk_here_eq_ok_iff : tree.walk here [.here] = .ok place ↔
    tree.node? here = some .dir ∧ place = here := by
  rw [walk]
  cases tree.node? here with
  | none => simp
  | some node => cases node <;> simp [walk, eq_comm]

end Walks

section Lookups

variable {tree : FileTree} {path : Path} {place : Place} {node : Node} {content : Text.Bytes}

/-- A text that a path may be written as, as far as the system is concerned. -/
structure Writable (text : String) : Prop where
  full : text.isEmpty = false
  noNul : holdsNul text = false
  short : text.utf8ByteSize ≤ maxPathBytes

theorem Writable.of_append {front behind : String} (writable : Writable (front ++ behind))
    (full : front.isEmpty = false) : Writable front := by
  obtain ⟨-, noNul, short⟩ := writable
  refine ⟨full, ?_, ?_⟩
  · have both : holdsNul front = false ∧ holdsNul behind = false := by
      simpa [holdsNul] using noNul
    exact both.1
  · rw [String.utf8ByteSize_append] at short
    omega

theorem writable_join_iff {dir : Path} {name : String} (full : dir.text.isEmpty = false)
    (proper : Path.IsFileName name) (clean : holdsNul name = false) :
    Writable (dir.join ⟨name⟩).text ↔
      Writable dir.text ∧ (dir.join ⟨name⟩).text.utf8ByteSize ≤ maxPathBytes := by
  constructor
  · intro writable
    refine ⟨?_, writable.short⟩
    obtain ⟨between, text⟩ := Path.exists_join_text full
    rw [text name proper, String.append_assoc] at writable
    exact writable.of_append full
  · rintro ⟨writable, short⟩
    refine ⟨?_, ?_, short⟩
    · rw [Path.join_relative proper]
      split_ifs <;> simp [proper.nonempty]
    · have front := writable.noNul
      rw [Path.join_relative proper, full]
      unfold holdsNul at front clean ⊢
      split_ifs <;> simp_all

theorem place_eq_ok_iff : tree.place path = .ok place ↔
    Writable path.text ∧ tree.walk tree.here path.components = .ok place := by
  unfold FileTree.place
  constructor
  · intro found
    split_ifs at found with empty nul long
    exact ⟨⟨Bool.eq_false_of_not_eq_true empty, Bool.eq_false_of_not_eq_true nul,
      Nat.not_lt.1 long⟩, found⟩
  · rintro ⟨⟨full, noNul, short⟩, walked⟩
    rw [if_neg (by simp [full]), if_neg (by simp [noNul]), if_neg (Nat.not_lt.2 short), walked]

theorem find_eq_ok_iff : tree.find path = .ok (place, node) ↔
    tree.place path = .ok place ∧ tree.node? place = some node ∧
      (path.demandsDirectory = true → node = .dir) := by
  unfold find
  cases found : tree.place path with
  | error e => simp [bind, Except.bind]
  | ok there =>
    simp only [bind, Except.bind, Except.ok.injEq]
    cases held : tree.node? there with
    | none =>
      refine iff_of_false (by simp) ?_
      rintro ⟨rfl, none, -⟩
      simp [held] at none
    | some other =>
      cases other with
      | dir =>
        simp only [Except.ok.injEq, Prod.mk.injEq]
        constructor
        · rintro ⟨rfl, rfl⟩
          exact ⟨rfl, held, fun _ => rfl⟩
        · rintro ⟨rfl, same, -⟩
          exact ⟨rfl, Option.some.inj (held.symm.trans same)⟩
      | file content =>
        dsimp only
        split
        · rename_i demands
          refine iff_of_false (by simp) ?_
          rintro ⟨rfl, same, dir⟩
          rw [held, dir demands] at same
          cases same
        · rename_i free
          simp only [Except.ok.injEq, Prod.mk.injEq]
          constructor
          · rintro ⟨rfl, rfl⟩
            exact ⟨rfl, held, fun demands => absurd demands free⟩
          · rintro ⟨rfl, same, -⟩
            exact ⟨rfl, Option.some.inj (held.symm.trans same)⟩

theorem read_eq_ok_iff : tree.read path = .ok content ↔
    ∃ place, tree.find path = .ok (place, .file content) := by
  unfold read
  cases found : tree.find path with
  | error e => simp [bind, Except.bind]
  | ok entry =>
    obtain ⟨there, node⟩ := entry
    cases node <;> simp [bind, Except.bind]

theorem isFile_iff : tree.isFile path = true ↔ ∃ content, tree.read path = .ok content := by
  simp only [read_eq_ok_iff]
  unfold isFile
  cases found : tree.find path with
  | error e => simp
  | ok entry =>
    obtain ⟨there, node⟩ := entry
    cases node <;> simp

def Proper (tree : FileTree) : Prop :=
  ∀ entry ∈ tree.nodes, ∀ name ∈ entry.1, Path.IsFileName name

instance : DecidablePred Proper := fun tree =>
  inferInstanceAs (Decidable (∀ entry ∈ tree.nodes, ∀ name ∈ entry.1, Path.IsFileName name))

theorem list_eq_ok_iff {names : List String} : tree.list path = .ok names ↔
    ∃ place, tree.find path = .ok (place, .dir) ∧
      names = tree.nodes.filterMap fun entry =>
        if entry.1.dropLast = place ∧ entry.1 ≠ [] then entry.1.getLast? else none := by
  unfold list
  cases found : tree.find path with
  | error e => simp [bind, Except.bind]
  | ok entry =>
    obtain ⟨there, node⟩ := entry
    cases node <;> simp [bind, Except.bind, eq_comm]

theorem Proper.isFileName_of_listed {names : List String} {name : String} (proper : tree.Proper)
    (listed : tree.list path = .ok names) (member : name ∈ names) : Path.IsFileName name := by
  obtain ⟨place, -, rfl⟩ := list_eq_ok_iff.1 listed
  obtain ⟨entry, inside, last⟩ := List.mem_filterMap.1 member
  split_ifs at last
  exact proper entry inside name (List.mem_of_getLast? last)

theorem exists_listed_of_read {source : Path} {name : String} (proper : Path.IsFileName name)
    (held : tree.read (source.dirOrHere.join ⟨name⟩) = .ok content) :
    ∃ names, tree.list source.dirOrHere = .ok names ∧ name ∈ names := by
  obtain ⟨place, found⟩ := read_eq_ok_iff.1 held
  obtain ⟨placed, node, -⟩ := find_eq_ok_iff.1 found
  obtain ⟨writable, walked⟩ := place_eq_ok_iff.1 placed
  rw [Path.components_join source proper] at walked
  obtain ⟨dir, before, last⟩ := walk_append_eq_ok_iff.1 walked
  obtain ⟨isDir, -, rfl⟩ := walk_name_eq_ok_iff.1 last
  obtain ⟨between, text⟩ := Path.exists_join_text source.isEmpty_dirOrHere
  rw [text name proper, String.append_assoc] at writable
  have placedDir : tree.place source.dirOrHere = .ok dir :=
    place_eq_ok_iff.2 ⟨writable.of_append source.isEmpty_dirOrHere, before⟩
  have foundDir : tree.find source.dirOrHere = .ok (dir, .dir) :=
    find_eq_ok_iff.2 ⟨placedDir, isDir, fun _ => rfl⟩
  refine ⟨_, list_eq_ok_iff.2 ⟨dir, foundDir, rfl⟩, List.mem_filterMap.2 ?_⟩
  have inside : tree.nodes.lookup (dir ++ [name]) = some (.file content) := by
    simpa [node?] using node
  obtain ⟨front, back, split, -⟩ := List.lookup_eq_some_iff.1 inside
  refine ⟨(dir ++ [name], .file content), ?_, ?_⟩
  · rw [split]
    simp
  · simp

end Lookups

end ScoreDesk.FileTree
