import Mathlib
import ScoreDesk.Compile.Compiler
import ScoreDesk.Proofs.FilePlaces

namespace ScoreDesk

namespace FileTree

section Directory

variable {tree : FileTree} {target : Path} {name : String} {here dir place : Place}
  {components : List Component}

theorem node?_of_walk (some : components ≠ []) (walked : tree.walk here components = .ok place) :
    tree.node? here = .some .dir := by
  cases components with
  | nil => exact absurd rfl some
  | cons component rest =>
    cases held : tree.node? here with
    | none => cases component <;> simp [walk, held] at walked
    | some node =>
      cases node with
      | dir => rfl
      | file content => cases component <;> simp [walk, held] at walked

theorem walk_dirOrHere (named : target.fileName? = some name)
    (isDir : tree.node? here = some .dir) :
    tree.walk here target.dirOrHere.components =
      tree.walk here target.components.dropLast := by
  rw [Path.components_dirOrHere named]
  split
  · rename_i none
    rw [none]
    exact walk_here_eq_ok_iff.2 ⟨isDir, rfl⟩
  · rfl

theorem walk_absolute (absolute : target.isAbsolute = true)
    (isDir : tree.node? here = some .dir) : tree.walk here target.components =
      tree.walk [] (Path.relativeComponents false target.pieces) := by
  rw [Path.components_eq, absolute]
  simp [walk, isDir]

theorem find_own_directory_iff (named : target.fileName? = some name)
    (found : tree.find target.dirOrHere = .ok (dir, .dir)) :
    (tree.seenFrom dir).find target.dirOrHere = .ok (dir, .dir) ↔
      tree.walk dir target.components.dropLast = .ok dir := by
  obtain ⟨placed, isDir, -⟩ := find_eq_ok_iff.1 found
  obtain ⟨writable, -⟩ := place_eq_ok_iff.1 placed
  rw [find_eq_ok_iff, place_eq_ok_iff, walk_seenFrom, here_seenFrom, node?_seenFrom,
    walk_dirOrHere named isDir]
  simp [writable, isDir]

/-- A path that is read in its own directory leads to the same place as before exactly if it is
    absolute, or if the way to that directory, taken once more, leads back there. -/
theorem place_in_own_directory_iff (named : target.fileName? = some name)
    (found : tree.find target.dirOrHere = .ok (dir, .dir))
    (placed : tree.place target = .ok place) :
    (tree.seenFrom dir).place target = .ok place ↔ target.isAbsolute = true ∨
      (tree.seenFrom dir).find target.dirOrHere = .ok (dir, .dir) := by
  obtain ⟨placedDir, isDir, -⟩ := find_eq_ok_iff.1 found
  obtain ⟨-, walkedDir⟩ := place_eq_ok_iff.1 placedDir
  obtain ⟨writable, walked⟩ := place_eq_ok_iff.1 placed
  have all := (Path.dropSilent_of_fileName? named).2.2
  have parts : target.components = target.components.dropLast ++ [.name name] := by
    rw [all, List.dropLast_concat]
  have isDirHere : tree.node? tree.here = some .dir :=
    node?_of_walk (by rw [parts]; simp) walked
  -- Both ways go through the directory of the path, and then by its name.
  rw [walk_dirOrHere named isDirHere] at walkedDir
  have last : tree.walk dir [.name name] = .ok place := by
    rw [parts, walk_append, walkedDir] at walked
    exact walked
  obtain ⟨-, -, rfl⟩ := walk_name_eq_ok_iff.1 last
  rw [find_own_directory_iff named found, place_eq_ok_iff, walk_seenFrom, here_seenFrom]
  constructor
  · rintro ⟨-, again⟩
    by_cases absolute : target.isAbsolute = true
    · exact .inl absolute
    · rw [parts] at again
      obtain ⟨between, first, second⟩ := walk_append_eq_ok_iff.1 again
      obtain ⟨-, -, same⟩ := walk_name_eq_ok_iff.1 second
      obtain rfl := (List.append_inj' same rfl).1
      exact .inr first
  · rintro (absolute | returns)
    · rw [walk_absolute absolute isDir, ← walk_absolute absolute isDirHere]
      exact ⟨writable, walked⟩
    · rw [parts]
      exact ⟨writable, walk_append_eq_ok_iff.2 ⟨dir, returns, last⟩⟩

theorem length_of_walk_down (down : ∀ c ∈ components, c ≠ .up ∧ c ≠ .root)
    (walked : tree.walk here components = .ok place) :
    place.length = here.length + (components.filter (· ≠ .here)).length := by
  induction components generalizing here with
  | nil =>
    obtain rfl := Except.ok.inj walked
    rfl
  | cons component rest ih =>
    obtain ⟨first, later⟩ := List.forall_mem_cons.1 down
    rw [← List.singleton_append] at walked
    obtain ⟨between, step, walked⟩ := walk_append_eq_ok_iff.1 walked
    have behind := ih later walked
    cases component with
    | root => exact absurd rfl first.2
    | up => exact absurd rfl first.1
    | here =>
      obtain ⟨-, rfl⟩ := walk_here_eq_ok_iff.1 step
      simpa using behind
    | name text =>
      obtain ⟨-, -, rfl⟩ := walk_name_eq_ok_iff.1 step
      rw [behind]
      simp
      omega

end Directory

end FileTree

namespace Machine

variable {m m' : Machine} {program directory : Path} {args : List String} {input : String}
  {conduct : Conduct} {place : Place}

theorem find_of_startPlace (start : m.startPlace directory = .ok place) :
    m.tree.find directory = .ok (place, .dir) := by
  unfold startPlace at start
  cases found : m.tree.find directory with
  | error e => simp [found, bind, Except.bind] at start
  | ok entry =>
    obtain ⟨there, node⟩ := entry
    cases node <;> simp [found, bind, Except.bind] at start
    rw [start]

theorem call_of_launch (launched : m.launch program directory args input = (.ok conduct, m')) :
    ∃ call : Call, m'.calls = m.calls ++ [call] ∧ call.args = args ∧
      m.tree.find directory = .ok (call.directory, .dir) := by
  unfold launch at launched
  split at launched
  · cases launched
  · cases start : m.startPlace directory with
    | error e =>
      simp only [start] at launched
      cases launched
    | ok there =>
      simp only [start] at launched
      split at launched
      · cases launched
      · obtain ⟨-, rfl⟩ := Prod.mk.inj launched
        exact ⟨_, rfl, rfl, find_of_startPlace start⟩

end Machine

namespace Compile

section Launch

variable {c : Compiler} {m m' : Machine} {target : Path} {conduct : Conduct} {name : String}
  {place : Place}

theorem call_of_compiler_launch (launched : c.launch m target = (.ok conduct, m')) :
    ∃ call : Call, m'.calls = m.calls ++ [call] ∧ call.args = compileArgs c.additional target ∧
      m.tree.find (workingDirectory target) = .ok (call.directory, .dir) := by
  unfold Compiler.launch at launched
  cases ran : m.launch c.program (workingDirectory target) (compileArgs c.additional target) "" with
  | mk result after =>
    simp only [ran, Prod.mk.injEq] at launched
    obtain ⟨mapped, rfl⟩ := launched
    cases result with
    | error e => cases mapped
    | ok conduct' => exact Machine.call_of_launch ran

/-- The compiler that is started for a target finds it under the path that it is given exactly if
    the path is absolute, or if the way to its directory, taken once more from there, leads back. It
    does so where there is no such way, and never where the way only goes down. (The tree has no
    links: the way up from a directory is the way that led down to it.) -/
theorem argument_leads_to_target_iff (launched : c.launch m target = (.ok conduct, m'))
    (named : target.fileName? = some name) (placed : m.tree.place target = .ok place) :
    ∃ call : Call, m'.calls = m.calls ++ [call] ∧ call.args.getLast? = some target.text ∧
      ((m.tree.seenFrom call.directory).place target = .ok place ↔ target.isAbsolute = true ∨
        (m.tree.seenFrom call.directory).find (workingDirectory target) =
          .ok (call.directory, .dir)) ∧
      (target.components.dropLast = [] →
        (m.tree.seenFrom call.directory).place target = .ok place) ∧
      (target.isAbsolute = false → .up ∉ target.components.dropLast →
        (∃ dir, .name dir ∈ target.components.dropLast) →
        (m.tree.seenFrom call.directory).place target ≠ .ok place) := by
  obtain ⟨call, calls, args, found⟩ := call_of_compiler_launch launched
  have exact := FileTree.place_in_own_directory_iff named found placed
  have back := FileTree.find_own_directory_iff named found
  refine ⟨call, calls, ?_, exact, fun bare => exact.2 (.inr (back.2 ?_)), ?_⟩
  · rw [args, compileArgs, List.getLast?_concat]
  · rw [bare]
    rfl
  · rintro relative down ⟨dir, passed⟩ same
    rcases exact.1 same with absolute | returns
    · rw [relative] at absolute
      cases absolute
    · have noRoot : .root ∉ target.components := by
        rw [Path.components_eq, relative]
        exact Path.root_not_mem_relativeComponents _ _
      have only : ∀ c ∈ target.components.dropLast, c ≠ .up ∧ c ≠ .root := fun c member =>
        ⟨fun up => down (up ▸ member), fun root => noRoot (root ▸ List.mem_of_mem_dropLast member)⟩
      have length := FileTree.length_of_walk_down only (back.1 returns)
      have some : .name dir ∈ target.components.dropLast.filter (· ≠ .here) :=
        List.mem_filter.2 ⟨passed, by simp⟩
      have := List.length_pos_of_mem some
      omega

end Launch

def quietMachine (tree : FileTree) : Machine :=
  let lilypond : Program := fun _ tree => (.ends [] [] (some 0), tree)
  ⟨tree, { entries := [] }, .absent, [(["lilypond"], lilypond)], []⟩

def quietCompiler : Compiler := ⟨⟨"/lilypond"⟩, [], .empty, []⟩

theorem target_beside_is_found :
    let tree : FileTree := ⟨["home", "songs"], [(["lilypond"], .file []), (["home"], .dir),
      (["home", "parts"], .dir), (["home", "songs"], .dir),
      (["home", "parts", "violin.ly"], .file [])]⟩
    let target : Path := ⟨"../parts//violin.ly"⟩
    let place := ["home", "parts", "violin.ly"]
    tree.place target = .ok place ∧ ∃ call : Call,
      (quietCompiler.launch (quietMachine tree) target).2.calls = [call] ∧
        call.args.getLast? = some target.text ∧
        (tree.seenFrom call.directory).place target = .ok place := by
  intro tree target place
  let launched := quietCompiler.launch (quietMachine tree) target
  have answered : launched.1 = .ok (.ends [] [] (some 0)) := by decide +kernel
  have ran : launched = (.ok (.ends [] [] (some 0)), launched.2) := by rw [← answered]
  have named : target.fileName? = some "violin.ly" := by decide +kernel
  have placed : tree.place target = .ok place := by decide +kernel
  obtain ⟨call, calls, argument, exact, -⟩ := argument_leads_to_target_iff ran named placed
  have directory : call.directory = ["home", "parts"] := by
    have only : launched.2.calls =
        [⟨["--loglevel=WARNING", target.text], ["home", "parts"], ""⟩] := by
      decide +kernel
    rw [only] at calls
    rw [← (List.singleton_inj.1 calls)]
  refine ⟨placed, call, calls, argument, exact.2 (.inr ?_)⟩
  rw [directory]
  decide +kernel

/-- A target below the current directory is looked for below its own directory, where another file
    may stand under that name. -/
theorem target_below_is_missed :
    let tree : FileTree := ⟨["home"], [(["lilypond"], .file []), (["home"], .dir),
      (["home", "parts"], .dir), (["home", "parts", "violin.ly"], .file []),
      (["home", "parts", "parts"], .dir), (["home", "parts", "parts", "violin.ly"], .file [])]⟩
    let target : Path := ⟨"parts/violin.ly"⟩
    tree.place target = .ok ["home", "parts", "violin.ly"] ∧
      (quietCompiler.launch (quietMachine tree) target).2.calls =
        [⟨["--loglevel=WARNING", "parts/violin.ly"], ["home", "parts"], ""⟩] ∧
      (tree.seenFrom ["home", "parts"]).place target =
        .ok ["home", "parts", "parts", "violin.ly"] := by
  refine ⟨by decide +kernel, by decide +kernel, by decide +kernel⟩

end Compile

end ScoreDesk
