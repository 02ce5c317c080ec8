import Mathlib
import ScoreDesk.Proofs.Check.Jobs
import ScoreDesk.Proofs.FileChanges
import ScoreDesk.Proofs.Runs

namespace ScoreDesk.Check

open Compile (CompileError)
open Report (Document)

/-- Whether the temporary file in a directory can be named for its removal. The compiler, which
    works in the directory itself, can write it anyhow. -/
def InReach (dir : Path) : Prop :=
  (dir.join temporaryName).text.utf8ByteSize ≤ FileTree.maxPathBytes

instance : DecidablePred InReach := fun dir =>
  inferInstanceAs (Decidable ((dir.join temporaryName).text.utf8ByteSize ≤ FileTree.maxPathBytes))

def Turn.isOwn : Turn → Bool
  | .drift _ => false
  | _ => true

/-- What is done to the files of a tree while its directories stay: which of them are made, and
    which are removed. -/
structure FilesChange (tree later : FileTree) (makes removes : Place → Prop) : Prop where
  rooted : later.Rooted
  directories : tree.SameDirectories later
  files : ∀ place, later.HoldsFile place ↔
    makes place ∨ tree.HoldsFile place ∧ ¬ removes place

section Files

variable {tree later : FileTree} {dir : Path} {place : Place}

theorem FilesChange.none (rooted : tree.Rooted) {makes removes : Place → Prop}
    (nothing : ∀ place, ¬ makes place)
    (kept : ∀ place, tree.HoldsFile place → ¬ removes place) :
    FilesChange tree tree makes removes where
  rooted := rooted
  directories := .refl tree
  files place := by simpa [nothing] using kept place

theorem FilesChange.of_iff {makes removes makes' removes' : Place → Prop}
    (change : FilesChange tree later makes removes) (made : ∀ place, makes' place ↔ makes place)
    (removed : ∀ place, removes' place ↔ removes place) :
    FilesChange tree later makes' removes' where
  rooted := change.rooted
  directories := change.directories
  files place := by rw [change.files, made, removed]

theorem isFileName_temporaryName : Path.IsFileName temporaryName.text := by
  decide

theorem temporaryPlace?_eq_some_iff : temporaryPlace? tree dir = some place ↔
    ∃ inside, tree.find dir = .ok (inside, .dir) ∧ place = inside ++ [temporaryName.text] := by
  unfold temporaryPlace?
  split
  · rename_i inside found
    simp [found, eq_comm]
  · rename_i other
    refine iff_of_false (by simp) ?_
    rintro ⟨inside, found, -⟩
    exact other inside found

theorem temporaryPlace?_eq_of_same (same : tree.SameDirectories later) (dir : Path) :
    temporaryPlace? later dir = temporaryPlace? tree dir := by
  refine Option.ext fun place => ?_
  simp only [temporaryPlace?_eq_some_iff, same.find_dir_iff]

theorem leaveTemporary_change (rooted : tree.Rooted) (dir : Path) :
    FilesChange tree (leaveTemporary tree dir)
      (fun place => temporaryPlace? tree dir = some place ∧ tree.node? place ≠ some .dir)
      (fun _ => False) := by
  unfold leaveTemporary
  cases there : temporaryPlace? tree dir with
  | none => exact .none rooted (by simp) (by simp)
  | some place =>
    dsimp only
    split
    · rename_i taken
      refine .none rooted ?_ (by simp)
      rintro _ ⟨same, free⟩
      obtain rfl := Option.some.inj same
      exact free taken
    · rename_i free
      obtain ⟨inside, found, named⟩ := temporaryPlace?_eq_some_iff.1 there
      obtain ⟨-, isDir, -⟩ := FileTree.find_eq_ok_iff.1 found
      have full : place ≠ [] := by simp [named]
      refine ⟨rooted.put (by simpa [named] using isDir) free, .put free, fun other => ?_⟩
      by_cases same : other = place
      · subst same
        simp [FileTree.HoldsFile, FileTree.node?_put full, free]
      · simp [FileTree.HoldsFile, FileTree.node?_put full, same, Ne.symm same]

theorem demandsDirectory_temporary (dir : Path) :
    (dir.join temporaryName).demandsDirectory = false := by
  unfold Path.demandsDirectory
  rw [show temporaryName = ⟨temporaryName.text⟩ from rfl,
    Path.join_relative isFileName_temporaryName]
  split_ifs <;> simp [temporaryName]

theorem find_temporary_iff {content : Text.Bytes} (document : Document) :
    tree.find (document.dir.join temporaryName) = .ok (place, .file content) ↔
      (temporaryPlace? tree document.dir = some place ∧ InReach document.dir) ∧
        tree.node? place = some (.file content) := by
  have writable_iff : FileTree.Writable (document.dir.join temporaryName).text ↔
      FileTree.Writable document.dir.text ∧ InReach document.dir :=
    FileTree.writable_join_iff document.path.isEmpty_dirOrHere isFileName_temporaryName (by decide)
  have components : (document.dir.join temporaryName).components =
      document.dir.components ++ [.name temporaryName.text] :=
    document.path.components_join isFileName_temporaryName
  rw [FileTree.find_eq_ok_iff, FileTree.place_eq_ok_iff, writable_iff, components,
    FileTree.walk_append_eq_ok_iff, temporaryPlace?_eq_some_iff]
  constructor
  · rintro ⟨⟨⟨writable, reach⟩, inside, before, last⟩, file, -⟩
    obtain ⟨isDir, -, rfl⟩ := FileTree.walk_name_eq_ok_iff.1 last
    have placed := FileTree.place_eq_ok_iff.2 ⟨writable, before⟩
    exact ⟨⟨⟨inside, FileTree.find_eq_ok_iff.2 ⟨placed, isDir, fun _ => rfl⟩, rfl⟩, reach⟩, file⟩
  · rintro ⟨⟨⟨inside, found, rfl⟩, reach⟩, file⟩
    obtain ⟨placed, isDir, -⟩ := FileTree.find_eq_ok_iff.1 found
    obtain ⟨writable, before⟩ := FileTree.place_eq_ok_iff.1 placed
    have short : temporaryName.text.utf8ByteSize ≤ FileTree.maxNameBytes := by decide
    have last := FileTree.walk_name_eq_ok_iff.2 ⟨isDir, short, rfl⟩
    refine ⟨⟨⟨writable, reach⟩, inside, before, last⟩, file, fun demands => ?_⟩
    rw [demandsDirectory_temporary] at demands
    cases demands

theorem tidy_change (rooted : tree.Rooted) (document : Document) :
    FilesChange tree (tidy tree document.dir) (fun _ => False)
      (fun place => temporaryPlace? tree document.dir = some place ∧ InReach document.dir) := by
  have kept (found : ∀ place content,
      tree.find (document.dir.join temporaryName) ≠ .ok (place, .file content)) :
      FilesChange tree tree (fun _ => False)
        (fun place => temporaryPlace? tree document.dir = some place ∧ InReach document.dir) := by
    refine .none rooted (by simp) ?_
    rintro place ⟨content, file⟩ removed
    exact found place content ((find_temporary_iff document).2 ⟨removed, file⟩)
  unfold tidy removeTemporary FileTree.remove
  cases found : tree.find (document.dir.join temporaryName) with
  | error e =>
    have unchanged := kept (by simp [found])
    cases e <;> exact unchanged
  | ok entry =>
    obtain ⟨place, node⟩ := entry
    cases node with
    | dir => exact kept (by simp [found])
    | file content =>
      obtain ⟨⟨there, reach⟩, node⟩ := (find_temporary_iff document).1 found
      have file : tree.HoldsFile place := ⟨content, node⟩
      refine ⟨rooted.erase place, .erase rooted file, fun other => ?_⟩
      change (tree.erase place).HoldsFile other ↔ _
      unfold FileTree.HoldsFile
      by_cases same : other = place
      · subst same
        simp [FileTree.node?_erase_self file.ne_nil, there, reach]
      · simp [rooted.node?_erase_file file same, there, Ne.symm same]

end Files

namespace Session

def LeavesAt (s : Session) (i : Nat) (document : Document) (place : Place) : Prop :=
  s.running? i = some document ∧ temporaryPlace? s.tree document.dir = some place ∧
    s.tree.node? place ≠ some .dir

def Leaves (s : Session) (t : Turn) (place : Place) : Prop :=
  ∃ i document, t = .litter i ∧ s.LeavesAt i document place

def Tidies (s : Session) (t : Turn) (place : Place) : Prop :=
  ∃ i result document, t = .finish i result ∧ s.running? i = some document ∧
    temporaryPlace? s.tree document.dir = some place ∧ InReach document.dir

section Turns

variable {s : Session} {i : Nat} {document : Document} {place : Place}

@[simp] theorem abandon_tree (s : Session) : s.abandon.tree = s.tree := by
  unfold abandon
  split <;> rfl

@[simp] theorem cancel_tree (s : Session) : s.cancel.tree = s.tree := by
  unfold cancel
  split <;> rfl

theorem close_tree (s : Session) (file : Path) : (s.close file).tree = s.tree := by
  unfold close
  dsimp only
  split <;> simp

theorem pass_tree (s : Session) (ms : Nat) : (s.pass ms).tree = s.tree := by
  unfold pass
  split <;> rfl

theorem finish_tree (running : s.running? i = some document)
    (result : Except CompileError String) :
    (s.finish i result).tree = tidy s.tree document.dir := by
  simp only [finish, running]
  cases result <;> rfl

/-- All that a turn does to the files, unless others change them. -/
theorem turn_change (rooted : s.tree.Rooted) {t : Turn} (own : t.isOwn = true) :
    FilesChange s.tree (s.turn t).tree (s.Leaves t) (s.Tidies t) := by
  have unchanged {later : FileTree} (same : later = s.tree) (nothing : ∀ place, ¬ s.Leaves t place)
      (kept : ∀ place, ¬ s.Tidies t place) :
      FilesChange s.tree later (s.Leaves t) (s.Tidies t) := by
    rw [same]
    exact .none rooted nothing fun place _ => kept place
  cases t with
  | trigger document =>
    exact unchanged (by simp [turn, trigger]) (by simp [Leaves]) (by simp [Tidies])
  | checkNow document =>
    exact unchanged (by simp [turn, begin]) (by simp [Leaves]) (by simp [Tidies])
  | close file => exact unchanged (s.close_tree file) (by simp [Leaves]) (by simp [Tidies])
  | abandon => exact unchanged s.abandon_tree (by simp [Leaves]) (by simp [Tidies])
  | ring i => exact unchanged rfl (by simp [Leaves]) (by simp [Tidies])
  | wait ms => exact unchanged (s.pass_tree ms) (by simp [Leaves]) (by simp [Tidies])
  | drift change => cases own
  | litter i =>
    cases running : s.running? i with
    | none =>
      exact unchanged (by simp only [turn, litter, running]) (by simp [Leaves, LeavesAt, running])
        (by simp [Tidies])
    | some document =>
      have later : (s.turn (.litter i)).tree = leaveTemporary s.tree document.dir := by
        simp only [turn, litter, running]
      rw [later]
      exact (leaveTemporary_change rooted document.dir).of_iff
        (by simp [Leaves, LeavesAt, running]) (by simp [Tidies])
  | finish i result =>
    cases running : s.running? i with
    | none =>
      exact unchanged (by simp only [turn, finish, running]) (by simp [Leaves])
        (by simp [Tidies, running])
    | some document =>
      rw [turn, finish_tree running]
      exact (tidy_change rooted document).of_iff (by simp [Leaves]) (by simp [Tidies, running])

theorem run_directories {turns : List Turn} (rooted : s.tree.Rooted)
    (own : ∀ t ∈ turns, t.isOwn = true) :
    (s.run turns).tree.Rooted ∧ s.tree.SameDirectories (s.run turns).tree := by
  induction turns generalizing s with
  | nil => exact ⟨rooted, .refl s.tree⟩
  | cons t rest ih =>
    obtain ⟨first, own⟩ := List.forall_mem_cons.1 own
    have change := turn_change rooted first
    obtain ⟨later, same⟩ := ih change.rooted own
    exact ⟨later, change.directories.trans same⟩

theorem run_of_running (found : s.jobs[i]? = some { document, stage := .running })
    (turns : List Turn) :
    (s.run turns).jobs[i]? = some { document, stage := .running } ∨
      (s.run turns).jobs[i]? = some { document, stage := .running, aborted := true } ∨
      ∃ early result late, turns = early ++ .finish i result :: late ∧
        (s.run early).running? i = some document := by
  induction turns using List.reverseRecOn with
  | nil => exact .inl found
  | append_singleton turns t ih =>
    rw [run_append, run_cons, run_nil]
    rcases ih with still | stopped | ⟨early, result, late, rfl, running⟩
    · obtain ⟨job, after, becomes⟩ := becomes_turn still t
      cases becomes with
      | same => exact .inl after
      | aborted => exact .inr (.inl after)
      | woken => exact .inl after
      | ended running => exact .inr (.inr ⟨turns, _, [], rfl, running⟩)
    · exact .inr (.inl (dead_turn stopped rfl t))
    · exact .inr (.inr ⟨early, result, late ++ [t], by simp, running⟩)

theorem stopped_of_not_tidied {turns : List Turn} (rooted : s.tree.Rooted)
    (own : ∀ t ∈ turns, t.isOwn = true) (running : s.running? i = some document)
    (there : temporaryPlace? s.tree document.dir = some place)
    (kept : Throughout turn s turns fun s t => ¬ s.Tidies t place)
    (resting : ∀ job ∈ (s.run turns).jobs, job.isLive = false) :
    (s.run turns).jobs[i]? = some { document, stage := .running, aborted := true } ∨
      ¬ InReach document.dir := by
  rcases run_of_running (running?_eq_some running) turns with still | stopped |
    ⟨early, result, late, rfl, running⟩
  · exact absurd (resting _ (List.mem_of_getElem? still)) (by simp [Job.isLive])
  · exact .inl stopped
  · obtain ⟨-, same⟩ := run_directories rooted (List.forall_mem_append.1 own).1
    refine .inr fun reach => kept early _ late rfl ⟨i, result, document, rfl, running, ?_, reach⟩
    exact (temporaryPlace?_eq_of_same same _).trans there

end Turns

/-- A file stands somewhere when no check is at work exactly if a check has put it there, or it was
    there at first, and no check that came back since then has removed it. Such a check was stopped
    before it came back, or its file was out of reach. -/
theorem file_stays_iff_not_tidied {s : Session} {turns : List Turn} (rooted : s.tree.Rooted)
    (own : ∀ t ∈ turns, t.isOwn = true)
    (resting : ∀ job ∈ (s.run turns).jobs, job.isLive = false) (place : Place) :
    (s.run turns).tree.HoldsFile place ↔
      (∃ early i document late, turns = early ++ .litter i :: late ∧
        (s.run early).LeavesAt i document place ∧
        ((s.run turns).jobs[i]? = some { document, stage := .running, aborted := true } ∨
          ¬ InReach document.dir) ∧
        Throughout turn ((s.run early).litter i) late fun s t => ¬ s.Tidies t place) ∨
      s.tree.HoldsFile place ∧ Throughout turn s turns fun s t => ¬ s.Tidies t place := by
  have fate := @foldl_iff_kept _ _ turn s (fun s => s.tree.HoldsFile place)
    (fun s t => s.Leaves t place) (fun s t => ¬ s.Tidies t place) turns fun before t front => by
      have own := fun u inside => own u (front.subset inside)
      obtain ⟨earlier, last⟩ := List.forall_mem_append.1 own
      obtain ⟨rooted, -⟩ := run_directories rooted earlier
      exact (turn_change rooted (last t (by simp))).files place
  refine fate.trans (or_congr_left ⟨?_, ?_⟩)
  · rintro ⟨early, _, late, rfl, ⟨i, document, rfl, leaves⟩, kept⟩
    refine ⟨early, i, document, late, rfl, leaves, ?_, kept⟩
    obtain ⟨running, there, -⟩ := id leaves
    obtain ⟨before, after⟩ := List.forall_mem_append.1 own
    obtain ⟨litters, after⟩ := List.forall_mem_cons.1 after
    have change := turn_change (run_directories rooted before).1 litters
    have still : ((s.run early).litter i).running? i = some document := by
      rwa [running?, litter_jobs]
    rw [run_append, run_cons] at resting ⊢
    exact stopped_of_not_tidied change.rooted after still
      ((temporaryPlace?_eq_of_same change.directories _).trans there) kept resting
  · rintro ⟨early, i, document, late, split, leaves, -, kept⟩
    exact ⟨early, .litter i, late, split, ⟨i, document, rfl, leaves⟩, kept⟩

/-- One check is superseded after it has put its file beside its score, and the next one comes back
    elsewhere. -/
theorem superseded_check_leaves_file :
    let tree : FileTree :=
      ⟨["home"], [(["home"], .dir), (["home", "one"], .dir), (["home", "two"], .dir)]⟩
    let first : Document := ⟨⟨"one/a.ly"⟩, "{ c }"⟩
    let second : Document := ⟨⟨"two/b.ly"⟩, "{ d }"⟩
    let turns : List Turn := [.trigger first, .wait 500, .ring 0, .litter 0, .trigger second,
      .wait 500, .ring 1, .litter 1, .finish 1 (.ok "")]
    let s := start tree .structured 500
    let place := ["home", "one", "-.tmp"]
    tree.Rooted ∧ (∀ t ∈ turns, t.isOwn = true) ∧
      (∀ job ∈ (s.run turns).jobs, job.isLive = false) ∧ (s.run turns).tree.HoldsFile place ∧
      ∃ early i document late, turns = early ++ .litter i :: late ∧
        (s.run early).LeavesAt i document place ∧
        ((s.run turns).jobs[i]? = some { document, stage := .running, aborted := true } ∨
          ¬ InReach document.dir) ∧
        Throughout turn ((s.run early).litter i) late fun s t => ¬ s.Tidies t place := by
  intro tree first second turns s place
  have rooted : tree.Rooted := by decide +kernel
  have own : ∀ t ∈ turns, t.isOwn = true := by simp [turns, Turn.isOwn]
  have resting : ∀ job ∈ (s.run turns).jobs, job.isLive = false := by decide +kernel
  have there : (s.run turns).tree.HoldsFile place := ⟨[], by decide +kernel⟩
  have free : ¬ s.tree.HoldsFile place := by
    rintro ⟨content, file⟩
    have none : s.tree.node? place = none := by decide +kernel
    cases none.symm.trans file
  refine ⟨rooted, own, resting, there, ?_⟩
  exact ((file_stays_iff_not_tidied rooted own resting place).1 there).resolve_right
    fun stays => free stays.1

/-- A score is closed after its check has put a file beside it: nothing is at work any more, and the
    file is still there. -/
theorem closed_check_leaves_file :
    let tree : FileTree := ⟨["home"], [(["home"], .dir), (["home", "sub"], .dir)]⟩
    let document : Document := ⟨⟨"sub/a.ly"⟩, "{ c }"⟩
    let s := (start tree .structured 500).run
      [.trigger document, .wait 500, .ring 0, .litter 0, .close document.path]
    (∀ job ∈ s.jobs, job.isLive = false) ∧ s.isPending = false ∧
      s.tree.exists? (document.dir.join temporaryName) = true := by
  decide +kernel

end Session

end ScoreDesk.Check
