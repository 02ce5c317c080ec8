import Mathlib
import ScoreDesk.Proofs.FilePlaces
import ScoreDesk.Proofs.PathOrder
import ScoreDesk.Proofs.SortedList
import ScoreDesk.Transport.Rendition

namespace ScoreDesk

theorem find?_mergeSort_eq_some {α : Type} {le : α → α → Bool}
    (trans : ∀ a b c, le a b = true → le b c = true → le a c = true)
    (total : ∀ a b, (le a b || le b a) = true) {p : α → Bool} {l : List α} {a : α}
    (found : (l.mergeSort le).find? p = some a) :
    a ∈ l ∧ p a = true ∧ ∀ b ∈ l, p b = true → le a b = true := by
  obtain ⟨held, before, after, split, others⟩ := List.find?_eq_some_iff_append.1 found
  have sorted := List.pairwise_mergeSort trans total l
  rw [split] at sorted
  have inside (b : α) : b ∈ l ↔ b ∈ before ++ a :: after := by
    rw [← split]
    exact List.mem_mergeSort.symm
  refine ⟨(inside a).2 (by simp), held, fun b member has => ?_⟩
  rcases List.mem_append.1 ((inside b).1 member) with earlier | later
  · simpa [has] using others b earlier
  · rcases List.mem_cons.1 later with rfl | behind
    · simpa using total b b
    · exact (List.pairwise_cons.1 (List.pairwise_append.1 sorted).2.1).1 b behind

namespace Transport

/-- The order among the MIDI files beside a score: the shorter path first, then by components. -/
def Nearer (p q : Path) : Prop :=
  p.text.utf8ByteSize < q.text.utf8ByteSize ∨
    p.text.utf8ByteSize = q.text.utf8ByteSize ∧ (p.compare q).isLE

section Order

variable {p q : Path}

theorem shorterFirst_eq (p q : Path) : shorterFirst p q =
    (compareLex (compareOn fun path : Path => path.text.utf8ByteSize) Path.compare p q).isLE := by
  unfold shorterFirst compareLex compareOn
  cases Ord.compare p.text.utf8ByteSize q.text.utf8ByteSize with
  | lt => rfl
  | gt => rfl
  | eq => cases p.compare q <;> rfl

theorem shorterFirst_iff : shorterFirst p q = true ↔ Nearer p q := by
  unfold shorterFirst Nearer
  cases order : Ord.compare p.text.utf8ByteSize q.text.utf8ByteSize with
  | lt =>
    have := Nat.compare_eq_lt.1 order
    simp [this]
  | gt =>
    have := Nat.compare_eq_gt.1 order
    simp
    omega
  | eq =>
    have := Nat.compare_eq_eq.1 order
    cases p.compare q <;> simp [this]

theorem shorterFirst_trans (a b c : Path) (first : shorterFirst a b = true)
    (second : shorterFirst b c = true) : shorterFirst a c = true := by
  rw [shorterFirst_eq] at first second ⊢
  exact Std.TransCmp.isLE_trans first second

theorem shorterFirst_total (a b : Path) : (shorterFirst a b || shorterFirst b a) = true := by
  have swapped : compareLex (compareOn fun path : Path => path.text.utf8ByteSize) Path.compare b a =
      (compareLex (compareOn fun path : Path => path.text.utf8ByteSize) Path.compare a b).swap :=
    Std.OrientedCmp.eq_swap
  rw [shorterFirst_eq, shorterFirst_eq, swapped]
  generalize compareLex _ _ a b = order
  cases order <;> rfl

theorem components_eq_of_nearer (first : Nearer p q) (second : Nearer q p) :
    p.components = q.components := by
  have sizes : p.text.utf8ByteSize = q.text.utf8ByteSize := by
    rcases first with first | first <;> rcases second with second | second <;> omega
  have up : (p.compare q).isLE := by
    rcases first with first | first
    · omega
    · exact first.2
  have down : (q.compare p).isLE := by
    rcases second with second | second
    · omega
    · exact second.2
  exact Path.compare_eq_eq_iff.1 (Std.OrientedCmp.isLE_antisymm up down)

end Order

/-- A MIDI file in a directory whose name starts like that of a score. -/
structure IsSibling (tree : FileTree) (dir : Path) (stem : String) (path : Path) : Prop where
  named : ∃ name, Path.IsFileName name ∧ stem.toList <+: name.toList ∧ path = dir.join ⟨name⟩
  midi : ∃ content, tree.read path = .ok content ∧ Text.Utf8.encode "MThd" <+: content

section Siblings

variable {tree : FileTree} {source path : Path} {stem : String}

theorem hasSignature_iff : hasSignature tree path = true ↔
    ∃ content, tree.read path = .ok content ∧ Text.Utf8.encode "MThd" <+: content := by
  unfold hasSignature
  cases tree.read path with
  | error e => simp
  | ok content => simp

theorem prefix_join_iff {dir : Path} {name : String} (full : dir.text.isEmpty = false)
    (proper : Path.IsFileName name) (fit : Path.IsFileName stem) :
    (dir.join ⟨stem⟩).text.toList <+: (dir.join ⟨name⟩).text.toList ↔
      stem.toList <+: name.toList := by
  obtain ⟨between, text⟩ := Path.exists_join_text full
  rw [text name proper, text stem fit]
  simp only [String.toList_append, List.prefix_append_right_inj]

theorem mem_siblings_iff (proper : tree.Proper) (fit : Path.IsFileName stem) :
    path ∈ siblings tree source.dirOrHere (source.dirOrHere.join ⟨stem⟩).text ∧
        hasSignature tree path = true ↔
      IsSibling tree source.dirOrHere stem path := by
  have full := source.isEmpty_dirOrHere
  unfold siblings
  constructor
  · rintro ⟨member, midi⟩
    cases listed : tree.list source.dirOrHere with
    | error e => simp [listed] at member
    | ok names =>
      rw [listed] at member
      obtain ⟨inside, kept⟩ := List.mem_filter.1 member
      obtain ⟨name, among, rfl⟩ := List.mem_map.1 inside
      have nameProper := proper.isFileName_of_listed listed among
      rw [Bool.and_eq_true, List.isPrefixOf_iff_prefix, prefix_join_iff full nameProper fit] at kept
      exact ⟨⟨name, nameProper, kept.2, rfl⟩, hasSignature_iff.1 midi⟩
  · rintro ⟨⟨name, nameProper, front, rfl⟩, midi⟩
    obtain ⟨content, held, -⟩ := id midi
    obtain ⟨names, listed, among⟩ := FileTree.exists_listed_of_read nameProper held
    rw [listed]
    refine ⟨List.mem_filter.2 ⟨List.mem_map.2 ⟨name, among, rfl⟩, ?_⟩, hasSignature_iff.2 midi⟩
    rw [Bool.and_eq_true, List.isPrefixOf_iff_prefix, prefix_join_iff full nameProper fit]
    exact ⟨FileTree.isFile_iff.2 ⟨content, held⟩, front⟩

theorem IsSibling.eq_of_nearer {other : Path} (sibling : IsSibling tree source.dirOrHere stem path)
    (second : IsSibling tree source.dirOrHere stem other) (near : Nearer path other)
    (nearOther : Nearer other path) : path = other := by
  obtain ⟨name, proper, -, rfl⟩ := sibling.named
  obtain ⟨name', proper', -, rfl⟩ := second.named
  have same := components_eq_of_nearer near nearOther
  rw [Path.components_join source proper, Path.components_join source proper'] at same
  obtain rfl : name = name' := by simpa using same
  rfl

def nearest? (tree : FileTree) (dir : Path) (stem : String) : Option Path :=
  ((siblings tree dir (dir.join ⟨stem⟩).text).mergeSort shorterFirst).find? (hasSignature tree)

theorem nearest?_eq_some_iff (proper : tree.Proper) (fit : Path.IsFileName stem) :
    nearest? tree source.dirOrHere stem = some path ↔
      IsSibling tree source.dirOrHere stem path ∧
        ∀ other, IsSibling tree source.dirOrHere stem other → Nearer path other := by
  have least {path : Path} (found : nearest? tree source.dirOrHere stem = some path) :
      IsSibling tree source.dirOrHere stem path ∧
        ∀ other, IsSibling tree source.dirOrHere stem other → Nearer path other := by
    obtain ⟨member, midi, first⟩ :=
      find?_mergeSort_eq_some shorterFirst_trans shorterFirst_total found
    refine ⟨(mem_siblings_iff proper fit).1 ⟨member, midi⟩, fun other sibling => ?_⟩
    obtain ⟨among, has⟩ := (mem_siblings_iff proper fit).2 sibling
    exact shorterFirst_iff.1 (first other among has)
  refine ⟨least, fun ⟨sibling, nearest⟩ => ?_⟩
  cases found : nearest? tree source.dirOrHere stem with
  | none =>
    obtain ⟨among, has⟩ := (mem_siblings_iff proper fit).2 sibling
    exact absurd has (List.find?_eq_none.1 found path (List.mem_mergeSort.2 among))
  | some other =>
    obtain ⟨second, first⟩ := least found
    rw [sibling.eq_of_nearer second (nearest other second) (first path sibling)]

theorem nearest?_eq_none_iff (proper : tree.Proper) (fit : Path.IsFileName stem) :
    nearest? tree source.dirOrHere stem = none ↔
      ∀ path, ¬ IsSibling tree source.dirOrHere stem path := by
  simp only [← mem_siblings_iff proper fit, not_and]
  unfold nearest?
  rw [List.find?_eq_none]
  simp only [List.mem_mergeSort]

/-- What a search comes to depends on what the files hold that could be found. -/
theorem nearest?_congr {other : FileTree} (proper : tree.Proper) (properOther : other.Proper)
    (fit : Path.IsFileName stem)
    (alike : ∀ path, IsSibling other source.dirOrHere stem path ↔
      IsSibling tree source.dirOrHere stem path) :
    nearest? other source.dirOrHere stem = nearest? tree source.dirOrHere stem := by
  refine Option.ext fun path => ?_
  rw [nearest?_eq_some_iff proper fit, nearest?_eq_some_iff properOther fit]
  simp only [alike]

end Siblings

section Rendition

variable {tree other : FileTree} {source : Path} {name stem suffix : String}

theorem withSuffix_withoutExtension (named : source.fileName? = some name)
    (cut : (Path.splitExtension name.toList).1 = stem.toList) (dot : stem ≠ ".") :
    withSuffix source.withoutExtension suffix = source.besides (stem ++ suffix) := by
  rw [Path.withoutExtension_eq named cut dot]
  exact congrArg Path.mk (Path.besides_append source stem suffix).symm

theorem renditionOf_eq (named : source.fileName? = some name)
    (cut : (Path.splitExtension name.toList).1 = stem.toList) (dot : stem ≠ ".") :
    renditionOf tree source =
      if tree.isFile (source.besides (stem ++ ".midi")) then
        .ok (source.besides (stem ++ ".midi"))
      else if tree.isFile (source.besides (stem ++ ".mid")) then
        .ok (source.besides (stem ++ ".mid"))
      else match if stem = ".." then none else nearest? tree source.dirOrHere stem with
        | some path => .ok path
        | none => .error (.midiFileNotFound source) := by
  have proper := Path.isFileName_of_fileName? named
  have base := Path.withoutExtension_eq named cut dot
  unfold renditionOf
  simp only [List.map_cons, List.map_nil, withSuffix_withoutExtension named cut dot]
  by_cases midi : tree.isFile (source.besides (stem ++ ".midi")) = true
  · simp [midi]
  by_cases mid : tree.isFile (source.besides (stem ++ ".mid")) = true
  · simp [midi, mid]
  simp only [List.find?_cons, List.find?_nil, midi, mid, Bool.false_eq_true, if_false]
  by_cases dots : stem = ".."
  · subst dots
    rw [base, Path.fileName?_besides_dots]
    rfl
  · have fit := Path.isFileName_stem proper cut dot dots
    rw [base, Path.fileName?_besides source fit, Path.dirOrHere_besides named fit, if_neg dots]
    rfl

theorem isFile_eq_isSome_read (tree : FileTree) (path : Path) :
    tree.isFile path = (tree.read path).toOption.isSome := by
  rw [Bool.eq_iff_iff, FileTree.isFile_iff]
  cases tree.read path <;> simp [Except.toOption]

theorem read_eq_ok_iff_toOption {path : Path} {content : Text.Bytes} :
    tree.read path = .ok content ↔ (tree.read path).toOption = some content := by
  cases tree.read path <;> simp [Except.toOption]

/-- Two trees that hold the same files under the names that start like a score, in its directory. -/
def AgreeNear (tree other : FileTree) (source : Path) (stem : String) : Prop :=
  ∀ path name, path.dirOrHere = source.dirOrHere → path.fileName? = some name →
    stem.toList <+: name.toList → (other.read path).toOption = (tree.read path).toOption

theorem AgreeNear.isFile_besides (agree : AgreeNear tree other source stem)
    (named : source.fileName? = some name) (proper : Path.IsFileName (stem ++ suffix)) :
    other.isFile (source.besides (stem ++ suffix)) =
      tree.isFile (source.besides (stem ++ suffix)) := by
  rw [isFile_eq_isSome_read, isFile_eq_isSome_read, agree _ _ (Path.dirOrHere_besides named proper)
    (Path.fileName?_besides source proper)]
  rw [String.toList_append]
  exact List.prefix_append _ _

theorem AgreeNear.symm (agree : AgreeNear tree other source stem) :
    AgreeNear other tree source stem :=
  fun path name dir named front => (agree path name dir named front).symm

theorem AgreeNear.isSibling {path : Path} (agree : AgreeNear tree other source stem)
    (named : source.fileName? = some name) (sibling : IsSibling tree source.dirOrHere stem path) :
    IsSibling other source.dirOrHere stem path := by
  obtain ⟨⟨own, proper, front, rfl⟩, content, held, midi⟩ := sibling
  have same := agree _ own (Path.dirOrHere_join named proper) (Path.fileName?_join _ proper)
    front
  rw [held] at same
  exact ⟨⟨own, proper, front, rfl⟩, content, read_eq_ok_iff_toOption.2 same, midi⟩

theorem AgreeNear.renditionOf_eq (agree : AgreeNear tree other source stem)
    (proper : tree.Proper) (properOther : other.Proper) (named : source.fileName? = some name)
    (cut : (Path.splitExtension name.toList).1 = stem.toList) (dot : stem ≠ ".") :
    renditionOf other source = renditionOf tree source := by
  have own := Path.isFileName_of_fileName? named
  have whole := Path.slash_not_mem_stem own cut
  have midi : Path.IsFileName (stem ++ ".midi") :=
    Path.isFileName_append whole (by decide) (by decide)
  have mid : Path.IsFileName (stem ++ ".mid") :=
    Path.isFileName_append whole (by decide) (by decide)
  rw [Transport.renditionOf_eq named cut dot, Transport.renditionOf_eq named cut dot,
    agree.isFile_besides named midi, agree.isFile_besides named mid]
  by_cases dots : stem = ".."
  · simp only [if_pos dots]
  · have fit := Path.isFileName_stem own cut dot dots
    have search := nearest?_congr proper properOther fit fun _ =>
      ⟨agree.symm.isSibling named, agree.isSibling named⟩
    simp only [if_neg dots, search]

/-- The MIDI file of a score is the one named after it; where there is none, it is the nearest of
    its siblings. Nothing else in the tree has a part in it. (The tree has no links, and its
    directories can be listed: a listing that fails is not among the cases.) -/
theorem rendition_is_nearest (proper : tree.Proper) (named : source.fileName? = some name)
    (cut : (Path.splitExtension name.toList).1 = stem.toList) (dot : stem ≠ ".") :
    let midi := source.besides (stem ++ ".midi")
    let mid := source.besides (stem ++ ".mid")
    (tree.isFile midi = true → renditionOf tree source = .ok midi) ∧
      (tree.isFile midi = false → tree.isFile mid = true → renditionOf tree source = .ok mid) ∧
      (tree.isFile midi = false → tree.isFile mid = false →
        (stem = ".." → renditionOf tree source = .error (.midiFileNotFound source)) ∧
        (stem ≠ ".." →
          (∀ path, renditionOf tree source = .ok path ↔
            IsSibling tree source.dirOrHere stem path ∧
              ∀ other, IsSibling tree source.dirOrHere stem other → Nearer path other) ∧
          ∀ e, renditionOf tree source = .error e ↔
            e = .midiFileNotFound source ∧
              ∀ path, ¬ IsSibling tree source.dirOrHere stem path)) ∧
      ∀ other : FileTree, other.Proper → AgreeNear tree other source stem →
        renditionOf other source = renditionOf tree source := by
  intro midi mid
  have search : renditionOf tree source = if tree.isFile midi then .ok midi
      else if tree.isFile mid then .ok mid
      else match if stem = ".." then none else nearest? tree source.dirOrHere stem with
        | some path => .ok path
        | none => .error (.midiFileNotFound source) := renditionOf_eq named cut dot
  refine ⟨fun first => ?_, fun first second => ?_, fun first second => ?_,
    fun other properOther agree => agree.renditionOf_eq proper properOther named cut dot⟩
  · rw [search, if_pos first]
  · rw [search, if_neg (by simp [first]), if_pos second]
  · rw [search, if_neg (by simp [first]), if_neg (by simp [second])]
    refine ⟨fun dots => by rw [if_pos dots], fun dots => ?_⟩
    have fit := Path.isFileName_stem (Path.isFileName_of_fileName? named) cut dot dots
    simp only [if_neg dots, ← nearest?_eq_some_iff proper fit,
      ← nearest?_eq_none_iff proper fit]
    cases nearest? tree source.dirOrHere stem with
    | none => simp [eq_comm]
    | some path => simp

end Rendition

theorem shorter_name_is_played :
    let header := Text.Utf8.encode "MThd"
    let tree : FileTree := ⟨["songs"], [(["songs"], .dir), (["songs", "opus.ly"], .file []),
      (["songs", "opus-10.mid"], .file header), (["songs", "opus"], .dir),
      (["songs", "opus-9.mid"], .file header), (["songs", "opus-.log"], .file [])]⟩
    renditionOf tree ⟨"opus.ly"⟩ = .ok ⟨"./opus-9.mid"⟩ := by
  intro header tree
  have proper : tree.Proper := by decide +kernel
  have named : Path.fileName? ⟨"opus.ly"⟩ = some "opus.ly" := by decide +kernel
  have cut : (Path.splitExtension "opus.ly".toList).1 = "opus".toList := by decide +kernel
  have fit : Path.IsFileName "opus" := by decide +kernel
  obtain ⟨-, -, searched, -⟩ := rendition_is_nearest proper named cut (by decide)
  obtain ⟨found, -⟩ := (searched (by decide +kernel) (by decide +kernel)).2 (by decide)
  refine (found _).2 ?_
  simp only [← mem_siblings_iff proper fit]
  refine ⟨by decide +kernel, fun other ⟨among, midi⟩ => shorterFirst_iff.1 ?_⟩
  have all : siblings tree (Path.dirOrHere ⟨"opus.ly"⟩)
      ((Path.dirOrHere ⟨"opus.ly"⟩).join ⟨"opus"⟩).text =
        [⟨"./opus.ly"⟩, ⟨"./opus-10.mid"⟩, ⟨"./opus-9.mid"⟩, ⟨"./opus-.log"⟩] := by
    decide +kernel
  rw [all] at among
  have passes : ∀ path ∈ [(⟨"./opus.ly"⟩ : Path), ⟨"./opus-10.mid"⟩, ⟨"./opus-9.mid"⟩,
      ⟨"./opus-.log"⟩], hasSignature tree path = true →
        shorterFirst ⟨"./opus-9.mid"⟩ path = true := by
    decide +kernel
  exact passes other among midi

/-- A score whose name leaves only dots has no siblings that are looked for, and one whose name
    leaves a single dot is not even known by that. -/
theorem dots_have_no_rendition :
    let header := Text.Utf8.encode "MThd"
    let tree : FileTree := ⟨["songs"], [(["songs"], .dir), (["songs", "...ly"], .file []),
      (["songs", "..take"], .file header), (["songs", "..ly"], .file []),
      (["songs", "..midi"], .file header)]⟩
    IsSibling tree ⟨"."⟩ ".." ⟨"./..take"⟩ ∧
      renditionOf tree ⟨"...ly"⟩ = .error (.midiFileNotFound ⟨"...ly"⟩) ∧
      tree.isFile ⟨"..midi"⟩ = true ∧
      renditionOf tree ⟨"..ly"⟩ = .error (.midiFileNotFound ⟨"..ly"⟩) := by
  intro header tree
  have held : tree.read ⟨"./..take"⟩ = .ok header := by decide +kernel
  refine ⟨⟨⟨"..take", ?_, ?_, ?_⟩, header, held, List.prefix_rfl⟩, ?_, ?_, ?_⟩
  all_goals decide +kernel

end Transport

end ScoreDesk
