import Mathlib

namespace ScoreDesk

variable {α : Type}

/-- A list in ascending order of a key in which items of the same key stand as they did before. -/
structure IsStableSort (key : α → Nat) (input output : List α) : Prop where
  ascending : output.Pairwise fun a b => key a ≤ key b
  kept : ∀ k, output.filter (key · = k) = input.filter (key · = k)

theorem IsStableSort.mem_iff {key : α → Nat} {input output : List α}
    (sorted : IsStableSort key input output) (a : α) : a ∈ output ↔ a ∈ input := by
  have kept := sorted.kept (key a)
  constructor
  · intro member
    have filtered : a ∈ output.filter (key · = key a) := by simpa using member
    rw [kept] at filtered
    exact List.mem_of_mem_filter filtered
  · intro member
    have filtered : a ∈ input.filter (key · = key a) := by simpa using member
    rw [← kept] at filtered
    exact List.mem_of_mem_filter filtered

theorem IsStableSort.tail {key : α → Nat} {a : α} {xs ys : List α}
    (sorted : IsStableSort key (a :: ys) (a :: xs)) : IsStableSort key ys xs := by
  refine ⟨(List.pairwise_cons.mp sorted.ascending).2, fun k => ?_⟩
  have kept := sorted.kept k
  by_cases here : key a = k
  · simpa [here] using kept
  · simpa [here] using kept

theorem IsStableSort.head_eq {key : α → Nat} {x y : α} {xs ys : List α}
    (sorted : IsStableSort key (y :: ys) (x :: xs))
    (ascending : (y :: ys).Pairwise fun a b => key a ≤ key b) : x = y := by
  have lower : key x ≤ key y := by
    have member := (sorted.mem_iff y).mpr (by simp)
    rcases List.mem_cons.mp member with rfl | member
    · exact Nat.le_refl _
    · exact (List.pairwise_cons.mp sorted.ascending).1 y member
  have upper : key y ≤ key x := by
    have member := (sorted.mem_iff x).mp (by simp)
    rcases List.mem_cons.mp member with rfl | member
    · exact Nat.le_refl _
    · exact (List.pairwise_cons.mp ascending).1 x member
  have same := Nat.le_antisymm lower upper
  have kept := sorted.kept (key x)
  simp only [List.filter_cons, same, decide_true, ↓reduceIte] at kept
  exact (List.cons.inj kept).1

theorem IsStableSort.eq_of_ascending {key : α → Nat} {input output : List α}
    (sorted : IsStableSort key input output)
    (ascending : input.Pairwise fun a b => key a ≤ key b) : output = input := by
  induction output generalizing input with
  | nil =>
    cases input with
    | nil => rfl
    | cons y ys => exact absurd ((sorted.mem_iff y).mpr (by simp)) (by simp)
  | cons x xs ih =>
    cases input with
    | nil => exact absurd ((sorted.mem_iff x).mp (by simp)) (by simp)
    | cons y ys =>
      have head := sorted.head_eq ascending
      subst head
      rw [ih sorted.tail (List.pairwise_cons.mp ascending).2]

/-- A list has one stable sort. -/
theorem IsStableSort.unique {key : α → Nat} {input first second : List α}
    (left : IsStableSort key input first) (right : IsStableSort key input second) :
    first = second := by
  have between : IsStableSort key second first :=
    ⟨left.ascending, fun k => (left.kept k).trans (right.kept k).symm⟩
  exact between.eq_of_ascending right.ascending

theorem mergeSort_isStableSort (key : α → Nat) (l : List α) :
    IsStableSort key l (l.mergeSort fun a b => key a ≤ key b) := by
  have trans (a b c : α) (ab : decide (key a ≤ key b) = true) (bc : decide (key b ≤ key c) = true) :
      decide (key a ≤ key c) = true := by
    simp only [decide_eq_true_eq] at ab bc ⊢
    exact Nat.le_trans ab bc
  have total (a b : α) : (decide (key a ≤ key b) || decide (key b ≤ key a)) = true := by
    simpa using Nat.le_total (key a) (key b)
  constructor
  · have sorted := List.pairwise_mergeSort trans total l
    exact sorted.imp fun h => by simpa using h
  · intro k
    have equal : (l.filter (key · = k)).Pairwise fun a b => decide (key a ≤ key b) = true := by
      rw [List.pairwise_filter]
      apply List.pairwise_of_forall
      intro a b here there
      simp only [decide_eq_true_eq] at here there ⊢
      omega
    have inside := List.sublist_mergeSort trans total equal List.filter_sublist
    have filtered := inside.filter (key · = k)
    rw [List.filter_filter] at filtered
    have lengths := ((List.mergeSort_perm l fun a b => key a ≤ key b).filter (key · = k)).length_eq
    simp only [Bool.and_self] at filtered
    exact (filtered.eq_of_length lengths.symm).symm

theorem IsStableSort.cons {key : α → Nat} {a : α} {input output : List α}
    (sorted : IsStableSort key input output) (least : ∀ b ∈ input, key a ≤ key b) :
    IsStableSort key (a :: input) (a :: output) := by
  constructor
  · refine List.pairwise_cons.mpr ⟨fun b member => ?_, sorted.ascending⟩
    exact least b ((sorted.mem_iff b).mp member)
  · intro k
    have kept := sorted.kept k
    by_cases here : key a = k
    · simpa [here] using kept
    · simpa [here] using kept

theorem mergeSort_cons_of_least (key : α → Nat) {a : α} {l : List α}
    (least : ∀ b ∈ l, key a ≤ key b) :
    (a :: l).mergeSort (fun a b => key a ≤ key b) = a :: l.mergeSort fun a b => key a ≤ key b := by
  have sorted := (mergeSort_isStableSort key l).cons least
  exact (mergeSort_isStableSort key (a :: l)).unique sorted

section Split

variable {p : α → Bool} {l : List α}

theorem takeWhile_eq_filter (before : l.Pairwise fun a b => p b → p a) :
    l.takeWhile p = l.filter p := by
  induction l with
  | nil => rfl
  | cons a rest ih =>
    obtain ⟨first, later⟩ := List.pairwise_cons.mp before
    by_cases here : p a
    · rw [List.takeWhile_cons_of_pos here, List.filter_cons_of_pos here, ih later]
    · have none : rest.filter p = [] := by
        simpa [List.filter_eq_nil_iff] using fun b member held => here (first b member held)
      rw [List.takeWhile_cons_of_neg here, List.filter_cons_of_neg here, none]

theorem dropWhile_eq_filter_not (before : l.Pairwise fun a b => p b → p a) :
    l.dropWhile p = l.filter (!p ·) := by
  induction l with
  | nil => rfl
  | cons a rest ih =>
    obtain ⟨first, later⟩ := List.pairwise_cons.mp before
    by_cases here : p a
    · rw [List.dropWhile_cons_of_pos here, List.filter_cons_of_neg (by simpa using here), ih later]
    · have all : rest.filter (!p ·) = rest := by
        rw [List.filter_eq_self]
        intro b member
        simpa using fun held => here (first b member held)
      rw [List.dropWhile_cons_of_neg here, List.filter_cons_of_pos (by simpa using here), all]

theorem getElem_iff_lt_length_takeWhile (before : l.Pairwise fun a b => p b → p a) (i : Nat)
    (bound : i < l.length) : p l[i] ↔ i < (l.takeWhile p).length := by
  have parts : l.takeWhile p ++ l.dropWhile p = l := List.takeWhile_append_dropWhile
  constructor
  · intro held
    by_contra beyond
    have member : l[i] ∈ l.dropWhile p := by
      have entry : (l.takeWhile p ++ l.dropWhile p)[i]? = some l[i] := by
        rw [parts]
        exact List.getElem?_eq_getElem bound
      rw [List.getElem?_append_right (by omega)] at entry
      exact List.mem_of_getElem? entry
    rw [dropWhile_eq_filter_not before] at member
    simpa [held] using List.of_mem_filter member
  · intro inside
    have member : l[i] ∈ l.takeWhile p := by
      have entry : (l.takeWhile p ++ l.dropWhile p)[i]? = some l[i] := by
        rw [parts]
        exact List.getElem?_eq_getElem bound
      rw [List.getElem?_append_left inside] at entry
      exact List.mem_of_getElem? entry
    exact List.mem_takeWhile_imp member

theorem drop_length_takeWhile (p : α → Bool) (l : List α) :
    l.drop (l.takeWhile p).length = l.dropWhile p := by
  have parts : l.takeWhile p ++ l.dropWhile p = l := List.takeWhile_append_dropWhile
  calc l.drop (l.takeWhile p).length
      = (l.takeWhile p ++ l.dropWhile p).drop (l.takeWhile p).length := by rw [parts]
    _ = l.dropWhile p := List.drop_left

end Split

end ScoreDesk
