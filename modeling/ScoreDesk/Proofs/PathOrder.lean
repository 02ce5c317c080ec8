import Mathlib
import ScoreDesk.Path

namespace ScoreDesk

open Std (LawfulEqCmp OrientedCmp ReflCmp TransCmp)

namespace Component

def nameText : Component → String
  | name text => text
  | _ => ""

theorem eq_of_rank_of_nameText {a b : Component} (kind : a.rank = b.rank)
    (text : a.nameText = b.nameText) : a = b := by
  cases a <;> cases b <;> simp_all [rank, nameText]

theorem compare_eq_compareLex (a b : Component) :
    a.compare b = compareLex (compareOn rank) (compareOn nameText) a b := by
  cases a <;> cases b <;> rfl

instance : TransCmp compare := by
  rw [funext₂ compare_eq_compareLex]
  infer_instance

instance : LawfulEqCmp compare where
  eq_of_compare {a b} same := by
    rw [compare_eq_compareLex, compareLex, Ordering.then_eq_eq] at same
    exact eq_of_rank_of_nameText (Std.LawfulEqOrd.eq_of_compare same.1)
      (Std.LawfulEqOrd.eq_of_compare same.2)

end Component

namespace Path

theorem compareComponents_eq_compareLex (as bs : List Component) :
    compareComponents as bs = as.compareLex Component.compare bs := by
  induction as generalizing bs with
  | nil => cases bs <;> rfl
  | cons a as ih =>
    cases bs with
    | nil => rfl
    | cons b bs => rw [compareComponents, ih, List.compareLex_cons_cons]

instance : TransCmp compareComponents := by
  rw [funext₂ compareComponents_eq_compareLex]
  infer_instance

instance : LawfulEqCmp compareComponents := by
  rw [funext₂ compareComponents_eq_compareLex]
  infer_instance

instance : TransCmp compare where
  eq_swap {p q} := by
    have swapped : compareComponents p.components q.components =
        (compareComponents q.components p.components).swap := OrientedCmp.eq_swap
    exact swapped
  isLE_trans {p q r} first second := by
    have ascends : (compareComponents p.components r.components).isLE :=
      TransCmp.isLE_trans first second
    exact ascends

theorem compare_eq_eq_iff {p q : Path} : p.compare q = .eq ↔ p.components = q.components := by
  constructor
  · intro same
    exact LawfulEqCmp.eq_of_compare same
  · intro same
    unfold compare
    rw [same]
    exact ReflCmp.compare_self

@[simp] theorem same_iff {p q : Path} : p.same q = true ↔ p.components = q.components := by
  simp [same]

end Path

end ScoreDesk
