import Mathlib.Data.String.Basic
import Mathlib.Data.List.Sort

/-!
# Sorting by a name that tells values apart

Sorted by a name no two of them share, values stand in one order whatever order they came in.
-/

namespace CommunityLb

variable {α κ : Type} [LinearOrder κ] {name : α → κ} {first second : List α}

/-- Values in the order of their names. -/
def sortBy (name : α → κ) (values : List α) : List α :=
  values.mergeSort fun one other => name one ≤ name other

theorem sortBy_perm (name : α → κ) (values : List α) : (sortBy name values).Perm values :=
  List.mergeSort_perm _ _

@[simp]
theorem mem_sortBy {value : α} {values : List α} : value ∈ sortBy name values ↔ value ∈ values :=
  (sortBy_perm name values).mem_iff

theorem sortBy_pairwise (name : α → κ) (values : List α) :
    (sortBy name values).Pairwise fun one other => name one ≤ name other := by
  let before (one other : α) : Bool := decide (name one ≤ name other)
  have trans : ∀ one other third, before one other → before other third → before one third := by
    intro one other third le le'
    simp only [before, decide_eq_true_eq] at le le' ⊢
    exact le.trans le'
  have total : ∀ one other, before one other || before other one := by
    intro one other
    simpa [before] using le_total (name one) (name other)
  have sorted : (values.mergeSort before).Pairwise fun one other => before one other :=
    List.pairwise_mergeSort trans total values
  exact sorted.imp fun le => by simpa [before] using le

/-- The order the values came in leaves no trace. -/
theorem sortBy_eq_of_perm (distinct : (first.map name).Nodup) (perm : first.Perm second) :
    sortBy name first = sortBy name second := by
  have sorted : (sortBy name first).Perm (sortBy name second) :=
    ((sortBy_perm name first).trans perm).trans (sortBy_perm name second).symm
  refine sorted.eq_of_pairwise ?_ (sortBy_pairwise name first) (sortBy_pairwise name second)
  intro one other inFirst inSecond le ge
  refine List.inj_on_of_nodup_map distinct (mem_sortBy.mp inFirst) ?_ (le_antisymm le ge)
  exact perm.mem_iff.mpr (mem_sortBy.mp inSecond)

/-- Sorted lists are equal exactly when they hold the same values. -/
theorem sortBy_eq_iff (distinct : (first.map name).Nodup) (distinct' : (second.map name).Nodup) :
    sortBy name first = sortBy name second ↔ ∀ value, value ∈ first ↔ value ∈ second := by
  constructor
  · intro same value
    have inFirst : value ∈ sortBy name first ↔ value ∈ first := mem_sortBy
    rw [← inFirst, same, mem_sortBy]
  · intro same
    have perm : first.Perm second :=
      (List.perm_ext_iff_of_nodup distinct.of_map distinct'.of_map).mpr same
    exact sortBy_eq_of_perm distinct perm

end CommunityLb
