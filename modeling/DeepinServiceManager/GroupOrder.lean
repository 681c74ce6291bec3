import DeepinServiceManager.PluginLoader
import DeepinServiceManager.WeakOrders

namespace DeepinServiceManager.GroupOrder

open ServiceManager WeakOrders

/-- The groups of `GroupSiral` stand in its order. -/
def InSiralOrder (groups : List String) : Prop :=
  (groups.filter GroupSiral.contains).Pairwise (fun a b => GroupSiral.idxOf a ≤ GroupSiral.idxOf b)

instance (groups : List String) : Decidable (InSiralOrder groups) := inferInstanceAs (Decidable (List.Pairwise _ _))

/-- Either no group outside `GroupSiral` occurs, or at most one inside it does. -/
def OneKind (groups : List String) : Prop :=
  (∀ group ∈ groups, group ∈ GroupSiral) ∨
    ∀ a ∈ groups, ∀ b ∈ groups, a ∈ GroupSiral → b ∈ GroupSiral → a = b

theorem indexOf_mem {l : List String} {x : String} (h : x ∈ l) : indexOf l x = l.idxOf x := by
  simp [indexOf, h]

theorem groupLess_iff (group1 group2 : String) : groupLess group1 group2 = true ↔
    group1 ∈ GroupSiral ∧ group2 ∈ GroupSiral ∧ GroupSiral.idxOf group1 < GroupSiral.idxOf group2 := by
  unfold groupLess
  by_cases h1 : group1 ∈ GroupSiral
  · by_cases h2 : group2 ∈ GroupSiral
    · simp [h1, h2, indexOf_mem]
    · simp [h1, h2, indexOf]
  · simp [h1]

theorem oneKind_iff (groups : List String) : OneKind groups ↔ (∀ group ∈ groups, group ∈ GroupSiral) ∨
    ∀ a ∈ groups, ∀ b ∈ groups, a ∈ GroupSiral → b ∈ GroupSiral → GroupSiral.idxOf a = GroupSiral.idxOf b := by
  apply or_congr_right
  refine forall₄_congr fun a _ b _ => forall₂_congr fun ha _ => ?_
  exact (List.idxOf_inj ha).symm

theorem groupLess_weakOrder_iff (groups : List String) : StrictWeakOrderOn groupLess groups ↔ OneKind groups :=
  (strictWeakOrderOn_iff groupLess_iff).trans (oneKind_iff groups).symm

theorem groups_sorted_iff (groups : List String) : (StrictWeakOrderOn groupLess groups ↔ OneKind groups) ∧
    ((∀ sorted, SortOutcome groupLess groups sorted → InSiralOrder sorted) ↔ OneKind groups) := by
  refine ⟨groupLess_weakOrder_iff groups, ?_⟩
  rw [← groupLess_weakOrder_iff, ← sortOutcome_ordered_iff groupLess_iff]
  simp only [InSiralOrder, List.pairwise_filter, List.contains_iff_mem]

def mixedGroups : List String := ["core", "app", "other", "dde"]

/-- No group is less than the one before it, so a sort by insertion leaves the list as it is. -/
theorem mixedGroups_misordered : mixedGroups.Nodup ∧
    (∀ pair ∈ mixedGroups.zip mixedGroups.tail, groupLess pair.2 pair.1 = false) ∧
      ¬ StrictWeakOrderOn groupLess mixedGroups ∧ SortOutcome groupLess mixedGroups mixedGroups ∧
        ¬ InSiralOrder mixedGroups := by
  have hnot : ¬ StrictWeakOrderOn groupLess mixedGroups := by
    intro horder
    have hincomparable := horder.incomparable_trans "app" (by decide) "other" (by decide) "dde" (by decide)
      (by decide) (by decide)
    exact absurd hincomparable.2 (by decide)
  exact ⟨by decide, by decide, hnot, ⟨List.Perm.refl _, fun horder => absurd horder hnot⟩, by decide⟩

end DeepinServiceManager.GroupOrder
