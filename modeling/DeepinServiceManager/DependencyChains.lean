import Mathlib.Data.List.Basic
import Mathlib.Data.List.Nodup
import Mathlib.Logic.Relation
import Mathlib.Order.WellFounded

/-! How deep an element lies in a relation, and worklists that are kept in the order of the depth. -/

namespace DeepinServiceManager.DependencyChains

variable {α β : Type*} {r : α → α → Prop} {r' : β → β → Prop} {a b j w : α} {k head : ℕ} {q : List α}

/-- `k` steps of the relation lead to the element. -/
inductive Chain (r : α → α → Prop) : ℕ → α → Prop
  | zero (a : α) : Chain r 0 a
  | succ {k : ℕ} {a b : α} : Chain r k a → r a b → Chain r (k + 1) b

def NoDeeper (r : α → α → Prop) (a b : α) : Prop := ∀ k, Chain r k a → Chain r k b

theorem Chain.pred (h : Chain r (k + 1) b) : Chain r k b := by
  induction k generalizing b with
  | zero => exact .zero b
  | succ k ih =>
    cases h with
    | succ ha hab => exact .succ (ih ha) hab

theorem Chain.map (f : α → β) (hf : ∀ a b, r a b → r' (f a) (f b)) (h : Chain r k a) : Chain r' k (f a) := by
  induction h with
  | zero a => exact .zero _
  | succ _ hab ih => exact .succ ih (hf _ _ hab)

theorem acc_of_map (f : α → β) (hf : ∀ a b, r a b → r' (f a) (f b)) (h : Acc r' (f a)) : Acc r a :=
  Subrelation.accessible (fun hab => hf _ _ hab) (InvImage.accessible f h)

theorem not_acc_of_loop (h : r a a) : ¬ Acc r a := by
  intro hacc
  induction hacc with
  | intro a _ ih => exact ih a h h

theorem not_chain_source (h : ∀ a, ¬ r a b) : ¬ Chain r (k + 1) b := by
  rintro (_ | ⟨-, hab⟩)
  exact h _ hab

theorem NoDeeper.refl (a : α) : NoDeeper r a a := fun _ => id

/-- An element whose predecessors are no deeper than one of them is one step deeper than that one. -/
theorem chain_succ_iff (hj : r j w) (hmax : ∀ p, r p w → NoDeeper r p j) : Chain r (k + 1) w ↔ Chain r k j := by
  constructor
  · rintro (_ | ⟨hp, hpw⟩)
    exact hmax _ hpw k hp
  · exact fun h => .succ h hj

/-- A worklist of which `head` elements are taken out, the last of them being worked on: its elements stand in the order
of their depth, and none is more than one step deeper than those from the last one on. -/
structure Levelled (r : α → α → Prop) (head : ℕ) (q : List α) : Prop where
  sorted : q.Pairwise (NoDeeper r)
  near : ∀ x ∈ q, ∀ y ∈ q.drop (head - 1), ∀ k, Chain r (k + 1) x → Chain r k y

theorem Levelled.of_sources (h : ∀ x ∈ q, ∀ a, ¬ r a x) : Levelled r 0 q where
  sorted := by
    apply List.pairwise_of_forall_mem_list
    intro x hx y _ k hk
    cases k with
    | zero => exact .zero y
    | succ k => exact absurd hk (not_chain_source (h x hx))
  near x hx _ _ _ hk := absurd hk (not_chain_source (h x hx))

theorem Levelled.advance (h : Levelled r head q) : Levelled r (head + 1) q where
  sorted := h.sorted
  near x hx y hy := h.near x hx y ((List.drop_sublist_drop_left q (by omega)).subset hy)

theorem Levelled.before (h : Levelled r head q) (hj : q[head - 1]? = some j) {p : α} (hp : p ∈ q.take head) :
    NoDeeper r p j := by
  obtain ⟨i, hi, rfl⟩ := List.mem_take_iff_getElem.mp hp
  obtain ⟨hlast, rfl⟩ := List.getElem?_eq_some_iff.mp hj
  rcases Nat.lt_or_ge i (head - 1) with hlt | hge
  · exact List.pairwise_iff_getElem.mp h.sorted i (head - 1) _ hlast hlt
  · obtain rfl : i = head - 1 := by omega
    exact NoDeeper.refl _

theorem Levelled.snoc (h : Levelled r head q) (hhead : 0 < head) (hj : q[head - 1]? = some j) (hw : r j w)
    (hpreds : ∀ p, r p w → p ∈ q.take head) : Levelled r head (q ++ [w]) := by
  have hiff : ∀ k, Chain r (k + 1) w ↔ Chain r k j := fun k =>
    chain_succ_iff hw fun p hp => h.before hj (hpreds p hp)
  obtain ⟨hlast, hlast_eq⟩ := List.getElem?_eq_some_iff.mp hj
  have hdrop : (q ++ [w]).drop (head - 1) = q.drop (head - 1) ++ [w] := List.drop_append_of_le_length hlast.le
  have hjdrop : q.drop (head - 1) = j :: q.drop head := by
    rw [List.drop_eq_getElem_cons hlast, hlast_eq]
    congr 2
    omega
  have hafter : ∀ y ∈ q.drop (head - 1), NoDeeper r j y := by
    have hpair := h.sorted.sublist (List.drop_sublist (head - 1) q)
    rw [hjdrop, List.pairwise_cons] at hpair
    rw [hjdrop, List.forall_mem_cons]
    exact ⟨NoDeeper.refl j, hpair.1⟩
  have hnear : ∀ x ∈ q, ∀ k, Chain r (k + 1) x → Chain r k j := fun x hx => h.near x hx j (by simp [hjdrop])
  constructor
  · refine List.pairwise_append.mpr ⟨h.sorted, List.pairwise_singleton _ _, ?_⟩
    intro x hx y hy k hk
    rw [List.mem_singleton.mp hy]
    cases k with
    | zero => exact .zero w
    | succ k => exact (hiff k).mpr (hnear x hx k hk)
  · intro x hx y hy k hk
    have hxj : Chain r k j := by
      rcases List.mem_append.mp hx with hx | hx
      · exact hnear x hx k hk
      · rw [List.mem_singleton.mp hx] at hk
        exact (hiff k).mp hk
    rw [hdrop] at hy
    rcases List.mem_append.mp hy with hy | hy
    · exact hafter y hy k hxj
    · rw [List.mem_singleton.mp hy]
      exact ((hiff k).mpr hxj).pred

/-- A list that holds the predecessors of its elements before them holds none that a cycle leads to. -/
theorem acc_of_ordered [DecidableEq α] (h : ∀ v ∈ q, ∀ u, r u v → u ∈ q ∧ q.idxOf u < q.idxOf v) :
    ∀ v ∈ q, Acc r v := by
  have hmain : ∀ i, ∀ v ∈ q, q.idxOf v = i → Acc r v := by
    intro i
    induction i using Nat.strong_induction_on with
    | _ i ih =>
      rintro v hv rfl
      constructor
      intro u hu
      obtain ⟨hmem, hlt⟩ := h v hv u hu
      exact ih _ hlt u hmem rfl
  exact fun v hv => hmain _ v hv rfl

end DeepinServiceManager.DependencyChains
