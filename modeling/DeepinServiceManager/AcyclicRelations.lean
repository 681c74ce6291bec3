import Mathlib.Logic.Relation
import Mathlib.Order.WellFounded
import Mathlib.Data.Fintype.EquivFin
import Mathlib.Data.Fintype.Sets

/-! Relations without cycles, over any type. -/

namespace DeepinServiceManager.AcyclicRelations

open Relation

variable {α : Type*} {r : α → α → Prop}

def Acyclic (r : α → α → Prop) : Prop := ∀ x, ¬ TransGen r x x

theorem acyclic_of_rank (f : α → ℕ) (h : ∀ a b, r a b → f a < f b) : Acyclic r := by
  have hlt : ∀ a b, TransGen r a b → f a < f b := by
    intro a b hab
    induction hab with
    | single hab => exact h _ _ hab
    | tail _ hbc ih => exact ih.trans (h _ _ hbc)
  exact fun x hx => (hlt x x hx).false

/-- A finite nonempty set in which every element has a predecessor carries a cycle. -/
theorem not_acyclic_of_predecessors (s : Finset α) (hne : s.Nonempty) (h : ∀ v ∈ s, ∃ u ∈ s, r u v) :
    ¬ Acyclic r := by
  intro hr
  let q : s → s → Prop := fun a b => TransGen r a b
  have : IsTrans s q := ⟨fun _ _ _ hab hbc => TransGen.trans hab hbc⟩
  have : Std.Irrefl q := ⟨fun a => hr a⟩
  have hwf : WellFounded q := Finite.wellFounded_of_trans_of_irrefl q
  obtain ⟨v, hv⟩ := hne
  obtain ⟨m, -, hm⟩ := hwf.has_min Set.univ ⟨⟨v, hv⟩, trivial⟩
  obtain ⟨u, hu, hum⟩ := h m m.2
  exact hm ⟨u, hu⟩ trivial (TransGen.single hum)

end DeepinServiceManager.AcyclicRelations
