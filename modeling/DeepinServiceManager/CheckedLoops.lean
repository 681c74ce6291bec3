import Mathlib.Data.Int.Notation
import Mathlib.Data.List.Basic

/-! Arrays whose accesses are checked, and the rule for a loop over a list whose body may fail. -/

namespace DeepinServiceManager.CheckedLoops

variable {α β σ : Type*}

def readAt (a : List α) (i : ℤ) : Option α := if 0 ≤ i then a[i.toNat]? else none

def writeAt (a : List α) (i : ℤ) (x : α) : Option (List α) :=
  if 0 ≤ i ∧ i.toNat < a.length then some (a.set i.toNat x) else none

@[simp] theorem readAt_natCast (a : List α) (i : ℕ) : readAt a (i : ℤ) = a[i]? := by simp [readAt]

theorem writeAt_natCast (a : List α) (i : ℕ) (x : α) (h : i < a.length) :
    writeAt a (i : ℤ) x = some (a.set i x) := by simp [writeAt, h]

theorem writeAt_eq_some {a b : List α} {i : ℕ} {x : α} (h : writeAt a (i : ℤ) x = some b) :
    i < a.length ∧ b = a.set i x := by
  rw [writeAt] at h
  split_ifs at h with hi
  cases h
  exact ⟨hi.2, rfl⟩

/-- The invariant sees the part of the list already processed and the part still to come. -/
theorem foldlM_invariant (f : σ → α → Option σ) (I : List α → List α → σ → Prop)
    (hstep : ∀ pre x post s, I pre (x :: post) s → ∃ t, f s x = some t ∧ I (pre ++ [x]) post t)
    (l : List α) (pre : List α) (s : σ) (hs : I pre l s) :
    ∃ t, l.foldlM f s = some t ∧ I (pre ++ l) [] t := by
  induction l generalizing pre s with
  | nil => exact ⟨s, rfl, by simpa using hs⟩
  | cons x l ih =>
    obtain ⟨t, ht, hI⟩ := hstep pre x l s hs
    obtain ⟨u, hu, hI'⟩ := ih (pre ++ [x]) t hI
    refine ⟨u, ?_, by simpa using hI'⟩
    simp only [List.foldlM_cons, ht, Option.bind_eq_bind, Option.bind_some, hu]

theorem foldlM_mem {f : σ → α → Option σ} {l : List α} {s t : σ} (h : l.foldlM f s = some t) {x : α} (hx : x ∈ l) :
    ∃ u v, f u x = some v := by
  induction l generalizing s with
  | nil => cases hx
  | cons y l ih =>
    rw [List.foldlM_cons] at h
    obtain ⟨u, hu, h⟩ := Option.bind_eq_some_iff.mp h
    rcases List.mem_cons.mp hx with rfl | hx
    · exact ⟨s, u, hu⟩
    · exact ih h hx

theorem foldlM_preserves {f : σ → α → Option σ} (I : σ → Prop) {l : List α}
    (hstep : ∀ x ∈ l, ∀ s t, I s → f s x = some t → I t) {s t : σ} (hs : I s) (h : l.foldlM f s = some t) : I t := by
  induction l generalizing s with
  | nil =>
    cases h
    exact hs
  | cons x l ih =>
    rw [List.foldlM_cons] at h
    obtain ⟨u, hu, h⟩ := Option.bind_eq_some_iff.mp h
    exact ih (fun y hy => hstep y (List.mem_cons_of_mem _ hy)) (hstep x List.mem_cons_self s u hs hu) h

end DeepinServiceManager.CheckedLoops
