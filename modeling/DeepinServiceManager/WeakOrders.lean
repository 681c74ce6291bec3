import Mathlib.Data.List.Basic
import Mathlib.Order.Lattice

/-! What a sort requires of its comparator on the elements of a list, and what it promises then. -/

namespace DeepinServiceManager.WeakOrders

variable {α κ : Type*} [LinearOrder κ]

def Incomparable (less : α → α → Bool) (a b : α) : Prop := less a b = false ∧ less b a = false

instance (less : α → α → Bool) (a b : α) : Decidable (Incomparable less a b) := inferInstanceAs (Decidable (_ ∧ _))

structure StrictWeakOrderOn (less : α → α → Bool) (l : List α) : Prop where
  irrefl : ∀ a ∈ l, less a a = false
  trans : ∀ a ∈ l, ∀ b ∈ l, ∀ c ∈ l, less a b = true → less b c = true → less a c = true
  incomparable_trans : ∀ a ∈ l, ∀ b ∈ l, ∀ c ∈ l,
    Incomparable less a b → Incomparable less b c → Incomparable less a c

/-- A sort may leave any order behind when its comparator is no strict weak order. -/
structure SortOutcome (less : α → α → Bool) (l sorted : List α) : Prop where
  perm : sorted.Perm l
  ordered : StrictWeakOrderOn less l → sorted.Pairwise (fun a b => less b a = false)

/-- What a sort documents; `none` is undefined behaviour. -/
def SortsWeakOrders (sort : (α → α → Bool) → List α → Option (List α)) : Prop :=
  ∀ less l, StrictWeakOrderOn less l → ∃ sorted, sort less l = some sorted ∧ SortOutcome less l sorted

section Merge

variable {less : α → α → Bool} {l : List α}

theorem StrictWeakOrderOn.asymm (h : StrictWeakOrderOn less l) {a b : α} (ha : a ∈ l) (hb : b ∈ l)
    (hab : less a b = true) : less b a = false := by
  by_contra hba
  have haa := h.trans a ha b hb a ha hab (by simpa using hba)
  rw [h.irrefl a ha] at haa
  cases haa

theorem StrictWeakOrderOn.not_less_trans (h : StrictWeakOrderOn less l) {a b c : α} (ha : a ∈ l) (hb : b ∈ l)
    (hc : c ∈ l) (hba : less b a = false) (hcb : less c b = false) : less c a = false := by
  by_contra hca
  have hca : less c a = true := by simpa using hca
  have hab : less a b = false := by
    by_contra hab
    have hcb' := h.trans c hc a ha b hb hca (by simpa using hab)
    rw [hcb] at hcb'
    cases hcb'
  have hbc : less b c = false := by
    by_contra hbc
    have hba' := h.trans b hb c hc a ha (by simpa using hbc) hca
    rw [hba] at hba'
    cases hba'
  have hac := h.incomparable_trans a ha b hb c hc ⟨hab, hba⟩ ⟨hbc, hcb⟩
  rw [hac.2] at hca
  cases hca

theorem mergeSort_outcome (h : StrictWeakOrderOn less l) : SortOutcome less l (l.mergeSort fun a b => !less b a) := by
  refine ⟨List.mergeSort_perm l _, fun _ => ?_⟩
  -- the order is total only on the elements of the list
  let le (a b : {x // x ∈ l}) : Bool := !less b.1 a.1
  have htrans : ∀ a b c, le a b = true → le b c = true → le a c = true := by
    intro a b c hab hbc
    simp only [le, Bool.not_eq_true'] at hab hbc ⊢
    exact h.not_less_trans a.2 b.2 c.2 hab hbc
  have htotal : ∀ a b, (le a b || le b a) = true := by
    intro a b
    cases hba : less b.1 a.1 with
    | false => simp [le, hba]
    | true => simp [le, h.asymm b.2 a.2 hba]
  have hmap : (l.attach.mergeSort le).map Subtype.val = (l.attach.map Subtype.val).mergeSort fun a b => !less b a :=
    List.map_mergeSort fun _ _ _ _ => rfl
  rw [List.attach_map_subtype_val] at hmap
  rw [← hmap, List.pairwise_map]
  exact (List.pairwise_mergeSort htrans htotal l.attach).imp fun hab => by simpa [le] using hab

theorem mergeSort_sorts : SortsWeakOrders fun (less : α → α → Bool) l => some (l.mergeSort fun a b => !less b a) :=
  fun _ _ h => ⟨_, rfl, mergeSort_outcome h⟩

/-- A sort may have no outcome at all on a list where its comparator is no strict weak order. -/
theorem exists_partial_sort : ∃ sort : (α → α → Bool) → List α → Option (List α), SortsWeakOrders sort ∧
    ∀ less l, ¬ StrictWeakOrderOn less l → sort less l = none := by
  classical
  refine ⟨fun less l => if StrictWeakOrderOn less l then some (l.mergeSort fun a b => !less b a) else none, ?_, ?_⟩
  · intro less l h
    exact ⟨_, if_pos h, mergeSort_outcome h⟩
  · intro less l h
    exact if_neg h

end Merge

/-! A comparator that orders the elements with a property by a key and leaves the others unordered. -/

section Keyed

variable {less : α → α → Bool} {P : α → Prop} {key : α → κ}

theorem incomparable_iff (hless : ∀ a b, less a b = true ↔ P a ∧ P b ∧ key a < key b) {a b : α} :
    Incomparable less a b ↔ (P a → P b → key a = key b) := by
  rw [Incomparable, ← Bool.not_eq_true, ← Bool.not_eq_true, hless, hless]
  constructor
  · rintro ⟨hab, hba⟩ ha hb
    exact le_antisymm (not_lt.mp fun hlt => hba ⟨hb, ha, hlt⟩) (not_lt.mp fun hlt => hab ⟨ha, hb, hlt⟩)
  · intro heq
    constructor
    · exact fun ⟨ha, hb, hlt⟩ => absurd (heq ha hb) (ne_of_lt hlt)
    · exact fun ⟨hb, ha, hlt⟩ => absurd (heq ha hb) (ne_of_gt hlt)

theorem strictWeakOrderOn_iff (hless : ∀ a b, less a b = true ↔ P a ∧ P b ∧ key a < key b) {l : List α} :
    StrictWeakOrderOn less l ↔ (∀ a ∈ l, P a) ∨ ∀ a ∈ l, ∀ b ∈ l, P a → P b → key a = key b := by
  constructor
  · intro horder
    by_contra hnot
    simp only [not_or, not_forall] at hnot
    obtain ⟨⟨x, hx, hPx⟩, a, ha, b, hb, hPa, hPb, hne⟩ := hnot
    have hax : Incomparable less a x := (incomparable_iff hless).mpr (fun _ h => absurd h hPx)
    have hxb : Incomparable less x b := (incomparable_iff hless).mpr (fun h => absurd h hPx)
    have hab := horder.incomparable_trans a ha x hx b hb hax hxb
    exact hne ((incomparable_iff hless).mp hab hPa hPb)
  · intro hkind
    constructor
    · intro a _
      rw [← Bool.not_eq_true, hless]
      exact fun h => lt_irrefl _ h.2.2
    · intro a _ b _ c _ hab hbc
      rw [hless] at hab hbc ⊢
      exact ⟨hab.1, hbc.2.1, lt_trans hab.2.2 hbc.2.2⟩
    · intro a ha b hb c hc hab hbc
      rw [incomparable_iff hless] at hab hbc ⊢
      intro hPa hPc
      rcases hkind with hall | hsame
      · exact (hab hPa (hall b hb)).trans (hbc (hall b hb) hPc)
      · exact hsame a ha c hc hPa hPc

theorem misordered_outcome [DecidableEq α] {l : List α} (hnot : ¬ StrictWeakOrderOn less l) {a b : α} (ha : a ∈ l)
    (hb : b ∈ l) (hPa : P a) (hPb : P b) (hlt : key a < key b) :
    ∃ sorted, SortOutcome less l sorted ∧ ¬ sorted.Pairwise (fun a b => P a → P b → key a ≤ key b) := by
  have hne : a ≠ b := fun heq => lt_irrefl _ (heq ▸ hlt)
  refine ⟨b :: l.erase b, ⟨(List.perm_cons_erase hb).symm, fun horder => absurd horder hnot⟩, fun hpair => ?_⟩
  have hle := (List.pairwise_cons.mp hpair).1 a ((List.mem_erase_of_ne hne).mpr ha) hPb hPa
  exact absurd hlt (not_lt.mpr hle)

theorem sortOutcome_ordered_iff [DecidableEq α] (hless : ∀ a b, less a b = true ↔ P a ∧ P b ∧ key a < key b)
    {l : List α} :
    (∀ sorted, SortOutcome less l sorted → sorted.Pairwise (fun a b => P a → P b → key a ≤ key b)) ↔
      StrictWeakOrderOn less l := by
  constructor
  · intro hordered
    by_contra hnot
    have hkind := mt (strictWeakOrderOn_iff hless).mpr hnot
    simp only [not_or, not_forall] at hkind
    obtain ⟨-, a, ha, b, hb, hPa, hPb, hne⟩ := hkind
    rcases lt_or_gt_of_ne hne with hlt | hlt
    · obtain ⟨sorted, hsorted, hmis⟩ := misordered_outcome hnot ha hb hPa hPb hlt
      exact hmis (hordered sorted hsorted)
    · obtain ⟨sorted, hsorted, hmis⟩ := misordered_outcome hnot hb ha hPb hPa hlt
      exact hmis (hordered sorted hsorted)
  · intro horder sorted hsorted
    refine (hsorted.ordered horder).imp ?_
    intro a b hless' hPa hPb
    rw [← Bool.not_eq_true, hless] at hless'
    exact not_lt.mp fun hlt => hless' ⟨hPb, hPa, hlt⟩

end Keyed

end DeepinServiceManager.WeakOrders
