import Mathlib.Data.List.Basic
import Mathlib.Data.List.Lex
import Mathlib.Data.List.Nodup
import Mathlib.Data.List.Pairwise
import Mathlib.Order.Lattice

/-! Scans of a list in increasing order, or by a key that no two elements share. -/

namespace DeepinServiceManager.OrderedScans

variable {α : Type*} [LinearOrder α] {l : List α}

theorem mem_before_iff {pre post : List α} {i : α} (h : (pre ++ i :: post).Pairwise (· < ·)) {j : α} :
    j ∈ pre ↔ j ∈ pre ++ i :: post ∧ j < i := by
  obtain ⟨-, hpost, hcross⟩ := List.pairwise_append.mp h
  constructor
  · exact fun hj => ⟨List.mem_append_left _ hj, hcross j hj i (by simp)⟩
  · rintro ⟨hj, hlt⟩
    rcases List.mem_append.mp hj with hj | hj
    · exact hj
    · rcases List.mem_cons.mp hj with rfl | hj
      · exact absurd hlt (lt_irrefl j)
      · exact absurd hlt (lt_asymm ((List.pairwise_cons.mp hpost).1 j hj))

theorem find?_eq_some_iff_first (h : l.Pairwise (· < ·)) (p : α → Bool) (i : α) :
    l.find? p = some i ↔ i ∈ l ∧ p i = true ∧ ∀ j ∈ l, j < i → p j = false := by
  rw [List.find?_eq_some_iff_append]
  constructor
  · rintro ⟨hp, pre, post, rfl, hpre⟩
    refine ⟨by simp, hp, fun j hj hlt => ?_⟩
    simpa using hpre j ((mem_before_iff h).mpr ⟨hj, hlt⟩)
  · rintro ⟨hi, hp, hfirst⟩
    obtain ⟨pre, post, rfl⟩ := List.append_of_mem hi
    refine ⟨hp, pre, post, rfl, fun j hj => ?_⟩
    obtain ⟨hmem, hlt⟩ := (mem_before_iff h).mp hj
    simpa using hfirst j hmem hlt

theorem find?_least {β : Type*} {entries : List β} {key : β → α} (h : (entries.map key).Pairwise (· < ·))
    {p : β → Bool} {b : β} : entries.find? p = some b ↔
      b ∈ entries ∧ p b = true ∧ ∀ c ∈ entries, p c = true → key b ≤ key c := by
  induction entries with
  | nil => simp
  | cons c rest ih =>
    rw [List.map_cons, List.pairwise_cons, List.forall_mem_map] at h
    rw [List.find?_cons]
    cases hc : p c with
    | true =>
      constructor
      · rintro ⟨⟩
        exact ⟨List.mem_cons_self, hc, List.forall_mem_cons.mpr ⟨fun _ => le_rfl, fun d hd _ => le_of_lt (h.1 d hd)⟩⟩
      · rintro ⟨hb, -, hleast⟩
        rcases List.mem_cons.mp hb with rfl | hb
        · rfl
        · exact absurd (hleast c List.mem_cons_self hc) (not_le.mpr (h.1 b hb))
    | false =>
      simp only [ih h.2]
      constructor
      · rintro ⟨hb, hpb, hleast⟩
        refine ⟨List.mem_cons_of_mem c hb, hpb, List.forall_mem_cons.mpr ⟨fun hpc => ?_, hleast⟩⟩
        rw [hc] at hpc
        cases hpc
      · rintro ⟨hb, hpb, hleast⟩
        refine ⟨?_, hpb, (List.forall_mem_cons.mp hleast).2⟩
        rcases List.mem_cons.mp hb with rfl | hb
        · rw [hc] at hpb
          cases hpb
        · exact hb

theorem prefix_le {l₁ l₂ : List α} (h : l₁ <+: l₂) : l₁ ≤ l₂ := not_lt.mp h.le

theorem prefix_le_iff {l₁ l₂ l : List α} (h₁ : l₁ <+: l) (h₂ : l₂ <+: l) : l₁ ≤ l₂ ↔ l₁.length ≤ l₂.length := by
  constructor
  · intro hle
    by_contra hlt
    have hprefix : l₂ <+: l₁ := List.prefix_of_prefix_length_le h₂ h₁ (by omega)
    have heq : l₁ = l₂ := le_antisymm hle (prefix_le hprefix)
    exact hlt (heq ▸ le_rfl)
  · exact fun hlength => prefix_le (List.prefix_of_prefix_length_le h₁ h₂ hlength)

theorem find?_transfer (h : l.Pairwise (· < ·)) {p p' : α → Bool}
    (hdiffer : ∀ i ∈ l, p i ≠ p' i → ∃ j ∈ l, j < i ∧ p j = true ∧ p' j = true) {i : α}
    (hi : l.find? p = some i) : l.find? p' = some i := by
  rw [find?_eq_some_iff_first h] at hi ⊢
  obtain ⟨hmem, hp, hfirst⟩ := hi
  have hearlier : ∀ j ∈ l, j ≤ i → p j = p' j := by
    intro j hj hle
    by_contra hne
    obtain ⟨k, hk, hlt, hpk, -⟩ := hdiffer j hj hne
    rw [hfirst k hk (lt_of_lt_of_le hlt hle)] at hpk
    cases hpk
  refine ⟨hmem, by rw [← hearlier i hmem le_rfl, hp], fun j hj hlt => ?_⟩
  rw [← hearlier j hj (le_of_lt hlt)]
  exact hfirst j hj hlt

theorem find?_same_step (h : l.Pairwise (· < ·)) {p p' : α → Bool} (hsame : l.find? p = l.find? p') {i : α}
    (hi : i ∈ l) (hp : p i = true) (hp' : p' i = false) : ∃ j ∈ l, j < i ∧ p j = true ∧ p' j = true := by
  have hsome : (l.find? p).isSome = true := List.find?_isSome.mpr ⟨i, hi, hp⟩
  obtain ⟨j, hj⟩ := Option.isSome_iff_exists.mp hsome
  obtain ⟨hmem, hpj, hfirst⟩ := (find?_eq_some_iff_first h p j).mp hj
  obtain ⟨-, hpj', -⟩ := (find?_eq_some_iff_first h p' j).mp (hsame ▸ hj)
  refine ⟨j, hmem, ?_, hpj, hpj'⟩
  rcases lt_trichotomy j i with hlt | rfl | hlt
  · exact hlt
  · rw [hp'] at hpj'
    cases hpj'
  · rw [hfirst i hi hlt] at hp
    cases hp

/-- Two scans stop at the same element when every element they judge differently comes after one that both accept. -/
theorem find?_same_iff (h : l.Pairwise (· < ·)) (p p' : α → Bool) : l.find? p = l.find? p' ↔
    ∀ i ∈ l, p i ≠ p' i → ∃ j ∈ l, j < i ∧ p j = true ∧ p' j = true := by
  constructor
  · intro hsame i hi hne
    cases hp : p i with
    | true => exact find?_same_step h hsame hi hp (by simpa [hp] using hne.symm)
    | false =>
      obtain ⟨j, hj, hlt, hpj', hpj⟩ := find?_same_step h hsame.symm hi (by simpa [hp] using hne.symm) hp
      exact ⟨j, hj, hlt, hpj, hpj'⟩
  · intro hdiffer
    apply Option.ext
    intro i
    constructor
    · exact find?_transfer h hdiffer
    · apply find?_transfer h
      intro j hj hne
      obtain ⟨k, hk, hlt, hpk, hpk'⟩ := hdiffer j hj hne.symm
      exact ⟨k, hk, hlt, hpk', hpk⟩

theorem find?_unique_iff {α : Type*} {p : α → Bool} {l : List α}
    (h : ∀ a ∈ l, ∀ b ∈ l, p a = true → p b = true → a = b) (a : α) : l.find? p = some a ↔ a ∈ l ∧ p a = true := by
  constructor
  · intro hfind
    exact ⟨List.mem_of_find?_eq_some hfind, List.find?_some hfind⟩
  · rintro ⟨ha, hp⟩
    have hsome : (l.find? p).isSome = true := List.find?_isSome.mpr ⟨a, ha, hp⟩
    obtain ⟨b, hb⟩ := Option.isSome_iff_exists.mp hsome
    rw [hb, h b (List.mem_of_find?_eq_some hb) a ha (List.find?_some hb) hp]

theorem find?_perm {α : Type*} {p : α → Bool} {l l' : List α} (hperm : l.Perm l')
    (h : ∀ a ∈ l, ∀ b ∈ l, p a = true → p b = true → a = b) : l.find? p = l'.find? p := by
  apply Option.ext
  intro a
  have h' : ∀ a ∈ l', ∀ b ∈ l', p a = true → p b = true → a = b := fun a ha b hb =>
    h a (hperm.mem_iff.mpr ha) b (hperm.mem_iff.mpr hb)
  rw [find?_unique_iff h, find?_unique_iff h', hperm.mem_iff]

theorem find?_key_eq_some_iff {α κ : Type*} [DecidableEq κ] {key : α → κ} {l : List α} (h : (l.map key).Nodup)
    (k : κ) (a : α) : l.find? (fun x => key x = k) = some a ↔ a ∈ l ∧ key a = k := by
  rw [find?_unique_iff, decide_eq_true_iff]
  intro a ha b hb hka hkb
  exact List.inj_on_of_nodup_map h ha hb ((of_decide_eq_true hka).trans (of_decide_eq_true hkb).symm)

end DeepinServiceManager.OrderedScans
