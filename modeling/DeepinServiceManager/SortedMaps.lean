import Mathlib.Order.Lattice
import Mathlib.Data.List.Basic
import DeepinServiceManager.OrderedScans

/-! Finite maps kept as an association list in increasing order of the keys. -/

namespace DeepinServiceManager.SortedMaps

open OrderedScans

variable {κ ν : Type*} [LinearOrder κ]

def insertEntry (k : κ) (v : ν) : List (κ × ν) → List (κ × ν)
  | [] => [(k, v)]
  | (k', v') :: rest =>
    if k < k' then (k, v) :: (k', v') :: rest
    else if k = k' then (k, v) :: rest
    else (k', v') :: insertEntry k v rest

theorem mem_insertEntry_keys (k : κ) (v : ν) (entries : List (κ × ν)) (x : κ) :
    x ∈ (insertEntry k v entries).map Prod.fst ↔ x = k ∨ x ∈ entries.map Prod.fst := by
  induction entries with
  | nil => simp [insertEntry]
  | cons e rest ih =>
    obtain ⟨k', v'⟩ := e
    simp only [insertEntry]
    split_ifs with hlt heq
    · simp
    · subst heq; simp
    · simp only [List.map_cons, List.mem_cons, ih]
      tauto

theorem insertEntry_sorted (k : κ) (v : ν) (entries : List (κ × ν))
    (h : (entries.map Prod.fst).Pairwise (· < ·)) : ((insertEntry k v entries).map Prod.fst).Pairwise (· < ·) := by
  induction entries with
  | nil => simp [insertEntry]
  | cons e rest ih =>
    obtain ⟨k', v'⟩ := e
    simp only [List.map_cons, List.pairwise_cons] at h
    simp only [insertEntry]
    split_ifs with hlt heq
    · simp only [List.map_cons, List.pairwise_cons, List.mem_cons, forall_eq_or_imp]
      exact ⟨⟨hlt, fun x hx => lt_trans hlt (h.1 x hx)⟩, h⟩
    · subst heq
      simpa only [List.map_cons, List.pairwise_cons] using h
    · simp only [List.map_cons, List.pairwise_cons, mem_insertEntry_keys]
      refine ⟨?_, ih h.2⟩
      rintro x (rfl | hx)
      · exact lt_of_le_of_ne (not_lt.mp hlt) (Ne.symm heq)
      · exact h.1 x hx

theorem mem_insertEntry (k : κ) (v : ν) {entries : List (κ × ν)} (h : (entries.map Prod.fst).Pairwise (· < ·))
    (e : κ × ν) : e ∈ insertEntry k v entries ↔ e = (k, v) ∨ e ∈ entries ∧ e.1 ≠ k := by
  induction entries with
  | nil => simp [insertEntry]
  | cons e' rest ih =>
    obtain ⟨k', v'⟩ := e'
    simp only [List.map_cons, List.pairwise_cons, List.forall_mem_map] at h
    have hrest : ∀ {x}, k ≤ k' → x ∈ rest → x.1 ≠ k := fun hle hx heq =>
      absurd (h.1 _ hx) (not_lt.mpr (heq ▸ hle))
    simp only [insertEntry]
    split_ifs with hlt heq
    · have hne : k' ≠ k := ne_of_gt hlt
      simp only [List.mem_cons]
      constructor
      · rintro (rfl | rfl | hx)
        · exact .inl rfl
        · exact .inr ⟨.inl rfl, hne⟩
        · exact .inr ⟨.inr hx, hrest (le_of_lt hlt) hx⟩
      · rintro (rfl | ⟨hx, -⟩)
        · exact .inl rfl
        · exact .inr hx
    · subst heq
      simp only [List.mem_cons]
      constructor
      · rintro (rfl | hx)
        · exact .inl rfl
        · exact .inr ⟨.inr hx, hrest le_rfl hx⟩
      · rintro (rfl | ⟨rfl | hx, hne⟩)
        · exact .inl rfl
        · exact absurd rfl hne
        · exact .inr hx
    · simp only [List.mem_cons, ih h.2]
      constructor
      · rintro (rfl | rfl | hx)
        · exact .inr ⟨.inl rfl, Ne.symm heq⟩
        · exact .inl rfl
        · exact .inr ⟨.inr hx.1, hx.2⟩
      · rintro (rfl | ⟨rfl | hx, hne⟩)
        · exact .inr (.inl rfl)
        · exact .inl rfl
        · exact .inr (.inr ⟨hx, hne⟩)

theorem insertEntry_last {k : κ} {entries : List (κ × ν)} (h : ∀ e ∈ entries, e.1 < k) (v : ν) :
    insertEntry k v entries = entries ++ [(k, v)] := by
  induction entries with
  | nil => rfl
  | cons e rest ih =>
    obtain ⟨k', v'⟩ := e
    have hlt : k' < k := h (k', v') List.mem_cons_self
    have hrest : ∀ e ∈ rest, e.1 < k := fun e he => h e (List.mem_cons_of_mem _ he)
    rw [insertEntry, if_neg (not_lt.mpr (le_of_lt hlt)), if_neg (ne_of_gt hlt), ih hrest]
    rfl

structure SortedMap (κ ν : Type*) [LinearOrder κ] where
  entries : List (κ × ν)
  sorted : (entries.map Prod.fst).Pairwise (· < ·)

namespace SortedMap

def empty : SortedMap κ ν := ⟨[], List.Pairwise.nil⟩

def insert (m : SortedMap κ ν) (k : κ) (v : ν) : SortedMap κ ν :=
  ⟨insertEntry k v m.entries, insertEntry_sorted k v m.entries m.sorted⟩

def find? (m : SortedMap κ ν) (k : κ) : Option ν := (m.entries.find? (fun e => e.1 = k)).map Prod.snd

def keys (m : SortedMap κ ν) : List κ := m.entries.map Prod.fst

theorem find?_eq_some_iff {m : SortedMap κ ν} {k : κ} {v : ν} : m.find? k = some v ↔ (k, v) ∈ m.entries := by
  have hnodup : (m.entries.map Prod.fst).Nodup := m.sorted.nodup
  rw [find?, Option.map_eq_some_iff]
  constructor
  · rintro ⟨e, he, rfl⟩
    obtain ⟨hmem, rfl⟩ := (find?_key_eq_some_iff hnodup k e).mp he
    exact hmem
  · exact fun h => ⟨(k, v), (find?_key_eq_some_iff hnodup k (k, v)).mpr ⟨h, rfl⟩, rfl⟩

theorem ext_find? {m m' : SortedMap κ ν} (h : ∀ k, m.find? k = m'.find? k) : m = m' := by
  have hnodup (m : SortedMap κ ν) : m.entries.Nodup := List.Nodup.of_map Prod.fst m.sorted.nodup
  have hperm : m.entries.Perm m'.entries := by
    rw [List.perm_ext_iff_of_nodup (hnodup m) (hnodup m')]
    rintro ⟨k, v⟩
    rw [← find?_eq_some_iff, ← find?_eq_some_iff, h k]
  have heq : m.entries = m'.entries := by
    apply hperm.eq_of_pairwise _ (List.pairwise_map.mp m.sorted) (List.pairwise_map.mp m'.sorted)
    intro e e' _ _ hlt hgt
    exact absurd hgt (lt_asymm hlt)
  cases m
  cases m'
  cases heq
  rfl

theorem mem_keys_iff {m : SortedMap κ ν} {k : κ} : k ∈ m.keys ↔ ∃ v, m.find? k = some v := by
  simp only [keys, List.mem_map, find?_eq_some_iff]
  constructor
  · rintro ⟨e, he, rfl⟩
    exact ⟨e.2, he⟩
  · rintro ⟨v, hv⟩
    exact ⟨(k, v), hv, rfl⟩

theorem find?_eq_none_iff {m : SortedMap κ ν} {k : κ} : m.find? k = none ↔ k ∉ m.keys := by
  rw [mem_keys_iff, ← Option.isSome_iff_exists, Option.not_isSome_iff_eq_none]

@[simp] theorem find?_empty (k : κ) : (empty : SortedMap κ ν).find? k = none := rfl

theorem find?_insert (m : SortedMap κ ν) (k : κ) (v : ν) (k' : κ) :
    (m.insert k v).find? k' = if k' = k then some v else m.find? k' := by
  apply Option.ext
  intro w
  rw [find?_eq_some_iff, insert, mem_insertEntry k v m.sorted]
  split_ifs with h
  · simp [h, eq_comm]
  · simp [h, find?_eq_some_iff]

theorem find?_foldl_insert {β : Type*} (key : β → κ) (val : β → ν) (l : List β) (m : SortedMap κ ν) (k : κ) :
    (l.foldl (fun m b => m.insert (key b) (val b)) m).find? k =
      ((l.reverse.find? (fun b => key b = k)).map val).or (m.find? k) := by
  induction l generalizing m with
  | nil => rfl
  | cons b l ih =>
    rw [List.foldl_cons, ih, List.reverse_cons, List.find?_append, find?_insert, List.find?_singleton]
    by_cases hkey : k = key b
    · subst hkey
      cases l.reverse.find? (fun c => key c = key b) <;> simp
    · have hne : key b ≠ k := Ne.symm hkey
      simp [hkey, hne]

end SortedMap

end DeepinServiceManager.SortedMaps
