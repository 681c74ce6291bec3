import Mathlib.Data.List.Nodup

/-! Lists that a loop builds: an element at the end, a slot of an array, the results of a call for each element. -/

namespace DeepinServiceManager.ListBuilding

variable {α β : Type*}

theorem nodup_snoc {l : List α} {a : α} (hl : l.Nodup) (ha : a ∉ l) : (l ++ [a]).Nodup := by
  rw [← List.concat_eq_append]
  exact hl.concat ha

theorem notMem_left_of_nodup {pre post : List α} {a : α} (h : (pre ++ a :: post).Nodup) : a ∉ pre := by
  have hcons := List.nodup_cons.mp (List.nodup_middle.mp h)
  intro ha
  exact hcons.1 (List.mem_append_left _ ha)

theorem take_succ_set (a : List α) (i : ℕ) (x : α) (hi : i < a.length) :
    (a.set i x).take (i + 1) = a.take i ++ [x] := by
  rw [List.take_add_one, List.take_set_of_le (Nat.le_refl i)]
  simp [hi]

theorem mapM_eq_some {f : α → Option β} {g : α → β} {l : List α} (h : ∀ x ∈ l, f x = some (g x)) :
    l.mapM f = some (l.map g) := by
  induction l with
  | nil => rfl
  | cons x l ih =>
    rw [List.mapM_cons, h x (by simp), ih (fun y hy => h y (List.mem_cons_of_mem _ hy))]
    rfl

theorem mapM_mem {f : α → Option β} {l : List α} {r : List β} (h : l.mapM f = some r) {x : α} (hx : x ∈ l) :
    ∃ y, f x = some y := by
  induction l generalizing r with
  | nil => cases hx
  | cons y l ih =>
    rw [List.mapM_cons] at h
    obtain ⟨b, hb, h⟩ := Option.bind_eq_some_iff.mp h
    obtain ⟨rest, hrest, -⟩ := Option.bind_eq_some_iff.mp h
    rcases List.mem_cons.mp hx with rfl | hx
    · exact ⟨b, hb⟩
    · exact ih hrest hx

theorem flatMap_labelled (label : α → β) (P : α → Prop) {labels : List β} (hlabels : labels.Nodup)
    {f : β → List α} (hnodup : ∀ b ∈ labels, (f b).Nodup) (hmem : ∀ b ∈ labels, ∀ a, a ∈ f b ↔ P a ∧ label a = b) :
    (labels.flatMap f).Nodup ∧ ∀ a, a ∈ labels.flatMap f ↔ P a ∧ label a ∈ labels := by
  constructor
  · apply List.nodup_flatMap.mpr
    refine ⟨hnodup, hlabels.imp_of_mem ?_⟩
    intro b c hb hc hne a hab hac
    apply hne
    rw [← ((hmem b hb a).mp hab).2, ((hmem c hc a).mp hac).2]
  · intro a
    rw [List.mem_flatMap]
    constructor
    · rintro ⟨b, hb, hab⟩
      obtain ⟨ha, rfl⟩ := (hmem b hb a).mp hab
      exact ⟨ha, hb⟩
    · rintro ⟨ha, hlabel⟩
      exact ⟨label a, hlabel, (hmem _ hlabel a).mpr ⟨ha, rfl⟩⟩

end DeepinServiceManager.ListBuilding
