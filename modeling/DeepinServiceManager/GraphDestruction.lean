import DeepinServiceManager.SortPolicy

namespace DeepinServiceManager.GraphDestruction

open DeepinServiceManager.Graph SortPolicy

variable {T : Type} [DecidableEq T]

/-- The number of the first edge from a vertex. -/
def firstFrom (edges : List (T × T)) (v : T) : Option ℕ :=
  (edges.zipIdx.find? (fun e => e.1.1 = v)).map Prod.snd

theorem firstNode_linked (vexs : List T) (edges : List (T × T)) (n : ℕ) :
    ((linked vexs edges.zipIdx).take n).filterMap firstNode = (vexs.take n).filterMap (firstFrom edges) := by
  rw [linked, ← List.map_take, List.filterMap_map]
  congr 1
  funext v
  simp only [firstNode, firstFrom, Function.comp_apply, List.head?_map, List.head?_filter, Option.map_map]
  rfl

theorem firstFrom_eq_some {edges : List (T × T)} {v : T} {i : ℕ} (h : firstFrom edges v = some i) :
    ∃ e, edges[i]? = some e ∧ e.1 = v := by
  obtain ⟨⟨e, j⟩, hfind, rfl⟩ := Option.map_eq_some_iff.mp h
  refine ⟨e, ?_, by simpa using List.find?_some hfind⟩
  simpa [List.mem_zipIdx_iff_getElem?] using List.mem_of_find?_eq_some hfind

theorem firstFrom_isSome {edges : List (T × T)} {v : T} :
    (firstFrom edges v).isSome = true ↔ v ∈ edges.map Prod.fst := by
  rw [firstFrom, Option.isSome_map, List.find?_isSome, List.mem_map]
  constructor
  · rintro ⟨e, he, hv⟩
    exact ⟨e.1, List.fst_mem_of_mem_zipIdx he, by simpa using hv⟩
  · rintro ⟨e, he, rfl⟩
    obtain ⟨i, hi⟩ := List.getElem?_of_mem he
    exact ⟨(e, i), by simpa [List.mem_zipIdx_iff_getElem?] using hi, by simp⟩

def DestroyedOnce (vexs : List T) (edges : List (T × T)) : Prop :=
  ∃ g freed, Graph.ofEdges vexs edges = some g ∧ g.destroy = some freed ∧ freed.Perm (List.range edges.length)

theorem perm_of_subset {α : Type} {l l' : List α} (hl : l.Nodup) (hsub : l ⊆ l') (hlength : l'.length ≤ l.length) :
    l.Perm l' :=
  (hl.subperm hsub).perm_of_length_le hlength

theorem freed_nodup (edges : List (T × T)) {vexs : List T} (hvexs : vexs.Nodup) :
    (vexs.filterMap (firstFrom edges)).Nodup := by
  apply hvexs.filterMap
  intro v w i hv hw
  obtain ⟨e, he, rfl⟩ := firstFrom_eq_some hv
  obtain ⟨e', he', rfl⟩ := firstFrom_eq_some hw
  rw [he] at he'
  rw [Option.some.inj he']

theorem freed_subset (vexs : List T) (edges : List (T × T)) :
    vexs.filterMap (firstFrom edges) ⊆ List.range edges.length := by
  intro i hi
  obtain ⟨v, -, hv⟩ := List.mem_filterMap.mp hi
  obtain ⟨e, he, -⟩ := firstFrom_eq_some hv
  exact List.mem_range.mpr (List.getElem?_eq_some_iff.mp he).1

theorem freed_perm_iff {vexs : List T} (hvexs : vexs.Nodup) {edges : List (T × T)}
    (hlength : vexs.length = edges.length) :
    (vexs.filterMap (firstFrom edges)).Perm (List.range edges.length) ↔ (edges.map Prod.fst).Perm vexs := by
  have hall : (vexs.filterMap (firstFrom edges)).length = vexs.length ↔ ∀ v ∈ vexs, v ∈ edges.map Prod.fst := by
    rw [List.filterMap_length_eq_length]
    exact forall₂_congr fun v _ => firstFrom_isSome
  constructor
  · intro hperm
    have hsources := hall.mp (by rw [hperm.length_eq, List.length_range, hlength])
    exact (perm_of_subset hvexs hsources (by simp [hlength])).symm
  · intro hperm
    have hfreed := hall.mpr fun v hv => hperm.mem_iff.mpr hv
    exact perm_of_subset (freed_nodup edges hvexs) (freed_subset vexs edges) (by simp [hfreed, hlength])

theorem destroyedOnce_iff (vexs : List T) (hvexs : vexs.Nodup) (edges : List (T × T))
    (hedges : ∀ e ∈ edges, e.1 ∈ vexs ∧ e.2 ∈ vexs) :
    DestroyedOnce vexs edges ↔ (edges.map Prod.fst).Perm (vexs.take edges.length) := by
  obtain ⟨g, hg, -, hnum, hm⟩ := ofEdges_linked hvexs hedges
  have hsize : g.m_vexs.length = vexs.length := by rw [hm, linked, List.length_map]
  have hbound : edges.length ≤ vexs.length → (g.destroy = some ((vexs.take edges.length).filterMap (firstFrom edges)) ∧
      (vexs.take edges.length).length = edges.length) := by
    intro hle
    rw [destroy_eq (by omega), hnum, hm, firstNode_linked]
    exact ⟨rfl, List.length_take_of_le hle⟩
  constructor
  · rintro ⟨g', freed, hg', hfreed, hperm⟩
    rw [hg] at hg'
    cases hg'
    have hle := destroy_in_bounds hfreed
    obtain ⟨hdestroy, hlength⟩ := hbound (by omega)
    rw [hdestroy] at hfreed
    cases hfreed
    exact (freed_perm_iff (hvexs.take) hlength).mp hperm
  · intro hperm
    have hle : edges.length ≤ vexs.length := by
      have hlength := hperm.length_eq
      rw [List.length_map, List.length_take] at hlength
      omega
    obtain ⟨hdestroy, hlength⟩ := hbound hle
    exact ⟨g, _, hg, hdestroy, (freed_perm_iff (hvexs.take) hlength).mpr hperm⟩

theorem destroyedOnce_pair : DestroyedOnce [0, 1] [(0, 1)] :=
  (destroyedOnce_iff [0, 1] (by decide) [(0, 1)] (by decide)).mpr (by decide)

/-- Three edges between two vertices: the destructor indexes a third vertex. -/
theorem parallel_edges_out_of_bounds : (Graph.ofEdges [0, 1] [(0, 1), (0, 1), (0, 1)]).isSome = true ∧
    (Graph.ofEdges [0, 1] [(0, 1), (0, 1), (0, 1)]).bind Graph.destroy = none := by
  decide

example : (Graph.ofEdges [0, 1] [(1, 0)]).bind Graph.destroy = some [] := by decide

end DeepinServiceManager.GraphDestruction
