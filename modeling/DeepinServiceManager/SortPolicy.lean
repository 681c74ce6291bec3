import DeepinServiceManager.Policy
import DeepinServiceManager.TopologicalSort

namespace DeepinServiceManager

open AcyclicRelations CheckedLoops TopologicalSort

/-- The address of a `Policy`; a heap gives the object behind each address. -/
abbrev PolicyPtr := ℕ

namespace PluginLoader

def containsDependency (heap : PolicyPtr → Policy) (policys : List PolicyPtr) (name : String) : Option PolicyPtr :=
  policys.find? (fun policy => (heap policy).name = name)

def dependencyEdges (heap : PolicyPtr → Policy) (policys : List PolicyPtr) : List (PolicyPtr × PolicyPtr) :=
  policys.flatMap (fun policy => (heap policy).dependencies.filterMap (fun dependency =>
    (containsDependency heap policys dependency).map (fun dependencyPolicy => (dependencyPolicy, policy))))

-- The scoped pointer deletes the graph before the caller gets the result.
def sortPolicy (heap : PolicyPtr → Policy) (policys : List PolicyPtr) : Option (List PolicyPtr) := do
  let graph ← Graph.ofEdges policys (dependencyEdges heap policys)
  let (_, result) ← graph.topologicalSort []
  let _ ← graph.destroy
  return result

end PluginLoader

namespace SortPolicy

open PluginLoader

variable {T : Type} [DecidableEq T] [Inhabited T]

def vertex (vexs : List T) (u : ℕ) : T := vexs.getD u default

def targets (vexs : List T) (edges : List (T × T)) (u : ℕ) : List ℕ :=
  (edges.filter (fun e => e.1 = vertex vexs u)).map (fun e => vexs.idxOf e.2)

omit [DecidableEq T] in
theorem vertex_eq {vexs : List T} {u : ℕ} (hu : u < vexs.length) : vertex vexs u = vexs[u] := by
  simp [vertex, hu]

theorem vertex_idxOf {vexs : List T} {a : T} (ha : a ∈ vexs) : vertex vexs (vexs.idxOf a) = a := by
  have hlt := List.idxOf_lt_length_of_mem ha
  rw [vertex_eq hlt, List.getElem_idxOf]

theorem idxOf_vertex {vexs : List T} (hn : vexs.Nodup) {u : ℕ} (hu : u < vexs.length) :
    vexs.idxOf (vertex vexs u) = u := by
  rw [vertex_eq hu, hn.idxOf_getElem]

omit [DecidableEq T] in
theorem map_vertex_range (vexs : List T) : (List.range vexs.length).map (vertex vexs) = vexs := by
  apply List.ext_getElem
  · simp
  · intro i h hi
    rw [List.getElem_map, List.getElem_range, vertex_eq hi]

omit [Inhabited T] in
theorem getPosition_eq {g : Graph T} {vexs : List T} (hnum : g.m_vexNum = vexs.length)
    (hdata : g.m_vexs.map VNode.data = vexs) {c : T} (hc : c ∈ vexs) : g.getPosition c = (vexs.idxOf c : ℕ) := by
  subst hdata
  have hfind : g.m_vexs.findIdx? (fun v => v.data = c) = some ((g.m_vexs.map VNode.data).idxOf c) := by
    obtain ⟨v, hv, rfl⟩ := List.mem_map.mp hc
    rw [List.findIdx?_eq_some_of_exists ⟨v, hv, by simp⟩, List.idxOf, List.findIdx_map]
    rfl
  rw [List.length_map] at hnum
  rw [Graph.getPosition, hnum, List.take_length, hfind]

def linked (vexs : List T) (es : List ((T × T) × ℕ)) : List (VNode T) :=
  vexs.map (fun v => ⟨v, (es.filter (fun e => e.1.1 = v)).map (fun e => ⟨e.2, vexs.idxOf e.1.2⟩)⟩)

omit [Inhabited T] in
theorem linked_data (vexs : List T) (es : List ((T × T) × ℕ)) : (linked vexs es).map VNode.data = vexs := by
  rw [linked, List.map_map]
  exact List.map_id vexs

omit [Inhabited T] in
theorem linked_get (vexs : List T) (es : List ((T × T) × ℕ)) {u : ℕ} (hu : u < vexs.length) :
    (linked vexs es)[u]? =
      some ⟨vexs[u], (es.filter (fun e => e.1.1 = vexs[u])).map (fun e => ⟨e.2, vexs.idxOf e.1.2⟩)⟩ := by
  rw [linked, List.getElem?_map, List.getElem?_eq_getElem hu]
  rfl

omit [Inhabited T] in
theorem linked_snoc {vexs : List T} (hvexs : vexs.Nodup) (es : List ((T × T) × ℕ)) {e : (T × T) × ℕ}
    (he : e.1.1 ∈ vexs) : (linked vexs es).set (vexs.idxOf e.1.1) ⟨e.1.1,
      (es.filter (fun x => x.1.1 = e.1.1)).map (fun x => ⟨x.2, vexs.idxOf x.1.2⟩) ++ [⟨e.2, vexs.idxOf e.1.2⟩]⟩ =
        linked vexs (es ++ [e]) := by
  have hlt := List.idxOf_lt_length_of_mem he
  apply List.ext_getElem?
  intro i
  by_cases hi : i = vexs.idxOf e.1.1
  · subst hi
    simp [linked, hlt, List.filter_append]
  · rw [List.getElem?_set_ne (Ne.symm hi)]
    by_cases hlen : i < vexs.length
    · have hne : e.1.1 ≠ vexs[i] := by
        intro heq
        apply hi
        rw [heq, hvexs.idxOf_getElem]
      simp [linked_get _ _ hlen, List.filter_append, hne]
    · simp [linked, hlen]

omit [Inhabited T] in
theorem addEdge_linked {g : Graph T} {vexs : List T} (hvexs : vexs.Nodup) (hnum : g.m_vexNum = vexs.length)
    {es : List ((T × T) × ℕ)} (hg : g.m_vexs = linked vexs es) {e : (T × T) × ℕ} (h1 : e.1.1 ∈ vexs)
    (h2 : e.1.2 ∈ vexs) : g.addEdge e = some { g with m_vexs := linked vexs (es ++ [e]) } := by
  have hdata : g.m_vexs.map VNode.data = vexs := by rw [hg, linked_data]
  have hlt := List.idxOf_lt_length_of_mem h1
  have hread := linked_get vexs es hlt
  rw [List.getElem_idxOf] at hread
  have hlen : vexs.idxOf e.1.1 < (linked vexs es).length := by rw [linked, List.length_map]; exact hlt
  simp only [Graph.addEdge, getPosition_eq hnum hdata h1, getPosition_eq hnum hdata h2, hg, readAt_natCast, hread,
    writeAt_natCast _ _ _ hlen, Option.bind_eq_bind, Option.bind_some, Graph.linkLast, linked_snoc hvexs es h1]
  rfl

def LinkInv (vexs : List T) (edges : List (T × T)) (pre post : List ((T × T) × ℕ)) (g : Graph T) : Prop :=
  pre ++ post = edges.zipIdx ∧ g.m_vexNum = vexs.length ∧ g.m_vexs = linked vexs pre

omit [Inhabited T] in
theorem addEdge_inv {vexs : List T} (hvexs : vexs.Nodup) {edges : List (T × T)}
    (hedges : ∀ e ∈ edges, e.1 ∈ vexs ∧ e.2 ∈ vexs) {pre post : List ((T × T) × ℕ)} {e : (T × T) × ℕ} {g : Graph T}
    (hI : LinkInv vexs edges pre (e :: post) g) :
    ∃ t, g.addEdge e = some t ∧ LinkInv vexs edges (pre ++ [e]) post t := by
  obtain ⟨hl, hnum, hm⟩ := hI
  have hmem : e ∈ edges.zipIdx := by rw [← hl]; simp
  obtain ⟨h1, h2⟩ := hedges e.1 (List.fst_mem_of_mem_zipIdx hmem)
  exact ⟨_, addEdge_linked hvexs hnum hm h1 h2, by simpa using hl, hnum, rfl⟩

theorem linked_represents {vexs : List T} {edges : List (T × T)} (hedges : ∀ e ∈ edges, e.1 ∈ vexs ∧ e.2 ∈ vexs)
    {g : Graph T} (hnum : g.m_vexNum = vexs.length) (hm : g.m_vexs = linked vexs edges.zipIdx) :
    Represents g vexs.length (vertex vexs) (targets vexs edges) := by
  refine ⟨hnum, ?_, ?_⟩
  · intro u hu
    have hfirst : (edges.zipIdx.filter (fun e => e.1.1 = vexs[u])).map Prod.fst =
        edges.filter (fun e => e.1 = vexs[u]) := by
      conv_rhs => rw [← List.zipIdx_map_fst 0 edges, List.filter_map]
      rfl
    refine ⟨_, by rw [hm, linked_get _ _ hu], (vertex_eq hu).symm, ?_⟩
    simp only [targets, vertex_eq hu, ← hfirst, List.map_map]
    rfl
  · intro u _ w hw
    obtain ⟨e, he, rfl⟩ := List.mem_map.mp hw
    exact List.idxOf_lt_length_of_mem (hedges e (List.mem_of_mem_filter he)).2

omit [Inhabited T] in
theorem ofEdges_linked {vexs : List T} (hvexs : vexs.Nodup) {edges : List (T × T)}
    (hedges : ∀ e ∈ edges, e.1 ∈ vexs ∧ e.2 ∈ vexs) :
    ∃ g, Graph.ofEdges vexs edges = some g ∧ g.m_vexNum = vexs.length ∧ g.m_edgNum = edges.length ∧
      g.m_vexs = linked vexs edges.zipIdx := by
  obtain ⟨g, hg, -, hnum, hm⟩ := foldlM_invariant Graph.addEdge (LinkInv vexs edges)
    (fun _ _ _ _ => addEdge_inv hvexs hedges) edges.zipIdx []
    ⟨vexs.length, edges.length, vexs.map (fun vex => ⟨vex, []⟩)⟩ ⟨rfl, rfl, rfl⟩
  refine ⟨g, hg, hnum, ?_, hm⟩
  exact foldlM_preserves (fun g => g.m_edgNum = edges.length)
    (fun _ _ _ _ hs h => (Graph.addEdge_edgNum h).trans hs) rfl hg

theorem ofEdges_represents {vexs : List T} (hvexs : vexs.Nodup) {edges : List (T × T)}
    (hedges : ∀ e ∈ edges, e.1 ∈ vexs ∧ e.2 ∈ vexs) :
    ∃ g, Graph.ofEdges vexs edges = some g ∧ g.m_vexNum = vexs.length ∧ g.m_vexs.map VNode.data = vexs ∧
      Represents g vexs.length (vertex vexs) (targets vexs edges) := by
  obtain ⟨g, hg, hnum, -, hm⟩ := ofEdges_linked hvexs hedges
  exact ⟨g, hg, hnum, by rw [hm, linked_data], linked_represents hedges hnum hm⟩

omit [Inhabited T] in
theorem destroy_isSome_iff {vexs : List T} (hvexs : vexs.Nodup) {edges : List (T × T)}
    (hedges : ∀ e ∈ edges, e.1 ∈ vexs ∧ e.2 ∈ vexs) {g : Graph T} (hg : Graph.ofEdges vexs edges = some g) :
    g.destroy.isSome = true ↔ edges.length ≤ vexs.length := by
  obtain ⟨g', hg', -, hnum, hm⟩ := ofEdges_linked hvexs hedges
  obtain rfl : g = g' := Option.some.inj (hg.symm.trans hg')
  have hsize : g.m_vexs.length = vexs.length := by rw [hm, linked, List.length_map]
  rw [← hnum, ← hsize]
  constructor
  · intro h
    obtain ⟨freed, hfreed⟩ := Option.isSome_iff_exists.mp h
    exact Graph.destroy_in_bounds hfreed
  · intro hle
    rw [Graph.destroy_eq hle]
    rfl

theorem idxOf_map_vertex {vexs : List T} (hvexs : vexs.Nodup) {a : T} (ha : a ∈ vexs) (q : List ℕ)
    (hq : ∀ u ∈ q, u < vexs.length) : (q.map (vertex vexs)).idxOf a = q.idxOf (vexs.idxOf a) := by
  induction q with
  | nil => rfl
  | cons u q ih =>
    have hu := hq u (by simp)
    have hrest := ih (fun w hw => hq w (List.mem_cons_of_mem _ hw))
    rw [List.map_cons, List.idxOf_cons, List.idxOf_cons, hrest]
    have he : (vertex vexs u == a) = (u == vexs.idxOf a) := by
      rw [Bool.eq_iff_iff, beq_iff_eq, beq_iff_eq]
      constructor
      · rintro rfl; rw [idxOf_vertex hvexs hu]
      · rintro rfl; exact vertex_idxOf ha
    rw [he]

theorem sort_edges {vexs : List T} (hvexs : vexs.Nodup) {edges : List (T × T)}
    (hedges : ∀ e ∈ edges, e.1 ∈ vexs ∧ e.2 ∈ vexs) {g : Graph T}
    (hg : Represents g vexs.length (vertex vexs) (targets vexs edges)) :
    (Acyclic (fun a b => (a, b) ∈ edges) → ∃ order : List T,
      (∀ out, g.topologicalSort out = some (0, out ++ order)) ∧
      order.Perm vexs ∧ ∀ e ∈ edges, order.idxOf e.1 < order.idxOf e.2) ∧
    (¬ Acyclic (fun a b => (a, b) ∈ edges) → ∀ out, g.topologicalSort out = some (1, out)) := by
  have htarget : ∀ e ∈ edges, vexs.idxOf e.2 ∈ targets vexs edges (vexs.idxOf e.1) := by
    intro e he
    exact List.mem_map.mpr ⟨e, List.mem_filter.mpr ⟨he, by simp [vertex_idxOf (hedges e he).1]⟩, rfl⟩
  rcases topologicalSort_spec hg with ⟨q, hperm, horder, hsort⟩ | ⟨s, hne, hs, hsort⟩
  · have hrank : ∀ e ∈ edges, q.idxOf (vexs.idxOf e.1) < q.idxOf (vexs.idxOf e.2) := fun e he =>
      horder _ (List.idxOf_lt_length_of_mem (hedges e he).1) _ (htarget e he)
    have hbound : ∀ u ∈ q, u < vexs.length := fun u hu => List.mem_range.mp (hperm.mem_iff.mp hu)
    refine ⟨fun _ => ⟨q.map (vertex vexs), hsort, ?_, ?_⟩, fun hcyc => absurd ?_ hcyc⟩
    · exact (hperm.map _).trans (by rw [map_vertex_range])
    · intro e he
      rw [idxOf_map_vertex hvexs (hedges e he).1 q hbound, idxOf_map_vertex hvexs (hedges e he).2 q hbound]
      exact hrank e he
    · exact acyclic_of_rank (fun a => q.idxOf (vexs.idxOf a)) (fun a b hab => hrank (a, b) hab)
  · refine ⟨fun hac => absurd hac ?_, fun _ => hsort⟩
    apply not_acyclic_of_predecessors (s.image (vertex vexs)) (hne.image _)
    intro b hb
    obtain ⟨v, hv, rfl⟩ := Finset.mem_image.mp hb
    obtain ⟨-, u, hu, hvu⟩ := hs v hv
    obtain ⟨e, he, rfl⟩ := List.mem_map.mp hvu
    obtain ⟨he, hsrc⟩ := List.mem_filter.mp he
    refine ⟨vertex vexs u, Finset.mem_image_of_mem _ hu, ?_⟩
    have hsrc : e.1 = vertex vexs u := by simpa using hsrc
    rw [vertex_idxOf (hedges e he).2, ← hsrc]
    exact he

theorem mem_dependencyEdges {heap : PolicyPtr → Policy} {policys : List PolicyPtr} {e : PolicyPtr × PolicyPtr} :
    e ∈ dependencyEdges heap policys ↔ e.2 ∈ policys ∧
      ∃ name ∈ (heap e.2).dependencies, containsDependency heap policys name = some e.1 := by
  simp only [dependencyEdges, List.mem_flatMap, List.mem_filterMap, Option.map_eq_some_iff]
  constructor
  · rintro ⟨p, hp, name, hname, d, hd, rfl⟩
    exact ⟨hp, name, hname, hd⟩
  · rintro ⟨hp, name, hname, hd⟩
    exact ⟨e.2, hp, name, hname, e.1, hd, rfl⟩

theorem dependencyEdges_mem {heap : PolicyPtr → Policy} {policys : List PolicyPtr} :
    ∀ e ∈ dependencyEdges heap policys, e.1 ∈ policys ∧ e.2 ∈ policys := by
  intro e he
  obtain ⟨hp, name, -, hd⟩ := mem_dependencyEdges.mp he
  exact ⟨List.mem_of_find?_eq_some hd, hp⟩

theorem dependencyEdges_congr {heap heap' : PolicyPtr → Policy} (hname : ∀ i, (heap i).name = (heap' i).name)
    (hdependencies : ∀ i, (heap i).dependencies = (heap' i).dependencies) (policys : List PolicyPtr) :
    dependencyEdges heap policys = dependencyEdges heap' policys := by
  simp only [dependencyEdges, containsDependency, hname, hdependencies]

def Depends (heap : PolicyPtr → Policy) (policys : List PolicyPtr) (a b : PolicyPtr) : Prop :=
  (a, b) ∈ dependencyEdges heap policys

/-- The destructor of the graph, which counts up to the number of edges, stays inside the vertices. -/
def EdgesFit (heap : PolicyPtr → Policy) (policys : List PolicyPtr) : Prop :=
  (dependencyEdges heap policys).length ≤ policys.length

instance (heap : PolicyPtr → Policy) (policys : List PolicyPtr) : Decidable (EdgesFit heap policys) :=
  inferInstanceAs (Decidable (_ ≤ _))

theorem sortPolicy_graph (heap : PolicyPtr → Policy) {policys : List PolicyPtr} (hdistinct : policys.Nodup) :
    ∃ graph, Graph.ofEdges policys (dependencyEdges heap policys) = some graph ∧
      graph.m_vexNum = policys.length ∧ graph.m_vexs.map VNode.data = policys ∧
      Represents graph policys.length (vertex policys) (targets policys (dependencyEdges heap policys)) :=
  ofEdges_represents hdistinct dependencyEdges_mem

theorem sortPolicy_eq {heap : PolicyPtr → Policy} {policys : List PolicyPtr} (hdistinct : policys.Nodup)
    {graph : Graph PolicyPtr} (hgraph : Graph.ofEdges policys (dependencyEdges heap policys) = some graph) {code : ℤ}
    {order : List PolicyPtr} (hsort : graph.topologicalSort [] = some (code, order)) :
    sortPolicy heap policys = if EdgesFit heap policys then some order else none := by
  have hdestroy : graph.destroy.isSome = true ↔ EdgesFit heap policys :=
    destroy_isSome_iff hdistinct dependencyEdges_mem hgraph
  simp only [sortPolicy, hgraph, hsort, Option.bind_eq_bind, Option.bind_some]
  cases hfreed : graph.destroy with
  | none =>
    rw [hfreed] at hdestroy
    rw [if_neg fun hfit => nomatch hdestroy.mpr hfit]
    rfl
  | some freed =>
    rw [hfreed] at hdestroy
    rw [if_pos (hdestroy.mp rfl)]
    rfl

theorem sortPolicy_of_fits {heap : PolicyPtr → Policy} {policys : List PolicyPtr} (hdistinct : policys.Nodup)
    (hfit : EdgesFit heap policys) {graph : Graph PolicyPtr}
    (hgraph : Graph.ofEdges policys (dependencyEdges heap policys) = some graph) {code : ℤ} {order : List PolicyPtr}
    (hsort : graph.topologicalSort [] = some (code, order)) : sortPolicy heap policys = some order :=
  (sortPolicy_eq hdistinct hgraph hsort).trans (if_pos hfit)

theorem sortPolicy_isSome_iff (heap : PolicyPtr → Policy) {policys : List PolicyPtr} (hdistinct : policys.Nodup) :
    (sortPolicy heap policys).isSome = true ↔ EdgesFit heap policys := by
  obtain ⟨graph, hgraph, -, -, hrep⟩ := sortPolicy_graph heap hdistinct
  obtain ⟨code, order, hsort⟩ : ∃ code order, graph.topologicalSort [] = some (code, order) := by
    rcases topologicalSort_spec hrep with ⟨_, -, -, hsort⟩ | ⟨_, -, -, hsort⟩
    · exact ⟨_, _, hsort []⟩
    · exact ⟨_, _, hsort []⟩
  rw [sortPolicy_eq hdistinct hgraph hsort]
  split_ifs with hfit <;> simp [hfit]

theorem sortPolicy_acyclic {heap : PolicyPtr → Policy} {policys : List PolicyPtr} (hdistinct : policys.Nodup)
    (hfit : EdgesFit heap policys) (hac : Acyclic (Depends heap policys)) :
    ∃ order, sortPolicy heap policys = some order ∧ order.Perm policys ∧
      ∀ e ∈ dependencyEdges heap policys, order.idxOf e.1 < order.idxOf e.2 := by
  obtain ⟨graph, hgraph, -, -, hrep⟩ := sortPolicy_graph heap hdistinct
  obtain ⟨order, hsort, horder⟩ := (sort_edges hdistinct dependencyEdges_mem hrep).1 hac
  exact ⟨order, sortPolicy_of_fits hdistinct hfit hgraph (hsort []), horder⟩

theorem sortPolicy_perm {heap : PolicyPtr → Policy} {policys : List PolicyPtr} (hdistinct : policys.Nodup)
    (hac : Acyclic (Depends heap policys)) {order : List PolicyPtr} (h : sortPolicy heap policys = some order) :
    order.Perm policys := by
  have hfit := (sortPolicy_isSome_iff heap hdistinct).mp (Option.isSome_iff_exists.mpr ⟨order, h⟩)
  obtain ⟨order', horder', hperm, -⟩ := sortPolicy_acyclic hdistinct hfit hac
  rw [h] at horder'
  cases horder'
  exact hperm

theorem sortPolicy_cyclic {heap : PolicyPtr → Policy} {policys : List PolicyPtr} (hdistinct : policys.Nodup)
    (hfit : EdgesFit heap policys) (hcyc : ¬ Acyclic (Depends heap policys)) : sortPolicy heap policys = some [] := by
  obtain ⟨graph, hgraph, -, -, hrep⟩ := sortPolicy_graph heap hdistinct
  exact sortPolicy_of_fits hdistinct hfit hgraph ((sort_edges hdistinct dependencyEdges_mem hrep).2 hcyc [])

/-- What the caller of `sortPolicy` expects of the graph of the policys and of the result. -/
structure Correct (heap : PolicyPtr → Policy) (policys : List PolicyPtr) (graph : Graph PolicyPtr) : Prop where
  position : ∀ e ∈ dependencyEdges heap policys,
    (∃ i : ℕ, graph.getPosition e.1 = i ∧ policys[i]? = some e.1) ∧
      ∃ i : ℕ, graph.getPosition e.2 = i ∧ policys[i]? = some e.2
  returns : ∀ out, (∃ out', graph.topologicalSort out = some (0, out')) ↔ Acyclic (Depends heap policys)
  sorted : Acyclic (Depends heap policys) → ∃ order, sortPolicy heap policys = some order ∧
    (∀ out, graph.topologicalSort out = some (0, out ++ order)) ∧ order.Perm policys ∧
    ∀ e ∈ dependencyEdges heap policys, order.idxOf e.1 < order.idxOf e.2
  dropped : ¬ Acyclic (Depends heap policys) → sortPolicy heap policys = some [] ∧
    ∀ out, graph.topologicalSort out = some (1, out)

theorem Correct.edgesFit {heap : PolicyPtr → Policy} {policys : List PolicyPtr} {graph : Graph PolicyPtr}
    (hdistinct : policys.Nodup) (h : Correct heap policys graph) : EdgesFit heap policys := by
  rw [← sortPolicy_isSome_iff heap hdistinct]
  by_cases hac : Acyclic (Depends heap policys)
  · obtain ⟨order, hsort, -⟩ := h.sorted hac
    rw [hsort]
    rfl
  · rw [(h.dropped hac).1]
    rfl

theorem sortPolicy_correct_iff (heap : PolicyPtr → Policy) (policys : List PolicyPtr) (hdistinct : policys.Nodup) :
    (∃ graph, Graph.ofEdges policys (dependencyEdges heap policys) = some graph ∧ Correct heap policys graph) ↔
      EdgesFit heap policys := by
  constructor
  · rintro ⟨_, -, hcorrect⟩
    exact hcorrect.edgesFit hdistinct
  intro hfit
  obtain ⟨graph, hgraph, hnum, hdata, hrep⟩ := sortPolicy_graph heap hdistinct
  obtain ⟨hacyclic, hcyclic⟩ := sort_edges hdistinct dependencyEdges_mem hrep
  have hposition : ∀ a ∈ policys, ∃ i : ℕ, graph.getPosition a = i ∧ policys[i]? = some a := fun a ha =>
    ⟨_, getPosition_eq hnum hdata ha, List.getElem?_idxOf ha⟩
  refine ⟨graph, hgraph, ?_, ?_, ?_, ?_⟩
  · intro e he
    obtain ⟨h1, h2⟩ := dependencyEdges_mem e he
    exact ⟨hposition _ h1, hposition _ h2⟩
  · intro out
    constructor
    · rintro ⟨out', hout⟩
      by_contra hcyc
      rw [hcyclic hcyc out] at hout
      cases hout
    · intro hac
      obtain ⟨order, hsort, -⟩ := hacyclic hac
      exact ⟨_, hsort out⟩
  · intro hac
    obtain ⟨order, hsort, horder⟩ := hacyclic hac
    exact ⟨order, sortPolicy_of_fits hdistinct hfit hgraph (hsort []), hsort, horder⟩
  · intro hcyc
    exact ⟨sortPolicy_of_fits hdistinct hfit hgraph (hcyclic hcyc []), hcyclic hcyc⟩

def dependentHeap (i : PolicyPtr) : Policy :=
  { Policy.new ⟨.QT, 0, 0⟩ with
    name := if i = 0 then "b" else "a"
    dependencies := if i = 0 then ["a"] else [] }

theorem dependentHeap_acyclic : Acyclic (Depends dependentHeap [0, 1]) := by
  have hedges : dependencyEdges dependentHeap [0, 1] = [(1, 0)] := by decide
  apply acyclic_of_rank (fun i => 1 - i)
  intro a b hab
  rw [Depends, hedges, List.mem_singleton] at hab
  cases hab
  decide

theorem sortPolicy_correct_pair : EdgesFit dependentHeap [0, 1] ∧
    ∃ graph, Graph.ofEdges [0, 1] (dependencyEdges dependentHeap [0, 1]) = some graph ∧
      Correct dependentHeap [0, 1] graph :=
  ⟨by decide, (sortPolicy_correct_iff dependentHeap [0, 1] (by decide)).mpr (by decide)⟩

def chainHeap (i : PolicyPtr) : Policy :=
  { Policy.new ⟨.QT, 0, 0⟩ with
    name := ["a", "b", "c", "d"].getD i ""
    dependencies := ["a", "b", "c"].take i }

/-- Each of four policies depends on those before it: six edges, and four vertices to delete them from. -/
theorem chain_undefined : [0, 1, 2, 3].Nodup ∧
    dependencyEdges chainHeap [0, 1, 2, 3] = [(0, 1), (0, 2), (1, 2), (0, 3), (1, 3), (2, 3)] ∧
    Acyclic (Depends chainHeap [0, 1, 2, 3]) ∧ sortPolicy chainHeap [0, 1, 2, 3] = none ∧
    ¬ ∃ graph, Graph.ofEdges [0, 1, 2, 3] (dependencyEdges chainHeap [0, 1, 2, 3]) = some graph ∧
      Correct chainHeap [0, 1, 2, 3] graph := by
  have hdistinct : [0, 1, 2, 3].Nodup := by decide
  have hedges : dependencyEdges chainHeap [0, 1, 2, 3] = [(0, 1), (0, 2), (1, 2), (0, 3), (1, 3), (2, 3)] := by decide
  refine ⟨hdistinct, hedges, ?_, by decide, ?_⟩
  · apply acyclic_of_rank id
    intro a b hab
    rw [Depends, hedges] at hab
    have hall : ∀ e ∈ [(0, 1), (0, 2), (1, 2), (0, 3), (1, 3), (2, 3)], id e.1 < id e.2 := by decide
    exact hall (a, b) hab
  · rintro ⟨graph, -, hcorrect⟩
    exact absurd (hcorrect.edgesFit hdistinct) (by decide)

end SortPolicy

end DeepinServiceManager
