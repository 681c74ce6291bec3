import DeepinServiceManager.DependencyChains
import DeepinServiceManager.SortMachine

namespace DeepinServiceManager.DependencyLevels

open AcyclicRelations CheckedLoops DependencyChains PluginLoader SortMachine SortPolicy TopologicalSort TransitionRuns
open DeepinServiceManager.Graph

variable {T : Type} {n : ℕ} {data : ℕ → T} {succ : ℕ → List ℕ} {g : Graph T} {s t : SortState T}
  {m m' : SortMachine.Machine T}

def Edge (n : ℕ) (succ : ℕ → List ℕ) (u v : ℕ) : Prop := u < n ∧ v ∈ succ u

def sources (n : ℕ) (succ : ℕ → List ℕ) : List ℕ :=
  (List.range n).filter (fun v => degree succ (Finset.range n) v = 0)

/-- The queue starts with the vertices that depend on nothing, and is in the order of the depth; `rest` are vertices
that depend on the last one taken out. -/
structure Ranked (n : ℕ) (succ : ℕ → List ℕ) (rest : List ℕ) (head : ℕ) (q : List ℕ) : Prop where
  levels : Levelled (Edge n succ) head q
  sources : sources n succ <+: q
  following : rest ≠ [] → 0 < head ∧ ∃ j, q[head - 1]? = some j ∧ ∀ w ∈ rest, Edge n succ j w

def LevelInv (n : ℕ) (data : ℕ → T) (succ : ℕ → List ℕ) (m : SortMachine.Machine T) : Prop :=
  match m.control with
  | .countVertices _ | .countEdges _ _ | .enqueueSources _ => True
  | .loopHead | .finished => ∃ q, QueueInv n data succ [] m.sort q ∧ Ranked n succ [] m.sort.head q
  | .relaxEdges nodes => ∃ ws q, Edges n nodes ws ∧ QueueInv n data succ ws m.sort q ∧ Ranked n succ ws m.sort.head q

theorem no_edge_iff {v : ℕ} : degree succ (Finset.range n) v = 0 ↔ ∀ u, ¬ Edge n succ u v := by
  rw [degree_eq_zero]
  simp only [Finset.mem_range, Edge, not_and]

theorem mem_sources {v : ℕ} : v ∈ sources n succ ↔ v < n ∧ ∀ u, ¬ Edge n succ u v := by
  simp only [sources, List.mem_filter, List.mem_range, decide_eq_true_eq, no_edge_iff]

theorem sources_ranked : Ranked n succ [] 0 (sources n succ) where
  levels := .of_sources fun _ hx => (mem_sources.mp hx).2
  sources := List.prefix_rfl
  following h := absurd rfl h

theorem predecessors_done {done rest : List ℕ} {w u : ℕ} (hz : remaining n succ done rest w = 0)
    (hu : Edge n succ u w) : u ∈ done := by
  by_contra hnot
  have hdegree : degree succ (undone n done) w = 0 := Nat.eq_zero_of_add_eq_zero_right hz
  exact degree_eq_zero.mp hdegree u (mem_undone.mpr ⟨hu.1, hnot⟩) hu.2

theorem relax_ranked {q rest : List ℕ} {w : ℕ} {node : ENode} (hI : QueueInv n data succ (w :: rest) s q)
    (hr : Ranked n succ (w :: rest) s.head q) (hnode : node.ivex = w) (hw : w < n) (h : relax s node = some t) :
    ∃ q', QueueInv n data succ rest t q' ∧ Ranked n succ rest t.head q' := by
  obtain ⟨hhead, j, hj, hedges⟩ := hr.following (List.cons_ne_nil _ _)
  have hrest : ∀ x ∈ rest, Edge n succ j x := fun x hx => hedges x (List.mem_cons_of_mem _ hx)
  rw [relax_eq hI hnode hw] at h
  split_ifs at h with hz
  · have henqueue := enqueue_eq (w := w)
      (s := { s with ins := counts n (remaining n succ (q.take s.head) rest) }) (hI.room hw (hI.notMem_target hw))
    cases henqueue.symm.trans h
    refine ⟨q ++ [w], hI.enqueued hw hz, ?_, ?_, fun _ => ⟨hhead, j, ?_, hrest⟩⟩
    · exact hr.levels.snoc hhead hj (hedges w List.mem_cons_self) fun p hp => predecessors_done hz hp
    · exact hr.sources.trans (List.prefix_append _ _)
    · rw [List.getElem?_append_left (List.getElem?_eq_some_iff.mp hj).1, hj]
  · cases h
    exact ⟨q, hI.counted hw hz, hr.levels, hr.sources, fun _ => ⟨hhead, j, hj, hrest⟩⟩

theorem dequeue_ranked (hg : Represents g n data succ) {q : List ℕ} (hI : QueueInv n data succ [] s q)
    (hr : Ranked n succ [] s.head q) (hlt : s.head < s.rear) {j : ℤ} {nodes : List ENode}
    (h : g.dequeue s = some (j, nodes, t)) :
    ∃ ws, Edges n nodes ws ∧ QueueInv n data succ ws t q ∧ Ranked n succ ws t.head q := by
  obtain ⟨i, nodes', t', ht', hmap, hbound, hIt, hhead⟩ := dequeue_inv hg hI hlt
  rw [h] at ht'
  cases ht'
  obtain ⟨i', hi', hq, hqueue⟩ := hI.front hlt
  obtain ⟨j', hj', hrest⟩ := Option.bind_eq_some_iff.mp h
  obtain ⟨vex, -, hrest⟩ := Option.bind_eq_some_iff.mp hrest
  obtain ⟨tops, -, hrest⟩ := Option.bind_eq_some_iff.mp hrest
  cases hrest
  rw [hqueue] at hj'
  obtain rfl : i' = i := Int.natCast_inj.mp (Option.some.inj hj')
  refine ⟨succ i', ⟨hmap, hbound⟩, hIt, hr.levels.advance, hr.sources, fun _ => ⟨Nat.succ_pos _, i', ?_, ?_⟩⟩
  · simpa using hq
  · exact fun w hw => ⟨hi', hw⟩

theorem sources_control (hg : Represents g n data succ) {i : ℕ} (hcontrol : m.control = .enqueueSources i)
    (hm : SortMachine.Inv n data succ m) (h : next g m = some m') : LevelInv n data succ m' := by
  simp only [SortMachine.Inv, hcontrol] at hm
  obtain ⟨hle, post, hsources⟩ := hm
  simp only [next, hcontrol, hg.num] at h
  split_ifs at h with hi
  · obtain ⟨sort, -, h⟩ := Option.bind_eq_some_iff.mp h
    cases h
    trivial
  · cases h
    obtain rfl : i = n := by omega
    have hpost : post = [] := by simpa using hsources.range
    subst hpost
    refine ⟨sources i succ, hsources.queueInv, ?_⟩
    rw [hsources.head]
    exact sources_ranked

theorem loopHead_control (hg : Represents g n data succ) (hcontrol : m.control = .loopHead)
    (hl : LevelInv n data succ m) (h : next g m = some m') : LevelInv n data succ m' := by
  simp only [LevelInv, hcontrol] at hl
  obtain ⟨q, hq, hr⟩ := hl
  simp only [next, hcontrol] at h
  split_ifs at h with hdone
  · cases h
    exact ⟨q, hq, hr⟩
  · obtain ⟨⟨j, nodes, sort⟩, hdequeue, h⟩ := Option.bind_eq_some_iff.mp h
    cases h
    obtain ⟨ws, hws⟩ := dequeue_ranked hg hq hr (lt_of_le_of_ne hq.head hdone) hdequeue
    exact ⟨ws, q, hws⟩

theorem relaxEdges_control {nodes : List ENode} (hcontrol : m.control = .relaxEdges nodes)
    (hl : LevelInv n data succ m) (h : next g m = some m') : LevelInv n data succ m' := by
  simp only [LevelInv, hcontrol] at hl
  obtain ⟨ws, q, hedges, hq, hr⟩ := hl
  cases nodes with
  | nil =>
    obtain rfl := hedges.nil
    simp only [next, hcontrol] at h
    cases h
    exact ⟨q, hq, hr⟩
  | cons node nodes =>
    obtain ⟨w, rest, rfl, hw, hwn, hrest⟩ := hedges.cons
    simp only [next, hcontrol] at h
    obtain ⟨sort, hsort, h⟩ := Option.bind_eq_some_iff.mp h
    cases h
    obtain ⟨q', hq', hr'⟩ := relax_ranked hq hr hw hwn hsort
    exact ⟨rest, q', hrest, hq', hr'⟩

theorem next_levels (hg : Represents g n data succ) (hm : SortMachine.Inv n data succ m) (hl : LevelInv n data succ m)
    (h : next g m = some m') : LevelInv n data succ m' := by
  cases hcontrol : m.control with
  | countVertices i =>
    simp only [next, hcontrol] at h
    split_ifs at h
    · obtain ⟨vex, -, h⟩ := Option.bind_eq_some_iff.mp h
      cases h
      trivial
    · cases h
      trivial
  | countEdges i nodes =>
    cases nodes with
    | nil =>
      simp only [next, hcontrol] at h
      cases h
      trivial
    | cons node nodes =>
      simp only [next, hcontrol] at h
      obtain ⟨ins, -, h⟩ := Option.bind_eq_some_iff.mp h
      cases h
      trivial
  | enqueueSources i => exact sources_control hg hcontrol hm h
  | loopHead => exact loopHead_control hg hcontrol hl h
  | relaxEdges nodes => exact relaxEdges_control hcontrol hl h
  | finished =>
    simp only [next, hcontrol] at h
    cases h

theorem reachable_levels [Inhabited T] (hg : Represents g n data succ) (h : Reachable (step g) (start g) m) :
    LevelInv n data succ m := by
  induction h with
  | refl => trivial
  | tail hs hstep ih => exact next_levels hg (reachable_inv hg hs).1 ih hstep

theorem acc_of_queue {rest q : List ℕ} (hq : QueueInv n data succ rest s q) : ∀ v ∈ q, Acc (Edge n succ) v :=
  acc_of_ordered fun v hv u hu => hq.order v hv u hu.1 hu.2

theorem mem_of_acc {q : List ℕ} (hq : QueueInv n data succ [] s q) (hdone : s.head = s.rear) {v : ℕ}
    (hacc : Acc (Edge n succ) v) (hv : v < n) : v ∈ q := by
  have htake : q.take s.head = q := by rw [hdone, hq.rear, List.take_length]
  induction hacc with
  | intro v _ ih =>
    rw [hq.zero v hv, htake, remaining, List.count_nil, add_zero, degree_eq_zero]
    intro u hu hvu
    obtain ⟨hun, hnot⟩ := mem_undone.mp hu
    exact hnot (ih u ⟨hun, hvu⟩ hun)

/-- The vertices written to the queue, in the order of their depth; none is behind a cycle. -/
structure Written (n : ℕ) (succ : ℕ → List ℕ) (m : SortMachine.Machine T) (q : List ℕ) : Prop where
  written : m.written = q.map (fun v : ℕ => (v : ℤ))
  sorted : q.Pairwise (NoDeeper (Edge n succ))
  bound : ∀ v ∈ q, v < n
  acc : ∀ v ∈ q, Acc (Edge n succ) v
  complete : m.control = .finished → ∀ v < n, Acc (Edge n succ) v → v ∈ q

theorem written_queue {rest q : List ℕ} (hrecorded : Recorded m) (hq : QueueInv n data succ rest m.sort q)
    (hr : Ranked n succ rest m.sort.head q)
    (hcomplete : m.control = .finished → ∀ v < n, Acc (Edge n succ) v → v ∈ q) : Written n succ m q where
  written := by rw [← hrecorded.written, hq.queue]
  sorted := hr.levels.sorted
  bound := hq.bound
  acc := acc_of_queue hq
  complete := hcomplete

theorem written_sources {i : ℕ} {post : List ℕ} (hrecorded : Recorded m) (hle : i ≤ n)
    (hcontrol : m.control = .enqueueSources i)
    (hsources : SourcesInv n (degree succ (Finset.range n)) (List.range i) post m.sort) :
    Written n succ m ((List.range i).filter (fun v => degree succ (Finset.range n) v = 0)) := by
  have hnone : ∀ v ∈ (List.range i).filter (fun v => degree succ (Finset.range n) v = 0),
      ∀ u, ¬ Edge n succ u v := by
    intro v hv
    exact no_edge_iff.mp (by simpa using (List.mem_filter.mp hv).2)
  refine ⟨by rw [← hrecorded.written, hsources.queue], (Levelled.of_sources hnone).sorted, fun v hv => ?_, fun v hv => ?_,
    fun hfinished => ?_⟩
  · exact (List.mem_range.mp (List.mem_of_mem_filter hv)).trans_le hle
  · exact ⟨v, fun u hu => absurd hu (hnone v hv u)⟩
  · rw [hcontrol] at hfinished
    cases hfinished

theorem written_none {d : ℕ → ℕ} (hrecorded : Recorded m) (hcounted : Counted n d m.sort)
    (hcontrol : m.control ≠ .finished) : Written n succ m [] := by
  have hwritten : m.written = [] := by rw [← hrecorded.written, hcounted.rear, List.take_zero]
  exact ⟨hwritten, List.Pairwise.nil, fun _ hv => (nomatch hv), fun _ hv => (nomatch hv),
    fun hfinished => absurd hfinished hcontrol⟩

theorem written_levels [Inhabited T] (hg : Represents g n data succ) (h : Reachable (step g) (start g) m) :
    ∃ q : List ℕ, Written n succ m q := by
  obtain ⟨hinv, hrecorded⟩ := reachable_inv hg h
  have hlevels := reachable_levels hg h
  cases hcontrol : m.control with
  | countVertices i =>
    simp only [SortMachine.Inv, hcontrol] at hinv
    exact ⟨[], written_none hrecorded hinv.2 (by simp [hcontrol])⟩
  | countEdges i nodes =>
    simp only [SortMachine.Inv, hcontrol] at hinv
    obtain ⟨-, d, ws, -, hcounted, -⟩ := hinv
    exact ⟨[], written_none hrecorded hcounted (by simp [hcontrol])⟩
  | enqueueSources i =>
    simp only [SortMachine.Inv, hcontrol] at hinv
    obtain ⟨hle, post, hsources⟩ := hinv
    exact ⟨_, written_sources hrecorded hle hcontrol hsources⟩
  | loopHead =>
    simp only [LevelInv, hcontrol] at hlevels
    obtain ⟨q, hq, hr⟩ := hlevels
    exact ⟨q, written_queue hrecorded hq hr (by simp [hcontrol])⟩
  | relaxEdges nodes =>
    simp only [LevelInv, hcontrol] at hlevels
    obtain ⟨ws, q, -, hq, hr⟩ := hlevels
    exact ⟨q, written_queue hrecorded hq hr (by simp [hcontrol])⟩
  | finished =>
    simp only [SortMachine.Inv, hcontrol] at hinv
    simp only [LevelInv, hcontrol] at hlevels
    obtain ⟨q, hq, hr⟩ := hlevels
    exact ⟨q, written_queue hrecorded hq hr fun _ v hv hacc => mem_of_acc hq hinv.1 hacc hv⟩

section Vertices

variable [DecidableEq T] [Inhabited T] {vexs : List T} {edges : List (T × T)}

theorem edge_vertex (hedges : ∀ e ∈ edges, e.1 ∈ vexs ∧ e.2 ∈ vexs) {u v : ℕ}
    (h : Edge vexs.length (targets vexs edges) u v) : (vertex vexs u, vertex vexs v) ∈ edges := by
  obtain ⟨e, he, rfl⟩ := List.mem_map.mp h.2
  obtain ⟨he, hsource⟩ := List.mem_filter.mp he
  rw [vertex_idxOf (hedges e he).2, ← decide_eq_true_eq.mp hsource]
  exact he

theorem edge_idxOf (hedges : ∀ e ∈ edges, e.1 ∈ vexs ∧ e.2 ∈ vexs) {a b : T} (h : (a, b) ∈ edges) :
    Edge vexs.length (targets vexs edges) (vexs.idxOf a) (vexs.idxOf b) := by
  obtain ⟨ha, -⟩ := hedges (a, b) h
  refine ⟨List.idxOf_lt_length_of_mem ha, List.mem_map.mpr ⟨(a, b), List.mem_filter.mpr ⟨h, ?_⟩, rfl⟩⟩
  simp [vertex_idxOf ha]

theorem noDeeper_vertex (hvexs : vexs.Nodup) (hedges : ∀ e ∈ edges, e.1 ∈ vexs ∧ e.2 ∈ vexs) {u v : ℕ}
    (hu : u < vexs.length) (h : NoDeeper (Edge vexs.length (targets vexs edges)) u v) :
    NoDeeper (fun a b => (a, b) ∈ edges) (vertex vexs u) (vertex vexs v) := by
  intro k hk
  have hk' : Chain (Edge vexs.length (targets vexs edges)) k (vexs.idxOf (vertex vexs u)) :=
    hk.map vexs.idxOf fun _ _ => edge_idxOf hedges
  rw [idxOf_vertex hvexs hu] at hk'
  exact (h k hk').map (vertex vexs) fun _ _ => edge_vertex hedges

theorem acc_vertex_iff (hedges : ∀ e ∈ edges, e.1 ∈ vexs ∧ e.2 ∈ vexs) {a : T} (ha : a ∈ vexs) :
    Acc (Edge vexs.length (targets vexs edges)) (vexs.idxOf a) ↔ Acc (fun a b => (a, b) ∈ edges) a := by
  constructor
  · exact acc_of_map vexs.idxOf fun _ _ => edge_idxOf hedges
  · intro h
    rw [← vertex_idxOf ha] at h
    exact acc_of_map (vertex vexs) (fun _ _ => edge_vertex hedges) h

theorem sort_levels (hvexs : vexs.Nodup) (hedges : ∀ e ∈ edges, e.1 ∈ vexs ∧ e.2 ∈ vexs) :
    ∃ g, Graph.ofEdges vexs edges = some g ∧ ∀ m, Reachable (step g) (start g) m →
      m.written.Pairwise (fun i j => NoDeeper (fun a b => (a, b) ∈ edges) (vertex vexs i.toNat)
        (vertex vexs j.toNat)) ∧
      (∀ a ∈ vexs, (vexs.idxOf a : ℤ) ∈ m.written → Acc (fun a b => (a, b) ∈ edges) a) ∧
      (m.control = .finished → ∀ a ∈ vexs, Acc (fun a b => (a, b) ∈ edges) a → (vexs.idxOf a : ℤ) ∈ m.written) := by
  obtain ⟨g, hofEdges, -, -, hg⟩ := ofEdges_represents hvexs hedges
  refine ⟨g, hofEdges, fun m hm => ?_⟩
  obtain ⟨q, hq⟩ := written_levels hg hm
  rw [hq.written]
  have hmem : ∀ v : ℕ, (v : ℤ) ∈ q.map (fun v : ℕ => (v : ℤ)) ↔ v ∈ q := fun v =>
    List.mem_map_of_injective fun _ _ => Int.natCast_inj.mp
  refine ⟨?_, fun a ha hwritten => ?_, fun hfinished a ha hacc => ?_⟩
  · rw [List.pairwise_map]
    apply hq.sorted.imp_of_mem
    intro u v hu _ huv
    exact noDeeper_vertex hvexs hedges (hq.bound u hu) huv
  · exact (acc_vertex_iff hedges ha).mp (hq.acc _ ((hmem _).mp hwritten))
  · exact (hmem _).mpr (hq.complete hfinished _ (List.idxOf_lt_length_of_mem ha) ((acc_vertex_iff hedges ha).mpr hacc))

theorem sort_levels_loop : ∃ g, Graph.ofEdges [7, 8, 9] [(7, 8), (9, 9)] = some g ∧
    ∀ m, Reachable (step g) (start g) m → 2 ∉ m.written ∧ (m.control = .finished → 1 ∈ m.written) := by
  have hvexs : [7, 8, 9].Nodup := by decide
  have hedges : ∀ e ∈ [(7, 8), (9, 9)], e.1 ∈ [7, 8, 9] ∧ e.2 ∈ [7, 8, 9] := by decide
  obtain ⟨g, hg, hlevels⟩ := sort_levels hvexs hedges
  refine ⟨g, hg, fun m hm => ?_⟩
  obtain ⟨-, hacc, hcomplete⟩ := hlevels m hm
  constructor
  · exact fun hwritten => not_acc_of_loop (by simp) (hacc 9 (by decide) hwritten)
  · intro hfinished
    refine hcomplete hfinished 8 (by decide) ⟨8, fun a ha => ⟨a, fun b hb => ?_⟩⟩
    obtain rfl : a = 7 := by simpa using ha
    simp at hb

theorem sources_map_vertex (hvexs : vexs.Nodup) (hedges : ∀ e ∈ edges, e.1 ∈ vexs ∧ e.2 ∈ vexs) :
    (sources vexs.length (targets vexs edges)).map (vertex vexs) = vexs.filter (fun a => ∀ e ∈ edges, e.2 ≠ a) := by
  conv_rhs => rw [← map_vertex_range vexs, List.filter_map]
  congr 1
  apply List.filter_congr
  intro v hv
  have hvn := List.mem_range.mp hv
  simp only [Function.comp_apply, decide_eq_decide, no_edge_iff]
  constructor
  · rintro hnone ⟨a, b⟩ he rfl
    have hedge := edge_idxOf hedges he
    rw [idxOf_vertex hvexs hvn] at hedge
    exact hnone _ hedge
  · exact fun hnone u hu => hnone _ (edge_vertex hedges hu) rfl

theorem topologicalSort_levels (hvexs : vexs.Nodup) (hedges : ∀ e ∈ edges, e.1 ∈ vexs ∧ e.2 ∈ vexs)
    {g : Graph T} (hg : Represents g vexs.length (vertex vexs) (targets vexs edges)) {order : List T}
    (h : g.topologicalSort [] = some (0, order)) :
    vexs.filter (fun a => ∀ e ∈ edges, e.2 ≠ a) <+: order ∧
      order.Pairwise (NoDeeper (fun a b => (a, b) ∈ edges)) := by
  obtain ⟨m, hm, hcontrol, hsort⟩ := topologicalSort_reach h
  have hlevels := reachable_levels hg hm
  have hinv := (reachable_inv hg hm).1
  simp only [LevelInv, hcontrol] at hlevels
  simp only [SortMachine.Inv, hcontrol] at hinv
  obtain ⟨q, hq, hr⟩ := hlevels
  have hresult : result g m.sort [] = (0, order) := Option.some.inj ((hsort []).symm.trans h)
  have hindex : m.sort.index = g.m_vexNum := by
    by_contra hne
    simp [result, hne] at hresult
  simp only [result, hindex, ne_eq, not_true_eq_false, if_false, List.nil_append, Prod.mk.injEq, true_and] at hresult
  have horder : order = q.map (vertex vexs) := by
    have htops := hq.tops
    have htake : q.take m.sort.head = q := by rw [hinv.1, hq.rear, List.take_length]
    rw [← hresult, ← hindex, htops, htake]
  rw [horder]
  constructor
  · rw [← sources_map_vertex hvexs hedges]
    exact hr.sources.map _
  · rw [List.pairwise_map]
    apply hr.levels.sorted.imp_of_mem
    intro u v hu _ huv
    exact noDeeper_vertex hvexs hedges (hq.bound u hu) huv

end Vertices

theorem sortPolicy_levels (heap : PolicyPtr → Policy) (policys : List PolicyPtr) (hdistinct : policys.Nodup)
    (hfit : EdgesFit heap policys) (hac : Acyclic (Depends heap policys)) :
    ∃ order, sortPolicy heap policys = some order ∧ order.Perm policys ∧
      policys.filter (fun p => ∀ e ∈ dependencyEdges heap policys, e.2 ≠ p) <+: order ∧
      order.Pairwise (NoDeeper (Depends heap policys)) := by
  obtain ⟨graph, hgraph, -, -, hrep⟩ := sortPolicy_graph heap hdistinct
  obtain ⟨order, hsort, hperm, -⟩ := (sort_edges hdistinct dependencyEdges_mem hrep).1 hac
  obtain ⟨hsources, hlevels⟩ := topologicalSort_levels hdistinct dependencyEdges_mem hrep (hsort [])
  exact ⟨order, sortPolicy_of_fits hdistinct hfit hgraph (hsort []), hperm, hsources, hlevels⟩

theorem sortPolicy_levels_pair : ∃ order, sortPolicy dependentHeap [0, 1] = some order ∧ [1] <+: order ∧
    order.Pairwise (NoDeeper (Depends dependentHeap [0, 1])) := by
  obtain ⟨order, hsort, -, hsources, hlevels⟩ :=
    sortPolicy_levels dependentHeap [0, 1] (by decide) (by decide) dependentHeap_acyclic
  have hfirst : [0, 1].filter (fun p => ∀ e ∈ dependencyEdges dependentHeap [0, 1], e.2 ≠ p) = [1] := by decide
  exact ⟨order, hsort, hfirst ▸ hsources, hlevels⟩

end DeepinServiceManager.DependencyLevels
