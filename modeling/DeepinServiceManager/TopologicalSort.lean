import Mathlib.Algebra.BigOperators.Group.Finset.Basic
import Mathlib.Algebra.Order.BigOperators.Group.Finset
import DeepinServiceManager.AcyclicRelations
import DeepinServiceManager.AdjacencyGraph
import DeepinServiceManager.ListBuilding

namespace DeepinServiceManager.TopologicalSort

open CheckedLoops ListBuilding DeepinServiceManager.Graph

variable {T : Type} {n : ℕ} {data : ℕ → T} {succ : ℕ → List ℕ}

structure Represents (g : Graph T) (n : ℕ) (data : ℕ → T) (succ : ℕ → List ℕ) : Prop where
  num : g.m_vexNum = n
  vex : ∀ u < n, ∃ v, g.m_vexs[u]? = some v ∧ v.data = data u ∧
    v.firstEdge.map ENode.ivex = (succ u).map (fun w : ℕ => (w : ℤ))
  bound : ∀ u < n, ∀ w ∈ succ u, w < n

def degree (succ : ℕ → List ℕ) (s : Finset ℕ) (v : ℕ) : ℕ := ∑ u ∈ s, (succ u).count v

def counts (n : ℕ) (d : ℕ → ℕ) : List ℤ := (List.range n).map (fun v => (d v : ℤ))

def undone (n : ℕ) (done : List ℕ) : Finset ℕ := Finset.range n \ done.toFinset

theorem counts_get (d : ℕ → ℕ) {w : ℕ} (hw : w < n) : (counts n d)[w]? = some (d w : ℤ) := by
  simp [counts, hw]

theorem counts_set (d : ℕ → ℕ) {w : ℕ} (hw : w < n) (x : ℕ) :
    writeAt (counts n d) (w : ℤ) (x : ℤ) = some (counts n (Function.update d w x)) := by
  rw [writeAt_natCast _ _ _ (by simpa [counts] using hw)]
  congr 1
  apply List.ext_getElem?
  intro v
  by_cases hv : v = w
  · subst hv
    simp [counts, hw]
  · rw [List.getElem?_set_ne (Ne.symm hv)]
    by_cases hvn : v < n <;> simp [counts, hvn, Function.update_of_ne hv]

theorem length_le_of_bound {q : List ℕ} (hq : q.Nodup) (hb : ∀ v ∈ q, v < n) : q.length ≤ n := by
  have h := (hq.subperm (fun v hv => List.mem_range.mpr (hb v hv))).length_le
  simpa using h

theorem degree_eq_zero {s : Finset ℕ} {v : ℕ} : degree succ s v = 0 ↔ ∀ u ∈ s, v ∉ succ u := by
  simp [degree, Finset.sum_eq_zero_iff, List.count_eq_zero]

/-- The in-degree of `v` while the edges `rest` of the last dequeued vertex are still to be followed. -/
def remaining (n : ℕ) (succ : ℕ → List ℕ) (done rest : List ℕ) (v : ℕ) : ℕ :=
  degree succ (undone n done) v + rest.count v

theorem mem_undone {done : List ℕ} {v : ℕ} : v ∈ undone n done ↔ v < n ∧ v ∉ done := by
  simp [undone]

theorem degree_undone_snoc {done : List ℕ} {j : ℕ} (hj : j < n) (hd : j ∉ done) (v : ℕ) :
    degree succ (undone n done) v = degree succ (undone n (done ++ [j])) v + (succ j).count v := by
  have he : undone n (done ++ [j]) = (undone n done).erase j := by
    ext u
    simp only [mem_undone, List.mem_append, List.mem_singleton, Finset.mem_erase]
    tauto
  rw [he, degree, degree, Finset.sum_erase_add _ _ (mem_undone.mpr ⟨hj, hd⟩)]

theorem countEdge_counts {node : ENode} {w : ℕ} (hnode : node.ivex = w) (hw : w < n) (d : ℕ → ℕ) :
    countEdge (counts n d) node = some (counts n (Function.update d w (d w + 1))) := by
  rw [countEdge, hnode, readAt_natCast, counts_get d hw, ← counts_set d hw (d w + 1)]
  simp

theorem update_count (d : ℕ → ℕ) (w : ℕ) (ws : List ℕ) (v : ℕ) :
    Function.update d w (d w + 1) v + ws.count v = d v + (w :: ws).count v := by
  by_cases hv : v = w
  · subst hv
    simp only [Function.update_self, List.count_cons_self]
    omega
  · simp [Function.update_of_ne hv, List.count_cons_of_ne (Ne.symm hv)]

theorem foldlM_countEdge (nodes : List ENode) (ws : List ℕ)
    (hn : nodes.map ENode.ivex = ws.map (fun w : ℕ => (w : ℤ))) (hb : ∀ w ∈ ws, w < n) (d : ℕ → ℕ) :
    nodes.foldlM countEdge (counts n d) = some (counts n (fun v => d v + ws.count v)) := by
  induction ws generalizing nodes d with
  | nil =>
    have he : nodes = [] := by simpa using hn
    subst he
    simp
  | cons w ws ih =>
    obtain ⟨node, rest, rfl, hnode, hrest⟩ := List.map_eq_cons_iff.mp hn
    rw [List.foldlM_cons, countEdge_counts hnode (hb w (by simp))]
    simp only [Option.bind_eq_bind, Option.bind_some]
    rw [ih rest hrest (fun x hx => hb x (List.mem_cons_of_mem _ hx))]
    congr 2
    funext v
    exact update_count d w ws v

theorem degree_snoc {pre : List ℕ} {i : ℕ} (hi : i ∉ pre) (v : ℕ) :
    degree succ (pre ++ [i]).toFinset v = degree succ pre.toFinset v + (succ i).count v := by
  have he : (pre ++ [i]).toFinset = insert i pre.toFinset := by
    ext u
    simp only [List.mem_toFinset, List.mem_append, List.mem_singleton, Finset.mem_insert]
    tauto
  rw [he, degree, degree, Finset.sum_insert (by simpa using hi), add_comm]

theorem replicate_eq_counts (n : ℕ) (succ : ℕ → List ℕ) : List.replicate n 0 = counts n (degree succ ∅) := by
  apply List.ext_getElem?
  intro v
  by_cases hv : v < n <;> simp [counts, degree, hv]

def CountInv (n : ℕ) (succ : ℕ → List ℕ) (pre post : List ℕ) (ins : List ℤ) : Prop :=
  pre ++ post = List.range n ∧ ins = counts n (degree succ pre.toFinset)

theorem mem_range_step {pre post : List ℕ} {i : ℕ} (hl : pre ++ i :: post = List.range n) : i < n ∧ i ∉ pre := by
  constructor
  · rw [← List.mem_range, ← hl]
    simp
  · apply notMem_left_of_nodup
    rw [hl]
    exact List.nodup_range

theorem countVertex_inv {g : Graph T} (h : Represents g n data succ) {pre post : List ℕ} {i : ℕ} {ins : List ℤ}
    (hI : CountInv n succ pre (i :: post) ins) :
    ∃ t, g.countVertex ins i = some t ∧ CountInv n succ (pre ++ [i]) post t := by
  obtain ⟨hl, rfl⟩ := hI
  obtain ⟨hi, hnot⟩ := mem_range_step hl
  obtain ⟨v, hv, -, hmap⟩ := h.vex i hi
  refine ⟨_, ?_, by simpa using hl, rfl⟩
  rw [countVertex, hv]
  simp only [Option.bind_eq_bind, Option.bind_some]
  rw [foldlM_countEdge _ _ hmap (h.bound i hi)]
  congr 2
  funext w
  exact (degree_snoc hnot w).symm

theorem foldlM_countVertex {g : Graph T} (h : Represents g n data succ) :
    (List.range n).foldlM g.countVertex (List.replicate n 0) =
      some (counts n (degree succ (Finset.range n))) := by
  have he : (List.range n).toFinset = Finset.range n := by ext u; simp
  obtain ⟨t, ht, -, hI⟩ := foldlM_invariant g.countVertex (CountInv n succ) (fun _ _ _ _ => countVertex_inv h)
    (List.range n) [] (List.replicate n 0) ⟨rfl, replicate_eq_counts n succ⟩
  rw [ht, hI, List.nil_append, he]

/-- The queue holds `q`, of which the first `head` vertices are dequeued. -/
structure QueueInv (n : ℕ) (data : ℕ → T) (succ : ℕ → List ℕ) (rest : List ℕ) (s : SortState T)
    (q : List ℕ) : Prop where
  ins : s.ins = counts n (remaining n succ (q.take s.head) rest)
  queueLen : s.queue.length = n
  topsLen : s.tops.length = n
  rear : s.rear = q.length
  queue : s.queue.take s.rear = q.map (fun v : ℕ => (v : ℤ))
  head : s.head ≤ s.rear
  index : s.index = s.head
  tops : s.tops.take s.index = (q.take s.head).map data
  nodup : q.Nodup
  bound : ∀ v ∈ q, v < n
  zero : ∀ v < n, v ∈ q ↔ remaining n succ (q.take s.head) rest v = 0
  order : ∀ v ∈ q, ∀ u < n, v ∈ succ u → u ∈ q ∧ q.idxOf u < q.idxOf v

theorem enqueue_eq {s : SortState T} {w : ℕ} (h : s.rear < s.queue.length) :
    enqueue s (w : ℤ) = some { s with queue := s.queue.set s.rear (w : ℤ), rear := s.rear + 1 } := by
  rw [enqueue, writeAt_natCast _ _ _ h]
  rfl

theorem order_snoc {done q : List ℕ} {w k : ℕ} (hdone : done = q.take k) (hw : w ∉ q)
    (hz : degree succ (undone n done) w = 0)
    (ho : ∀ v ∈ q, ∀ u < n, v ∈ succ u → u ∈ q ∧ q.idxOf u < q.idxOf v) :
    ∀ v ∈ q ++ [w], ∀ u < n, v ∈ succ u →
      u ∈ q ++ [w] ∧ (q ++ [w]).idxOf u < (q ++ [w]).idxOf v := by
  intro v hv u hu hvu
  by_cases hvq : v ∈ q
  · obtain ⟨huq, hlt⟩ := ho v hvq u hu hvu
    rw [List.idxOf_append_of_mem huq, List.idxOf_append_of_mem hvq]
    exact ⟨by simp [huq], hlt⟩
  · have hvw : v = w := by simpa [hvq] using hv
    subst hvw
    have hud : u ∈ done := by
      by_contra hud
      exact degree_eq_zero.mp hz u (mem_undone.mpr ⟨hu, hud⟩) hvu
    have huq : u ∈ q := List.mem_of_mem_take (hdone ▸ hud)
    have hlt := List.idxOf_lt_length_of_mem huq
    rw [List.idxOf_append_of_mem huq, List.idxOf_append_of_notMem hvq]
    exact ⟨by simp [huq], by omega⟩

theorem remaining_cons (done rest : List ℕ) (w v : ℕ) :
    remaining n succ done (w :: rest) v = remaining n succ done rest v + if v = w then 1 else 0 := by
  simp only [remaining, List.count_cons, beq_iff_eq]
  by_cases hv : v = w
  · subst hv; simp; omega
  · simp [hv, Ne.symm hv]

theorem relax_eq {s : SortState T} {q rest : List ℕ} {w : ℕ} {node : ENode}
    (hI : QueueInv n data succ (w :: rest) s q) (hnode : node.ivex = w) (hw : w < n) :
    relax s node =
      if remaining n succ (q.take s.head) rest w = 0
      then enqueue { s with ins := counts n (remaining n succ (q.take s.head) rest) } w
      else some { s with ins := counts n (remaining n succ (q.take s.head) rest) } := by
  have hread : readAt s.ins (w : ℤ) = some ((remaining n succ (q.take s.head) rest w + 1 : ℕ) : ℤ) := by
    rw [readAt_natCast, hI.ins, counts_get _ hw, remaining_cons, if_pos rfl]
  have hcast (k : ℕ) : ((k + 1 : ℕ) : ℤ) - 1 = (k : ℤ) := by omega
  have hwrite : writeAt s.ins (w : ℤ) ((remaining n succ (q.take s.head) rest w : ℕ) : ℤ) =
      some (counts n (remaining n succ (q.take s.head) rest)) := by
    rw [hI.ins, counts_set _ hw]
    congr 2
    funext v
    by_cases hv : v = w
    · subst hv; simp
    · rw [Function.update_of_ne hv, remaining_cons, if_neg hv, add_zero]
  simp only [relax, hnode, hread, hcast, hwrite, Option.bind_eq_bind, Option.bind_some, Int.natCast_eq_zero]
  rfl

theorem QueueInv.notMem_target {s : SortState T} {q rest : List ℕ} {w : ℕ}
    (hI : QueueInv n data succ (w :: rest) s q) (hw : w < n) : w ∉ q := by
  rw [hI.zero w hw, remaining_cons, if_pos rfl]
  omega

theorem QueueInv.zero_other {s : SortState T} {q rest : List ℕ} {w : ℕ}
    (hI : QueueInv n data succ (w :: rest) s q) {v : ℕ} (hv : v < n) (hvw : v ≠ w) :
    v ∈ q ↔ remaining n succ (q.take s.head) rest v = 0 := by
  rw [hI.zero v hv, remaining_cons, if_neg hvw, add_zero]

theorem QueueInv.bound_snoc {s : SortState T} {q rest : List ℕ} {w : ℕ} (hI : QueueInv n data succ rest s q)
    (hw : w < n) : ∀ v ∈ q ++ [w], v < n := by
  intro v hv
  rcases List.mem_append.mp hv with hv | hv
  · exact hI.bound v hv
  · rw [List.mem_singleton.mp hv]
    exact hw

theorem QueueInv.room {s : SortState T} {q rest : List ℕ} {w : ℕ} (hI : QueueInv n data succ rest s q)
    (hw : w < n) (hnotin : w ∉ q) : s.rear < s.queue.length := by
  have hlen := length_le_of_bound (nodup_snoc hI.nodup hnotin) (hI.bound_snoc hw)
  rw [List.length_append, List.length_singleton] at hlen
  rw [hI.rear, hI.queueLen]
  omega

theorem QueueInv.enqueued {s : SortState T} {q rest : List ℕ} {w : ℕ}
    (hI : QueueInv n data succ (w :: rest) s q) (hw : w < n)
    (hz : remaining n succ (q.take s.head) rest w = 0) :
    QueueInv n data succ rest { s with
      ins := counts n (remaining n succ (q.take s.head) rest)
      queue := s.queue.set s.rear (w : ℤ)
      rear := s.rear + 1 } (q ++ [w]) := by
  have hnotin := hI.notMem_target hw
  have htake : (q ++ [w]).take s.head = q.take s.head := by
    apply List.take_append_of_le_length
    rw [← hI.rear]
    exact hI.head
  exact {
    ins := by rw [htake]
    queueLen := by rw [List.length_set]; exact hI.queueLen
    topsLen := hI.topsLen
    rear := by rw [List.length_append, List.length_singleton, hI.rear]
    queue := by rw [take_succ_set _ _ _ (hI.room hw hnotin), hI.queue, List.map_append]; rfl
    head := Nat.le_succ_of_le hI.head
    index := hI.index
    tops := by rw [htake]; exact hI.tops
    nodup := nodup_snoc hI.nodup hnotin
    bound := hI.bound_snoc hw
    zero := by
      intro v hv
      rw [htake]
      by_cases hvw : v = w
      · subst hvw; simpa using hz
      · simpa [hvw] using hI.zero_other hv hvw
    order := order_snoc rfl hnotin (Nat.eq_zero_of_add_eq_zero_right hz) hI.order }

theorem QueueInv.counted {s : SortState T} {q rest : List ℕ} {w : ℕ}
    (hI : QueueInv n data succ (w :: rest) s q) (hw : w < n)
    (hz : remaining n succ (q.take s.head) rest w ≠ 0) :
    QueueInv n data succ rest { s with ins := counts n (remaining n succ (q.take s.head) rest) } q := by
  refine ⟨rfl, hI.queueLen, hI.topsLen, hI.rear, hI.queue, hI.head, hI.index, hI.tops, hI.nodup, hI.bound, ?_,
    hI.order⟩
  intro v hv
  by_cases hvw : v = w
  · subst hvw; simpa [hI.notMem_target hv] using hz
  · exact hI.zero_other hv hvw

theorem relax_inv {s : SortState T} {q rest : List ℕ} {w : ℕ} {node : ENode}
    (hI : QueueInv n data succ (w :: rest) s q) (hnode : node.ivex = w) (hw : w < n) :
    ∃ t q', relax s node = some t ∧ QueueInv n data succ rest t q' ∧ t.head = s.head := by
  rw [relax_eq hI hnode hw]
  by_cases hz : remaining n succ (q.take s.head) rest w = 0
  · rw [if_pos hz]
    exact ⟨_, _, enqueue_eq (hI.room hw (hI.notMem_target hw)), hI.enqueued hw hz, rfl⟩
  · rw [if_neg hz]
    exact ⟨_, q, rfl, hI.counted hw hz, rfl⟩

theorem foldlM_relax (nodes : List ENode) (ws : List ℕ)
    (hn : nodes.map ENode.ivex = ws.map (fun w : ℕ => (w : ℤ))) (hb : ∀ w ∈ ws, w < n)
    {s : SortState T} {q : List ℕ} (hI : QueueInv n data succ ws s q) :
    ∃ t q', nodes.foldlM relax s = some t ∧ QueueInv n data succ [] t q' ∧ t.head = s.head := by
  induction ws generalizing nodes s q with
  | nil =>
    have he : nodes = [] := by simpa using hn
    subst he
    exact ⟨s, q, rfl, hI, rfl⟩
  | cons w ws ih =>
    obtain ⟨node, rest, rfl, hnode, hrest⟩ := List.map_eq_cons_iff.mp hn
    obtain ⟨t, q', ht, hI', hhead⟩ := relax_inv hI hnode (hb w (by simp))
    obtain ⟨u, q'', hu, hI'', hhead'⟩ := ih rest hrest (fun x hx => hb x (List.mem_cons_of_mem _ hx)) hI'
    refine ⟨u, q'', ?_, hI'', hhead'.trans hhead⟩
    rw [List.foldlM_cons, ht]
    exact hu

theorem QueueInv.tops_room {s : SortState T} {q rest : List ℕ} (hI : QueueInv n data succ rest s q)
    (hlt : s.head < q.length) : s.index < s.tops.length := by
  have hlen := length_le_of_bound hI.nodup hI.bound
  rw [hI.index, hI.topsLen]
  omega

theorem QueueInv.dequeued {s : SortState T} {q : List ℕ} {j : ℕ} (hI : QueueInv n data succ [] s q)
    (hlt : s.head < q.length) (hj : q[s.head]? = some j) : QueueInv n data succ (succ j) { s with
      head := s.head + 1, tops := s.tops.set s.index (data j), index := s.index + 1 } q := by
  have htake : q.take (s.head + 1) = q.take s.head ++ [j] := by
    rw [List.take_add_one, hj]
    rfl
  have hnot : j ∉ q.take s.head := by
    apply notMem_left_of_nodup
    rw [← htake]
    exact hI.nodup.sublist (List.take_sublist _ _)
  -- the edges of `j` are now the ones still to be followed
  have hmove (w : ℕ) : remaining n succ (q.take s.head) [] w =
      remaining n succ (q.take (s.head + 1)) (succ j) w := by
    rw [remaining, remaining, htake, degree_undone_snoc (hI.bound j (List.mem_of_getElem? hj)) hnot]
    rfl
  exact {
    ins := by rw [hI.ins]; congr 1; funext w; exact hmove w
    queueLen := hI.queueLen
    topsLen := by rw [List.length_set]; exact hI.topsLen
    rear := hI.rear
    queue := hI.queue
    head := by rw [hI.rear]; exact hlt
    index := congrArg (· + 1) hI.index
    tops := by rw [take_succ_set _ _ _ (hI.tops_room hlt), hI.tops, htake, List.map_append]; rfl
    nodup := hI.nodup
    bound := hI.bound
    zero := fun w hw => by rw [hI.zero w hw, hmove]
    order := hI.order }

theorem QueueInv.front {s : SortState T} {q : List ℕ} (hI : QueueInv n data succ [] s q) (hlt : s.head < s.rear) :
    ∃ j < n, q[s.head]? = some j ∧ s.queue[s.head]? = some (j : ℤ) := by
  have hq : s.head < q.length := hI.rear ▸ hlt
  refine ⟨q[s.head], hI.bound _ (List.getElem_mem hq), List.getElem?_eq_getElem hq, ?_⟩
  rw [← List.getElem?_take_of_lt hlt, hI.queue, List.getElem?_map, List.getElem?_eq_getElem hq]
  rfl

theorem dequeue_inv {g : Graph T} (h : Represents g n data succ) {s : SortState T} {q : List ℕ}
    (hI : QueueInv n data succ [] s q) (hlt : s.head < s.rear) :
    ∃ (j : ℕ) (nodes : List ENode) (t : SortState T), g.dequeue s = some ((j : ℤ), nodes, t) ∧
      nodes.map ENode.ivex = (succ j).map (fun w : ℕ => (w : ℤ)) ∧ (∀ w ∈ succ j, w < n) ∧
      QueueInv n data succ (succ j) t q ∧ t.head = s.head + 1 := by
  have hq : s.head < q.length := hI.rear ▸ hlt
  obtain ⟨j, hjn, hj, hqueue⟩ := hI.front hlt
  obtain ⟨v, hv, hdata, hmap⟩ := h.vex j hjn
  refine ⟨j, v.firstEdge, _, ?_, hmap, h.bound j hjn, hI.dequeued hq hj, rfl⟩
  simp only [Graph.dequeue, hqueue, readAt_natCast, hv, hdata, writeAt_natCast _ _ _ (hI.tops_room hq),
    Option.bind_eq_bind, Option.bind_some]
  rfl

theorem round_inv {g : Graph T} (h : Represents g n data succ) {s : SortState T} {q : List ℕ}
    (hI : QueueInv n data succ [] s q) (hlt : s.head < s.rear) :
    ∃ t q', g.round s = some t ∧ QueueInv n data succ [] t q' ∧ t.head = s.head + 1 := by
  obtain ⟨j, nodes, u, hu, hmap, hbound, hIu, hhead⟩ := dequeue_inv h hI hlt
  obtain ⟨t, q', ht, hIt, hhead'⟩ := foldlM_relax nodes (succ j) hmap hbound hIu
  refine ⟨t, q', ?_, hIt, hhead'.trans hhead⟩
  rw [round_eq, hu]
  exact ht

theorem drain_inv {g : Graph T} (h : Represents g n data succ) (fuel : ℕ) {s : SortState T} {q : List ℕ}
    (hI : QueueInv n data succ [] s q) (hfuel : n ≤ s.head + fuel) :
    ∃ t q', g.drain fuel s = some t ∧ QueueInv n data succ [] t q' ∧ t.head = t.rear := by
  induction fuel generalizing s q with
  | zero =>
    have hlen := length_le_of_bound hI.nodup hI.bound
    have hdone : s.head = s.rear := by
      have := hI.head
      have := hI.rear
      omega
    exact ⟨s, q, by rw [drain, if_pos hdone], hI, hdone⟩
  | succ fuel ih =>
    by_cases hdone : s.head = s.rear
    · exact ⟨s, q, by rw [drain, if_pos hdone], hI, hdone⟩
    · obtain ⟨t, q', ht, hIt, hhead⟩ := round_inv h hI (lt_of_le_of_ne hI.head hdone)
      obtain ⟨u, q'', hu, hIu, hend⟩ := ih hIt (by omega)
      refine ⟨u, q'', ?_, hIu, hend⟩
      rw [drain, if_neg hdone, ht]
      exact hu

/-- The loop over the vertices has queued those of `pre` that have no predecessor. -/
structure SourcesInv (n : ℕ) (d : ℕ → ℕ) (pre post : List ℕ) (s : SortState T) : Prop where
  range : pre ++ post = List.range n
  ins : s.ins = counts n d
  queueLen : s.queue.length = n
  topsLen : s.tops.length = n
  head : s.head = 0
  index : s.index = 0
  rear : s.rear = (pre.filter (fun v => d v = 0)).length
  queue : s.queue.take s.rear = (pre.filter (fun v => d v = 0)).map (fun v : ℕ => (v : ℤ))

theorem enqueueSource_inv {d : ℕ → ℕ} {pre post : List ℕ} {i : ℕ} {s : SortState T}
    (hI : SourcesInv n d pre (i :: post) s) :
    ∃ t, enqueueSource s i = some t ∧ SourcesInv n d (pre ++ [i]) post t := by
  have hlen := congrArg List.length hI.range
  rw [List.length_append, List.length_cons, List.length_range] at hlen
  have hrange : (pre ++ [i]) ++ post = List.range n := by simpa using hI.range
  have hroom : s.rear < s.queue.length := by
    have hle : (pre.filter (fun v => d v = 0)).length ≤ pre.length := List.length_filter_le _ _
    rw [hI.rear, hI.queueLen]
    omega
  have hcast : ((d i : ℤ) = 0) = (d i = 0) := by simp
  have hstep : enqueueSource s i = if d i = 0 then enqueue s (i : ℤ) else some s := by
    simp only [enqueueSource, hI.ins, counts_get d (mem_range_step hI.range).1, Option.bind_eq_bind, Option.bind_some,
      hcast]
    rfl
  rw [hstep]
  by_cases hz : d i = 0
  · have hsnoc : (pre ++ [i]).filter (fun v => d v = 0) = pre.filter (fun v => d v = 0) ++ [i] := by
      simp [hz]
    rw [if_pos hz]
    refine ⟨_, enqueue_eq hroom, hrange, hI.ins, by simpa using hI.queueLen, hI.topsLen, hI.head, hI.index, ?_, ?_⟩
    · rw [hsnoc, List.length_append, List.length_singleton, hI.rear]
    · rw [take_succ_set _ _ _ hroom, hI.queue, hsnoc, List.map_append]
      rfl
  · have hsnoc : (pre ++ [i]).filter (fun v => d v = 0) = pre.filter (fun v => d v = 0) := by
      simp [hz]
    rw [if_neg hz]
    exact ⟨s, rfl, hrange, hI.ins, hI.queueLen, hI.topsLen, hI.head, hI.index, by rw [hsnoc, hI.rear],
      by rw [hsnoc, hI.queue]⟩

theorem SourcesInv.queueInv {s : SortState T}
    (hI : SourcesInv n (degree succ (Finset.range n)) (List.range n) [] s) :
    QueueInv n data succ [] s ((List.range n).filter (fun v => degree succ (Finset.range n) v = 0)) := by
  have hnone : remaining n succ [] [] = degree succ (Finset.range n) := by
    funext v
    simp [remaining, undone]
  exact {
    ins := by rw [hI.head, List.take_zero, hnone, hI.ins]
    queueLen := hI.queueLen
    topsLen := hI.topsLen
    rear := hI.rear
    queue := hI.queue
    head := by rw [hI.head]; exact Nat.zero_le _
    index := by rw [hI.index, hI.head]
    tops := by rw [hI.index, hI.head]; rfl
    nodup := List.nodup_range.filter _
    bound := fun v hv => List.mem_range.mp (List.mem_of_mem_filter hv)
    zero := fun v hv => by rw [hI.head, List.take_zero, hnone]; simp [hv]
    order := by
      intro v hv u hu hvu
      have hz : degree succ (Finset.range n) v = 0 := by simpa using (List.mem_filter.mp hv).2
      exact absurd hvu (degree_eq_zero.mp hz u (Finset.mem_range.mpr hu)) }

theorem enqueueSources_inv [Inhabited T] (n : ℕ) (data : ℕ → T) (succ : ℕ → List ℕ) :
    ∃ s q, (List.range n).foldlM enqueueSource
        (⟨counts n (degree succ (Finset.range n)), List.replicate n 0, List.replicate n default, 0, 0, 0⟩ :
          SortState T) = some s ∧ QueueInv n data succ [] s q ∧ s.head = 0 := by
  obtain ⟨s, hs, hI⟩ := foldlM_invariant (enqueueSource (T := T)) (SourcesInv n (degree succ (Finset.range n)))
    (fun _ _ _ _ => enqueueSource_inv) (List.range n) []
    ⟨counts n (degree succ (Finset.range n)), List.replicate n 0, List.replicate n default, 0, 0, 0⟩
    ⟨rfl, rfl, List.length_replicate, List.length_replicate, rfl, rfl, rfl, rfl⟩
  rw [List.nil_append] at hI
  exact ⟨s, _, hs, hI.queueInv, hI.head⟩

theorem undone_nonempty {q : List ℕ} (hlen : q.length < n) : (undone n q).Nonempty := by
  by_contra hempty
  rw [Finset.not_nonempty_iff_eq_empty] at hempty
  have hsub : List.range n ⊆ q := by
    intro v hv
    by_contra hvq
    have hmem : v ∈ undone n q := mem_undone.mpr ⟨List.mem_range.mp hv, hvq⟩
    rw [hempty] at hmem
    exact Finset.notMem_empty v hmem
  have hle := (List.nodup_range.subperm hsub).length_le
  rw [List.length_range] at hle
  omega

theorem QueueInv.predecessor {s : SortState T} {q : List ℕ} (hI : QueueInv n data succ [] s q)
    (htake : q.take s.head = q) {v : ℕ} (hv : v ∈ undone n q) : ∃ u ∈ undone n q, v ∈ succ u := by
  obtain ⟨hvn, hvq⟩ := mem_undone.mp hv
  have hne : degree succ (undone n q) v ≠ 0 := by
    intro hz
    apply hvq
    rw [hI.zero v hvn, htake, remaining, hz]
    rfl
  rw [ne_eq, degree_eq_zero] at hne
  push Not at hne
  exact hne

/-- The queue at the end of the loop: it is all the vertices in a topological order, or the vertices
that it misses all have a predecessor among themselves. -/
theorem topologicalSort_spec [Inhabited T] {g : Graph T} (h : Represents g n data succ) :
    (∃ q : List ℕ, q.Perm (List.range n) ∧ (∀ u < n, ∀ v ∈ succ u, q.idxOf u < q.idxOf v) ∧
      ∀ out, g.topologicalSort out = some (0, out ++ q.map data)) ∨
    (∃ s : Finset ℕ, s.Nonempty ∧ (∀ v ∈ s, v < n ∧ ∃ u ∈ s, v ∈ succ u) ∧
      ∀ out, g.topologicalSort out = some (1, out)) := by
  obtain ⟨s₀, q₀, hs₀, hI₀, hhead₀⟩ := enqueueSources_inv n data succ
  obtain ⟨s, q, hs, hI, hend⟩ := drain_inv h n hI₀ (by omega)
  have hsort (out : List T) : g.topologicalSort out =
      if s.index ≠ n then some (1, out) else some (0, out ++ s.tops.take n) := by
    simp only [topologicalSort, h.num, foldlM_countVertex h, hs₀, hs, Option.bind_eq_bind, Option.bind_some]
    rfl
  have htake : q.take s.head = q := by rw [hend, hI.rear, List.take_length]
  have hindex : s.index = q.length := by rw [hI.index, hend, hI.rear]
  have hlen := length_le_of_bound hI.nodup hI.bound
  by_cases hn : q.length = n
  · left
    have hperm : q.Perm (List.range n) := by
      have hsub := hI.nodup.subperm (fun v hv => List.mem_range.mpr (hI.bound v hv))
      apply hsub.perm_of_length_le
      rw [List.length_range, hn]
    refine ⟨q, hperm, ?_, ?_⟩
    · intro u hu v hv
      exact (hI.order v (hperm.mem_iff.mpr (List.mem_range.mpr (h.bound u hu v hv))) u hu hv).2
    · have htops := hI.tops
      rw [htake, hindex, hn] at htops
      intro out
      rw [hsort, if_neg (by omega), htops]
  · right
    refine ⟨undone n q, undone_nonempty (by omega), ?_, ?_⟩
    · intro v hv
      exact ⟨(mem_undone.mp hv).1, hI.predecessor htake hv⟩
    · intro out
      rw [hsort, if_pos (by omega)]

end DeepinServiceManager.TopologicalSort
