import Mathlib.Algebra.BigOperators.Group.Finset.Piecewise
import DeepinServiceManager.SortPolicy
import DeepinServiceManager.TransitionRuns

namespace DeepinServiceManager.SortMachine

open CheckedLoops ListBuilding SortPolicy TopologicalSort TransitionRuns DeepinServiceManager.Graph

variable {T : Type}

/-- Where the sort stands. The lists are the nodes that an edge loop has still to follow. -/
inductive Control
  | countVertices (i : ℕ)
  | countEdges (i : ℕ) (nodes : List ENode)
  | enqueueSources (i : ℕ)
  | loopHead
  | relaxEdges (nodes : List ENode)
  | finished

/-- `written` and `dequeued` record what was written to the queue and what was read from it. -/
structure Machine (T : Type) where
  control : Control
  sort : SortState T
  written : List ℤ
  dequeued : List ℤ

def start [Inhabited T] (g : Graph T) : Machine T :=
  ⟨.countVertices 0, ⟨List.replicate g.m_vexNum 0, List.replicate g.m_vexNum 0, List.replicate g.m_vexNum default,
    0, 0, 0⟩, [], []⟩

/-- The machine after an operation that may have written `v` to the queue. -/
def Machine.record (m : Machine T) (v : ℤ) (control : Control) (sort : SortState T) : Machine T :=
  { m with
    control := control
    sort := sort
    written := if sort.rear = m.sort.rear then m.written else m.written ++ [v] }

-- `none` is an access outside an array, or the end of the sort.
def next (g : Graph T) (m : Machine T) : Option (Machine T) :=
  match m.control with
  | .countVertices i =>
    if i < g.m_vexNum then do
      let vex ← g.m_vexs[i]?
      return { m with control := .countEdges i vex.firstEdge }
    else some { m with control := .enqueueSources 0 }
  | .countEdges i [] => some { m with control := .countVertices (i + 1) }
  | .countEdges i (node :: nodes) => do
    let ins ← countEdge m.sort.ins node
    return { m with control := .countEdges i nodes, sort := { m.sort with ins := ins } }
  | .enqueueSources i =>
    if i < g.m_vexNum then do
      let sort ← enqueueSource m.sort i
      return m.record i (.enqueueSources (i + 1)) sort
    else some { m with control := .loopHead }
  | .loopHead =>
    if m.sort.head = m.sort.rear then some { m with control := .finished }
    else do
      let (j, nodes, sort) ← g.dequeue m.sort
      return { m with control := .relaxEdges nodes, sort := sort, dequeued := m.dequeued ++ [j] }
  | .relaxEdges [] => some { m with control := .loopHead }
  | .relaxEdges (node :: nodes) => do
    let sort ← relax m.sort node
    return m.record node.ivex (.relaxEdges nodes) sort
  | .finished => none

def step (g : Graph T) (m : Machine T) (_ : Unit) : Option (Machine T) := next g m

/-- The records are the parts of the queue before `rear` and before `head`. -/
structure Recorded (m : Machine T) : Prop where
  head : m.sort.head ≤ m.sort.rear
  written : m.sort.queue.take m.sort.rear = m.written
  dequeued : m.sort.queue.take m.sort.head = m.dequeued

/-- The queue of `t` is that of `s`, with `v` at the end perhaps. -/
def Queued (s t : SortState T) (v : ℤ) : Prop :=
  t.head = s.head ∧ (t.queue = s.queue ∧ t.rear = s.rear ∨
    s.rear < s.queue.length ∧ t.queue = s.queue.set s.rear v ∧ t.rear = s.rear + 1)

variable {g : Graph T} {s t : SortState T} {m m' : Machine T}

theorem enqueue_queued {v : ℤ} (h : enqueue s v = some t) : Queued s t v := by
  obtain ⟨queue, hqueue, h⟩ := Option.bind_eq_some_iff.mp h
  obtain ⟨hroom, rfl⟩ := writeAt_eq_some hqueue
  cases h
  exact ⟨rfl, .inr ⟨hroom, rfl, rfl⟩⟩

theorem enqueueSource_queued {i : ℕ} (h : enqueueSource s i = some t) : Queued s t i := by
  obtain ⟨d, -, h⟩ := Option.bind_eq_some_iff.mp h
  split_ifs at h
  · exact enqueue_queued h
  · cases h
    exact ⟨rfl, .inl ⟨rfl, rfl⟩⟩

theorem relax_queued {node : ENode} (h : relax s node = some t) : Queued s t node.ivex := by
  obtain ⟨d, -, h⟩ := Option.bind_eq_some_iff.mp h
  obtain ⟨ins, -, h⟩ := Option.bind_eq_some_iff.mp h
  split_ifs at h
  · exact enqueue_queued (s := { s with ins := ins }) h
  · cases h
    exact ⟨rfl, .inl ⟨rfl, rfl⟩⟩

/-- A step that moves on, and changes no more than the in-degrees, keeps the records. -/
theorem Recorded.moved (hm : Recorded m) (control : Control) (ins : List ℤ) :
    Recorded { m with control := control, sort := { m.sort with ins := ins } } :=
  ⟨hm.head, hm.written, hm.dequeued⟩

theorem Recorded.record (hm : Recorded m) {v : ℤ} (h : Queued m.sort t v) (control : Control) :
    Recorded (m.record v control t) := by
  obtain ⟨hhead, ⟨hqueue, hrear⟩ | ⟨hroom, hqueue, hrear⟩⟩ := h
  · constructor
    · rw [Machine.record, hhead, hrear]
      exact hm.head
    · rw [Machine.record, if_pos hrear, hqueue, hrear]
      exact hm.written
    · rw [Machine.record, hqueue, hhead]
      exact hm.dequeued
  · have hne : t.rear ≠ m.sort.rear := by omega
    constructor
    · rw [Machine.record, hhead, hrear]
      exact Nat.le_succ_of_le hm.head
    · rw [Machine.record, if_neg hne, hqueue, hrear, take_succ_set _ _ _ hroom, hm.written]
    · rw [Machine.record, hqueue, hhead, List.take_set_of_le hm.head]
      exact hm.dequeued

theorem Recorded.dequeue (hm : Recorded m) (hne : m.sort.head ≠ m.sort.rear) {j : ℤ} {nodes : List ENode}
    (h : g.dequeue m.sort = some (j, nodes, t)) :
    Recorded { m with control := .relaxEdges nodes, sort := t, dequeued := m.dequeued ++ [j] } := by
  obtain ⟨j', hj, h⟩ := Option.bind_eq_some_iff.mp h
  obtain ⟨vex, -, h⟩ := Option.bind_eq_some_iff.mp h
  obtain ⟨tops, -, h⟩ := Option.bind_eq_some_iff.mp h
  cases h
  constructor
  · exact lt_of_le_of_ne hm.head hne
  · exact hm.written
  · simp only [List.take_add_one, hj, hm.dequeued, Option.toList_some]

theorem next_recorded (hm : Recorded m) (h : next g m = some m') : Recorded m' := by
  cases hcontrol : m.control with
  | countVertices i =>
    simp only [next, hcontrol] at h
    split_ifs at h
    · obtain ⟨vex, -, h⟩ := Option.bind_eq_some_iff.mp h
      cases h
      exact hm.moved _ _
    · cases h
      exact hm.moved _ _
  | countEdges i nodes =>
    cases nodes with
    | nil =>
      simp only [next, hcontrol] at h
      cases h
      exact hm.moved _ _
    | cons node nodes =>
      simp only [next, hcontrol] at h
      obtain ⟨ins, -, h⟩ := Option.bind_eq_some_iff.mp h
      cases h
      exact hm.moved _ _
  | enqueueSources i =>
    simp only [next, hcontrol] at h
    split_ifs at h
    · obtain ⟨sort, hsort, h⟩ := Option.bind_eq_some_iff.mp h
      cases h
      exact hm.record (enqueueSource_queued hsort) _
    · cases h
      exact hm.moved _ _
  | loopHead =>
    simp only [next, hcontrol] at h
    split_ifs at h with hdone
    · cases h
      exact hm.moved _ _
    · obtain ⟨⟨j, nodes, sort⟩, hdequeue, h⟩ := Option.bind_eq_some_iff.mp h
      cases h
      exact hm.dequeue hdone hdequeue
  | relaxEdges nodes =>
    cases nodes with
    | nil =>
      simp only [next, hcontrol] at h
      cases h
      exact hm.moved _ _
    | cons node nodes =>
      simp only [next, hcontrol] at h
      obtain ⟨sort, hsort, h⟩ := Option.bind_eq_some_iff.mp h
      cases h
      exact hm.record (relax_queued hsort) _
  | finished =>
    simp only [next, hcontrol] at h
    cases h

structure Edges (n : ℕ) (nodes : List ENode) (ws : List ℕ) : Prop where
  ivex : nodes.map ENode.ivex = ws.map (fun w : ℕ => (w : ℤ))
  bound : ∀ w ∈ ws, w < n

/-- Nothing is queued yet, and `d` is counted. -/
structure Counted (n : ℕ) (d : ℕ → ℕ) (s : SortState T) : Prop where
  ins : s.ins = counts n d
  queueLen : s.queue.length = n
  topsLen : s.tops.length = n
  head : s.head = 0
  index : s.index = 0
  rear : s.rear = 0

def Inv (n : ℕ) (data : ℕ → T) (succ : ℕ → List ℕ) (m : Machine T) : Prop :=
  match m.control with
  | .countVertices i => i ≤ n ∧ Counted n (degree succ (Finset.range i)) m.sort
  | .countEdges i nodes => i < n ∧ ∃ d ws, Edges n nodes ws ∧ Counted n d m.sort ∧
      ∀ v, d v + ws.count v = degree succ (Finset.range (i + 1)) v
  | .enqueueSources i => i ≤ n ∧ ∃ post, SourcesInv n (degree succ (Finset.range n)) (List.range i) post m.sort
  | .loopHead => ∃ q, QueueInv n data succ [] m.sort q
  | .relaxEdges nodes => ∃ ws q, Edges n nodes ws ∧ QueueInv n data succ ws m.sort q
  | .finished => m.sort.head = m.sort.rear ∧ ∃ q, QueueInv n data succ [] m.sort q

variable {n : ℕ} {data : ℕ → T} {succ : ℕ → List ℕ}

theorem Edges.nil {ws : List ℕ} (h : Edges n [] ws) : ws = [] := by
  have hivex := h.ivex
  simpa using hivex.symm

theorem Edges.cons {node : ENode} {nodes : List ENode} {ws : List ℕ} (h : Edges n (node :: nodes) ws) :
    ∃ w rest, ws = w :: rest ∧ node.ivex = w ∧ w < n ∧ Edges n nodes rest := by
  obtain ⟨w, rest, rfl, hw, hrest⟩ := List.map_eq_cons_iff.mp h.ivex.symm
  exact ⟨w, rest, rfl, hw.symm, h.bound w List.mem_cons_self, hrest.symm,
    fun x hx => h.bound x (List.mem_cons_of_mem _ hx)⟩

theorem countVertices_inv (hg : Represents g n data succ) {i : ℕ} (hcontrol : m.control = .countVertices i)
    (hm : Inv n data succ m) : ∃ m', next g m = some m' ∧ Inv n data succ m' := by
  simp only [Inv, hcontrol] at hm
  obtain ⟨hle, hcounted⟩ := hm
  simp only [next, hcontrol, hg.num]
  by_cases hi : i < n
  · obtain ⟨v, hv, -, hivex⟩ := hg.vex i hi
    rw [if_pos hi, hv]
    refine ⟨_, rfl, hi, _, _, ⟨hivex, hg.bound i hi⟩, hcounted, fun w => ?_⟩
    rw [degree, degree, Finset.sum_range_succ]
  · obtain rfl : i = n := by omega
    rw [if_neg hi]
    refine ⟨_, rfl, Nat.zero_le _, List.range i, ?_⟩
    exact ⟨rfl, hcounted.ins, hcounted.queueLen, hcounted.topsLen, hcounted.head, hcounted.index, hcounted.rear,
      by rw [hcounted.rear]; rfl⟩

theorem countEdges_inv {i : ℕ} {nodes : List ENode} (hcontrol : m.control = .countEdges i nodes)
    (hm : Inv n data succ m) : ∃ m', next g m = some m' ∧ Inv n data succ m' := by
  simp only [Inv, hcontrol] at hm
  obtain ⟨hi, d, ws, hedges, hcounted, hd⟩ := hm
  cases nodes with
  | nil =>
    obtain rfl := hedges.nil
    simp only [next, hcontrol]
    refine ⟨_, rfl, hi, ?_⟩
    have he : d = degree succ (Finset.range (i + 1)) := funext hd
    exact he ▸ hcounted
  | cons node nodes =>
    obtain ⟨w, rest, rfl, hw, hwn, hrest⟩ := hedges.cons
    simp only [next, hcontrol, hcounted.ins, countEdge_counts hw hwn]
    refine ⟨_, rfl, hi, Function.update d w (d w + 1), rest, hrest, ?_, fun v => ?_⟩
    · exact ⟨rfl, hcounted.queueLen, hcounted.topsLen, hcounted.head, hcounted.index, hcounted.rear⟩
    · rw [update_count, hd]

theorem sources_inv (hg : Represents g n data succ) {i : ℕ} (hcontrol : m.control = .enqueueSources i)
    (hm : Inv n data succ m) : ∃ m', next g m = some m' ∧ Inv n data succ m' := by
  simp only [Inv, hcontrol] at hm
  obtain ⟨hle, post, hsources⟩ := hm
  have hlen := congrArg List.length hsources.range
  rw [List.length_append, List.length_range, List.length_range] at hlen
  simp only [next, hcontrol, hg.num]
  cases post with
  | nil =>
    obtain rfl : i = n := by simpa using hlen
    rw [if_neg (lt_irrefl i)]
    exact ⟨_, rfl, _, hsources.queueInv⟩
  | cons j post =>
    have hi : i < n := by
      rw [List.length_cons] at hlen
      omega
    obtain rfl : j = i := by
      have hj := congrArg (fun l => l[i]?) hsources.range
      simpa [hi] using hj
    obtain ⟨t, ht, hsources'⟩ := enqueueSource_inv hsources
    rw [if_pos hi, ht]
    refine ⟨_, rfl, hi, post, ?_⟩
    rw [List.range_succ]
    exact hsources'

theorem loopHead_inv (hg : Represents g n data succ) (hcontrol : m.control = .loopHead) (hm : Inv n data succ m) :
    ∃ m', next g m = some m' ∧ Inv n data succ m' := by
  simp only [Inv, hcontrol] at hm
  obtain ⟨q, hq⟩ := hm
  simp only [next, hcontrol]
  by_cases hdone : m.sort.head = m.sort.rear
  · rw [if_pos hdone]
    exact ⟨_, rfl, hdone, q, hq⟩
  · obtain ⟨j, nodes, t, ht, hivex, hbound, hqt, -⟩ := dequeue_inv hg hq (lt_of_le_of_ne hq.head hdone)
    rw [if_neg hdone, ht]
    exact ⟨_, rfl, succ j, q, ⟨hivex, hbound⟩, hqt⟩

theorem relaxEdges_inv {nodes : List ENode} (hcontrol : m.control = .relaxEdges nodes) (hm : Inv n data succ m) :
    ∃ m', next g m = some m' ∧ Inv n data succ m' := by
  simp only [Inv, hcontrol] at hm
  obtain ⟨ws, q, hedges, hq⟩ := hm
  cases nodes with
  | nil =>
    obtain rfl := hedges.nil
    simp only [next, hcontrol]
    exact ⟨_, rfl, q, hq⟩
  | cons node nodes =>
    obtain ⟨w, rest, rfl, hw, hwn, hrest⟩ := hedges.cons
    obtain ⟨t, q', ht, hq', -⟩ := relax_inv hq hw hwn
    simp only [next, hcontrol, ht]
    exact ⟨_, rfl, rest, q', hrest, hq'⟩

theorem next_inv (hg : Represents g n data succ) (hm : Inv n data succ m) (hcontrol : m.control ≠ .finished) :
    ∃ m', next g m = some m' ∧ Inv n data succ m' := by
  cases h : m.control with
  | countVertices i => exact countVertices_inv hg h hm
  | countEdges i nodes => exact countEdges_inv h hm
  | enqueueSources i => exact sources_inv hg h hm
  | loopHead => exact loopHead_inv hg h hm
  | relaxEdges nodes => exact relaxEdges_inv h hm
  | finished => exact absurd h hcontrol

def At (control : Control) (s : SortState T) (m : Machine T) : Prop := m.control = control ∧ m.sort = s

theorem reach_next (h : next g m = some m') : Reachable (step g) m m' := Reachable.refl.tail (e := ()) h

theorem countEdges_reach {i : ℕ} {nodes : List ENode} {ins ins' : List ℤ} (h : nodes.foldlM countEdge ins = some ins')
    (hm : At (.countEdges i nodes) { s with ins := ins } m) :
    ∃ m', Reachable (step g) m m' ∧ At (.countEdges i []) { s with ins := ins' } m' := by
  apply Reachable.foldlM countEdge (fun nodes ins => At (.countEdges i nodes) { s with ins := ins }) _ h hm
  rintro node nodes a b m ⟨hcontrol, hsort⟩ hcount
  refine ⟨{ m with control := .countEdges i nodes, sort := { m.sort with ins := b } }, reach_next ?_, rfl, ?_⟩
  · simp only [next, hcontrol, hsort, hcount]
    rfl
  · simp only [hsort]

theorem countVertices_reach {ins ins' : List ℤ} (h : (List.range g.m_vexNum).foldlM g.countVertex ins = some ins')
    (hm : At (.countVertices 0) { s with ins := ins } m) :
    ∃ m', Reachable (step g) m m' ∧ At (.countVertices g.m_vexNum) { s with ins := ins' } m' := by
  apply Reachable.foldlM_range g.countVertex (fun i ins => At (.countVertices i) { s with ins := ins }) _ h hm
  rintro i hi a b m ⟨hcontrol, hsort⟩ hcount
  obtain ⟨vex, hvex, hcount⟩ := Option.bind_eq_some_iff.mp hcount
  have hopen : next g m = some { m with control := .countEdges i vex.firstEdge } := by
    simp only [next, hcontrol, if_pos hi, hvex]
    rfl
  obtain ⟨u, hu, hcontrol', hsort'⟩ := countEdges_reach (g := g)
    (m := { m with control := .countEdges i vex.firstEdge }) hcount ⟨rfl, hsort⟩
  have hclose : next g u = some { u with control := .countVertices (i + 1) } := by
    simp only [next, hcontrol']
  exact ⟨_, ((reach_next hopen).trans hu).trans (reach_next hclose), rfl, hsort'⟩

theorem sources_reach (h : (List.range g.m_vexNum).foldlM enqueueSource s = some t)
    (hm : At (.enqueueSources 0) s m) :
    ∃ m', Reachable (step g) m m' ∧ At (.enqueueSources g.m_vexNum) t m' := by
  apply Reachable.foldlM_range enqueueSource (fun i => At (.enqueueSources i)) _ h hm
  rintro i hi a b m ⟨hcontrol, hsort⟩ hsource
  refine ⟨m.record i (.enqueueSources (i + 1)) b, reach_next ?_, rfl, rfl⟩
  simp only [next, hcontrol, if_pos hi, hsort, hsource]
  rfl

theorem relaxEdges_reach {nodes : List ENode} (h : nodes.foldlM relax s = some t)
    (hm : At (.relaxEdges nodes) s m) : ∃ m', Reachable (step g) m m' ∧ At (.relaxEdges []) t m' := by
  apply Reachable.foldlM relax (fun nodes => At (.relaxEdges nodes)) _ h hm
  rintro node nodes a b m ⟨hcontrol, hsort⟩ hrelax
  refine ⟨m.record node.ivex (.relaxEdges nodes) b, reach_next ?_, rfl, rfl⟩
  simp only [next, hcontrol, hsort, hrelax]
  rfl

theorem round_reach (h : g.round s = some t) (hne : s.head ≠ s.rear) (hm : At .loopHead s m) :
    ∃ m', Reachable (step g) m m' ∧ At .loopHead t m' := by
  obtain ⟨hcontrol, rfl⟩ := hm
  rw [round_eq] at h
  obtain ⟨⟨j, nodes, u⟩, hdequeue, h⟩ := Option.bind_eq_some_iff.mp h
  have hopen : next g m = some
      { m with control := .relaxEdges nodes, sort := u, dequeued := m.dequeued ++ [j] } := by
    simp only [next, hcontrol, if_neg hne, hdequeue]
    rfl
  obtain ⟨v, hv, hcontrol', hsort'⟩ := relaxEdges_reach (g := g)
    (m := { m with control := .relaxEdges nodes, sort := u, dequeued := m.dequeued ++ [j] }) h ⟨rfl, rfl⟩
  have hclose : next g v = some { v with control := .loopHead } := by
    simp only [next, hcontrol']
  exact ⟨_, ((reach_next hopen).trans hv).trans (reach_next hclose), rfl, hsort'⟩

theorem drain_reach {fuel : ℕ} (h : g.drain fuel s = some t) (hm : At .loopHead s m) :
    ∃ m', Reachable (step g) m m' ∧ At .finished t m' := by
  have hdone {s : SortState T} {m : Machine T} (hs : s.head = s.rear) (hm : At .loopHead s m) :
      Reachable (step g) m { m with control := .finished } ∧ At .finished s { m with control := .finished } := by
    obtain ⟨hcontrol, rfl⟩ := hm
    refine ⟨reach_next ?_, rfl, rfl⟩
    simp only [next, hcontrol, if_pos hs]
  induction fuel generalizing s m with
  | zero =>
    rw [drain] at h
    split_ifs at h with hs
    cases h
    exact ⟨_, hdone hs hm⟩
  | succ fuel ih =>
    rw [drain] at h
    split_ifs at h with hs
    · cases h
      exact ⟨_, hdone hs hm⟩
    · obtain ⟨u, hu, h⟩ := Option.bind_eq_some_iff.mp h
      obtain ⟨v, hv, hat⟩ := round_reach hu hs hm
      obtain ⟨w, hw, hat'⟩ := ih h hat
      exact ⟨w, hv.trans hw, hat'⟩

def result (g : Graph T) (s : SortState T) (out : List T) : ℤ × List T :=
  if s.index ≠ g.m_vexNum then (1, out) else (0, out ++ s.tops.take g.m_vexNum)

/-- The machine computes what the sort returns. -/
theorem topologicalSort_reach [Inhabited T] {out : List T} {r : ℤ × List T} (h : g.topologicalSort out = some r) :
    ∃ m, Reachable (step g) (start g) m ∧ m.control = .finished ∧
      ∀ out, g.topologicalSort out = some (result g m.sort out) := by
  obtain ⟨ins, hins, h⟩ := Option.bind_eq_some_iff.mp h
  obtain ⟨s, hs, h⟩ := Option.bind_eq_some_iff.mp h
  obtain ⟨t, ht, -⟩ := Option.bind_eq_some_iff.mp h
  obtain ⟨m₁, hreach₁, hcontrol₁, hsort₁⟩ := countVertices_reach (s := (start g).sort) (m := start g) hins
    ⟨rfl, rfl⟩
  have hcounted : next g m₁ = some { m₁ with control := .enqueueSources 0 } := by
    simp only [next, hcontrol₁, if_neg (lt_irrefl g.m_vexNum)]
  obtain ⟨m₂, hreach₂, hcontrol₂, hsort₂⟩ := sources_reach (m := { m₁ with control := .enqueueSources 0 }) hs
    ⟨rfl, hsort₁⟩
  have hqueued : next g m₂ = some { m₂ with control := .loopHead } := by
    simp only [next, hcontrol₂, if_neg (lt_irrefl g.m_vexNum)]
  obtain ⟨m₃, hreach₃, hcontrol₃, hsort₃⟩ := drain_reach (m := { m₂ with control := .loopHead }) ht ⟨rfl, hsort₂⟩
  have hreach := (hreach₁.trans (reach_next hcounted)).trans (hreach₂.trans (reach_next hqueued))
  refine ⟨m₃, hreach.trans hreach₃, hcontrol₃, fun out => ?_⟩
  simp only [topologicalSort, hins, hs, ht, hsort₃, result, Option.bind_eq_bind, Option.bind_some]
  split_ifs <;> rfl

/-- What all the invariants say about the arrays; `q` is what the queue holds. -/
structure Bounded (n : ℕ) (s : SortState T) (q : List ℕ) : Prop where
  ins : ∃ d, s.ins = counts n d
  queueLen : s.queue.length = n
  topsLen : s.tops.length = n
  rear : s.rear = q.length
  queue : s.queue.take s.rear = q.map (fun v : ℕ => (v : ℤ))
  index : s.index = s.head
  nodup : q.Nodup
  bound : ∀ v ∈ q, v < n

theorem counted_bounded {d : ℕ → ℕ} (h : Counted n d s) : Bounded n s [] where
  ins := ⟨d, h.ins⟩
  queueLen := h.queueLen
  topsLen := h.topsLen
  rear := h.rear
  queue := by rw [h.rear]; rfl
  index := by rw [h.index, h.head]
  nodup := List.nodup_nil
  bound := fun _ hv => nomatch hv

theorem sources_bounded {d : ℕ → ℕ} {i : ℕ} {post : List ℕ} (hle : i ≤ n)
    (h : SourcesInv n d (List.range i) post s) : Bounded n s ((List.range i).filter (fun v => d v = 0)) where
  ins := ⟨d, h.ins⟩
  queueLen := h.queueLen
  topsLen := h.topsLen
  rear := h.rear
  queue := h.queue
  index := by rw [h.index, h.head]
  nodup := List.nodup_range.filter _
  bound := fun _ hv => (List.mem_range.mp (List.mem_of_mem_filter hv)).trans_le hle

theorem queue_bounded {ws q : List ℕ} (h : QueueInv n data succ ws s q) : Bounded n s q where
  ins := ⟨_, h.ins⟩
  queueLen := h.queueLen
  topsLen := h.topsLen
  rear := h.rear
  queue := h.queue
  index := h.index
  nodup := h.nodup
  bound := h.bound

theorem Inv.bounded (hm : Inv n data succ m) : ∃ q, Bounded n m.sort q := by
  obtain ⟨control, sort, written, dequeued⟩ := m
  cases control with
  | countVertices i =>
    obtain ⟨-, hcounted⟩ := hm
    exact ⟨_, counted_bounded hcounted⟩
  | countEdges i nodes =>
    obtain ⟨-, d, ws, -, hcounted, -⟩ := hm
    exact ⟨_, counted_bounded hcounted⟩
  | enqueueSources i =>
    obtain ⟨hle, post, hsources⟩ := hm
    exact ⟨_, sources_bounded hle hsources⟩
  | loopHead =>
    obtain ⟨q, hq⟩ := hm
    exact ⟨q, queue_bounded hq⟩
  | relaxEdges nodes =>
    obtain ⟨ws, q, -, hq⟩ := hm
    exact ⟨q, queue_bounded hq⟩
  | finished =>
    obtain ⟨-, q, hq⟩ := hm
    exact ⟨q, queue_bounded hq⟩

theorem start_inv [Inhabited T] (hg : Represents g n data succ) :
    Inv n data succ (start g) ∧ Recorded (start g) := by
  refine ⟨⟨Nat.zero_le _, ?_, ?_, ?_, rfl, rfl, rfl⟩, le_refl 0, rfl, rfl⟩
  · rw [start, hg.num]
    exact replicate_eq_counts n succ
  · rw [start, List.length_replicate, hg.num]
  · rw [start, List.length_replicate, hg.num]

theorem reachable_inv [Inhabited T] (hg : Represents g n data succ)
    (hm : Reachable (step g) (start g) m) : Inv n data succ m ∧ Recorded m := by
  apply hm.invariant (fun m => Inv n data succ m ∧ Recorded m) (start_inv hg)
  rintro m e m' ⟨hinv, hr⟩ h
  refine ⟨?_, next_recorded hr h⟩
  have hcontrol : m.control ≠ .finished := by
    intro hcontrol
    simp only [step, next, hcontrol] at h
    cases h
  obtain ⟨t, ht, hinv'⟩ := next_inv hg hinv hcontrol
  have he : m' = t := Option.some.inj (h.symm.trans ht)
  exact he ▸ hinv'

theorem dequeued_eq {q : List ℕ} (hr : Recorded m)
    (hq : m.sort.queue.take m.sort.rear = q.map (fun v : ℕ => (v : ℤ))) :
    m.dequeued = (q.take m.sort.head).map (fun v : ℕ => (v : ℤ)) := by
  rw [← hr.dequeued, List.map_take, ← hq, List.take_take, min_eq_left hr.head]

section InDegrees

variable [DecidableEq T] [Inhabited T] {vexs : List T} {edges : List (T × T)}

theorem count_targets (e : T × T) (es : List (T × T)) (u v : ℕ) : (targets vexs (e :: es) u).count v =
    (if e.1 = vertex vexs u ∧ vexs.idxOf e.2 = v then 1 else 0) + (targets vexs es u).count v := by
  by_cases h : e.1 = vertex vexs u
  · simp [targets, h, List.count_cons, add_comm]
  · simp [targets, h]

theorem degree_targets (hvexs : vexs.Nodup) (hedges : ∀ e ∈ edges, e.1 ∈ vexs ∧ e.2 ∈ vexs) {us : Finset ℕ}
    (hus : ∀ u ∈ us, u < vexs.length) (v : ℕ) : degree (targets vexs edges) us v =
      edges.countP (fun e => vexs.idxOf e.2 = v ∧ vexs.idxOf e.1 ∈ us) := by
  induction edges with
  | nil => simp [degree, targets]
  | cons e es ih =>
    have hsource : ∀ u ∈ us, (e.1 = vertex vexs u ∧ vexs.idxOf e.2 = v ↔
        u = vexs.idxOf e.1 ∧ vexs.idxOf e.2 = v) := by
      intro u hu
      apply and_congr_left'
      constructor
      · intro he
        rw [he, idxOf_vertex hvexs (hus u hu)]
      · rintro rfl
        exact (vertex_idxOf (hedges e List.mem_cons_self).1).symm
    have hone : ∑ u ∈ us, (if e.1 = vertex vexs u ∧ vexs.idxOf e.2 = v then 1 else 0) =
        if vexs.idxOf e.2 = v ∧ vexs.idxOf e.1 ∈ us then 1 else 0 := by
      rw [Finset.sum_congr rfl (fun u hu => if_congr (hsource u hu) rfl rfl)]
      by_cases hv : vexs.idxOf e.2 = v <;> simp [hv]
    rw [degree, Finset.sum_congr rfl (fun u _ => count_targets e es u v), Finset.sum_add_distrib, hone,
      List.countP_cons, ← ih (fun e he => hedges e (List.mem_cons_of_mem _ he)), add_comm, degree]
    simp

theorem ins_edges (hvexs : vexs.Nodup) (hedges : ∀ e ∈ edges, e.1 ∈ vexs ∧ e.2 ∈ vexs) {q : List ℕ}
    (hq : QueueInv vexs.length data (targets vexs edges) [] m.sort q) (hr : Recorded m) {v : T} (hv : v ∈ vexs) :
    m.sort.ins[vexs.idxOf v]? =
      some ((edges.countP (fun e => e.2 = v ∧ (vexs.idxOf e.1 : ℤ) ∉ m.dequeued) : ℕ) : ℤ) := by
  have hundone : ∀ u ∈ undone vexs.length (q.take m.sort.head), u < vexs.length := fun u hu => (mem_undone.mp hu).1
  rw [hq.ins, counts_get _ (List.idxOf_lt_length_of_mem hv), remaining, List.count_nil, add_zero,
    degree_targets hvexs hedges hundone, dequeued_eq hr hq.queue]
  congr 2
  apply List.countP_congr
  intro e he
  obtain ⟨h1, h2⟩ := hedges e he
  have hsource : vexs.idxOf e.1 < vexs.length := List.idxOf_lt_length_of_mem h1
  have htarget : vexs.idxOf e.2 = vexs.idxOf v ↔ e.2 = v := List.idxOf_inj h2
  simp only [decide_eq_true_eq, htarget, mem_undone, hsource, true_and, List.mem_map, Int.natCast_inj,
    exists_eq_right]

/-- The arrays keep their lengths, and the writes stay within them. -/
structure Sound (vexs : List T) (edges : List (T × T)) (m : Machine T) : Prop where
  recorded : Recorded m
  once : m.written.Nodup
  vertices : ∀ j ∈ m.written, ∃ v < vexs.length, j = (v : ℕ)
  rear : m.sort.rear ≤ vexs.length
  index : m.sort.index ≤ vexs.length
  lengths : m.sort.ins.length = vexs.length ∧ m.sort.queue.length = vexs.length ∧ m.sort.tops.length = vexs.length
  nonneg : ∀ d ∈ m.sort.ins, 0 ≤ d
  rounds : m.dequeued.length ≤ vexs.length
  loopHead : m.control = .loopHead → ∀ v ∈ vexs, m.sort.ins[vexs.idxOf v]? =
    some ((edges.countP (fun e => e.2 = v ∧ (vexs.idxOf e.1 : ℤ) ∉ m.dequeued) : ℕ) : ℤ)

theorem Inv.sound (hvexs : vexs.Nodup) (hedges : ∀ e ∈ edges, e.1 ∈ vexs ∧ e.2 ∈ vexs)
    (hm : Inv vexs.length data (targets vexs edges) m) (hr : Recorded m) : Sound vexs edges m := by
  obtain ⟨q, hq⟩ := hm.bounded
  obtain ⟨d, hd⟩ := hq.ins
  have hlen := length_le_of_bound hq.nodup hq.bound
  have hwritten : m.written = q.map (fun v : ℕ => (v : ℤ)) := by rw [← hr.written, hq.queue]
  have hdequeued := dequeued_eq hr hq.queue
  have hhead := hr.head
  rw [hq.rear] at hhead
  constructor
  case recorded => exact hr
  case once =>
    rw [hwritten]
    exact hq.nodup.map (fun u v huv => Int.natCast_inj.mp huv)
  case vertices =>
    intro j hj
    rw [hwritten] at hj
    obtain ⟨v, hv, rfl⟩ := List.mem_map.mp hj
    exact ⟨v, hq.bound v hv, rfl⟩
  case rear => rw [hq.rear]; exact hlen
  case index => rw [hq.index]; exact hhead.trans hlen
  case lengths =>
    refine ⟨?_, hq.queueLen, hq.topsLen⟩
    rw [hd, counts, List.length_map, List.length_range]
  case nonneg =>
    rw [hd]
    intro x hx
    obtain ⟨v, -, rfl⟩ := List.mem_map.mp hx
    exact Int.natCast_nonneg _
  case rounds =>
    rw [hdequeued, List.length_map, List.length_take]
    exact (min_le_right _ _).trans hlen
  case loopHead =>
    intro hcontrol v hv
    simp only [Inv, hcontrol] at hm
    obtain ⟨q, hq⟩ := hm
    exact ins_edges hvexs hedges hq hr hv

theorem sort_machine_sound (hvexs : vexs.Nodup) (hedges : ∀ e ∈ edges, e.1 ∈ vexs ∧ e.2 ∈ vexs) :
    ∃ g, Graph.ofEdges vexs edges = some g ∧ g.m_vexNum = vexs.length ∧
      (∀ m, Reachable (step g) (start g) m → Sound vexs edges m ∧
        (m.control ≠ .finished → ∃ m', next g m = some m')) ∧
      ∃ m, Reachable (step g) (start g) m ∧ m.control = .finished ∧
        ∀ out, g.topologicalSort out = some (result g m.sort out) := by
  obtain ⟨g, hofEdges, hnum, -, hg⟩ := ofEdges_represents hvexs hedges
  refine ⟨g, hofEdges, hnum, fun m hm => ?_, ?_⟩
  · obtain ⟨hinv, hr⟩ := reachable_inv hg hm
    refine ⟨hinv.sound hvexs hedges hr, fun hcontrol => ?_⟩
    obtain ⟨m', hm', -⟩ := next_inv hg hinv hcontrol
    exact ⟨m', hm'⟩
  · obtain ⟨r, hr⟩ : ∃ r, g.topologicalSort [] = some r := by
      rcases topologicalSort_spec hg with ⟨q, -, -, hsort⟩ | ⟨s, -, -, hsort⟩
      · exact ⟨_, hsort []⟩
      · exact ⟨_, hsort []⟩
    exact topologicalSort_reach hr

theorem sort_machine_sound_loop : ∃ g, Graph.ofEdges [7, 8, 9] [(7, 8), (7, 8), (9, 9)] = some g ∧
    ∀ m, Reachable (step g) (start g) m → m.written.Nodup ∧ m.dequeued.length ≤ 3 := by
  have hvexs : [7, 8, 9].Nodup := by decide
  have hedges : ∀ e ∈ [(7, 8), (7, 8), (9, 9)], e.1 ∈ [7, 8, 9] ∧ e.2 ∈ [7, 8, 9] := by decide
  obtain ⟨g, hg, -, hsound, -⟩ := sort_machine_sound hvexs hedges
  exact ⟨g, hg, fun m hm => ⟨(hsound m hm).1.once, (hsound m hm).1.rounds⟩⟩

end InDegrees

end DeepinServiceManager.SortMachine
