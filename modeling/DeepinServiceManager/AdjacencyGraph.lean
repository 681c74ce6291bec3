import DeepinServiceManager.CheckedLoops

namespace DeepinServiceManager

open CheckedLoops

-- `node` numbers the allocations of the constructor.
structure ENode where
  node : ℕ
  ivex : ℤ

-- `firstEdge` holds the nodes that the pointer reaches through `nextEdge`.
structure VNode (T : Type) where
  data : T
  firstEdge : List ENode

structure Graph (T : Type) where
  m_vexNum : ℕ
  m_edgNum : ℕ
  m_vexs : List (VNode T)

namespace Graph

variable {T : Type} [DecidableEq T]

def getPosition (g : Graph T) (ch : T) : ℤ :=
  match (g.m_vexs.take g.m_vexNum).findIdx? (fun v => v.data = ch) with
  | some i => i
  | none => -1

def linkLast (list : List ENode) (node : ENode) : List ENode := list ++ [node]

-- `none` is an access outside `m_vexs`.
def addEdge (g : Graph T) (edge : (T × T) × ℕ) : Option (Graph T) := do
  let p1 := g.getPosition edge.1.1
  let p2 := g.getPosition edge.1.2
  let node1 : ENode := ⟨edge.2, p2⟩
  let vex ← readAt g.m_vexs p1
  let m_vexs ← writeAt g.m_vexs p1 { vex with firstEdge := linkLast vex.firstEdge node1 }
  return { g with m_vexs := m_vexs }

theorem addEdge_edgNum {g g' : Graph T} {edge : (T × T) × ℕ} (h : g.addEdge edge = some g') :
    g'.m_edgNum = g.m_edgNum := by
  obtain ⟨vex, -, h⟩ := Option.bind_eq_some_iff.mp h
  obtain ⟨m_vexs, -, h⟩ := Option.bind_eq_some_iff.mp h
  cases h
  rfl

def ofEdges (vexs : List T) (edges : List (T × T)) : Option (Graph T) :=
  edges.zipIdx.foldlM addEdge ⟨vexs.length, edges.length, vexs.map (fun vex => ⟨vex, []⟩)⟩

-- `~Graph`: the nodes it deletes, in order; `none` is an access outside `m_vexs`.
def destroy (g : Graph T) : Option (List ℕ) :=
  (List.range g.m_edgNum).foldlM (fun freed i => do
    let vex ← g.m_vexs[i]?
    match vex.firstEdge with
    | [] => return freed
    | node :: _ => return freed ++ [node.node]) []

def firstNode (v : VNode T) : Option ℕ := v.firstEdge.head?.map ENode.node

omit [DecidableEq T] in
theorem foldlM_delete (vexs : List (VNode T)) {n : ℕ} (hn : n ≤ vexs.length) :
    (List.range n).foldlM (fun freed i => do
      let vex ← vexs[i]?
      match vex.firstEdge with
      | [] => return freed
      | node :: _ => return freed ++ [node.node]) [] = some ((vexs.take n).filterMap firstNode) := by
  induction n with
  | zero => rfl
  | succ n ih =>
    have hget : vexs[n]? = some vexs[n] := List.getElem?_eq_getElem hn
    rw [List.range_succ, List.foldlM_append, ih (Nat.le_of_succ_le hn), List.take_add_one, hget]
    simp only [Option.bind_eq_bind, Option.bind_some, List.foldlM_cons, List.foldlM_nil, hget, Option.toList_some,
      List.filterMap_append, List.filterMap_cons, List.filterMap_nil, firstNode]
    cases vexs[n].firstEdge with
    | nil => simp
    | cons node rest => rfl

omit [DecidableEq T] in
theorem destroy_eq {g : Graph T} (h : g.m_edgNum ≤ g.m_vexs.length) :
    g.destroy = some ((g.m_vexs.take g.m_edgNum).filterMap firstNode) := foldlM_delete g.m_vexs h

omit [DecidableEq T] in
theorem destroy_in_bounds {g : Graph T} {freed : List ℕ} (h : g.destroy = some freed) :
    g.m_edgNum ≤ g.m_vexs.length := by
  by_contra hlt
  have hmem : g.m_vexs.length ∈ List.range g.m_edgNum := List.mem_range.mpr (Nat.lt_of_not_le hlt)
  obtain ⟨_, _, hread⟩ := foldlM_mem h hmem
  simp at hread

structure SortState (T : Type) where
  ins : List ℤ
  queue : List ℤ
  tops : List T
  index : ℕ
  head : ℕ
  rear : ℕ

def countEdge (ins : List ℤ) (node : ENode) : Option (List ℤ) := do
  let d ← readAt ins node.ivex
  writeAt ins node.ivex (d + 1)

def countVertex (g : Graph T) (ins : List ℤ) (i : ℕ) : Option (List ℤ) := do
  let vex ← g.m_vexs[i]?
  vex.firstEdge.foldlM countEdge ins

def enqueue (s : SortState T) (v : ℤ) : Option (SortState T) := do
  let queue ← writeAt s.queue s.rear v
  return { s with queue := queue, rear := s.rear + 1 }

def enqueueSource (s : SortState T) (i : ℕ) : Option (SortState T) := do
  let d ← s.ins[i]?
  if d = 0 then enqueue s i else return s

def relax (s : SortState T) (node : ENode) : Option (SortState T) := do
  let d ← readAt s.ins node.ivex
  let ins ← writeAt s.ins node.ivex (d - 1)
  let s := { s with ins := ins }
  if d - 1 = 0 then enqueue s node.ivex else return s

def round (g : Graph T) (s : SortState T) : Option (SortState T) := do
  let j ← s.queue[s.head]?
  let vex ← readAt g.m_vexs j
  let tops ← writeAt s.tops s.index vex.data
  vex.firstEdge.foldlM relax { s with head := s.head + 1, tops := tops, index := s.index + 1 }

-- The part of a round before its edges are followed.
def dequeue (g : Graph T) (s : SortState T) : Option (ℤ × List ENode × SortState T) := do
  let j ← s.queue[s.head]?
  let vex ← readAt g.m_vexs j
  let tops ← writeAt s.tops s.index vex.data
  return (j, vex.firstEdge, { s with head := s.head + 1, tops := tops, index := s.index + 1 })

omit [DecidableEq T] in
theorem round_eq (g : Graph T) (s : SortState T) :
    g.round s = (g.dequeue s).bind (fun r => r.2.1.foldlM relax r.2.2) := by
  simp only [round, dequeue, Option.bind_eq_bind, Option.bind_assoc]
  rfl

-- `while (head != rear)`; also `none` when the fuel does not suffice.
def drain (g : Graph T) : ℕ → SortState T → Option (SortState T)
  | 0, s => if s.head = s.rear then some s else none
  | fuel + 1, s => if s.head = s.rear then some s else do drain g fuel (← g.round s)

def topologicalSort [Inhabited T] (g : Graph T) (out : List T) : Option (ℤ × List T) := do
  let ins ← (List.range g.m_vexNum).foldlM g.countVertex (List.replicate g.m_vexNum 0)
  let s ← (List.range g.m_vexNum).foldlM enqueueSource
    ⟨ins, List.replicate g.m_vexNum 0, List.replicate g.m_vexNum default, 0, 0, 0⟩
  let s ← g.drain g.m_vexNum s
  if s.index ≠ g.m_vexNum then return (1, out)
  return (0, out ++ s.tops.take g.m_vexNum)

end Graph

end DeepinServiceManager
