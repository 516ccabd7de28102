import Mathlib.Data.List.Sort
import PredicatedMesh.Target.Model

/-!
# The target dataflow graph

A `TargetDFG` is the loop body after legalization: every node is bound to one operation of the
contract, every edge is a data, predicate or memory dependence, and every operand that no edge
feeds is bound to an external value or a constant. Nodes and edges keep the ids they were created
with, so a lookup searches by id; the adjacency lists are cached beside the nodes, in node order.
-/

namespace PredicatedMesh

abbrev TargetNodeId := ℕ

abbrev TargetEdgeId := ℕ

/-- An operation instance, with the descriptor's timing copied into it. -/
structure TargetNode where
  id : TargetNodeId
  /-- The contract operation the node is bound to. -/
  operation : String
  executionClass : TargetExecutionClass
  resultType : ValueType
  operandTypes : List ValueType
  issueOccupancy : ℕ
  resultLatency : Option ℕ
  /-- The generic nodes the node was legalized from. -/
  genericOrigins : List ℕ
  producerOutputReadyOffset : Option ℕ
  accessWidthBits : Option ℕ
  deriving DecidableEq, Repr

structure TargetLiveOut where
  id : ℕ
  type : ValueType
  name : String
  source : TargetNodeId
  deriving DecidableEq, Repr

structure TargetOperandBinding where
  node : TargetNodeId
  operand : ℕ
  source : ExternalOperandBinding
  deriving DecidableEq, Repr

/-- A dependence of the loop body. Iteration `k + distance` of `dst` depends on iteration `k` of
`src`. -/
structure TargetEdge where
  id : TargetEdgeId
  src : TargetNodeId
  dst : TargetNodeId
  distance : ℕ
  info : EdgeInfo
  deriving DecidableEq, Repr

def TargetEdge.kind (edge : TargetEdge) : EdgeKind := edge.info.kind

theorem TargetEdge.kind_eq_memory_iff {edge : TargetEdge} :
    edge.kind = .memory ↔ ∃ kind, edge.info = .memory kind := by
  rw [TargetEdge.kind]
  rcases edge.info with _ | _ | kind
  · simp [EdgeInfo.kind]
  · simp [EdgeInfo.kind]
  · simp [EdgeInfo.kind]

structure TargetDFG where
  name : String
  targetName : String
  nodes : List TargetNode
  edges : List TargetEdge
  externalValues : List ExternalValue
  constants : List ConstantValue
  liveOuts : List TargetLiveOut
  operandBindings : List TargetOperandBinding
  /-- The cached ids of the edges into each node, in node order. -/
  incomingEdges : List (List TargetEdgeId)
  /-- The cached ids of the edges out of each node, in node order. -/
  outgoingEdges : List (List TargetEdgeId)
  deriving DecidableEq, Repr

namespace TargetDFG

variable (dfg : TargetDFG)

def findNode (id : TargetNodeId) : Option TargetNode :=
  dfg.nodes.find? fun node ↦ node.id == id

def findEdge (id : TargetEdgeId) : Option TargetEdge :=
  dfg.edges.find? fun edge ↦ edge.id == id

def containsNode (id : TargetNodeId) : Bool := (dfg.findNode id).isSome

def containsEdge (id : TargetEdgeId) : Bool := (dfg.findEdge id).isSome

def incoming (id : TargetNodeId) : Option (List TargetEdgeId) :=
  (dfg.nodes.findIdx? fun node ↦ node.id == id).bind fun index ↦ dfg.incomingEdges[index]?

def outgoing (id : TargetNodeId) : Option (List TargetEdgeId) :=
  (dfg.nodes.findIdx? fun node ↦ node.id == id).bind fun index ↦ dfg.outgoingEdges[index]?

/-- The nodes in the order of their ids, as the passes that key a map by id visit them. -/
def nodesById : List TargetNode := dfg.nodes.insertionSort fun a b ↦ a.id ≤ b.id

/-- The edges in the order of their ids. -/
def edgesById : List TargetEdge := dfg.edges.insertionSort fun a b ↦ a.id ≤ b.id

variable {dfg}

theorem findNode_id {id : TargetNodeId} {node : TargetNode} (h : dfg.findNode id = some node) :
    node.id = id := by
  simpa using List.find?_some h

theorem mem_of_findNode {id : TargetNodeId} {node : TargetNode}
    (h : dfg.findNode id = some node) : node ∈ dfg.nodes :=
  List.mem_of_find?_eq_some h

theorem findEdge_id {id : TargetEdgeId} {edge : TargetEdge} (h : dfg.findEdge id = some edge) :
    edge.id = id := by
  simpa using List.find?_some h

theorem mem_of_findEdge {id : TargetEdgeId} {edge : TargetEdge}
    (h : dfg.findEdge id = some edge) : edge ∈ dfg.edges :=
  List.mem_of_find?_eq_some h

theorem nodesById_perm : dfg.nodesById.Perm dfg.nodes := List.perm_insertionSort _ _

theorem edgesById_perm : dfg.edgesById.Perm dfg.edges := List.perm_insertionSort _ _

@[simp] theorem mem_nodesById {node : TargetNode} : node ∈ dfg.nodesById ↔ node ∈ dfg.nodes :=
  nodesById_perm.mem_iff

@[simp] theorem mem_edgesById {edge : TargetEdge} : edge ∈ dfg.edgesById ↔ edge ∈ dfg.edges :=
  edgesById_perm.mem_iff

end TargetDFG

end PredicatedMesh
