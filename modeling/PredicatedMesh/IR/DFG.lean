import Mathlib.Data.List.Sort
import PredicatedMesh.IR.Edge

/-!
# The generic dataflow graph

A `DFG` is the loop body as the front end leaves it: every node is an operation of the source
language, and nothing of the machine has entered yet. It has the shape of the target graph it will
be legalized to — nodes, dependences, values from outside, live-outs, and the cached adjacency of
each node in node order — and every lookup searches by id and finds the first entry that has it.
The label a node keeps for messages about its source is left out.
-/

namespace PredicatedMesh

/-! ## Operations -/

inductive Opcode
  | add
  | sub
  | mul
  | and
  | or
  | xor
  | shl
  | lshr
  | ashr
  | icmp
  | select
  | load
  | store
  deriving DecidableEq, Repr

def Opcode.toString : Opcode → String
  | .add => "Add"
  | .sub => "Sub"
  | .mul => "Mul"
  | .and => "And"
  | .or => "Or"
  | .xor => "Xor"
  | .shl => "Shl"
  | .lshr => "LShr"
  | .ashr => "AShr"
  | .icmp => "ICmp"
  | .select => "Select"
  | .load => "Load"
  | .store => "Store"

inductive ICmpPredicate
  | eq
  | ne
  | ult
  | ule
  | ugt
  | uge
  | slt
  | sle
  | sgt
  | sge
  deriving DecidableEq, Repr

structure MemoryOpInfo where
  accessWidthBits : ℕ
  isVolatile : Bool
  deriving DecidableEq, Repr

/-! ## The graph -/

structure Node where
  id : ℕ
  opcode : Opcode
  resultType : ValueType
  operandTypes : List ValueType
  icmpPredicate : Option ICmpPredicate
  memoryInfo : Option MemoryOpInfo
  deriving DecidableEq, Repr

structure LiveOut where
  id : ℕ
  type : ValueType
  name : String
  source : ℕ
  deriving DecidableEq, Repr

structure OperandBinding where
  node : ℕ
  operand : ℕ
  source : ExternalOperandBinding
  deriving DecidableEq, Repr

/-- A dependence of the loop body. Iteration `k + distance` of `dst` depends on iteration `k` of
`src`. -/
structure Edge where
  id : ℕ
  src : ℕ
  dst : ℕ
  distance : ℕ
  info : EdgeInfo
  deriving DecidableEq, Repr

def Edge.kind (edge : Edge) : EdgeKind := edge.info.kind

structure DFG where
  name : String
  nodes : List Node
  edges : List Edge
  externalValues : List ExternalValue
  constants : List ConstantValue
  liveOuts : List LiveOut
  externalBindings : List OperandBinding
  /-- The cached ids of the edges into each node, in node order. -/
  incomingEdges : List (List ℕ)
  /-- The cached ids of the edges out of each node, in node order. -/
  outgoingEdges : List (List ℕ)
  deriving DecidableEq, Repr

namespace DFG

variable (dfg : DFG)

def findNode (id : ℕ) : Option Node := dfg.nodes.find? fun node ↦ node.id == id

def findEdge (id : ℕ) : Option Edge := dfg.edges.find? fun edge ↦ edge.id == id

def findExternal (id : ℕ) : Option ExternalValue :=
  dfg.externalValues.find? fun value ↦ value.id == id

def findConstant (id : ℕ) : Option ConstantValue :=
  dfg.constants.find? fun constant ↦ constant.id == id

def containsNode (id : ℕ) : Bool := (dfg.findNode id).isSome

def incoming (id : ℕ) : Option (List ℕ) :=
  (dfg.nodes.findIdx? fun node ↦ node.id == id).bind fun index ↦ dfg.incomingEdges[index]?

def outgoing (id : ℕ) : Option (List ℕ) :=
  (dfg.nodes.findIdx? fun node ↦ node.id == id).bind fun index ↦ dfg.outgoingEdges[index]?

/-- The ids of the nodes in increasing order, as a map keyed by id visits them. -/
def nodeIds : List ℕ := (dfg.nodes.map Node.id).dedup.insertionSort fun a b ↦ a ≤ b

variable {dfg}

theorem findNode_id {id : ℕ} {node : Node} (h : dfg.findNode id = some node) : node.id = id := by
  simpa using List.find?_some h

theorem mem_of_findNode {id : ℕ} {node : Node} (h : dfg.findNode id = some node) :
    node ∈ dfg.nodes :=
  List.mem_of_find?_eq_some h

theorem containsNode_iff {id : ℕ} :
    dfg.containsNode id = true ↔ ∃ node ∈ dfg.nodes, node.id = id := by
  simp [containsNode, findNode]

end DFG

end PredicatedMesh
