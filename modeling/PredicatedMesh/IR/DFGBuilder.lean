import PredicatedMesh.IR.DFG
import PredicatedMesh.Library.Scan
import PredicatedMesh.Library.SortedMap

/-!
# Building a generic dataflow graph

A graph is only ever put together by a builder. It appends one entry at a time, refuses an id that
is taken and a reference to a node that is not there, keeps the operand bindings sorted, and caches
the adjacency of every node as edges come in. An entry may come with its own id (`import...`), which
moves the counter of the free ids, or get the next free one (`add...`); the counters are 32-bit
numbers and wrap around.

The label a node keeps for messages about its source travels beside the graph, in node order.
-/

namespace PredicatedMesh

open Scan

structure SourceInfo where
  label : String
  deriving DecidableEq, Repr

/-- A graph with the label of each node. -/
structure SourcedDFG where
  dfg : DFG
  /-- The labels of the nodes, in node order. -/
  sources : List (Option SourceInfo)
  deriving DecidableEq, Repr

namespace SourcedDFG

/-- The nodes with their labels. -/
def entries (graph : SourcedDFG) : List (Node × Option SourceInfo) :=
  graph.dfg.nodes.zip graph.sources

def findEntry (graph : SourcedDFG) (id : ℕ) : Option (Node × Option SourceInfo) :=
  graph.entries.find? fun entry ↦ entry.1.id == id

end SourcedDFG

/-! ## Appending to a graph -/

namespace DFG

/-- The position of a node. -/
def nodeIndex (dfg : DFG) (id : ℕ) : Option ℕ := dfg.nodes.findIdx? fun node ↦ node.id == id

def empty (name : String) : DFG where
  name := name
  nodes := []
  edges := []
  externalValues := []
  constants := []
  liveOuts := []
  externalBindings := []
  incomingEdges := []
  outgoingEdges := []

variable (dfg : DFG)

def appendNode (node : Node) : Except String DFG :=
  if dfg.containsNode node.id then .error "DFG node ID is duplicated"
  else .ok { dfg with
    nodes := dfg.nodes ++ [node]
    incomingEdges := dfg.incomingEdges ++ [[]]
    outgoingEdges := dfg.outgoingEdges ++ [[]] }

def appendExternal (value : ExternalValue) : Except String DFG :=
  if (dfg.findExternal value.id).isSome then .error "DFG external value ID is duplicated"
  else .ok { dfg with externalValues := dfg.externalValues ++ [value] }

def appendConstant (value : ConstantValue) : Except String DFG :=
  if (dfg.findConstant value.id).isSome then .error "DFG constant ID is duplicated"
  else .ok { dfg with constants := dfg.constants ++ [value] }

def appendLiveOut (value : LiveOut) : Except String DFG :=
  if dfg.liveOuts.any fun liveOut ↦ liveOut.id == value.id then
    .error "DFG live-out ID is duplicated"
  else if !dfg.containsNode value.source then
    .error "DFG live-out references an unknown source node"
  else .ok { dfg with liveOuts := dfg.liveOuts ++ [value] }

/-- Put an edge behind those a node has cached. -/
def cacheEdge (cached : List (List ℕ)) (node : Option ℕ) (edge : ℕ) : List (List ℕ) :=
  match node with
  | none => cached
  | some index => cached.modify index (· ++ [edge])

def appendEdge (edge : Edge) : Except String DFG :=
  if (dfg.findEdge edge.id).isSome then .error "DFG edge ID is duplicated"
  else if !dfg.containsNode edge.src || !dfg.containsNode edge.dst then
    .error "DFG edge endpoints must reference existing nodes"
  else .ok { dfg with
    edges := dfg.edges ++ [edge]
    incomingEdges := cacheEdge dfg.incomingEdges (dfg.nodeIndex edge.dst) edge.id
    outgoingEdges := cacheEdge dfg.outgoingEdges (dfg.nodeIndex edge.src) edge.id }

/-- Bindings are sorted by node, and by operand for one node. -/
def bindingKey (binding : OperandBinding) : ℕ ×ₗ ℕ := toLex (binding.node, binding.operand)

def appendBinding (binding : OperandBinding) : Except String DFG :=
  if !dfg.containsNode binding.node then .error "DFG operand binding references unknown node"
  else if dfg.externalBindings.any fun item ↦
      item.node == binding.node && item.operand == binding.operand then
    .error "DFG operand binding is duplicated"
  else .ok { dfg with
    externalBindings := (dfg.externalBindings ++ [binding]).insertionSort fun lhs rhs ↦
      bindingKey lhs ≤ bindingKey rhs }

def node (id : ℕ) : Except String Node :=
  match dfg.findNode id with
  | none => .error ("unknown DFG node id: " ++ toString id)
  | some node => .ok node

def constant (id : ℕ) : Except String ConstantValue :=
  match dfg.findConstant id with
  | none => .error ("unknown DFG constant id: " ++ toString id)
  | some constant => .ok constant

def edge (id : ℕ) : Except String Edge :=
  match dfg.findEdge id with
  | none => .error ("unknown DFG edge id: " ++ toString id)
  | some edge => .ok edge

end DFG

/-! ## The builder -/

structure DFGBuilder where
  graph : SourcedDFG
  nextNodeId : ℕ
  nextEdgeId : ℕ
  nextExternalId : ℕ
  nextConstantId : ℕ
  nextLiveOutId : ℕ

namespace DFGBuilder

def create (name : String) : DFGBuilder := ⟨⟨.empty name, []⟩, 0, 0, 0, 0, 0⟩

/-- The counter after an id has been used, as a 32-bit number. -/
def after (counter id : ℕ) : ℕ := max counter ((id + 1) % 2 ^ 32)

variable (builder : DFGBuilder)

def dfg : DFG := builder.graph.dfg

/-- The builder with another graph. -/
def withGraph (dfg : DFG) : DFGBuilder :=
  { builder with graph := { builder.graph with dfg := dfg } }

def importExternal (value : ExternalValue) : Except String DFGBuilder := do
  let dfg ← builder.dfg.appendExternal value
  .ok { builder.withGraph dfg with nextExternalId := after builder.nextExternalId value.id }

def importConstant (value : ConstantValue) : Except String DFGBuilder := do
  let dfg ← builder.dfg.appendConstant value
  .ok { builder.withGraph dfg with nextConstantId := after builder.nextConstantId value.id }

def importNode (node : Node) (source : Option SourceInfo) : Except String DFGBuilder := do
  let dfg ← builder.dfg.appendNode node
  .ok { builder with
    graph := ⟨dfg, builder.graph.sources ++ [source]⟩
    nextNodeId := after builder.nextNodeId node.id }

def importLiveOut (liveOut : LiveOut) : Except String DFGBuilder := do
  let dfg ← builder.dfg.appendLiveOut liveOut
  .ok { builder.withGraph dfg with nextLiveOutId := after builder.nextLiveOutId liveOut.id }

def importEdge (edge : Edge) : Except String DFGBuilder := do
  let dfg ← builder.dfg.appendEdge edge
  .ok { builder.withGraph dfg with nextEdgeId := after builder.nextEdgeId edge.id }

def checkOperand (node operand : ℕ) : Except String Unit := do
  let found ← builder.dfg.node node
  if operand ≥ found.operandTypes.length then
    .error "DFG operand index is outside the node operand list"
  else .ok ()

/-- A cached edge into a node does not feed the operand. -/
def checkIncoming (operand id : ℕ) : Except String Unit := do
  let edge ← builder.dfg.edge id
  if edge.info.dstOperand = some operand then
    .error "DFG operand already has a value provider"
  else .ok ()

def checkProviderAvailable (node operand : ℕ) : Except String Unit := do
  builder.checkOperand node operand
  ((builder.dfg.incoming node).getD []).forM (builder.checkIncoming operand)
  if builder.dfg.externalBindings.any fun binding ↦
      binding.node == node && binding.operand == operand then
    .error "DFG operand already has an external provider"
  else .ok ()

def bindExternal (node operand value : ℕ) : Except String DFGBuilder := do
  builder.checkProviderAvailable node operand
  if (builder.dfg.findExternal value).isNone then
    .error "DFG external binding references unknown value"
  else
    let dfg ← builder.dfg.appendBinding ⟨node, operand, .externalValueRef value⟩
    .ok (builder.withGraph dfg)

def bindConstant (node operand value : ℕ) : Except String DFGBuilder := do
  builder.checkProviderAvailable node operand
  if (builder.dfg.findConstant value).isNone then
    .error "DFG constant binding references unknown value"
  else
    let dfg ← builder.dfg.appendBinding ⟨node, operand, .constantRef value⟩
    .ok (builder.withGraph dfg)

/-- The next edge id, and the builder with the counter behind it. -/
def nextEdge : ℕ × DFGBuilder :=
  (builder.nextEdgeId, { builder with nextEdgeId := (builder.nextEdgeId + 1) % 2 ^ 32 })

def addDataEdge (src dst dstOperand distance : ℕ) (boundary : Option RecurrenceBoundary) :
    Except String DFGBuilder := do
  builder.checkProviderAvailable dst dstOperand
  builder.nextEdge.2.importEdge ⟨builder.nextEdge.1, src, dst, distance, .data dstOperand boundary⟩

def addMemoryEdge (src dst : ℕ) (dependence : MemoryDepKind) (distance : ℕ) :
    Except String DFGBuilder := do
  let _ ← builder.dfg.node src
  let _ ← builder.dfg.node dst
  builder.nextEdge.2.importEdge ⟨builder.nextEdge.1, src, dst, distance, .memory dependence⟩

def finish : SourcedDFG := builder.graph

end DFGBuilder

end PredicatedMesh
