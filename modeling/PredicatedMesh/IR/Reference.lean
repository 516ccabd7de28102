import PredicatedMesh.IR.DFG
import PredicatedMesh.Library.Linearization
import PredicatedMesh.Library.Scan

/-!
# The reference semantics of a generic dataflow graph

A graph describes a loop: node `n` of iteration `k` is one operation, and an edge of distance `d`
makes the operation at its head in iteration `k` come after the one at its tail in iteration
`k - d`. A run performs the operations of all iterations one after another, in any order in which
each comes after those it depends on, whether for a value or for the memory.

An operand is the value of the producer, or, where the producer would lie before the first
iteration, the boundary value listed for this iteration. An operand without an edge has the value it
is bound to. A constant stands for its bits. What the operations compute that do not touch memory is
a parameter; the memory is a map from addresses to words.
-/

namespace PredicatedMesh

namespace DFG

variable (dfg : DFG)

/-! ## Dependences between operations -/

/-- Operation `after` depends on operation `before`; an operation is a node in an iteration. -/
def Requires (before after : ℕ × ℕ) : Prop :=
  ∃ edge ∈ dfg.edges, edge.dst = after.1 ∧ edge.distance ≤ after.2 ∧
    before = (edge.src, after.2 - edge.distance)

/-- An order in which the operations of all iterations can be performed. -/
structure Order (tripCount : ℕ) (order : List (ℕ × ℕ)) : Prop where
  linearizes : Linearizes dfg.Requires order
  mem_iff : ∀ operation, operation ∈ order ↔
    dfg.containsNode operation.1 = true ∧ operation.2 < tripCount

instance (operation : ℕ × ℕ) (before : List (ℕ × ℕ)) :
    Decidable (∀ required, dfg.Requires required operation → required ∈ before) :=
  decidable_of_iff (∀ edge ∈ dfg.edges, edge.dst = operation.1 → edge.distance ≤ operation.2 →
      (edge.src, operation.2 - edge.distance) ∈ before)
    ⟨fun h _ ⟨edge, hedge, hdst, hdistance, hsame⟩ ↦ hsame ▸ h edge hedge hdst hdistance,
      fun h edge hedge hdst hdistance ↦ h _ ⟨edge, hedge, hdst, hdistance, rfl⟩⟩

/-- An order has the operations of all nodes in all iterations and no others. -/
theorem order_iff {tripCount : ℕ} {order : List (ℕ × ℕ)} : dfg.Order tripCount order ↔
    Linearizes dfg.Requires order ∧
      (∀ operation ∈ order, dfg.containsNode operation.1 = true ∧ operation.2 < tripCount) ∧
        ∀ node ∈ dfg.nodes, ∀ iteration < tripCount, (node.id, iteration) ∈ order := by
  constructor
  · refine fun h ↦ ⟨h.linearizes, fun operation ↦ (h.mem_iff operation).mp, ?_⟩
    intro node hnode iteration hiteration
    exact (h.mem_iff _).mpr ⟨DFG.containsNode_iff.mpr ⟨node, hnode, rfl⟩, hiteration⟩
  · rintro ⟨hlinear, hown, hall⟩
    refine ⟨hlinear, fun ⟨id, iteration⟩ ↦ ⟨hown _, fun ⟨hcontains, hiteration⟩ ↦ ?_⟩⟩
    obtain ⟨node, hnode, rfl⟩ := DFG.containsNode_iff.mp hcontains
    exact hall node hnode iteration hiteration

instance (tripCount : ℕ) (order : List (ℕ × ℕ)) : Decidable (dfg.Order tripCount order) :=
  decidable_of_iff' _ (order_iff dfg)

/-! ## Operands -/

/-- The value of what is not a node. -/
def outsideValue (inputs : ℕ → ℕ) : ExternalOperandBinding → ℕ
  | .externalValueRef value => inputs value
  | .constantRef value => (dfg.findConstant value).elim 0 ConstantValue.bits

/-- What a loop-carried edge delivers in an iteration that has no producer. -/
def boundaryValue (inputs : ℕ → ℕ) (boundary : Option RecurrenceBoundary) (iteration : ℕ) : ℕ :=
  ((boundary.elim [] RecurrenceBoundary.values).find? fun item ↦
    item.iterationOffset == iteration).elim 0 fun item ↦ dfg.outsideValue inputs item.value

/-- The edge that feeds an operand. -/
def operandEdge (node operand : ℕ) : Option Edge :=
  dfg.edges.find? fun edge ↦ edge.dst == node && edge.info.dstOperand == some operand

def operandBinding (node operand : ℕ) : Option OperandBinding :=
  dfg.externalBindings.find? fun binding ↦ binding.node == node && binding.operand == operand

/-- An operand of a node in an iteration, given the values computed so far. -/
def operandValue (inputs : ℕ → ℕ) (values : ℕ × ℕ → ℕ) (node iteration operand : ℕ) : ℕ :=
  match dfg.operandEdge node operand with
  | some edge =>
    if edge.distance ≤ iteration then values (edge.src, iteration - edge.distance)
    else dfg.boundaryValue inputs edge.info.boundary iteration
  | none =>
    (dfg.operandBinding node operand).elim 0 fun binding ↦ dfg.outsideValue inputs binding.source

def operands (inputs : ℕ → ℕ) (values : ℕ × ℕ → ℕ) (node : Node) (iteration : ℕ) : List ℕ :=
  (List.range node.operandTypes.length).map (dfg.operandValue inputs values node.id iteration)

end DFG

/-! ## Operations -/

namespace Node

/-- The value of an operation. A store has none. -/
def result (compute : Node → List ℕ → ℕ) (node : Node) (operands : List ℕ) (memory : ℕ → ℕ) : ℕ :=
  match node.opcode with
  | .load => memory (operands.headD 0)
  | .store => 0
  | _ => compute node operands

/-- The word a store writes and its address, unless its commit predicate is false. -/
def write (node : Node) (operands : List ℕ) : Option (ℕ × ℕ) :=
  match node.opcode, operands with
  | .store, address :: data :: commit =>
    if commit.all (· != 0) then some (address, data) else none
  | _, _ => none

end Node

/-! ## Runs -/

/-- The values computed so far and the memory. -/
structure ReferenceState where
  values : ℕ × ℕ → ℕ
  memory : ℕ → ℕ

namespace DFG

variable (dfg : DFG) (compute : Node → List ℕ → ℕ) (inputs : ℕ → ℕ)

/-- Perform one operation. -/
def fire (state : ReferenceState) (operation : ℕ × ℕ) : ReferenceState :=
  match dfg.findNode operation.1 with
  | none => state
  | some node =>
    let operands := dfg.operands inputs state.values node operation.2
    { values := Function.update state.values operation
        (node.result compute operands state.memory)
      memory := (node.write operands).elim state.memory fun entry ↦
        Function.update state.memory entry.1 entry.2 }

def run (memory : ℕ → ℕ) (order : List (ℕ × ℕ)) : ReferenceState :=
  order.foldl (dfg.fire compute inputs) ⟨fun _ ↦ 0, memory⟩

/-! ## What an operand is -/

variable {dfg compute inputs}

/-- When no operand is bound twice, a binding is found where it is. -/
theorem operandBinding_eq_some_iff {node operand : ℕ} {binding : OperandBinding}
    (hkeys : (dfg.externalBindings.map fun binding ↦ (binding.node, binding.operand)).Nodup) :
    dfg.operandBinding node operand = some binding ↔
      binding ∈ dfg.externalBindings ∧ (binding.node, binding.operand) = (node, operand) := by
  have hsame : (fun binding : OperandBinding ↦ binding.node == node && binding.operand == operand)
      = fun binding ↦ decide ((binding.node, binding.operand) = (node, operand)) := by
    funext binding
    rw [Bool.eq_iff_iff]
    simp
  rw [operandBinding, hsame]
  exact Scan.find?_eq_some_iff_of_nodup hkeys

theorem outsideValue_constantRef {value : ℕ} {constant : ConstantValue}
    (h : dfg.findConstant value = some constant) :
    dfg.outsideValue inputs (.constantRef value) = constant.bits := by
  rw [outsideValue, h, Option.elim_some]

theorem operands_headD {values : ℕ × ℕ → ℕ} {node : Node} (h : 0 < node.operandTypes.length)
    (iteration : ℕ) : (dfg.operands inputs values node iteration).headD 0
      = dfg.operandValue inputs values node.id iteration 0 := by
  obtain ⟨count, hcount⟩ := Nat.exists_eq_add_one.mpr h
  rw [operands, hcount, List.range_succ_eq_map, List.map_cons, List.headD_cons]

/-! ## What one operation changes -/

variable {state : ReferenceState} {operation : ℕ × ℕ} {node : Node}

theorem fire_values (h : dfg.findNode operation.1 = some node) :
    (dfg.fire compute inputs state operation).values = Function.update state.values operation
      (node.result compute (dfg.operands inputs state.values node operation.2) state.memory) := by
  rw [fire, h]

theorem fire_memory (h : dfg.findNode operation.1 = some node) :
    (dfg.fire compute inputs state operation).memory
      = (node.write (dfg.operands inputs state.values node operation.2)).elim state.memory
        fun entry ↦ Function.update state.memory entry.1 entry.2 := by
  rw [fire, h]

/-- An operation defines its own value only. -/
theorem fire_values_of_ne {other : ℕ × ℕ} (hne : other ≠ operation) :
    (dfg.fire compute inputs state operation).values other = state.values other := by
  cases hnode : dfg.findNode operation.1 with
  | none => rw [fire, hnode]
  | some node =>
    rw [fire_values hnode]
    exact Function.update_of_ne hne _ _

/-- Only a store writes, to the address that is its first operand. -/
theorem write_eq_some {operands : List ℕ} {entry : ℕ × ℕ} (h : node.write operands = some entry) :
    node.opcode = .store ∧ operands.head? = some entry.1 := by
  unfold Node.write at h
  split at h
  · rename_i hopcode
    split at h
    · obtain rfl := Option.some.inj h
      exact ⟨hopcode, rfl⟩
    · cases h
  · cases h

/-- An operation changes no word but the one its first operand addresses. -/
theorem fire_memory_of_ne (h : dfg.findNode operation.1 = some node) {address : ℕ}
    (hne : node.opcode = .store →
      address ≠ (dfg.operands inputs state.values node operation.2).headD 0) :
    (dfg.fire compute inputs state operation).memory address = state.memory address := by
  rw [fire_memory h]
  cases hentry : node.write (dfg.operands inputs state.values node operation.2) with
  | none => rfl
  | some entry =>
    obtain ⟨hstore, hhead⟩ := write_eq_some hentry
    refine Function.update_of_ne ?_ _ _
    have hdifferent := hne hstore
    rwa [List.headD_eq_head?_getD, hhead, Option.getD_some] at hdifferent

/-- The value of an operation depends on the memory only where it loads from. -/
theorem result_congr {operands : List ℕ} {memory memory' : ℕ → ℕ}
    (h : node.opcode = .load → memory (operands.headD 0) = memory' (operands.headD 0)) :
    node.result compute operands memory = node.result compute operands memory' := by
  unfold Node.result
  split
  · rename_i hopcode
    exact h hopcode
  · rfl
  · rfl

end DFG

end PredicatedMesh
