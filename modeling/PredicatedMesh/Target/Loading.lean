import PredicatedMesh.Target.Shipped

/-!
# What loading a contract checks

`loadFromFile` looks at every operation of a contract: its operands, the control sinks they are
delivered through, its timing and its result. A contract with an operation that fails a check is not
loaded at all. The two memory operations have to be there and to agree on the width of a word.

Nothing is asked of the operands of a memory operation beyond what is asked of every operation.
-/

namespace PredicatedMesh

/-! ## Sinks and sources -/

/-- A sink that takes operands of a role. -/
def TargetControlSink.takes : TargetControlSink → TargetOperandRole → Bool
  | .fuDataA, .data | .fuDataB, .data | .lsuStoreData, .data => true
  | .fuPredicate0, .predicate | .fuPredicate1, .predicate | .lsuCommitPredicate, .predicate => true
  | .lsuAddress, .address => true
  | _, _ => false

def TargetControlSink.isLsu : TargetControlSink → Bool
  | .lsuAddress | .lsuStoreData | .lsuCommitPredicate => true
  | _ => false

def TargetResultSource.valid (source : TargetResultSource) (role : TargetResultRole)
    (executionClass : TargetExecutionClass) : Bool :=
  match role, source with
  | .void, .none => true
  | .data, .fuDataResult => executionClass == .fu
  | .predicate, .fuPredicateResult => executionClass == .fu
  | .data, .lsuLoadData => executionClass == .lsu
  | _, _ => false

namespace TargetOperationDesc

/-- No required operand follows an optional one. -/
def optionalLast : List TargetOperandDesc → Bool
  | [] => true
  | operand :: rest =>
    (!operand.optional || rest.all TargetOperandDesc.optional) && optionalLast rest

/-- Every operand has a sink for its role, in a field of the unit that executes the operation. -/
def sinksValid (operation : TargetOperationDesc) : Bool :=
  operation.operandSinks.map Prod.fst == List.range operation.operands.length
    && operation.operandSinks.all fun entry ↦
      (operation.operands[entry.1]?.any fun operand ↦ entry.2.takes operand.role)
        && entry.2.isLsu == (operation.executionClass == .lsu)

/-- A value has a latency and an offset; an operation without one has neither. -/
def timingValid (operation : TargetOperationDesc) : Bool :=
  operation.issueOccupancy != 0
    && match operation.resultRole with
      | .void => operation.resultLatency.isNone && operation.producerOutputReadyOffset.isNone
      | _ => (operation.resultLatency.any fun latency ↦ latency != 0)
          && operation.producerOutputReadyOffset.isSome

def accessWidthValid (operation : TargetOperationDesc) : Bool :=
  match operation.executionClass with
  | .lsu => operation.accessWidthBits.any fun width ↦ width != 0
  | .fu => operation.accessWidthBits.isNone

end TargetOperationDesc

/-! ## The contract -/

namespace TargetModel

/-- The type of the values of a role. -/
def resultTypeOf (target : TargetModel) : TargetResultRole → ValueType
  | .data => .integer target.array.dataWidth
  | .predicate => .predicate
  | .void => .voidTy

/-- The encoding an operation is bound to is one of its unit. -/
def encodingBound (target : TargetModel) (operation : TargetOperationDesc) : Bool :=
  operation.encoding.any fun encoding ↦
    (target.encodingValue encoding.domain encoding.symbol).isSome
      && (encoding.domain == "lsu_op") == (operation.executionClass == .lsu)

/-- An operation passes every check of the loader. -/
def admits (target : TargetModel) (operation : TargetOperationDesc) : Bool :=
  operation.id != "" && TargetOperationDesc.optionalLast operation.operands
    && operation.sinksValid && operation.timingValid && operation.accessWidthValid
    && operation.resultType == target.resultTypeOf operation.resultRole
    && operation.resultSource.valid operation.resultRole operation.executionClass
    && target.encodingBound operation

/-- The two memory operations access words of one width. -/
def memoryOperationsMatch (target : TargetModel) (width : ℕ) : Bool :=
  ((target.findOperation "LOAD").any fun load ↦ load.executionClass == .lsu
      && load.resultType == ValueType.integer width && load.accessWidthBits == some width)
    && (target.findOperation "STORE").any fun store ↦ store.executionClass == .lsu
      && store.resultType == ValueType.voidTy && store.accessWidthBits == some width

/-- What is known of a contract once it has been loaded. -/
structure Loaded (target : TargetModel) : Prop where
  rows_pos : 0 < target.array.rows
  cols_pos : 0 < target.array.cols
  /-- Operations are the fields of an object. -/
  nodup_operations : (target.operations.map TargetOperationDesc.id).Nodup
  admits : ∀ operation ∈ target.operations, target.admits operation = true
  memory : ∃ width, target.memoryOperationsMatch width = true

theorem Loaded.resultLatency {target : TargetModel} (h : target.Loaded)
    {operation : TargetOperationDesc} (hmem : operation ∈ target.operations)
    (hrole : operation.resultRole ≠ .void) : operation.resultLatency ≠ none := by
  have hadmits := h.admits operation hmem
  simp only [TargetModel.admits, TargetOperationDesc.timingValid, Bool.and_eq_true] at hadmits
  obtain ⟨⟨⟨⟨⟨-, -, htiming⟩, -⟩, -⟩, -⟩, -⟩ := hadmits
  intro hnone
  rw [hnone] at htiming
  rcases hvalue : operation.resultRole with _ | _ | _
  · exact Bool.false_ne_true htiming.1
  · exact Bool.false_ne_true htiming.1
  · exact hrole hvalue

theorem shippedTarget_loaded : shippedTarget.Loaded where
  rows_pos := by decide
  cols_pos := by decide
  nodup_operations := by decide
  admits := by decide
  memory := ⟨32, by decide⟩

end TargetModel

end PredicatedMesh
