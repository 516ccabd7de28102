import PredicatedMesh.Target.Model

/-!
# The shipped contract

The compiler's canonical target, `cgra_v3_shared4p`: a four by four mesh whose left column has
load-store units, one-cycle functional units and a two-cycle load. It is written out as the loader
produces it, so that facts about the shipped hardware are evaluated and not assumed.
-/

namespace PredicatedMesh

/-- A functional-unit operation of the shipped contract: one cycle, routable in the cycle it
issues. -/
def fuOperation (id : String) (resultRole : TargetResultRole)
    (operands : List (TargetOperandRole × TargetControlSink)) : TargetOperationDesc where
  id := id
  executionClass := .fu
  operands := operands.map fun operand ↦ { role := operand.1 }
  resultRole := resultRole
  resultType :=
    match resultRole with
    | .data => ValueType.integer 32
    | .predicate => ValueType.predicate
    | .void => ValueType.voidTy
  issueOccupancy := 1
  resultLatency := some 1
  producerOutputReadyOffset := some 0
  accessWidthBits := none
  encoding := some ⟨"op", id⟩
  operandSinks := operands.zipIdx.map fun entry ↦ (entry.2, entry.1.2)
  resultSource :=
    match resultRole with
    | .data => .fuDataResult
    | .predicate => .fuPredicateResult
    | .void => .none

def shippedLoad : TargetOperationDesc where
  id := "LOAD"
  executionClass := .lsu
  operands := [{ role := .address }]
  resultRole := .data
  resultType := ValueType.integer 32
  issueOccupancy := 1
  resultLatency := some 2
  producerOutputReadyOffset := some 2
  accessWidthBits := some 32
  encoding := some ⟨"lsu_op", "LOAD"⟩
  operandSinks := [(0, .lsuAddress)]
  resultSource := .lsuLoadData

def shippedStore : TargetOperationDesc where
  id := "STORE"
  executionClass := .lsu
  operands := [{ role := .address }, { role := .data }, { role := .predicate, optional := true }]
  resultRole := .void
  resultType := ValueType.voidTy
  issueOccupancy := 1
  resultLatency := none
  producerOutputReadyOffset := none
  accessWidthBits := some 32
  encoding := some ⟨"lsu_op", "STORE"⟩
  operandSinks := [(0, .lsuAddress), (1, .lsuStoreData), (2, .lsuCommitPredicate)]
  resultSource := .none

def shippedOperations : List TargetOperationDesc :=
  [fuOperation "ADD" .data [(.data, .fuDataA), (.data, .fuDataB)],
    fuOperation "AND" .data [(.data, .fuDataA), (.data, .fuDataB)],
    fuOperation "CMP_EQ" .predicate [(.data, .fuDataA), (.data, .fuDataB)],
    fuOperation "CMP_NE" .predicate [(.data, .fuDataA), (.data, .fuDataB)],
    fuOperation "CMP_ULE" .predicate [(.data, .fuDataA), (.data, .fuDataB)],
    fuOperation "CMP_ULT" .predicate [(.data, .fuDataA), (.data, .fuDataB)],
    shippedLoad,
    fuOperation "LSHR" .data [(.data, .fuDataA), (.data, .fuDataB)],
    fuOperation "MUL" .data [(.data, .fuDataA), (.data, .fuDataB)],
    fuOperation "NOP" .data [],
    fuOperation "OR" .data [(.data, .fuDataA), (.data, .fuDataB)],
    fuOperation "PAND" .predicate [(.predicate, .fuPredicate0), (.predicate, .fuPredicate1)],
    fuOperation "PASS" .data [(.data, .fuDataA)],
    fuOperation "PNOT" .predicate [(.predicate, .fuPredicate0)],
    fuOperation "POR" .predicate [(.predicate, .fuPredicate0), (.predicate, .fuPredicate1)],
    fuOperation "PPASS" .predicate [(.predicate, .fuPredicate0)],
    fuOperation "SELECT" .data [(.predicate, .fuPredicate0), (.data, .fuDataA), (.data,
      .fuDataB)],
    fuOperation "SHL" .data [(.data, .fuDataA), (.data, .fuDataB)],
    shippedStore,
    fuOperation "SUB" .data [(.data, .fuDataA), (.data, .fuDataB)],
    fuOperation "XOR" .data [(.data, .fuDataA), (.data, .fuDataB)]]

def shippedEncodings : List (String × List (String × ℕ)) :=
  [("op", [("NOP", 0), ("PASS", 1), ("ADD", 2), ("SUB", 3), ("MUL", 4), ("AND", 5), ("OR", 6),
    ("XOR", 7), ("SHL", 8), ("LSHR", 9), ("SELECT", 10), ("CMP_EQ", 16), ("CMP_NE", 17),
      ("CMP_ULT", 18), ("CMP_ULE", 19), ("PPASS", 32), ("PNOT", 33), ("PAND", 34), ("POR", 35)]),
    ("data_source", [("RF_A", 0), ("RF_B", 1), ("NORTH_DATA_IN", 2), ("SOUTH_DATA_IN", 3),
      ("EAST_DATA_IN", 4), ("WEST_DATA_IN", 5), ("CONST_DATA", 6), ("LSU_LOAD_DATA", 7), ("ZERO",
        8)]),
    ("predicate_source", [("RF_A", 0), ("RF_B", 1), ("NORTH_PRED_IN", 2), ("SOUTH_PRED_IN", 3),
      ("EAST_PRED_IN", 4), ("WEST_PRED_IN", 5), ("CONST_TRUE", 6), ("CONST_FALSE", 7)]),
    ("route_data_source", [("NONE", 0), ("NORTH_DATA_IN", 1), ("SOUTH_DATA_IN", 2),
      ("EAST_DATA_IN", 3), ("WEST_DATA_IN", 4), ("FU_DATA_RESULT", 5), ("RF_A", 6), ("RF_B", 7),
        ("CONST_DATA", 8), ("LSU_LOAD_DATA", 9), ("ZERO", 10)]),
    ("route_predicate_source", [("NONE", 0), ("NORTH_PRED_IN", 1), ("SOUTH_PRED_IN", 2),
      ("EAST_PRED_IN", 3), ("WEST_PRED_IN", 4), ("FU_PRED_RESULT", 5), ("RF_A", 6), ("RF_B", 7),
        ("CONST_TRUE", 8), ("CONST_FALSE", 9)]),
    ("lsu_op", [("NONE", 0), ("LOAD", 1), ("STORE", 2), ("RESERVED", 3)])]

/-- The contract as loaded. -/
def shippedTarget : TargetModel where
  name := "cgra_v3_shared4p"
  array := ⟨4, 4, 32, 1⟩
  dataRF :=
    { id := "data_rf", domain := .data, depth := 16, readPorts := 2, writePorts := 2
      sameAddressReadWritePolicy := .forbidden
      allocatableIndices := List.range 16
      writePortSources :=
        [("W0", ["FU_DATA_RESULT"]), ("W1", ["RF_A", "RF_B", "NORTH_DATA_IN", "SOUTH_DATA_IN",
          "EAST_DATA_IN", "WEST_DATA_IN", "CONST_DATA", "LSU_LOAD_DATA", "ZERO"])] }
  predicateRF :=
    { id := "predicate_rf", domain := .predicate, depth := 16, readPorts := 2, writePorts := 2
      sameAddressReadWritePolicy := .forbidden
      allocatableIndices := List.range 16
      writePortSources :=
        [("W0", ["FU_PRED_RESULT"]), ("W1", ["RF_A", "RF_B", "NORTH_PRED_IN", "SOUTH_PRED_IN",
          "EAST_PRED_IN", "WEST_PRED_IN", "CONST_TRUE", "CONST_FALSE"])] }
  interconnect := ⟨"mesh_2d", 1⟩
  memory := ⟨4096, 1, 1, 1, 32⟩
  constantMemoryDepth := 16
  lsuTiles := [⟨0, 0, 0⟩, ⟨1, 0, 1⟩, ⟨2, 0, 2⟩, ⟨3, 0, 3⟩]
  encodings := shippedEncodings
  operations := shippedOperations
  defaultFuOperations :=
    ["NOP", "PASS", "ADD", "SUB", "MUL", "AND", "OR", "XOR", "SHL", "LSHR", "SELECT", "CMP_EQ",
      "CMP_NE", "CMP_ULT", "CMP_ULE", "PPASS", "PNOT", "PAND", "POR"]

/-- The timing every result of the shipped contract obeys: it is available, at the latest, one cycle
after it can be routed. -/
theorem shippedOperations_latency_le : ∀ operation ∈ shippedOperations,
    ∀ latency ∈ operation.resultLatency, ∀ ready ∈ operation.producerOutputReadyOffset,
      latency ≤ ready + 1 := by
  decide

end PredicatedMesh
