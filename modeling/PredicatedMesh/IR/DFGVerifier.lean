import PredicatedMesh.IR.DFG
import PredicatedMesh.Library.Scan

/-!
# Verifying a generic dataflow graph

`DFGVerifier.verify` is the precondition of legalization. It indexes the graph by id, then walks it
once per concern — references, value types, opcode signatures and metadata, operand providers,
edges with their recurrence boundaries, live-outs, cached adjacency — and collects an error for each
violation. The graph is accepted when there is none.

## Recurrence boundaries

A loop-carried value edge of distance `d` must list one value for each of the `d` iterations that
have no producer. The verifier asks that there be `d` of them, with offsets below `d` and all
different; it does not ask that they be listed in the order of their offsets. What it does ask is
gathered in `RecurrenceBoundary.Covers`.
-/

namespace PredicatedMesh

open Scan

/-! ## Diagnostics -/

inductive DFGDiagnosticCode
  | idDuplicateNode
  | idDuplicateEdge
  | idDuplicateExternal
  | idDuplicateConstant
  | idDuplicateLiveOut
  | edgeUnknownSource
  | edgeUnknownDestination
  | bindingUnknownNode
  | bindingUnknownExternal
  | bindingUnknownConstant
  | adjacencyInconsistent
  | operandIndexOutOfRange
  | operandMissingProvider
  | operandDuplicateProvider
  | operandTypeMismatch
  | operandInvalidEdgeKind
  | typeInvalid
  | resultTypeInvalid
  | edgeValueTypeMismatch
  | voidValueUsed
  | opcodeArityMismatch
  | opcodeOperandTypeMismatch
  | opcodeUnexpectedMetadata
  | opcodeMissingMetadata
  | opcodeMetadataInvalid
  | icmpMissingPredicate
  | icmpInvalidResultType
  | icmpOperandTypeMismatch
  | selectInvalidPredicate
  | selectValueTypeMismatch
  | selectResultTypeMismatch
  | loadInvalidResultType
  | loadInvalidAddressType
  | storeInvalidResultType
  | storeInvalidAddressType
  | storeInvalidValueType
  | storeInvalidPredicate
  | dataEdgeInvalidSourceType
  | dataEdgeInvalidDestOperand
  | predEdgeInvalidSourceType
  | predEdgeInvalidDestOperand
  | memoryEdgeInvalidSource
  | memoryEdgeInvalidDestination
  | recurrenceBoundaryMissing
  | recurrenceBoundaryOffsetOutOfRange
  | recurrenceBoundaryDuplicateOffset
  | recurrenceBoundarySourceUnknown
  | recurrenceBoundaryTypeMismatch
  | liveOutUnknownSource
  | liveOutTypeMismatch
  | liveOutVoidSource
  deriving DecidableEq, Repr

def DFGDiagnosticCode.toString : DFGDiagnosticCode → String
  | .idDuplicateNode => "DFG_ID_DUPLICATE_NODE"
  | .idDuplicateEdge => "DFG_ID_DUPLICATE_EDGE"
  | .idDuplicateExternal => "DFG_ID_DUPLICATE_EXTERNAL"
  | .idDuplicateConstant => "DFG_ID_DUPLICATE_CONSTANT"
  | .idDuplicateLiveOut => "DFG_ID_DUPLICATE_LIVEOUT"
  | .edgeUnknownSource => "DFG_EDGE_UNKNOWN_SOURCE"
  | .edgeUnknownDestination => "DFG_EDGE_UNKNOWN_DESTINATION"
  | .bindingUnknownNode => "DFG_BINDING_UNKNOWN_NODE"
  | .bindingUnknownExternal => "DFG_BINDING_UNKNOWN_EXTERNAL"
  | .bindingUnknownConstant => "DFG_BINDING_UNKNOWN_CONSTANT"
  | .adjacencyInconsistent => "DFG_ADJACENCY_INCONSISTENT"
  | .operandIndexOutOfRange => "DFG_OPERAND_INDEX_OUT_OF_RANGE"
  | .operandMissingProvider => "DFG_OPERAND_MISSING_PROVIDER"
  | .operandDuplicateProvider => "DFG_OPERAND_DUPLICATE_PROVIDER"
  | .operandTypeMismatch => "DFG_OPERAND_TYPE_MISMATCH"
  | .operandInvalidEdgeKind => "DFG_OPERAND_INVALID_EDGE_KIND"
  | .typeInvalid => "DFG_TYPE_INVALID"
  | .resultTypeInvalid => "DFG_RESULT_TYPE_INVALID"
  | .edgeValueTypeMismatch => "DFG_EDGE_VALUE_TYPE_MISMATCH"
  | .voidValueUsed => "DFG_VOID_VALUE_USED"
  | .opcodeArityMismatch => "DFG_OPCODE_ARITY_MISMATCH"
  | .opcodeOperandTypeMismatch => "DFG_OPCODE_OPERAND_TYPE_MISMATCH"
  | .opcodeUnexpectedMetadata => "DFG_OPCODE_UNEXPECTED_METADATA"
  | .opcodeMissingMetadata => "DFG_OPCODE_MISSING_METADATA"
  | .opcodeMetadataInvalid => "DFG_OPCODE_METADATA_INVALID"
  | .icmpMissingPredicate => "DFG_ICMP_MISSING_PREDICATE"
  | .icmpInvalidResultType => "DFG_ICMP_INVALID_RESULT_TYPE"
  | .icmpOperandTypeMismatch => "DFG_ICMP_OPERAND_TYPE_MISMATCH"
  | .selectInvalidPredicate => "DFG_SELECT_INVALID_PREDICATE"
  | .selectValueTypeMismatch => "DFG_SELECT_VALUE_TYPE_MISMATCH"
  | .selectResultTypeMismatch => "DFG_SELECT_RESULT_TYPE_MISMATCH"
  | .loadInvalidResultType => "DFG_LOAD_INVALID_RESULT_TYPE"
  | .loadInvalidAddressType => "DFG_LOAD_INVALID_ADDRESS_TYPE"
  | .storeInvalidResultType => "DFG_STORE_INVALID_RESULT_TYPE"
  | .storeInvalidAddressType => "DFG_STORE_INVALID_ADDRESS_TYPE"
  | .storeInvalidValueType => "DFG_STORE_INVALID_VALUE_TYPE"
  | .storeInvalidPredicate => "DFG_STORE_INVALID_PREDICATE"
  | .dataEdgeInvalidSourceType => "DFG_DATA_EDGE_INVALID_SOURCE_TYPE"
  | .dataEdgeInvalidDestOperand => "DFG_DATA_EDGE_INVALID_DEST_OPERAND"
  | .predEdgeInvalidSourceType => "DFG_PRED_EDGE_INVALID_SOURCE_TYPE"
  | .predEdgeInvalidDestOperand => "DFG_PRED_EDGE_INVALID_DEST_OPERAND"
  | .memoryEdgeInvalidSource => "DFG_MEMORY_EDGE_INVALID_SOURCE"
  | .memoryEdgeInvalidDestination => "DFG_MEMORY_EDGE_INVALID_DESTINATION"
  | .recurrenceBoundaryMissing => "DFG_RECURRENCE_BOUNDARY_MISSING"
  | .recurrenceBoundaryOffsetOutOfRange => "DFG_RECURRENCE_BOUNDARY_OFFSET_OUT_OF_RANGE"
  | .recurrenceBoundaryDuplicateOffset => "DFG_RECURRENCE_BOUNDARY_DUPLICATE_OFFSET"
  | .recurrenceBoundarySourceUnknown => "DFG_RECURRENCE_BOUNDARY_SOURCE_UNKNOWN"
  | .recurrenceBoundaryTypeMismatch => "DFG_RECURRENCE_BOUNDARY_TYPE_MISMATCH"
  | .liveOutUnknownSource => "DFG_LIVEOUT_UNKNOWN_SOURCE"
  | .liveOutTypeMismatch => "DFG_LIVEOUT_TYPE_MISMATCH"
  | .liveOutVoidSource => "DFG_LIVEOUT_VOID_SOURCE"

/-- A diagnostic of the verifier; all of them are errors. -/
structure DFGDiagnostic where
  code : DFGDiagnosticCode
  message : String
  node : Option ℕ := none
  edge : Option ℕ := none
  operand : Option ℕ := none
  external : Option ℕ := none
  constant : Option ℕ := none
  liveOut : Option ℕ := none
  deriving DecidableEq, Repr

def formatDiagnostic (diagnostic : DFGDiagnostic) : String :=
  "error [" ++ diagnostic.code.toString ++ "]"
    ++ (diagnostic.node.elim "" fun node ↦ " node=%n" ++ toString node)
    ++ (diagnostic.edge.elim "" fun edge ↦ " edge=%e" ++ toString edge)
    ++ (diagnostic.operand.elim "" fun operand ↦ " operand=" ++ toString operand)
    ++ (diagnostic.external.elim "" fun external ↦ " external=%ext" ++ toString external)
    ++ (diagnostic.constant.elim "" fun constant ↦ " constant=%c" ++ toString constant)
    ++ (diagnostic.liveOut.elim "" fun liveOut ↦ " live_out=%out" ++ toString liveOut)
    ++ ": " ++ diagnostic.message

namespace DFGVerifier

/-- A formatted report. -/
def format (report : List DFGDiagnostic) : String :=
  (if report.isEmpty then "valid" else "invalid") ++ " DFG: " ++ toString report.length
    ++ " error(s), 0 warning(s)"
    ++ String.join (report.map fun diagnostic ↦ "\n" ++ formatDiagnostic diagnostic)

/-! ## Types -/

def isValidType (type : ValueType) : Bool :=
  match type.kind with
  | .integer | .float => type.bitWidth != 0
  | .predicate => type.bitWidth == 1
  | .void => type.bitWidth == 0

def isDataType (type : ValueType) : Bool :=
  isValidType type && (type.kind == .integer || type.kind == .float)

def isIntegerType (type : ValueType) : Bool := isValidType type && type.kind == .integer

def isPredicateType (type : ValueType) : Bool := isValidType type && type.kind == .predicate

def isNonVoidType (type : ValueType) : Bool := isValidType type && type.kind != .void

def isMemoryOpcode (opcode : Opcode) : Bool := opcode == .load || opcode == .store

/-! ## Nodes -/

def verifyMetadata (node : Node) : List DFGDiagnostic :=
  (if node.opcode = .icmp then
    require node.icmpPredicate.isSome
      { code := .icmpMissingPredicate, message := "ICmp requires an ICmpPredicate"
        node := some node.id }
  else
    require node.icmpPredicate.isNone
      { code := .opcodeUnexpectedMetadata, message := "only ICmp may carry an ICmpPredicate"
        node := some node.id })
  ++ if isMemoryOpcode node.opcode then
    match node.memoryInfo with
    | none =>
      [{ code := .opcodeMissingMetadata, message := "Load and Store require MemoryOpInfo"
         node := some node.id }]
    | some info => require (!(info.accessWidthBits == 0 || info.accessWidthBits % 8 != 0))
        { code := .opcodeMetadataInvalid
          message := "memory access width must be a non-zero multiple of eight"
          node := some node.id }
  else
    require node.memoryInfo.isNone
      { code := .opcodeUnexpectedMetadata, message := "only Load and Store may carry MemoryOpInfo"
        node := some node.id }

def arityMismatch (node : Node) (expected : ℕ) : DFGDiagnostic :=
  { code := .opcodeArityMismatch
    message := "opcode has " ++ toString node.operandTypes.length ++ " operands; expected "
      ++ toString expected
    node := some node.id }

def verifyBinary (node : Node) (integerOnly : Bool) : List DFGDiagnostic :=
  match node.operandTypes with
  | [lhs, rhs] =>
    require (!(!isDataType lhs || !isDataType rhs || (integerOnly && !isIntegerType lhs)
        || !(lhs == rhs) || !(node.resultType == lhs)))
      { code := .opcodeOperandTypeMismatch
        message := "binary operands and result must have the same non-void data type"
        node := some node.id }
  | _ => [arityMismatch node 2]

def verifyShift (node : Node) : List DFGDiagnostic :=
  match node.operandTypes with
  | [value, amount] =>
    require (!(!isIntegerType value || !isIntegerType amount || !(node.resultType == value)))
      { code := .opcodeOperandTypeMismatch
        message := "shift value, amount, and result must be integer-compatible"
        node := some node.id }
  | _ => [arityMismatch node 2]

def verifyICmp (node : Node) : List DFGDiagnostic :=
  match node.operandTypes with
  | [lhs, rhs] =>
    require (isPredicateType node.resultType)
      { code := .icmpInvalidResultType, message := "ICmp result must have predicate type"
        node := some node.id }
    ++ require (!(!isIntegerType lhs || !isIntegerType rhs || !(lhs == rhs)))
      { code := .icmpOperandTypeMismatch
        message := "ICmp operands must be equal-width integer types", node := some node.id }
  | _ => [arityMismatch node 2]

def verifySelect (node : Node) : List DFGDiagnostic :=
  match node.operandTypes with
  | [condition, onTrue, onFalse] =>
    require (isPredicateType condition)
      { code := .selectInvalidPredicate, message := "Select operand 0 must be a predicate"
        node := some node.id, operand := some 0 }
    ++ require (!(!isNonVoidType onTrue || !isNonVoidType onFalse || !(onTrue == onFalse)))
      { code := .selectValueTypeMismatch
        message := "Select true and false values must have the same data type"
        node := some node.id }
    ++ require (!(!isNonVoidType node.resultType || !(node.resultType == onTrue)))
      { code := .selectResultTypeMismatch
        message := "Select result must match its selected value type", node := some node.id }
  | _ => [arityMismatch node 3]

def verifyLoad (node : Node) : List DFGDiagnostic :=
  match node.operandTypes with
  | [address] =>
    require (isIntegerType address)
      { code := .loadInvalidAddressType, message := "Load address must be an integer type"
        node := some node.id, operand := some 0 }
    ++ require (isNonVoidType node.resultType)
      { code := .loadInvalidResultType, message := "Load result must be a non-void data type"
        node := some node.id }
  | _ => [arityMismatch node 1]

def verifyStore (node : Node) : List DFGDiagnostic :=
  require (node.resultType == ValueType.voidTy)
    { code := .storeInvalidResultType, message := "Store result must be void"
      node := some node.id }
  ++ match node.operandTypes with
  | address :: value :: commit =>
    if commit.length > 1 then [arityMismatch node 2]
    else
      require (isIntegerType address)
        { code := .storeInvalidAddressType, message := "Store address must be an integer type"
          node := some node.id, operand := some 0 }
      ++ require (isNonVoidType value)
        { code := .storeInvalidValueType, message := "Store value must be a non-void data type"
          node := some node.id, operand := some 1 }
      ++ require (commit.all isPredicateType)
        { code := .storeInvalidPredicate
          message := "Store commit predicate must have predicate type"
          node := some node.id, operand := some 2 }
  | _ => [arityMismatch node 2]

def verifyNode (node : Node) : List DFGDiagnostic :=
  (match node.opcode with
    | .add | .sub | .mul => verifyBinary node false
    | .and | .or | .xor => verifyBinary node true
    | .shl | .lshr | .ashr => verifyShift node
    | .icmp => verifyICmp node
    | .select => verifySelect node
    | .load => verifyLoad node
    | .store => verifyStore node)
  ++ verifyMetadata node

/-! ## The graph -/

section Checks

variable (dfg : DFG)

/-- Every id is used once. -/
def indexValues : List DFGDiagnostic :=
  ((repeats Node.id [] dfg.nodes).map fun _ ↦
    { code := .idDuplicateNode, message := "duplicate node ID" })
  ++ ((repeats Edge.id [] dfg.edges).map fun _ ↦
    { code := .idDuplicateEdge, message := "duplicate edge ID" })
  ++ ((repeats ExternalValue.id [] dfg.externalValues).map fun _ ↦
    { code := .idDuplicateExternal, message := "duplicate external value ID" })
  ++ ((repeats ConstantValue.id [] dfg.constants).map fun _ ↦
    { code := .idDuplicateConstant, message := "duplicate constant ID" })
  ++ ((repeats LiveOut.id [] dfg.liveOuts).map fun _ ↦
    { code := .idDuplicateLiveOut, message := "duplicate live-out ID" })

def verifyEndpoints (edge : Edge) : List DFGDiagnostic :=
  require (dfg.containsNode edge.src)
    { code := .edgeUnknownSource, message := "edge source does not reference a node"
      edge := some edge.id }
  ++ require (dfg.containsNode edge.dst)
    { code := .edgeUnknownDestination, message := "edge destination does not reference a node"
      edge := some edge.id }

def verifyReference (binding : OperandBinding) : List DFGDiagnostic :=
  require (dfg.containsNode binding.node)
    { code := .bindingUnknownNode, message := "operand binding does not reference a node"
      node := some binding.node, operand := some binding.operand }
  ++ match binding.source with
  | .externalValueRef value => require (dfg.findExternal value).isSome
      { code := .bindingUnknownExternal
        message := "operand binding does not reference an external value"
        node := some binding.node, operand := some binding.operand, external := some value }
  | .constantRef value => require (dfg.findConstant value).isSome
      { code := .bindingUnknownConstant
        message := "operand binding does not reference a constant"
        node := some binding.node, operand := some binding.operand, constant := some value }

def verifyStructure : List DFGDiagnostic :=
  dfg.edges.flatMap (verifyEndpoints dfg) ++ dfg.externalBindings.flatMap (verifyReference dfg)

def verifyValueTypes : List DFGDiagnostic :=
  (dfg.externalValues.flatMap fun value ↦ require (isValidType value.type)
    { code := .typeInvalid, message := "external value has an invalid type"
      external := some value.id })
  ++ (dfg.constants.flatMap fun value ↦ require (isValidType value.type)
    { code := .typeInvalid, message := "constant has an invalid type"
      constant := some value.id })
  ++ dfg.nodes.flatMap fun node ↦
    require (isValidType node.resultType)
      { code := .resultTypeInvalid, message := "node has an invalid result type"
        node := some node.id }
    ++ node.operandTypes.zipIdx.flatMap fun operand ↦ require (isValidType operand.1)
      { code := .typeInvalid, message := "node operand has an invalid type"
        node := some node.id, operand := some operand.2 }

/-! ### Operand providers -/

/-- Whether a node has the operand. -/
def hasOperand (node operand : ℕ) : Bool :=
  (dfg.findNode node).any fun node ↦ operand < node.operandTypes.length

/-- The operands the edges and bindings provide, with repetition. -/
def providers : List (ℕ × ℕ) :=
  ((dfg.edges.filterMap fun edge ↦ edge.info.dstOperand.map fun operand ↦ (edge.dst, operand))
    ++ dfg.externalBindings.map fun binding ↦ (binding.node, binding.operand)).filter
      fun provided ↦ hasOperand dfg provided.1 provided.2

/-- The type of the value a reference names, if there is such a value. -/
def providedType : ExternalOperandBinding → Option ValueType
  | .externalValueRef value => (dfg.findExternal value).map ExternalValue.type
  | .constantRef value => (dfg.findConstant value).map ConstantValue.type

def mistypedBinding (binding : OperandBinding) : DFGDiagnostic :=
  match binding.source with
  | .externalValueRef value =>
    { code := .operandTypeMismatch
      message := "external binding type does not match operand type"
      node := some binding.node, operand := some binding.operand, external := some value }
  | .constantRef value =>
    { code := .operandTypeMismatch
      message := "constant binding type does not match operand type"
      node := some binding.node, operand := some binding.operand, constant := some value }

def verifyBinding (binding : OperandBinding) : List DFGDiagnostic :=
  match dfg.findNode binding.node with
  | none => []
  | some node =>
    match node.operandTypes[binding.operand]? with
    | none =>
      [{ code := .operandIndexOutOfRange
         message := "operand binding index is outside the operand list"
         node := some binding.node, operand := some binding.operand }]
    | some expected =>
      require ((providedType dfg binding.source).all fun type ↦ type == expected)
        (mistypedBinding binding)

def verifyProvider (node : Node) (operand : ℕ) : List DFGDiagnostic :=
  match (providers dfg).count (node.id, operand) with
  | 0 =>
    [{ code := .operandMissingProvider
       message := "operand has no data, predicate, external, or constant provider"
       node := some node.id, operand := some operand }]
  | 1 => []
  | _ =>
    [{ code := .operandDuplicateProvider
       message := "operand has more than one value provider"
       node := some node.id, operand := some operand }]

def verifyBindingsAndProviders : List DFGDiagnostic :=
  dfg.externalBindings.flatMap (verifyBinding dfg)
  ++ dfg.nodes.flatMap fun node ↦
    (List.range node.operandTypes.length).flatMap (verifyProvider dfg node)

/-! ### Edges -/

/-- A boundary error names the edge. -/
def boundaryError (edge : Edge) (code : DFGDiagnosticCode) (message : String) : DFGDiagnostic :=
  { code := code, message := message, edge := some edge.id }

def unknownSeed (edge : Edge) : ExternalOperandBinding → DFGDiagnostic
  | .externalValueRef value =>
    { boundaryError edge .recurrenceBoundarySourceUnknown
        "recurrence boundary references an unknown external value" with external := some value }
  | .constantRef value =>
    { boundaryError edge .recurrenceBoundarySourceUnknown
        "recurrence boundary references an unknown constant" with constant := some value }

/-- A value of a boundary whose offset is in range. -/
def verifySeed (edge : Edge) (expectedType : ValueType) (value : RecurrenceBoundaryValue) :
    List DFGDiagnostic :=
  match providedType dfg value.value with
  | none => [unknownSeed edge value.value]
  | some provided => require (provided == expectedType)
      (boundaryError edge .recurrenceBoundaryTypeMismatch
        "recurrence boundary value type does not match destination operand")

/-- The values of a boundary, with the offsets met so far. -/
def verifyBoundaryValues (edge : Edge) (expectedType : ValueType) :
    List ℕ → List RecurrenceBoundaryValue → List DFGDiagnostic
  | _, [] => []
  | offsets, value :: values =>
    if value.iterationOffset ≥ edge.distance then
      boundaryError edge .recurrenceBoundaryOffsetOutOfRange
        "recurrence boundary iteration offset is outside the edge distance"
      :: verifyBoundaryValues edge expectedType offsets values
    else
      require (!offsets.contains value.iterationOffset)
        (boundaryError edge .recurrenceBoundaryDuplicateOffset
          "recurrence boundary repeats an iteration offset")
      ++ verifySeed dfg edge expectedType value
      ++ verifyBoundaryValues edge expectedType (value.iterationOffset :: offsets) values

def verifyBoundary (edge : Edge) (boundary : Option RecurrenceBoundary)
    (expectedType : ValueType) : List DFGDiagnostic :=
  if edge.distance = 0 then
    require boundary.isNone (boundaryError edge .recurrenceBoundaryOffsetOutOfRange
      "distance-zero edge cannot carry recurrence boundary values")
  else
    match boundary with
    | none =>
      [boundaryError edge .recurrenceBoundaryMissing
        "loop-carried edge requires one boundary value for every pre-seed iteration"]
    | some boundary =>
      if boundary.values.length ≠ edge.distance then
        [boundaryError edge .recurrenceBoundaryMissing
          "loop-carried edge requires one boundary value for every pre-seed iteration"]
      else verifyBoundaryValues dfg edge expectedType [] boundary.values

/-- An error about an operand of an edge. -/
def operandError (node : Node) (edge : Edge) (operand : ℕ) (code : DFGDiagnosticCode)
    (message : String) : DFGDiagnostic :=
  { code := code, message := message, node := some node.id, edge := some edge.id
    operand := some operand }

def verifyDataEdge (edge : Edge) (operand : ℕ) (boundary : Option RecurrenceBoundary)
    (source destination : Node) : List DFGDiagnostic :=
  match destination.operandTypes[operand]? with
  | none =>
    [operandError destination edge operand .operandIndexOutOfRange
        "data edge operand index is outside the operand list",
      operandError destination edge operand .dataEdgeInvalidDestOperand
        "data edge destination operand is outside the operand list"]
  | some expected =>
    (if source.resultType.kind = .void then
      [operandError source edge operand .voidValueUsed "void result is used by a data edge"]
    else
      require (source.resultType.kind != .predicate)
        (operandError source edge operand .dataEdgeInvalidSourceType
          "predicate result cannot be carried by a data edge"))
    ++ require (expected.kind != .predicate)
      (operandError destination edge operand .operandInvalidEdgeKind
        "predicate operand requires a predicate edge")
    ++ require (!(isValidType source.resultType && isValidType expected
        && source.resultType != expected))
      (operandError destination edge operand .edgeValueTypeMismatch
        "data edge source type does not match destination operand type")
    ++ verifyBoundary dfg edge boundary expected

def verifyPredicateEdge (edge : Edge) (operand : ℕ) (boundary : Option RecurrenceBoundary)
    (source destination : Node) : List DFGDiagnostic :=
  match destination.operandTypes[operand]? with
  | none =>
    [operandError destination edge operand .operandIndexOutOfRange
        "predicate edge operand index is outside the operand list",
      operandError destination edge operand .predEdgeInvalidDestOperand
        "predicate edge destination operand is outside the operand list"]
  | some expected =>
    require (isPredicateType source.resultType)
      (operandError source edge operand .predEdgeInvalidSourceType
        "predicate edge source must produce a predicate")
    ++ require (isPredicateType expected)
      (operandError destination edge operand .operandInvalidEdgeKind
        "data operand requires a data edge")
    ++ require (!(isValidType source.resultType && isValidType expected
        && source.resultType != expected))
      (operandError destination edge operand .edgeValueTypeMismatch
        "predicate edge source type does not match destination operand type")
    ++ verifyBoundary dfg edge boundary expected

/-- The two endpoints of a memory dependence. -/
def verifyMemoryEndpoints (edge : Edge) (source destination : Node)
    (sourceOpcode destinationOpcode : Opcode)
    (sourceMessage destinationMessage : String) : List DFGDiagnostic :=
  require (source.opcode == sourceOpcode)
    { code := .memoryEdgeInvalidSource, message := sourceMessage, node := some source.id
      edge := some edge.id }
  ++ require (destination.opcode == destinationOpcode)
    { code := .memoryEdgeInvalidDestination, message := destinationMessage
      node := some destination.id, edge := some edge.id }

def verifyMemoryEdge (edge : Edge) (dependence : MemoryDepKind) (source destination : Node) :
    List DFGDiagnostic :=
  match dependence with
  | .raw => verifyMemoryEndpoints edge source destination .store .load
      "RAW memory edge source must be Store" "RAW memory edge destination must be Load"
  | .war => verifyMemoryEndpoints edge source destination .load .store
      "WAR memory edge source must be Load" "WAR memory edge destination must be Store"
  | .waw => verifyMemoryEndpoints edge source destination .store .store
      "WAW memory edge source must be Store" "WAW memory edge destination must be Store"

def verifyEdge (edge : Edge) : List DFGDiagnostic :=
  match dfg.findNode edge.src, dfg.findNode edge.dst with
  | some source, some destination =>
    match edge.info with
    | .data operand boundary => verifyDataEdge dfg edge operand boundary source destination
    | .predicate operand boundary =>
      verifyPredicateEdge dfg edge operand boundary source destination
    | .memory dependence => verifyMemoryEdge edge dependence source destination
  | _, _ => []

/-! ### Live-outs and adjacency -/

def verifyLiveOut (liveOut : LiveOut) : List DFGDiagnostic :=
  require (isValidType liveOut.type)
    { code := .typeInvalid, message := "live-out has an invalid type"
      liveOut := some liveOut.id }
  ++ match dfg.findNode liveOut.source with
  | none =>
    [{ code := .liveOutUnknownSource, message := "live-out source does not reference a node"
       liveOut := some liveOut.id }]
  | some node =>
    require (node.resultType.kind != .void)
      { code := .liveOutVoidSource, message := "live-out cannot expose a void node result"
        node := some liveOut.source, liveOut := some liveOut.id }
    ++ require (!(isValidType node.resultType && isValidType liveOut.type
        && node.resultType != liveOut.type))
      { code := .liveOutTypeMismatch
        message := "live-out type does not match its source node result"
        node := some liveOut.source, liveOut := some liveOut.id }

def verifyNodeIndex (node : Node) : List DFGDiagnostic :=
  match dfg.findNode node.id with
  | none =>
    [{ code := .adjacencyInconsistent, message := "node ID index cannot resolve the stored node"
       node := some node.id }]
  | some found => require (found == node)
      { code := .adjacencyInconsistent
        message := "node ID index does not resolve to the stored node", node := some node.id }

def verifyEdgeIndex (edge : Edge) : List DFGDiagnostic :=
  match dfg.findEdge edge.id with
  | none =>
    [{ code := .adjacencyInconsistent, message := "edge ID index cannot resolve the stored edge"
       edge := some edge.id }]
  | some found => require (found == edge)
      { code := .adjacencyInconsistent
        message := "edge ID index does not resolve to the stored edge", edge := some edge.id }

/-- One cached adjacency list of a node against the edges. -/
def verifyCached (direction : String) (actual : Option (List ℕ)) (expected : List ℕ)
    (node : ℕ) : List DFGDiagnostic :=
  match actual with
  | none =>
    [{ code := .adjacencyInconsistent
       message := "cached " ++ direction ++ " adjacency is not readable", node := some node }]
  | some actual => require (actual == expected)
      { code := .adjacencyInconsistent
        message := "cached " ++ direction ++ " adjacency does not match graph edges"
        node := some node }

def verifyAdjacency : List DFGDiagnostic :=
  dfg.nodes.flatMap (verifyNodeIndex dfg)
  ++ dfg.edges.flatMap (verifyEdgeIndex dfg)
  ++ (dfg.nodeIds.flatMap fun node ↦ verifyCached "incoming" (dfg.incoming node)
    ((dfg.edges.filter fun edge ↦ edge.dst == node).map Edge.id) node)
  ++ dfg.nodeIds.flatMap fun node ↦ verifyCached "outgoing" (dfg.outgoing node)
    ((dfg.edges.filter fun edge ↦ edge.src == node).map Edge.id) node

/-- The report; the graph is accepted when it is empty. -/
def verify : List DFGDiagnostic :=
  indexValues dfg
  ++ verifyStructure dfg
  ++ verifyValueTypes dfg
  ++ dfg.nodes.flatMap verifyNode
  ++ verifyBindingsAndProviders dfg
  ++ dfg.edges.flatMap (verifyEdge dfg)
  ++ dfg.liveOuts.flatMap (verifyLiveOut dfg)
  ++ verifyAdjacency dfg

end Checks

end DFGVerifier

/-! ## What an empty report says of the boundaries -/

/-- A value is listed for every iteration before the first, in any order. -/
structure RecurrenceBoundary.Covers (boundary : RecurrenceBoundary) (distance : ℕ) : Prop where
  length_eq : boundary.values.length = distance
  offset_lt : ∀ value ∈ boundary.values, value.iterationOffset < distance
  nodup : (boundary.values.map RecurrenceBoundaryValue.iterationOffset).Nodup

namespace DFGVerifier

variable {dfg : DFG}

/-- The walk over the boundary values, from any set of offsets already met. -/
theorem values_of_verifyBoundaryValues {edge : Edge} {expected : ValueType} {offsets : List ℕ}
    {values : List RecurrenceBoundaryValue}
    (h : verifyBoundaryValues dfg edge expected offsets values = []) :
    (∀ value ∈ values, value.iterationOffset < edge.distance ∧ value.iterationOffset ∉ offsets ∧
        ∃ type, providedType dfg value.value = some type) ∧
      (values.map RecurrenceBoundaryValue.iterationOffset).Nodup := by
  induction values generalizing offsets with
  | nil => simp
  | cons value values ih =>
    rw [verifyBoundaryValues] at h
    split at h
    · cases h
    · rename_i hlt
      simp only [List.append_eq_nil_iff, require_eq_nil_iff, Bool.not_eq_true',
        List.contains_eq_mem, decide_eq_false_iff_not] at h
      obtain ⟨⟨hfresh, hseed⟩, hrest⟩ := h
      obtain ⟨hvalues, hnodup⟩ := ih hrest
      have hknown : ∃ type, providedType dfg value.value = some type := by
        unfold verifySeed at hseed
        split at hseed
        · cases hseed
        · exact ⟨_, ‹_›⟩
      constructor
      · intro other hother
        rcases List.mem_cons.mp hother with rfl | hother
        · exact ⟨by omega, hfresh, hknown⟩
        · obtain ⟨hbound, hother', htype⟩ := hvalues other hother
          exact ⟨hbound, fun hmem ↦ hother' (List.mem_cons_of_mem _ hmem), htype⟩
      · rw [List.map_cons, List.nodup_cons]
        refine ⟨?_, hnodup⟩
        rintro hmem
        obtain ⟨other, hother, heq⟩ := List.mem_map.mp hmem
        exact (hvalues other hother).2.1 (heq ▸ List.mem_cons_self)

/-- An edge without distance has no boundary; every other has one that covers its distance with
known values. -/
theorem boundary_of_verifyBoundary {edge : Edge} {expected : ValueType}
    {boundary : Option RecurrenceBoundary}
    (h : verifyBoundary dfg edge boundary expected = []) :
    edge.distance = 0 ∧ boundary = none ∨
      edge.distance ≠ 0 ∧ ∃ listed, boundary = some listed ∧ listed.Covers edge.distance ∧
        ∀ value ∈ listed.values, ∃ type, providedType dfg value.value = some type := by
  unfold verifyBoundary at h
  split at h
  · rename_i hzero
    rw [require_eq_nil_iff, Option.isNone_iff_eq_none] at h
    exact .inl ⟨hzero, h⟩
  · rename_i hdistance
    split at h
    · cases h
    · rename_i listed
      split at h
      · cases h
      · rename_i hlength
        obtain ⟨hvalues, hnodup⟩ := values_of_verifyBoundaryValues h
        exact .inr ⟨hdistance, listed, rfl,
          ⟨not_not.mp hlength, fun value hvalue ↦ (hvalues value hvalue).1, hnodup⟩,
          fun value hvalue ↦ (hvalues value hvalue).2.2⟩

/-- The endpoints of every edge of an accepted graph are nodes. -/
theorem endpoints_of_verify (h : verify dfg = []) {edge : Edge} (hedge : edge ∈ dfg.edges) :
    ∃ source destination, dfg.findNode edge.src = some source ∧
      dfg.findNode edge.dst = some destination := by
  simp only [verify, verifyStructure, List.append_eq_nil_iff, List.flatMap_eq_nil_iff] at h
  obtain ⟨⟨⟨⟨⟨⟨⟨-, hends, -⟩, -⟩, -⟩, -⟩, -⟩, -⟩, -⟩ := h
  have hend := hends edge hedge
  simp only [verifyEndpoints, List.append_eq_nil_iff, require_eq_nil_iff, DFG.containsNode,
    Option.isSome_iff_exists] at hend
  obtain ⟨⟨source, hsource⟩, destination, hdestination⟩ := hend
  exact ⟨source, destination, hsource, hdestination⟩

/-- **Boundaries of an accepted graph.** -/
theorem boundary_of_verify (h : verify dfg = []) {edge : Edge} (hedge : edge ∈ dfg.edges)
    (hkind : edge.kind ≠ .memory) :
    edge.distance = 0 ∧ edge.info.boundary = none ∨
      edge.distance ≠ 0 ∧ ∃ listed, edge.info.boundary = some listed ∧
        listed.Covers edge.distance ∧
          ∀ value ∈ listed.values, ∃ type, providedType dfg value.value = some type := by
  obtain ⟨source, destination, hsource, hdestination⟩ := endpoints_of_verify h hedge
  simp only [verify, List.append_eq_nil_iff, List.flatMap_eq_nil_iff] at h
  obtain ⟨⟨⟨-, hedges⟩, -⟩, -⟩ := h
  have hchecked := hedges edge hedge
  simp only [verifyEdge, hsource, hdestination] at hchecked
  cases hinfo : edge.info with
  | data operand boundary =>
    simp only [hinfo, verifyDataEdge] at hchecked
    split at hchecked
    · cases hchecked
    · exact boundary_of_verifyBoundary (List.append_eq_nil_iff.mp hchecked).2
  | predicate operand boundary =>
    simp only [hinfo, verifyPredicateEdge] at hchecked
    split at hchecked
    · cases hchecked
    · exact boundary_of_verifyBoundary (List.append_eq_nil_iff.mp hchecked).2
  | memory dependence => exact absurd (by simp [Edge.kind, hinfo, EdgeInfo.kind]) hkind

end DFGVerifier

/-! ## What an empty report says of the graph -/

/-- An edge carries a value of the type of the operand it feeds, or orders two accesses of its kind.
-/
def EdgeValid (edge : Edge) (source destination : Node) : Prop :=
  match edge.info with
  | .data operand _ => ∃ type, destination.operandTypes[operand]? = some type ∧
      source.resultType = type ∧ type.kind ≠ .predicate ∧ type.kind ≠ .void
  | .predicate operand _ => ∃ type, destination.operandTypes[operand]? = some type ∧
      source.resultType = type ∧ DFGVerifier.isPredicateType type = true
  | .memory .raw => source.opcode = .store ∧ destination.opcode = .load
  | .memory .war => source.opcode = .load ∧ destination.opcode = .store
  | .memory .waw => source.opcode = .store ∧ destination.opcode = .store

/-- The facts an empty report establishes. -/
structure DFG.Verified (dfg : DFG) : Prop where
  nodup_nodes : (dfg.nodes.map Node.id).Nodup
  nodup_edges : (dfg.edges.map Edge.id).Nodup
  nodup_externals : (dfg.externalValues.map ExternalValue.id).Nodup
  nodup_constants : (dfg.constants.map ConstantValue.id).Nodup
  nodup_liveOuts : (dfg.liveOuts.map LiveOut.id).Nodup
  binding : ∀ binding ∈ dfg.externalBindings, ∃ node type, dfg.findNode binding.node = some node ∧
    node.operandTypes[binding.operand]? = some type ∧
      DFGVerifier.providedType dfg binding.source = some type
  provider : ∀ node ∈ dfg.nodes, ∀ operand < node.operandTypes.length,
    (DFGVerifier.providers dfg).count (node.id, operand) = 1
  edge : ∀ edge ∈ dfg.edges, ∃ source destination, dfg.findNode edge.src = some source ∧
    dfg.findNode edge.dst = some destination ∧ EdgeValid edge source destination
  liveOut : ∀ liveOut ∈ dfg.liveOuts, ∃ node, dfg.findNode liveOut.source = some node ∧
    node.resultType = liveOut.type

namespace DFGVerifier

variable {dfg : DFG}

theorem nodup_of_indexValues (h : indexValues dfg = []) :
    (dfg.nodes.map Node.id).Nodup ∧ (dfg.edges.map Edge.id).Nodup ∧
      (dfg.externalValues.map ExternalValue.id).Nodup ∧
      (dfg.constants.map ConstantValue.id).Nodup ∧ (dfg.liveOuts.map LiveOut.id).Nodup := by
  simp only [indexValues, List.append_eq_nil_iff, List.map_eq_nil_iff] at h
  obtain ⟨⟨⟨⟨hn, he⟩, hx⟩, hc⟩, hl⟩ := h
  exact ⟨nodup_of_repeats_eq_nil hn, nodup_of_repeats_eq_nil he, nodup_of_repeats_eq_nil hx,
    nodup_of_repeats_eq_nil hc, nodup_of_repeats_eq_nil hl⟩

theorem valid_of_verifyValueTypes (h : verifyValueTypes dfg = []) {node : Node}
    (hnode : node ∈ dfg.nodes) : isValidType node.resultType = true ∧
      ∀ (operand : ℕ) (type : ValueType), node.operandTypes[operand]? = some type →
        isValidType type = true := by
  simp only [verifyValueTypes, List.append_eq_nil_iff, List.flatMap_eq_nil_iff,
    require_eq_nil_iff] at h
  obtain ⟨hresult, hoperands⟩ := h.2 node hnode
  refine ⟨hresult, fun operand type htype ↦ ?_⟩
  exact hoperands (type, operand) (List.mem_zipIdx_iff_getElem?.mpr htype)

theorem binding_of_verify {binding : OperandBinding} (hreference : verifyReference dfg binding = [])
    (hbinding : verifyBinding dfg binding = []) :
    ∃ node type, dfg.findNode binding.node = some node ∧
      node.operandTypes[binding.operand]? = some type ∧
        providedType dfg binding.source = some type := by
  rw [verifyReference, List.append_eq_nil_iff, require_eq_nil_iff, DFG.containsNode,
    Option.isSome_iff_exists] at hreference
  obtain ⟨⟨node, hnode⟩, hsource⟩ := hreference
  have hprovided : ∃ type, providedType dfg binding.source = some type := by
    rcases hvalue : binding.source with value | value
    · rw [hvalue] at hsource
      obtain ⟨external, hexternal⟩ :=
        Option.isSome_iff_exists.mp (require_eq_nil_iff _ _ |>.mp hsource)
      exact ⟨external.type, by rw [providedType, hexternal]; rfl⟩
    · rw [hvalue] at hsource
      obtain ⟨constant, hconstant⟩ :=
        Option.isSome_iff_exists.mp (require_eq_nil_iff _ _ |>.mp hsource)
      exact ⟨constant.type, by rw [providedType, hconstant]; rfl⟩
  obtain ⟨type, hprovided⟩ := hprovided
  rw [verifyBinding, hnode] at hbinding
  simp only at hbinding
  rcases hoperand : node.operandTypes[binding.operand]? with _ | expected
  · rw [hoperand] at hbinding
    cases hbinding
  · rw [hoperand] at hbinding
    have hsame := (require_eq_nil_iff _ _).mp hbinding
    rw [hprovided, Option.all_some, beq_iff_eq] at hsame
    exact ⟨node, expected, hnode, hoperand, hsame ▸ hprovided⟩

theorem count_of_verifyProvider {node : Node} {operand : ℕ}
    (h : verifyProvider dfg node operand = []) :
    (providers dfg).count (node.id, operand) = 1 := by
  rw [verifyProvider] at h
  split at h
  · cases h
  · assumption
  · cases h

/-- Two types that may only differ when one of them is invalid are equal if they are valid. -/
theorem eq_of_valid {first second : ValueType} (hfirst : isValidType first = true)
    (hsecond : isValidType second = true)
    (h : (!(isValidType first && isValidType second && first != second)) = true) :
    first = second := by
  rw [hfirst, hsecond, Bool.true_and, Bool.true_and, Bool.not_eq_true', bne_eq_false_iff_eq] at h
  exact h

theorem valid_of_verifyEdge (hvalid : verifyValueTypes dfg = []) {edge : Edge}
    {source destination : Node} (hsource : dfg.findNode edge.src = some source)
    (hdestination : dfg.findNode edge.dst = some destination) (h : verifyEdge dfg edge = []) :
    EdgeValid edge source destination := by
  have hresult := (valid_of_verifyValueTypes hvalid (DFG.mem_of_findNode hsource)).1
  have hoperands := (valid_of_verifyValueTypes hvalid (DFG.mem_of_findNode hdestination)).2
  rw [verifyEdge, hsource, hdestination] at h
  simp only at h
  rw [EdgeValid]
  rcases hinfo : edge.info with ⟨operand, boundary⟩ | ⟨operand, boundary⟩ | dependence
  · simp only [hinfo, verifyDataEdge] at h
    rcases hoperand : destination.operandTypes[operand]? with _ | expected
    · simp [hoperand] at h
    · simp only [hoperand, List.append_eq_nil_iff, require_eq_nil_iff] at h
      obtain ⟨⟨⟨hkind, hpredicate⟩, hsame⟩, -⟩ := h
      have heq := eq_of_valid hresult (hoperands operand expected hoperand) hsame
      refine ⟨expected, hoperand, heq, by simpa using hpredicate, fun hvoid ↦ ?_⟩
      rw [if_pos (heq ▸ hvoid)] at hkind
      cases hkind
  · simp only [hinfo, verifyPredicateEdge] at h
    rcases hoperand : destination.operandTypes[operand]? with _ | expected
    · simp [hoperand] at h
    · simp only [hoperand, List.append_eq_nil_iff, require_eq_nil_iff] at h
      obtain ⟨⟨⟨-, hpredicate⟩, hsame⟩, -⟩ := h
      exact ⟨expected, hoperand, eq_of_valid hresult (hoperands operand expected hoperand) hsame,
        hpredicate⟩
  · rcases dependence with _ | _ | _
    all_goals
      simpa only [hinfo, verifyMemoryEdge, verifyMemoryEndpoints, List.append_eq_nil_iff,
        require_eq_nil_iff, beq_iff_eq] using h

theorem liveOut_of_verify (hvalid : verifyValueTypes dfg = []) {liveOut : LiveOut}
    (h : verifyLiveOut dfg liveOut = []) :
    ∃ node, dfg.findNode liveOut.source = some node ∧ node.resultType = liveOut.type := by
  rw [verifyLiveOut, List.append_eq_nil_iff, require_eq_nil_iff] at h
  obtain ⟨htype, h⟩ := h
  rcases hnode : dfg.findNode liveOut.source with _ | node
  · simp [hnode] at h
  · simp only [hnode, List.append_eq_nil_iff, require_eq_nil_iff] at h
    have hresult := (valid_of_verifyValueTypes hvalid (DFG.mem_of_findNode hnode)).1
    exact ⟨node, rfl, eq_of_valid hresult htype h.2⟩

/-- A load or a store has an address and says how wide it is. -/
theorem access_of_verify (h : verify dfg = []) {node : Node} (hnode : node ∈ dfg.nodes)
    (hopcode : node.opcode = .load ∨ node.opcode = .store) :
    0 < node.operandTypes.length ∧ node.memoryInfo.isSome = true := by
  simp only [verify, List.append_eq_nil_iff, List.flatMap_eq_nil_iff] at h
  obtain ⟨⟨⟨⟨⟨-, hnodes⟩, -⟩, -⟩, -⟩, -⟩ := h
  obtain ⟨hoperands, hmetadata⟩ := List.append_eq_nil_iff.mp (hnodes node hnode)
  constructor
  · rw [List.length_pos_iff]
    intro htypes
    rcases hopcode with hopcode | hopcode
    · simp [hopcode, verifyLoad, htypes] at hoperands
    · simp [hopcode, verifyStore, htypes] at hoperands
  · have hmemory : isMemoryOpcode node.opcode = true := by
      simpa [isMemoryOpcode] using hopcode
    rw [verifyMetadata, if_pos hmemory] at hmetadata
    cases hinfo : node.memoryInfo with
    | none => simp [hinfo] at hmetadata
    | some info => rfl

/-- **The verifier's contract.** -/
theorem verified_of_verify (h : verify dfg = []) : dfg.Verified := by
  have hends : ∀ edge ∈ dfg.edges, _ := fun edge hedge ↦ endpoints_of_verify h hedge
  simp only [verify, verifyStructure, verifyBindingsAndProviders, List.append_eq_nil_iff,
    List.flatMap_eq_nil_iff] at h
  obtain ⟨⟨⟨⟨⟨⟨⟨hindex, -, hreferences⟩, hvalid⟩, -⟩, hbindings, hproviders⟩, hedges⟩,
    hliveOuts⟩, -⟩ := h
  obtain ⟨hn, he, hx, hc, hl⟩ := nodup_of_indexValues hindex
  refine ⟨hn, he, hx, hc, hl, ?_, ?_, ?_, ?_⟩
  · exact fun binding hmem ↦ binding_of_verify (hreferences binding hmem) (hbindings binding hmem)
  · intro node hnode operand hoperand
    exact count_of_verifyProvider (hproviders node hnode operand (List.mem_range.mpr hoperand))
  · intro edge hedge
    obtain ⟨source, destination, hsource, hdestination⟩ := hends edge hedge
    exact ⟨source, destination, hsource, hdestination,
      valid_of_verifyEdge hvalid hsource hdestination (hedges edge hedge)⟩
  · exact fun liveOut hmem ↦ liveOut_of_verify hvalid (hliveOuts liveOut hmem)

/-- An operand that no edge feeds is bound. -/
theorem exists_binding (h : dfg.Verified) {node : Node} (hnode : node ∈ dfg.nodes) {operand : ℕ}
    (hoperand : operand < node.operandTypes.length)
    (hedges : ∀ edge ∈ dfg.edges, edge.dst = node.id → edge.info.dstOperand ≠ some operand) :
    ∃ binding ∈ dfg.externalBindings, (binding.node, binding.operand) = (node.id, operand) := by
  have hcount := h.provider node hnode operand hoperand
  have hmem : (node.id, operand) ∈ providers dfg := by
    rw [← List.count_pos_iff, hcount]
    exact Nat.one_pos
  rcases List.mem_append.mp (List.mem_of_mem_filter hmem) with hmem | hmem
  · obtain ⟨edge, hedge, hfeeds⟩ := List.mem_filterMap.mp hmem
    obtain ⟨operand', hoperand', hkey⟩ := Option.map_eq_some_iff.mp hfeeds
    obtain ⟨hdst, rfl⟩ := Prod.mk.inj hkey
    exact absurd hoperand' (hedges edge hedge hdst)
  · exact List.mem_map.mp hmem

end DFGVerifier

end PredicatedMesh
