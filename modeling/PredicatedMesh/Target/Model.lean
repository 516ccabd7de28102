import PredicatedMesh.IR.Edge

/-!
# The target contract

The compiler never looks at the hardware. Everything it knows about the array — its shape, its
register banks, its links, its memory timing and the operations a tile can execute — is read from
one JSON contract into a `TargetModel`, and every later pass asks that object. This module is the
object after loading: the descriptors under the names the loader gives them and the queries the
passes make.

## What loading establishes

`loadFromFile` rejects a malformed contract, so an invariant it enforces is a field here and not a
hypothesis of the theorems. Only the facts a later proof rests on are carried: the two register
banks have different names (the loader names each after its JSON key).

## Numbers

Contract integers are `unsigned` in the source and natural numbers here. No query below adds two of
them without an explicit range check, so nothing depends on the width.
-/

namespace PredicatedMesh

/-! ## Operations -/

inductive TargetExecutionClass
  | fu
  | lsu
  deriving DecidableEq, Repr

inductive TargetOperandRole
  | data
  | predicate
  | address
  deriving DecidableEq, Repr

inductive TargetResultRole
  | data
  | predicate
  | void
  deriving DecidableEq, Repr

/-- The control fields an operand can be delivered through. -/
inductive TargetControlSink
  | fuDataA
  | fuDataB
  | fuPredicate0
  | fuPredicate1
  | lsuAddress
  | lsuStoreData
  | lsuCommitPredicate
  deriving DecidableEq, Repr

/-- Where a tile finds the result of an operation it has just executed. -/
inductive TargetResultSource
  | none
  | fuDataResult
  | fuPredicateResult
  | lsuLoadData
  deriving DecidableEq, Repr

structure TargetOperandDesc where
  role : TargetOperandRole
  optional : Bool := false
  deriving DecidableEq, Repr

/-- The control-word symbol an operation is encoded as. -/
structure TargetEncodingRef where
  domain : String
  symbol : String
  deriving DecidableEq, Repr

/-- One operation of the contract. -/
structure TargetOperationDesc where
  /-- The contract's name for the operation. -/
  id : String
  /-- The unit that executes it. -/
  executionClass : TargetExecutionClass
  /-- Its operands, optional ones last. -/
  operands : List TargetOperandDesc
  resultRole : TargetResultRole
  resultType : ValueType
  /-- For how many cycles an issue occupies its unit. -/
  issueOccupancy : ℕ
  /-- Cycles from issue to the result, absent for operations without one. -/
  resultLatency : Option ℕ
  /-- Cycles from issue until the result can be routed. -/
  producerOutputReadyOffset : Option ℕ
  accessWidthBits : Option ℕ
  encoding : Option TargetEncodingRef
  /-- The control sink of each operand. -/
  operandSinks : List (ℕ × TargetControlSink)
  resultSource : TargetResultSource
  deriving DecidableEq, Repr

/-! ## Register banks, links and memory -/

inductive RegisterBankDomain
  | data
  | predicate
  deriving DecidableEq, Repr

/-- What a bank does when one register is read and written in one cycle. -/
inductive SameAddressReadWritePolicy
  | forbidden
  | readOldThenWriteNew
  | writeNewThenRead
  deriving DecidableEq, Repr

structure RegisterFileDesc where
  /-- The bank's name. -/
  id : String
  domain : RegisterBankDomain
  depth : ℕ
  readPorts : ℕ
  writePorts : ℕ
  sameAddressReadWritePolicy : SameAddressReadWritePolicy
  /-- The registers the allocator may use. -/
  allocatableIndices : List ℕ
  /-- The tiles that have the bank; the empty list means every tile. -/
  applicableTiles : List (ℕ × ℕ) := []
  /-- The sources each write port accepts, by port name. -/
  writePortSources : List (String × List String)
  deriving DecidableEq, Repr

namespace RegisterFileDesc

def appliesToTile (bank : RegisterFileDesc) (row col : ℕ) : Bool :=
  bank.applicableTiles.isEmpty || bank.applicableTiles.contains (row, col)

def allocates (bank : RegisterFileDesc) (index : ℕ) : Bool :=
  bank.allocatableIndices.contains index

end RegisterFileDesc

structure ArrayDesc where
  rows : ℕ
  cols : ℕ
  dataWidth : ℕ
  predicateWidth : ℕ
  deriving DecidableEq, Repr

structure InterconnectDesc where
  topology : String
  hopLatency : ℕ
  deriving DecidableEq, Repr

/-- The shared scratchpad's depth, the separations it demands between dependent accesses, and the
width of its words. -/
structure MemoryDesc where
  depth : ℕ
  rawDependenceSeparation : ℕ
  warDependenceSeparation : ℕ
  wawDependenceSeparation : ℕ
  widthBits : ℕ
  deriving DecidableEq, Repr

structure LsuTileDesc where
  row : ℕ
  col : ℕ
  portId : ℕ
  deriving DecidableEq, Repr

/-! ## The model -/

/-- A loaded target contract. -/
structure TargetModel where
  name : String
  array : ArrayDesc
  dataRF : RegisterFileDesc
  predicateRF : RegisterFileDesc
  interconnect : InterconnectDesc
  memory : MemoryDesc
  constantMemoryDepth : ℕ
  lsuTiles : List LsuTileDesc
  /-- Numeric values by encoding domain and symbol. -/
  encodings : List (String × List (String × ℕ))
  operations : List TargetOperationDesc
  /-- The functional-unit operations a tile has unless an override lists its own. -/
  defaultFuOperations : List String
  tileOperationOverrides : List ((ℕ × ℕ) × List String) := []
  contractVersion : ℕ := 3
  /-- The loader names each bank after its own JSON key. -/
  bank_ids_ne : dataRF.id ≠ predicateRF.id := by decide

namespace TargetModel

variable (target : TargetModel)

def dataNetwork : InterconnectDesc := target.interconnect

def predicateNetwork : InterconnectDesc := target.interconnect

/-- The descriptor of a bank domain, whether or not a given tile has the bank. -/
def bankDesc : RegisterBankDomain → RegisterFileDesc
  | .data => target.dataRF
  | .predicate => target.predicateRF

/-- The bank a tile offers for a domain. -/
def registerBank (domain : RegisterBankDomain) (row col : ℕ) : Option RegisterFileDesc :=
  if (target.bankDesc domain).appliesToTile row col then some (target.bankDesc domain) else none

def findOperation (name : String) : Option TargetOperationDesc :=
  target.operations.find? fun operation ↦ operation.id == name

def tileHasLSU (row col : ℕ) : Bool :=
  target.lsuTiles.any fun tile ↦ tile.row == row && tile.col == col

def tileSupportsOperation (row col : ℕ) (operationName : String) : Bool :=
  if row ≥ target.array.rows || col ≥ target.array.cols then
    false
  else
    match target.findOperation operationName with
    | none => false
    | some operation =>
      match operation.executionClass with
      | .lsu => target.tileHasLSU row col
      | .fu =>
        match target.tileOperationOverrides.find? fun entry ↦ entry.1 == (row, col) with
        | none => target.defaultFuOperations.contains operation.id
        | some entry => entry.2.contains operation.id

def memoryDependenceSeparation : MemoryDepKind → ℕ
  | .raw => target.memory.rawDependenceSeparation
  | .war => target.memory.warDependenceSeparation
  | .waw => target.memory.wawDependenceSeparation

def supportsValueType (type : ValueType) : Bool :=
  match type.kind with
  | .void => type.bitWidth == 0
  | .predicate => type.bitWidth == target.array.predicateWidth
  | .integer => type.bitWidth == target.array.dataWidth
  | .float => false

def executionResourceCount : TargetExecutionClass → ℕ
  | .lsu => target.lsuTiles.length
  | .fu => target.array.rows * target.array.cols

/-- The value of an encoding symbol. -/
def encodingValue (domain symbol : String) : Option ℕ :=
  (target.encodings.find? fun entry ↦ entry.1 == domain).bind fun entry ↦
    (entry.2.find? fun value ↦ value.1 == symbol).map Prod.snd

def hasValidEncoding (operation : TargetOperationDesc) : Bool :=
  match target.findOperation operation.id, operation.encoding with
  | some registered, some encoding =>
    registered == operation && (target.encodingValue encoding.domain encoding.symbol).isSome
  | _, _ => false

/-- Every tile of the array, row by row. -/
def tiles : List (ℕ × ℕ) :=
  (List.range target.array.rows).flatMap fun row ↦
    (List.range target.array.cols).map fun col ↦ (row, col)

def compatibleTiles (operationName : String) : List (ℕ × ℕ) :=
  target.tiles.filter fun tile ↦ target.tileSupportsOperation tile.1 tile.2 operationName

def compatibleResourceCount (operation : TargetOperationDesc) : ℕ :=
  if target.hasValidEncoding operation then
    match operation.executionClass with
    | .lsu => target.lsuTiles.length
    | .fu => (target.compatibleTiles operation.id).length
  else
    0

def isOperationExecutable (operation : TargetOperationDesc) : Bool :=
  target.compatibleResourceCount operation != 0

variable {target}

/-! ### What the queries say -/

theorem mem_tiles_iff {row col : ℕ} :
    (row, col) ∈ target.tiles ↔ row < target.array.rows ∧ col < target.array.cols := by
  simp [tiles]

theorem length_tiles : target.tiles.length = target.array.rows * target.array.cols := by
  simp [tiles, List.length_flatMap]

theorem findOperation_id {name : String} {operation : TargetOperationDesc}
    (h : target.findOperation name = some operation) : operation.id = name := by
  simpa using List.find?_some h

theorem registerBank_eq_some {domain : RegisterBankDomain} {row col : ℕ}
    {bank : RegisterFileDesc} (h : target.registerBank domain row col = some bank) :
    bank = target.bankDesc domain := by
  unfold registerBank at h
  split at h
  · exact (Option.some.inj h).symm
  · cases h

/-- Bank names tell the two domains apart. -/
theorem bankDesc_id_injective {d e : RegisterBankDomain}
    (h : (target.bankDesc d).id = (target.bankDesc e).id) : d = e := by
  cases d <;> cases e
  · rfl
  · exact absurd h target.bank_ids_ne
  · exact absurd h.symm target.bank_ids_ne
  · rfl

theorem tileHasLSU_iff {row col : ℕ} :
    target.tileHasLSU row col = true ↔
      ∃ tile ∈ target.lsuTiles, tile.row = row ∧ tile.col = col := by
  simp [tileHasLSU]

theorem tileSupportsOperation_inRange {row col : ℕ} {name : String}
    (h : target.tileSupportsOperation row col name = true) :
    row < target.array.rows ∧ col < target.array.cols := by
  unfold tileSupportsOperation at h
  split at h
  · cases h
  · rename_i hin
    simp only [ge_iff_le, Bool.or_eq_true, decide_eq_true_eq, not_or, not_le] at hin
    exact hin

end TargetModel

end PredicatedMesh
