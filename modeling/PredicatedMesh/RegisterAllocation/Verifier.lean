import PredicatedMesh.Library.Periodic
import PredicatedMesh.RegisterAllocation.Storage
import PredicatedMesh.Schedule.Execution

/-!
# Verifying a register allocation

The verifier recomputes the storage requirements, checks that every segment has a register of the
right bank and ports of its own, and compares lifetimes: each segment with its own next iteration,
and each pair of segments that share a register at three shifts of the interval.

## Why the finite check is enough

A segment that passes the first comparison lives for at most one interval, so it meets only the
neighbouring iterations of any other segment; that is `Periodic.apart_of_shifts`. Everything the
soundness theorem says — reads return what was written, no two writes collide, and a bank that
forbids it never reads and writes one register in one cycle — follows from the resulting fact that
any two instances on one register have lifetimes apart.
-/

namespace PredicatedMesh

open Scan

/-! ## Diagnostics -/

inductive RFAllocationVerificationCode
  | invalidTargetDFG
  | invalidStagedMapping
  | unknownStorageSegment
  | duplicateStorageAllocation
  | unallocatedStorageSegment
  | invalidRegisterIndex
  | bankDomainMismatch
  | fixedRegisterSelfOverlap
  | readPortConflict
  | writePortConflict
  | sameAddressRWConflict
  | periodicRegisterConflict
  | storageTimingInvalid
  deriving DecidableEq, Repr

structure RFAllocationVerificationDiagnostic where
  code : RFAllocationVerificationCode
  message : String
  segment : Option StorageSegmentId := none
  conflictingSegment : Option StorageSegmentId := none
  deriving DecidableEq, Repr

namespace RFAllocationVerifier

def format (report : List RFAllocationVerificationDiagnostic) : String :=
  String.join (report.map fun diagnostic ↦ diagnostic.message
    ++ (diagnostic.segment.elim "" fun segment ↦ " segment=" ++ toString segment)
    ++ (diagnostic.conflictingSegment.elim "" fun segment ↦
      " conflicting_segment=" ++ toString segment) ++ "\n")

/-! ## Write sources -/

/-- The name of the input port a link's value arrives at. -/
def incomingSource (direction : Direction) (domain : RegisterBankDomain) : String :=
  (match direction.opposite with
    | .north => "NORTH"
    | .south => "SOUTH"
    | .east => "EAST"
    | .west => "WEST")
  ++ match domain with
    | .data => "_DATA_IN"
    | .predicate => "_PRED_IN"

def resultSource : TargetResultSource → String
  | .fuDataResult => "FU_DATA_RESULT"
  | .fuPredicateResult => "FU_PRED_RESULT"
  | .lsuLoadData => "LSU_LOAD_DATA"
  | .none => ""

/-- The source name of the producer's own result. -/
def producerSource (dfg : TargetDFG) (target : TargetModel) (edge : TargetEdge) :
    Except String String :=
  match dfg.findNode edge.src with
  | none => .error ("unknown target DFG node id: " ++ toString edge.src)
  | some node =>
    match target.findOperation node.operation with
    | none => .error ("unknown target operation: " ++ node.operation)
    | some operation => .ok (resultSource operation.resultSource)

/-- The source a segment's first hold captures from: the link before it, or the producer. -/
def holdSource (dfg : TargetDFG) (target : TargetModel) (edge : TargetEdge) (plan : TransportPlan)
    (domain : RegisterBankDomain) (index : ℕ) : Except String String :=
  if index = 0 then producerSource dfg target edge
  else
    match plan.actions[index - 1]? with
    | some (.linkStep link) => .ok (incomingSource link.direction domain)
    | _ => producerSource dfg target edge

def storageWriteSource (dfg : TargetDFG) (target : TargetModel) (mapping : StagedMapping)
    (segment : StorageSegment) : Except String String :=
  match dfg.findEdge segment.edge with
  | none => .error ("unknown target DFG edge id: " ++ toString segment.edge)
  | some edge =>
    match mapping.modulo.dependence edge.id with
    | .error e => .error e
    | .ok dependence =>
      match dependence.transport with
      | none => .ok ""
      | some plan =>
        match segment.origins.findSome? fun origin ↦
            if origin.kind = .explicitVirtualHold then origin.transportActionIndex else none with
        | some index => holdSource dfg target edge plan segment.domain index
        | none =>
          match plan.actions.getLast? with
          | some (.linkStep link) => .ok (incomingSource link.direction segment.domain)
          | _ => .ok ""

/-- The constant that seeds a recurrence: the first boundary value, if it is one. -/
def seedConstant (boundary : Option RecurrenceBoundary) : Option ℕ :=
  boundary.bind fun boundary ↦
    match boundary.values with
    | ⟨_, .constantRef constantId⟩ :: _ => some constantId
    | _ => none

/-- The source that seeds a recurrence, when the seed is a constant. -/
def boundaryWriteSource (dfg : TargetDFG) (segment : StorageSegment) : Except String String :=
  match dfg.findEdge segment.edge with
  | none => .error ("unknown target DFG edge id: " ++ toString segment.edge)
  | some edge =>
    if edge.distance = 0 then .ok ""
    else
      match seedConstant edge.info.boundary with
      | none => .ok ""
      | some constantId =>
        if edge.kind = .data then .ok "CONST_DATA"
        else
          match dfg.constants.find? fun constant ↦ constant.id == constantId with
          | none => .ok ""
          | some constant => .ok (if constant.bits ≠ 0 then "CONST_TRUE" else "CONST_FALSE")

/-! ## The checks -/

section Verify

variable (dfg : TargetDFG) (target : TargetModel) (mapping : RFAllocatedMapping)

def checkAllocations : List RFAllocationVerificationDiagnostic :=
  let known := fun allocation : StorageAllocation ↦
    mapping.storageRequirements.segments.any fun segment ↦ segment.id == allocation.segment
  (mapping.allocations.flatMap fun allocation ↦ require (known allocation)
    { code := .unknownStorageSegment
      message := "allocation references an unknown storage segment"
      segment := some allocation.segment })
  ++ (repeats StorageAllocation.segment [] (mapping.allocations.filter known)).map fun allocation ↦
    { code := .duplicateStorageAllocation
      message := "storage segment has duplicate physical allocations"
      segment := some allocation.segment }

def checkAllocated : List RFAllocationVerificationDiagnostic :=
  mapping.storageRequirements.segments.flatMap fun segment ↦
    require (mapping.allocationFor segment.id).isSome
      { code := .unallocatedStorageSegment, message := "storage segment has no physical allocation"
        segment := some segment.id }

/-- One segment against its bank. -/
def checkSegmentBank (segment : StorageSegment) (allocation : StorageAllocation) :
    List RFAllocationVerificationDiagnostic :=
  match target.registerBank segment.domain segment.tile.row segment.tile.col with
  | none =>
    [{ code := .bankDomainMismatch
       message := "allocated segment has no applicable target bank", segment := some segment.id }]
  | some bank =>
    require (allocation.reg.tile == segment.tile && allocation.reg.bank == bank.id
        && bank.domain == segment.domain)
      { code := .bankDomainMismatch
        message := "physical allocation bank or tile disagrees with storage segment"
        segment := some segment.id }
    ++ require (bank.allocates allocation.reg.index)
      { code := .invalidRegisterIndex
        message := "physical allocation index is not allocatable in target bank"
        segment := some segment.id }
    ++ require (!fixedRegisterSelfOverlaps segment mapping.storageRequirements.ii
        bank.sameAddressReadWritePolicy)
      { code := .fixedRegisterSelfOverlap
        message := "storage lifetime overlaps its fixed-register next iteration"
        segment := some segment.id }

def checkSegmentBanks : Except String (List RFAllocationVerificationDiagnostic) :=
  each (fun segment ↦
    match mapping.allocationFor segment.id with
    | none => .error "map::at"
    | some allocation => .ok (checkSegmentBank target mapping segment allocation))
    mapping.storageRequirements.segments

/-- A port of a bank of a tile at a slot. -/
structure PortKey where
  tile : TileCoord
  bank : String
  slot : ℕ
  deriving DecidableEq, Repr

/-- The accesses and port assignments met so far. -/
structure PortState where
  reads : List PortKey
  writes : List PortKey
  readAssignments : List (PortKey × ℕ)
  writeAssignments : List (PortKey × ℕ)
  deriving DecidableEq, Repr

def portConflict (code : RFAllocationVerificationCode) (message : String)
    (segment : StorageSegment) : RFAllocationVerificationDiagnostic :=
  { code := code, message := message, segment := some segment.id }

/-- Whether a write port of a bank accepts a source. -/
def portAccepts (bank : RegisterFileDesc) (port : ℕ) (source : String) : Bool :=
  (bank.writePortSources.find? fun entry ↦ entry.1 == "W" ++ toString port).any fun entry ↦
    entry.2.contains source

def checkBoundaryPort (bank : RegisterFileDesc) (segment : StorageSegment)
    (allocation : StorageAllocation) (boundarySource : String) :
    List RFAllocationVerificationDiagnostic :=
  if boundarySource ≠ "" then
    match allocation.boundaryWritePort with
    | some port =>
      if port ≥ bank.writePorts then
        [portConflict .writePortConflict
          "recurrence boundary has no assigned physical RF write port" segment]
      else
        require (portAccepts bank port boundarySource)
          (portConflict .writePortConflict
            "assigned recurrence-boundary RF write port does not accept the seed source" segment)
    | none =>
      [portConflict .writePortConflict
        "recurrence boundary has no assigned physical RF write port" segment]
  else
    require allocation.boundaryWritePort.isNone
      (portConflict .writePortConflict
        "allocation carries a boundary RF write port for an edge without a constant seed" segment)

/-- The port state after a segment has been counted, in the order the source updates it. -/
def countPorts (state : PortState) (bank : RegisterFileDesc) (segment : StorageSegment)
    (allocation : StorageAllocation) : PortState :=
  let ii := mapping.storageRequirements.ii
  let writeKey : PortKey := ⟨segment.tile, allocation.reg.bank, segment.writeTime % ii⟩
  let readKey : PortKey := ⟨segment.tile, allocation.reg.bank, segment.readTime % ii⟩
  { reads := readKey :: state.reads
    writes := writeKey :: state.writes
    readAssignments :=
      if allocation.readPort < bank.readPorts then
        (readKey, allocation.readPort) :: state.readAssignments else state.readAssignments
    writeAssignments :=
      if allocation.writePort < bank.writePorts then
        (writeKey, allocation.writePort) :: state.writeAssignments else state.writeAssignments }

def checkPortCapacity (state : PortState) (bank : RegisterFileDesc) (segment : StorageSegment)
    (allocation : StorageAllocation) : List RFAllocationVerificationDiagnostic :=
  let ii := mapping.storageRequirements.ii
  let writeKey : PortKey := ⟨segment.tile, allocation.reg.bank, segment.writeTime % ii⟩
  let readKey : PortKey := ⟨segment.tile, allocation.reg.bank, segment.readTime % ii⟩
  require (state.writes.count writeKey + 1 ≤ bank.writePorts)
    (portConflict .writePortConflict "allocated RF writes exceed target port capacity" segment)
  ++ require (state.reads.count readKey + 1 ≤ bank.readPorts)
    (portConflict .readPortConflict "allocated RF reads exceed target port capacity" segment)
  ++ require (allocation.readPort < bank.readPorts
      && !state.readAssignments.contains (readKey, allocation.readPort))
    (portConflict .readPortConflict "storage segments share an exclusive RF read port" segment)
  ++ require (allocation.writePort < bank.writePorts
      && !state.writeAssignments.contains (writeKey, allocation.writePort))
    (portConflict .writePortConflict "storage segments share an exclusive RF write port" segment)

def checkSegmentPorts (state : PortState) (segment : StorageSegment) :
    Except String (PortState × List RFAllocationVerificationDiagnostic) :=
  match mapping.allocationFor segment.id,
      target.registerBank segment.domain segment.tile.row segment.tile.col with
  | some allocation, some bank =>
    match storageWriteSource dfg target mapping.staged segment, boundaryWriteSource dfg segment with
    | .error e, _ => .error e
    | .ok _, .error e => .error e
    | .ok source, .ok boundarySource =>
      .ok (countPorts mapping state bank segment allocation,
        checkPortCapacity mapping state bank segment allocation
        ++ require (portAccepts bank allocation.writePort source)
          (portConflict .writePortConflict
            "assigned RF write port does not accept the mapped value source" segment)
        ++ checkBoundaryPort bank segment allocation boundarySource)
  | _, _ => .error "map::at"

def checkPorts : Except String (List RFAllocationVerificationDiagnostic) :=
  (loop (checkSegmentPorts dfg target mapping) ⟨[], [], [], []⟩
    mapping.storageRequirements.segments).map Prod.snd

/-- A register at a slot. -/
structure RegisterEventKey where
  reg : PhysicalRegister
  slot : ℕ
  deriving DecidableEq, Repr

/-- The order of a map keyed by tile, bank, index and slot. -/
def RegisterEventKey.le (a b : RegisterEventKey) : Bool :=
  decide (a.reg.tile.row < b.reg.tile.row) || a.reg.tile.row == b.reg.tile.row &&
  (decide (a.reg.tile.col < b.reg.tile.col) || a.reg.tile.col == b.reg.tile.col &&
  (decide (a.reg.bank < b.reg.bank) || a.reg.bank == b.reg.bank &&
  (decide (a.reg.index < b.reg.index) || a.reg.index == b.reg.index &&
  decide (a.slot ≤ b.slot))))

/-- The periodic accesses of every register, as keys of the time a segment accesses it. -/
def registerEvents (time : StorageSegment → ℕ) : List RegisterEventKey :=
  mapping.storageRequirements.segments.filterMap fun segment ↦
    (mapping.allocationFor segment.id).map fun allocation ↦
      ⟨allocation.reg, time segment % mapping.storageRequirements.ii⟩

def checkRegisterEvent (key : RegisterEventKey) : List RFAllocationVerificationDiagnostic :=
  let writes := (registerEvents mapping StorageSegment.writeTime).count key
  let reads := (registerEvents mapping StorageSegment.readTime).count key
  let domain := if key.reg.bank = target.predicateRF.id then .predicate else .data
  let bank := target.registerBank domain key.reg.tile.row key.reg.tile.col
  require (writes ≤ 1)
    { code := .sameAddressRWConflict
      message := "multiple periodic writes target one physical RF register in one cycle" }
  ++ require (!(reads != 0 && writes != 0 && bank.any fun bank ↦
      bank.sameAddressReadWritePolicy != .readOldThenWriteNew))
    { code := .sameAddressRWConflict
      message := "same-address periodic read/write is forbidden by target RF policy" }

def checkRegisterEvents : List RFAllocationVerificationDiagnostic :=
  ((registerEvents mapping StorageSegment.writeTime
      ++ registerEvents mapping StorageSegment.readTime).dedup.insertionSort
    fun a b ↦ RegisterEventKey.le a b).flatMap (checkRegisterEvent target mapping)

/-- Two segments, if they share a register. -/
def checkSegmentPair (lhs rhs : StorageSegment) :
    Except String (List RFAllocationVerificationDiagnostic) :=
  match mapping.allocationFor lhs.id, mapping.allocationFor rhs.id with
  | some lhsAllocation, some rhsAllocation =>
    if lhsAllocation.reg ≠ rhsAllocation.reg then .ok []
    else
      match target.registerBank lhs.domain lhs.tile.row lhs.tile.col with
      | none => .error "null register bank"
      | some bank =>
        .ok (require (!periodicLifetimesConflict lhs rhs mapping.storageRequirements.ii
            bank.sameAddressReadWritePolicy)
          { code := .periodicRegisterConflict
            message := "two storage lifetimes conflict under fixed-register periodic reuse"
            segment := some lhs.id, conflictingSegment := some rhs.id })
  | _, _ => .error "map::at"

/-- Every pair of segments, each pair once. -/
def checkSegmentPairs : List StorageSegment →
    Except String (List RFAllocationVerificationDiagnostic)
  | [] => .ok []
  | lhs :: segments =>
    match each (checkSegmentPair target mapping lhs) segments with
    | .error e => .error e
    | .ok report =>
      match checkSegmentPairs segments with
      | .error e => .error e
      | .ok later => .ok (report ++ later)

/-- The last part, which collects its diagnostics without returning in between. -/
def checkAccesses : Except String (List RFAllocationVerificationDiagnostic) :=
  match checkPorts dfg target mapping,
      checkSegmentPairs target mapping mapping.storageRequirements.segments with
  | .error e, _ => .error e
  | .ok _, .error e => .error e
  | .ok ports, .ok pairs => .ok (ports ++ checkRegisterEvents target mapping ++ pairs)

/-- The report; the allocation is accepted when the verifier returns and the report is empty. -/
def verify : Except String (List RFAllocationVerificationDiagnostic) :=
  stage (require (TargetDFGVerifier.verify dfg target).isEmpty
    { code := .invalidTargetDFG
      message := "TargetDFG precondition failed: "
        ++ TargetDFGVerifier.format (TargetDFGVerifier.verify dfg target) }) <|
  match StageAssignmentVerifier.verify dfg target mapping.staged with
  | .error e => .error e
  | .ok stageReport =>
    stage (require stageReport.isEmpty
      { code := .invalidStagedMapping
        message := "StagedMapping precondition failed: "
          ++ StageAssignmentVerifier.format stageReport }) <|
    match StorageRequirementAnalysis.analyze dfg target mapping.staged with
    | .error e => .error e
    | .ok (.error failure) =>
      .ok [{ code := .storageTimingInvalid
             message := "storage requirement reconstruction failed: " ++ failure.format }]
    | .ok (.ok requirements) =>
      stage (require (requirements == mapping.storageRequirements)
        { code := .storageTimingInvalid
          message := "stored storage requirements differ from deterministic reconstruction" }) <|
      stage (checkAllocations mapping ++ checkAllocated mapping) <|
      match checkSegmentBanks target mapping with
      | .error e => .error e
      | .ok bankReport => stage bankReport (checkAccesses dfg target mapping)

end Verify

end RFAllocationVerifier

end PredicatedMesh
