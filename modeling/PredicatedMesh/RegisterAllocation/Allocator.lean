import PredicatedMesh.Library.Matching
import PredicatedMesh.RegisterAllocation.Verifier

/-!
# Allocating registers

`RFAllocator.allocate` gives every storage segment a register of its bank and ports to access it
through. Segments of one bank of one tile form a graph, with an edge between two segments whose
periodic lifetimes conflict; the graph is coloured with the allocatable registers, greedily first
and, should that fail, by a backtracking search that always picks the most constrained segment.
Then the accesses of every slot are matched to ports by augmenting paths, the reads first, then the
writes, then the writes that seed a recurrence with a constant. What comes out is checked once more,
first for registers accessed twice in a slot and then by the verifier.

A segment is carried together with its bank from the moment the bank is looked up. Colours are kept
by segment id, which counts the segments. The sources of the writes are looked up before the writes
are matched; a lookup can throw, and the source makes it for the pairs it tries.
-/

namespace PredicatedMesh

open Scan

/-! ## Results -/

inductive RFAllocationStatus
  | success
  | invalidTargetDFG
  | invalidStagedMapping
  | targetRFContractError
  | fixedRegisterSelfOverlap
  | readPortConflict
  | writePortConflict
  | sameAddressRWConflict
  | registerDepthInfeasible
  | budgetExceeded
  | verificationFailure
  | arithmeticOverflow
  | internalError
  deriving DecidableEq, Repr

inductive RFAllocationDiagnosticCode
  | invalidTargetDFG
  | invalidStagedMapping
  | targetBankMissing
  | targetRFContractInvalid
  | storageTimingInvalid
  | storageArithmeticOverflow
  | fixedRegisterSelfOverlap
  | readPortConflict
  | writePortConflict
  | sameAddressRWConflict
  | registerDepthInfeasible
  | coloringBudgetExceeded
  | finalVerificationFailed
  | internalError
  deriving DecidableEq, Repr

structure RFAllocationDiagnostic where
  code : RFAllocationDiagnosticCode
  message : String
  edge : Option TargetEdgeId := none
  segment : Option StorageSegmentId := none
  tile : Option TileCoord := none
  bank : Option String := none
  reg : Option ℕ := none
  deriving DecidableEq, Repr

structure RFAllocationResult where
  status : RFAllocationStatus
  mapping : Option RFAllocatedMapping := none
  diagnostics : List RFAllocationDiagnostic := []

structure RFAllocationBudget where
  maxColoringDecisions : ℕ := 100000
  maxColoringBacktracks : ℕ := 100000

structure RFAllocationOptions where
  budget : RFAllocationBudget := {}

/-- An allocation left before its end: by an exception or by an early return. -/
inductive RFAllocationExit
  | thrown (what : String)
  | returned (result : RFAllocationResult)

/-- The mapping's constructor sorts the allocations and rejects a segment listed twice. -/
def RFAllocatedMapping.create (staged : StagedMapping) (requirements : StorageRequirements)
    (allocations : List StorageAllocation) : Except String RFAllocatedMapping :=
  let ordered := allocations.insertionSort fun a b ↦ a.segment ≤ b.segment
  if h : (ordered.map StorageAllocation.segment).Pairwise (· < ·) then
    .ok ⟨staged, requirements, ordered, h⟩
  else .error "RF allocation contains duplicate storage segment"

namespace RFAllocator

open RFAllocationVerifier

/-- A failed step: its status and the diagnostic it reports. -/
def failure (status : RFAllocationStatus) (diagnostic : RFAllocationDiagnostic) :
    RFAllocationExit :=
  .returned { status := status, diagnostics := [diagnostic] }

/-- A register bank of a tile. -/
structure BankKey where
  tile : TileCoord
  bank : String
  deriving DecidableEq, Repr

/-- The order of a map keyed by tile and bank. -/
def BankKey.le (a b : BankKey) : Bool :=
  decide (a.tile.row < b.tile.row) || a.tile.row == b.tile.row &&
  (decide (a.tile.col < b.tile.col) || a.tile.col == b.tile.col && decide (a.bank ≤ b.bank))

/-- A segment and the bank that holds it. -/
structure BankedSegment where
  segment : StorageSegment
  bank : RegisterFileDesc
  deriving DecidableEq, Repr

def BankedSegment.key (banked : BankedSegment) : BankKey :=
  ⟨banked.segment.tile, banked.bank.id⟩

def BankedSegment.id (banked : BankedSegment) : StorageSegmentId := banked.segment.id

/-! ## Banks and port demand -/

def bankFor (target : TargetModel) (ii : ℕ) (segment : StorageSegment) :
    Except RFAllocationExit BankedSegment :=
  match target.registerBank segment.domain segment.tile.row segment.tile.col with
  | none =>
    .error (failure .targetRFContractError
      { code := .targetBankMissing
        message := "storage segment has no applicable target RF bank"
        edge := some segment.edge, segment := some segment.id, tile := some segment.tile })
  | some bank =>
    if bank.allocatableIndices.isEmpty then
      .error (failure .targetRFContractError
        { code := .targetRFContractInvalid
          message := "target RF bank has no allocatable register indices"
          edge := some segment.edge, segment := some segment.id, tile := some segment.tile
          bank := some bank.id })
    else if fixedRegisterSelfOverlaps segment ii bank.sameAddressReadWritePolicy then
      .error (failure .fixedRegisterSelfOverlap
        { code := .fixedRegisterSelfOverlap
          message := "storage lifetime overlaps its own next II-periodic iteration (write="
            ++ toString segment.writeTime ++ " read=" ++ toString segment.readTime
            ++ " ii=" ++ toString ii ++ ")"
          edge := some segment.edge, segment := some segment.id, tile := some segment.tile
          bank := some bank.id })
    else .ok ⟨segment, bank⟩

/-- A bank of a tile at a slot. -/
structure SlotKey where
  bank : BankKey
  slot : ℕ
  deriving DecidableEq, Repr

def SlotKey.le (a b : SlotKey) : Bool :=
  if a.bank = b.bank then decide (a.slot ≤ b.slot) else a.bank.le b.bank

/-- The writes and the reads counted so far. -/
structure PortDemand where
  writes : List SlotKey
  reads : List SlotKey

def portConflict (status : RFAllocationStatus) (code : RFAllocationDiagnosticCode)
    (message : String) (banked : BankedSegment) : RFAllocationExit :=
  failure status
    { code := code, message := message, edge := some banked.segment.edge
      segment := some banked.segment.id, tile := some banked.segment.tile
      bank := some banked.bank.id }

def countDemand (ii : ℕ) (demand : PortDemand) (banked : BankedSegment) :
    Except RFAllocationExit PortDemand :=
  let write : SlotKey := ⟨banked.key, banked.segment.writeTime % ii⟩
  let read : SlotKey := ⟨banked.key, banked.segment.readTime % ii⟩
  let later : PortDemand := ⟨write :: demand.writes, read :: demand.reads⟩
  if later.writes.count write > banked.bank.writePorts then
    .error (portConflict .writePortConflict .writePortConflict
      "periodic RF write demand exceeds target write-port capacity" banked)
  else if later.reads.count read > banked.bank.readPorts then
    .error (portConflict .readPortConflict .readPortConflict
      "periodic RF read demand exceeds target read-port capacity" banked)
  else .ok later

/-! ## Colouring -/

/-- The conflict graph of one bank: the pairs are compared once, the earlier segment first. -/
def conflictGraph (ii : ℕ) (policy : SameAddressReadWritePolicy) (lhs rhs : BankedSegment) : Bool :=
  if lhs.id < rhs.id then periodicLifetimesConflict lhs.segment rhs.segment ii policy
  else if rhs.id < lhs.id then periodicLifetimesConflict rhs.segment lhs.segment ii policy
  else false

/-- The colours so far, and what they have cost. -/
structure ColorState where
  colors : StorageSegmentId → Option ℕ
  coloringDecisions : ℕ
  coloringBacktracks : ℕ

inductive ColorOutcome
  | colored
  | failed
  | exceeded
  deriving DecidableEq, Repr

section Color

variable (graph : BankedSegment → BankedSegment → Bool) (vertices : List BankedSegment)
  (budget : RFAllocationBudget)

def available (colors : StorageSegmentId → Option ℕ) (vertex : BankedSegment) (color : ℕ) : Bool :=
  vertices.all fun neighbor ↦ !(graph vertex neighbor && colors neighbor.id == some color)

/-- The number of colours in the neighbourhood of a vertex, and its degree. -/
def saturationOf (colors : StorageSegmentId → Option ℕ) (vertex : BankedSegment) : ℕ × ℕ :=
  let neighbors := vertices.filter (graph vertex)
  ((neighbors.filterMap fun neighbor ↦ colors neighbor.id).dedup.length, neighbors.length)

/-- Whether a vertex is more constrained than the one selected so far. -/
def preferred (colors : StorageSegmentId → Option ℕ) (selected vertex : BankedSegment) : Bool :=
  let best := saturationOf graph vertices colors selected
  let candidate := saturationOf graph vertices colors vertex
  decide (candidate.1 > best.1) || candidate.1 == best.1 &&
    (decide (candidate.2 > best.2) || candidate.2 == best.2 && decide (vertex.id < selected.id))

/-- The uncoloured vertex with the most colours around it. -/
def selectVertex (colors : StorageSegmentId → Option ℕ) : Option BankedSegment :=
  (vertices.filter fun vertex ↦ (colors vertex.id).isNone).foldl
    (fun selected vertex ↦
      match selected with
      | none => some vertex
      | some best => if preferred graph vertices colors best vertex then some vertex else some best)
    none

/-- The colours of one vertex, in order; `recurse` colours the rest. -/
def tryColors (recurse : ColorState → ColorOutcome × ColorState) (selected : BankedSegment) :
    List ℕ → ColorState → ColorOutcome × ColorState
  | [], state => (.failed, state)
  | color :: palette, state =>
    if !available graph vertices state.colors selected color then
      tryColors recurse selected palette state
    else if state.coloringDecisions ≥ budget.maxColoringDecisions then
      (.exceeded, state)
    else
      match recurse
        { state with
          colors := Function.update state.colors selected.id (some color)
          coloringDecisions := state.coloringDecisions + 1 } with
      | (.colored, later) => (.colored, later)
      | (.exceeded, later) =>
        (.exceeded, { later with colors := Function.update later.colors selected.id none })
      | (.failed, later) =>
        if later.coloringBacktracks ≥ budget.maxColoringBacktracks then
          (.exceeded, { later with colors := Function.update later.colors selected.id none })
        else
          tryColors recurse selected palette
            { later with
              colors := Function.update later.colors selected.id none
              coloringBacktracks := later.coloringBacktracks + 1 }

/-- The backtracking search. Every level of it colours a vertex, so fuel for the vertices is
enough. -/
def colorExact (palette : List ℕ) : ℕ → ColorState → ColorOutcome × ColorState
  | 0, state => (.failed, state)
  | fuel + 1, state =>
    match selectVertex graph vertices state.colors with
    | none => (.colored, state)
    | some selected =>
      tryColors graph vertices budget (colorExact palette fuel) selected palette state

/-- The first free colour of a vertex. -/
def greedyColor (vertex : BankedSegment) : List ℕ → ColorState → ColorOutcome × ColorState
  | [], state => (.failed, state)
  | color :: palette, state =>
    if state.coloringDecisions ≥ budget.maxColoringDecisions then (.exceeded, state)
    else if !available graph vertices state.colors vertex color then
      greedyColor vertex palette state
    else
      (.colored, { state with
        colors := Function.update state.colors vertex.id (some color)
        coloringDecisions := state.coloringDecisions + 1 })

/-- The greedy pass. When it runs out of budget, the vertex it was at is reported. -/
def greedy (palette : List ℕ) : List BankedSegment → ColorState →
    ColorOutcome × ColorState × Option BankedSegment
  | [], state => (.colored, state, none)
  | vertex :: rest, state =>
    match greedyColor graph vertices budget vertex palette state with
    | (.colored, later) => greedy palette rest later
    | (outcome, later) => (outcome, later, some vertex)

/-- Forget the colours of the vertices. -/
def reset (state : ColorState) : ColorState :=
  { state with
    colors := vertices.foldl (fun colors vertex ↦ Function.update colors vertex.id none)
      state.colors }

end Color

def colorBank (ii : ℕ) (budget : RFAllocationBudget) (state : ColorState)
    (group : BankKey × List BankedSegment) : Except RFAllocationExit ColorState :=
  match group.2 with
  | [] => .ok state
  | first :: _ =>
    let graph := conflictGraph ii first.bank.sameAddressReadWritePolicy
    let palette := first.bank.allocatableIndices
    match greedy graph group.2 budget palette group.2 state with
    | (.colored, later, _) => .ok later
    | (.exceeded, _, vertex) =>
      .error (failure .budgetExceeded
        { code := .coloringBudgetExceeded, message := "RF coloring decision budget exhausted"
          edge := vertex.map fun vertex ↦ vertex.segment.edge,
          segment := vertex.map BankedSegment.id
          tile := some group.1.tile, bank := some group.1.bank })
    | (.failed, later, _) =>
      match colorExact graph group.2 budget palette (group.2.length + 1) (reset group.2 later) with
      | (.colored, exact) => .ok exact
      | (.exceeded, _) =>
        .error (failure .budgetExceeded
          { code := .coloringBudgetExceeded, message := "exact RF coloring budget exhausted"
            tile := some group.1.tile, bank := some group.1.bank })
      | (.failed, _) =>
        .error (failure .registerDepthInfeasible
          { code := .registerDepthInfeasible
            message := "RF conflict graph is not colorable with target allocatable registers"
            tile := some group.1.tile, bank := some group.1.bank })

/-- The segments of each bank, bank after bank. -/
def bankGroups (segments : List BankedSegment) : List (BankKey × List BankedSegment) :=
  ((segments.map BankedSegment.key).dedup.insertionSort fun a b ↦ a.le b).map fun key ↦
    (key, segments.filter fun banked ↦ banked.key = key)

/-! ## Ports -/

/-- The segments that access their bank at a slot, slot after slot. -/
def slotEvents (slotOf : BankedSegment → ℕ) (segments : List BankedSegment) :
    List (SlotKey × List BankedSegment) :=
  ((segments.map fun banked ↦ (⟨banked.key, slotOf banked⟩ : SlotKey)).dedup.insertionSort
    fun a b ↦ a.le b).map fun key ↦
      (key, (segments.filter fun banked ↦
        (⟨banked.key, slotOf banked⟩ : SlotKey) = key).insertionSort
        fun a b ↦ a.id ≤ b.id)

/-- What distinguishes the three port assignments. -/
structure PortKind where
  ports : RegisterFileDesc → ℕ
  accepts : RegisterFileDesc → BankedSegment → ℕ → Bool
  set : ℕ → StorageAllocation → StorageAllocation
  conflict : BankedSegment → RFAllocationExit

/-- Record the ports of a slot in the allocations of its segments. -/
def writeBack (kind : PortKind) (matched : ℕ → Option BankedSegment) (ports : List ℕ)
    (allocations : List StorageAllocation) : List StorageAllocation :=
  ports.foldl (fun allocations port ↦
    match matched port with
    | none => allocations
    | some banked => allocations.map fun allocation ↦
        if allocation.segment = banked.id then kind.set port allocation else allocation) allocations

def assignSlot (kind : PortKind) (allocations : List StorageAllocation)
    (event : SlotKey × List BankedSegment) : Except RFAllocationExit (List StorageAllocation) :=
  match event.2 with
  | [] => .ok allocations
  | first :: _ =>
    match Matching.assign (kind.accepts first.bank) (List.range (kind.ports first.bank)) event.2
        (fun _ ↦ none) with
    | .error banked => .error (kind.conflict banked)
    | .ok matched =>
      .ok (writeBack kind matched (List.range (kind.ports first.bank)) allocations)

def assignPorts (kind : PortKind) (events : List (SlotKey × List BankedSegment))
    (allocations : List StorageAllocation) : Except RFAllocationExit (List StorageAllocation) :=
  events.foldlM (assignSlot kind) allocations

def readPorts : PortKind where
  ports bank := bank.readPorts
  accepts _ _ _ := true
  set port allocation := { allocation with readPort := port }
  conflict := portConflict .readPortConflict .readPortConflict
    "no compatible physical RF read-port matching exists"

/-- The write ports, for the sources of the segments. -/
def writePorts (sources : StorageSegmentId → String) : PortKind where
  ports bank := bank.writePorts
  accepts bank banked port := portAccepts bank port (sources banked.id)
  set port allocation := { allocation with writePort := port }
  conflict := portConflict .writePortConflict .writePortConflict
    "no source-compatible physical RF write-port matching exists"

def boundaryPorts (sources : StorageSegmentId → String) : PortKind where
  ports bank := bank.writePorts
  accepts bank banked port := portAccepts bank port (sources banked.id)
  set port allocation := { allocation with boundaryWritePort := some port }
  conflict := portConflict .writePortConflict .writePortConflict
    "no source-compatible physical RF write-port matching exists for recurrence boundary"

/-- The source of every segment, by id. -/
def sourcesOf (sourceOf : StorageSegment → Except String String) (segments : List BankedSegment) :
    Except RFAllocationExit (StorageSegmentId → String) :=
  (segments.foldlM (fun sources banked ↦
    (sourceOf banked.segment).map fun source ↦ Function.update sources banked.id source)
    fun _ ↦ "").mapError .thrown

/-- The slot of the write that seeds a recurrence. -/
def boundarySlot (ii : ℕ) (banked : BankedSegment) : ℕ :=
  (if banked.segment.writeTime ≥ ii then banked.segment.writeTime - ii
    else banked.segment.writeTime) % ii

/-! ## The allocator -/

/-- The periodic accesses of every register, as keys of the time a segment accesses it. -/
def registerEvents (ii : ℕ) (time : StorageSegment → ℕ) (segments : List BankedSegment)
    (allocations : List StorageAllocation) : List RegisterEventKey :=
  segments.filterMap fun banked ↦
    (allocations.find? fun allocation ↦ allocation.segment == banked.id).map fun allocation ↦
      ⟨allocation.reg, time banked.segment % ii⟩

/-- What a register suffers at a slot. -/
def registerConflict (target : TargetModel) (writes reads : List RegisterEventKey)
    (key : RegisterEventKey) : Option RFAllocationExit :=
  let domain := if key.reg.bank = target.predicateRF.id then .predicate else .data
  let bank := target.registerBank domain key.reg.tile.row key.reg.tile.col
  let conflict (message : String) : RFAllocationExit :=
    failure .sameAddressRWConflict
      { code := .sameAddressRWConflict, message := message, tile := some key.reg.tile
        bank := some key.reg.bank, reg := some key.reg.index }
  if writes.count key > 1 then
    some (conflict "multiple periodic writes target one physical RF register in one cycle")
  else if reads.count key ≠ 0 ∧ writes.count key ≠ 0 ∧ (bank.any fun bank ↦
      bank.sameAddressReadWritePolicy != .readOldThenWriteNew) then
    some (conflict "same-address periodic read/write is forbidden by target RF policy")
  else none

def checkRegisters (target : TargetModel) (ii : ℕ) (segments : List BankedSegment)
    (allocations : List StorageAllocation) : Except RFAllocationExit Unit :=
  let writes := registerEvents ii StorageSegment.writeTime segments allocations
  let reads := registerEvents ii StorageSegment.readTime segments allocations
  match ((writes ++ reads).dedup.insertionSort fun a b ↦ RegisterEventKey.le a b).findSome?
      (registerConflict target writes reads) with
  | none => .ok ()
  | some exit => .error exit

/-- The status and the diagnostic code of a failed analysis. -/
def analysisStatus : StorageRequirementStatus → RFAllocationStatus
  | .invalidTargetDFG => .invalidTargetDFG
  | .invalidStagedMapping => .invalidStagedMapping
  | .targetRFContractError => .targetRFContractError
  | .arithmeticOverflow => .arithmeticOverflow
  | .success => .internalError

def analysisCode : StorageRequirementDiagnosticCode → RFAllocationDiagnosticCode
  | .targetBankMissing => .targetBankMissing
  | .targetRFContractInvalid => .targetRFContractInvalid
  | .storageArithmeticOverflow => .storageArithmeticOverflow
  | .storageTimingInvalid => .storageTimingInvalid
  | .invalidTargetDFG => .invalidTargetDFG
  | .invalidStagedMapping => .invalidStagedMapping

section Allocate

variable (dfg : TargetDFG) (target : TargetModel) (mapping : StagedMapping)

/-- The registers and the ports of every segment. -/
def assignRegisters (options : RFAllocationOptions) (requirements : StorageRequirements) :
    Except RFAllocationExit (List BankedSegment × ColorState) := do
  let segments ← requirements.segments.mapM (bankFor target requirements.ii)
  let _ ← segments.foldlM (countDemand requirements.ii) ⟨[], []⟩
  let state ← (bankGroups segments).foldlM (colorBank requirements.ii options.budget)
    ⟨fun _ ↦ none, 0, 0⟩
  return (segments, state)

/-- The allocations before ports are assigned. -/
def initialAllocations (segments : List BankedSegment) (colors : StorageSegmentId → Option ℕ) :
    List StorageAllocation :=
  segments.map fun banked ↦
    ⟨banked.id, ⟨banked.segment.tile, banked.bank.id, (colors banked.id).getD 0⟩, 0, 0, none⟩

def assignAllPorts (ii : ℕ) (segments : List BankedSegment)
    (allocations : List StorageAllocation) : Except RFAllocationExit (List StorageAllocation) := do
  let withReads ← assignPorts readPorts
    (slotEvents (fun banked ↦ banked.segment.readTime % ii) segments) allocations
  let sources ← sourcesOf (storageWriteSource dfg target mapping) segments
  let withWrites ← assignPorts (writePorts sources)
    (slotEvents (fun banked ↦ banked.segment.writeTime % ii) segments) withReads
  let boundarySources ← sourcesOf (boundaryWriteSource dfg) segments
  assignPorts (boundaryPorts boundarySources)
    (slotEvents (boundarySlot ii) (segments.filter fun banked ↦ boundarySources banked.id ≠ ""))
    withWrites

/-- The last step: build the mapping and have it verified. -/
def verified (requirements : StorageRequirements) (allocations : List StorageAllocation) :
    RFAllocationResult :=
  let internal (what : String) : RFAllocationResult :=
    { status := .internalError, diagnostics := [{ code := .internalError, message := what }] }
  match RFAllocatedMapping.create mapping requirements allocations with
  | .error what => internal what
  | .ok allocated =>
    match RFAllocationVerifier.verify dfg target allocated with
    | .error what => internal what
    | .ok [] => { status := .success, mapping := some allocated }
    | .ok report =>
      { status := .verificationFailure
        diagnostics := [{ code := .finalVerificationFailed
                          message := RFAllocationVerifier.format report }] }

def allocateFrom (options : RFAllocationOptions) (requirements : StorageRequirements) :
    Except RFAllocationExit RFAllocationResult := do
  let (segments, state) ← assignRegisters target options requirements
  let allocations ← assignAllPorts dfg target mapping requirements.ii segments
    (initialAllocations segments state.colors)
  let _ ← checkRegisters target requirements.ii segments allocations
  return verified dfg target mapping requirements allocations

def allocate (options : RFAllocationOptions) : Except String RFAllocationResult :=
  if !(TargetDFGVerifier.verify dfg target).isEmpty then
    .ok { status := .invalidTargetDFG
          diagnostics := [{ code := .invalidTargetDFG
                            message := "TargetDFG precondition failed: "
                              ++ TargetDFGVerifier.format (TargetDFGVerifier.verify dfg target) }] }
  else
    match StorageRequirementAnalysis.analyze dfg target mapping with
    | .error what => .error what
    | .ok (.error failed) =>
      .ok { status := analysisStatus failed.status
            diagnostics := [{ code := analysisCode failed.diagnostic.code
                              message := failed.diagnostic.message
                              edge := failed.diagnostic.edge
                              segment := failed.diagnostic.segment }] }
    | .ok (.ok requirements) =>
      match allocateFrom dfg target mapping options requirements with
      | .ok result => .ok result
      | .error (.returned result) => .ok result
      | .error (.thrown what) => .error what

end Allocate

end RFAllocator

end PredicatedMesh
