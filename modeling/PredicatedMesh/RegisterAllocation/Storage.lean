import PredicatedMesh.Schedule.Staged

/-!
# Storage requirements

A value that waits on a tile needs a register for as long as it waits. The waits of a staged mapping
are the holds of its transport plans and, for each value edge, the slack between the arrival of the
value and the issue of its consumer. `StorageRequirementAnalysis.analyze` turns them into segments:
one per wait, except that a wait which begins where the previous one of the same edge ends is merged
into it, so that one register carries the value through.

Segment times are those of iteration zero; iteration `k` writes and reads `k * ii` cycles later.
Segment ids count the segments, and a count of them that leaves 32 bits is beyond any memory, so
they are natural numbers here.
-/

namespace PredicatedMesh

open Scan

/-! ## Segments -/

abbrev StorageSegmentId := ℕ

inductive StorageOriginKind
  | explicitVirtualHold
  | terminalSlack
  deriving DecidableEq, Repr

/-- Why a segment exists: a hold of a plan, by its position, or the slack before the consumer. -/
structure StorageOrigin where
  kind : StorageOriginKind
  edge : TargetEdgeId
  transportActionIndex : Option ℕ
  deriving DecidableEq, Repr

structure StorageSegment where
  id : StorageSegmentId
  edge : TargetEdgeId
  tile : TileCoord
  domain : RegisterBankDomain
  writeTime : ℕ
  readTime : ℕ
  origins : List StorageOrigin
  deriving DecidableEq, Repr

structure StorageRequirements where
  ii : ℕ
  segments : List StorageSegment
  deriving DecidableEq, Repr

/-! ## The analysis -/

inductive StorageRequirementStatus
  | success
  | invalidTargetDFG
  | invalidStagedMapping
  | targetRFContractError
  | arithmeticOverflow
  deriving DecidableEq, Repr

def StorageRequirementStatus.toString : StorageRequirementStatus → String
  | .success => "success"
  | .invalidTargetDFG => "invalid_target_dfg"
  | .invalidStagedMapping => "invalid_staged_mapping"
  | .targetRFContractError => "target_rf_contract_error"
  | .arithmeticOverflow => "arithmetic_overflow"

inductive StorageRequirementDiagnosticCode
  | invalidTargetDFG
  | invalidStagedMapping
  | targetBankMissing
  | targetRFContractInvalid
  | storageTimingInvalid
  | storageArithmeticOverflow
  deriving DecidableEq, Repr

def StorageRequirementDiagnosticCode.toString : StorageRequirementDiagnosticCode → String
  | .invalidTargetDFG => "RFA_INVALID_TARGET_DFG"
  | .invalidStagedMapping => "RFA_INVALID_STAGED_MAPPING"
  | .targetBankMissing => "RFA_TARGET_BANK_MISSING"
  | .targetRFContractInvalid => "RFA_TARGET_RF_CONTRACT_INVALID"
  | .storageTimingInvalid => "RFA_STORAGE_TIMING_INVALID"
  | .storageArithmeticOverflow => "RFA_STORAGE_ARITHMETIC_OVERFLOW"

structure StorageRequirementDiagnostic where
  code : StorageRequirementDiagnosticCode
  message : String
  edge : Option TargetEdgeId := none
  segment : Option StorageSegmentId := none
  deriving DecidableEq, Repr

/-- A failed analysis: its status and the one diagnostic it stopped at. -/
structure StorageRequirementFailure where
  status : StorageRequirementStatus
  diagnostic : StorageRequirementDiagnostic
  deriving DecidableEq, Repr

def StorageRequirementFailure.format (failure : StorageRequirementFailure) : String :=
  "StorageRequirementAnalysis status=" ++ failure.status.toString ++ " segments=0\n  ["
    ++ failure.diagnostic.code.toString ++ "] " ++ failure.diagnostic.message
    ++ (failure.diagnostic.edge.elim "" fun edge ↦ " edge=" ++ ToString.toString edge)
    ++ (failure.diagnostic.segment.elim "" fun segment ↦
      " segment=" ++ ToString.toString segment) ++ "\n"

namespace StorageRequirementAnalysis

def bankDomain : NetworkDomain → RegisterBankDomain
  | .data => .data
  | .predicate => .predicate

def checkedAdd (lhs rhs : ℕ) : Option ℕ :=
  if lhs > uint64Max - rhs then none else some (lhs + rhs)

def checkedMul (lhs rhs : ℕ) : Option ℕ :=
  if lhs ≠ 0 ∧ rhs > uint64Max / lhs then none else some (lhs * rhs)

theorem checkedAdd_eq_some {lhs rhs r : ℕ} (h : checkedAdd lhs rhs = some r) : r = lhs + rhs := by
  unfold checkedAdd at h
  split at h
  · cases h
  · exact (Option.some.inj h).symm

theorem checkedMul_eq_some {lhs rhs r : ℕ} (h : checkedMul lhs rhs = some r) : r = lhs * rhs := by
  unfold checkedMul at h
  split at h
  · cases h
  · exact (Option.some.inj h).symm

/-- Add a wait, merging it into the last segment when it continues it. The id of a segment and the
index of an action are 32 bits wide; there are fewer than 2³² of either. -/
def appendSegment (segments : List StorageSegment) (edge : TargetEdgeId) (tile : TileCoord)
    (domain : RegisterBankDomain) (writeTime readTime : ℕ) (origin : StorageOrigin)
    (allowCoalesce : Bool) : List StorageSegment :=
  match segments.getLast? with
  | some previous =>
    if allowCoalesce ∧ previous.edge = edge ∧ previous.tile = tile ∧ previous.domain = domain ∧
        previous.readTime = writeTime then
      segments.dropLast
        ++ [{ previous with readTime := readTime, origins := previous.origins ++ [origin] }]
    else
      segments ++ [⟨segments.length, edge, tile, domain, writeTime, readTime, [origin]⟩]
  | none => segments ++ [⟨segments.length, edge, tile, domain, writeTime, readTime, [origin]⟩]

def overflow (message : String) (edge : Option TargetEdgeId) : StorageRequirementFailure :=
  ⟨.arithmeticOverflow, { code := .storageArithmeticOverflow, message := message, edge := edge }⟩

def timingInvalid (message : String) (edge : TargetEdgeId) : StorageRequirementFailure :=
  ⟨.invalidStagedMapping,
    { code := .storageTimingInvalid, message := message, edge := some edge }⟩

def invalidStaged (message : String) (edge : Option TargetEdgeId) : StorageRequirementFailure :=
  ⟨.invalidStagedMapping,
    { code := .invalidStagedMapping, message := message, edge := edge }⟩

/-- The segments of the holds of a plan, and whether the plan ends with a hold. -/
def appendHolds (edge : TargetEdge) (domain : NetworkDomain) (producerTime : ℕ) :
    List (TransportAction × ℕ) → List StorageSegment → Bool →
    Except StorageRequirementFailure (List StorageSegment × Bool)
  | [], segments, previousWasHold => .ok (segments, previousWasHold)
  | (.linkStep _, _) :: actions, segments, _ =>
    appendHolds edge domain producerTime actions segments false
  | (.virtualHold hold, index) :: actions, segments, previousWasHold =>
    match checkedAdd producerTime hold.captureElapsed,
        checkedAdd producerTime hold.releaseElapsed with
    | some writeTime, some readTime =>
      if readTime ≤ writeTime then
        .error (timingInvalid "VirtualHold lifetime must have positive duration" edge.id)
      else
        appendHolds edge domain producerTime actions
          (appendSegment segments edge.id hold.tile (bankDomain domain) writeTime readTime
            ⟨.explicitVirtualHold, edge.id, some index⟩ previousWasHold) true
    | _, _ => .error (overflow "VirtualHold time overflows uint64" (some edge.id))

/-- The segment of the slack between arrival and use. -/
def appendSlack (mapping : StagedMapping) (edge : TargetEdge) (domain : NetworkDomain)
    (producerTime destinationTime requiredSeparationCycles : ℕ) (segments : List StorageSegment)
    (previousWasHold : Bool) : Except StorageRequirementFailure (List StorageSegment) :=
  match checkedAdd producerTime requiredSeparationCycles,
      checkedMul edge.distance mapping.modulo.ii with
  | some arrivalTime, some distanceCycles =>
    match checkedAdd destinationTime distanceCycles with
    | none => .error (overflow "consumer use time overflows uint64" (some edge.id))
    | some consumerUseTime =>
      if consumerUseTime < arrivalTime then
        .error (timingInvalid "consumer use occurs before mapped transport arrival" edge.id)
      else if consumerUseTime > arrivalTime then
        match mapping.modulo.placement edge.dst with
        | .error message => .error (invalidStaged message none)
        | .ok placement =>
          .ok (appendSegment segments edge.id placement.tile (bankDomain domain) arrivalTime
            consumerUseTime ⟨.terminalSlack, edge.id, none⟩ previousWasHold)
      else .ok segments
  | _, _ => .error (overflow "mapped dependence time overflows uint64" (some edge.id))

def lookupFailure : StagedError → StorageRequirementFailure
  | .overflowError message => overflow message none
  | .outOfRange message => invalidStaged message none

def appendEdge (mapping : StagedMapping) (segments : List StorageSegment) (edge : TargetEdge) :
    Except StorageRequirementFailure (List StorageSegment) :=
  if edge.kind = .memory then
    .ok segments
  else
    match mapping.modulo.dependence edge.id with
    | .error message => .error (invalidStaged message none)
    | .ok dependence =>
      match dependence.transport with
      | none => .error (invalidStaged "value edge has no transport plan" (some edge.id))
      | some plan =>
        match mapping.logicalIssueTime edge.src, mapping.logicalIssueTime edge.dst with
        | .error e, _ => .error (lookupFailure e)
        | .ok _, .error e => .error (lookupFailure e)
        | .ok producerTime, .ok destinationTime =>
          match appendHolds edge plan.domain producerTime plan.actions.zipIdx segments false with
          | .error failure => .error failure
          | .ok (withHolds, previousWasHold) =>
            appendSlack mapping edge plan.domain producerTime destinationTime
              dependence.requiredSeparationCycles withHolds previousWasHold

def appendEdges (mapping : StagedMapping) : List StorageSegment → List TargetEdge →
    Except StorageRequirementFailure (List StorageSegment)
  | segments, [] => .ok segments
  | segments, edge :: edges =>
    match appendEdge mapping segments edge with
    | .error failure => .error failure
    | .ok later => appendEdges mapping later edges

/-- The first segment whose bank cannot hold it. -/
def checkBanks (target : TargetModel) : List StorageSegment → Option StorageRequirementFailure
  | [] => none
  | segment :: segments =>
    match target.registerBank segment.domain segment.tile.row segment.tile.col with
    | none =>
      some ⟨.targetRFContractError,
        { code := .targetBankMissing
          message := "target has no register bank applicable to storage segment tile"
          edge := some segment.edge, segment := some segment.id }⟩
    | some bank =>
      if bank.allocatableIndices.isEmpty || bank.depth == 0 || bank.readPorts == 0 ||
          bank.writePorts == 0 then
        some ⟨.targetRFContractError,
          { code := .targetRFContractInvalid
            message := "target register bank has no allocatable capacity or ports"
            edge := some segment.edge, segment := some segment.id }⟩
      else checkBanks target segments

/-- The storage a staged mapping needs. The outer error is an exception of the stage verifier. -/
def analyze (dfg : TargetDFG) (target : TargetModel) (mapping : StagedMapping) :
    Except String (Except StorageRequirementFailure StorageRequirements) :=
  if !(TargetDFGVerifier.verify dfg target).isEmpty then
    .ok (.error ⟨.invalidTargetDFG,
      { code := .invalidTargetDFG
        message := "TargetDFG precondition failed: "
          ++ TargetDFGVerifier.format (TargetDFGVerifier.verify dfg target) }⟩)
  else
    match StageAssignmentVerifier.verify dfg target mapping with
    | .error e => .error e
    | .ok (diagnostic :: report) =>
      .ok (.error (invalidStaged ("StagedMapping precondition failed: "
        ++ StageAssignmentVerifier.format (diagnostic :: report)) none))
    | .ok [] =>
      if mapping.modulo.ii = 0 then
        .ok (.error (invalidStaged "staged mapping II must be positive" none))
      else
        match appendEdges mapping [] dfg.edgesById with
        | .error failure => .ok (.error failure)
        | .ok segments =>
          match checkBanks target segments with
          | some failure => .ok (.error failure)
          | none => .ok (.ok ⟨mapping.modulo.ii, segments⟩)

/-- A successful analysis has run over a verified staged mapping with a positive interval. -/
theorem analyze_eq_ok {dfg : TargetDFG} {target : TargetModel} {mapping : StagedMapping}
    {requirements : StorageRequirements}
    (h : analyze dfg target mapping = .ok (.ok requirements)) :
    StageAssignmentVerifier.verify dfg target mapping = .ok [] ∧
      requirements.ii = mapping.modulo.ii ∧ 0 < requirements.ii ∧
      appendEdges mapping [] dfg.edgesById = .ok requirements.segments := by
  unfold analyze at h
  by_cases hdfg : (TargetDFGVerifier.verify dfg target).isEmpty
  · rw [if_neg (by simp [hdfg])] at h
    split at h
    · cases h
    · simp at h
    · rename_i hstage
      by_cases hii : mapping.modulo.ii = 0
      · simp [hii] at h
      rw [if_neg hii] at h
      split at h
      · simp at h
      · rename_i segments hsegments
        split at h
        · simp at h
        · simp only [Except.ok.injEq] at h
          subst h
          exact ⟨hstage, rfl, Nat.pos_of_ne_zero hii, hsegments⟩
  · simp [hdfg] at h

/-! ### Invariants of the segments

Segments are only ever added by `appendSegment`, for a value edge and a wait of positive length. -/

section Invariant

variable {mapping : StagedMapping} {I : List StorageSegment → Prop}

/-- `I` survives every wait of the edge. -/
def Keeps (I : List StorageSegment → Prop) (edge : TargetEdge) : Prop :=
  ∀ segments tile domain writeTime readTime origin allowCoalesce, writeTime < readTime →
    I segments →
    I (appendSegment segments edge.id tile domain writeTime readTime origin allowCoalesce)

theorem appendHolds_invariant {edge : TargetEdge} {domain : NetworkDomain} {producerTime : ℕ}
    (hkeeps : Keeps I edge) {actions : List (TransportAction × ℕ)} {segments : List StorageSegment}
    {previousWasHold : Bool} {result : List StorageSegment × Bool}
    (h : appendHolds edge domain producerTime actions segments previousWasHold = .ok result)
    (hI : I segments) : I result.1 := by
  induction actions generalizing segments previousWasHold with
  | nil =>
    rw [← Except.ok.inj h]
    exact hI
  | cons action actions ih =>
    obtain ⟨action, index⟩ := action
    cases action with
    | linkStep link => exact ih h hI
    | virtualHold hold =>
      rw [appendHolds] at h
      split at h
      · split at h
        · cases h
        · rename_i hlt
          exact ih h (hkeeps _ _ _ _ _ _ _ (not_le.mp hlt) hI)
      · cases h

theorem appendSlack_invariant {edge : TargetEdge} {domain : NetworkDomain}
    {producerTime destinationTime separation : ℕ} (hkeeps : Keeps I edge)
    {segments result : List StorageSegment} {previousWasHold : Bool}
    (h : appendSlack mapping edge domain producerTime destinationTime separation segments
      previousWasHold = .ok result) (hI : I segments) : I result := by
  unfold appendSlack at h
  split at h
  · split at h
    · cases h
    split at h
    · cases h
    split at h
    · rename_i hlt
      split at h
      · cases h
      · rw [← Except.ok.inj h]
        exact hkeeps _ _ _ _ _ _ _ hlt hI
    · rw [← Except.ok.inj h]
      exact hI
  · cases h

theorem appendEdge_invariant {edge : TargetEdge} (hkeeps : edge.kind ≠ .memory → Keeps I edge)
    {segments result : List StorageSegment} (h : appendEdge mapping segments edge = .ok result)
    (hI : I segments) : I result := by
  unfold appendEdge at h
  split at h
  · rw [← Except.ok.inj h]
    exact hI
  rename_i hkind
  split at h
  · cases h
  split at h
  · cases h
  split at h
  · cases h
  · cases h
  split at h
  · cases h
  · rename_i withHolds previousWasHold hholds
    exact appendSlack_invariant (hkeeps hkind) h (appendHolds_invariant (hkeeps hkind) hholds hI)

/-- **The invariant rule of the analysis.** -/
theorem appendEdges_invariant {edges : List TargetEdge}
    (hkeeps : ∀ edge ∈ edges, edge.kind ≠ .memory → Keeps I edge)
    {segments result : List StorageSegment} (h : appendEdges mapping segments edges = .ok result)
    (hI : I segments) : I result := by
  induction edges generalizing segments with
  | nil =>
    rw [← Except.ok.inj h]
    exact hI
  | cons edge edges ih =>
    rw [appendEdges] at h
    split at h
    · cases h
    · rename_i later hlater
      refine ih (fun e he ↦ hkeeps e (List.mem_cons_of_mem _ he)) h ?_
      exact appendEdge_invariant (hkeeps edge List.mem_cons_self) hlater hI

end Invariant

/-- The ids count the segments. -/
def Numbered (segments : List StorageSegment) : Prop :=
  segments.map StorageSegment.id = List.range segments.length

theorem keeps_numbered (edge : TargetEdge) : Keeps Numbered edge := by
  intro segments tile domain writeTime readTime origin allowCoalesce _ hnumbered
  have hadd : ∀ segment : StorageSegment, segment.id = segments.length →
      Numbered (segments ++ [segment]) := by
    intro segment hid
    rw [Numbered] at hnumbered ⊢
    rw [List.map_append, hnumbered, List.length_append, List.map_singleton, hid,
      List.length_singleton, List.range_succ]
  unfold appendSegment
  split
  · rename_i previous hlast
    split
    · -- only the last segment's end and origins change
      have hsplit : segments = segments.dropLast ++ [previous] := by
        rw [List.dropLast_append_getLast? _ hlast]
      rw [Numbered, hsplit] at hnumbered
      simpa [Numbered] using hnumbered
    · exact hadd _ rfl
  · exact hadd _ rfl

/-- Every segment is a wait of a value edge. -/
def OnValueEdges (dfg : TargetDFG) (segments : List StorageSegment) : Prop :=
  ∀ segment ∈ segments, ∃ edge ∈ dfg.edges, edge.kind ≠ .memory ∧ segment.edge = edge.id

theorem keeps_onValueEdges {dfg : TargetDFG} {edge : TargetEdge} (hedge : edge ∈ dfg.edges)
    (hkind : edge.kind ≠ .memory) : Keeps (OnValueEdges dfg) edge := by
  intro segments tile domain writeTime readTime origin allowCoalesce _ hvalue
  have hadd : ∀ segment : StorageSegment, segment.edge = edge.id →
      OnValueEdges dfg (segments ++ [segment]) := by
    intro segment hid other hother
    rcases List.mem_append.mp hother with hother | hother
    · exact hvalue other hother
    · rw [List.mem_singleton.mp hother]
      exact ⟨edge, hedge, hkind, hid⟩
  unfold appendSegment
  split
  · rename_i previous hlast
    split
    · -- the segment that is extended keeps its edge
      intro other hother
      rcases List.mem_append.mp hother with hother | hother
      · exact hvalue other (List.mem_of_mem_dropLast hother)
      · rw [List.mem_singleton.mp hother]
        exact hvalue previous (List.mem_of_getLast? hlast)
    · exact hadd _ rfl
  · exact hadd _ rfl

theorem onValueEdges {dfg : TargetDFG} {target : TargetModel} {mapping : StagedMapping}
    {requirements : StorageRequirements}
    (h : analyze dfg target mapping = .ok (.ok requirements)) :
    OnValueEdges dfg requirements.segments := by
  obtain ⟨-, -, -, hedges⟩ := analyze_eq_ok h
  exact appendEdges_invariant (fun edge hedge hkind ↦
    keeps_onValueEdges (TargetDFG.mem_edgesById.mp hedge) hkind) hedges (by simp [OnValueEdges])

/-- No two segments of the analysis share an id. -/
theorem nodup_ids {dfg : TargetDFG} {target : TargetModel} {mapping : StagedMapping}
    {requirements : StorageRequirements}
    (h : analyze dfg target mapping = .ok (.ok requirements)) :
    (requirements.segments.map StorageSegment.id).Nodup := by
  obtain ⟨-, -, -, hedges⟩ := analyze_eq_ok h
  have hnumbered : Numbered requirements.segments :=
    appendEdges_invariant (fun edge _ _ ↦ keeps_numbered edge) hedges rfl
  rw [hnumbered]
  exact List.nodup_range

end StorageRequirementAnalysis

/-! ## Periodic lifetimes -/

def boundaryReuseAllowed (policy : SameAddressReadWritePolicy) : Bool :=
  policy == .readOldThenWriteNew

def intervalsConflict (lhsWrite lhsRead rhsWrite rhsRead : ℤ)
    (policy : SameAddressReadWritePolicy) : Bool :=
  let overlapStart := max lhsWrite rhsWrite
  let overlapEnd := min lhsRead rhsRead
  if overlapStart < overlapEnd then true
  else overlapStart == overlapEnd && !boundaryReuseAllowed policy

/-- Whether one register is too small for a segment: an iteration's value would still be needed when
the next iteration writes. -/
def fixedRegisterSelfOverlaps (segment : StorageSegment) (ii : ℕ)
    (policy : SameAddressReadWritePolicy) : Bool :=
  if ii = 0 ∨ segment.readTime ≤ segment.writeTime then true
  else if segment.readTime - segment.writeTime > ii then true
  else if segment.readTime - segment.writeTime < ii then false
  else !boundaryReuseAllowed policy

/-- Whether two segments may not share a register. -/
def periodicLifetimesConflict (lhs rhs : StorageSegment) (ii : ℕ)
    (policy : SameAddressReadWritePolicy) : Bool :=
  if ii = 0 ∨ lhs.readTime ≤ lhs.writeTime ∨ rhs.readTime ≤ rhs.writeTime then true
  else
    let lhsDuration := lhs.readTime - lhs.writeTime
    let rhsDuration := rhs.readTime - rhs.writeTime
    if lhsDuration > ii ∨ rhsDuration > ii then true
    else
      let lhsWrite : ℤ := (lhs.writeTime % ii : ℕ)
      let rhsWrite : ℤ := (rhs.writeTime % ii : ℕ)
      let lhsRead : ℤ := lhsWrite + lhsDuration
      let rhsRead : ℤ := rhsWrite + rhsDuration
      [-(ii : ℤ), 0, (ii : ℤ)].any fun shift ↦
        intervalsConflict lhsWrite lhsRead (rhsWrite + shift) (rhsRead + shift) policy

/-! ## The allocated mapping -/

structure PhysicalRegister where
  tile : TileCoord
  bank : String
  index : ℕ
  deriving DecidableEq, Repr

/-- The register of a segment and the ports it is accessed through. -/
structure StorageAllocation where
  segment : StorageSegmentId
  reg : PhysicalRegister
  readPort : ℕ
  writePort : ℕ
  /-- The port of the write that seeds a recurrence, when the seed is a constant. -/
  boundaryWritePort : Option ℕ
  deriving DecidableEq, Repr

/-- A staged mapping with its storage requirements and their registers. The constructor sorts the
allocations by segment and rejects a segment listed twice. -/
structure RFAllocatedMapping where
  staged : StagedMapping
  storageRequirements : StorageRequirements
  allocations : List StorageAllocation
  /-- The allocations are in the order of their segments, one per segment. -/
  sorted : (allocations.map StorageAllocation.segment).Pairwise (· < ·) := by decide

namespace RFAllocatedMapping

def allocationFor (mapping : RFAllocatedMapping) (segment : StorageSegmentId) :
    Option StorageAllocation :=
  mapping.allocations.find? fun allocation ↦ allocation.segment == segment

end RFAllocatedMapping

end PredicatedMesh
