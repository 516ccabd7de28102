import PredicatedMesh.RegisterAllocation.Soundness

/-!
# What the port check establishes

`RFAllocationVerifier.checkPorts` walks over the segments and keeps, for every bank of every tile
and every slot of the interval, the ports assigned so far. The invariant of the walk is that the
ports of all segments met are among them, so that the ports of two segments that write in one slot
differ, and likewise for reads. The port of a recurrence boundary takes no part in this: it is
looked at on its own, against the first of the values that seed the recurrence.
-/

namespace PredicatedMesh

open Scan RFAllocationVerifier

namespace RFAllocatedMapping

/-- What the check of one segment's ports establishes. -/
structure Ported (dfg : TargetDFG) (target : TargetModel) (mapping : RFAllocatedMapping)
    (segment : StorageSegment) (allocation : StorageAllocation) (bank : RegisterFileDesc)
    (source boundarySource : String) : Prop where
  entry : mapping.allocationFor segment.id = some allocation
  registerBank : target.registerBank segment.domain segment.tile.row segment.tile.col = some bank
  source_eq : storageWriteSource dfg target mapping.staged segment = .ok source
  boundarySource_eq : boundaryWriteSource dfg segment = .ok boundarySource
  readPort_lt : allocation.readPort < bank.readPorts
  writePort_lt : allocation.writePort < bank.writePorts
  accepts : portAccepts bank allocation.writePort source = true
  boundary : checkBoundaryPort bank segment allocation boundarySource = []

/-- Two segments of one bank that write in one slot have different write ports. -/
def WritePortsApart (mapping : RFAllocatedMapping) (lhs rhs : StorageSegment) : Prop :=
  ∀ lhsAllocation rhsAllocation, mapping.allocationFor lhs.id = some lhsAllocation →
    mapping.allocationFor rhs.id = some rhsAllocation → lhs.tile = rhs.tile →
    lhsAllocation.reg.bank = rhsAllocation.reg.bank →
    lhs.writeTime % mapping.storageRequirements.ii
      = rhs.writeTime % mapping.storageRequirements.ii →
    lhsAllocation.writePort ≠ rhsAllocation.writePort

theorem WritePortsApart.symm {mapping : RFAllocatedMapping} {lhs rhs : StorageSegment}
    (h : mapping.WritePortsApart lhs rhs) : mapping.WritePortsApart rhs lhs := by
  intro rhsAllocation lhsAllocation hrhs hlhs htile hbank hslot hport
  exact h lhsAllocation rhsAllocation hlhs hrhs htile.symm hbank.symm hslot.symm hport.symm

end RFAllocatedMapping

namespace RFAllocationVerifier

variable {dfg : TargetDFG} {target : TargetModel} {mapping : RFAllocatedMapping}

/-- The port a segment writes through is among the assignments of a state. -/
def Recorded (mapping : RFAllocatedMapping) (state : PortState) (segment : StorageSegment) : Prop :=
  ∀ allocation, mapping.allocationFor segment.id = some allocation →
    (⟨⟨segment.tile, allocation.reg.bank,
      segment.writeTime % mapping.storageRequirements.ii⟩, allocation.writePort⟩ : PortKey × ℕ)
      ∈ state.writeAssignments

/-- **One segment**: its ports are in range and accept its sources, its write port is new in its
slot, and the state remembers it. -/
theorem checkSegmentPorts_clean {state state' : PortState} {segment : StorageSegment}
    (h : checkSegmentPorts dfg target mapping state segment = .ok (state', [])) :
    (∃ allocation bank source boundarySource,
        mapping.Ported dfg target segment allocation bank source boundarySource) ∧
      (∀ other, Recorded mapping state other → mapping.WritePortsApart other segment) ∧
      (∀ other, Recorded mapping state other → Recorded mapping state' other) ∧
      Recorded mapping state' segment := by
  unfold checkSegmentPorts at h
  split at h
  · rename_i allocation bank hentry hbank
    split at h
    · cases h
    · cases h
    · rename_i source boundarySource hsource hboundarySource
      simp only [checkPortCapacity, Except.ok.injEq, Prod.mk.injEq, List.append_eq_nil_iff,
        require_eq_nil_iff, Bool.and_eq_true, decide_eq_true_eq, Bool.not_eq_true',
        List.contains_eq_mem, decide_eq_false_iff_not] at h
      obtain ⟨rfl, ⟨⟨⟨-, hread, -⟩, hwrite, hnew⟩, haccepts⟩, hboundary⟩ := h
      have hkeep : (countPorts mapping state bank segment allocation).writeAssignments
          = (⟨segment.tile, allocation.reg.bank,
              segment.writeTime % mapping.storageRequirements.ii⟩, allocation.writePort)
            :: state.writeAssignments := by
        rw [countPorts]
        exact if_pos hwrite
      refine ⟨⟨allocation, bank, source, boundarySource, hentry, hbank, hsource, hboundarySource,
        hread, hwrite, haccepts, hboundary⟩, ?_, ?_, ?_⟩
      · intro other hother otherAllocation allocation' hotherEntry hentry' htile hbankEq hslot hport
        obtain rfl : allocation = allocation' := Option.some.inj (hentry.symm.trans hentry')
        have hmem := hother otherAllocation hotherEntry
        rw [htile, hbankEq, hslot, hport] at hmem
        exact hnew hmem
      · intro other hother otherAllocation hotherEntry
        rw [hkeep]
        exact List.mem_cons_of_mem _ (hother otherAllocation hotherEntry)
      · intro allocation' hentry'
        obtain rfl : allocation = allocation' := Option.some.inj (hentry.symm.trans hentry')
        rw [hkeep]
        exact List.mem_cons_self
  · cases h

/-- **The walk**, from any state: what holds of each segment and of each pair. -/
theorem ports_of_loop {state state' : PortState} {segments : List StorageSegment}
    (h : loop (checkSegmentPorts dfg target mapping) state segments = .ok (state', [])) :
    (∀ segment ∈ segments, ∃ allocation bank source boundarySource,
        mapping.Ported dfg target segment allocation bank source boundarySource) ∧
      (∀ other, Recorded mapping state other →
        ∀ segment ∈ segments, mapping.WritePortsApart other segment) ∧
      segments.Pairwise mapping.WritePortsApart := by
  induction segments generalizing state with
  | nil => simp
  | cons segment segments ih =>
    obtain ⟨state₁, hsegment, hrest⟩ := loop_cons_clean_iff.mp h
    obtain ⟨hported, hnew, hkeep, hrecorded⟩ := checkSegmentPorts_clean hsegment
    obtain ⟨hall, hapart, hpairs⟩ := ih hrest
    refine ⟨List.forall_mem_cons.mpr ⟨hported, hall⟩, fun other hother ↦ ?_,
      List.pairwise_cons.mpr ⟨hapart segment hrecorded, hpairs⟩⟩
    exact List.forall_mem_cons.mpr ⟨hnew other hother, hapart other (hkeep other hother)⟩

/-- **The port check of an accepted allocation.** -/
theorem ports_of_verify (h : verify dfg target mapping = .ok []) :
    (∀ segment ∈ mapping.storageRequirements.segments, ∃ allocation bank source boundarySource,
        mapping.Ported dfg target segment allocation bank source boundarySource) ∧
      mapping.storageRequirements.segments.Pairwise mapping.WritePortsApart := by
  obtain ⟨-, -, -, haccesses⟩ := stages_of_verify h
  unfold checkAccesses at haccesses
  split at haccesses
  · cases haccesses
  · cases haccesses
  · rename_i ports pairs hports hpairs
    simp only [Except.ok.injEq, List.append_eq_nil_iff] at haccesses
    obtain ⟨⟨rfl, -⟩, -⟩ := haccesses
    obtain ⟨⟨state, report⟩, hloop, rfl⟩ := map_eq_ok.mp hports
    obtain ⟨hported, -, hpairs⟩ := ports_of_loop hloop
    exact ⟨hported, hpairs⟩

end RFAllocationVerifier

namespace RFAllocatedMapping

variable {dfg : TargetDFG} {target : TargetModel} {mapping : RFAllocatedMapping}
variable {segment : StorageSegment} {allocation : StorageAllocation} {bank : RegisterFileDesc}
variable {source boundarySource : String}

/-! ## The boundary port -/

/-- Where there is a source for the first seed, the boundary port is one that accepts it. -/
theorem Ported.boundaryPort (h : mapping.Ported dfg target segment allocation bank source
    boundarySource) (hsource : boundarySource ≠ "") :
    ∃ port, allocation.boundaryWritePort = some port ∧ port < bank.writePorts ∧
      portAccepts bank port boundarySource = true := by
  have hboundary := h.boundary
  rw [checkBoundaryPort, if_pos hsource] at hboundary
  split at hboundary
  · rename_i port hport
    split at hboundary
    · cases hboundary
    · rename_i hlt
      exact ⟨port, hport, by omega, by simpa using hboundary⟩
  · cases hboundary

/-- Where there is none, there is no boundary port. -/
theorem Ported.boundaryPort_eq_none (h : mapping.Ported dfg target segment allocation bank source
    boundarySource) (hsource : boundarySource = "") : allocation.boundaryWritePort = none := by
  have hboundary := h.boundary
  rw [checkBoundaryPort, if_neg (not_not.mpr hsource)] at hboundary
  simpa using hboundary

end RFAllocatedMapping

end PredicatedMesh
