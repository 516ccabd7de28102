import PredicatedMesh.RegisterAllocation.Verifier

/-!
# Soundness of the register-allocation verifier

Instance `(s, k)` of a segment writes the register of `s` at `writeTime + k * ii` and reads it at
`readTime + k * ii`. The verifier has compared each segment with its own next iteration and, at
three shifts, with every other segment of its register. By `Periodic.apart_of_shifts` and
`Periodic.apart_self` any two different instances on one register are then apart: one has been read
before the other is written, and strictly before if the bank forbids reading and writing a register
in one cycle.
-/

namespace PredicatedMesh

open Scan Periodic

/-! ## What the lifetime comparisons say -/

/-- The cycles a bank needs between the last use of a register and its next write. -/
def reuseGap (policy : SameAddressReadWritePolicy) : ℤ :=
  if boundaryReuseAllowed policy then 0 else 1

theorem reuseGap_nonneg (policy : SameAddressReadWritePolicy) : 0 ≤ reuseGap policy := by
  unfold reuseGap
  split <;> omega

theorem reuseGap_le_one (policy : SameAddressReadWritePolicy) : reuseGap policy ≤ 1 := by
  unfold reuseGap
  split <;> omega

theorem reuseGap_eq_one {policy : SameAddressReadWritePolicy} (h : policy ≠ .readOldThenWriteNew) :
    reuseGap policy = 1 := by
  simp [reuseGap, boundaryReuseAllowed, h]

theorem apart_of_intervalsConflict_eq_false {w r w' r' : ℤ} {policy : SameAddressReadWritePolicy}
    (hlt : w < r) (hlt' : w' < r') (h : intervalsConflict w r w' r' policy = false) :
    Apart (reuseGap policy) w r w' r' := by
  unfold intervalsConflict at h
  unfold Apart reuseGap
  cases hreuse : boundaryReuseAllowed policy
  · simp only [hreuse, Bool.not_false, Bool.and_true] at h
    split at h
    · cases h
    · have hne : max w w' ≠ min r r' := by simpa using h
      simp only [Bool.false_eq_true, if_false]
      omega
  · have hle : ¬ max w w' < min r r' := fun hc ↦ by simp [hc] at h
    simp only [if_true]
    omega

/-- A segment that fits one register is alive for at most one interval, less the gap. -/
theorem fixedRegisterSelfOverlaps_eq_false {segment : StorageSegment} {ii : ℕ}
    {policy : SameAddressReadWritePolicy}
    (h : fixedRegisterSelfOverlaps segment ii policy = false) :
    0 < ii ∧ segment.writeTime < segment.readTime ∧
      (segment.readTime : ℤ) - segment.writeTime + reuseGap policy ≤ ii := by
  unfold fixedRegisterSelfOverlaps at h
  have hgap := reuseGap_le_one policy
  split at h
  · cases h
  · rename_i hpos
    refine ⟨by omega, by omega, ?_⟩
    split at h
    · cases h
    · split at h
      · omega
      · have hreuse : reuseGap policy = 0 := by
          rw [reuseGap, if_pos (by simpa using h)]
        omega

/-- Segments that may share a register are apart at the three shifts. -/
theorem periodicLifetimesConflict_eq_false {lhs rhs : StorageSegment} {ii : ℕ}
    {policy : SameAddressReadWritePolicy} (h : periodicLifetimesConflict lhs rhs ii policy = false)
    (k : ℤ) : Apart (reuseGap policy) lhs.writeTime lhs.readTime (rhs.writeTime + k * ii)
      (rhs.readTime + k * ii) := by
  unfold periodicLifetimesConflict at h
  split at h
  · cases h
  · rename_i hpos
    simp only at h
    split at h
    · cases h
    · rename_i hlen
      simp only [List.any_eq_false, List.mem_cons, List.not_mem_nil, or_false,
        Bool.not_eq_true] at h
      have hshifts : Apart (reuseGap policy) lhs.writeTime
          (lhs.writeTime + (lhs.readTime - lhs.writeTime : ℤ)) (rhs.writeTime + k * ii)
          (rhs.writeTime + (rhs.readTime - rhs.writeTime : ℤ) + k * ii) := by
        refine apart_of_shifts (by omega) (reuseGap_le_one policy) (by omega) (by omega) ?_ k
        intro s hs
        have hconflict := h (s * ii) (by rcases hs with rfl | rfl | rfl <;> simp)
        have hsub : ((lhs.readTime - lhs.writeTime : ℕ) : ℤ) = lhs.readTime - lhs.writeTime := by
          omega
        have hsub' : ((rhs.readTime - rhs.writeTime : ℕ) : ℤ) = rhs.readTime - rhs.writeTime := by
          omega
        rw [hsub, hsub'] at hconflict
        push_cast at hconflict
        exact apart_of_intervalsConflict_eq_false (by omega) (by omega) hconflict
      rwa [add_sub_cancel, add_sub_cancel] at hshifts

/-! ## What the verifier accepts -/

namespace RFAllocatedMapping

/-- The register of a segment, and that it fits there. -/
structure Held (target : TargetModel) (mapping : RFAllocatedMapping) (segment : StorageSegment)
    (allocation : StorageAllocation) (bank : RegisterFileDesc) : Prop where
  entry : mapping.allocationFor segment.id = some allocation
  registerBank : target.registerBank segment.domain segment.tile.row segment.tile.col = some bank
  tile : allocation.reg.tile = segment.tile
  bankId : allocation.reg.bank = bank.id
  allocates : bank.allocates allocation.reg.index = true
  fits : fixedRegisterSelfOverlaps segment mapping.storageRequirements.ii
    bank.sameAddressReadWritePolicy = false

/-- Two segments that share a register never need it at once. -/
def Compatible (target : TargetModel) (mapping : RFAllocatedMapping) (lhs rhs : StorageSegment) :
    Prop :=
  ∀ lhsAllocation rhsAllocation bank, mapping.allocationFor lhs.id = some lhsAllocation →
    mapping.allocationFor rhs.id = some rhsAllocation → lhsAllocation.reg = rhsAllocation.reg →
    target.registerBank lhs.domain lhs.tile.row lhs.tile.col = some bank →
    periodicLifetimesConflict lhs rhs mapping.storageRequirements.ii
      bank.sameAddressReadWritePolicy = false

structure Verified (dfg : TargetDFG) (target : TargetModel) (mapping : RFAllocatedMapping) :
    Prop where
  staged : mapping.staged.Verified dfg target
  requirements : StorageRequirementAnalysis.analyze dfg target mapping.staged
    = .ok (.ok mapping.storageRequirements)
  held : ∀ segment ∈ mapping.storageRequirements.segments, ∃ allocation bank,
    mapping.Held target segment allocation bank
  compatible : mapping.storageRequirements.segments.Pairwise (mapping.Compatible target)

end RFAllocatedMapping

namespace RFAllocationVerifier

variable {dfg : TargetDFG} {target : TargetModel} {mapping : RFAllocatedMapping}

theorem held_of_checkSegmentBank {segment : StorageSegment} {allocation : StorageAllocation}
    (hentry : mapping.allocationFor segment.id = some allocation)
    (h : checkSegmentBank target mapping segment allocation = []) :
    ∃ bank, mapping.Held target segment allocation bank := by
  unfold checkSegmentBank at h
  split at h
  · cases h
  · rename_i bank hbank
    simp only [List.append_eq_nil_iff, require_eq_nil_iff, Bool.and_eq_true, beq_iff_eq,
      Bool.not_eq_true'] at h
    obtain ⟨⟨⟨⟨htile, hid⟩, -⟩, hindex⟩, hfits⟩ := h
    exact ⟨bank, hentry, hbank, htile, hid, hindex, hfits⟩

theorem compatible_of_checkSegmentPair {lhs rhs : StorageSegment}
    (h : checkSegmentPair target mapping lhs rhs = .ok []) : mapping.Compatible target lhs rhs := by
  intro lhsAllocation rhsAllocation bank hlhs hrhs hreg hbank
  rw [checkSegmentPair, hlhs, hrhs] at h
  simp only [hreg, ne_eq, not_true_eq_false, if_false, hbank, Except.ok.injEq, require_eq_nil_iff,
    Bool.not_eq_true'] at h
  exact h

theorem pairwise_of_checkSegmentPairs {segments : List StorageSegment}
    (h : checkSegmentPairs target mapping segments = .ok []) :
    segments.Pairwise (mapping.Compatible target) := by
  induction segments with
  | nil => exact List.Pairwise.nil
  | cons lhs segments ih =>
    rw [checkSegmentPairs] at h
    split at h
    · cases h
    · rename_i report hreport
      split at h
      · cases h
      · rename_i later hlater
        rw [Except.ok.injEq, List.append_eq_nil_iff] at h
        obtain ⟨rfl, rfl⟩ := h
        refine List.Pairwise.cons (fun rhs hrhs ↦ ?_) (ih hlater)
        exact compatible_of_checkSegmentPair (each_clean_iff.mp hreport rhs hrhs)

/-- The stages of an accepting run. -/
theorem stages_of_verify (h : verify dfg target mapping = .ok []) :
    mapping.staged.Verified dfg target ∧
      StorageRequirementAnalysis.analyze dfg target mapping.staged
        = .ok (.ok mapping.storageRequirements) ∧
      checkSegmentBanks target mapping = .ok [] ∧ checkAccesses dfg target mapping = .ok [] := by
  simp only [verify, stage_eq_ok_nil_iff, require_eq_nil_iff] at h
  obtain ⟨-, h⟩ := h
  split at h
  · cases h
  rename_i stageReport hstage
  simp only [stage_eq_ok_nil_iff, require_eq_nil_iff, List.isEmpty_iff] at h
  obtain ⟨rfl, h⟩ := h
  split at h
  · cases h
  · simp at h
  rename_i requirements hrequirements
  simp only [stage_eq_ok_nil_iff, require_eq_nil_iff, beq_iff_eq] at h
  obtain ⟨rfl, -, h⟩ := h
  split at h
  · cases h
  rename_i bankReport hbanks
  rw [stage_eq_ok_nil_iff] at h
  obtain ⟨rfl, haccesses⟩ := h
  exact ⟨StageAssignmentVerifier.verified_of_verify hstage, hrequirements, hbanks, haccesses⟩

theorem verified_of_verify (h : verify dfg target mapping = .ok []) :
    mapping.Verified dfg target := by
  obtain ⟨hstaged, hrequirements, hbanks, haccesses⟩ := stages_of_verify h
  refine ⟨hstaged, hrequirements, ?_, ?_⟩
  · intro segment hsegment
    have hbody := each_clean_iff.mp hbanks segment hsegment
    split at hbody
    · cases hbody
    · rename_i allocation hentry
      exact ⟨allocation, held_of_checkSegmentBank hentry (Except.ok.inj hbody)⟩
  · unfold checkAccesses at haccesses
    split at haccesses
    · cases haccesses
    · cases haccesses
    · rename_i ports pairs hports hpairs
      simp only [Except.ok.injEq, List.append_eq_nil_iff] at haccesses
      obtain ⟨-, rfl⟩ := haccesses
      exact pairwise_of_checkSegmentPairs hpairs

end RFAllocationVerifier

/-! ## The periodic execution -/

namespace RFAllocatedMapping

variable {dfg : TargetDFG} {target : TargetModel} {mapping : RFAllocatedMapping}

/-- An iteration of a segment; segments are told apart by their position. -/
abbrev Instance (mapping : RFAllocatedMapping) : Type :=
  Fin mapping.storageRequirements.segments.length × ℤ

def segmentOf (mapping : RFAllocatedMapping) (x : mapping.Instance) : StorageSegment :=
  mapping.storageRequirements.segments.get x.1

def writeCycle (mapping : RFAllocatedMapping) (x : mapping.Instance) : ℤ :=
  (mapping.segmentOf x).writeTime + x.2 * mapping.storageRequirements.ii

def readCycle (mapping : RFAllocatedMapping) (x : mapping.Instance) : ℤ :=
  (mapping.segmentOf x).readTime + x.2 * mapping.storageRequirements.ii

/-- The register allocated to an instance's segment. -/
def register (mapping : RFAllocatedMapping) (x : mapping.Instance) : Option PhysicalRegister :=
  (mapping.allocationFor (mapping.segmentOf x).id).map StorageAllocation.reg

/-- The bank an instance's register is in. -/
def bankOf (mapping : RFAllocatedMapping) (target : TargetModel) (x : mapping.Instance) :
    Option RegisterFileDesc :=
  target.registerBank (mapping.segmentOf x).domain (mapping.segmentOf x).tile.row
    (mapping.segmentOf x).tile.col

theorem segmentOf_mem (x : mapping.Instance) :
    mapping.segmentOf x ∈ mapping.storageRequirements.segments :=
  List.get_mem _ _

/-- Segments that share a register are in one bank. -/
theorem Held.bank_eq {lhs rhs : StorageSegment} {lhsAllocation rhsAllocation : StorageAllocation}
    {bank bank' : RegisterFileDesc} (h : mapping.Held target lhs lhsAllocation bank)
    (h' : mapping.Held target rhs rhsAllocation bank')
    (hreg : lhsAllocation.reg = rhsAllocation.reg) : bank = bank' := by
  have hbank := target.registerBank_eq_some h.registerBank
  have hbank' := target.registerBank_eq_some h'.registerBank
  have hid : bank.id = bank'.id := by rw [← h.bankId, ← h'.bankId, hreg]
  rw [hbank, hbank'] at hid ⊢
  rw [target.bankDesc_id_injective hid]

namespace Verified

/-- **Different instances on one register are apart.** -/
theorem apart (h : mapping.Verified dfg target) {x y : mapping.Instance}
    {bank : RegisterFileDesc} (hbank : mapping.bankOf target x = some bank)
    (hreg : mapping.register x = mapping.register y) (hne : x ≠ y) :
    Apart (reuseGap bank.sameAddressReadWritePolicy) (mapping.writeCycle x) (mapping.readCycle x)
      (mapping.writeCycle y) (mapping.readCycle y) := by
  obtain ⟨ax, bankx, hx⟩ := h.held _ (segmentOf_mem x)
  obtain ⟨ay, banky, hy⟩ := h.held _ (segmentOf_mem y)
  obtain rfl : bank = bankx := Option.some.inj (hbank.symm.trans hx.registerBank)
  have hshared : ax.reg = ay.reg := by
    simpa [register, hx.entry, hy.entry] using hreg
  obtain rfl := hx.bank_eq hy hshared
  unfold writeCycle readCycle
  rcases lt_trichotomy x.1 y.1 with hlt | heq | hgt
  · have hpair := List.pairwise_iff_get.mp h.compatible x.1 y.1 hlt ax ay _ hx.entry hy.entry
      hshared hx.registerBank
    exact (periodicLifetimesConflict_eq_false hpair (y.2 - x.2)).of_sub
  · -- two iterations of one segment
    have hk : y.2 - x.2 ≠ 0 := fun hk ↦ hne (Prod.ext heq (by omega))
    have hseg : mapping.segmentOf y = mapping.segmentOf x := by rw [segmentOf, segmentOf, heq]
    obtain ⟨hpos, -, hfits⟩ := fixedRegisterSelfOverlaps_eq_false hx.fits
    have hself := apart_self (w := (mapping.segmentOf x).writeTime) (by omega) hfits hk
    rw [add_sub_cancel] at hself
    rw [hseg]
    exact hself.of_sub
  · have hpair := List.pairwise_iff_get.mp h.compatible y.1 x.1 hgt ay ax _ hy.entry hx.entry
      hshared.symm hy.registerBank
    exact (periodicLifetimesConflict_eq_false hpair (x.2 - y.2)).of_sub.symm

theorem writeCycle_lt_readCycle (h : mapping.Verified dfg target) (x : mapping.Instance) :
    mapping.writeCycle x < mapping.readCycle x := by
  obtain ⟨allocation, bank, hx⟩ := h.held _ (segmentOf_mem x)
  obtain ⟨-, hlt, -⟩ := fixedRegisterSelfOverlaps_eq_false hx.fits
  unfold writeCycle readCycle
  omega

theorem exists_bankOf (h : mapping.Verified dfg target) (x : mapping.Instance) :
    ∃ bank, mapping.bankOf target x = some bank := by
  obtain ⟨allocation, bank, hx⟩ := h.held _ (segmentOf_mem x)
  exact ⟨bank, hx.registerBank⟩

/-- **Nothing overwrites a live value.** -/
theorem eq_of_write_in_lifetime (h : mapping.Verified dfg target) {x y : mapping.Instance}
    (hreg : mapping.register x = mapping.register y)
    (hle : mapping.writeCycle x ≤ mapping.writeCycle y)
    (hlt : mapping.writeCycle y < mapping.readCycle x) : x = y := by
  by_contra hne
  obtain ⟨bank, hbank⟩ := h.exists_bankOf x
  have hy := h.writeCycle_lt_readCycle y
  rcases (h.apart hbank hreg hne).mono (reuseGap_nonneg _) with hapart | hapart <;> omega

/-- **A bank that forbids it never reads and writes a register at once.** -/
theorem readCycle_ne_writeCycle (h : mapping.Verified dfg target) {x y : mapping.Instance}
    {bank : RegisterFileDesc} (hbank : mapping.bankOf target x = some bank)
    (hpolicy : bank.sameAddressReadWritePolicy ≠ .readOldThenWriteNew)
    (hreg : mapping.register x = mapping.register y) :
    mapping.readCycle x ≠ mapping.writeCycle y := by
  intro heq
  have hx := h.writeCycle_lt_readCycle x
  have hy := h.writeCycle_lt_readCycle y
  by_cases hxy : x = y
  · rw [hxy] at heq hx
    omega
  · have hapart := h.apart hbank hreg hxy
    rw [reuseGap_eq_one hpolicy] at hapart
    rcases hapart with hapart | hapart <;> omega

end Verified

end RFAllocatedMapping

/-- **Register-file soundness.** Of an accepted allocation, every instance has a register; in every
behaviour of the registers under the instances' writes — and for any values there is one — each
instance reads back the value it wrote; nothing writes a register between an instance's write and
its read; no two instances write one register in one cycle; and a bank whose policy is not
read-old-then-write-new never has a register read and written in one cycle. -/
theorem RFAllocationVerifier.verify_sound (dfg : TargetDFG) (target : TargetModel)
    (mapping : RFAllocatedMapping)
    (h : accepts (RFAllocationVerifier.verify dfg target mapping) = true) :
    (∀ x : mapping.Instance, (mapping.register x).isSome ∧ (mapping.bankOf target x).isSome) ∧
    (∀ (V : Type) [Nonempty V] (value : mapping.Instance → V),
      (∃ contents, IsTrace mapping.writeCycle mapping.register value contents) ∧
      ∀ contents, IsTrace mapping.writeCycle mapping.register value contents →
        ∀ x, contents (mapping.readCycle x) (mapping.register x) = value x) ∧
    (∀ x y : mapping.Instance, mapping.register x = mapping.register y →
      mapping.writeCycle x ≤ mapping.writeCycle y → mapping.writeCycle y < mapping.readCycle x →
      x = y) ∧
    (∀ x y : mapping.Instance, mapping.register x = mapping.register y →
      mapping.writeCycle x = mapping.writeCycle y → x = y) ∧
    ∀ (x y : mapping.Instance) (bank : RegisterFileDesc), mapping.bankOf target x = some bank →
      bank.sameAddressReadWritePolicy ≠ .readOldThenWriteNew →
      mapping.register x = mapping.register y → mapping.readCycle x ≠ mapping.writeCycle y := by
  have hv := verified_of_verify ((accepts_iff _).mp h)
  refine ⟨fun x ↦ ?_, fun V _ value ↦ ⟨exists_isTrace _ _ _, fun contents htrace x ↦ ?_⟩, ?_, ?_,
    ?_⟩
  · obtain ⟨allocation, bank, hx⟩ := hv.held _ (RFAllocatedMapping.segmentOf_mem x)
    exact ⟨by simp [RFAllocatedMapping.register, hx.entry],
      by simp [RFAllocatedMapping.bankOf, hx.registerBank]⟩
  · refine htrace.read_eq (hv.writeCycle_lt_readCycle x) fun y hreg hle hlt ↦ ?_
    exact (hv.eq_of_write_in_lifetime hreg.symm hle hlt).symm
  · exact fun x y hreg hle hlt ↦ hv.eq_of_write_in_lifetime hreg hle hlt
  · intro x y hreg hwrite
    exact hv.eq_of_write_in_lifetime hreg hwrite.le (hwrite ▸ hv.writeCycle_lt_readCycle x)
  · exact fun x y bank hbank hpolicy hreg ↦ hv.readCycle_ne_writeCycle hbank hpolicy hreg

/-! ### The delay line's register

The value of the delay line arrives a cycle before it is used and waits in a register of the
consumer's tile. -/

def delayLineAllocated : RFAllocatedMapping where
  staged := delayLineStaged
  storageRequirements := ⟨2, [⟨0, 0, ⟨0, 2⟩, .data, 2, 3, [⟨.terminalSlack, 0, none⟩]⟩]⟩
  allocations := [⟨0, ⟨⟨0, 2⟩, "data_rf", 0⟩, 0, 1, some 1⟩]

theorem delayLineAllocated_accepted :
    accepts (RFAllocationVerifier.verify delayLineDFG shippedTarget delayLineAllocated) = true := by
  decide +kernel

/-! ### Two values for one sum

A sum takes one operand from its own tile and one from the tile to the east, both from the previous
iteration. The two values wait in one bank, in registers of their own. -/

/-- A node that adds its operands. -/
def addNode (id : TargetNodeId) : TargetNode where
  id := id
  operation := "ADD"
  executionClass := .fu
  resultType := ValueType.integer 32
  operandTypes := [ValueType.integer 32, ValueType.integer 32]
  issueOccupancy := 1
  resultLatency := some 1
  genericOrigins := [id]
  producerOutputReadyOffset := some 0
  accessWidthBits := none

def seededSumDFG : TargetDFG where
  name := "seeded_sum"
  targetName := "cgra_v3_shared4p"
  nodes := [addNode 0, addNode 1, addNode 2]
  edges :=
    [⟨0, 0, 2, 1, .data 0 (some ⟨[⟨0, .constantRef 0⟩]⟩)⟩,
      ⟨1, 1, 2, 1, .data 1 (some ⟨[⟨0, .constantRef 1⟩]⟩)⟩]
  externalValues := []
  constants := [⟨0, ValueType.integer 32, 7⟩, ⟨1, ValueType.integer 32, 9⟩]
  liveOuts := []
  operandBindings :=
    [⟨0, 0, .constantRef 0⟩, ⟨0, 1, .constantRef 0⟩, ⟨1, 0, .constantRef 0⟩, ⟨1, 1, .constantRef 0⟩]
  incomingEdges := [[], [], [0, 1]]
  outgoingEdges := [[0], [1], []]

def seededSumAllocated : RFAllocatedMapping where
  staged :=
    { modulo :=
        { targetName := "cgra_v3_shared4p"
          ii := 2
          placements := [⟨0, ⟨0, 0⟩, 1⟩, ⟨1, ⟨0, 1⟩, 0⟩, ⟨2, ⟨0, 0⟩, 0⟩]
          dependences :=
            [⟨0, .data, 1, some
                { edge := 0
                  domain := .data
                  actions := [.virtualHold ⟨.data, ⟨0, 0⟩, 0, 1⟩]
                  requiredSeparationCycles := 1 }⟩,
              ⟨1, .data, 1, some
                { edge := 1
                  domain := .data
                  actions := [.linkStep ⟨.data, ⟨0, 1⟩, .west, 0⟩]
                  requiredSeparationCycles := 1 }⟩] }
      stages := [⟨0, 0⟩, ⟨1, 0⟩, ⟨2, 0⟩] }
  storageRequirements :=
    ⟨2, [⟨0, 0, ⟨0, 0⟩, .data, 1, 2, [⟨.explicitVirtualHold, 0, some 0⟩]⟩,
      ⟨1, 1, ⟨0, 0⟩, .data, 1, 2, [⟨.terminalSlack, 1, none⟩]⟩]⟩
  allocations :=
    [⟨0, ⟨⟨0, 0⟩, "data_rf", 0⟩, 0, 0, some 1⟩, ⟨1, ⟨⟨0, 0⟩, "data_rf", 1⟩, 1, 1, some 1⟩]

theorem seededSumAllocated_accepted :
    RFAllocationVerifier.verify seededSumDFG shippedTarget seededSumAllocated = .ok [] := by
  decide +kernel

/-- In every behaviour of the registers both operands of the sum are read back. -/
theorem seededSum_reads_back :
    accepts (RFAllocationVerifier.verify seededSumDFG shippedTarget seededSumAllocated) = true ∧
      ∀ (value : seededSumAllocated.Instance → ℕ) contents,
        IsTrace seededSumAllocated.writeCycle seededSumAllocated.register value contents →
        ∀ k : ℤ, contents (2 + k * 2) (some ⟨⟨0, 0⟩, "data_rf", 0⟩) = value (⟨0, by decide⟩, k) ∧
          contents (2 + k * 2) (some ⟨⟨0, 0⟩, "data_rf", 1⟩) = value (⟨1, by decide⟩, k) := by
  have haccepted := (accepts_iff _).mpr seededSumAllocated_accepted
  refine ⟨haccepted, fun value contents htrace k ↦ ?_⟩
  have hread := ((RFAllocationVerifier.verify_sound _ _ _ haccepted).2.1 ℕ value).2 contents htrace
  exact ⟨hread (⟨0, by decide⟩, k), hread (⟨1, by decide⟩, k)⟩

end PredicatedMesh
