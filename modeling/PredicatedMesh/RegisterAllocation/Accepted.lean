import PredicatedMesh.RegisterAllocation.Exactness

/-!
# What the allocator builds is accepted

Once every segment has a register and ports, nothing can go wrong any more. `Decided` is what the
colouring and the three matchings have established, as one allocation for each segment; from it
follow, check by check, the allocator's own look at the registers and the whole of the verifier. The
register checks compare slots, and the colouring has compared lifetimes: two segments whose accesses
fall into one slot of a register would meet at some shift of the interval.
-/

namespace PredicatedMesh

open Scan Periodic

/-! ## Slots of segments that may share a register -/

theorem exists_shift_of_mod_eq {a b n : ℕ} (h : a % n = b % n) : ∃ k : ℤ, (a : ℤ) = b + k * n := by
  refine ⟨(a / n : ℕ) - (b / n : ℕ), ?_⟩
  have ha : (a : ℤ) = n * (a / n : ℕ) + (a % n : ℕ) := by exact_mod_cast (Nat.div_add_mod a n).symm
  have hb : (b : ℤ) = n * (b / n : ℕ) + (b % n : ℕ) := by exact_mod_cast (Nat.div_add_mod b n).symm
  rw [ha, hb, h]
  ring

section Slots

variable {lhs rhs : StorageSegment} {ii : ℕ} {policy : SameAddressReadWritePolicy}

theorem writeTime_mod_ne (hlhs : lhs.writeTime < lhs.readTime) (hrhs : rhs.writeTime < rhs.readTime)
    (h : periodicLifetimesConflict lhs rhs ii policy = false) :
    lhs.writeTime % ii ≠ rhs.writeTime % ii := by
  intro hmod
  obtain ⟨k, hk⟩ := exists_shift_of_mod_eq hmod
  have hgap := reuseGap_nonneg policy
  rcases periodicLifetimesConflict_eq_false h k with hapart | hapart <;> omega

theorem readTime_mod_ne_writeTime_mod (hlhs : lhs.writeTime < lhs.readTime)
    (hrhs : rhs.writeTime < rhs.readTime) (hpolicy : policy ≠ .readOldThenWriteNew)
    (h : periodicLifetimesConflict lhs rhs ii policy = false) :
    lhs.readTime % ii ≠ rhs.writeTime % ii := by
  intro hmod
  obtain ⟨k, hk⟩ := exists_shift_of_mod_eq hmod
  have hgap := reuseGap_eq_one hpolicy
  rcases periodicLifetimesConflict_eq_false h k with hapart | hapart <;> omega

theorem readTime_mod_ne_self {segment : StorageSegment} (hpolicy : policy ≠ .readOldThenWriteNew)
    (h : fixedRegisterSelfOverlaps segment ii policy = false) :
    segment.readTime % ii ≠ segment.writeTime % ii := by
  obtain ⟨hpos, hlt, hfits⟩ := fixedRegisterSelfOverlaps_eq_false h
  rw [reuseGap_eq_one hpolicy] at hfits
  intro hmod
  have hdvd : ii ∣ segment.readTime - segment.writeTime :=
    (Nat.modEq_iff_dvd' hlt.le).mp (Nat.ModEq.symm hmod)
  have hle := Nat.le_of_dvd (by omega) hdvd
  omega

end Slots

namespace RFAllocator

open RFAllocationVerifier

/-- What has been decided for the segments: the allocation of each. -/
structure Decided (dfg : TargetDFG) (target : TargetModel) (mapping : StagedMapping)
    (requirements : StorageRequirements) (allocation : StorageSegment → StorageAllocation) :
    Prop where
  segment_eq : ∀ s, (allocation s).segment = s.id
  tile_eq : ∀ s, (allocation s).reg.tile = s.tile
  bank_eq : ∀ s, (allocation s).reg.bank = (target.bankDesc s.domain).id
  proper : ∀ tile domain, requirements.ProperRegisters target tile domain fun s ↦
    (allocation s).reg.index
  readPort_lt : ∀ s ∈ requirements.segments,
    (allocation s).readPort < (target.bankDesc s.domain).readPorts
  writePort_lt : ∀ s ∈ requirements.segments,
    (allocation s).writePort < (target.bankDesc s.domain).writePorts
  accepted : ∀ s ∈ requirements.segments, ∃ source,
    storageWriteSource dfg target mapping s = .ok source ∧
      portAccepts (target.bankDesc s.domain) (allocation s).writePort source = true
  boundary : ∀ s ∈ requirements.segments, ∃ source, boundaryWriteSource dfg s = .ok source ∧
    checkBoundaryPort (target.bankDesc s.domain) s (allocation s) source = []
  readsApart : ∀ s ∈ requirements.segments, ∀ t ∈ requirements.segments, s.tile = t.tile →
    s.domain = t.domain → s.readTime % requirements.ii = t.readTime % requirements.ii →
    (allocation s).readPort = (allocation t).readPort → s = t
  writesApart : ∀ s ∈ requirements.segments, ∀ t ∈ requirements.segments, s.tile = t.tile →
    s.domain = t.domain → s.writeTime % requirements.ii = t.writeTime % requirements.ii →
    (allocation s).writePort = (allocation t).writePort → s = t

section Registers

variable {dfg : TargetDFG} {target : TargetModel} {mapping : StagedMapping}
variable {requirements : StorageRequirements} {allocation : StorageSegment → StorageAllocation}

theorem Decided.bank_of_reg (h : Decided dfg target mapping requirements allocation)
    {s t : StorageSegment} (hreg : (allocation s).reg = (allocation t).reg) :
    s.tile = t.tile ∧ s.domain = t.domain := by
  refine ⟨?_, target.bankDesc_id_injective ?_⟩
  · rw [← h.tile_eq, ← h.tile_eq, hreg]
  · rw [← h.bank_eq, ← h.bank_eq, hreg]

/-- Segments that share a register do not conflict. -/
theorem Decided.compatible (h : Decided dfg target mapping requirements allocation)
    {s t : StorageSegment} (hs : s ∈ requirements.segments) (ht : t ∈ requirements.segments)
    (hne : s ≠ t) (hreg : (allocation s).reg = (allocation t).reg) :
    periodicLifetimesConflict s t requirements.ii
      (target.bankDesc s.domain).sameAddressReadWritePolicy = false := by
  obtain ⟨htile, hdomain⟩ := h.bank_of_reg hreg
  by_contra hconflict
  refine (h.proper s.tile s.domain).apart s (StorageRequirements.mem_inBank.mpr ⟨hs, rfl, rfl⟩) t
    (StorageRequirements.mem_inBank.mpr ⟨ht, htile.symm, hdomain.symm⟩) hne
    (by simpa using hconflict)
    ?_
  rw [hreg]

/-- A register at the slot of an access. -/
def eventKey (ii : ℕ) (time : StorageSegment → ℕ) (allocation : StorageSegment → StorageAllocation)
    (segment : StorageSegment) : RegisterEventKey :=
  ⟨(allocation segment).reg, time segment % ii⟩

variable (hlimits : requirements.WithinLimits target)
include hlimits

/-- No register is written twice in a slot. -/
theorem Decided.nodup_writes (h : Decided dfg target mapping requirements allocation)
    (hids : (requirements.segments.map StorageSegment.id).Nodup) :
    (requirements.segments.map
      (eventKey requirements.ii StorageSegment.writeTime allocation)).Nodup := by
  refine List.Nodup.map_on (fun s hs t ht heq ↦ ?_) (.of_map _ hids)
  by_contra hne
  have hreg : (allocation s).reg = (allocation t).reg := congrArg RegisterEventKey.reg heq
  have hslot : s.writeTime % requirements.ii = t.writeTime % requirements.ii :=
    congrArg RegisterEventKey.slot heq
  exact writeTime_mod_ne (fixedRegisterSelfOverlaps_eq_false (hlimits.fits s hs)).2.1
    (fixedRegisterSelfOverlaps_eq_false (hlimits.fits t ht)).2.1 (h.compatible hs ht hne hreg) hslot

/-- A register is read and written in one slot only where its bank allows it. -/
theorem Decided.policy_of_reads (h : Decided dfg target mapping requirements allocation)
    {s t : StorageSegment} (hs : s ∈ requirements.segments) (ht : t ∈ requirements.segments)
    (heq : eventKey requirements.ii StorageSegment.readTime allocation s
      = eventKey requirements.ii StorageSegment.writeTime allocation t) :
    (target.bankDesc s.domain).sameAddressReadWritePolicy = .readOldThenWriteNew := by
  by_contra hpolicy
  have hreg : (allocation s).reg = (allocation t).reg := congrArg RegisterEventKey.reg heq
  have hslot : s.readTime % requirements.ii = t.writeTime % requirements.ii :=
    congrArg RegisterEventKey.slot heq
  by_cases hst : s = t
  · subst hst
    exact readTime_mod_ne_self hpolicy (hlimits.fits s hs) hslot
  · exact readTime_mod_ne_writeTime_mod (fixedRegisterSelfOverlaps_eq_false (hlimits.fits s hs)).2.1
      (fixedRegisterSelfOverlaps_eq_false (hlimits.fits t ht)).2.1 hpolicy
      (h.compatible hs ht hst hreg) hslot

omit hlimits in
/-- The name of a bank gives back its domain. -/
theorem domain_of_bank (domain : RegisterBankDomain) :
    (if (target.bankDesc domain).id = target.predicateRF.id then RegisterBankDomain.predicate
      else .data) = domain := by
  rcases domain with _ | _
  · exact if_neg target.bank_ids_ne
  · exact if_pos rfl

/-- **The accesses of the registers**, as both the allocator and the verifier look at them. -/
theorem Decided.accesses (h : Decided dfg target mapping requirements allocation)
    (hids : (requirements.segments.map StorageSegment.id).Nodup) (key : RegisterEventKey) :
    (requirements.segments.map
        (eventKey requirements.ii StorageSegment.writeTime allocation)).count key ≤ 1 ∧
      ((requirements.segments.map
          (eventKey requirements.ii StorageSegment.readTime allocation)).count key ≠ 0 →
        (requirements.segments.map
          (eventKey requirements.ii StorageSegment.writeTime allocation)).count key ≠ 0 →
        ∀ bank, target.registerBank
            (if key.reg.bank = target.predicateRF.id then .predicate else .data)
            key.reg.tile.row key.reg.tile.col = some bank →
          bank.sameAddressReadWritePolicy = .readOldThenWriteNew) := by
  refine ⟨List.nodup_iff_count_le_one.mp (h.nodup_writes hlimits hids) key, fun hreads hwrites ↦ ?_⟩
  obtain ⟨s, hs, rfl⟩ := List.mem_map.mp (List.count_pos_iff.mp (Nat.pos_of_ne_zero hreads))
  obtain ⟨t, ht, heq⟩ := List.mem_map.mp (List.count_pos_iff.mp (Nat.pos_of_ne_zero hwrites))
  intro bank hbank
  have hname : (eventKey requirements.ii StorageSegment.readTime allocation s).reg.bank
      = (target.bankDesc s.domain).id := h.bank_eq s
  rw [hname, domain_of_bank] at hbank
  rw [target.registerBank_eq_some hbank]
  exact h.policy_of_reads hlimits hs ht heq.symm

end Registers

/-! ## The allocator's own check -/

section Built

variable {dfg : TargetDFG} {target : TargetModel} {mapping : StagedMapping}
variable {requirements : StorageRequirements} {allocation : StorageSegment → StorageAllocation}

theorem Decided.nodup_segments (h : Decided dfg target mapping requirements allocation)
    (hids : (requirements.segments.map StorageSegment.id).Nodup) :
    ((requirements.segments.map allocation).map StorageAllocation.segment).Nodup := by
  rw [List.map_map]
  exact (List.map_congr_left fun s _ ↦ (h.segment_eq s).symm) ▸ hids

/-- Looking a segment up among the allocations. -/
theorem Decided.find_allocation (h : Decided dfg target mapping requirements allocation)
    (hids : (requirements.segments.map StorageSegment.id).Nodup)
    {allocations : List StorageAllocation}
    (hperm : allocations.Perm (requirements.segments.map allocation)) {s : StorageSegment}
    (hs : s ∈ requirements.segments) :
    allocations.find? (fun a ↦ a.segment == s.id) = some (allocation s) := by
  have hnodup : (allocations.map StorageAllocation.segment).Nodup :=
    (hperm.map _).nodup_iff.mpr (h.nodup_segments hids)
  exact (find?_eq_some_iff_of_nodup hnodup).mpr
    ⟨hperm.mem_iff.mpr (List.mem_map_of_mem hs), h.segment_eq s⟩

/-- The accesses, where every segment is found. -/
theorem filterMap_eventKey {segments : List StorageSegment}
    {lookup : StorageSegment → Option StorageAllocation}
    (hlookup : ∀ s ∈ segments, lookup s = some (allocation s)) (ii : ℕ)
    (time : StorageSegment → ℕ) :
    (segments.filterMap fun s ↦ (lookup s).map fun a ↦ (⟨a.reg, time s % ii⟩ : RegisterEventKey))
      = segments.map (eventKey ii time allocation) := by
  refine (List.filterMap_congr fun s hs ↦ ?_).trans (congrFun List.filterMap_eq_map _)
  rw [hlookup s hs]
  rfl

theorem Decided.registerEvents_eq (h : Decided dfg target mapping requirements allocation)
    (hids : (requirements.segments.map StorageSegment.id).Nodup) (time : StorageSegment → ℕ) :
    registerEvents requirements.ii time (requirements.segments.map (banked target))
        (requirements.segments.map allocation)
      = requirements.segments.map (eventKey requirements.ii time allocation) := by
  rw [registerEvents, List.filterMap_map]
  exact filterMap_eventKey (fun s hs ↦ h.find_allocation hids (.refl _) hs) requirements.ii time

/-- **The allocator finds nothing wrong with the registers.** -/
theorem Decided.checkRegisters_eq_ok (h : Decided dfg target mapping requirements allocation)
    (hlimits : requirements.WithinLimits target)
    (hids : (requirements.segments.map StorageSegment.id).Nodup) :
    checkRegisters target requirements.ii (requirements.segments.map (banked target))
      (requirements.segments.map allocation) = .ok () := by
  rw [checkRegisters]
  simp only [h.registerEvents_eq hids]
  have hnone : ∀ keys : List RegisterEventKey, keys.findSome? (registerConflict target
      (requirements.segments.map (eventKey requirements.ii StorageSegment.writeTime allocation))
      (requirements.segments.map (eventKey requirements.ii StorageSegment.readTime allocation)))
        = none := by
    intro keys
    refine List.findSome?_eq_none_iff.mpr fun key _ ↦ ?_
    obtain ⟨hcount, hpolicy⟩ := h.accesses hlimits hids key
    rw [registerConflict]
    simp only
    rw [if_neg (by omega), if_neg ?_]
    rintro ⟨hreads, hwrites, hbank⟩
    obtain ⟨bank, hsome, hforbidden⟩ := (Option.any_eq_true _ _).mp hbank
    rw [hpolicy hreads hwrites bank hsome] at hforbidden
    cases hforbidden
  rw [hnone]

/-! ## The verifier -/

/-- The allocated mapping that holds the decisions. -/
structure Built (mapping : StagedMapping) (requirements : StorageRequirements)
    (allocation : StorageSegment → StorageAllocation) (allocated : RFAllocatedMapping) : Prop where
  staged_eq : allocated.staged = mapping
  requirements_eq : allocated.storageRequirements = requirements
  perm : allocated.allocations.Perm (requirements.segments.map allocation)

theorem Decided.exists_built (h : Decided dfg target mapping requirements allocation)
    (hids : (requirements.segments.map StorageSegment.id).Nodup) :
    ∃ allocated, RFAllocatedMapping.create mapping requirements
        (requirements.segments.map allocation) = .ok allocated ∧
      Built mapping requirements allocation allocated := by
  have hperm := List.perm_insertionSort (fun a b : StorageAllocation ↦ a.segment ≤ b.segment)
    (requirements.segments.map allocation)
  have hle := List.pairwise_insertionSort (fun a b : StorageAllocation ↦ a.segment ≤ b.segment)
    (requirements.segments.map allocation)
  have hnodup := (hperm.map StorageAllocation.segment).nodup_iff.mpr (h.nodup_segments hids)
  have hsorted : (((requirements.segments.map allocation).insertionSort
      fun a b ↦ a.segment ≤ b.segment).map StorageAllocation.segment).Pairwise (· < ·) := by
    rw [List.Nodup, List.pairwise_map] at hnodup
    rw [List.pairwise_map]
    exact (hle.and hnodup).imp fun hab ↦ lt_of_le_of_ne hab.1 hab.2
  exact ⟨_, dif_pos hsorted, rfl, rfl, hperm⟩

variable {allocated : RFAllocatedMapping}

theorem Built.allocationFor (hbuilt : Built mapping requirements allocation allocated)
    (h : Decided dfg target mapping requirements allocation)
    (hids : (requirements.segments.map StorageSegment.id).Nodup) {s : StorageSegment}
    (hs : s ∈ requirements.segments) : allocated.allocationFor s.id = some (allocation s) :=
  h.find_allocation hids hbuilt.perm hs

/-- Every allocation is of a segment, and every segment has one. -/
theorem Built.checkAllocations_eq_nil (hbuilt : Built mapping requirements allocation allocated)
    (h : Decided dfg target mapping requirements allocation)
    (hids : (requirements.segments.map StorageSegment.id).Nodup) :
    checkAllocations allocated ++ checkAllocated allocated = [] := by
  have hknown : ∀ a ∈ allocated.allocations, (allocated.storageRequirements.segments.any
      fun segment ↦ segment.id == a.segment) = true := by
    intro a ha
    obtain ⟨s, hs, rfl⟩ := List.mem_map.mp (hbuilt.perm.mem_iff.mp ha)
    rw [hbuilt.requirements_eq, List.any_eq_true]
    exact ⟨s, hs, by simp [h.segment_eq]⟩
  have hnodup : (allocated.allocations.map StorageAllocation.segment).Nodup :=
    (hbuilt.perm.map _).nodup_iff.mpr (h.nodup_segments hids)
  rw [List.append_eq_nil_iff, checkAllocations, checkAllocated, List.append_eq_nil_iff,
    List.map_eq_nil_iff, repeats_eq_nil_iff, List.flatMap_eq_nil_iff, List.flatMap_eq_nil_iff]
  refine ⟨⟨fun a ha ↦ ?_, ?_, by simp⟩, fun s hs ↦ ?_⟩
  · rw [require_eq_nil_iff]
    exact hknown a ha
  · exact hnodup.sublist (List.filter_sublist.map _)
  · rw [hbuilt.requirements_eq] at hs
    rw [require_eq_nil_iff, hbuilt.allocationFor h hids hs]
    rfl

variable (hanalyze : StorageRequirementAnalysis.analyze dfg target mapping
  = .ok (.ok requirements))
include hanalyze

/-- Every segment fits its register. -/
theorem Built.checkSegmentBanks_eq_ok (hbuilt : Built mapping requirements allocation allocated)
    (h : Decided dfg target mapping requirements allocation)
    (hlimits : requirements.WithinLimits target)
    (hdomain : ∀ domain, (target.bankDesc domain).domain = domain) :
    checkSegmentBanks target allocated = .ok [] := by
  have hids := StorageRequirementAnalysis.nodup_ids hanalyze
  refine each_clean_iff.mpr fun s hs ↦ ?_
  rw [hbuilt.requirements_eq] at hs
  obtain ⟨hbank, -⟩ := StorageRequirementAnalysis.bank_of_analyze hanalyze s hs
  have hmem := StorageRequirements.mem_inBank.mpr ⟨hs, rfl, rfl⟩
  have hindex := (h.proper s.tile s.domain).allocatable s hmem
  rw [hbuilt.allocationFor h hids hs]
  simp only [checkSegmentBank, hbank, h.tile_eq, h.bank_eq, hdomain, hbuilt.requirements_eq,
    hlimits.fits s hs, RegisterFileDesc.allocates]
  simp [require, hindex]

/-! ### Ports -/

omit hanalyze in
/-- A bank of a tile at the slot of an access. -/
def portKey (ii : ℕ) (time : StorageSegment → ℕ) (allocation : StorageSegment → StorageAllocation)
    (segment : StorageSegment) : PortKey :=
  ⟨segment.tile, (allocation segment).reg.bank, time segment % ii⟩

omit hanalyze in
theorem Decided.portKey_eq_iff (h : Decided dfg target mapping requirements allocation)
    {time : StorageSegment → ℕ} (lhs rhs : StorageSegment) :
    portKey requirements.ii time allocation lhs = portKey requirements.ii time allocation rhs ↔
      (lhs.tile = rhs.tile ∧ lhs.domain = rhs.domain) ∧
        time lhs % requirements.ii = time rhs % requirements.ii := by
  rw [portKey, portKey, PortKey.mk.injEq, h.bank_eq, h.bank_eq, and_assoc]
  have hdomain : (target.bankDesc lhs.domain).id = (target.bankDesc rhs.domain).id ↔
      lhs.domain = rhs.domain := ⟨fun heq ↦ target.bankDesc_id_injective heq, fun heq ↦ by rw [heq]⟩
  rw [hdomain]

/-- What the walk over the ports has met after the segments `done`. -/
def portsOf (ii : ℕ) (allocation : StorageSegment → StorageAllocation)
    (done : List StorageSegment) : PortState where
  reads := (done.map (portKey ii StorageSegment.readTime allocation)).reverse
  writes := (done.map (portKey ii StorageSegment.writeTime allocation)).reverse
  readAssignments := (done.map fun s ↦
    (portKey ii StorageSegment.readTime allocation s, (allocation s).readPort)).reverse
  writeAssignments := (done.map fun s ↦
    (portKey ii StorageSegment.writeTime allocation s, (allocation s).writePort)).reverse

/-- **One segment** has ports of its own that accept its sources. -/
theorem Built.checkSegmentPorts_eq_ok (hbuilt : Built mapping requirements allocation allocated)
    (h : Decided dfg target mapping requirements allocation)
    (hlimits : requirements.WithinLimits target) {done rest : List StorageSegment}
    {s : StorageSegment} (hsplit : requirements.segments = done ++ s :: rest) :
    checkSegmentPorts dfg target allocated (portsOf requirements.ii allocation done) s
      = .ok (portsOf requirements.ii allocation (done ++ [s]), []) := by
  have hids := StorageRequirementAnalysis.nodup_ids hanalyze
  have hs : s ∈ requirements.segments := by simp [hsplit]
  have hdone : ∀ t ∈ done, t ∈ requirements.segments ∧ t ≠ s := by
    intro t ht
    refine ⟨by rw [hsplit]; exact List.mem_append_left _ ht, ?_⟩
    rintro rfl
    have hnodup : requirements.segments.Nodup := .of_map _ hids
    rw [hsplit] at hnodup
    exact (List.nodup_append.mp hnodup).2.2 t ht t List.mem_cons_self rfl
  obtain ⟨hbank, -⟩ := StorageRequirementAnalysis.bank_of_analyze hanalyze s hs
  obtain ⟨source, hsource, haccepts⟩ := h.accepted s hs
  obtain ⟨boundarySource, hboundarySource, hboundary⟩ := h.boundary s hs
  -- the segments met so far and this one are among those of the slot
  have hcount : ∀ time : StorageSegment → ℕ,
      ((done.map (portKey requirements.ii time allocation)).count
          (portKey requirements.ii time allocation s)) + 1
        ≤ (requirements.inBank s.tile s.domain).countP fun other ↦
            time other % requirements.ii = time s % requirements.ii := by
    intro time
    calc (done.map (portKey requirements.ii time allocation)).count
          (portKey requirements.ii time allocation s) + 1
        ≤ (requirements.segments.map (portKey requirements.ii time allocation)).count
            (portKey requirements.ii time allocation s) := by
          rw [hsplit, List.map_append, List.count_append, List.map_cons, List.count_cons_self]
          omega
      _ = _ := count_keys h.portKey_eq_iff s
  have hread : ∀ t ∈ done, ¬ (portKey requirements.ii StorageSegment.readTime allocation t
        = portKey requirements.ii StorageSegment.readTime allocation s ∧
      (allocation t).readPort = (allocation s).readPort) := by
    rintro t ht ⟨hkey, hport⟩
    obtain ⟨⟨htile, hdomain⟩, hslot⟩ := (h.portKey_eq_iff t s).mp hkey
    exact (hdone t ht).2 (h.readsApart t (hdone t ht).1 s hs htile hdomain hslot hport)
  have hwrite : ∀ t ∈ done, ¬ (portKey requirements.ii StorageSegment.writeTime allocation t
        = portKey requirements.ii StorageSegment.writeTime allocation s ∧
      (allocation t).writePort = (allocation s).writePort) := by
    rintro t ht ⟨hkey, hport⟩
    obtain ⟨⟨htile, hdomain⟩, hslot⟩ := (h.portKey_eq_iff t s).mp hkey
    exact (hdone t ht).2 (h.writesApart t (hdone t ht).1 s hs htile hdomain hslot hport)
  rw [checkSegmentPorts, hbuilt.allocationFor h hids hs, hbank, hbuilt.staged_eq, hsource,
    hboundarySource]
  simp only
  have hstate : countPorts allocated (portsOf requirements.ii allocation done)
      (target.bankDesc s.domain) s (allocation s)
        = portsOf requirements.ii allocation (done ++ [s]) := by
    simp only [countPorts, portsOf, hbuilt.requirements_eq, h.readPort_lt s hs,
      h.writePort_lt s hs, if_true, List.map_append, List.map_singleton, List.reverse_append,
      List.reverse_singleton, List.singleton_append, portKey]
  have hcapacity : checkPortCapacity allocated (portsOf requirements.ii allocation done)
      (target.bankDesc s.domain) s (allocation s) = [] := by
    rw [checkPortCapacity]
    simp only [hbuilt.requirements_eq, List.append_eq_nil_iff, require_eq_nil_iff,
      decide_eq_true_eq, Bool.and_eq_true, Bool.not_eq_true', List.contains_eq_mem,
      decide_eq_false_iff_not, h.readPort_lt s hs, h.writePort_lt s hs, true_and]
    refine ⟨⟨⟨?_, ?_⟩, ?_⟩, ?_⟩
    · rw [portsOf, List.count_reverse]
      exact (hcount StorageSegment.writeTime).trans (hlimits.writes s hs)
    · rw [portsOf, List.count_reverse]
      exact (hcount StorageSegment.readTime).trans (hlimits.reads s hs)
    · intro hmem
      obtain ⟨t, ht, heq⟩ := List.mem_map.mp (List.mem_reverse.mp hmem)
      exact hread t ht (Prod.mk.inj heq)
    · intro hmem
      obtain ⟨t, ht, heq⟩ := List.mem_map.mp (List.mem_reverse.mp hmem)
      exact hwrite t ht (Prod.mk.inj heq)
  have hrequire : require (portAccepts (target.bankDesc s.domain) (allocation s).writePort source)
      (RFAllocationVerifier.portConflict .writePortConflict
        "assigned RF write port does not accept the mapped value source" s) = [] := by
    rw [require_eq_nil_iff]
    exact haccepts
  rw [hstate, hcapacity, hrequire, hboundary]
  rfl

/-- The walk over the ports. -/
theorem Built.checkPorts_eq_ok (hbuilt : Built mapping requirements allocation allocated)
    (h : Decided dfg target mapping requirements allocation)
    (hlimits : requirements.WithinLimits target) : checkPorts dfg target allocated = .ok [] := by
  have hloop : ∀ rest done, requirements.segments = done ++ rest →
      loop (checkSegmentPorts dfg target allocated) (portsOf requirements.ii allocation done) rest
        = .ok (portsOf requirements.ii allocation (done ++ rest), []) := by
    intro rest
    induction rest with
    | nil =>
      intro done _
      rw [List.append_nil]
      rfl
    | cons s rest ih =>
      intro done hsplit
      have hnext := ih (done ++ [s]) (by rw [hsplit, List.append_assoc, List.singleton_append])
      rw [List.append_assoc, List.singleton_append] at hnext
      exact loop_cons_clean_iff.mpr
        ⟨_, hbuilt.checkSegmentPorts_eq_ok hanalyze h hlimits hsplit, hnext⟩
  rw [checkPorts, hbuilt.requirements_eq]
  have hwalk := hloop requirements.segments [] rfl
  exact map_eq_ok.mpr ⟨_, hwalk, rfl⟩

/-! ### Registers -/

omit hanalyze in
theorem Built.registerEvents_eq (hbuilt : Built mapping requirements allocation allocated)
    (h : Decided dfg target mapping requirements allocation)
    (hids : (requirements.segments.map StorageSegment.id).Nodup) (time : StorageSegment → ℕ) :
    RFAllocationVerifier.registerEvents allocated time
      = requirements.segments.map (eventKey requirements.ii time allocation) := by
  rw [RFAllocationVerifier.registerEvents, hbuilt.requirements_eq]
  exact filterMap_eventKey (fun s hs ↦ hbuilt.allocationFor h hids hs) requirements.ii time

omit hanalyze in
theorem Built.checkRegisterEvents_eq_nil (hbuilt : Built mapping requirements allocation allocated)
    (h : Decided dfg target mapping requirements allocation)
    (hids : (requirements.segments.map StorageSegment.id).Nodup)
    (hlimits : requirements.WithinLimits target) : checkRegisterEvents target allocated = [] := by
  rw [checkRegisterEvents, List.flatMap_eq_nil_iff]
  intro key _
  obtain ⟨hcount, hpolicy⟩ := h.accesses hlimits hids key
  rw [checkRegisterEvent]
  simp only [hbuilt.registerEvents_eq h hids, List.append_eq_nil_iff, require_eq_nil_iff,
    decide_eq_true_eq, Bool.not_eq_true', Bool.and_eq_false_imp, bne_iff_ne, Bool.and_eq_true]
  refine ⟨hcount, ?_⟩
  rintro ⟨hreads, hwrites⟩
  rw [Option.any_eq_false]
  intro bank hbank
  rw [hpolicy hreads hwrites bank hbank]
  rfl

/-- Segments on one register do not conflict, pair by pair. -/
theorem Built.checkSegmentPairs_eq_ok (hbuilt : Built mapping requirements allocation allocated)
    (h : Decided dfg target mapping requirements allocation) {segments : List StorageSegment}
    (hsub : segments.Sublist requirements.segments) :
    checkSegmentPairs target allocated segments = .ok [] := by
  have hids := StorageRequirementAnalysis.nodup_ids hanalyze
  have hnodup : segments.Nodup := hsub.nodup (.of_map _ hids)
  induction segments with
  | nil => rfl
  | cons lhs rest ih =>
    obtain ⟨hlhs, hrest⟩ := List.nodup_cons.mp hnodup
    have hmem : lhs ∈ requirements.segments := hsub.subset List.mem_cons_self
    obtain ⟨hbank, -⟩ := StorageRequirementAnalysis.bank_of_analyze hanalyze lhs hmem
    have heach : each (checkSegmentPair target allocated lhs) rest = .ok [] := by
      refine each_clean_iff.mpr fun rhs hrhs ↦ ?_
      have hmem' : rhs ∈ requirements.segments := hsub.subset (List.mem_cons_of_mem _ hrhs)
      have hne : lhs ≠ rhs := by
        rintro rfl
        exact hlhs hrhs
      rw [checkSegmentPair, hbuilt.allocationFor h hids hmem, hbuilt.allocationFor h hids hmem',
        hbank]
      simp only
      by_cases hreg : (allocation lhs).reg = (allocation rhs).reg
      · rw [if_neg (not_not.mpr hreg), hbuilt.requirements_eq, h.compatible hmem hmem' hne hreg]
        rfl
      · rw [if_pos hreg]
    rw [checkSegmentPairs, heach, ih ((List.sublist_cons_self _ _).trans hsub) hrest]
    rfl

/-- **The verifier accepts.** -/
theorem Built.verify_eq_ok (hbuilt : Built mapping requirements allocation allocated)
    (h : Decided dfg target mapping requirements allocation)
    (hlimits : requirements.WithinLimits target)
    (hdomain : ∀ domain, (target.bankDesc domain).domain = domain)
    (hdfg : (TargetDFGVerifier.verify dfg target).isEmpty = true) :
    RFAllocationVerifier.verify dfg target allocated = .ok [] := by
  have hids := StorageRequirementAnalysis.nodup_ids hanalyze
  obtain ⟨hstage, -⟩ := StorageRequirementAnalysis.analyze_eq_ok hanalyze
  have haccesses : checkAccesses dfg target allocated = .ok [] := by
    rw [checkAccesses, hbuilt.checkPorts_eq_ok hanalyze h hlimits]
    rw [hbuilt.requirements_eq, hbuilt.checkSegmentPairs_eq_ok hanalyze h (.refl _),
      hbuilt.checkRegisterEvents_eq_nil h hids hlimits]
    rfl
  rw [RFAllocationVerifier.verify, stage_eq_ok_nil_iff, hbuilt.staged_eq, hstage]
  refine ⟨(require_eq_nil_iff _ _).mpr hdfg, stage_eq_ok_nil_iff.mpr ⟨rfl, ?_⟩⟩
  rw [hanalyze]
  refine stage_eq_ok_nil_iff.mpr ⟨?_, stage_eq_ok_nil_iff.mpr
    ⟨hbuilt.checkAllocations_eq_nil h hids, ?_⟩⟩
  · rw [require_eq_nil_iff, hbuilt.requirements_eq]
    exact beq_self_eq_true _
  · rw [hbuilt.checkSegmentBanks_eq_ok hanalyze h hlimits hdomain]
    exact stage_eq_ok_nil_iff.mpr ⟨rfl, haccesses⟩

end Built

/-! ## From the matchings to the decisions -/

/-- The sources are those of the segments. -/
theorem sourcesOf_spec {sourceOf : StorageSegment → Except String String}
    {segments : List BankedSegment} (hids : (segments.map BankedSegment.id).Nodup)
    {sources : StorageSegmentId → String} (h : sourcesOf sourceOf segments = .ok sources) :
    ∀ b ∈ segments, sourceOf b.segment = .ok (sources b.id) := by
  have hfold : ∀ (segments : List BankedSegment) (first later : StorageSegmentId → String),
      (segments.map BankedSegment.id).Nodup →
      segments.foldlM (fun sources b ↦
        (sourceOf b.segment).map fun source ↦ Function.update sources b.id source) first
          = .ok later →
      (∀ b ∈ segments, sourceOf b.segment = .ok (later b.id)) ∧
        ∀ id, id ∉ segments.map BankedSegment.id → later id = first id := by
    intro segments
    induction segments with
    | nil =>
      intro first later _ h
      obtain rfl : first = later := Except.ok.inj h
      exact ⟨by simp, fun _ _ ↦ rfl⟩
    | cons b rest ih =>
      intro first later hids h
      rw [List.map_cons, List.nodup_cons] at hids
      obtain ⟨between, hbetween, h⟩ := foldlM_cons_eq_ok.mp h
      obtain ⟨source, hsource, rfl⟩ := map_eq_ok.mp hbetween
      obtain ⟨hrest, hkept⟩ := ih _ _ hids.2 h
      refine ⟨List.forall_mem_cons.mpr ⟨?_, hrest⟩, fun id hid ↦ ?_⟩
      · rw [hkept b.id hids.1, Function.update_self, hsource]
      · rw [List.map_cons, List.mem_cons, not_or] at hid
        rw [hkept id hid.2, Function.update_of_ne hid.1]
  rw [sourcesOf] at h
  rcases hrun : segments.foldlM (fun sources b ↦
    (sourceOf b.segment).map fun source ↦ Function.update sources b.id source) (fun _ ↦ "")
    with what | later
  · rw [hrun] at h
    cases h
  · rw [hrun] at h
    obtain rfl : later = sources := Except.ok.inj h
    exact (hfold segments _ _ hids hrun).1

section Record

variable {portFor : StorageSegmentId → Option ℕ} {allocation : StorageAllocation}
variable {sources : StorageSegmentId → String}

theorem record_readPorts : readPorts.record portFor allocation
    = { allocation with readPort := (portFor allocation.segment).getD allocation.readPort } := by
  rw [PortKind.record]
  rcases portFor allocation.segment with _ | port <;> rfl

theorem record_writePorts : (writePorts sources).record portFor allocation
    = { allocation with writePort := (portFor allocation.segment).getD allocation.writePort } := by
  rw [PortKind.record]
  rcases portFor allocation.segment with _ | port <;> rfl

theorem record_boundaryPorts : (boundaryPorts sources).record portFor allocation
    = { allocation with
        boundaryWritePort := (portFor allocation.segment <|> allocation.boundaryWritePort) } := by
  rw [PortKind.record]
  rcases portFor allocation.segment with _ | port <;> rfl

end Record

section Decide

variable {dfg : TargetDFG} {target : TargetModel} {mapping : StagedMapping}
variable {requirements : StorageRequirements}

/-- Ports that have been matched are in range and accepted, and differ within a slot. -/
theorem port_of_matched {kind : PortKind} {slotOf : BankedSegment → ℕ}
    {segments : List BankedSegment} {portFor : StorageSegmentId → Option ℕ}
    (hseated : ∀ key, kind.Seated portFor (accessing slotOf segments key)) {b : BankedSegment}
    (hb : b ∈ segments) :
    (∃ port, portFor b.id = some port ∧ port < kind.ports b.bank ∧
        kind.accepts b.bank b port = true) ∧
      ∀ c ∈ segments, c.key = b.key → slotOf c = slotOf b → portFor c.id = portFor b.id →
        c = b := by
  have hmem : b ∈ accessing slotOf segments ⟨b.key, slotOf b⟩ := mem_accessing.mpr ⟨hb, rfl⟩
  refine ⟨(hseated _).accepted b hmem, fun c hc hkey hslot hport ↦ ?_⟩
  refine (hseated ⟨b.key, slotOf b⟩).apart c (mem_accessing.mpr ⟨hc, ?_⟩) b hmem hport
  rw [hkey, hslot]

/-- The port that is recorded for a matched segment. -/
theorem getD_of_matched {kind : PortKind} {slotOf : BankedSegment → ℕ}
    {segments : List BankedSegment} {portFor : StorageSegmentId → Option ℕ}
    (hseated : ∀ key, kind.Seated portFor (accessing slotOf segments key)) {s : StorageSegment}
    (hs : banked target s ∈ segments) :
    (portFor s.id).getD 0 < kind.ports (target.bankDesc s.domain) ∧
      kind.accepts (target.bankDesc s.domain) (banked target s) ((portFor s.id).getD 0) = true := by
  obtain ⟨⟨port, hport, hlt, haccepts⟩, -⟩ := port_of_matched hseated hs
  have hentry : portFor s.id = some port := hport
  rw [hentry, Option.getD_some]
  exact ⟨hlt, haccepts⟩

/-- Segments of one bank that are recorded with one port in one slot are the same. -/
theorem eq_of_matched {kind : PortKind} {slotOf : BankedSegment → ℕ}
    {segments : List BankedSegment} {portFor : StorageSegmentId → Option ℕ}
    (hseated : ∀ key, kind.Seated portFor (accessing slotOf segments key)) {s t : StorageSegment}
    (hs : banked target s ∈ segments) (ht : banked target t ∈ segments) (htile : s.tile = t.tile)
    (hdomain : s.domain = t.domain) (hslot : slotOf (banked target s) = slotOf (banked target t))
    (hport : (portFor s.id).getD 0 = (portFor t.id).getD 0) : s = t := by
  obtain ⟨⟨p, hp, -⟩, -⟩ := port_of_matched hseated hs
  obtain ⟨⟨q, hq, -⟩, hapart⟩ := port_of_matched hseated ht
  have hps : portFor s.id = some p := hp
  have hqt : portFor t.id = some q := hq
  rw [hps, hqt, Option.getD_some, Option.getD_some] at hport
  have hkey : (banked target s).key = (banked target t).key :=
    key_banked_eq_iff.mpr ⟨htile, hdomain⟩
  exact congrArg BankedSegment.segment (hapart _ hs hkey hslot (by rw [hp, hq, hport]))

/-- A seed has a port that accepts it, and a segment without a seed has none. -/
theorem checkBoundaryPort_of_matched {sources : StorageSegmentId → String}
    {slotOf : BankedSegment → ℕ} {segments : List BankedSegment}
    {portFor : StorageSegmentId → Option ℕ}
    (hseated : ∀ key, (boundaryPorts sources).Seated portFor
      (accessing slotOf (segments.filter fun b ↦ sources b.id ≠ "") key))
    (honly : ∀ id, portFor id ≠ none →
      ∃ b ∈ segments.filter fun b ↦ sources b.id ≠ "", b.id = id)
    {s : StorageSegment} (hs : banked target s ∈ segments) {allocation : StorageAllocation}
    (hallocation : allocation.boundaryWritePort = portFor s.id) :
    checkBoundaryPort (target.bankDesc s.domain) s allocation (sources s.id) = [] := by
  rw [checkBoundaryPort, hallocation]
  by_cases hseed : sources s.id = ""
  · -- not among the seeded segments, so without a port
    have hnone : portFor s.id = none := by
      by_contra hne
      obtain ⟨b, hb, hid⟩ := honly s.id hne
      have hnot := (List.mem_filter.mp hb).2
      rw [hid, hseed] at hnot
      simp at hnot
    rw [if_neg (by simp [hseed]), require_eq_nil_iff, hnone]
    rfl
  · have hfilter : banked target s ∈ segments.filter fun b ↦ sources b.id ≠ "" :=
      List.mem_filter.mpr ⟨hs, decide_eq_true_eq.mpr hseed⟩
    obtain ⟨⟨port, hport, hlt, haccepts⟩, -⟩ := port_of_matched hseated hfilter
    have hentry : portFor s.id = some port := hport
    have hrange : ¬ port ≥ (target.bankDesc s.domain).writePorts := Nat.not_le.mpr hlt
    rw [if_pos hseed, hentry]
    simp only
    rw [if_neg hrange, require_eq_nil_iff]
    exact haccepts

/-- **The matchings decide everything.** -/
theorem decided_of_assignAllPorts
    (hbanked : Banked target (requirements.segments.map (banked target)))
    {colors : StorageSegmentId → Option ℕ} (hcolors : ProperlyColored target requirements colors)
    {allocations : List StorageAllocation}
    (h : assignAllPorts dfg target mapping requirements.ii
      (requirements.segments.map (banked target))
      (initialAllocations (requirements.segments.map (banked target)) colors) = .ok allocations) :
    ∃ allocation, allocations = requirements.segments.map allocation ∧
      (∀ s, (allocation s).reg.index = (colors s.id).getD 0) ∧
      Decided dfg target mapping requirements allocation := by
  generalize hsegments : requirements.segments.map (banked target) = segments at h hbanked
  have hmem : ∀ s ∈ requirements.segments, banked target s ∈ segments := fun s hs ↦
    hsegments ▸ List.mem_map_of_mem hs
  obtain ⟨withReads, hreads, h⟩ := bind_eq_ok.mp h
  obtain ⟨sources, hsources, h⟩ := bind_eq_ok.mp h
  obtain ⟨withWrites, hwrites, h⟩ := bind_eq_ok.mp h
  obtain ⟨boundarySources, hboundarySources, hboundaries⟩ := bind_eq_ok.mp h
  have hsource := sourcesOf_spec hbanked.distinct hsources
  have hboundarySource := sourcesOf_spec hbanked.distinct hboundarySources
  have hlisted : ∀ b ∈ segments, ∃ a ∈ initialAllocations segments colors, a.segment = b.id :=
    fun b hb ↦ ⟨_, List.mem_map_of_mem hb, rfl⟩
  obtain ⟨readFor, hreadsEq, hlistedReads, hreadSeats, -⟩ :=
    (ports_exact hbanked hlisted _ sources).1.assigned _ hreads
  have hlisted' : ∀ b ∈ segments, ∃ a ∈ withReads, a.segment = b.id := fun b hb ↦
    (hlistedReads b hb).imp fun _ ha ↦ ⟨ha.1, ha.2.1⟩
  obtain ⟨writeFor, hwritesEq, hlistedWrites, hwriteSeats, -⟩ :=
    (ports_exact hbanked hlisted' _ sources).2.1.assigned _ hwrites
  have hseeded : Banked target (segments.filter fun b ↦ boundarySources b.id ≠ "") :=
    hbanked.sublist List.filter_sublist
  have hlisted'' : ∀ b ∈ segments.filter (fun b ↦ boundarySources b.id ≠ ""),
      ∃ a ∈ withWrites, a.segment = b.id := fun b hb ↦
    (hlistedWrites b (List.mem_of_mem_filter hb)).imp fun _ ha ↦ ⟨ha.1, ha.2.1⟩
  obtain ⟨boundaryFor, hboundaryEq, -, hboundarySeats, hboundaryOnly⟩ :=
    (ports_exact hseeded hlisted'' _ boundarySources).2.2.assigned _ hboundaries
  refine ⟨fun s ↦ ⟨s.id, ⟨s.tile, (target.bankDesc s.domain).id, (colors s.id).getD 0⟩,
    (readFor s.id).getD 0, (writeFor s.id).getD 0, boundaryFor s.id⟩, ?_, fun _ ↦ rfl, ?_⟩
  · rw [hboundaryEq, hwritesEq, hreadsEq, initialAllocations, ← hsegments]
    simp only [List.map_map]
    refine List.map_congr_left fun s _ ↦ ?_
    simp only [Function.comp_apply, record_readPorts, record_writePorts, record_boundaryPorts]
    rcases hport : boundaryFor s.id with _ | port <;>
      simp only [banked, BankedSegment.id, hport] <;>
      rfl
  · refine ⟨fun _ ↦ rfl, fun _ ↦ rfl, fun _ ↦ rfl, hcolors.proper, ?_, ?_, ?_, ?_, ?_, ?_⟩
    · exact fun s hs ↦ (getD_of_matched hreadSeats (hmem s hs)).1
    · exact fun s hs ↦ (getD_of_matched hwriteSeats (hmem s hs)).1
    · exact fun s hs ↦
        ⟨sources s.id, hsource _ (hmem s hs), (getD_of_matched hwriteSeats (hmem s hs)).2⟩
    · exact fun s hs ↦ ⟨boundarySources s.id, hboundarySource _ (hmem s hs),
        checkBoundaryPort_of_matched hboundarySeats hboundaryOnly (hmem s hs) rfl⟩
    · exact fun s hs t ht htile hdomain hslot hport ↦
        eq_of_matched hreadSeats (hmem s hs) (hmem t ht) htile hdomain hslot hport
    · exact fun s hs t ht htile hdomain hslot hport ↦
        eq_of_matched hwriteSeats (hmem s hs) (hmem t ht) htile hdomain hslot hport

end Decide

/-! ## The allocator -/

section Allocate

variable {dfg : TargetDFG} {target : TargetModel} {mapping : StagedMapping}
variable {requirements : StorageRequirements} {options : RFAllocationOptions}

theorem verifies_of_analyze
    (hanalyze : StorageRequirementAnalysis.analyze dfg target mapping = .ok (.ok requirements)) :
    (TargetDFGVerifier.verify dfg target).isEmpty = true := by
  by_contra hne
  rw [StorageRequirementAnalysis.analyze, if_pos (by simpa using hne)] at hanalyze
  cases Except.ok.inj hanalyze

theorem allocate_eq
    (hanalyze : StorageRequirementAnalysis.analyze dfg target mapping = .ok (.ok requirements)) :
    allocate dfg target mapping options
      = match allocateFrom dfg target mapping options requirements with
        | .ok result => .ok result
        | .error (.returned result) => .ok result
        | .error (.thrown what) => .error what := by
  rw [allocate, if_neg (by simp [verifies_of_analyze hanalyze])]
  exact hanalyze ▸ rfl

/-- A run that returns a status. -/
def Reports (dfg : TargetDFG) (target : TargetModel) (mapping : StagedMapping)
    (options : RFAllocationOptions) (status : RFAllocationStatus) : Prop :=
  ∃ result, allocate dfg target mapping options = .ok result ∧ result.status = status

/-- How a step of the port assignment fails. -/
def PortFailure (exit : RFAllocationExit) : Prop :=
  (∃ what, exit = .thrown what) ∨ ∃ result, exit = .returned result ∧
    (result.status = .readPortConflict ∨ result.status = .writePortConflict)

theorem sourcesOf_eq_error {sourceOf : StorageSegment → Except String String}
    {segments : List BankedSegment} {exit : RFAllocationExit}
    (h : sourcesOf sourceOf segments = .error exit) : PortFailure exit := by
  rw [sourcesOf] at h
  rcases hrun : segments.foldlM (fun sources b ↦
    (sourceOf b.segment).map fun source ↦ Function.update sources b.id source) (fun _ ↦ "")
    with what | later
  · rw [hrun] at h
    exact .inl ⟨what, (Except.error.inj h).symm⟩
  · rw [hrun] at h
    cases h

/-- The port assignment ends with allocations, a port conflict, or an exception of a lookup. -/
theorem assignAllPorts_eq_error {segments : List BankedSegment} (hbanked : Banked target segments)
    {colors : StorageSegmentId → Option ℕ} {ii : ℕ} {exit : RFAllocationExit}
    (h : assignAllPorts dfg target mapping ii segments (initialAllocations segments colors)
      = .error exit) : PortFailure exit := by
  have hlisted : ∀ b ∈ segments, ∃ a ∈ initialAllocations segments colors, a.segment = b.id :=
    fun b hb ↦ ⟨_, List.mem_map_of_mem hb, rfl⟩
  rcases bind_eq_error.mp h with hreads | ⟨withReads, hreads, h⟩
  · obtain ⟨-, -, -, -, -, result, hresult, hstatus⟩ :=
      (ports_exact hbanked hlisted _ fun _ ↦ "").1.conflict _ hreads
    exact .inr ⟨result, hresult, .inl hstatus⟩
  rcases bind_eq_error.mp h with hsources | ⟨sources, -, h⟩
  · exact sourcesOf_eq_error hsources
  obtain ⟨_, _, hlistedReads, -⟩ := (ports_exact hbanked hlisted _ sources).1.assigned _ hreads
  have hlisted' : ∀ b ∈ segments, ∃ a ∈ withReads, a.segment = b.id := fun b hb ↦
    (hlistedReads b hb).imp fun _ ha ↦ ⟨ha.1, ha.2.1⟩
  rcases bind_eq_error.mp h with hwrites | ⟨withWrites, hwrites, h⟩
  · obtain ⟨-, -, -, -, -, result, hresult, hstatus⟩ :=
      (ports_exact hbanked hlisted' _ sources).2.1.conflict _ hwrites
    exact .inr ⟨result, hresult, .inr hstatus⟩
  obtain ⟨_, _, hlistedWrites, -⟩ := (ports_exact hbanked hlisted' _ sources).2.1.assigned _ hwrites
  rcases bind_eq_error.mp h with hsources | ⟨boundarySources, -, hboundary⟩
  · exact sourcesOf_eq_error hsources
  have hlisted'' : ∀ b ∈ segments.filter (fun b ↦ boundarySources b.id ≠ ""),
      ∃ a ∈ withWrites, a.segment = b.id := fun b hb ↦
    (hlistedWrites b (List.mem_of_mem_filter hb)).imp fun _ ha ↦ ⟨ha.1, ha.2.1⟩
  obtain ⟨-, -, -, -, -, result, hresult, hstatus⟩ :=
    (ports_exact (hbanked.sublist List.filter_sublist) hlisted'' _ boundarySources).2.2.conflict _
      hboundary
  exact .inr ⟨result, hresult, .inr hstatus⟩

/-- The registers a mapping records. -/
def recordedColors (allocated : RFAllocatedMapping) (id : StorageSegmentId) : Option ℕ :=
  (allocated.allocationFor id).map fun allocation ↦ allocation.reg.index

/-- A mapping that holds the decisions records the colours they were made with. -/
theorem Built.properlyColored {allocation : StorageSegment → StorageAllocation}
    {allocated : RFAllocatedMapping} (hbuilt : Built mapping requirements allocation allocated)
    (h : Decided dfg target mapping requirements allocation)
    (hids : (requirements.segments.map StorageSegment.id).Nodup)
    {colors : StorageSegmentId → Option ℕ}
    (hcolors : ProperlyColored target requirements colors)
    (hindex : ∀ s, (allocation s).reg.index = (colors s.id).getD 0) :
    ProperlyColored target allocated.storageRequirements (recordedColors allocated) := by
  have hrecorded : ∀ s ∈ requirements.segments, recordedColors allocated s.id = colors s.id := by
    intro s hs
    obtain ⟨index, hcolor⟩ := hcolors.colored s hs
    rw [recordedColors, hbuilt.allocationFor h hids hs, Option.map_some, hindex, hcolor]
    rfl
  rw [hbuilt.requirements_eq]
  refine ⟨fun s hs ↦ ?_, fun tile domain ↦ ⟨fun s hs ↦ ?_, ?_⟩⟩
  · rw [hrecorded s hs]
    exact hcolors.colored s hs
  · rw [hrecorded s (StorageRequirements.mem_inBank.mp hs).1]
    exact (hcolors.proper tile domain).allocatable s hs
  · intro lhs hlhs rhs hrhs hne hconflict
    rw [hrecorded lhs (StorageRequirements.mem_inBank.mp hlhs).1,
      hrecorded rhs (StorageRequirements.mem_inBank.mp hrhs).1]
    exact (hcolors.proper tile domain).apart lhs hlhs rhs hrhs hne hconflict

/-- A successful result, whose mapping records proper registers. -/
def RecordsColors (target : TargetModel) (result : RFAllocationResult) : Prop :=
  result.status = .success ∧ ∃ allocated, result.mapping = some allocated ∧
    ProperlyColored target allocated.storageRequirements (recordedColors allocated)

/-- **With proper registers, the rest succeeds** unless the ports conflict or a lookup throws. -/
theorem allocateFrom_of_registers
    (hanalyze : StorageRequirementAnalysis.analyze dfg target mapping = .ok (.ok requirements))
    (hlimits : requirements.WithinLimits target)
    (hdomain : ∀ domain, (target.bankDesc domain).domain = domain) {state : ColorState}
    (hregisters : assignRegisters target options requirements
      = .ok (requirements.segments.map (banked target), state))
    (hcolors : ProperlyColored target requirements state.colors) :
    (∃ exit, allocateFrom dfg target mapping options requirements = .error exit ∧
      PortFailure exit) ∨
    ∃ result, allocateFrom dfg target mapping options requirements = .ok result ∧
      RecordsColors target result := by
  have hids := StorageRequirementAnalysis.nodup_ids hanalyze
  have hbanked := banked_of_analyze hanalyze (mapM_bankFor hanalyze hlimits)
  rcases hports : assignAllPorts dfg target mapping requirements.ii
    (requirements.segments.map (banked target))
    (initialAllocations (requirements.segments.map (banked target)) state.colors)
    with exit | allocations
  · refine .inl ⟨exit, ?_, assignAllPorts_eq_error hbanked hports⟩
    exact bind_eq_error.mpr (.inr ⟨_, hregisters, bind_eq_error.mpr (.inl hports)⟩)
  · obtain ⟨allocation, rfl, hindex, hdecided⟩ :=
      decided_of_assignAllPorts hbanked hcolors hports
    obtain ⟨allocated, hcreate, hbuilt⟩ := hdecided.exists_built hids
    refine .inr ⟨_, bind_eq_ok.mpr ⟨_, hregisters, bind_eq_ok.mpr ⟨_, hports, bind_eq_ok.mpr
      ⟨(), hdecided.checkRegisters_eq_ok hlimits hids, rfl⟩⟩⟩, ?_⟩
    rw [verified, hcreate]
    simp only [hbuilt.verify_eq_ok hanalyze hdecided hlimits hdomain (verifies_of_analyze hanalyze)]
    exact ⟨rfl, allocated, rfl, hbuilt.properlyColored hdecided hids hcolors hindex⟩

/-- Without requirements the allocator reports what the analysis did. -/
theorem Reports.of_failed_analysis (hnone : ∀ requirements,
      StorageRequirementAnalysis.analyze dfg target mapping ≠ .ok (.ok requirements))
    {status : RFAllocationStatus} (h : Reports dfg target mapping options status) :
    status ≠ .success ∧ status ≠ .registerDepthInfeasible ∧ status ≠ .sameAddressRWConflict ∧
      status ≠ .verificationFailure := by
  obtain ⟨result, hresult, rfl⟩ := h
  unfold allocate at hresult
  split at hresult
  · obtain rfl := Except.ok.inj hresult
    exact ⟨nofun, nofun, nofun, nofun⟩
  · split at hresult
    · cases hresult
    · rename_i failed _
      obtain rfl := Except.ok.inj hresult
      rcases failed.status with _ | _ | _ | _ | _ <;>
      · simp only [analysisStatus]
        decide
    · rename_i requirements hanalyze
      exact absurd hanalyze (hnone requirements)

/-- How a run over given requirements ends. -/
theorem allocate_cases
    (hanalyze : StorageRequirementAnalysis.analyze dfg target mapping = .ok (.ok requirements))
    (hlimits : requirements.WithinLimits target)
    (hdomain : ∀ domain, (target.bankDesc domain).domain = domain) :
    Reports dfg target mapping options .budgetExceeded ∨
    (Reports dfg target mapping options .registerDepthInfeasible ∧
      ∃ tile domain, ¬ requirements.RegistersSuffice target tile domain) ∨
    (∃ state, assignRegisters target options requirements
        = .ok (requirements.segments.map (banked target), state) ∧
      ProperlyColored target requirements state.colors ∧
      (∀ tile domain, requirements.RegistersSuffice target tile domain) ∧
      ∀ result, allocate dfg target mapping options = .ok result →
        RecordsColors target result ∨ result.status = .readPortConflict ∨
          result.status = .writePortConflict) := by
  rcases @assignRegisters_spec dfg target mapping requirements options hanalyze hlimits with
    ⟨state, hregisters, hcolors, hsuffice⟩ | ⟨exit, hregisters, result, rfl, hstatus⟩
  · refine .inr (.inr ⟨state, hregisters, hcolors, hsuffice, fun result hresult ↦ ?_⟩)
    rw [allocate_eq hanalyze] at hresult
    rcases allocateFrom_of_registers hanalyze hlimits hdomain hregisters hcolors with
      ⟨exit, hexit, hfailure⟩ | ⟨success, hsuccess, hstatus⟩
    · rw [hexit] at hresult
      rcases hfailure with ⟨what, rfl⟩ | ⟨failed, rfl, hstatus⟩
      · cases hresult
      · obtain rfl := Except.ok.inj hresult
        exact .inr hstatus
    · rw [hsuccess] at hresult
      obtain rfl := Except.ok.inj hresult
      exact .inl hstatus
  · have hrun : allocate dfg target mapping options = .ok result := by
      have hfrom : allocateFrom dfg target mapping options requirements
          = .error (.returned result) := bind_eq_error.mpr (.inl hregisters)
      rw [allocate_eq hanalyze, hfrom]
    rcases hstatus with hstatus | ⟨hstatus, hinfeasible⟩
    · exact .inl ⟨result, hrun, hstatus⟩
    · exact .inr (.inl ⟨⟨result, hrun, hstatus⟩, hinfeasible⟩)

theorem Reports.unique {a b : RFAllocationStatus} (ha : Reports dfg target mapping options a)
    (hb : Reports dfg target mapping options b) : a = b := by
  obtain ⟨r, hr, rfl⟩ := ha
  obtain ⟨r', hr', rfl⟩ := hb
  rw [Except.ok.inj (hr.symm.trans hr')]

/-- **Register colouring is exact.** The banks have the domains the loader gives them. With every
segment fitting a register and no slot needing more ports than there are, a run that does not
exhaust its budget reports a lack of registers exactly when some bank of some tile has too few, and
otherwise has given every bank proper registers, which the mapping it returns records; it never
fails a check that follows. -/
theorem coloring_exact (dfg : TargetDFG) (target : TargetModel) (mapping : StagedMapping)
    (options : RFAllocationOptions)
    (hdomain : ∀ domain, (target.bankDesc domain).domain = domain)
    (hlimits : ∀ requirements, StorageRequirementAnalysis.analyze dfg target mapping
      = .ok (.ok requirements) → requirements.WithinLimits target)
    (hbudget : ¬ Reports dfg target mapping options .budgetExceeded) :
    (Reports dfg target mapping options .registerDepthInfeasible ↔
      ∃ requirements, StorageRequirementAnalysis.analyze dfg target mapping
          = .ok (.ok requirements) ∧
        ∃ tile domain, ¬ requirements.RegistersSuffice target tile domain) ∧
    (∀ requirements, StorageRequirementAnalysis.analyze dfg target mapping
          = .ok (.ok requirements) →
        ¬ Reports dfg target mapping options .registerDepthInfeasible →
      ∃ segments state, assignRegisters target options requirements = .ok (segments, state) ∧
        ProperlyColored target requirements state.colors) ∧
    (∀ result, allocate dfg target mapping options = .ok result → result.status = .success →
      ∃ allocated, result.mapping = some allocated ∧
        ProperlyColored target allocated.storageRequirements (recordedColors allocated)) ∧
    ¬ Reports dfg target mapping options .sameAddressRWConflict ∧
    ¬ Reports dfg target mapping options .verificationFailure := by
  by_cases hsome : ∃ requirements,
    StorageRequirementAnalysis.analyze dfg target mapping = .ok (.ok requirements)
  · obtain ⟨requirements, hanalyze⟩ := hsome
    have honly : ∀ other, StorageRequirementAnalysis.analyze dfg target mapping
        = .ok (.ok other) → other = requirements := fun other h ↦
      Except.ok.inj (Except.ok.inj (h.symm.trans hanalyze))
    rcases allocate_cases hanalyze (hlimits _ hanalyze) hdomain with
      hexceeded | ⟨hinfeasible, hshort⟩ | ⟨state, hregisters, hcolors, hsuffice, hstatus⟩
    · exact absurd hexceeded hbudget
    · refine ⟨⟨fun _ ↦ ⟨requirements, hanalyze, hshort⟩, fun _ ↦ hinfeasible⟩,
        fun _ _ hnot ↦ absurd hinfeasible hnot, fun result hresult hsuccess ↦ ?_, fun h ↦ ?_,
        fun h ↦ ?_⟩
      · cases Reports.unique ⟨result, hresult, hsuccess⟩ hinfeasible
      · cases h.unique hinfeasible
      · cases h.unique hinfeasible
    · have hother : ∀ status, Reports dfg target mapping options status → status = .success ∨
          status = .readPortConflict ∨ status = .writePortConflict := by
        rintro _ ⟨result, hresult, rfl⟩
        exact (hstatus result hresult).imp_left And.left
      refine ⟨⟨fun h ↦ ?_, ?_⟩, fun other hother _ ↦ ?_, fun result hresult hsuccess ↦ ?_,
        fun h ↦ ?_, fun h ↦ ?_⟩
      · rcases hother _ h with h | h | h <;> cases h
      · rintro ⟨other, hother, tile, domain, hshort⟩
        obtain rfl := honly other hother
        exact absurd (hsuffice tile domain) hshort
      · obtain rfl := honly other hother
        exact ⟨_, state, hregisters, hcolors⟩
      · rcases hstatus result hresult with ⟨-, hcolored⟩ | h | h
        · exact hcolored
        · cases hsuccess.symm.trans h
        · cases hsuccess.symm.trans h
      · rcases hother _ h with h | h | h <;> cases h
      · rcases hother _ h with h | h | h <;> cases h
  · -- there is nothing to colour
    have hnone := not_exists.mp hsome
    refine ⟨⟨fun h ↦ absurd rfl (h.of_failed_analysis hnone).2.1, ?_⟩, ?_,
      fun result hresult hsuccess ↦ ?_, fun h ↦ ?_, fun h ↦ ?_⟩
    · rintro ⟨requirements, hanalyze, -⟩
      exact absurd hanalyze (hnone requirements)
    · intro requirements hanalyze
      exact absurd hanalyze (hnone requirements)
    · exact absurd rfl (Reports.of_failed_analysis hnone ⟨result, hresult, hsuccess⟩).1
    · exact (h.of_failed_analysis hnone).2.2.1 rfl
    · exact (h.of_failed_analysis hnone).2.2.2 rfl

end Allocate

/-! ## An example -/

theorem seededSum_requirements :
    StorageRequirementAnalysis.analyze seededSumDFG shippedTarget seededSumAllocated.staged
      = .ok (.ok seededSumAllocated.storageRequirements) := by
  decide +kernel

theorem seededSum_withinLimits :
    seededSumAllocated.storageRequirements.WithinLimits shippedTarget where
  fits := by decide
  writes := by decide
  reads := by decide

/-- The two values of the sum, whose lifetimes conflict, are given proper registers. -/
theorem seededSum_coloring_exact : ∃ segments state,
    assignRegisters shippedTarget {} seededSumAllocated.storageRequirements
      = .ok (segments, state) ∧
      ProperlyColored shippedTarget seededSumAllocated.storageRequirements state.colors := by
  have hrun : (allocate seededSumDFG shippedTarget seededSumAllocated.staged {}).map
      RFAllocationResult.status = .ok .writePortConflict := by decide +kernel
  have hstatus : ∀ status, Reports seededSumDFG shippedTarget seededSumAllocated.staged {} status →
      status = .writePortConflict := by
    rintro status ⟨result, hresult, rfl⟩
    rw [hresult] at hrun
    exact Except.ok.inj hrun
  refine (coloring_exact seededSumDFG shippedTarget seededSumAllocated.staged {} ?_ ?_ ?_).2.1 _
    seededSum_requirements ?_
  · rintro (_ | _) <;> rfl
  · intro requirements hanalyze
    obtain rfl := Except.ok.inj (Except.ok.inj (seededSum_requirements.symm.trans hanalyze))
    exact seededSum_withinLimits
  · intro h
    cases hstatus _ h
  · intro h
    cases hstatus _ h

end RFAllocator

end PredicatedMesh
