import PredicatedMesh.RegisterAllocation.Coloring
import PredicatedMesh.RegisterAllocation.Soundness

/-!
# Allocation succeeds or proves that it cannot

With the searches understood, this module follows `RFAllocator.allocate` to its end. The groups it
colours are the banks of the tiles, so a colouring that fails is about a bank of a tile whose
segments no choice of registers keeps apart (`RegistersSuffice`).

## What a proper colouring excludes

Two segments of one colour have lifetimes that never meet at any shift of the interval. So they are
not written in one slot, nor is one read in the slot the other is written in unless the bank allows
it: the checks that follow the ports, and those of the verifier, have nothing left to find.
-/

namespace PredicatedMesh

open Scan Coloring

/-! ## Registers for a bank of a tile -/

namespace StorageRequirements

/-- The segments that wait in a bank of a tile. -/
def inBank (requirements : StorageRequirements) (tile : TileCoord) (domain : RegisterBankDomain) :
    List StorageSegment :=
  requirements.segments.filter fun segment ↦
    decide (segment.tile = tile) && decide (segment.domain = domain)

theorem mem_inBank {requirements : StorageRequirements} {tile : TileCoord}
    {domain : RegisterBankDomain} {segment : StorageSegment} :
    segment ∈ requirements.inBank tile domain ↔
      segment ∈ requirements.segments ∧ segment.tile = tile ∧ segment.domain = domain := by
  simp [inBank]

/-- Allocatable registers for the segments of a bank, different ones where lifetimes conflict. -/
structure ProperRegisters (target : TargetModel) (requirements : StorageRequirements)
    (tile : TileCoord) (domain : RegisterBankDomain) (register : StorageSegment → ℕ) : Prop where
  allocatable : ∀ segment ∈ requirements.inBank tile domain,
    register segment ∈ (target.bankDesc domain).allocatableIndices
  apart : ∀ lhs ∈ requirements.inBank tile domain, ∀ rhs ∈ requirements.inBank tile domain,
    lhs ≠ rhs → periodicLifetimesConflict lhs rhs requirements.ii
      (target.bankDesc domain).sameAddressReadWritePolicy = true → register lhs ≠ register rhs

def RegistersSuffice (target : TargetModel) (requirements : StorageRequirements)
    (tile : TileCoord) (domain : RegisterBankDomain) : Prop :=
  ∃ register : StorageSegment → ℕ, requirements.ProperRegisters target tile domain register

/-- Every segment fits a register of its bank, and no slot needs more ports than the bank has. -/
structure WithinLimits (target : TargetModel) (requirements : StorageRequirements) : Prop where
  fits : ∀ segment ∈ requirements.segments, fixedRegisterSelfOverlaps segment requirements.ii
    (target.bankDesc segment.domain).sameAddressReadWritePolicy = false
  writes : ∀ segment ∈ requirements.segments,
    ((requirements.inBank segment.tile segment.domain).countP fun other ↦
      other.writeTime % requirements.ii = segment.writeTime % requirements.ii)
        ≤ (target.bankDesc segment.domain).writePorts
  reads : ∀ segment ∈ requirements.segments,
    ((requirements.inBank segment.tile segment.domain).countP fun other ↦
      other.readTime % requirements.ii = segment.readTime % requirements.ii)
        ≤ (target.bankDesc segment.domain).readPorts

end StorageRequirements

theorem intervalsConflict_comm (lhsWrite lhsRead rhsWrite rhsRead : ℤ)
    (policy : SameAddressReadWritePolicy) :
    intervalsConflict lhsWrite lhsRead rhsWrite rhsRead policy
      = intervalsConflict rhsWrite rhsRead lhsWrite lhsRead policy := by
  rw [intervalsConflict, intervalsConflict, max_comm, min_comm]

theorem intervalsConflict_add (lhsWrite lhsRead rhsWrite rhsRead shift : ℤ)
    (policy : SameAddressReadWritePolicy) :
    intervalsConflict (lhsWrite + shift) (lhsRead + shift) (rhsWrite + shift) (rhsRead + shift)
      policy = intervalsConflict lhsWrite lhsRead rhsWrite rhsRead policy := by
  have hends : (max lhsWrite rhsWrite + shift == min lhsRead rhsRead + shift)
      = (max lhsWrite rhsWrite == min lhsRead rhsRead) := by
    rw [Bool.eq_iff_iff, beq_iff_eq, beq_iff_eq, add_left_inj]
  simp only [intervalsConflict, max_add_add_right, min_add_add_right, add_lt_add_iff_right, hends]

/-- The comparison does not depend on which segment comes first. -/
theorem periodicLifetimesConflict_comm (lhs rhs : StorageSegment) (ii : ℕ)
    (policy : SameAddressReadWritePolicy) :
    periodicLifetimesConflict lhs rhs ii policy = periodicLifetimesConflict rhs lhs ii policy := by
  have hshift : ∀ w r w' r' shift : ℤ,
      intervalsConflict w r (w' + shift) (r' + shift) policy
        = intervalsConflict w' r' (w + -shift) (r + -shift) policy := by
    intro w r w' r' shift
    rw [intervalsConflict_comm, ← intervalsConflict_add _ _ _ _ (-shift)]
    simp only [add_neg_cancel_right]
  unfold periodicLifetimesConflict
  have hor : (ii = 0 ∨ lhs.readTime ≤ lhs.writeTime ∨ rhs.readTime ≤ rhs.writeTime) ↔
      (ii = 0 ∨ rhs.readTime ≤ rhs.writeTime ∨ lhs.readTime ≤ lhs.writeTime) := by
    rw [or_comm (a := lhs.readTime ≤ lhs.writeTime)]
  have hor' : (lhs.readTime - lhs.writeTime > ii ∨ rhs.readTime - rhs.writeTime > ii) ↔
      (rhs.readTime - rhs.writeTime > ii ∨ lhs.readTime - lhs.writeTime > ii) := or_comm
  simp only [hor, hor', List.any_cons, List.any_nil, Bool.or_false]
  split
  · rfl
  · split
    · rfl
    · rw [hshift _ _ _ _ (-(ii : ℤ)), hshift _ _ _ _ 0, hshift _ _ _ _ (ii : ℤ), neg_neg, neg_zero]
      simp only [Bool.or_comm, Bool.or_left_comm]

/-! ## Banks and port demand -/

/-- The analysis has seen a bank with registers for every segment. -/
theorem StorageRequirementAnalysis.bank_of_analyze {dfg : TargetDFG} {target : TargetModel}
    {mapping : StagedMapping} {requirements : StorageRequirements}
    (h : analyze dfg target mapping = .ok (.ok requirements)) :
    ∀ segment ∈ requirements.segments,
      target.registerBank segment.domain segment.tile.row segment.tile.col
          = some (target.bankDesc segment.domain) ∧
        (target.bankDesc segment.domain).allocatableIndices ≠ [] := by
  have hall : ∀ segments : List StorageSegment, checkBanks target segments = none →
      ∀ segment ∈ segments,
        target.registerBank segment.domain segment.tile.row segment.tile.col
            = some (target.bankDesc segment.domain) ∧
          (target.bankDesc segment.domain).allocatableIndices ≠ [] := by
    intro segments
    induction segments with
    | nil => simp
    | cons segment segments ih =>
      intro hcheck
      rw [checkBanks] at hcheck
      split at hcheck
      · cases hcheck
      · rename_i bank hbank
        obtain rfl := target.registerBank_eq_some hbank
        split at hcheck
        · cases hcheck
        · rename_i hvalid
          refine List.forall_mem_cons.mpr ⟨⟨hbank, fun hempty ↦ hvalid ?_⟩, ih hcheck⟩
          rw [hempty]
          rfl
  unfold analyze at h
  split at h
  · simp at h
  · split at h
    · cases h
    · simp at h
    · split at h
      · simp at h
      · split at h
        · simp at h
        · split at h
          · simp at h
          · rename_i hcheck
            obtain rfl := Except.ok.inj (Except.ok.inj h)
            exact hall _ hcheck

namespace RFAllocator

/-- A segment with the bank of its domain. -/
def banked (target : TargetModel) (segment : StorageSegment) : BankedSegment :=
  ⟨segment, target.bankDesc segment.domain⟩

theorem key_banked_eq_iff {target : TargetModel} {lhs rhs : StorageSegment} :
    (banked target lhs).key = (banked target rhs).key ↔
      lhs.tile = rhs.tile ∧ lhs.domain = rhs.domain := by
  constructor
  · intro h
    exact ⟨congrArg BankKey.tile h, target.bankDesc_id_injective (congrArg BankKey.bank h)⟩
  · rintro ⟨htile, hdomain⟩
    simp only [BankedSegment.key, banked, htile, hdomain]

section Registers

variable {dfg : TargetDFG} {target : TargetModel} {mapping : StagedMapping}
variable {requirements : StorageRequirements} {options : RFAllocationOptions}

/-- Within the limits, every segment has a bank. -/
theorem mapM_bankFor
    (hanalyze : StorageRequirementAnalysis.analyze dfg target mapping = .ok (.ok requirements))
    (hlimits : requirements.WithinLimits target) :
    requirements.segments.mapM (bankFor target requirements.ii)
      = .ok (requirements.segments.map (banked target)) := by
  refine mapM_eq_map fun segment hmem ↦ ?_
  obtain ⟨hbank, hindices⟩ := StorageRequirementAnalysis.bank_of_analyze hanalyze segment hmem
  have hempty : (target.bankDesc segment.domain).allocatableIndices.isEmpty = false := by
    simpa using hindices
  simp only [bankFor, hbank, hempty, hlimits.fits segment hmem, Bool.false_eq_true, if_false,
    banked]

/-- The demand so far and the demand to come stay within the ports. -/
structure Affordable (ii : ℕ) (demand : PortDemand) (rest : List BankedSegment) : Prop where
  writes : ∀ b ∈ rest, demand.writes.count ⟨b.key, b.segment.writeTime % ii⟩
    + (rest.map fun b ↦ (⟨b.key, b.segment.writeTime % ii⟩ : SlotKey)).count
        ⟨b.key, b.segment.writeTime % ii⟩ ≤ b.bank.writePorts
  reads : ∀ b ∈ rest, demand.reads.count ⟨b.key, b.segment.readTime % ii⟩
    + (rest.map fun b ↦ (⟨b.key, b.segment.readTime % ii⟩ : SlotKey)).count
        ⟨b.key, b.segment.readTime % ii⟩ ≤ b.bank.readPorts

theorem exists_demand {ii : ℕ} {segments : List BankedSegment} {demand : PortDemand}
    (h : Affordable ii demand segments) :
    ∃ later, segments.foldlM (countDemand ii) demand = .ok later := by
  induction segments generalizing demand with
  | nil => exact ⟨demand, rfl⟩
  | cons first rest ih =>
    have hwrites := h.writes first List.mem_cons_self
    have hreads := h.reads first List.mem_cons_self
    rw [List.map_cons, List.count_cons_self] at hwrites hreads
    have hstep : countDemand ii demand first
        = .ok ⟨⟨first.key, first.segment.writeTime % ii⟩ :: demand.writes,
            ⟨first.key, first.segment.readTime % ii⟩ :: demand.reads⟩ := by
      simp only [countDemand, List.count_cons_self]
      rw [if_neg (by omega), if_neg (by omega)]
    rw [List.foldlM_cons, hstep]
    refine ih ⟨fun b hb ↦ ?_, fun b hb ↦ ?_⟩
    · have hb' := h.writes b (List.mem_cons_of_mem _ hb)
      rw [List.map_cons, List.count_cons] at hb'
      rw [List.count_cons]
      omega
    · have hb' := h.reads b (List.mem_cons_of_mem _ hb)
      rw [List.map_cons, List.count_cons] at hb'
      rw [List.count_cons]
      omega

/-- The accesses of a slot, counted over the segments of its bank. -/
theorem count_keys {κ : Type} [DecidableEq κ] {key : StorageSegment → κ}
    {slotOf : StorageSegment → ℕ} (hkey : ∀ lhs rhs, key lhs = key rhs ↔
      (lhs.tile = rhs.tile ∧ lhs.domain = rhs.domain) ∧ slotOf lhs = slotOf rhs)
    (segment : StorageSegment) :
    (requirements.segments.map key).count (key segment)
      = (requirements.inBank segment.tile segment.domain).countP fun other ↦
          slotOf other = slotOf segment := by
  rw [List.count_eq_countP, List.countP_map, StorageRequirements.inBank, List.countP_filter]
  refine List.countP_congr fun other _ ↦ ?_
  simp only [Function.comp_apply, beq_iff_eq, hkey, Bool.and_eq_true, decide_eq_true_eq]
  exact and_comm

theorem slotKey_eq_iff {slotOf : StorageSegment → ℕ} (lhs rhs : StorageSegment) :
    (⟨(banked target lhs).key, slotOf lhs⟩ : SlotKey) = ⟨(banked target rhs).key, slotOf rhs⟩ ↔
      (lhs.tile = rhs.tile ∧ lhs.domain = rhs.domain) ∧ slotOf lhs = slotOf rhs := by
  rw [SlotKey.mk.injEq, key_banked_eq_iff]

theorem exists_demand_of_withinLimits (hlimits : requirements.WithinLimits target) :
    ∃ demand, (requirements.segments.map (banked target)).foldlM (countDemand requirements.ii)
      ⟨[], []⟩ = .ok demand := by
  refine exists_demand ⟨fun b hb ↦ ?_, fun b hb ↦ ?_⟩
  · obtain ⟨segment, hmem, rfl⟩ := List.mem_map.mp hb
    rw [List.count_nil, Nat.zero_add, List.map_map]
    exact (count_keys slotKey_eq_iff segment).le.trans (hlimits.writes segment hmem)
  · obtain ⟨segment, hmem, rfl⟩ := List.mem_map.mp hb
    rw [List.count_nil, Nat.zero_add, List.map_map]
    exact (count_keys slotKey_eq_iff segment).le.trans (hlimits.reads segment hmem)

/-! ## The banks of the tiles -/

theorem conflictGraph_banked {lhs rhs : StorageSegment} {ii : ℕ}
    {policy : SameAddressReadWritePolicy} (hid : lhs.id ≠ rhs.id) :
    conflictGraph ii policy (banked target lhs) (banked target rhs)
      = periodicLifetimesConflict lhs rhs ii policy := by
  show (if lhs.id < rhs.id then periodicLifetimesConflict lhs rhs ii policy
    else if rhs.id < lhs.id then periodicLifetimesConflict rhs lhs ii policy else false) = _
  rcases lt_or_gt_of_ne hid with h | h
  · rw [if_pos h]
  · rw [if_neg h.not_gt, if_pos h, periodicLifetimesConflict_comm]

/-- The group of a segment holds the segments of its bank. -/
theorem mem_bankGroup_iff {group : BankKey × List BankedSegment} {segment other : StorageSegment}
    (hgroup : group ∈ bankGroups (requirements.segments.map (banked target)))
    (hmem : banked target segment ∈ group.2) :
    banked target other ∈ group.2 ↔ other ∈ requirements.inBank segment.tile segment.domain := by
  obtain ⟨-, hkey⟩ := (mem_bankGroups hgroup).mp hmem
  rw [mem_bankGroups hgroup, ← hkey, key_banked_eq_iff, StorageRequirements.mem_inBank]
  refine and_congr_left fun _ ↦ ⟨fun h ↦ ?_, fun h ↦ List.mem_map_of_mem h⟩
  obtain ⟨s, hs, heq⟩ := List.mem_map.mp h
  have hsegment : s = other := congrArg BankedSegment.segment heq
  exact hsegment ▸ hs

variable (hids : (requirements.segments.map StorageSegment.id).Nodup)
include hids

/-- Colours of a group are registers of its bank. -/
theorem properRegisters_of_proper {group : BankKey × List BankedSegment}
    {segment : StorageSegment}
    (hgroup : group ∈ bankGroups (requirements.segments.map (banked target)))
    (hmem : banked target segment ∈ group.2) {color : BankedSegment → ℕ}
    (h : Proper (bankGraph requirements.ii (target.bankDesc segment.domain)) group.2
      (target.bankDesc segment.domain).allocatableIndices color) :
    requirements.ProperRegisters target segment.tile segment.domain
      fun s ↦ color (banked target s) := by
  constructor
  · intro s hs
    exact h.mem _ ((mem_bankGroup_iff hgroup hmem).mpr hs)
  · intro lhs hlhs rhs hrhs hne hconflict
    refine h.apart _ ((mem_bankGroup_iff hgroup hmem).mpr hlhs) _
      ((mem_bankGroup_iff hgroup hmem).mpr hrhs) ?_
    rw [bankGraph, conflictGraph_banked, hconflict]
    intro hid
    exact hne (List.inj_on_of_nodup_map hids (StorageRequirements.mem_inBank.mp hlhs).1
      (StorageRequirements.mem_inBank.mp hrhs).1 hid)

/-- **A group can be coloured when there are registers** for the segments of its bank. -/
theorem bankColorable_iff {group : BankKey × List BankedSegment} {segment : StorageSegment}
    (hgroup : group ∈ bankGroups (requirements.segments.map (banked target)))
    (hmem : banked target segment ∈ group.2) :
    BankColorable requirements.ii group.2 ↔
      requirements.RegistersSuffice target segment.tile segment.domain := by
  have hall : ∀ b ∈ group.2, ∃ s ∈ requirements.inBank segment.tile segment.domain,
      banked target s = b := by
    intro b hb
    obtain ⟨s, hs, rfl⟩ := List.mem_map.mp ((mem_bankGroups hgroup).mp hb).1
    exact ⟨s, (mem_bankGroup_iff hgroup hmem).mp hb, rfl⟩
  constructor
  · intro h
    obtain ⟨color, hproper⟩ := h _ hmem
    exact ⟨_, properRegisters_of_proper hids hgroup hmem hproper⟩
  · rintro ⟨register, hproper⟩ vertex hvertex
    obtain ⟨s, hs, rfl⟩ := hall vertex hvertex
    have hdomain : s.domain = segment.domain := (StorageRequirements.mem_inBank.mp hs).2.2
    have hbank : (banked target s).bank = target.bankDesc segment.domain := by rw [banked, hdomain]
    rw [hbank]
    refine ⟨fun b ↦ register b.segment, fun b hb ↦ ?_, fun a ha b hb hedge ↦ ?_⟩
    · obtain ⟨t, ht, rfl⟩ := hall b hb
      exact hproper.allocatable t ht
    · obtain ⟨t, ht, rfl⟩ := hall a ha
      obtain ⟨u, hu, rfl⟩ := hall b hb
      have hid : t.id ≠ u.id := by
        intro hid
        rw [bankGraph, List.inj_on_of_nodup_map hids (StorageRequirements.mem_inBank.mp ht).1
          (StorageRequirements.mem_inBank.mp hu).1 hid, conflictGraph_self] at hedge
        cases hedge
      rw [bankGraph, conflictGraph_banked hid] at hedge
      exact hproper.apart t ht u hu (fun h ↦ hid (congrArg StorageSegment.id h)) hedge

/-- A bank that cannot be coloured is one of a tile that has too few registers. -/
theorem exists_not_bankColorable_iff :
    (∃ group ∈ bankGroups (requirements.segments.map (banked target)),
        ¬ BankColorable requirements.ii group.2) ↔
      ∃ tile domain, ¬ requirements.RegistersSuffice target tile domain := by
  constructor
  · rintro ⟨group, hgroup, hnot⟩
    rcases hvertices : group.2 with _ | ⟨first, rest⟩
    · rw [hvertices] at hnot
      exact absurd (by simp [BankColorable]) hnot
    · have hfirst : first ∈ group.2 := by simp [hvertices]
      obtain ⟨s, -, rfl⟩ := List.mem_map.mp ((mem_bankGroups hgroup).mp hfirst).1
      exact ⟨s.tile, s.domain, fun h ↦ hnot ((bankColorable_iff hids hgroup hfirst).mpr h)⟩
  · rintro ⟨tile, domain, hnot⟩
    rcases hbank : requirements.inBank tile domain with _ | ⟨first, rest⟩
    · -- no segment asks anything of an empty bank
      refine absurd ⟨fun _ ↦ 0, fun s hs ↦ ?_, fun s hs ↦ ?_⟩ hnot <;>
      · rw [hbank] at hs
        cases hs
    · have hfirst : first ∈ requirements.inBank tile domain := by simp [hbank]
      obtain ⟨hsegment, rfl, rfl⟩ := StorageRequirements.mem_inBank.mp hfirst
      obtain ⟨group, hgroup, hmem⟩ :=
        exists_bankGroup (List.mem_map_of_mem (f := banked target) hsegment)
      exact ⟨group, hgroup, fun h ↦ hnot ((bankColorable_iff hids hgroup hmem).mp h)⟩

end Registers

/-! ## The registers -/

/-- Every segment has a register, and in every bank of a tile the registers are proper. -/
structure ProperlyColored (target : TargetModel) (requirements : StorageRequirements)
    (colors : StorageSegmentId → Option ℕ) : Prop where
  colored : ∀ segment ∈ requirements.segments, ∃ index, colors segment.id = some index
  proper : ∀ tile domain, requirements.ProperRegisters target tile domain
    fun segment ↦ (colors segment.id).getD 0

/-- **The registers are assigned, or there are too few, or the budget has run out.** -/
theorem assignRegisters_spec {dfg : TargetDFG} {target : TargetModel} {mapping : StagedMapping}
    {requirements : StorageRequirements} {options : RFAllocationOptions}
    (hanalyze : StorageRequirementAnalysis.analyze dfg target mapping = .ok (.ok requirements))
    (hlimits : requirements.WithinLimits target) :
    (∃ state, assignRegisters target options requirements
        = .ok (requirements.segments.map (banked target), state) ∧
      ProperlyColored target requirements state.colors ∧
      ∀ tile domain, requirements.RegistersSuffice target tile domain) ∨
    ∃ exit, assignRegisters target options requirements = .error exit ∧
      ColorFailure (∃ tile domain, ¬ requirements.RegistersSuffice target tile domain) exit := by
  have hids := StorageRequirementAnalysis.nodup_ids hanalyze
  have hbanks := mapM_bankFor hanalyze hlimits
  obtain ⟨demand, hdemand⟩ := exists_demand_of_withinLimits hlimits
  have hbanked := banked_of_analyze hanalyze hbanks
  obtain ⟨hok, herror⟩ := @colorBanks_spec requirements.ii options.budget _
    (separate_bankGroups hbanked) ⟨fun _ ↦ none, 0, 0⟩ fun _ _ _ _ ↦ rfl
  rw [assignRegisters, hbanks]
  rcases hrun : (bankGroups (requirements.segments.map (banked target))).foldlM
    (colorBank requirements.ii options.budget) ⟨fun _ ↦ none, 0, 0⟩ with exit | state
  · refine .inr ⟨exit, ?_, ?_⟩
    · refine bind_eq_error.mpr (.inr ⟨_, rfl, ?_⟩)
      refine bind_eq_error.mpr (.inr ⟨_, hdemand, ?_⟩)
      exact bind_eq_error.mpr (.inl hrun)
    · obtain ⟨result, hresult, hstatus⟩ := herror exit hrun
      refine ⟨result, hresult, hstatus.imp_right fun hinfeasible ↦ ⟨hinfeasible.1, ?_⟩⟩
      exact (exists_not_bankColorable_iff hids).mp hinfeasible.2
  · obtain ⟨hcolored, -⟩ := hok state hrun
    have hgroup : ∀ segment ∈ requirements.segments,
        ∃ group ∈ bankGroups (requirements.segments.map (banked target)),
          banked target segment ∈ group.2 := fun segment hmem ↦
      exists_bankGroup (List.mem_map_of_mem hmem)
    have hproper : ∀ tile domain, requirements.ProperRegisters target tile domain
        fun segment ↦ (state.colors segment.id).getD 0 := by
      intro tile domain
      rcases hbank : requirements.inBank tile domain with _ | ⟨first, rest⟩
      · constructor <;>
        · intro s hs
          rw [hbank] at hs
          cases hs
      · have hfirst : first ∈ requirements.inBank tile domain := by simp [hbank]
        obtain ⟨hsegment, rfl, rfl⟩ := StorageRequirements.mem_inBank.mp hfirst
        obtain ⟨group, hmemGroup, hmem⟩ := hgroup first hsegment
        exact properRegisters_of_proper hids hmemGroup hmem
          (hcolored group hmemGroup _ hmem).proper
    refine .inl ⟨state, ?_, ⟨fun segment hmem ↦ ?_, hproper⟩, fun tile domain ↦
      ⟨_, hproper tile domain⟩⟩
    · refine bind_eq_ok.mpr ⟨_, rfl, bind_eq_ok.mpr ⟨_, hdemand, bind_eq_ok.mpr ⟨_, hrun, rfl⟩⟩⟩
    · obtain ⟨group, hmemGroup, hmem⟩ := hgroup segment hmem
      exact (hcolored group hmemGroup _ hmem).all _ hmem

end RFAllocator

end PredicatedMesh
