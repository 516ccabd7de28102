import PredicatedMesh.Lowering.Seeds

/-!
# Write ports in a finite run

A run of `N` iterations writes the register of a segment for the producer iterations `-d, …, N - 1 -
d` of its edge. Before iteration zero nothing has been produced and a boundary constant is written,
through the boundary port; from then on the mapped value, through the write port.

The verifier tells write ports of one slot apart. Of a boundary port it asks that it be in range and
accept the source of the first listed seed, and compares it with no other port. Whether a write of
one segment before iteration zero shares its cycle with a write of another depends on their times,
on their distances and on `N`: that is `Periodic.Meet`, applied to the windows of iterations before
and from zero. `ownPorts_iff` says that every write has a port of its own exactly if the ports are
apart where the windows meet, and `contested_boundary_port` is an accepted allocation in which two
boundary writes of one bank share a port and a cycle.
-/

namespace PredicatedMesh

open Scan RFAllocationVerifier

/-! ## The writes of a run -/

/-- A segment together with its edge and its registers and ports. -/
structure SegmentWriter (dfg : TargetDFG) (mapping : RFAllocatedMapping) where
  index : Fin mapping.storageRequirements.segments.length
  edge : TargetEdge
  allocation : StorageAllocation
  edge_eq : dfg.findEdge (mapping.storageRequirements.segments.get index).edge = some edge
  allocation_eq :
    mapping.allocationFor (mapping.storageRequirements.segments.get index).id = some allocation

namespace SegmentWriter

variable {dfg : TargetDFG} {mapping : RFAllocatedMapping}

def segment (x : SegmentWriter dfg mapping) : StorageSegment :=
  mapping.storageRequirements.segments.get x.index

theorem segment_mem (x : SegmentWriter dfg mapping) :
    x.segment ∈ mapping.storageRequirements.segments := List.get_mem _ _

/-- The producer iterations written before iteration zero in a run. -/
def early (x : SegmentWriter dfg mapping) (tripCount : ℕ) : ℤ × ℤ :=
  (-x.edge.distance, min 0 (tripCount - x.edge.distance))

/-- The producer iterations written from iteration zero on. -/
def late (x : SegmentWriter dfg mapping) (tripCount : ℕ) : ℤ × ℤ :=
  (0, tripCount - x.edge.distance)

/-- Whether the run writes the segment for a producer iteration. -/
def Writes (x : SegmentWriter dfg mapping) (tripCount : ℕ) (i : ℤ) : Prop :=
  -(x.edge.distance : ℤ) ≤ i ∧ i ≤ tripCount - 1 - x.edge.distance

/-- The cycle of a write, up to the shift of the time origin. -/
def cycle (x : SegmentWriter dfg mapping) (i : ℤ) : ℤ :=
  x.segment.writeTime + i * mapping.storageRequirements.ii

/-- The port a boundary instance is written through. -/
def boundaryPort (x : SegmentWriter dfg mapping) : ℕ :=
  x.allocation.boundaryWritePort.getD x.allocation.writePort

def port (x : SegmentWriter dfg mapping) (i : ℤ) : ℕ :=
  if i < 0 then x.boundaryPort else x.allocation.writePort

/-- The register bank of a tile a segment is kept in. -/
def site (x : SegmentWriter dfg mapping) : TileCoord × String :=
  (x.segment.tile, x.allocation.reg.bank)

/-- The source of a write: the constant lowering selects before iteration zero, the mapped source
from then on. -/
def WritesFrom (target : TargetModel) (x : SegmentWriter dfg mapping) (i : ℤ) (source : String) :
    Prop :=
  if i < 0 then
    ∃ id constant, Lowerer.boundaryConstantFor x.edge i = .ok (some id) ∧
      Lowerer.constantFor dfg id = some constant ∧ source = seedSource x.edge constant
  else storageWriteSource dfg target mapping.staged x.segment = .ok source

/-- A port of the segment's bank lists a source. -/
def PortLists (target : TargetModel) (x : SegmentWriter dfg mapping) (port : ℕ)
    (source : String) : Prop :=
  ∃ bank, target.registerBank x.segment.domain x.segment.tile.row x.segment.tile.col = some bank ∧
    portAccepts bank port source = true

end SegmentWriter

/-- Every register write of a run has a port of its own that accepts its source. -/
structure OwnPorts (dfg : TargetDFG) (target : TargetModel) (mapping : RFAllocatedMapping)
    (tripCount : ℕ) : Prop where
  /-- Every segment is written. -/
  written : ∀ index, ∃ x : SegmentWriter dfg mapping, x.index = index
  /-- Writes to one bank in one cycle use different ports. -/
  distinct : ∀ (x y : SegmentWriter dfg mapping) (i j : ℤ), x.Writes tripCount i →
    y.Writes tripCount j → (x.index, i) ≠ (y.index, j) → x.site = y.site →
    x.cycle i = y.cycle j → x.port i ≠ y.port j
  /-- The port accepts the source. -/
  accepts : ∀ (x : SegmentWriter dfg mapping) (i : ℤ), x.Writes tripCount i → ∀ source,
    x.WritesFrom target i source → x.PortLists target (x.port i) source

/-! ## The condition -/

namespace SegmentWriter

variable {dfg : TargetDFG} {mapping : RFAllocatedMapping}

/-- Where writes of `x` before iteration zero meet writes of `y`, the ports differ. -/
def Clear (tripCount : ℕ) (x y : SegmentWriter dfg mapping) : Prop :=
  (Periodic.Meet mapping.storageRequirements.ii x.segment.writeTime y.segment.writeTime
      (x.early tripCount) (y.early tripCount) → x.boundaryPort ≠ y.boundaryPort) ∧
    (Periodic.Meet mapping.storageRequirements.ii x.segment.writeTime y.segment.writeTime
      (x.early tripCount) (y.late tripCount) → x.boundaryPort ≠ y.allocation.writePort)

/-- The first seeds of an edge, in the order they are listed. -/
def firstSeeds (dfg : TargetDFG) (edge : TargetEdge) (count : ℕ) : List String :=
  (edge.info.boundary.map fun boundary ↦
    seedSources dfg edge ⟨boundary.values.take count⟩).getD []

/-- Every seed the run writes has the source of the first listed one, or the boundary port lists
its source. -/
def SeedsServed (target : TargetModel) (tripCount : ℕ) (x : SegmentWriter dfg mapping) : Prop :=
  ∀ source ∈ firstSeeds dfg x.edge (min tripCount x.edge.distance),
    source ∈ firstSeeds dfg x.edge 1 ∨ x.PortLists target x.boundaryPort source

end SegmentWriter

/-- The boundary ports of an allocation are apart from the ports they meet in a run, and serve the
seeds the run writes. -/
structure BoundaryPortsApart (dfg : TargetDFG) (target : TargetModel)
    (mapping : RFAllocatedMapping) (tripCount : ℕ) : Prop where
  clear : ∀ x y : SegmentWriter dfg mapping, x.index ≠ y.index → x.site = y.site →
    x.Clear tripCount y
  served : ∀ x : SegmentWriter dfg mapping, x.SeedsServed target tripCount

/-! ## Windows -/

namespace SegmentWriter

variable {dfg : TargetDFG} {target : TargetModel} {mapping : RFAllocatedMapping} {tripCount : ℕ}

theorem writes_early_iff (x : SegmentWriter dfg mapping) {i : ℤ} :
    (x.early tripCount).1 ≤ i ∧ i < (x.early tripCount).2 ↔ x.Writes tripCount i ∧ i < 0 := by
  rw [early, Writes, lt_min_iff]
  omega

theorem writes_late_iff (x : SegmentWriter dfg mapping) {i : ℤ} :
    (x.late tripCount).1 ≤ i ∧ i < (x.late tripCount).2 ↔ x.Writes tripCount i ∧ 0 ≤ i := by
  rw [late, Writes]
  omega

theorem port_of_neg (x : SegmentWriter dfg mapping) {i : ℤ} (h : i < 0) :
    x.port i = x.boundaryPort := if_pos h

theorem port_of_nonneg (x : SegmentWriter dfg mapping) {i : ℤ} (h : 0 ≤ i) :
    x.port i = x.allocation.writePort := if_neg (not_lt.mpr h)

/-- A segment writes once in each of its cycles. -/
theorem index_ne (hii : 0 < mapping.storageRequirements.ii) {x y : SegmentWriter dfg mapping}
    {i j : ℤ} (hne : (x.index, i) ≠ (y.index, j)) (hcycle : x.cycle i = y.cycle j) :
    x.index ≠ y.index := by
  intro hindex
  refine hne (Prod.ext hindex ?_)
  have hsegment : x.segment = y.segment := by rw [segment, segment, hindex]
  rw [cycle, cycle, hsegment] at hcycle
  exact Periodic.iteration_eq (by exact_mod_cast hii) hcycle

/-- Segments written in one cycle are written in one slot. -/
theorem slot_eq {x y : SegmentWriter dfg mapping} {i j : ℤ} (hcycle : x.cycle i = y.cycle j) :
    x.segment.writeTime % mapping.storageRequirements.ii
      = y.segment.writeTime % mapping.storageRequirements.ii := by
  have hmod := congrArg (· % (mapping.storageRequirements.ii : ℤ)) hcycle
  simp only [cycle, Int.add_mul_emod_self_right] at hmod
  exact_mod_cast hmod

/-! ## Seeds -/

/-- A constant is selected only for an iteration before zero, from the position of its offset. -/
theorem exists_of_boundaryConstantFor {edge : TargetEdge} {i : ℤ} {id : ℕ}
    (h : Lowerer.boundaryConstantFor edge i = .ok (some id)) :
    ∃ boundary offset, edge.info.boundary = some boundary ∧ offset < edge.distance ∧
      i = offset - edge.distance ∧
      ∃ value, boundary.values[offset]? = some value ∧ value.value = .constantRef id := by
  unfold Lowerer.boundaryConstantFor at h
  split at h
  · cases h
  simp only at h
  split at h
  · cases h
  rename_i hrange
  split at h
  · cases h
  · cases h
  · rename_i position id' hfound
    obtain rfl := Option.some.inj (Except.ok.inj h)
    obtain ⟨boundary, hboundary, hvalue⟩ := Option.bind_eq_some_iff.mp hfound
    exact ⟨boundary, (i + edge.distance).toNat, hboundary, by omega, by omega, _, hvalue, rfl⟩

theorem mem_firstSeeds_iff {edge : TargetEdge} {count : ℕ} {source : String} :
    source ∈ firstSeeds dfg edge count ↔ ∃ boundary offset value id constant,
      edge.info.boundary = some boundary ∧ offset < count ∧
      boundary.values[offset]? = some value ∧ value.value = .constantRef id ∧
      Lowerer.constantFor dfg id = some constant ∧ seedSource edge constant = source := by
  unfold firstSeeds
  cases hboundary : edge.info.boundary with
  | none => simp
  | some boundary =>
    rw [Option.map_some, Option.getD_some, mem_seedSources_iff]
    constructor
    · rintro ⟨value, hvalue, id, constant, hid, hconstant, hsource⟩
      obtain ⟨offset, hget⟩ := List.mem_iff_getElem?.mp hvalue
      rw [List.getElem?_take] at hget
      split at hget
      · rename_i hoffset
        exact ⟨boundary, offset, value, id, constant, rfl, hoffset, hget, hid, hconstant, hsource⟩
      · cases hget
    · rintro ⟨listed, offset, value, id, constant, hlisted, hoffset, hget, hid, hconstant, hsource⟩
      obtain rfl := Option.some.inj hlisted
      refine ⟨value, ?_, id, constant, hid, hconstant, hsource⟩
      refine List.mem_iff_getElem?.mpr ⟨offset, ?_⟩
      rw [List.getElem?_take, if_pos hoffset, hget]

/-- The sources a run writes before iteration zero are those of the first seeds. -/
theorem writesFrom_early_iff (x : SegmentWriter dfg mapping) {source : String} :
    (∃ i, x.Writes tripCount i ∧ i < 0 ∧ x.WritesFrom target i source) ↔
      source ∈ firstSeeds dfg x.edge (min tripCount x.edge.distance) := by
  rw [mem_firstSeeds_iff]
  constructor
  · rintro ⟨i, hwrites, hneg, hsource⟩
    rw [WritesFrom, if_pos hneg] at hsource
    obtain ⟨id, constant, hselected, hconstant, rfl⟩ := hsource
    obtain ⟨boundary, offset, hboundary, hoffset, rfl, value, hget, hid⟩ :=
      exists_of_boundaryConstantFor hselected
    refine ⟨boundary, offset, value, id, constant, hboundary, ?_, hget, hid, hconstant, rfl⟩
    have hlast := hwrites.2
    omega
  · rintro ⟨boundary, offset, value, id, constant, hboundary, hoffset, hget, hid, hconstant, rfl⟩
    have hneg : (offset : ℤ) - x.edge.distance < 0 := by omega
    refine ⟨offset - x.edge.distance, ⟨by omega, by omega⟩, hneg, ?_⟩
    rw [WritesFrom, if_pos hneg]
    refine ⟨id, constant, ?_, hconstant, rfl⟩
    rw [boundaryConstantFor_eq_ok_iff hboundary (by omega) hget]
    exact ExternalOperandBinding.constant?_eq_some_iff.mpr hid

/-! ## What the verifier has checked -/

/-- The ports of a writer's segment have been checked. -/
theorem exists_ported (h : verify dfg target mapping = .ok []) (x : SegmentWriter dfg mapping) :
    ∃ bank source boundarySource,
      mapping.Ported dfg target x.segment x.allocation bank source boundarySource := by
  obtain ⟨allocation, bank, source, boundarySource, hported⟩ :=
    (ports_of_verify h).1 x.segment x.segment_mem
  obtain rfl := Option.some.inj (hported.entry.symm.trans x.allocation_eq)
  exact ⟨bank, source, boundarySource, hported⟩

/-- Every segment of an accepted allocation has a writer. -/
theorem exists_writer (h : verify dfg target mapping = .ok [])
    (index : Fin mapping.storageRequirements.segments.length) :
    ∃ x : SegmentWriter dfg mapping, x.index = index := by
  obtain ⟨allocation, bank, source, boundarySource, hported⟩ :=
    (ports_of_verify h).1 _ (List.get_mem mapping.storageRequirements.segments index)
  have hsource := hported.source_eq
  unfold storageWriteSource at hsource
  split at hsource
  · cases hsource
  · rename_i edge hedge
    exact ⟨⟨index, edge, allocation, hedge, hported.entry⟩, rfl⟩

/-- Write ports of one slot differ. -/
theorem writePort_ne (h : verify dfg target mapping = .ok []) {x y : SegmentWriter dfg mapping}
    (hindex : x.index ≠ y.index) (hsite : x.site = y.site)
    (hslot : x.segment.writeTime % mapping.storageRequirements.ii
      = y.segment.writeTime % mapping.storageRequirements.ii) :
    x.allocation.writePort ≠ y.allocation.writePort := by
  have hpairs := List.pairwise_iff_get.mp (ports_of_verify h).2
  obtain ⟨htile, hbank⟩ := Prod.mk.inj hsite
  have hapart : mapping.WritePortsApart x.segment y.segment := by
    rcases lt_or_gt_of_ne hindex with hlt | hlt
    · exact hpairs _ _ hlt
    · exact (hpairs _ _ hlt).symm
  exact hapart _ _ x.allocation_eq y.allocation_eq htile hbank hslot

/-- The boundary port accepts the source of the first listed seed. -/
theorem portLists_of_first (h : verify dfg target mapping = .ok []) (x : SegmentWriter dfg mapping)
    (hdistance : x.edge.distance ≠ 0) {source : String}
    (hfirst : source ∈ firstSeeds dfg x.edge 1) :
    x.PortLists target x.boundaryPort source := by
  obtain ⟨bank, mapped, boundarySource, hported⟩ := x.exists_ported h
  obtain ⟨boundary, offset, value, id, constant, hboundary, hoffset, hget, hid, hconstant, rfl⟩ :=
    mem_firstSeeds_iff.mp hfirst
  obtain rfl : offset = 0 := by omega
  obtain ⟨rest, hvalues⟩ : ∃ rest, boundary.values = value :: rest := by
    cases hlist : boundary.values with
    | nil => simp [hlist] at hget
    | cons head rest =>
      rw [hlist, List.getElem?_cons_zero, Option.some.injEq] at hget
      exact ⟨rest, by rw [hget]⟩
  have hsource := boundaryWriteSource_eq x.edge_eq hdistance hboundary hvalues
    fun id' hid' ↦ ⟨constant, by
      obtain rfl := ExternalOperandBinding.constantRef.inj (hid.symm.trans hid')
      exact hconstant⟩
  rcases hsource with ⟨hnone, -⟩ | ⟨id', constant', hid', hconstant', hsource⟩
  · rw [hid] at hnone
    cases hnone
  · obtain rfl := ExternalOperandBinding.constantRef.inj (hid.symm.trans hid')
    obtain rfl := Option.some.inj (hconstant.symm.trans hconstant')
    obtain rfl := Except.ok.inj (hported.boundarySource_eq.symm.trans hsource)
    obtain ⟨port, hport, -, haccepts⟩ := hported.boundaryPort (seedSource_ne_empty _ _)
    refine ⟨bank, hported.registerBank, ?_⟩
    rwa [boundaryPort, hport, Option.getD_some]

end SegmentWriter

/-! ## The equivalence -/

section Equivalence

variable {dfg : TargetDFG} {target : TargetModel} {mapping : RFAllocatedMapping} {tripCount : ℕ}

open SegmentWriter

/-- Ports are apart wherever writes meet, if they are where boundary writes do. -/
theorem BoundaryPortsApart.port_ne (h : verify dfg target mapping = .ok [])
    (hapart : BoundaryPortsApart dfg target mapping tripCount)
    (hii : 0 < mapping.storageRequirements.ii) {x y : SegmentWriter dfg mapping} {i j : ℤ}
    (hx : x.Writes tripCount i) (hy : y.Writes tripCount j)
    (hne : (x.index, i) ≠ (y.index, j)) (hsite : x.site = y.site)
    (hcycle : x.cycle i = y.cycle j) : x.port i ≠ y.port j := by
  have hii' : (0 : ℤ) < mapping.storageRequirements.ii := by exact_mod_cast hii
  have hindex := index_ne hii hne hcycle
  rcases lt_or_ge i 0 with hi | hi
  · rw [x.port_of_neg hi]
    rcases lt_or_ge j 0 with hj | hj
    · rw [y.port_of_neg hj]
      exact (hapart.clear x y hindex hsite).1 ((Periodic.meet_iff hii').mpr
        ⟨i, j, x.writes_early_iff.mpr ⟨hx, hi⟩, y.writes_early_iff.mpr ⟨hy, hj⟩, hcycle⟩)
    · rw [y.port_of_nonneg hj]
      exact (hapart.clear x y hindex hsite).2 ((Periodic.meet_iff hii').mpr
        ⟨i, j, x.writes_early_iff.mpr ⟨hx, hi⟩, y.writes_late_iff.mpr ⟨hy, hj⟩, hcycle⟩)
  · rw [x.port_of_nonneg hi]
    rcases lt_or_ge j 0 with hj | hj
    · rw [y.port_of_neg hj]
      exact ((hapart.clear y x hindex.symm hsite.symm).2 ((Periodic.meet_iff hii').mpr
        ⟨j, i, y.writes_early_iff.mpr ⟨hy, hj⟩, x.writes_late_iff.mpr ⟨hx, hi⟩,
          hcycle.symm⟩)).symm
    · rw [y.port_of_nonneg hj]
      exact writePort_ne h hindex hsite (slot_eq hcycle)

/-- Where two segments meet, writes that have their own ports have different ones. -/
theorem OwnPorts.clear (h : OwnPorts dfg target mapping tripCount)
    (hii : 0 < mapping.storageRequirements.ii) {x y : SegmentWriter dfg mapping}
    (hindex : x.index ≠ y.index) (hsite : x.site = y.site) : x.Clear tripCount y := by
  have hii' : (0 : ℤ) < mapping.storageRequirements.ii := by exact_mod_cast hii
  have hne : ∀ i j : ℤ, (x.index, i) ≠ (y.index, j) := fun i j heq ↦
    hindex (Prod.mk.inj heq).1
  constructor
  · intro hmeet
    obtain ⟨i, j, hi, hj, hcycle⟩ := (Periodic.meet_iff hii').mp hmeet
    obtain ⟨hx, hi⟩ := x.writes_early_iff.mp hi
    obtain ⟨hy, hj⟩ := y.writes_early_iff.mp hj
    have hport := h.distinct x y i j hx hy (hne i j) hsite hcycle
    rwa [x.port_of_neg hi, y.port_of_neg hj] at hport
  · intro hmeet
    obtain ⟨i, j, hi, hj, hcycle⟩ := (Periodic.meet_iff hii').mp hmeet
    obtain ⟨hx, hi⟩ := x.writes_early_iff.mp hi
    obtain ⟨hy, hj⟩ := y.writes_late_iff.mp hj
    have hport := h.distinct x y i j hx hy (hne i j) hsite hcycle
    rwa [x.port_of_neg hi, y.port_of_nonneg hj] at hport

/-- **When every write of a run has its own port.** For every accepted allocation and every trip
count, the writes of the run have ports of their own that accept their sources exactly if the
boundary ports are apart from the ports they meet and serve the seeds the run writes. -/
theorem ownPorts_iff (dfg : TargetDFG) (target : TargetModel) (mapping : RFAllocatedMapping)
    (tripCount : ℕ) (h : verify dfg target mapping = .ok []) :
    OwnPorts dfg target mapping tripCount ↔
      BoundaryPortsApart dfg target mapping tripCount := by
  obtain ⟨-, -, hii, -⟩ :=
    StorageRequirementAnalysis.analyze_eq_ok (verified_of_verify h).requirements
  constructor
  · intro hown
    refine ⟨fun x y hindex hsite ↦ hown.clear hii hindex hsite, fun x source hsource ↦ .inr ?_⟩
    obtain ⟨i, hwrites, hneg, hfrom⟩ :
        ∃ i, x.Writes tripCount i ∧ i < 0 ∧ x.WritesFrom target i source :=
      x.writesFrom_early_iff.mpr hsource
    rw [← x.port_of_neg hneg]
    exact hown.accepts x i hwrites source hfrom
  · intro hapart
    refine ⟨exists_writer h, fun x y i j hx hy hne hsite hcycle ↦
      hapart.port_ne h hii hx hy hne hsite hcycle, fun x i hx source hfrom ↦ ?_⟩
    rcases lt_or_ge i 0 with hi | hi
    · rw [x.port_of_neg hi]
      have hsource := x.writesFrom_early_iff.mp ⟨i, hx, hi, hfrom⟩
      rcases hapart.served x source hsource with hfirst | hlists
      · refine x.portLists_of_first h (fun hzero ↦ ?_) hfirst
        have := hx.1
        omega
      · exact hlists
    · rw [x.port_of_nonneg hi]
      obtain ⟨bank, mapped, boundarySource, hported⟩ := x.exists_ported h
      rw [WritesFrom, if_neg (not_lt.mpr hi), hported.source_eq, Except.ok.injEq] at hfrom
      exact ⟨bank, hported.registerBank, hfrom ▸ hported.accepts⟩

end Equivalence

/-! ### Two seeds for one port

The two values of the sum are written in one slot through ports of their own. Their seeds, the
constants 7 and 9, are written in one cycle, and both through port one. -/

/-- The writer of the operand from its own tile. -/
def seededSumLocal : SegmentWriter seededSumDFG seededSumAllocated :=
  ⟨⟨0, by decide⟩, _, _, rfl, rfl⟩

/-- The writer of the operand from the east. -/
def seededSumRemote : SegmentWriter seededSumDFG seededSumAllocated :=
  ⟨⟨1, by decide⟩, _, _, rfl, rfl⟩

/-- In a run of one iteration the two seeds are written in one cycle, through one port. -/
theorem contested_boundary_port :
    verify seededSumDFG shippedTarget seededSumAllocated = .ok [] ∧
      seededSumLocal.Writes 1 (-1) ∧ seededSumRemote.Writes 1 (-1) ∧
      seededSumLocal.index ≠ seededSumRemote.index ∧ seededSumLocal.site = seededSumRemote.site ∧
      seededSumLocal.cycle (-1) = seededSumRemote.cycle (-1) ∧
      seededSumLocal.port (-1) = seededSumRemote.port (-1) := by
  refine ⟨seededSumAllocated_accepted, ⟨?_, ?_⟩, ⟨?_, ?_⟩, ?_, rfl, rfl, rfl⟩
  · decide
  · decide
  · decide
  · decide
  · decide

/-- The writes of the sum do not have ports of their own. -/
theorem seededSum_not_ownPorts : ¬ OwnPorts seededSumDFG shippedTarget seededSumAllocated 1 := by
  rw [ownPorts_iff _ _ _ _ seededSumAllocated_accepted]
  intro h
  refine (h.clear seededSumLocal seededSumRemote ?_ rfl).1 ?_ rfl
  · decide
  · decide

end PredicatedMesh
