import PredicatedMesh.Analysis.MII
import PredicatedMesh.Library.Relaxation
import PredicatedMesh.Schedule.Execution

/-!
# The bound of the analyzer is a lower bound

No accepted mapping has an interval below the one the analyzer computes.

For the resource bounds, the execution of a mapping is cut into residues modulo the interval: an
issue slot of a node is a unit and a residue, and two slots that agree in both would make two
instances meet on that unit in some cycle, which `Verified.unit_exclusive` excludes. So a set of
nodes never needs more slots than its units have.

For the recurrence bound, the issue times of the mapping solve the difference constraints, since
transport takes at least as long as the result latency. Relaxation then finds every interval from
the mapping's own on feasible, and bisection never rises above the mapping's.
-/

namespace PredicatedMesh

open Scan

namespace StagedMapping

variable {mapping : StagedMapping} {dfg : TargetDFG} {target : TargetModel}

/-! ## Capacity -/

/-- The issue time of a node, zero if it has none. -/
def issueTime (mapping : StagedMapping) (node : TargetNodeId) : ℕ :=
  match mapping.logicalIssueTime node with
  | .ok time => time
  | .error _ => 0

theorem issueTime_eq {node : TargetNodeId} {time : ℕ}
    (h : mapping.logicalIssueTime node = .ok time) : mapping.issueTime node = time := by
  rw [issueTime, h]

/-- The tile of a node, by coordinates. -/
def tileOf (mapping : StagedMapping) (node : TargetNodeId) : ℕ × ℕ :=
  match mapping.modulo.placement node with
  | .ok placement => (placement.tile.row, placement.tile.col)
  | .error _ => (0, 0)

/-- The issue slots of a node: its tile, and the residues of the cycles it keeps the unit busy. -/
def slots (mapping : StagedMapping) (node : TargetNode) : List ((ℕ × ℕ) × ℕ) :=
  (List.range node.issueOccupancy).map fun offset ↦
    (mapping.tileOf node.id, (mapping.issueTime node.id + offset) % mapping.modulo.ii)

theorem Verified.placed (h : mapping.Verified dfg target) {node : TargetNode}
    (hnode : node ∈ dfg.nodes) : ∃ placement operation,
      mapping.modulo.placement node.id = .ok placement ∧
      target.findOperation node.operation = some operation ∧ target.tileSupportsOperation
        placement.tile.row placement.tile.col operation.id = true ∧
      operation.executionClass = node.executionClass := by
  obtain ⟨table, hplaced, -⟩ := h.modulo.reserved
  obtain ⟨placement, operation, footprint, hp⟩ := hplaced node hnode
  obtain ⟨operation', hagrees⟩ := h.modulo.graph.agrees node hnode
  obtain rfl : operation' = operation := Option.some.inj (hagrees.found.symm.trans hp.found)
  exact ⟨placement, operation', ModuloMapping.placement_of_entries hp.entries, hp.found,
    hp.supports, hagrees.executionClass⟩

/-- A slot of a node is occupied, in a cycle of every iteration. -/
theorem Verified.occupies_slot (h : mapping.Verified dfg target) {node : TargetNode}
    (hnode : node ∈ dfg.nodes) {offset : ℕ} (hoffset : offset < node.issueOccupancy) (k : ℤ) :
    mapping.Occupies node k node.executionClass
      ⟨(mapping.tileOf node.id).1, (mapping.tileOf node.id).2⟩
      (mapping.issueTime node.id + offset + k * mapping.modulo.ii) := by
  obtain ⟨placement, operation, hplacement, -⟩ := h.placed hnode
  obtain ⟨time, htime⟩ := h.times node hnode
  refine ⟨rfl, ⟨placement, hplacement, ?_⟩, time + k * mapping.modulo.ii, ⟨time, htime, rfl⟩, ?_,
    ?_⟩
  · simp [tileOf, hplacement]
  · rw [issueTime_eq htime]
    omega
  · rw [issueTime_eq htime]
    omega

/-- **Slots are not shared.** -/
theorem Verified.slot_injective (h : mapping.Verified dfg target) {n m : TargetNode}
    (hn : n ∈ dfg.nodes) (hm : m ∈ dfg.nodes) (hclass : n.executionClass = m.executionClass)
    {i j : ℕ} (hi : i < n.issueOccupancy) (hj : j < m.issueOccupancy)
    (htile : mapping.tileOf n.id = mapping.tileOf m.id)
    (hslot : (mapping.issueTime n.id + i) % mapping.modulo.ii
      = (mapping.issueTime m.id + j) % mapping.modulo.ii) : n = m ∧ i = j := by
  -- each instance is moved on by the other's full periods, so that the two meet
  have hocc := h.occupies_slot hn hi ((mapping.issueTime m.id + j) / mapping.modulo.ii : ℕ)
  have hocc' := h.occupies_slot hm hj ((mapping.issueTime n.id + i) / mapping.modulo.ii : ℕ)
  have hn' := Nat.div_add_mod' (mapping.issueTime n.id + i) mapping.modulo.ii
  have hm' := Nat.div_add_mod' (mapping.issueTime m.id + j) mapping.modulo.ii
  have hcycle : ((mapping.issueTime n.id : ℤ) + i
        + ((mapping.issueTime m.id + j) / mapping.modulo.ii : ℕ) * mapping.modulo.ii)
      = mapping.issueTime m.id + j
        + ((mapping.issueTime n.id + i) / mapping.modulo.ii : ℕ) * mapping.modulo.ii := by
    norm_cast
    omega
  rw [hcycle, hclass, htile] at hocc
  obtain ⟨rfl, hperiods⟩ := h.unit_exclusive hn hm hocc hocc'
  refine ⟨rfl, ?_⟩
  have hperiods : (mapping.issueTime n.id + j) / mapping.modulo.ii
      = (mapping.issueTime n.id + i) / mapping.modulo.ii := by exact_mod_cast hperiods
  rw [hperiods, ← hslot] at hm'
  omega

/-- **Demand does not exceed capacity**: nodes of one class need no more issue slots than the tiles
they are placed on have in an interval. -/
theorem Verified.demand_le (h : mapping.Verified dfg target) (nodes : List TargetNode)
    (executionClass : TargetExecutionClass) (tiles : List (ℕ × ℕ))
    (hsub : ∀ n ∈ nodes, n ∈ dfg.nodes) (hnodup : nodes.Nodup)
    (hclass : ∀ n ∈ nodes, n.executionClass = executionClass)
    (htiles : ∀ n ∈ nodes, mapping.tileOf n.id ∈ tiles) :
    (nodes.map TargetNode.issueOccupancy).sum ≤ tiles.length * mapping.modulo.ii := by
  have hslots : (nodes.flatMap mapping.slots).Nodup := by
    rw [List.nodup_flatMap]
    constructor
    · intro n hn
      refine List.Nodup.map_on (fun i hi j hj hij ↦ ?_) List.nodup_range
      rw [List.mem_range] at hi hj
      exact (h.slot_injective (hsub n hn) (hsub n hn) rfl hi hj rfl (Prod.mk.inj hij).2).2
    · refine hnodup.imp_of_mem fun {n m} hn hm hne ↦ ?_
      rw [Function.onFun, List.disjoint_left]
      intro slot hslot hslot'
      obtain ⟨i, hi, rfl⟩ := List.mem_map.mp hslot
      obtain ⟨j, hj, hij⟩ := List.mem_map.mp hslot'
      rw [List.mem_range] at hi hj
      obtain ⟨htile, hresidue⟩ := Prod.mk.inj hij
      exact hne (h.slot_injective (hsub n hn) (hsub m hm) ((hclass n hn).trans (hclass m hm).symm)
        hi hj htile.symm hresidue.symm).1
  have hsubset : nodes.flatMap mapping.slots ⊆ tiles ×ˢ List.range mapping.modulo.ii := by
    intro slot hslot
    obtain ⟨n, hn, hslot⟩ := List.mem_flatMap.mp hslot
    obtain ⟨i, -, rfl⟩ := List.mem_map.mp hslot
    exact List.mem_product.mpr
      ⟨htiles n hn, List.mem_range.mpr (Nat.mod_lt _ h.ii_pos)⟩
  have hlength := (hslots.subperm hsubset).length_le
  rw [List.length_product, List.length_range, List.length_flatMap] at hlength
  simpa [slots] using hlength

/-! ## Where nodes can be -/

theorem Verified.tileOf_mem_tiles (h : mapping.Verified dfg target) {node : TargetNode}
    (hnode : node ∈ dfg.nodes) : mapping.tileOf node.id ∈ target.tiles := by
  obtain ⟨placement, operation, hplacement, -, hsupports, -⟩ := h.placed hnode
  rw [tileOf, hplacement]
  exact TargetModel.mem_tiles_iff.mpr (TargetModel.tileSupportsOperation_inRange hsupports)

theorem Verified.tileOf_mem_lsuTiles (h : mapping.Verified dfg target) {node : TargetNode}
    (hnode : node ∈ dfg.nodes) (hclass : node.executionClass = .lsu) :
    mapping.tileOf node.id ∈ target.lsuTiles.map fun tile ↦ (tile.row, tile.col) := by
  obtain ⟨placement, operation, hplacement, hfound, hsupports, hoperation⟩ := h.placed hnode
  rw [TargetModel.tileSupportsOperation, TargetModel.findOperation_id hfound, hfound] at hsupports
  rw [tileOf, hplacement]
  split at hsupports
  · cases hsupports
  · simp only [hoperation, hclass] at hsupports
    obtain ⟨tile, htile, hrow, hcol⟩ := TargetModel.tileHasLSU_iff.mp hsupports
    exact List.mem_map.mpr ⟨tile, htile, by rw [hrow, hcol]⟩

theorem Verified.tileOf_mem_compatibleTiles (h : mapping.Verified dfg target) {node : TargetNode}
    (hnode : node ∈ dfg.nodes) :
    mapping.tileOf node.id ∈ target.compatibleTiles node.operation := by
  obtain ⟨placement, operation, hplacement, hfound, hsupports, -⟩ := h.placed hnode
  rw [TargetModel.findOperation_id hfound] at hsupports
  have hmem := h.tileOf_mem_tiles hnode
  rw [tileOf, hplacement] at hmem ⊢
  exact List.mem_filter.mpr ⟨hmem, hsupports⟩

end StagedMapping

namespace MIIAnalyzer

/-! ## The resource bounds -/

section Resources

variable {mapping : StagedMapping} {dfg : TargetDFG} {target : TargetModel}

theorem checkedAdd_eq {lhs rhs r : ℕ} (h : checkedAdd lhs rhs = some r) : r = lhs + rhs := by
  unfold checkedAdd at h
  split at h
  · cases h
  · exact (Option.some.inj h).symm

theorem ceilDivToMII_le {numerator denominator bound ii : ℕ}
    (h : ceilDivToMII numerator denominator = some bound) (hle : numerator ≤ denominator * ii)
    (hii : 0 < ii) : bound ≤ ii := by
  unfold ceilDivToMII at h
  split at h
  · rw [← Option.some.inj h]
    exact hii
  split at h
  · cases h
  rename_i hnumerator hdenominator
  rw [Option.ite_none_left_eq_some, Option.some.injEq] at h
  rw [← h.2]
  have hpos : 0 < denominator := Nat.pos_of_ne_zero hdenominator
  have hdiv : numerator / denominator ≤ ii := by
    rw [Nat.div_le_iff_le_mul_add_pred hpos]
    omega
  split
  · omega
  · rename_i hmod
    -- a remainder is left, so the quotient is not the whole interval
    have hlt : numerator / denominator ≠ ii := by
      intro heq
      have := Nat.div_add_mod numerator denominator
      rw [heq] at this
      omega
    omega

/-- The demand counted so far is that of the nodes counted so far. -/
structure Counts (demand : Demand) (nodes : List TargetNode) : Prop where
  fu : demand.fu = ((nodes.filter fun n ↦ n.executionClass = .fu).map
    TargetNode.issueOccupancy).sum
  lsu : demand.lsu = ((nodes.filter fun n ↦ n.executionClass = .lsu).map
    TargetNode.issueOccupancy).sum
  selfOccupancy : demand.selfOccupancy = 1 ∨
    ∃ n ∈ nodes, demand.selfOccupancy = n.issueOccupancy
  perOperation : ∀ entry ∈ demand.perOperation, entry.2
    ≤ ((nodes.filter fun n ↦ n.operation = entry.1).map TargetNode.issueOccupancy).sum

theorem counts_nil : Counts {} [] :=
  ⟨rfl, rfl, Or.inl rfl, fun _ h ↦ absurd h List.not_mem_nil⟩

/-- An entry of the updated table is an old one, or it has grown by the demand. -/
theorem mem_addPerOperation {name : String} {demand : ℕ} {entries entries' : List (String × ℕ)}
    (h : addPerOperation name demand entries = some entries') {entry : String × ℕ}
    (hentry : entry ∈ entries') :
    entry ∈ entries ∨ (entry.1 = name ∧
      (entry.2 = demand ∨ ∃ total, (name, total) ∈ entries ∧ entry.2 = total + demand)) := by
  induction entries generalizing entries' with
  | nil =>
    obtain ⟨total, htotal, rfl⟩ := Option.map_eq_some_iff.mp h
    rw [List.mem_singleton] at hentry
    subst hentry
    right
    exact ⟨rfl, Or.inl (by simpa using checkedAdd_eq htotal)⟩
  | cons first entries ih =>
    rw [addPerOperation] at h
    split at h
    · rename_i hname
      subst hname
      obtain ⟨total, htotal, rfl⟩ := Option.map_eq_some_iff.mp h
      rcases List.mem_cons.mp hentry with rfl | hentry
      · exact Or.inr ⟨rfl, Or.inr ⟨first.2, List.mem_cons_self, checkedAdd_eq htotal⟩⟩
      · exact Or.inl (List.mem_cons_of_mem _ hentry)
    split at h
    · obtain ⟨total, htotal, rfl⟩ := Option.map_eq_some_iff.mp h
      rcases List.mem_cons.mp hentry with rfl | hentry
      · exact Or.inr ⟨rfl, Or.inl (by simpa using checkedAdd_eq htotal)⟩
      · exact Or.inl hentry
    · obtain ⟨rest, hrest, rfl⟩ := Option.map_eq_some_iff.mp h
      rcases List.mem_cons.mp hentry with rfl | hentry
      · exact Or.inl List.mem_cons_self
      · rcases ih hrest hentry with hold | ⟨hname, hnew | ⟨total, hmem, hgrown⟩⟩
        · exact Or.inl (List.mem_cons_of_mem _ hold)
        · exact Or.inr ⟨hname, Or.inl hnew⟩
        · exact Or.inr ⟨hname, Or.inr ⟨total, List.mem_cons_of_mem _ hmem, hgrown⟩⟩

theorem countNode_clean {demand demand' : Demand} {nodes : List TargetNode} {node : TargetNode}
    (hc : Counts demand nodes) (h : countNode target demand node = (demand', [])) :
    Counts demand' (nodes ++ [node]) := by
  unfold countNode at h
  split at h
  · simp at h
  split at h
  · simp at h
  split at h
  · simp at h
  rename_i perOperation hadd
  have hself : max demand.selfOccupancy node.issueOccupancy = 1 ∨
      ∃ n ∈ nodes ++ [node], max demand.selfOccupancy node.issueOccupancy = n.issueOccupancy := by
    rcases le_total demand.selfOccupancy node.issueOccupancy with hle | hle
    · exact Or.inr ⟨node, by simp, max_eq_right hle⟩
    · rw [max_eq_left hle]
      refine hc.selfOccupancy.imp_right ?_
      rintro ⟨n, hn, heq⟩
      exact ⟨n, List.mem_append_left _ hn, heq⟩
  have hper : ∀ entry ∈ perOperation, entry.2 ≤ (((nodes ++ [node]).filter
      fun n ↦ n.operation = entry.1).map TargetNode.issueOccupancy).sum := by
    intro entry hentry
    rw [List.filter_append, List.map_append, List.sum_append]
    rcases mem_addPerOperation hadd hentry with hold | ⟨hname, hgrown⟩
    · exact (hc.perOperation entry hold).trans (Nat.le_add_right _ _)
    · have hnode : ([node].filter fun n ↦ n.operation = entry.1) = [node] := by simp [hname]
      rw [hnode, List.map_singleton, List.sum_singleton]
      rcases hgrown with heq | ⟨total, hmem, heq⟩
      · omega
      · have hold := hc.perOperation _ hmem
        simp only [← hname] at hold
        omega
  simp only at h
  split at h
  · rename_i hclass
    split at h
    · simp at h
    · rename_i fu hfu
      obtain ⟨rfl, -⟩ := Prod.mk.inj h
      refine ⟨?_, ?_, hself, hper⟩
      · rw [checkedAdd_eq hfu, hc.fu]
        simp [hclass]
      · simpa [hclass] using hc.lsu
  · rename_i hclass
    split at h
    · simp at h
    · rename_i lsu hlsu
      obtain ⟨rfl, -⟩ := Prod.mk.inj h
      refine ⟨?_, ?_, hself, hper⟩
      · simpa [hclass] using hc.fu
      · rw [checkedAdd_eq hlsu, hc.lsu]
        simp [hclass]

theorem countNodes_clean {demand demand' : Demand} {done nodes : List TargetNode}
    (hc : Counts demand done) (h : countNodes target demand nodes = (demand', [])) :
    Counts demand' (done ++ nodes) := by
  induction nodes generalizing demand done with
  | nil =>
    obtain ⟨rfl, -⟩ := Prod.mk.inj h
    simpa using hc
  | cons node nodes ih =>
    obtain ⟨hrest, hfailures⟩ := Prod.mk.inj h
    rw [List.append_eq_nil_iff] at hfailures
    have hnode : Counts (countNode target demand node).1 (done ++ [node]) :=
      countNode_clean hc (Prod.ext rfl hfailures.1)
    simpa using ih hnode (Prod.ext hrest hfailures.2)

/-- The bound of single operations is one of the bounds it is the largest of. -/
theorem perOperationBound_le {ii bound result : ℕ} {entries : List (String × ℕ)}
    (h : perOperationBound target bound entries = .ok (result, [])) (hbound : bound ≤ ii)
    (hentries : ∀ entry ∈ entries, ∀ operation, target.findOperation entry.1 = some operation →
      ∀ b, ceilDivToMII entry.2 (target.compatibleResourceCount operation) = some b → b ≤ ii) :
    result ≤ ii := by
  induction entries generalizing bound with
  | nil =>
    obtain ⟨rfl, -⟩ := Prod.mk.inj (Except.ok.inj h)
    exact hbound
  | cons entry entries ih =>
    obtain ⟨name, demand⟩ := entry
    rw [perOperationBound] at h
    split at h
    · cases h
    rename_i operation hoperation
    simp only at h
    split at h
    · obtain ⟨rest, -, h⟩ := bind_eq_ok.mp h
      simp [pure, Except.pure] at h
    split at h
    · simp at h
    rename_i b hb
    have hle := hentries _ List.mem_cons_self operation hoperation b hb
    exact ih h (max_le hbound hle) fun e he ↦ hentries e (List.mem_cons_of_mem _ he)

/-- The nodes of one operation need no more slots than the units that can execute it have. -/
theorem operationDemand_le (h : mapping.Verified dfg target) (hnodup : dfg.nodes.Nodup)
    {name : String} {operation : TargetOperationDesc}
    (hoperation : target.findOperation name = some operation) :
    ((dfg.nodes.filter fun n ↦ n.operation = name).map TargetNode.issueOccupancy).sum
      ≤ target.compatibleResourceCount operation * mapping.modulo.ii := by
  have hmem : ∀ n ∈ dfg.nodes.filter fun n ↦ n.operation = name,
      n ∈ dfg.nodes ∧ n.operation = name := fun n hn ↦ by simpa using List.mem_filter.mp hn
  have hclass : ∀ n ∈ dfg.nodes.filter fun n ↦ n.operation = name,
      n.executionClass = operation.executionClass := by
    intro n hn
    obtain ⟨placement, operation', -, hfound, -, hclass⟩ := h.placed (hmem n hn).1
    rw [(hmem n hn).2, hoperation, Option.some.injEq] at hfound
    rw [hfound, hclass]
  rcases List.eq_nil_or_concat (dfg.nodes.filter fun n ↦ n.operation = name) with
    hnil | ⟨init, n, hconcat⟩
  · simp [hnil]
  -- some node is bound to the operation, so its encoding is valid
  have hn : n ∈ dfg.nodes.filter fun n ↦ n.operation = name := by simp [hconcat]
  have hencoding : target.hasValidEncoding operation = true := by
    obtain ⟨operation', hagrees⟩ := h.modulo.graph.agrees n (hmem n hn).1
    have hfound := hagrees.found
    rw [(hmem n hn).2, hoperation, Option.some.injEq] at hfound
    have hexecutable := hagrees.executable
    rw [← hfound, TargetModel.isOperationExecutable, TargetModel.compatibleResourceCount]
      at hexecutable
    by_contra hinvalid
    simp [hinvalid] at hexecutable
  rw [TargetModel.compatibleResourceCount, if_pos hencoding]
  cases hoperationClass : operation.executionClass with
  | fu =>
    refine h.demand_le _ .fu _ (fun n hn ↦ (hmem n hn).1) (hnodup.filter _)
      (fun n hn ↦ (hclass n hn).trans hoperationClass) fun n hn ↦ ?_
    rw [TargetModel.findOperation_id hoperation, ← (hmem n hn).2]
    exact h.tileOf_mem_compatibleTiles (hmem n hn).1
  | lsu =>
    have hdemand := h.demand_le _ .lsu _ (fun n hn ↦ (hmem n hn).1) (hnodup.filter _)
      (fun n hn ↦ (hclass n hn).trans hoperationClass) fun n hn ↦
        h.tileOf_mem_lsuTiles (hmem n hn).1 ((hclass n hn).trans hoperationClass)
    rwa [List.length_map] at hdemand

/-- **The resource bound is a lower bound.** -/
theorem resourceMII_le (h : mapping.Verified dfg target) {breakdown : ResourceMIIBreakdown}
    (hb : resourceBreakdown dfg target = .ok breakdown) :
    resourceMII breakdown ≤ mapping.modulo.ii := by
  have hii := h.ii_pos
  have hnodup : dfg.nodes.Nodup := List.Nodup.of_map _ h.modulo.graph.nodup_nodes
  unfold resourceBreakdown at hb
  simp only at hb
  split at hb
  · cases hb
  rename_i hfailures
  have hcounts : Counts (countNodes target {} dfg.nodes).1 ([] ++ dfg.nodes) :=
    countNodes_clean counts_nil (Prod.ext rfl (not_not.mp hfailures))
  rw [List.nil_append] at hcounts
  split at hb
  · cases hb
  split at hb
  swap
  · cases hb
  rename_i selfBound fuBound lsuBound hself hfu hlsu
  split at hb
  · cases hb
  rename_i perOperation failures hper
  split at hb
  · cases hb
  rename_i hnone
  obtain rfl := not_not.mp hnone
  obtain rfl := Except.ok.inj hb
  -- a single node, the function units, the load-store units, one operation
  have hselfLe : selfBound ≤ mapping.modulo.ii := by
    refine ceilDivToMII_le hself ?_ hii
    rw [one_mul]
    rcases hcounts.selfOccupancy with hone | ⟨n, hn, hoccupancy⟩
    · omega
    · have hdemand := h.demand_le [n] n.executionClass [mapping.tileOf n.id] (by simpa using hn)
        (List.nodup_singleton n) (by simp) (by simp)
      simpa [hoccupancy] using hdemand
  have hfuLe : fuBound ≤ mapping.modulo.ii := by
    refine ceilDivToMII_le hfu ?_ hii
    rw [hcounts.fu, TargetModel.executionResourceCount, ← TargetModel.length_tiles]
    refine h.demand_le _ .fu _ (fun n hn ↦ (List.mem_filter.mp hn).1) (hnodup.filter _)
      (fun n hn ↦ by simpa using (List.mem_filter.mp hn).2) fun n hn ↦ ?_
    exact h.tileOf_mem_tiles (List.mem_filter.mp hn).1
  have hlsuLe : lsuBound ≤ mapping.modulo.ii := by
    refine ceilDivToMII_le hlsu ?_ hii
    rw [hcounts.lsu, TargetModel.executionResourceCount]
    have hclass : ∀ n ∈ dfg.nodes.filter fun n ↦ n.executionClass = .lsu,
        n.executionClass = .lsu := fun n hn ↦ by simpa using (List.mem_filter.mp hn).2
    have hdemand := h.demand_le _ .lsu _ (fun n hn ↦ (List.mem_filter.mp hn).1) (hnodup.filter _)
      hclass fun n hn ↦ h.tileOf_mem_lsuTiles (List.mem_filter.mp hn).1 (hclass n hn)
    rwa [List.length_map] at hdemand
  have hperLe : perOperation ≤ mapping.modulo.ii := by
    refine perOperationBound_le hper hii fun entry hentry operation hoperation b hbound ↦ ?_
    refine ceilDivToMII_le hbound ((hcounts.perOperation entry hentry).trans ?_) hii
    exact operationDemand_le h hnodup hoperation
  simp only [resourceMII]
  omega

end Resources

/-! ## Feasibility -/

section Feasibility

variable {n : ℕ}

/-- The values, as a function on the nodes. -/
def values (longest : List ℤ) (i : Fin (n + 1)) : ℤ := longest.getD i 0

/-- A constraint between two of the nodes, as a difference constraint. -/
def difference (n ii : ℕ) (c : IndexedConstraint) : Relaxation.Constraint (Fin (n + 1)) :=
  ⟨@Fin.ofNat (n + 1) Nat.instNeZeroSucc c.srcIndex,
    @Fin.ofNat (n + 1) Nat.instNeZeroSucc c.dstIndex,
    weight ii c⟩

/-- Both ends are nodes. -/
def InRange (n : ℕ) (c : IndexedConstraint) : Prop := c.srcIndex < n + 1 ∧ c.dstIndex < n + 1

theorem values_ofNat (longest : List ℤ) {i : ℕ} (hi : i < n + 1) :
    values longest (Fin.ofNat (n + 1) i) = longest.getD i 0 := by
  rw [values, Fin.val_ofNat, Nat.mod_eq_of_lt hi]

theorem values_set {longest : List ℤ} (hlength : longest.length = n + 1) {i : ℕ} (hi : i < n + 1)
    (v : ℤ) : (values (longest.set i v) : Fin (n + 1) → ℤ)
      = Function.update (values longest) (Fin.ofNat (n + 1) i) v := by
  funext j
  by_cases hj : j = Fin.ofNat (n + 1) i
  · subst hj
    rw [Function.update_self, values_ofNat _ hi]
    simp [hlength, hi]
  · have hne : i ≠ j := by
      rintro rfl
      exact hj (Fin.ofNat_val_eq_self j).symm
    rw [Function.update_of_ne hj]
    simp [values, List.getD_eq_getElem?_getD, List.getElem?_set_ne hne]

/-- A step of the analyzer relaxes a difference constraint, and reports whether it changed
anything. -/
theorem relaxStep_spec (ii : ℕ) {state : Relaxed} (hlength : state.longest.length = n + 1)
    {c : IndexedConstraint} (hc : InRange n c) (index : ℕ) :
    (relaxStep ii state (c, index)).longest.length = n + 1 ∧
      values (relaxStep ii state (c, index)).longest
        = Relaxation.relax (values state.longest) (difference n ii c) ∧
      ((difference n ii c).Holds (values state.longest) →
        (relaxStep ii state (c, index)).lastUpdated = state.lastUpdated) := by
  have hsrc := values_ofNat state.longest hc.1
  have hdst := values_ofNat state.longest hc.2
  simp only [relaxStep, Relaxation.relax, Relaxation.Constraint.Holds, difference, hsrc, hdst]
  split
  · rename_i hlt
    refine ⟨by simpa using hlength, values_set hlength hc.2 _, fun hholds ↦ ?_⟩
    exact absurd hholds (not_le.mpr hlt)
  · exact ⟨hlength, rfl, fun _ ↦ rfl⟩

theorem relaxSteps_spec (ii : ℕ) {cs : List IndexedConstraint} (hcs : ∀ c ∈ cs, InRange n c)
    (state : Relaxed) (hlength : state.longest.length = n + 1) (start : ℕ) :
    ((cs.zipIdx start).foldl (relaxStep ii) state).longest.length = n + 1 ∧
      values ((cs.zipIdx start).foldl (relaxStep ii) state).longest
        = Relaxation.round (cs.map (difference n ii)) (values state.longest) ∧
      (Relaxation.Satisfies (values state.longest) (cs.map (difference n ii)) →
        ((cs.zipIdx start).foldl (relaxStep ii) state).lastUpdated = state.lastUpdated) := by
  induction cs generalizing state start with
  | nil => exact ⟨hlength, rfl, fun _ ↦ rfl⟩
  | cons c cs ih =>
    obtain ⟨hlength', hvalues, hupdated⟩ :=
      relaxStep_spec ii hlength (hcs c List.mem_cons_self) start
    obtain ⟨hlength'', hvalues', hupdated'⟩ :=
      ih (fun d hd ↦ hcs d (List.mem_cons_of_mem c hd)) _ hlength' (start + 1)
    rw [List.zipIdx_cons, List.foldl_cons]
    refine ⟨hlength'', ?_, fun hsatisfies ↦ ?_⟩
    · rw [hvalues', hvalues]
      rfl
    · have hholds := hsatisfies _ List.mem_cons_self
      rw [hupdated', hupdated hholds]
      rw [hvalues, Relaxation.relax_of_holds hholds]
      exact fun d hd ↦ hsatisfies d (List.mem_cons_of_mem _ hd)

/-- Once the constraints hold, the rounds stop. -/
theorem relaxRounds_feasible {cs : List IndexedConstraint} (hcs : ∀ c ∈ cs, InRange n c) {ii k : ℕ}
    {state : Relaxed} (hlength : state.longest.length = n + 1)
    (hsatisfies : Relaxation.Satisfies
      ((Relaxation.round (cs.map (difference n ii)))^[k] (values state.longest))
      (cs.map (difference n ii))) : (relaxRounds cs ii (k + 1) state).1 = true := by
  induction k generalizing state with
  | zero =>
    obtain ⟨-, -, hupdated⟩ :=
      relaxSteps_spec ii hcs { state with lastUpdated := none } hlength 0
    simp [relaxRounds, relaxRound, hupdated hsatisfies]
  | succ k ih =>
    obtain ⟨hlength', hvalues, -⟩ :=
      relaxSteps_spec ii hcs { state with lastUpdated := none } hlength 0
    rw [relaxRounds]
    split
    · rfl
    · refine ih hlength' ?_
      rw [Function.iterate_succ_apply] at hsatisfies
      rwa [relaxRound, hvalues]

/-- **Constraints that have a solution are found feasible.** -/
theorem evaluate_feasible {cs : List IndexedConstraint} (hcs : ∀ c ∈ cs, InRange n c) {ii : ℕ}
    {x : Fin (n + 1) → ℤ} (hx : Relaxation.Satisfies x (cs.map (difference n ii))) :
    (evaluate cs (n + 1) ii).feasible = true := by
  have hzero : (values (List.replicate (n + 1) 0) : Fin (n + 1) → ℤ) = 0 := by
    funext i
    simp [values, List.getD_eq_getElem?_getD, i.isLt]
  have hsatisfies := Relaxation.satisfies_iterate hx
  rw [Fintype.card_fin, Nat.add_sub_cancel, ← hzero] at hsatisfies
  exact relaxRounds_feasible hcs (by simp) hsatisfies

end Feasibility

/-- Bisection does not rise above a bound from which on everything is feasible. -/
theorem bisect_le {feasible : ℕ → Bool} {bound : ℕ} (h : ∀ ii, bound ≤ ii → feasible ii = true)
    {fuel low high : ℕ} (hlow : low ≤ bound) : bisect feasible fuel low high ≤ bound := by
  induction fuel generalizing low high with
  | zero => exact hlow
  | succ fuel ih =>
    rw [bisect]
    split
    · simp only
      split
      · exact ih hlow
      · rename_i hinfeasible
        refine ih ?_
        by_contra! hlt
        exact hinfeasible (h _ (by omega))
    · exact hlow

/-! ## The recurrence bound -/

section Recurrence

variable {mapping : StagedMapping} {dfg : TargetDFG} {target : TargetModel}

/-- The result of an operation is available at the latest one cycle after it can be routed. -/
def TimelyResults (target : TargetModel) : Prop :=
  ∀ operation ∈ target.operations, operation.resultRole ≠ .void →
    ∀ latency ∈ operation.resultLatency, ∀ ready ∈ operation.producerOutputReadyOffset,
      latency ≤ ready + 1

/-- Transport takes at least as long as the intrinsic separation says. -/
theorem intrinsicSeparation_le (h : mapping.Verified dfg target) (htimely : TimelyResults target)
    {edge : TargetEdge} (hedge : edge ∈ dfg.edges) {separation : ℕ}
    (hseparation : intrinsicSeparation dfg target edge = .ok (.inl separation)) :
    mapping.issueTime edge.src + separation
      ≤ edge.distance * mapping.modulo.ii + mapping.issueTime edge.dst := by
  obtain ⟨src, dst, dependence, hsrc, hdst, hdependence, hle⟩ := h.constraints edge hedge
  rw [StagedMapping.issueTime_eq hsrc, StagedMapping.issueTime_eq hdst]
  suffices hrequired : separation ≤ dependence.requiredSeparationCycles by omega
  obtain ⟨table, -, hrealized⟩ := h.modulo.reserved
  obtain ⟨dependence', hd⟩ := hrealized edge hedge
  rw [ModuloMapping.dependence_of_entries hd.entries, Except.ok.injEq] at hdependence
  subst hdependence
  by_cases hkind : edge.kind = .memory
  · obtain ⟨kind, hinfo⟩ := TargetEdge.kind_eq_memory_iff.mp hkind
    simp only [intrinsicSeparation, hinfo] at hseparation
    split at hseparation
    · cases hseparation
    · obtain rfl := Sum.inl.inj (Except.ok.inj hseparation)
      exact (hd.memory kind hinfo).2.ge
  · obtain ⟨producer, ready, srcPlacement, dstPlacement, plan, route, hproducer, hready, -, hsep,
      hrouted⟩ := hd.value hkind
    have hlatency : producer.resultLatency = some separation := by
      unfold intrinsicSeparation at hseparation
      split at hseparation
      · rename_i hinfo
        exact absurd (TargetEdge.kind_eq_memory_iff.mpr ⟨_, hinfo⟩) hkind
      · rw [hproducer] at hseparation
        simp only at hseparation
        split at hseparation
        · cases hseparation
        · rename_i latency hlatency
          split at hseparation
          · cases hseparation
          · obtain rfl := Sum.inl.inj (Except.ok.inj hseparation)
            exact hlatency
    -- the route has at least one action, and that takes time
    have hlt := (hrouted.chain 0).time_lt hrouted.hopLatency_pos hrouted.nonempty
    obtain ⟨operation, hagrees⟩ :=
      h.modulo.graph.agrees producer (TargetDFG.mem_of_findNode hproducer)
    obtain ⟨source, operation', hsource, hoperation, hrole⟩ :=
      h.modulo.graph.valueEdge edge hedge hkind
    obtain rfl : producer = source := Option.some.inj (hproducer.symm.trans hsource)
    obtain rfl : operation = operation' := Option.some.inj (hagrees.found.symm.trans hoperation)
    have := htimely operation (List.mem_of_find?_eq_some hoperation) hrole separation
      (by rw [hagrees.resultLatency, hlatency]; rfl) ready
      (by rw [hagrees.producerOutputReadyOffset, hready]; rfl)
    omega

/-- Where a constraint comes from. -/
theorem mem_buildConstraints {total total' : ℕ} {edges : List TargetEdge}
    {constraints : List IndexedConstraint}
    (h : buildConstraints dfg target total edges = .ok (constraints, total', []))
    {c : IndexedConstraint} (hc : c ∈ constraints) : ∃ edge ∈ edges,
      c.constraint.distance = edge.distance ∧
      intrinsicSeparation dfg target edge = .ok (.inl c.constraint.intrinsicSeparation) ∧
      nodeIndex dfg edge.src = some c.srcIndex ∧ nodeIndex dfg edge.dst = some c.dstIndex := by
  induction edges generalizing total constraints with
  | nil =>
    obtain ⟨rfl, -⟩ := Prod.mk.inj (Except.ok.inj h)
    exact absurd hc List.not_mem_nil
  | cons edge edges ih =>
    rw [buildConstraints] at h
    obtain ⟨separation?, hseparation, h⟩ := bind_eq_ok.mp h
    split at h
    · obtain ⟨rest, -, h⟩ := bind_eq_ok.mp h
      simp [pure, Except.pure] at h
    split at h
    · rename_i src dst hsrc hdst
      simp only at h
      split at h
      · obtain ⟨rest, hrest, h⟩ := bind_eq_ok.mp h
        simp only [pure, Except.pure, Except.ok.injEq, Prod.mk.injEq] at h
        obtain ⟨rfl, rfl, hfailures⟩ := h
        rcases List.mem_cons.mp hc with rfl | hc
        · exact ⟨edge, List.mem_cons_self, rfl, hseparation, hsrc, hdst⟩
        · obtain ⟨edge', hedge', hfrom⟩ := ih (by rw [hrest, ← hfailures]) hc
          exact ⟨edge', List.mem_cons_of_mem _ hedge', hfrom⟩
      · obtain ⟨rest, -, h⟩ := bind_eq_ok.mp h
        simp [pure, Except.pure] at h
    · obtain ⟨rest, -, h⟩ := bind_eq_ok.mp h
      simp [pure, Except.pure] at h

theorem nodeIndex_eq_some {id : TargetNodeId} {index : ℕ} (h : nodeIndex dfg id = some index) :
    index < dfg.nodes.length ∧ ∃ node, dfg.nodesById[index]? = some node ∧ node.id = id := by
  obtain ⟨hlt, hid, -⟩ := List.findIdx?_eq_some_iff_getElem.mp h
  refine ⟨by rwa [← dfg.nodesById_perm.length_eq], dfg.nodesById[index], ?_, by simpa using hid⟩
  exact List.getElem?_eq_getElem hlt

/-- The issue times of a mapping, by position among the nodes. -/
def timeAt (dfg : TargetDFG) (mapping : StagedMapping) (index : ℕ) : ℤ :=
  ((dfg.nodesById[index]?).map fun node ↦ (mapping.issueTime node.id : ℤ)).getD 0

theorem timeAt_nodeIndex {id : TargetNodeId} {index : ℕ} (h : nodeIndex dfg id = some index) :
    timeAt dfg mapping index = mapping.issueTime id := by
  obtain ⟨-, node, hnode, rfl⟩ := nodeIndex_eq_some h
  rw [timeAt, hnode]
  rfl

/-- **Issue times solve the constraints**, for the interval of the mapping and every larger one. -/
theorem satisfies_times (h : mapping.Verified dfg target) (htimely : TimelyResults target)
    {n total' : ℕ} (hn : dfg.nodes.length = n + 1) {constraints : List IndexedConstraint}
    (hconstraints : buildConstraints dfg target 0 dfg.edgesById = .ok (constraints, total', []))
    {ii : ℕ} (hii : mapping.modulo.ii ≤ ii) :
    (∀ c ∈ constraints, InRange n c) ∧
      Relaxation.Satisfies (fun i : Fin (n + 1) ↦ timeAt dfg mapping i)
        (constraints.map (difference n ii)) := by
  have hrange : ∀ c ∈ constraints, InRange n c := by
    intro c hc
    obtain ⟨edge, -, -, -, hsrc, hdst⟩ := mem_buildConstraints hconstraints hc
    exact ⟨hn ▸ (nodeIndex_eq_some hsrc).1, hn ▸ (nodeIndex_eq_some hdst).1⟩
  refine ⟨hrange, fun d hd ↦ ?_⟩
  obtain ⟨c, hc, rfl⟩ := List.mem_map.mp hd
  obtain ⟨edge, hedge, hdistance, hseparation, hsrc, hdst⟩ := mem_buildConstraints hconstraints hc
  have hle := intrinsicSeparation_le h htimely (TargetDFG.mem_edgesById.mp hedge) hseparation
  have hgrow : edge.distance * mapping.modulo.ii ≤ edge.distance * ii :=
    Nat.mul_le_mul_left _ hii
  simp only [Relaxation.Constraint.Holds, difference, Fin.val_ofNat,
    Nat.mod_eq_of_lt (hrange c hc).1, Nat.mod_eq_of_lt (hrange c hc).2, timeAt_nodeIndex hsrc,
    timeAt_nodeIndex hdst, weight, hdistance]
  zify at hle hgrow
  linarith

/-- **The recurrence bound is a lower bound.** -/
theorem recurrenceBound_le (h : mapping.Verified dfg target) (htimely : TimelyResults target)
    {total' : ℕ} {constraints : List IndexedConstraint}
    (hconstraints : buildConstraints dfg target 0 dfg.edgesById = .ok (constraints, total', []))
    {result : MIIResult} {bound : ℕ} {witness : Option RecurrenceWitness}
    (hbound : recurrenceBound result dfg.nodes.length constraints total' = .ok (bound, witness)) :
    bound ≤ mapping.modulo.ii := by
  have hpos : 1 ≤ mapping.modulo.ii := h.ii_pos
  unfold recurrenceBound at hbound
  split at hbound
  · obtain ⟨rfl, -⟩ := Prod.mk.inj (Except.ok.inj hbound)
    exact hpos
  rename_i hne
  simp only at hbound
  split at hbound
  · cases hbound
  split at hbound
  · cases hbound
  split at hbound
  · cases hbound
  split at hbound
  · cases hbound
  obtain ⟨rfl, -⟩ := Prod.mk.inj (Except.ok.inj hbound)
  refine bisect_le (fun ii hii ↦ ?_) hpos
  -- a constraint has a source, so there is a node
  obtain ⟨c, hc⟩ := List.exists_mem_of_ne_nil constraints (by simpa using hne)
  obtain ⟨edge, -, -, -, hsrc, -⟩ := mem_buildConstraints hconstraints hc
  have hlt := (nodeIndex_eq_some hsrc).1
  obtain ⟨n, hn⟩ : ∃ n, dfg.nodes.length = n + 1 := ⟨dfg.nodes.length - 1, by omega⟩
  obtain ⟨hrange, hsatisfies⟩ := satisfies_times h htimely hn hconstraints hii
  rw [hn]
  exact evaluate_feasible hrange hsatisfies

end Recurrence

/-! ## Success -/

section Success

variable {dfg : TargetDFG} {target : TargetModel}

/-- None of the failures sets the status to success. -/
def Genuine (failures : List Failure) : Prop := ∀ failure ∈ failures, failure.status ≠ .success

theorem failed_status {result : MIIResult} {failures : List Failure} (hgenuine : Genuine failures)
    (hne : failures ≠ []) : (failed result failures).status ≠ .success := by
  have hlast := hgenuine _ (List.getLast_mem hne)
  simpa [failed, List.getLast?_eq_some_getLast hne] using hlast

theorem genuine_countNode (target : TargetModel) (demand : Demand) (node : TargetNode) :
    Genuine (countNode target demand node).2 := by
  unfold countNode
  split
  · simp [Genuine]
  split
  · simp [Genuine]
  split
  · simp [Genuine, overflow]
  simp only
  split
  · split <;> simp [Genuine, overflow]
  · split <;> simp [Genuine, overflow]

theorem genuine_countNodes (target : TargetModel) (demand : Demand) (nodes : List TargetNode) :
    Genuine (countNodes target demand nodes).2 := by
  induction nodes generalizing demand with
  | nil => simp [Genuine, countNodes]
  | cons node nodes ih =>
    intro failure hfailure
    rcases List.mem_append.mp hfailure with hfailure | hfailure
    · exact genuine_countNode target demand node failure hfailure
    · exact ih _ failure hfailure

theorem genuine_perOperationBound {bound : ℕ} {entries : List (String × ℕ)}
    {result : ℕ × List Failure} (h : perOperationBound target bound entries = .ok result) :
    Genuine result.2 := by
  induction entries generalizing bound result with
  | nil =>
    rw [← Except.ok.inj h]
    simp [Genuine]
  | cons entry entries ih =>
    obtain ⟨name, demand⟩ := entry
    rw [perOperationBound] at h
    split at h
    · cases h
    simp only at h
    split at h
    · obtain ⟨rest, hrest, h⟩ := bind_eq_ok.mp h
      rw [← Except.ok.inj h]
      simpa [Genuine] using ih hrest
    split at h
    · rw [← Except.ok.inj h]
      simp [Genuine, overflow]
    · exact ih h

theorem genuine_intrinsicSeparation {edge : TargetEdge} {failure : Failure}
    (h : intrinsicSeparation dfg target edge = .ok (.inr failure)) : failure.status ≠ .success := by
  unfold intrinsicSeparation at h
  split at h
  · simp only [Except.ok.injEq] at h
    split at h
    · obtain rfl := Sum.inr.inj h
      simp
    · cases h
  split at h
  · cases h
  split at h
  · obtain rfl := Sum.inr.inj (Except.ok.inj h)
    simp
  · simp only [Except.ok.injEq] at h
    split at h
    · obtain rfl := Sum.inr.inj h
      simp
    · cases h

theorem genuine_buildConstraints {total : ℕ} {edges : List TargetEdge}
    {result : List IndexedConstraint × ℕ × List Failure}
    (h : buildConstraints dfg target total edges = .ok result) : Genuine result.2.2 := by
  induction edges generalizing total result with
  | nil =>
    rw [← Except.ok.inj h]
    simp [Genuine]
  | cons edge edges ih =>
    rw [buildConstraints] at h
    obtain ⟨separation?, hseparation, h⟩ := bind_eq_ok.mp h
    split at h
    · obtain ⟨rest, hrest, h⟩ := bind_eq_ok.mp h
      rw [← Except.ok.inj h]
      simpa [Genuine] using ⟨genuine_intrinsicSeparation hseparation, ih hrest⟩
    split at h
    · simp only at h
      split at h
      · obtain ⟨rest, hrest, h⟩ := bind_eq_ok.mp h
        rw [← Except.ok.inj h]
        have hgenuine : Genuine rest.2.2 := ih hrest
        exact hgenuine
      · obtain ⟨rest, hrest, h⟩ := bind_eq_ok.mp h
        rw [← Except.ok.inj h]
        simpa [Genuine, overflow] using ih hrest
    · obtain ⟨rest, hrest, h⟩ := bind_eq_ok.mp h
      rw [← Except.ok.inj h]
      simpa [Genuine] using ih hrest

theorem returnFailures_status {α : Type} {result returned : MIIResult} {failures : List Failure}
    (hgenuine : Genuine failures) (hne : failures ≠ [])
    (h : (returnFailures result failures : Except Stop α) = .error (.returned returned)) :
    returned.status ≠ .success := by
  obtain rfl := Stop.returned.inj (Except.error.inj h)
  exact failed_status hgenuine hne

theorem resourceBreakdown_returned {returned : MIIResult}
    (h : resourceBreakdown dfg target = .error (.returned returned)) :
    returned.status ≠ .success := by
  unfold resourceBreakdown at h
  simp only at h
  split at h
  · rename_i hne
    exact returnFailures_status (genuine_countNodes _ _ _) hne h
  split at h
  · exact returnFailures_status (by simp [Genuine]) (by simp) h
  split at h
  · split at h
    · cases h
    · rename_i hper
      split at h
      · rename_i hne
        exact returnFailures_status (genuine_perOperationBound hper) hne h
      · cases h
  · exact returnFailures_status (by simp [Genuine, overflow]) (by simp) h

theorem recurrenceBound_returned {result returned : MIIResult} {nodeCount total : ℕ}
    {constraints : List IndexedConstraint}
    (h : recurrenceBound result nodeCount constraints total = .error (.returned returned)) :
    returned.status ≠ .success := by
  unfold recurrenceBound at h
  split at h
  · cases h
  simp only at h
  split at h
  · exact returnFailures_status (by simp [Genuine]) (by simp) h
  split at h
  · exact returnFailures_status (by simp [Genuine]) (by simp) h
  split at h
  · exact returnFailures_status (by simp [Genuine, overflow]) (by simp) h
  split at h
  · exact returnFailures_status (by simp [Genuine]) (by simp) h
  · cases h

/-- **A successful analysis ran to its end**: its result is the larger of the two bounds. -/
theorem analyze_success {result : MIIResult} (h : analyze dfg target = .ok result)
    (hsuccess : result.status = .success) :
    ∃ breakdown constraints total partialResult recurrence,
      resourceBreakdown dfg target = .ok breakdown ∧
      buildConstraints dfg target 0 dfg.edgesById = .ok (constraints, total, []) ∧
      recurrenceBound partialResult dfg.nodes.length constraints total = .ok recurrence ∧
      result.mii = max 1 (max (resourceMII breakdown) recurrence.1) := by
  unfold analyze at h
  split at h
  · rename_i hrun
    obtain rfl := Except.ok.inj h
    unfold analyzeOrStop at hrun
    simp only at hrun
    split at hrun
    · split at hrun <;> cases hrun
    split at hrun
    · cases hrun
    obtain ⟨breakdown, hbreakdown, hrun⟩ := bind_eq_ok.mp hrun
    split at hrun
    · cases hrun
    rename_i constraints total failures hconstraints
    split at hrun
    · cases hrun
    rename_i hne
    obtain rfl := not_not.mp hne
    obtain ⟨recurrence, hrecurrence, hrun⟩ := bind_eq_ok.mp hrun
    simp only [pure, Except.pure, Except.ok.injEq] at hrun
    refine ⟨breakdown, constraints, total, _, recurrence, hbreakdown, hconstraints, hrecurrence, ?_⟩
    rw [← hrun]
    simp only
    split <;> omega
  · rename_i returned hrun
    obtain rfl := Except.ok.inj h
    refine absurd hsuccess ?_
    unfold analyzeOrStop at hrun
    simp only at hrun
    split at hrun
    · split at hrun
      · exact returnFailures_status (by simp [Genuine]) (by simp) hrun
      · exact returnFailures_status (by simp [Genuine]) (by simp) hrun
    split at hrun
    · exact returnFailures_status (by simp [Genuine]) (by simp) hrun
    rcases bind_eq_error.mp hrun with hrun | ⟨breakdown, -, hrun⟩
    · exact resourceBreakdown_returned hrun
    split at hrun
    · cases hrun
    rename_i constraints total failures hconstraints
    split at hrun
    · rename_i hne
      exact returnFailures_status (genuine_buildConstraints hconstraints) hne hrun
    rcases bind_eq_error.mp hrun with hrun | ⟨recurrence, -, hrun⟩
    · exact recurrenceBound_returned hrun
    · cases hrun
  · cases h

/-- A successful analysis has seen a valid graph for its target. -/
theorem precondition_of_analyze {result : MIIResult} (h : analyze dfg target = .ok result)
    (hsuccess : result.status = .success) :
    TargetDFGVerifier.verify dfg target = [] ∧ dfg.targetName = target.name := by
  by_contra hinvalid
  have hrun : ∃ failures, Genuine failures ∧ failures ≠ [] ∧
      analyzeOrStop dfg target = returnFailures {} failures := by
    rw [analyzeOrStop]
    simp only
    split
    · split
      · exact ⟨_, by simp [Genuine], by simp, rfl⟩
      · exact ⟨_, by simp [Genuine], by simp, rfl⟩
    · rename_i hverified
      rw [Bool.not_eq_true, Bool.not_eq_false', List.isEmpty_iff] at hverified
      split
      · exact ⟨_, by simp [Genuine], by simp, rfl⟩
      · rename_i hname
        exact absurd ⟨hverified, not_not.mp hname⟩ hinvalid
  obtain ⟨failures, hgenuine, hne, hrun⟩ := hrun
  rw [analyze, hrun] at h
  obtain rfl := Except.ok.inj h
  exact failed_status hgenuine hne hsuccess
end Success

/-- **MII is a lower bound.** If the analysis succeeds, no mapping the verifiers accept has a
smaller initiation interval, whatever its placement, routes and stages. -/
theorem mii_le_ii (dfg : TargetDFG) (target : TargetModel) (htimely : TimelyResults target)
    (result : MIIResult) (hresult : analyze dfg target = .ok result)
    (hsuccess : result.status = .success) (mapping : StagedMapping)
    (haccepted : accepts (StageAssignmentVerifier.verify dfg target mapping) = true) :
    result.mii ≤ mapping.modulo.ii := by
  have hverified := StageAssignmentVerifier.verified_of_verify ((accepts_iff _).mp haccepted)
  obtain ⟨breakdown, constraints, total, partialResult, recurrence, hbreakdown, hconstraints,
    hrecurrence, hmii⟩ := analyze_success hresult hsuccess
  have hresource := resourceMII_le hverified hbreakdown
  have hbound := recurrenceBound_le hverified htimely hconstraints hrecurrence
  have hpos := hverified.ii_pos
  omega

end MIIAnalyzer

/-- No mapping of the ring has a smaller interval than two, and one has two. -/
theorem ring_mii_le :
    MIIAnalyzer.TimelyResults shippedTarget ∧
      MIIAnalyzer.analyze ringDFG shippedTarget = .ok
        { resourceMII := 1, recurrenceMII := 2, mii := 2
          recurrenceWitness := some ⟨[0, 1], 2, 1⟩ } ∧
      accepts (StageAssignmentVerifier.verify ringDFG shippedTarget ringStaged) = true ∧
      2 ≤ ringStaged.modulo.ii := by
  have htimely : MIIAnalyzer.TimelyResults shippedTarget :=
    fun operation hoperation _ ↦ shippedOperations_latency_le operation hoperation
  have hresult : MIIAnalyzer.analyze ringDFG shippedTarget = .ok
      { resourceMII := 1, recurrenceMII := 2, mii := 2
        recurrenceWitness := some ⟨[0, 1], 2, 1⟩ } := by decide +kernel
  exact ⟨htimely, hresult, ringStaged_accepted,
    MIIAnalyzer.mii_le_ii _ _ htimely _ hresult rfl _ ringStaged_accepted⟩

end PredicatedMesh
