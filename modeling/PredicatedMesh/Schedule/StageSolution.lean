import PredicatedMesh.Schedule.Execution
import PredicatedMesh.Schedule.StageRelaxation

/-!
# The scheduler finds the least stages

The stage verifier accepts stages exactly when they solve the constraints, as long as its own sums
fit: each constraint is the dependence inequality of its edge. The scheduler starts below every
solution and never rises above one, so the stages its rounds end with are the least that the
verifier accepts; if the rounds do not end, the cycle they have noted is one that no stages satisfy.
-/

namespace PredicatedMesh

open Scan

namespace StageScheduler

variable {dfg : TargetDFG} {target : TargetModel} {mapping : ModuloMapping}

/-! ## The constraints of a mapping -/

theorem mem_nodeIds {id : TargetNodeId} :
    id ∈ nodeIds dfg ↔ ∃ node ∈ dfg.nodes, node.id = id := by
  rw [nodeIds, (List.perm_insertionSort _ _).mem_iff, List.mem_map]

theorem length_nodeIds (dfg : TargetDFG) : (nodeIds dfg).length = dfg.nodes.length := by
  rw [nodeIds, List.length_insertionSort, List.length_map]

theorem mem_nodeIds_of_findNode {id : TargetNodeId} {node : TargetNode}
    (h : dfg.findNode id = some node) : id ∈ nodeIds dfg :=
  mem_nodeIds.mpr ⟨node, TargetDFG.mem_of_findNode h, TargetDFG.findNode_id h⟩

theorem endpoints_mem (hgraph : dfg.Verified target) {edge : TargetEdge}
    (hedge : edge ∈ dfg.edges) :
    edge.src ∈ nodeIds dfg ∧ edge.dst ∈ nodeIds dfg := by
  obtain ⟨src, dst, hsrc, hdst⟩ := hgraph.endpoints edge hedge
  exact ⟨mem_nodeIds_of_findNode hsrc, mem_nodeIds_of_findNode hdst⟩

/-- A verified mapping has what the constraint of an edge reads. -/
theorem exists_entries (hv : mapping.Verified dfg target) {edge : TargetEdge}
    (hedge : edge ∈ dfg.edges) : ∃ source destination dependence,
      mapping.placement edge.src = .ok source ∧ mapping.placement edge.dst = .ok destination ∧
      mapping.dependence edge.id = .ok dependence := by
  obtain ⟨table, hplaced, hrealized⟩ := hv.reserved
  obtain ⟨src, dst, hsrc, hdst⟩ := hv.graph.endpoints edge hedge
  obtain ⟨source, _, _, hsource⟩ := hplaced src (TargetDFG.mem_of_findNode hsrc)
  obtain ⟨destination, _, _, hdestination⟩ := hplaced dst (TargetDFG.mem_of_findNode hdst)
  obtain ⟨dependence, hdependence⟩ := hrealized edge hedge
  refine ⟨source, destination, dependence, ?_, ?_,
    ModuloMapping.dependence_of_entries hdependence.entries⟩
  · rw [← TargetDFG.findNode_id hsrc]
    exact ModuloMapping.placement_of_entries hsource.entries
  · rw [← TargetDFG.findNode_id hdst]
    exact ModuloMapping.placement_of_entries hdestination.entries

/-- The constraints are those of the edges, in order. -/
def FromEdges (dfg : TargetDFG) (mapping : ModuloMapping) (constraints : List StageConstraint) :
    Prop :=
  List.Forall₂ (fun edge c ↦ constraintFor mapping edge = .ok c) dfg.edges constraints

section FromEdges

variable {constraints : List StageConstraint}

theorem FromEdges.exists_edge (h : FromEdges dfg mapping constraints) {c : StageConstraint}
    (hc : c ∈ constraints) : ∃ edge ∈ dfg.edges, constraintFor mapping edge = .ok c :=
  exists_of_forall₂ h.flip c hc

theorem FromEdges.ends (hgraph : dfg.Verified target) (h : FromEdges dfg mapping constraints)
    {c : StageConstraint} (hc : c ∈ constraints) :
    c.src ∈ nodeIds dfg ∧ c.dst ∈ nodeIds dfg := by
  obtain ⟨edge, hedge, hfor⟩ := h.exists_edge hc
  obtain ⟨source, destination, dependence, hconstrains⟩ := constrains_of_constraintFor hfor
  rw [hconstrains.src_eq, hconstrains.dst_eq]
  exact endpoints_mem hgraph hedge

theorem FromEdges.nodup (hgraph : dfg.Verified target) (h : FromEdges dfg mapping constraints) :
    (constraints.map StageConstraint.edge).Nodup := by
  have hedges := map_eq_of_forall₂ (f := TargetEdge.id) (g := StageConstraint.edge)
    (fun edge c hfor ↦ by
      obtain ⟨_, _, _, hconstrains⟩ := constrains_of_constraintFor hfor
      exact hconstrains.edge_eq.symm) h
  rw [← hedges]
  exact hgraph.nodup_edges

end FromEdges

/-! ## Relaxation -/

/-- A step fails only because of an overflow. -/
theorem overflow_of_relaxStep {nodes : List TargetNodeId} {state : Relaxing} {c : StageConstraint}
    {stop : Stop} (hends : c.src ∈ nodes ∧ c.dst ∈ nodes)
    (h : relaxStep nodes state c = .error stop) : stop.Overflow := by
  obtain ⟨source, hsource⟩ := exists_nodeIndex hends.1
  obtain ⟨destination, hdestination⟩ := exists_nodeIndex hends.2
  unfold relaxStep at h
  rw [hsource, hdestination] at h
  simp only at h
  split at h
  · exact ⟨_, (Except.error.inj h).symm⟩
  split at h
  · exact ⟨_, (Except.error.inj h).symm⟩
  split at h
  · cases h
  · cases h

theorem overflow_of_relaxRounds {nodes : List TargetNodeId} {cs : List StageConstraint}
    {stop : Stop} (hends : ∀ c ∈ cs, c.src ∈ nodes ∧ c.dst ∈ nodes) (rounds : ℕ) {state : Relaxing}
    (h : relaxRounds nodes cs rounds state = .error stop) : stop.Overflow := by
  induction rounds generalizing state with
  | zero => cases h
  | succ rounds ih =>
    rcases bind_eq_error.mp h with hround | ⟨next, -, h⟩
    · obtain ⟨before, c, hc, hstep⟩ := foldlM_eq_error hround
      exact overflow_of_relaxStep (hends c hc) hstep
    · split at h
      · cases h
      · split at h
        · cases h
        · exact ih h

/-- Relaxation fails only because of an overflow. -/
theorem overflow_of_relax (hv : mapping.Verified dfg target) {stop : Stop}
    (h : relax dfg mapping = .error stop) : stop.Overflow := by
  rcases bind_eq_error.mp h with hconstraints | ⟨constraints, hconstraints, h⟩
  · obtain ⟨edge, hedge, hfor⟩ := mapM_eq_error hconstraints
    obtain ⟨source, destination, dependence, hsource, hdestination, hdependence⟩ :=
      exists_entries hv hedge
    exact overflow_of_constraintFor hv.ii_pos hsource hdestination hdependence hfor
  · have hfrom : FromEdges dfg mapping constraints := mapM_eq_ok.mp hconstraints
    rcases bind_eq_error.mp h with hrounds | ⟨relaxed, -, h⟩
    · refine overflow_of_relaxRounds (fun c hc ↦ ?_) _ hrounds
      exact hfrom.ends hv.graph ((List.perm_insertionSort _ _).mem_iff.mp hc)
    · cases h

/-- **What relaxation leads to**: the least solution, or a cycle of positive total. -/
theorem relax_spec (hgraph : dfg.Verified target) {constraints : List StageConstraint}
    {infeasible : Option ℕ} {state : Relaxing}
    (h : relax dfg mapping = .ok (constraints, infeasible, state)) :
    FromEdges dfg mapping constraints ∧
      ((infeasible = none ∧ state.stages.length = dfg.nodes.length ∧
        Solves constraints (stageOf (nodeIds dfg) state) ∧
        ∀ x, Solves constraints x → ∀ id ∈ nodeIds dfg, stageOf (nodeIds dfg) state id ≤ x id) ∨
      ∃ updated l, infeasible = some updated ∧ Circular constraints l ∧ 0 < deltaSum l ∧
        (PrefixesFit l → witnessFor (nodeIds dfg) state updated constraints
          = some ⟨l.map StageConstraint.dst, l.map StageConstraint.edge, deltaSum l⟩)) := by
  obtain ⟨constraints', hconstraints, h⟩ := bind_eq_ok.mp h
  obtain ⟨relaxed, hrounds, h⟩ := bind_eq_ok.mp h
  obtain ⟨rfl, rfl⟩ := Prod.mk.inj (Except.ok.inj h)
  have hfrom : FromEdges dfg mapping constraints' := mapM_eq_ok.mp hconstraints
  refine ⟨hfrom, ?_⟩
  have hmem : ∀ c, c ∈ constraints'.insertionSort (fun lhs rhs ↦ lhs.edge ≤ rhs.edge)
      ↔ c ∈ constraints' := fun c ↦ (List.perm_insertionSort _ _).mem_iff
  have hends := fun c hc ↦ hfrom.ends hgraph ((hmem c).mp hc)
  have hlength := length_nodeIds dfg
  rcases hcount : dfg.nodes.length with _ | n
  · -- no nodes, no edges
    rw [hcount] at hlength
    rw [hlength] at hrounds
    obtain ⟨rfl, rfl⟩ := Prod.mk.inj (Except.ok.inj hrounds)
    have hnone : ∀ id, id ∉ nodeIds dfg := by
      rw [List.length_eq_zero_iff.mp hlength]
      exact fun id ↦ List.not_mem_nil
    refine .inl ⟨rfl, rfl, fun c hc ↦ ?_, fun x _ id hid ↦ absurd hid (hnone id)⟩
    exact absurd (hfrom.ends hgraph hc).1 (hnone _)
  · rw [hcount] at hlength
    rw [hlength] at hrounds
    rcases relaxRounds_spec hlength n follows_initial hrounds with
      ⟨rfl, k, start, hfollows, hsatisfies⟩ | ⟨i, start, rfl, hfollows, hstamp⟩
    · obtain ⟨hsolves, hleast⟩ := solves_stageOf hlength hends hfollows hsatisfies
      refine .inl ⟨rfl, hfollows.stages_length, fun c hc ↦ hsolves c ((hmem c).mpr hc),
        fun x hx ↦ hleast x fun c hc ↦ hx c ((hmem c).mp hc)⟩
    · rw [Nat.zero_add] at hfollows hstamp
      obtain ⟨l, hcircular, hpositive, hwitness⟩ :=
        exists_circular hlength hends hfollows hstamp (hfrom.nodup hgraph) hmem
      exact .inr ⟨i.val, l, rfl, hcircular, hpositive, hwitness⟩

/-! ## Stages and the verifier -/

/-- The stage of a node, zero if it has none. -/
def stageValue (staged : StagedMapping) (id : TargetNodeId) : ℕ :=
  match staged.stage id with
  | .ok stage => stage
  | .error _ => 0

theorem stageValue_eq {staged : StagedMapping} {id : TargetNodeId} {stage : ℕ}
    (h : staged.stage id = .ok stage) : stageValue staged id = stage := by
  rw [stageValue, h]

section Verifier

variable {staged : StagedMapping} {constraints : List StageConstraint}

/-- **Accepted stages solve the constraints.** -/
theorem solves_of_verified (hmodulo : staged.modulo = mapping) (h : staged.Verified dfg target)
    (hfrom : FromEdges dfg mapping constraints) : Solves constraints (stageValue staged) := by
  intro c hc
  obtain ⟨edge, hedge, hfor⟩ := hfrom.exists_edge hc
  obtain ⟨source, destination, dependence, hconstrains⟩ := constrains_of_constraintFor hfor
  obtain ⟨src, dst, dependence', hsrc, hdst, hdependence, hle⟩ := h.constraints edge hedge
  obtain ⟨source', stage, hsource, hstage, rfl⟩ := StagedMapping.logicalIssueTime_eq_ok hsrc
  obtain ⟨destination', stage', hdestination, hstage', rfl⟩ :=
    StagedMapping.logicalIssueTime_eq_ok hdst
  rw [hmodulo] at hsource hdestination hdependence hle
  obtain rfl := Except.ok.inj (hsource.symm.trans hconstrains.source_eq)
  obtain rfl := Except.ok.inj (hdestination.symm.trans hconstrains.destination_eq)
  obtain rfl := Except.ok.inj (hdependence.symm.trans hconstrains.dependence_eq)
  rw [hconstrains.src_eq, hconstrains.dst_eq, stageValue_eq hstage, stageValue_eq hstage',
    hconstrains.delta_le_iff]
  exact_mod_cast (by omega : stage * mapping.ii + source'.issueSlot
    + dependence'.requiredSeparationCycles
      ≤ stage' * mapping.ii + destination'.issueSlot + edge.distance * mapping.ii)

/-- A verified modulo mapping with a stage and a time for every node is accepted up to the
constraints. -/
theorem verify_eq_each (hmodulo : ModuloMappingVerifier.verify dfg target staged.modulo = .ok [])
    (hnodes : staged.stages.map NodeStage.node = nodeIds dfg)
    (htimes : ∀ node ∈ dfg.nodes, ∃ time, staged.logicalIssueTime node.id = .ok time) :
    StageAssignmentVerifier.verify dfg target staged
      = each (StageAssignmentVerifier.checkEdge staged) dfg.edges := by
  have hgraph := (ModuloMappingVerifier.verified_of_verify hmodulo).graph
  have hii := (ModuloMappingVerifier.verified_of_verify hmodulo).ii_pos
  have haccepted := hmodulo
  simp only [ModuloMappingVerifier.verify, ModuloMappingVerifier.checkPreconditions,
    stage_eq_ok_nil_iff, require_eq_nil_iff] at haccepted
  obtain ⟨hreport, hname, -⟩ := haccepted
  have hcount : staged.stages.length = dfg.nodes.length := by
    rw [← length_nodeIds, ← hnodes, List.length_map]
  have hstages : StageAssignmentVerifier.checkStages dfg staged = [] := by
    simp only [StageAssignmentVerifier.checkStages, List.append_eq_nil_iff, require_eq_nil_iff,
      List.flatMap_eq_nil_iff, beq_iff_eq, List.any_eq_true]
    refine ⟨⟨hcount, fun entry hentry ↦ ?_⟩, fun node hnode ↦ ?_⟩
    · obtain ⟨node, hnode, hid⟩ := mem_nodeIds.mp (hnodes ▸ List.mem_map_of_mem hentry)
      rw [TargetDFG.containsNode, ← hid, hgraph.findNode_of_mem hnode, Option.isSome_some]
    · have hid : node.id ∈ staged.stages.map NodeStage.node := by
        rw [hnodes]
        exact mem_nodeIds.mpr ⟨node, hnode, rfl⟩
      exact List.mem_map.mp hid
  have hlogical : dfg.nodes.flatMap (StageAssignmentVerifier.checkLogicalTime staged) = [] := by
    rw [List.flatMap_eq_nil_iff]
    intro node hnode
    obtain ⟨time, htime⟩ := htimes node hnode
    rw [StageAssignmentVerifier.checkLogicalTime, htime]
  have hpos : (staged.modulo.ii != 0) = true := bne_iff_ne.mpr hii.ne'
  simp only [StageAssignmentVerifier.verify, hreport, hname, hmodulo, hstages, hlogical, hpos,
    require, stage, List.isEmpty_nil, if_true]

/-- A constraint that is met is only ever reported because its sums do not fit. -/
theorem overflow_of_checkConstraint {edge : TargetEdge} {src dst : ℕ}
    {dependence : MappedDependence}
    (hle : src + dependence.requiredSeparationCycles ≤ edge.distance * staged.modulo.ii + dst) :
    ∀ d ∈ StageAssignmentVerifier.checkConstraint staged edge src dst dependence,
      d.code = .outputArithmeticOverflow := by
  unfold StageAssignmentVerifier.checkConstraint
  split
  · exact List.forall_mem_singleton.mpr rfl
  · rename_i lhs hlhs
    split
    · exact List.forall_mem_singleton.mpr rfl
    · rw [checkedMultiplyAdd_eq_some hlhs, require, decide_eq_true hle, if_pos rfl]
      exact fun d hd ↦ absurd hd List.not_mem_nil

/-- **Solutions are accepted**, unless the sums of the verifier do not fit. -/
theorem verify_of_solves (hmodulo : staged.modulo = mapping)
    (hverify : ModuloMappingVerifier.verify dfg target mapping = .ok [])
    (hnodes : staged.stages.map NodeStage.node = nodeIds dfg)
    (htimes : ∀ node ∈ dfg.nodes, ∃ time, staged.logicalIssueTime node.id = .ok time)
    (hfrom : FromEdges dfg mapping constraints) (hsolves : Solves constraints (stageValue staged)) :
    ∃ report, StageAssignmentVerifier.verify dfg target staged = .ok report ∧
      ∀ d ∈ report, d.code = .outputArithmeticOverflow := by
  have hv := ModuloMappingVerifier.verified_of_verify hverify
  subst hmodulo
  rw [verify_eq_each hverify hnodes htimes]
  refine exists_each fun edge hedge ↦ ?_
  obtain ⟨c, hc, hfor⟩ := exists_of_forall₂ hfrom edge hedge
  obtain ⟨source, destination, dependence, hconstrains⟩ := constrains_of_constraintFor hfor
  have htime : ∀ id ∈ nodeIds dfg, ∃ time, staged.logicalIssueTime id = .ok time := by
    intro id hid
    obtain ⟨node, hnode, rfl⟩ := mem_nodeIds.mp hid
    exact htimes node hnode
  obtain ⟨hsrcMem, hdstMem⟩ := endpoints_mem hv.graph hedge
  obtain ⟨src, hsrc⟩ := htime edge.src hsrcMem
  obtain ⟨dst, hdst⟩ := htime edge.dst hdstMem
  refine ⟨StageAssignmentVerifier.checkConstraint staged edge src dst dependence, ?_,
    overflow_of_checkConstraint ?_⟩
  · rw [StageAssignmentVerifier.checkEdge, hsrc, hdst]
    simp only [hconstrains.dependence_eq]
  · obtain ⟨source', stage, hsource, hstage, rfl⟩ := StagedMapping.logicalIssueTime_eq_ok hsrc
    obtain ⟨destination', stage', hdestination, hstage', rfl⟩ :=
      StagedMapping.logicalIssueTime_eq_ok hdst
    obtain rfl := Except.ok.inj (hsource.symm.trans hconstrains.source_eq)
    obtain rfl := Except.ok.inj (hdestination.symm.trans hconstrains.destination_eq)
    have hholds := hsolves c hc
    rw [hconstrains.src_eq, hconstrains.dst_eq, stageValue_eq hstage, stageValue_eq hstage',
      hconstrains.delta_le_iff] at hholds
    have hnat : stage * staged.modulo.ii + source'.issueSlot + dependence.requiredSeparationCycles
        ≤ stage' * staged.modulo.ii + destination'.issueSlot
          + edge.distance * staged.modulo.ii := by exact_mod_cast hholds
    omega

end Verifier

/-! ## The stages that are handed to the verifier -/

section Staged

variable {state : Relaxing}

theorem pairwise_nodeIds (hgraph : dfg.Verified target) : (nodeIds dfg).Pairwise (· < ·) := by
  have hle : (nodeIds dfg).Pairwise (· ≤ ·) := List.pairwise_insertionSort _ _
  have hnodup : (nodeIds dfg).Nodup :=
    (List.perm_insertionSort _ _).nodup_iff.mpr hgraph.nodup_nodes
  exact hle.imp₂ (fun _ _ hle hne ↦ lt_of_le_of_ne hle hne) hnodup

theorem zipWith_stages (hgraph : dfg.Verified target)
    (hlength : state.stages.length = dfg.nodes.length) :
    (nodeIds dfg).zipWith NodeStage.mk state.stages
      = (nodeIds dfg).map fun id ↦ ⟨id, stageOf (nodeIds dfg) state id⟩ := by
  have hcount := length_nodeIds dfg
  refine List.ext_getElem (by simp [hcount, hlength]) fun i hi _ ↦ ?_
  rw [List.length_zipWith, lt_min_iff] at hi
  have hindex : nodeIndex (nodeIds dfg) (nodeIds dfg)[i] = some i := by
    refine List.findIdx?_eq_some_iff_getElem.mpr ⟨hi.1, beq_self_eq_true _, fun j hj ↦ ?_⟩
    have hlt := List.pairwise_iff_getElem.mp (pairwise_nodeIds hgraph) j i (hj.trans hi.1) hi.1 hj
    simpa using hlt.ne
  simp only [List.getElem_zipWith, List.getElem_map, stageOf, hindex, Option.getD_some,
    List.getD_eq_getElem?_getD, List.getElem?_eq_getElem hi.2]

/-- The stages that relaxation ended with, as a staged mapping. -/
theorem exists_staged (hgraph : dfg.Verified target)
    (hlength : state.stages.length = dfg.nodes.length) :
    ∃ result, staged dfg mapping state = .ok result ∧ result.modulo = mapping ∧
      result.stages.map NodeStage.node = nodeIds dfg ∧
      ∀ id ∈ nodeIds dfg, result.stage id = .ok (stageOf (nodeIds dfg) state id) := by
  have hstrict := pairwise_nodeIds hgraph
  set stages : List NodeStage :=
    (nodeIds dfg).map fun id ↦ ⟨id, stageOf (nodeIds dfg) state id⟩ with hstages
  have hnodes : stages.map NodeStage.node = nodeIds dfg := by
    rw [hstages, List.map_map]
    exact List.map_id _
  have hsorted : (stages.map NodeStage.node).Pairwise (· < ·) := hnodes ▸ hstrict
  have hascending : stages.Pairwise fun lhs rhs ↦ lhs.node ≤ rhs.node :=
    (List.pairwise_map.mp hsorted).imp fun hlt ↦ le_of_lt hlt
  have hinsertion : stages.insertionSort (fun lhs rhs ↦ lhs.node ≤ rhs.node) = stages :=
    hascending.insertionSort_eq
  refine ⟨⟨mapping, stages, hsorted⟩, ?_, rfl, hnodes, fun id hid ↦ ?_⟩
  · simp only [staged, StagedMapping.create, zipWith_stages hgraph hlength, ← hstages, hinsertion,
      dif_pos hsorted]
  · have hmem : (⟨id, stageOf (nodeIds dfg) state id⟩ : NodeStage) ∈ stages :=
      List.mem_map_of_mem hid
    have hfind := find?_eq_some_of_nodup
      (hsorted.imp fun hlt ↦ hlt.ne : (stages.map NodeStage.node).Nodup) hmem
    rw [StagedMapping.stage, hfind]

/-- A logical time that is missing, although placement and stage are there, does not fit. -/
theorem overflow_of_logicalIssueTime {mapping : StagedMapping} {node : TargetNodeId}
    {placement : NodePlacement} {stage : ℕ} {e : StagedError}
    (hplacement : mapping.modulo.placement node = .ok placement)
    (hstage : mapping.stage node = .ok stage) (h : mapping.logicalIssueTime node = .error e) :
    ∃ message, e = .overflowError message := by
  unfold StagedMapping.logicalIssueTime at h
  rw [hplacement, hstage] at h
  simp only at h
  split at h
  · exact ⟨_, (Except.error.inj h).symm⟩
  split at h
  · exact ⟨_, (Except.error.inj h).symm⟩
  · cases h

/-- **The last part.** A solution is returned, unless sums of the output do not fit. -/
theorem conclude_spec (hverify : ModuloMappingVerifier.verify dfg target mapping = .ok [])
    {constraints : List StageConstraint} (hfrom : FromEdges dfg mapping constraints)
    (hlength : state.stages.length = dfg.nodes.length)
    (hsolves : Solves constraints (stageOf (nodeIds dfg) state)) :
    ∃ result, staged dfg mapping state = .ok result ∧ result.modulo = mapping ∧
      (∀ id ∈ nodeIds dfg, result.stage id = .ok (stageOf (nodeIds dfg) state id)) ∧
      ((conclude dfg target mapping state).status = .arithmeticOverflow ∨
        ∃ report, StageAssignmentVerifier.verify dfg target result = .ok report ∧
          (∀ d ∈ report, d.code = .outputArithmeticOverflow) ∧
          (report = [] → conclude dfg target mapping state
            = { status := .success, mapping := some result })) := by
  have hv := ModuloMappingVerifier.verified_of_verify hverify
  obtain ⟨result, hstaged, hmodulo, hnodes, hstage⟩ :=
    @exists_staged _ _ mapping _ hv.graph hlength
  refine ⟨result, hstaged, hmodulo, hstage, ?_⟩
  rcases htimes : dfg.nodes.mapM fun node ↦ result.logicalIssueTime node.id with e | times
  · -- a logical time does not fit
    left
    obtain ⟨node, hnode, htime⟩ := mapM_eq_error htimes
    obtain ⟨table, hplaced, -⟩ := hv.reserved
    obtain ⟨placement, _, _, hplacement⟩ := hplaced node hnode
    obtain ⟨message, rfl⟩ := overflow_of_logicalIssueTime
      (hmodulo ▸ ModuloMapping.placement_of_entries hplacement.entries)
      (hstage node.id (mem_nodeIds.mpr ⟨node, hnode, rfl⟩)) htime
    rw [conclude, hstaged]
    simp only [htimes]
    rfl
  · right
    have hsolves' : Solves constraints (stageValue result) := fun c hc ↦ by
      obtain ⟨hsrc, hdst⟩ := hfrom.ends hv.graph hc
      rw [stageValue_eq (hstage _ hsrc), stageValue_eq (hstage _ hdst)]
      exact hsolves c hc
    obtain ⟨report, hreport, hoverflow⟩ := verify_of_solves hmodulo hverify hnodes
      (fun node hnode ↦ by
        obtain ⟨time, -, htime⟩ := exists_result_of_mem htimes hnode
        exact ⟨time, htime⟩) hfrom hsolves'
    refine ⟨report, hreport, hoverflow, fun hempty ↦ ?_⟩
    subst hempty
    rw [conclude, hstaged]
    simp only [htimes, hreport]
    rfl

end Staged

/-! ## The scheduler -/

/-- Stages for a mapping that the verifier accepts. -/
structure Accepted (dfg : TargetDFG) (target : TargetModel) (mapping : ModuloMapping)
    (staged : StagedMapping) : Prop where
  modulo : staged.modulo = mapping
  verified : StageAssignmentVerifier.verify dfg target staged = .ok []

/-- What an edge asks for. -/
def minimumStageDelta (mapping : ModuloMapping) (edge : TargetEdge) : ℤ :=
  match constraintFor mapping edge with
  | .ok c => c.minimumStageDelta
  | .error _ => 0

/-- A witness that lists a directed cycle of the graph, against its direction: each edge enters the
node listed with it and leaves the node listed next. -/
structure PositiveCycle (dfg : TargetDFG) (mapping : ModuloMapping)
    (witness : StageConstraintCycleWitness) (cycle : List TargetEdge) : Prop where
  mem : ∀ edge ∈ cycle, edge ∈ dfg.edges
  edges : witness.edges = cycle.map TargetEdge.id
  entered : witness.nodes = cycle.map TargetEdge.dst
  left : witness.nodes.rotate 1 = cycle.map TargetEdge.src
  simple : witness.nodes.Nodup
  total : witness.totalMinimumStageDelta = (cycle.map (minimumStageDelta mapping)).sum
  positive : 0 < witness.totalMinimumStageDelta

/-- No sum of 64 bits overflows: none that the scheduler reports, none that the verifier reports
about the stages it is handed, and none along a cycle of constraints. -/
structure NoOverflow (dfg : TargetDFG) (target : TargetModel) (mapping : ModuloMapping) : Prop where
  scheduler : ∀ result, schedule dfg target mapping = .ok result →
    result.status ≠ .arithmeticOverflow
  verifier : ∀ constraints state result report,
    relax dfg mapping = .ok (constraints, none, state) → staged dfg mapping state = .ok result →
    StageAssignmentVerifier.verify dfg target result = .ok report →
    ∀ d ∈ report, d.code ≠ .outputArithmeticOverflow
  totals : ∀ constraints infeasible state,
    relax dfg mapping = .ok (constraints, infeasible, state) →
    ∀ l, Circular constraints l → PrefixesFit l

section Schedule

theorem minimumStageDelta_eq {edge : TargetEdge} {c : StageConstraint}
    (h : constraintFor mapping edge = .ok c) :
    minimumStageDelta mapping edge = c.minimumStageDelta := by
  rw [minimumStageDelta, h]

/-- With its preconditions met the scheduler relaxes. -/
theorem scheduleOrStop_eq (h : ModuloMappingVerifier.verify dfg target mapping = .ok []) :
    scheduleOrStop dfg target mapping = (do
      let (constraints, infeasible, state) ← relax dfg mapping
      match infeasible with
      | some updated =>
        return { failed .infeasibleStageConstraints ⟨.infeasiblePositiveCycle,
            "positive stage-constraint cycle makes this mapping infeasible", none, none⟩ with
          witness := witnessFor (nodeIds dfg) state updated constraints }
      | none => return conclude dfg target mapping state) := by
  have hii := (ModuloMappingVerifier.verified_of_verify h).ii_pos
  have haccepted := h
  simp only [ModuloMappingVerifier.verify, ModuloMappingVerifier.checkPreconditions,
    stage_eq_ok_nil_iff, require_eq_nil_iff, beq_iff_eq] at haccepted
  obtain ⟨hreport, hname, -⟩ := haccepted
  have hclean : ¬ (!(TargetDFGVerifier.verify dfg target).isEmpty) = true := by simp [hreport]
  rw [scheduleOrStop]
  refine (if_neg hclean).trans ((if_neg (not_not_intro hname)).trans ((if_neg hii.ne').trans ?_))
  exact h ▸ rfl

/-- Without overflows relaxation comes to an end. -/
theorem exists_relax (h : ModuloMappingVerifier.verify dfg target mapping = .ok [])
    (hfits : NoOverflow dfg target mapping) :
    ∃ constraints infeasible state, relax dfg mapping = .ok (constraints, infeasible, state) := by
  rcases hrelax : relax dfg mapping with stop | ⟨constraints, infeasible, state⟩
  · obtain ⟨diagnostic, rfl⟩ :=
      overflow_of_relax (ModuloMappingVerifier.verified_of_verify h) hrelax
    have hrun := scheduleOrStop_eq h
    rw [hrelax] at hrun
    exact absurd rfl (hfits.scheduler _ (by rw [schedule, hrun]; rfl))
  · exact ⟨constraints, infeasible, state, rfl⟩

/-- The edges of a cycle of constraints. -/
theorem exists_positiveCycle {constraints l : List StageConstraint}
    (hfrom : FromEdges dfg mapping constraints) (hcircular : Circular constraints l)
    (hpositive : 0 < deltaSum l) : ∃ cycle, PositiveCycle dfg mapping
      ⟨l.map StageConstraint.dst, l.map StageConstraint.edge, deltaSum l⟩ cycle := by
  obtain ⟨cycle, hcycle⟩ := exists_forall₂
    (R := fun edge c ↦ edge ∈ dfg.edges ∧ constraintFor mapping edge = .ok c)
    fun c hc ↦ hfrom.exists_edge (hcircular.mem c hc)
  have hconstrains : ∀ edge c, edge ∈ dfg.edges ∧ constraintFor mapping edge = .ok c →
      c.edge = edge.id ∧ c.src = edge.src ∧ c.dst = edge.dst := by
    rintro edge c ⟨-, hfor⟩
    obtain ⟨_, _, _, h⟩ := constrains_of_constraintFor hfor
    exact ⟨h.edge_eq, h.src_eq, h.dst_eq⟩
  refine ⟨cycle, fun edge hedge ↦ ?_, ?_, ?_, ?_, hcircular.simple, ?_, hpositive⟩
  · obtain ⟨c, -, hmem, -⟩ := exists_of_forall₂ hcycle edge hedge
    exact hmem
  · exact (map_eq_of_forall₂ (fun edge c h ↦ (hconstrains edge c h).1.symm) hcycle).symm
  · exact (map_eq_of_forall₂ (fun edge c h ↦ (hconstrains edge c h).2.2.symm) hcycle).symm
  · rw [← hcircular.closed]
    exact (map_eq_of_forall₂ (fun edge c h ↦ (hconstrains edge c h).2.1.symm) hcycle).symm
  · exact congrArg List.sum
      (map_eq_of_forall₂ (fun edge c h ↦ minimumStageDelta_eq h.2) hcycle).symm

/-- **Scheduling**: the least accepted stages, or a cycle that no stages satisfy. -/
theorem schedule_spec (h : ModuloMappingVerifier.verify dfg target mapping = .ok [])
    (hfits : NoOverflow dfg target mapping) :
    (∃ staged, schedule dfg target mapping = .ok { status := .success, mapping := some staged } ∧
      Accepted dfg target mapping staged ∧
      ∀ other, Accepted dfg target mapping other → ∀ node ∈ dfg.nodes, ∃ least stage,
        staged.stage node.id = .ok least ∧ other.stage node.id = .ok stage ∧ least ≤ stage) ∨
    ∃ diagnostics witness cycle, schedule dfg target mapping
        = .ok ⟨.infeasibleStageConstraints, none, some witness, diagnostics⟩ ∧
      PositiveCycle dfg mapping witness cycle ∧ ∀ other, ¬ Accepted dfg target mapping other := by
  have hv := ModuloMappingVerifier.verified_of_verify h
  have hrun := scheduleOrStop_eq h
  obtain ⟨constraints, infeasible, state, hrelax⟩ := exists_relax h hfits
  obtain ⟨hfrom, houtcome⟩ := relax_spec hv.graph hrelax
  have hsolves : ∀ other, Accepted dfg target mapping other →
      Solves constraints (stageValue other) := fun other hother ↦
    solves_of_verified hother.modulo (StageAssignmentVerifier.verified_of_verify hother.verified)
      hfrom
  rw [hrelax] at hrun
  rcases houtcome with ⟨rfl, hlength, hsolution, hleast⟩ | ⟨updated, l, rfl, hcircular, hpositive,
    hwitness⟩
  · left
    have hconclude : schedule dfg target mapping = .ok (conclude dfg target mapping state) := by
      rw [schedule, hrun]
      rfl
    obtain ⟨staged, hstaged, hmodulo, hstage, hdone⟩ := conclude_spec h hfrom hlength hsolution
    rcases hdone with hoverflow | ⟨report, hreport, hcodes, hdone⟩
    · exact absurd hoverflow (hfits.scheduler _ hconclude)
    have hempty : report = [] := List.eq_nil_iff_forall_not_mem.mpr fun d hd ↦
      hfits.verifier _ _ _ _ hrelax hstaged hreport d hd (hcodes d hd)
    rw [hdone hempty] at hconclude
    refine ⟨staged, hconclude, ⟨hmodulo, hempty ▸ hreport⟩, fun other hother node hnode ↦ ?_⟩
    have hid : node.id ∈ nodeIds dfg := mem_nodeIds.mpr ⟨node, hnode, rfl⟩
    obtain ⟨time, htime⟩ :=
      (StageAssignmentVerifier.verified_of_verify hother.verified).times node hnode
    obtain ⟨-, stage, -, hother', -⟩ := StagedMapping.logicalIssueTime_eq_ok htime
    refine ⟨_, stage, hstage node.id hid, hother', ?_⟩
    rw [← stageValue_eq hother']
    exact hleast _ (hsolves other hother) node.id hid
  · right
    obtain ⟨cycle, hcycle⟩ := exists_positiveCycle hfrom hcircular hpositive
    have hreported : ∃ diagnostics, schedule dfg target mapping
        = .ok ⟨.infeasibleStageConstraints, none,
          witnessFor (nodeIds dfg) state updated constraints, diagnostics⟩ := by
      rw [schedule, hrun]
      exact ⟨_, rfl⟩
    obtain ⟨diagnostics, hreported⟩ := hreported
    rw [hwitness (hfits.totals _ _ _ hrelax l hcircular)] at hreported
    refine ⟨diagnostics, _, cycle, hreported, hcycle, fun other hother ↦ ?_⟩
    exact absurd (hcircular.deltaSum_le_zero (hsolves other hother)) (not_le.mpr hpositive)

/-- **The least stages or a positive cycle.** The scheduler succeeds exactly when there are accepted
stages, and then returns the least; otherwise it returns a cycle that rules them out. What it asks
of an edge is the dependence inequality, rounded up. -/
theorem least_stages_or_positive_cycle
    (h : ModuloMappingVerifier.verify dfg target mapping = .ok [])
    (hfits : NoOverflow dfg target mapping) :
    ∃ result, schedule dfg target mapping = .ok result ∧
      (result.status = .success ↔ ∃ staged, Accepted dfg target mapping staged) ∧
      (result.status = .success → ∃ staged, result.mapping = some staged ∧
        Accepted dfg target mapping staged ∧
        ∀ other, Accepted dfg target mapping other → ∀ node ∈ dfg.nodes, ∃ least stage,
          staged.stage node.id = .ok least ∧ other.stage node.id = .ok stage ∧ least ≤ stage) ∧
      (result.status ≠ .success → result.status = .infeasibleStageConstraints ∧
        result.mapping = none ∧ ∃ witness cycle, result.witness = some witness ∧
          PositiveCycle dfg mapping witness cycle) ∧
      ∀ edge ∈ dfg.edges, ∃ source destination dependence,
        mapping.placement edge.src = .ok source ∧ mapping.placement edge.dst = .ok destination ∧
        mapping.dependence edge.id = .ok dependence ∧
        minimumStageDelta mapping edge = ⌈((dependence.requiredSeparationCycles
          - ((destination.issueSlot : ℤ) - source.issueSlot) : ℤ) : ℚ) / mapping.ii⌉
            - edge.distance ∧
        ∀ s s' : ℤ, minimumStageDelta mapping edge ≤ s' - s ↔
          s * mapping.ii + source.issueSlot + dependence.requiredSeparationCycles
            ≤ s' * mapping.ii + destination.issueSlot + edge.distance * mapping.ii := by
  have hv := ModuloMappingVerifier.verified_of_verify h
  obtain ⟨constraints, infeasible, state, hrelax⟩ := exists_relax h hfits
  have hfrom := (relax_spec hv.graph hrelax).1
  have hedges : ∀ edge ∈ dfg.edges, ∃ source destination dependence,
      mapping.placement edge.src = .ok source ∧ mapping.placement edge.dst = .ok destination ∧
      mapping.dependence edge.id = .ok dependence ∧
      minimumStageDelta mapping edge = ⌈((dependence.requiredSeparationCycles
        - ((destination.issueSlot : ℤ) - source.issueSlot) : ℤ) : ℚ) / mapping.ii⌉
          - edge.distance ∧
      ∀ s s' : ℤ, minimumStageDelta mapping edge ≤ s' - s ↔
        s * mapping.ii + source.issueSlot + dependence.requiredSeparationCycles
          ≤ s' * mapping.ii + destination.issueSlot + edge.distance * mapping.ii := by
    intro edge hedge
    obtain ⟨c, -, hfor⟩ := exists_of_forall₂ hfrom edge hedge
    obtain ⟨source, destination, dependence, hc⟩ := constrains_of_constraintFor hfor
    rw [minimumStageDelta_eq hfor]
    refine ⟨source, destination, dependence, hc.source_eq, hc.destination_eq, hc.dependence_eq,
      hc.delta_eq hv.ii_pos, fun s s' ↦ ?_⟩
    rw [← hc.delta_le_iff]
    constructor <;> intro hle <;> omega
  rcases schedule_spec h hfits with ⟨staged, hschedule, haccepted, hleast⟩ |
    ⟨diagnostics, witness, cycle, hschedule, hcycle, hnone⟩
  · exact ⟨_, hschedule, ⟨fun _ ↦ ⟨staged, haccepted⟩, fun _ ↦ rfl⟩,
      fun _ ↦ ⟨staged, rfl, haccepted, hleast⟩, fun hne ↦ absurd rfl hne, hedges⟩
  · exact ⟨_, hschedule, ⟨nofun, fun ⟨other, hother⟩ ↦ absurd hother (hnone other)⟩, nofun,
      fun _ ↦ ⟨rfl, rfl, witness, cycle, rfl, hcycle⟩, hedges⟩

end Schedule

/-- A run that reports no overflow, over constraints whose sums are small, has none. -/
theorem noOverflow_of_run {constraints : List StageConstraint} {infeasible : Option ℕ}
    {state : Relaxing} {dfg : TargetDFG} {target : TargetModel} {mapping : ModuloMapping}
    (hrelax : (relax dfg mapping).toOption = some (constraints, infeasible, state))
    (hstatus : (schedule dfg target mapping).toOption.all fun result ↦
      result.status != .arithmeticOverflow)
    (hstaged : infeasible.isSome = true ∨ (staged dfg mapping state).toOption.all fun result ↦
      accepts (StageAssignmentVerifier.verify dfg target result))
    (hsum : (constraints.map fun c ↦ |c.minimumStageDelta|).sum ≤ int64Max) :
    NoOverflow dfg target mapping := by
  constructor
  · intro result h
    rw [h] at hstatus
    simpa [Except.toOption] using hstatus
  · intro constraints' state' result report h hresult hreport d hd
    rw [h] at hrelax
    obtain ⟨-, rfl, rfl⟩ := Option.some.inj hrelax
    rw [hresult] at hstaged
    have hempty := (accepts_iff _).mp (hstaged.resolve_left Bool.false_ne_true)
    rw [Except.ok.inj (hreport.symm.trans hempty)] at hd
    exact absurd hd List.not_mem_nil
  · intro constraints' infeasible' state' h l hl
    rw [h] at hrelax
    obtain ⟨rfl, -, -⟩ := Option.some.inj hrelax
    exact hl.prefixesFit hsum

/-! ### The ring, scheduled -/

/-- With an interval of two the second node of the ring is one stage behind; with an interval of one
a turn is a positive cycle. -/
theorem ring_least_stages :
    (∃ result, schedule ringDFG shippedTarget (ringMapping 2 1 0) = .ok result ∧
      result.mapping = some ringStaged ∧
      ∀ other, Accepted ringDFG shippedTarget (ringMapping 2 1 0) other → ∃ stage,
        other.stage 1 = .ok stage ∧ 1 ≤ stage) ∧
    ∃ result witness cycle, schedule ringDFG shippedTarget (ringMapping 1 0 0) = .ok result ∧
      result.status = .infeasibleStageConstraints ∧ result.witness = some witness ∧
        PositiveCycle ringDFG (ringMapping 1 0 0) witness cycle := by
  have hslow : ModuloMappingVerifier.verify ringDFG shippedTarget (ringMapping 2 1 0) = .ok [] :=
    (accepts_iff _).mp (by decide +kernel)
  have hfast : ModuloMappingVerifier.verify ringDFG shippedTarget (ringMapping 1 0 0) = .ok [] :=
    (accepts_iff _).mp (by decide +kernel)
  have hscheduled : ((schedule ringDFG shippedTarget (ringMapping 2 1 0)).toOption.bind
      StageSchedulingResult.mapping).map (fun staged ↦ (staged.modulo, staged.stages))
        = some (ringMapping 2 1 0, [⟨0, 0⟩, ⟨1, 1⟩]) := by decide +kernel
  have hrefused : (schedule ringDFG shippedTarget (ringMapping 1 0 0)).toOption.map
      StageSchedulingResult.status = some .infeasibleStageConstraints := by decide +kernel
  constructor
  · obtain ⟨result, hresult, hiff, hleast, -⟩ := least_stages_or_positive_cycle hslow
      (@noOverflow_of_run [⟨0, 0, 1, 1, 0, 1⟩, ⟨1, 1, 0, -1, 1, 1⟩] _ _ _ _ _ rfl
        (by decide +kernel) (.inr (by decide +kernel)) (by decide))
    rw [hresult] at hscheduled
    have hmapping : result.mapping = some ringStaged := by
      obtain ⟨⟨modulo, stages, hsorted⟩, hstaged, hparts⟩ := Option.map_eq_some_iff.mp hscheduled
      obtain ⟨rfl, rfl⟩ := Prod.mk.inj hparts
      exact hstaged
    have haccepted : Accepted ringDFG shippedTarget (ringMapping 2 1 0) ringStaged :=
      ⟨rfl, (accepts_iff _).mp ringStaged_accepted⟩
    obtain ⟨staged, hstaged, -, hbelow⟩ := hleast (hiff.mpr ⟨_, haccepted⟩)
    obtain rfl := Option.some.inj (hmapping.symm.trans hstaged)
    refine ⟨result, hresult, hmapping, fun other hother ↦ ?_⟩
    obtain ⟨least, stage, hleast, hstage, hle⟩ := hbelow other hother (passNode 1) (by decide)
    obtain rfl : 1 = least := Except.ok.inj hleast
    exact ⟨stage, hstage, hle⟩
  · obtain ⟨result, hresult, -, -, hfailed, -⟩ := least_stages_or_positive_cycle hfast
      (@noOverflow_of_run [⟨0, 0, 1, 1, 0, 1⟩, ⟨1, 1, 0, 0, 1, 1⟩] _ _ _ _ _ rfl
        (by decide +kernel) (.inl (by decide +kernel)) (by decide))
    rw [hresult] at hrefused
    have hstatus : result.status = .infeasibleStageConstraints := Option.some.inj hrefused
    obtain ⟨-, -, witness, cycle, hwitness, hcycle⟩ := hfailed (by rw [hstatus]; decide)
    exact ⟨result, witness, cycle, hresult, hstatus, hwitness, hcycle⟩

end StageScheduler

end PredicatedMesh
