import PredicatedMesh.Target.DFGVerifier

/-!
# The provider of an operand

The verifier counts, for each operand, the bindings that name it and the edges that feed it, and
wants the count to be one. An operand that an edge feeds is therefore fed by no other edge and by no
binding, and a search for its provider finds that edge.
-/

namespace PredicatedMesh

namespace TargetDFGVerifier

variable {dfg : TargetDFG} {target : TargetModel}

/-- The parts of an empty report that are about providers. -/
theorem providers_of_verify (h : verify dfg target = []) :
    (∀ binding ∈ dfg.operandBindings, checkBinding dfg binding = []) ∧
      (∀ node ∈ dfg.nodes, ∀ operand < node.operandTypes.length,
        (providers dfg).count (node.id, operand) = 1) ∧
      (∀ edge ∈ dfg.edges, checkEdge dfg target edge = []) ∧
      ∀ node ∈ dfg.nodes, checkAdjacency dfg node = [] := by
  simp only [verify, List.append_eq_nil_iff, List.flatMap_eq_nil_iff] at h
  obtain ⟨⟨⟨⟨⟨⟨-, hbindings⟩, -⟩, hnodes⟩, hedges⟩, -⟩, hadjacency⟩ := h
  refine ⟨hbindings, fun node hnode operand hoperand ↦ ?_, hedges, hadjacency⟩
  have hnode := hnodes node hnode
  unfold checkNode at hnode
  split at hnode
  · cases hnode
  simp only [checkNodeAgainst, List.append_eq_nil_iff] at hnode
  have hprovider := List.flatMap_eq_nil_iff.mp hnode.2 operand (List.mem_range.mpr hoperand)
  unfold checkOperandProviders at hprovider
  split at hprovider
  · cases hprovider
  · assumption
  · cases hprovider

/-- The operand of a value edge is one of its consumer's. -/
theorem operand_lt_of_checkEdge {edge : TargetEdge} {operand : ℕ}
    (h : checkEdge dfg target edge = []) (hoperand : edge.info.dstOperand = some operand) :
    ∃ dst, dfg.findNode edge.dst = some dst ∧ operand < dst.operandTypes.length := by
  unfold checkEdge at h
  split at h
  · cases h
  · cases h
  rename_i src dst hsrc hdst
  refine ⟨dst, hdst, ?_⟩
  have hsome : (dst.operandTypes[operand]?).isSome := by
    cases hinfo : edge.info with
    | data operand' boundary =>
      rw [hinfo] at h hoperand
      obtain rfl := Option.some.inj hoperand
      simp only [Scan.require_eq_nil_iff, dataEdgeValid, Bool.and_eq_true, Option.any_eq_true] at h
      obtain ⟨⟨⟨type, htype, -⟩, -⟩, -⟩ := h
      rw [htype]
      rfl
    | predicate operand' boundary =>
      rw [hinfo] at h hoperand
      obtain rfl := Option.some.inj hoperand
      simp only [Scan.require_eq_nil_iff, predicateEdgeValid, Bool.and_eq_true,
        Option.any_eq_true] at h
      obtain ⟨⟨⟨type, htype, -⟩, -⟩, -⟩ := h
      rw [htype]
      rfl
    | memory dependence =>
      rw [hinfo] at hoperand
      cases hoperand
  exact (List.getElem?_eq_some_iff.mp (Option.isSome_iff_exists.mp hsome).choose_spec).1

/-- The edges into a node, as its cached adjacency lists them. -/
theorem incoming_of_checkAdjacency (h : verify dfg target = []) {node : TargetNode}
    (hnode : node ∈ dfg.nodes) : dfg.incoming node.id
      = some ((dfg.edges.filter fun edge ↦ edge.dst == node.id).map TargetEdge.id) := by
  obtain ⟨-, -, -, hadjacency⟩ := providers_of_verify h
  have hv := verified_of_verify h
  have hclean := hadjacency node hnode
  simp only [checkAdjacency, Scan.require_eq_nil_iff, Bool.and_eq_true, beq_iff_eq] at hclean
  -- every edge has known ends
  have hknown : (dfg.edges.filter fun edge ↦
      dfg.containsNode edge.src && dfg.containsNode edge.dst) = dfg.edges := by
    rw [List.filter_eq_self]
    intro edge hedge
    obtain ⟨src, dst, hsrc, hdst⟩ := hv.endpoints edge hedge
    rw [TargetDFG.containsNode, hsrc, TargetDFG.containsNode, hdst]
    rfl
  rw [hclean.1, hknown]

/-- **An operand fed by an edge** has no binding, and no other edge feeds it. -/
theorem provider_unique (h : verify dfg target = []) {edge : TargetEdge} (hedge : edge ∈ dfg.edges)
    {operand : ℕ} (hoperand : edge.info.dstOperand = some operand) :
    (∀ binding ∈ dfg.operandBindings, ¬ (binding.node = edge.dst ∧ binding.operand = operand)) ∧
      ∀ other ∈ dfg.edges, other.dst = edge.dst → other.info.dstOperand = some operand →
        other = edge := by
  obtain ⟨hbindings, hcount, hedges, -⟩ := providers_of_verify h
  obtain ⟨dst, hdst, hlt⟩ := operand_lt_of_checkEdge (hedges edge hedge) hoperand
  have hone : (providers dfg).count (edge.dst, operand) = 1 := by
    have := hcount dst (TargetDFG.mem_of_findNode hdst) operand hlt
    rwa [TargetDFG.findNode_id hdst] at this
  rw [providers, List.count_append] at hone
  have hfed : 0 < (dfg.edges.filterMap fun edge ↦
      edge.info.dstOperand.map fun operand ↦ (edge.dst, operand)).count (edge.dst, operand) := by
    refine List.count_pos_iff.mpr (List.mem_filterMap.mpr ⟨edge, hedge, ?_⟩)
    rw [hoperand]
    rfl
  constructor
  · rintro binding hbinding ⟨hnode, hbound⟩
    have hclean := hbindings binding hbinding
    have hprovides : bindingProvides dfg binding = true := by
      rw [bindingProvides, hnode, hdst, Option.any_some, hbound, decide_eq_true_eq]
      exact hlt
    have hbound' : 0 < ((dfg.operandBindings.filter (bindingProvides dfg)).map fun binding ↦
        (binding.node, binding.operand)).count (edge.dst, operand) := by
      refine List.count_pos_iff.mpr (List.mem_map.mpr ⟨binding, ?_, by rw [hnode, hbound]⟩)
      exact List.mem_filter.mpr ⟨hbinding, hprovides⟩
    omega
  · intro other hother hsame hother'
    by_contra hne
    -- two edges would be counted twice
    obtain ⟨pair, hperm, hsub⟩ : [other, edge].Subperm dfg.edges := by
      apply List.subperm_of_subset
      · simpa using hne
      · intro e he
        rcases List.mem_cons.mp he with rfl | he
        · exact hother
        · exact List.mem_singleton.mp he ▸ hedge
    have hle := (hsub.filterMap fun edge : TargetEdge ↦
      edge.info.dstOperand.map fun operand ↦ (edge.dst, operand)).count_le (edge.dst, operand)
    rw [(hperm.filterMap _).count_eq] at hle
    simp only [List.filterMap_cons, List.filterMap_nil, hother', hoperand, Option.map_some, hsame,
      List.count_cons_self, List.count_nil] at hle
    omega

end TargetDFGVerifier

end PredicatedMesh
