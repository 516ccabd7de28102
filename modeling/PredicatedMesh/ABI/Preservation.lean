import PredicatedMesh.ABI.BoundGraph
import PredicatedMesh.ABI.Extension

/-!
# Binding preserves the kernel

The bound graph extends the original one by output stores (`BoundGraph.extendsByOutputs`): every
operand of an original node has the value it had, with the inputs of the invocation, and every store
writes its live-out to its own word. So every run of the bound graph is a run of the original graph
with the stores in between, and leaves the live-outs of the last iteration in the output region.
-/

namespace PredicatedMesh

open Scan

namespace KernelABIBinder

/-- What an output delivers. -/
def PlacedOutput.delivered (placed : PlacedOutput) : DeliveredOutput :=
  ⟨placed.liveOut.source, placed.binding.abiStoreNode, placed.binding.scratchpadAddress⟩

namespace BoundGraph

variable {source : SourcedDFG} {target : TargetModel} {invocation : KernelInvocation}
  {bound : ABIBoundKernel} {specialized : List (ℕ × ℕ)} {added : List ConstantValue}
  {placed : List PlacedOutput}

/-! ## Nodes -/

theorem nodes_eq (h : BoundGraph source target invocation bound specialized added placed)
    (hlabels : source.sources.length = source.dfg.nodes.length) :
    bound.dfg.dfg.nodes
      = source.dfg.nodes ++ placed.map fun output ↦ (output.store target).1 := by
  rw [← h.assembled.toBuilt.map_fst_entries, h.entries_eq, List.map_append, List.map_map]
  exact congrArg (· ++ _) (List.map_fst_zip hlabels.ge)

theorem findNode_eq (h : BoundGraph source target invocation bound specialized added placed)
    (hlabels : source.sources.length = source.dfg.nodes.length) {id : ℕ}
    (hid : source.dfg.containsNode id = true) :
    bound.dfg.dfg.findNode id = source.dfg.findNode id := by
  obtain ⟨node, hnode⟩ := Option.isSome_iff_exists.mp hid
  rw [hnode, DFG.findNode, h.nodes_eq hlabels]
  exact DFG.find?_of_prefix (List.prefix_append _ _) hnode

theorem containsNode_iff (h : BoundGraph source target invocation bound specialized added placed)
    (hlabels : source.sources.length = source.dfg.nodes.length) (id : ℕ) :
    bound.dfg.dfg.containsNode id = true ↔ source.dfg.containsNode id = true ∨
      ∃ output ∈ placed.map PlacedOutput.delivered, output.store = id := by
  rw [DFG.containsNode_iff, DFG.containsNode_iff, h.nodes_eq hlabels]
  simp only [List.mem_append, List.mem_map]
  constructor
  · rintro ⟨node, hnode | ⟨output, houtput, rfl⟩, hid⟩
    · exact .inl ⟨node, hnode, hid⟩
    · exact .inr ⟨_, ⟨output, houtput, rfl⟩, hid⟩
  · rintro (⟨node, hnode, hid⟩ | ⟨_, ⟨output, houtput, rfl⟩, hid⟩)
    · exact ⟨node, .inl hnode, hid⟩
    · exact ⟨_, .inr ⟨output, houtput, rfl⟩, hid⟩

/-- The stores are new nodes, and different ones. -/
theorem nodup_stores (h : BoundGraph source target invocation bound specialized added placed)
    (hlabels : source.sources.length = source.dfg.nodes.length) :
    (∀ output ∈ placed, source.dfg.containsNode output.binding.abiStoreNode = false) ∧
      (placed.map fun output ↦ output.binding.abiStoreNode).Nodup := by
  have hnodup := h.assembled.toBuilt.nodes
  rw [h.nodes_eq hlabels, List.map_append, List.map_map, List.nodup_append] at hnodup
  obtain ⟨-, hstores, hdisjoint⟩ := hnodup
  refine ⟨fun output houtput ↦ ?_, hstores⟩
  rw [← Bool.not_eq_true, DFG.containsNode_iff]
  rintro ⟨node, hnode, hid⟩
  exact hdisjoint _ (List.mem_map_of_mem hnode) _ (List.mem_map_of_mem houtput) hid

/-! ## Values from outside -/

theorem findConstant_of_mem
    (h : BoundGraph source target invocation bound specialized added placed)
    {constant : ConstantValue} (hmem : constant ∈ bound.dfg.dfg.constants) :
    bound.dfg.dfg.findConstant constant.id = some constant :=
  find?_eq_some_of_nodup h.assembled.toBuilt.constants hmem

/-- A value from outside has become a constant with its bits. -/
theorem exists_constant (h : BoundGraph source target invocation bound specialized added placed)
    {value : ExternalOperandBinding}
    (hknown : ∃ type, DFGVerifier.providedType source.dfg value = some type)
    (hconstant : HasConstant specialized value) :
    ∃ constant, specializedSource specialized value = .constantRef constant.id ∧
      bound.dfg.dfg.findConstant constant.id = some constant ∧
        constant.bits = source.dfg.outsideValue (inputBits invocation) value := by
  rcases value with value | value
  · obtain ⟨entry, hentry⟩ := hconstant
    obtain ⟨hmem, hkey⟩ := SortedMap.lookup_eq_some hentry
    obtain ⟨constant, hadded, hid, hbits⟩ := h.inputs entry hmem
    have hconstant : constant ∈ bound.dfg.dfg.constants := by
      rw [h.constants_eq]
      exact List.mem_append_left _ (List.mem_append_right _ hadded)
    refine ⟨constant, ?_, h.findConstant_of_mem hconstant, ?_⟩
    · rw [specializedSource, hentry, Option.elim_some, hid]
    · rw [hbits, hkey]
      rfl
  · obtain ⟨type, htype⟩ := hknown
    obtain ⟨constant, hfound, -⟩ := Option.map_eq_some_iff.mp htype
    have hmem : constant ∈ bound.dfg.dfg.constants := by
      rw [h.constants_eq]
      exact List.mem_append_left _ (List.mem_append_left _ (List.mem_of_find?_eq_some hfound))
    have hid : constant.id = value := by simpa using List.find?_some hfound
    refine ⟨constant, by rw [specializedSource, hid], h.findConstant_of_mem hmem, ?_⟩
    rw [DFG.outsideValue_constantRef hfound]

theorem outsideValue_eq (h : BoundGraph source target invocation bound specialized added placed)
    {value : ExternalOperandBinding}
    (hknown : ∃ type, DFGVerifier.providedType source.dfg value = some type)
    (hconstant : HasConstant specialized value) (inputs' : ℕ → ℕ) :
    bound.dfg.dfg.outsideValue inputs' (specializedSource specialized value)
      = source.dfg.outsideValue (inputBits invocation) value := by
  obtain ⟨constant, hspecialized, hfound, hbits⟩ := h.exists_constant hknown hconstant
  rw [hspecialized, DFG.outsideValue_constantRef hfound, hbits]

theorem boundaryValue_eq (h : BoundGraph source target invocation bound specialized added placed)
    {boundary : Option RecurrenceBoundary}
    (hknown : ∀ listed, boundary = some listed → ∀ item ∈ listed.values,
      ∃ type, DFGVerifier.providedType source.dfg item.value = some type)
    (hconstants : BoundaryHasConstants specialized boundary) (inputs' : ℕ → ℕ) (iteration : ℕ) :
    bound.dfg.dfg.boundaryValue inputs' (boundary.map (specializedBoundary specialized)) iteration
      = source.dfg.boundaryValue (inputBits invocation) boundary iteration := by
  cases boundary with
  | none => rfl
  | some listed =>
    rw [DFG.boundaryValue, DFG.boundaryValue, Option.map_some, Option.elim_some, Option.elim_some,
      specializedBoundary, List.find?_map]
    have hsame : ((fun item : RecurrenceBoundaryValue ↦ item.iterationOffset == iteration)
        ∘ specializedItem specialized) = fun item ↦ item.iterationOffset == iteration := rfl
    rw [hsame]
    cases hitem : listed.values.find? fun item ↦ item.iterationOffset == iteration with
    | none => rfl
    | some item =>
      have hmem := List.mem_of_find?_eq_some hitem
      exact h.outsideValue_eq (hknown listed rfl item hmem) (hconstants listed rfl item hmem)
        inputs'

/-! ## Operands -/

theorem specializedInfo_dstOperand (info : EdgeInfo) :
    (specializedInfo specialized info).dstOperand = info.dstOperand := by
  cases info <;> rfl

theorem specializedInfo_boundary (info : EdgeInfo) :
    (specializedInfo specialized info).boundary
      = info.boundary.map (specializedBoundary specialized) := by
  cases info <;> rfl

/-- The edges of the outputs end at their stores. -/
theorem dst_of_mem_edges {output : PlacedOutput} {edge : Edge} (h : edge ∈ output.edges) :
    edge.dst = output.binding.abiStoreNode := by
  rcases List.mem_cons.mp h with rfl | h
  · rfl
  · obtain rfl := List.mem_singleton.mp h
    rfl

theorem operandEdge_eq (h : BoundGraph source target invocation bound specialized added placed)
    (hlabels : source.sources.length = source.dfg.nodes.length) {id : ℕ}
    (hid : source.dfg.containsNode id = true) (operand : ℕ) :
    bound.dfg.dfg.operandEdge id operand
      = (source.dfg.operandEdge id operand).map (specializedEdge specialized) := by
  have hsame : ((fun edge : Edge ↦ edge.dst == id && edge.info.dstOperand == some operand)
      ∘ specializedEdge specialized)
      = fun edge ↦ edge.dst == id && edge.info.dstOperand == some operand := by
    funext edge
    simp only [Function.comp_apply, specializedEdge, specializedInfo_dstOperand]
  have hnone : (placed.flatMap PlacedOutput.edges).find? (fun edge ↦
      edge.dst == id && edge.info.dstOperand == some operand) = none := by
    rw [List.find?_eq_none]
    intro edge hedge
    obtain ⟨output, houtput, hedge⟩ := List.mem_flatMap.mp hedge
    have hfresh := (h.nodup_stores hlabels).1 output houtput
    rw [Bool.and_eq_true, beq_iff_eq, dst_of_mem_edges hedge]
    rintro ⟨rfl, -⟩
    rw [hid] at hfresh
    cases hfresh
  rw [DFG.operandEdge, h.edges_eq, List.find?_append, hnone, Option.or_none, List.find?_map, hsame]
  rfl

/-- An operand is bound once. -/
theorem nodup_bindings (h : BoundGraph source target invocation bound specialized added placed) :
    (bound.dfg.dfg.externalBindings.map fun binding ↦ (binding.node, binding.operand)).Nodup := by
  have hkeys := h.assembled.toBuilt.bindings.nodup
  rw [show DFG.bindingKey = toLex ∘ fun binding ↦ (binding.node, binding.operand) from rfl,
    ← List.map_map] at hkeys
  exact hkeys.of_map

theorem operandBinding_eq_some_iff
    (h : BoundGraph source target invocation bound specialized added placed) {id operand : ℕ}
    {binding : OperandBinding} : bound.dfg.dfg.operandBinding id operand = some binding ↔
      (binding ∈ source.dfg.externalBindings.map (specializedBinding specialized) ∨
        binding ∈ placed.map PlacedOutput.addressBinding) ∧
          (binding.node, binding.operand) = (id, operand) := by
  rw [DFG.operandBinding_eq_some_iff h.nodup_bindings, h.bindings_perm.mem_iff, List.mem_append]

theorem operandBinding_eq (h : BoundGraph source target invocation bound specialized added placed)
    (hlabels : source.sources.length = source.dfg.nodes.length) {id : ℕ}
    (hid : source.dfg.containsNode id = true) (operand : ℕ) :
    bound.dfg.dfg.operandBinding id operand
      = (source.dfg.operandBinding id operand).map (specializedBinding specialized) := by
  have hkeys : (source.dfg.externalBindings.map fun binding ↦
      (binding.node, binding.operand)).Nodup := by
    have hboth := (h.bindings_perm.map fun binding ↦ (binding.node, binding.operand)).nodup_iff.mp
      h.nodup_bindings
    rw [List.map_append, List.map_map] at hboth
    exact hboth.of_append_left
  refine Option.ext fun binding ↦ ?_
  rw [h.operandBinding_eq_some_iff, Option.map_eq_some_iff]
  simp only [DFG.operandBinding_eq_some_iff hkeys]
  constructor
  · rintro ⟨hmem | hmem, hkey⟩
    · obtain ⟨original, horiginal, rfl⟩ := List.mem_map.mp hmem
      exact ⟨original, ⟨horiginal, hkey⟩, rfl⟩
    · obtain ⟨output, houtput, rfl⟩ := List.mem_map.mp hmem
      have hfresh := (h.nodup_stores hlabels).1 output houtput
      obtain rfl := (Prod.mk.inj hkey).1
      rw [PlacedOutput.addressBinding, hfresh] at hid
      cases hid
  · rintro ⟨original, ⟨horiginal, hkey⟩, rfl⟩
    exact ⟨.inl (List.mem_map_of_mem horiginal), hkey⟩

/-- **Every operand of an original node has the value it had.** -/
theorem operandValue_eq (h : BoundGraph source target invocation bound specialized added placed)
    (hlabels : source.sources.length = source.dfg.nodes.length)
    (hsource : DFGVerifier.verify source.dfg = []) {id : ℕ}
    (hid : source.dfg.containsNode id = true) (inputs' : ℕ → ℕ) (values : ℕ × ℕ → ℕ)
    (iteration operand : ℕ) :
    bound.dfg.dfg.operandValue inputs' values id iteration operand
      = source.dfg.operandValue (inputBits invocation) values id iteration operand := by
  rw [DFG.operandValue, DFG.operandValue, h.operandEdge_eq hlabels hid,
    h.operandBinding_eq hlabels hid]
  cases hedge : source.dfg.operandEdge id operand with
  | some edge =>
    have hmem := List.mem_of_find?_eq_some hedge
    have hoperand : edge.info.dstOperand = some operand := by
      have hfound := List.find?_some hedge
      rw [Bool.and_eq_true, beq_iff_eq, beq_iff_eq] at hfound
      exact hfound.2
    have hkind : edge.kind ≠ .memory := by
      intro hkind
      rw [Edge.kind] at hkind
      cases hinfo : edge.info <;> simp_all [EdgeInfo.kind, EdgeInfo.dstOperand]
    have hknown : ∀ listed, edge.info.boundary = some listed → ∀ item ∈ listed.values,
        ∃ type, DFGVerifier.providedType source.dfg item.value = some type := by
      intro listed hlisted
      rcases DFGVerifier.boundary_of_verify hsource hmem hkind with ⟨-, hnone⟩ |
        ⟨-, listed', hlisted', -, hvalues⟩
      · cases hnone.symm.trans hlisted
      · obtain rfl := Option.some.inj (hlisted.symm.trans hlisted')
        exact hvalues
    simp only [Option.map_some, specializedEdge, specializedInfo_boundary]
    rw [h.boundaryValue_eq hknown (h.boundaries edge hmem)]
  | none =>
    cases hbinding : source.dfg.operandBinding id operand with
    | none => rfl
    | some binding =>
      have hmem := List.mem_of_find?_eq_some hbinding
      obtain ⟨-, type, -, -, htype⟩ := (DFGVerifier.verified_of_verify hsource).binding binding hmem
      exact h.outsideValue_eq ⟨type, htype⟩ (h.bindings binding hmem) inputs'

/-! ## Dependences -/

/-- Edges into an original node are original edges. -/
theorem mem_edges_iff (h : BoundGraph source target invocation bound specialized added placed)
    (hlabels : source.sources.length = source.dfg.nodes.length) {edge : Edge}
    (hdst : source.dfg.containsNode edge.dst = true) : edge ∈ bound.dfg.dfg.edges ↔
      ∃ original ∈ source.dfg.edges, specializedEdge specialized original = edge := by
  rw [h.edges_eq, List.mem_append, List.mem_map, or_iff_left]
  intro hmem
  obtain ⟨output, houtput, hmem⟩ := List.mem_flatMap.mp hmem
  have hfresh := (h.nodup_stores hlabels).1 output houtput
  rw [← dst_of_mem_edges hmem, hdst] at hfresh
  cases hfresh

theorem requires_iff (h : BoundGraph source target invocation bound specialized added placed)
    (hlabels : source.sources.length = source.dfg.nodes.length) {before after : ℕ × ℕ}
    (hafter : source.dfg.containsNode after.1 = true) :
    bound.dfg.dfg.Requires before after ↔ source.dfg.Requires before after := by
  constructor
  · rintro ⟨edge, hedge, hdst, hdistance, hbefore⟩
    obtain ⟨original, horiginal, rfl⟩ := (h.mem_edges_iff hlabels (hdst ▸ hafter)).mp hedge
    exact ⟨original, horiginal, hdst, hdistance, hbefore⟩
  · rintro ⟨edge, hedge, hdst, hdistance, hbefore⟩
    refine ⟨specializedEdge specialized edge, ?_, hdst, hdistance, hbefore⟩
    rw [h.edges_eq]
    exact List.mem_append_left _ (List.mem_map_of_mem hedge)

/-- Edges into a store are its own two edges. -/
theorem mem_edges_of_dst (h : BoundGraph source target invocation bound specialized added placed)
    (hlabels : source.sources.length = source.dfg.nodes.length)
    (hsource : DFGVerifier.verify source.dfg = []) {output : PlacedOutput}
    (houtput : output ∈ placed) {edge : Edge} (hedge : edge ∈ bound.dfg.dfg.edges)
    (hdst : edge.dst = output.binding.abiStoreNode) : edge ∈ output.edges := by
  obtain ⟨hfresh, hstores⟩ := h.nodup_stores hlabels
  rw [h.edges_eq] at hedge
  rcases List.mem_append.mp hedge with hedge | hedge
  · obtain ⟨original, horiginal, rfl⟩ := List.mem_map.mp hedge
    obtain ⟨-, node, -, hnode⟩ := DFGVerifier.endpoints_of_verify hsource horiginal
    have hcontains : source.dfg.containsNode original.dst = true := by
      rw [DFG.containsNode, hnode, Option.isSome_some]
    rw [show original.dst = output.binding.abiStoreNode from hdst, hfresh output houtput]
      at hcontains
    cases hcontains
  · obtain ⟨other, hother, hedge⟩ := List.mem_flatMap.mp hedge
    have hsame := (dst_of_mem_edges hedge).symm.trans hdst
    rwa [List.inj_on_of_nodup_map hstores hother houtput hsame] at hedge

theorem mem_edges_of_mem (h : BoundGraph source target invocation bound specialized added placed)
    {output : PlacedOutput} (houtput : output ∈ placed) {edge : Edge}
    (hedge : edge ∈ output.edges) : edge ∈ bound.dfg.dfg.edges := by
  rw [h.edges_eq]
  exact List.mem_append_right _ (List.mem_flatMap.mpr ⟨output, houtput, hedge⟩)

theorem requires_store_iff
    (h : BoundGraph source target invocation bound specialized added placed)
    (hlabels : source.sources.length = source.dfg.nodes.length)
    (hsource : DFGVerifier.verify source.dfg = []) {output : PlacedOutput}
    (houtput : output ∈ placed) (before : ℕ × ℕ) (iteration : ℕ) :
    bound.dfg.dfg.Requires before (output.binding.abiStoreNode, iteration) ↔
      before = (output.liveOut.source, iteration) ∨
        1 ≤ iteration ∧ before = (output.binding.abiStoreNode, iteration - 1) := by
  constructor
  · rintro ⟨edge, hedge, hdst, hdistance, rfl⟩
    have hown := h.mem_edges_of_dst hlabels hsource houtput hedge hdst
    rcases List.mem_cons.mp hown with rfl | hown
    · exact .inl rfl
    · obtain rfl := List.mem_singleton.mp hown
      exact .inr ⟨hdistance, rfl⟩
  · rintro (rfl | ⟨hpos, rfl⟩)
    · exact ⟨_, h.mem_edges_of_mem houtput List.mem_cons_self, rfl, Nat.zero_le _, rfl⟩
    · exact ⟨_, h.mem_edges_of_mem houtput (List.mem_cons_of_mem _ List.mem_cons_self), rfl, hpos,
        rfl⟩

/-! ## Stores -/

theorem findNode_store (h : BoundGraph source target invocation bound specialized added placed)
    (hlabels : source.sources.length = source.dfg.nodes.length) {output : PlacedOutput}
    (houtput : output ∈ placed) : bound.dfg.dfg.findNode output.binding.abiStoreNode
      = some (outputStore target output.binding.abiStoreNode output.liveOut.type) := by
  have hmem : (output.store target).1 ∈ bound.dfg.dfg.nodes := by
    rw [h.nodes_eq hlabels]
    exact List.mem_append_right _ (List.mem_map.mpr ⟨output, houtput, rfl⟩)
  exact find?_eq_some_of_nodup h.assembled.toBuilt.nodes hmem

/-- The address operand of a store is its constant. -/
theorem operandValue_address
    (h : BoundGraph source target invocation bound specialized added placed)
    (hlabels : source.sources.length = source.dfg.nodes.length)
    (hsource : DFGVerifier.verify source.dfg = []) {output : PlacedOutput}
    (houtput : output ∈ placed) (inputs' : ℕ → ℕ) (values : ℕ × ℕ → ℕ) (iteration : ℕ) :
    bound.dfg.dfg.operandValue inputs' values output.binding.abiStoreNode iteration 0
      = output.binding.scratchpadAddress := by
  have hedge : bound.dfg.dfg.operandEdge output.binding.abiStoreNode 0 = none := by
    rw [DFG.operandEdge, List.find?_eq_none]
    intro edge hedge hfeeds
    rw [Bool.and_eq_true, beq_iff_eq, beq_iff_eq] at hfeeds
    have hown := h.mem_edges_of_dst hlabels hsource houtput hedge hfeeds.1
    rcases List.mem_cons.mp hown with rfl | hown
    · exact absurd hfeeds.2 (by simp [EdgeInfo.dstOperand])
    · obtain rfl := List.mem_singleton.mp hown
      exact absurd hfeeds.2 (by simp [EdgeInfo.dstOperand])
  have hbinding : bound.dfg.dfg.operandBinding output.binding.abiStoreNode 0
      = some output.addressBinding :=
    h.operandBinding_eq_some_iff.mpr ⟨.inr (List.mem_map_of_mem houtput), rfl⟩
  have hconstant : output.addressConstant ∈ bound.dfg.dfg.constants := by
    rw [h.constants_eq]
    exact List.mem_append_right _ (List.mem_map_of_mem houtput)
  rw [DFG.operandValue, hedge, hbinding]
  exact @DFG.outsideValue_constantRef _ inputs' _ _ (h.findConstant_of_mem hconstant)

/-- The data operand of a store is its live-out of the same iteration. -/
theorem operandValue_data
    (h : BoundGraph source target invocation bound specialized added placed)
    (hlabels : source.sources.length = source.dfg.nodes.length)
    (hsource : DFGVerifier.verify source.dfg = []) {output : PlacedOutput}
    (houtput : output ∈ placed) (inputs' : ℕ → ℕ) (values : ℕ × ℕ → ℕ) (iteration : ℕ) :
    bound.dfg.dfg.operandValue inputs' values output.binding.abiStoreNode iteration 1
      = values (output.liveOut.source, iteration) := by
  rw [DFG.operandValue]
  cases hedge : bound.dfg.dfg.operandEdge output.binding.abiStoreNode 1 with
  | none =>
    have hdata := List.find?_eq_none.mp hedge _ (h.mem_edges_of_mem houtput List.mem_cons_self)
    simp [EdgeInfo.dstOperand] at hdata
  | some edge =>
    have hfeeds := List.find?_some hedge
    rw [Bool.and_eq_true, beq_iff_eq, beq_iff_eq] at hfeeds
    have hown := h.mem_edges_of_dst hlabels hsource houtput (List.mem_of_find?_eq_some hedge)
      hfeeds.1
    rcases List.mem_cons.mp hown with rfl | hown
    · rfl
    · obtain rfl := List.mem_singleton.mp hown
      exact absurd hfeeds.2 (by simp [EdgeInfo.dstOperand])

theorem mem_liveOuts (h : BoundGraph source target invocation bound specialized added placed)
    {output : PlacedOutput} (houtput : output ∈ placed) : output.liveOut ∈ source.dfg.liveOuts := by
  have hmem := List.mem_map_of_mem (f := PlacedOutput.liveOut) houtput
  rw [h.liveOuts] at hmem
  exact (List.mem_insertionSort _).mp hmem

/-- **The bound graph is the original graph with a store for each live-out.** -/
theorem extendsByOutputs
    (h : BoundGraph source target invocation bound specialized added placed)
    (hlabels : source.sources.length = source.dfg.nodes.length)
    (hsource : DFGVerifier.verify source.dfg = []) :
    ExtendsByOutputs source.dfg bound.dfg.dfg (inputBits invocation)
      (placed.map PlacedOutput.delivered) where
  findNode _ hid := h.findNode_eq hlabels hid
  operandValue inputs' values _ hid := h.operandValue_eq hlabels hsource hid inputs' values
  requires _ _ hafter := h.requires_iff hlabels hafter
  containsNode := h.containsNode_iff hlabels
  fresh := by
    rw [List.forall_mem_map]
    exact (h.nodup_stores hlabels).1
  sourced := by
    rw [List.forall_mem_map]
    intro output houtput
    obtain ⟨node, hnode, -⟩ :=
      (DFGVerifier.verified_of_verify hsource).liveOut _ (h.mem_liveOuts houtput)
    rw [PlacedOutput.delivered, DFG.containsNode, hnode, Option.isSome_some]
  store := by
    rw [List.forall_mem_map]
    intro output houtput
    refine ⟨_, h.findNode_store hlabels houtput, fun inputs' values iteration ↦ ?_⟩
    have haddress := h.operandValue_address hlabels hsource houtput inputs' values iteration
    have hdata := h.operandValue_data hlabels hsource houtput inputs' values iteration
    have hoperands : bound.dfg.dfg.operands inputs' values
        (outputStore target output.binding.abiStoreNode output.liveOut.type) iteration
        = [output.binding.scratchpadAddress, values (output.liveOut.source, iteration)] := by
      rw [← haddress, ← hdata]
      rfl
    rw [hoperands]
    rfl
  requires_store := by
    rw [List.forall_mem_map]
    exact fun output houtput ↦ h.requires_store_iff hlabels hsource houtput
  distinct := by
    have haddresses : (placed.map fun item ↦ item.binding.scratchpadAddress).Nodup := by
      rw [h.addresses]
      exact List.nodup_range'
    rw [List.pairwise_map]
    exact (List.pairwise_map.mp (h.nodup_stores hlabels).2).and (List.pairwise_map.mp haddresses)

end BoundGraph

end KernelABIBinder

end PredicatedMesh
