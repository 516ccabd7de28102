import PredicatedMesh.ABI.Binder
import PredicatedMesh.IR.Built

/-!
# The graph of a bound kernel

A successful binding goes through every loop of `bindGraph`, and each loop appends an entry for each
element of a list. `exists_boundGraph` puts the loops together: the bound graph consists of the
entries of the original one, its edges and bindings with constants for the external values, those
constants, and five entries for each live-out.
-/

namespace PredicatedMesh

open Scan

namespace KernelABIBinder

/-! ## Specialized values -/

/-- What a value has become. -/
def specializedSource (specialized : List (ℕ × ℕ)) : ExternalOperandBinding → ExternalOperandBinding
  | .externalValueRef value =>
    (SortedMap.lookup Prod.fst value specialized).elim (.externalValueRef value) fun entry ↦
      .constantRef entry.2
  | .constantRef value => .constantRef value

/-- An external value has a constant. -/
def HasConstant (specialized : List (ℕ × ℕ)) : ExternalOperandBinding → Prop
  | .externalValueRef value => ∃ entry, SortedMap.lookup Prod.fst value specialized = some entry
  | .constantRef _ => True

def specializedItem (specialized : List (ℕ × ℕ)) (item : RecurrenceBoundaryValue) :
    RecurrenceBoundaryValue :=
  { item with value := specializedSource specialized item.value }

def specializedBoundary (specialized : List (ℕ × ℕ)) (boundary : RecurrenceBoundary) :
    RecurrenceBoundary :=
  ⟨boundary.values.map (specializedItem specialized)⟩

def specializedInfo (specialized : List (ℕ × ℕ)) : EdgeInfo → EdgeInfo
  | .data operand boundary => .data operand (boundary.map (specializedBoundary specialized))
  | .predicate operand boundary =>
    .predicate operand (boundary.map (specializedBoundary specialized))
  | .memory dependence => .memory dependence

def specializedEdge (specialized : List (ℕ × ℕ)) (edge : Edge) : Edge :=
  { edge with info := specializedInfo specialized edge.info }

def specializedBinding (specialized : List (ℕ × ℕ)) (binding : OperandBinding) : OperandBinding :=
  { binding with source := specializedSource specialized binding.source }

section Rewriting

variable {specialized : List (ℕ × ℕ)}

theorem specializeValue_ok {value result : ExternalOperandBinding}
    (h : specializeValue specialized value = .ok result) :
    result = specializedSource specialized value ∧ HasConstant specialized value := by
  unfold specializeValue at h
  split at h
  · split at h
    · cases h
    · rename_i entry hentry
      obtain rfl := Except.ok.inj h
      exact ⟨by rw [specializedSource, hentry, Option.elim_some], entry, hentry⟩
  · obtain rfl := Except.ok.inj h
    exact ⟨rfl, trivial⟩

theorem rewriteItem_ok {item result : RecurrenceBoundaryValue}
    (h : rewriteItem specialized item = .ok result) :
    result = specializedItem specialized item ∧ HasConstant specialized item.value := by
  obtain ⟨value, hvalue, h⟩ := bind_eq_ok.mp h
  obtain rfl := Except.ok.inj h
  obtain ⟨rfl, hconstant⟩ := specializeValue_ok hvalue
  exact ⟨rfl, hconstant⟩

/-- The external values of a boundary have constants. -/
def BoundaryHasConstants (specialized : List (ℕ × ℕ)) (boundary : Option RecurrenceBoundary) :
    Prop :=
  ∀ listed, boundary = some listed → ∀ item ∈ listed.values, HasConstant specialized item.value

theorem rewriteBoundary_ok {boundary result : Option RecurrenceBoundary}
    (h : rewriteBoundary specialized boundary = .ok result) :
    result = boundary.map (specializedBoundary specialized) ∧
      BoundaryHasConstants specialized boundary := by
  unfold rewriteBoundary at h
  split at h
  · obtain rfl := Except.ok.inj h
    exact ⟨rfl, fun _ hnone ↦ absurd hnone (by simp)⟩
  · rename_i listed
    obtain ⟨values, hvalues, h⟩ := bind_eq_ok.mp h
    obtain rfl := Except.ok.inj h
    have heq : listed.values.map (specializedItem specialized) = values.map id :=
      map_eq_of_forall₂ (f := specializedItem specialized) (g := id)
        (fun _ _ hitem ↦ (rewriteItem_ok hitem).1.symm) (mapM_eq_ok.mp hvalues)
    have hboundary : some (RecurrenceBoundary.mk values)
        = (some listed).map (specializedBoundary specialized) := by
      rw [Option.map_some, specializedBoundary, heq, List.map_id]
    refine ⟨hboundary, fun other hother item hitem ↦ ?_⟩
    obtain rfl := Option.some.inj hother
    obtain ⟨_, -, hresult⟩ := exists_result_of_mem hvalues hitem
    exact (rewriteItem_ok hresult).2

theorem rewriteEdge_ok {edge result : Edge} (h : rewriteEdge specialized edge = .ok result) :
    result = specializedEdge specialized edge ∧
      BoundaryHasConstants specialized edge.info.boundary := by
  unfold rewriteEdge at h
  unfold specializedEdge
  split at h
  · rename_i operand boundary hinfo
    obtain ⟨rewritten, hrewritten, h⟩ := bind_eq_ok.mp h
    obtain rfl := Except.ok.inj h
    obtain ⟨rfl, hconstants⟩ := rewriteBoundary_ok hrewritten
    rw [hinfo]
    exact ⟨rfl, hconstants⟩
  · rename_i operand boundary hinfo
    obtain ⟨rewritten, hrewritten, h⟩ := bind_eq_ok.mp h
    obtain rfl := Except.ok.inj h
    obtain ⟨rfl, hconstants⟩ := rewriteBoundary_ok hrewritten
    rw [hinfo]
    exact ⟨rfl, hconstants⟩
  · rename_i dependence hinfo
    obtain rfl := Except.ok.inj h
    rw [hinfo]
    refine ⟨by rw [specializedInfo, ← hinfo], fun _ hnone ↦ ?_⟩
    exact absurd hnone (by simp [EdgeInfo.boundary])

end Rewriting

/-! ## What the loops append -/

/-- The bits of the input with an id. -/
def inputBits (invocation : KernelInvocation) (id : ℕ) : ℕ :=
  (invocation.scalarInputs.find? fun input ↦ input.id == id).elim 0 KernelScalarInputValue.bits

/-- The output of a live-out, with the ids of its two edges. -/
structure PlacedOutput where
  liveOut : LiveOut
  binding : KernelOutputBinding
  dataEdge : ℕ
  memoryEdge : ℕ

namespace PlacedOutput

def addressConstant (placed : PlacedOutput) : ConstantValue :=
  ⟨placed.binding.addressConstant, .integer 32, placed.binding.scratchpadAddress⟩

def store (target : TargetModel) (placed : PlacedOutput) : Node × Option SourceInfo :=
  (outputStore target placed.binding.abiStoreNode placed.liveOut.type,
    some ⟨"abi.liveout." ++ toString placed.liveOut.id⟩)

def addressBinding (placed : PlacedOutput) : OperandBinding :=
  ⟨placed.binding.abiStoreNode, 0, .constantRef placed.binding.addressConstant⟩

def edges (placed : PlacedOutput) : List Edge :=
  [⟨placed.dataEdge, placed.liveOut.source, placed.binding.abiStoreNode, 0, .data 1 none⟩,
    ⟨placed.memoryEdge, placed.binding.abiStoreNode, placed.binding.abiStoreNode, 1, .memory .waw⟩]

def entries (target : TargetModel) (placed : PlacedOutput) : List DFGEntry :=
  [.constant placed.addressConstant, .node (placed.store target).1 (placed.store target).2,
    .binding placed.addressBinding] ++ placed.edges.map .edge

end PlacedOutput

def copiedEntries (source : SourcedDFG) : List DFGEntry :=
  source.dfg.externalValues.map .external ++ source.dfg.constants.map .constant
    ++ source.entries.map (fun entry ↦ .node entry.1 entry.2) ++ source.dfg.liveOuts.map .liveOut

def boundEntries (source : SourcedDFG) (target : TargetModel) (specialized : List (ℕ × ℕ))
    (added : List ConstantValue) (placed : List PlacedOutput) : List DFGEntry :=
  copiedEntries source ++ added.map .constant
    ++ source.dfg.edges.map (fun edge ↦ .edge (specializedEdge specialized edge))
    ++ source.dfg.externalBindings.map
      (fun binding ↦ .binding (specializedBinding specialized binding))
    ++ placed.flatMap (PlacedOutput.entries target)

section Loops

variable {source : SourcedDFG} {target : TargetModel} {invocation : KernelInvocation}
  {builder later : DFGBuilder} {entries : List DFGEntry} {specialized : List (ℕ × ℕ)}

theorem copyValues_ok (h : copyValues source = .ok builder) :
    builder.graph.Assembled (copiedEntries source) := by
  obtain ⟨withExternals, hexternals, h⟩ := bind_eq_ok.mp h
  obtain ⟨withConstants, hconstants, h⟩ := bind_eq_ok.mp h
  obtain ⟨withNodes, hnodes, hliveOuts⟩ := bind_eq_ok.mp h
  have hempty : (DFGBuilder.create source.dfg.name).graph.Assembled [] :=
    SourcedDFG.assembled_empty _
  have h₁ := DFGBuilder.assembled_of_foldlM DFGEntry.external
    (fun first a second hok ↦ DFGBuilder.importExternal_iff.mp ⟨second, hok, rfl⟩) hempty hexternals
  have h₂ := DFGBuilder.assembled_of_foldlM DFGEntry.constant
    (fun first a second hok ↦ DFGBuilder.importConstant_iff.mp ⟨second, hok, rfl⟩) h₁ hconstants
  have h₃ := DFGBuilder.assembled_of_foldlM
    (fun entry : Node × Option SourceInfo ↦ DFGEntry.node entry.1 entry.2)
    (fun first a second hok ↦ DFGBuilder.importNode_iff.mp ⟨second, hok, rfl⟩) h₂ hnodes
  exact DFGBuilder.assembled_of_foldlM DFGEntry.liveOut
    (fun first a second hok ↦ DFGBuilder.importLiveOut_iff.mp ⟨second, hok, rfl⟩) h₃ hliveOuts

/-- The constants of the inputs have the bits of the invocation. -/
def HoldsInputs (invocation : KernelInvocation) (specialized : List (ℕ × ℕ))
    (added : List ConstantValue) : Prop :=
  ∀ entry ∈ specialized, ∃ constant ∈ added, constant.id = entry.2 ∧
    constant.bits = inputBits invocation entry.1

theorem specializeInputs_ok {constantStart : ℕ} {inputs : List KernelInputDesc}
    {added : List ConstantValue} {state state' : DFGBuilder × List (ℕ × ℕ)}
    (hstate : state.1.graph.Assembled (entries ++ added.map .constant))
    (hinputs : HoldsInputs invocation state.2 added)
    (h : inputs.foldlM (specializeInput invocation constantStart) state = .ok state') :
    ∃ added, state'.1.graph.Assembled (entries ++ added.map .constant) ∧
      HoldsInputs invocation state'.2 added := by
  induction inputs generalizing state added with
  | nil =>
    obtain rfl := Except.ok.inj h
    exact ⟨added, hstate, hinputs⟩
  | cons desc inputs ih =>
    obtain ⟨next, hnext, hrest⟩ := foldlM_cons_eq_ok.mp h
    unfold specializeInput at hnext
    split at hnext
    · cases hnext
    · rename_i input hinput
      obtain ⟨builder, hbuilder, hnext⟩ := bind_eq_ok.mp hnext
      obtain rfl := Except.ok.inj hnext
      have happends := DFGBuilder.importConstant_iff.mp ⟨builder, hbuilder, rfl⟩
      have hadded : builder.graph.Assembled (entries ++ (added ++
          [ConstantValue.mk ((constantStart + state.2.length) % 2 ^ 32) desc.type
            input.bits]).map .constant) := by
        rw [List.map_append, ← List.append_assoc]
        exact hstate.append happends
      refine ih hadded (fun entry hentry ↦ ?_) hrest
      rcases SortedMap.mem_of_mem_emplace hentry with rfl | hentry
      · refine ⟨_, List.mem_append_right _ (List.mem_singleton_self _), rfl, ?_⟩
        rw [inputBits, hinput, Option.elim_some]
      · obtain ⟨constant, hconstant, hheld⟩ := hinputs entry hentry
        exact ⟨constant, List.mem_append_left _ hconstant, hheld⟩

theorem importEdges_ok {edges : List Edge} (hbuilder : builder.graph.Assembled entries)
    (h : edges.foldlM (importEdge specialized) builder = .ok later) :
    later.graph.Assembled
        (entries ++ edges.map fun edge ↦ .edge (specializedEdge specialized edge)) ∧
      ∀ edge ∈ edges, BoundaryHasConstants specialized edge.info.boundary := by
  have hstep : ∀ first edge second, importEdge specialized first edge = .ok second →
      first.graph.Appends (.edge (specializedEdge specialized edge)) second.graph ∧
        BoundaryHasConstants specialized edge.info.boundary := by
    intro first edge second hok
    obtain ⟨copy, hcopy, hok⟩ := bind_eq_ok.mp hok
    obtain ⟨rfl, hconstants⟩ := rewriteEdge_ok hcopy
    exact ⟨DFGBuilder.importEdge_iff.mp ⟨second, hok, rfl⟩, hconstants⟩
  refine ⟨DFGBuilder.assembled_of_foldlM _ (fun first edge second hok ↦
    (hstep first edge second hok).1) hbuilder h, ?_⟩
  clear hbuilder
  induction edges generalizing builder with
  | nil => exact List.forall_mem_nil _
  | cons edge edges ih =>
    obtain ⟨next, hnext, hrest⟩ := foldlM_cons_eq_ok.mp h
    exact List.forall_mem_cons.mpr ⟨(hstep builder edge next hnext).2, ih hrest⟩

theorem bindOperand_ok {binding : OperandBinding}
    (h : bindOperand specialized builder binding = .ok later) :
    builder.graph.Appends (.binding (specializedBinding specialized binding)) later.graph ∧
      HasConstant specialized binding.source := by
  unfold bindOperand at h
  unfold specializedBinding
  split at h
  · rename_i value hvalue
    split at h
    · cases h
    · rename_i entry hentry
      rw [hvalue, specializedSource, hentry, Option.elim_some]
      exact ⟨DFGBuilder.appends_of_bindConstant h, entry, hentry⟩
  · rename_i value hvalue
    rw [hvalue]
    exact ⟨DFGBuilder.appends_of_bindConstant h, trivial⟩

theorem bindOperands_ok {bindings : List OperandBinding}
    (hbuilder : builder.graph.Assembled entries)
    (h : bindings.foldlM (bindOperand specialized) builder = .ok later) :
    later.graph.Assembled
        (entries ++ bindings.map fun binding ↦ .binding (specializedBinding specialized binding)) ∧
      ∀ binding ∈ bindings, HasConstant specialized binding.source := by
  refine ⟨DFGBuilder.assembled_of_foldlM _ (fun first binding second hok ↦
    (bindOperand_ok hok).1) hbuilder h, ?_⟩
  clear hbuilder
  induction bindings generalizing builder with
  | nil => exact List.forall_mem_nil _
  | cons binding bindings ih =>
    obtain ⟨next, hnext, hrest⟩ := foldlM_cons_eq_ok.mp h
    exact List.forall_mem_cons.mpr ⟨(bindOperand_ok hnext).2, ih hrest⟩

theorem attempt_eq_ok {α : Type} {result : Except String α} {a : α} :
    attempt result = .ok a ↔ result = .ok a := by
  cases result <;> simp [attempt, Except.mapError]

theorem addOutput_ok {outputBase : ℕ} {state state' : OutputState} {output : LiveOut}
    (hstate : state.builder.graph.Assembled entries)
    (h : addOutput target outputBase state output = .ok state') :
    ∃ placed : PlacedOutput, placed.liveOut = output ∧
      placed.binding.output = output.id ∧
      placed.binding.scratchpadAddress = outputBase + state.outputs.length ∧
      state'.outputs = state.outputs ++ [placed.binding] ∧
      state'.builder.graph.Assembled (entries ++ placed.entries target) := by
  unfold addOutput at h
  split at h
  · cases h
  · have h := attempt_eq_ok.mp h
    obtain ⟨withConstant, hconstant, h⟩ := bind_eq_ok.mp h
    obtain ⟨withNode, hnode, h⟩ := bind_eq_ok.mp h
    obtain ⟨withBinding, hbinding, h⟩ := bind_eq_ok.mp h
    obtain ⟨withData, hdata, h⟩ := bind_eq_ok.mp h
    obtain ⟨withMemory, hmemory, h⟩ := bind_eq_ok.mp h
    obtain rfl := Except.ok.inj h
    refine ⟨⟨output, ⟨output.id, outputBase + state.outputs.length, state.nextNode,
      state.nextConstant⟩, withBinding.nextEdgeId, withData.nextEdgeId⟩, rfl, rfl, rfl, rfl, ?_⟩
    have hoperand := ((hstate.append (DFGBuilder.importConstant_iff.mp ⟨_, hconstant, rfl⟩)).append
      (DFGBuilder.importNode_iff.mp ⟨_, hnode, rfl⟩)).append
        (DFGBuilder.appends_of_bindConstant hbinding)
    have hentries := (hoperand.append (DFGBuilder.appends_of_addDataEdge hdata)).append
      (DFGBuilder.appends_of_addMemoryEdge hmemory)
    simpa [PlacedOutput.entries, PlacedOutput.addressConstant, PlacedOutput.store,
      PlacedOutput.addressBinding, PlacedOutput.edges] using hentries

/-- The addresses follow each other. -/
theorem addOutputs_ok {outputBase : ℕ} {outputs : List LiveOut} {state state' : OutputState}
    (hstate : state.builder.graph.Assembled entries)
    (h : outputs.foldlM (addOutput target outputBase) state = .ok state') :
    ∃ placed : List PlacedOutput, placed.map PlacedOutput.liveOut = outputs ∧
      placed.map (fun item ↦ item.binding.scratchpadAddress)
        = List.range' (outputBase + state.outputs.length) outputs.length ∧
      state'.outputs = state.outputs ++ placed.map PlacedOutput.binding ∧
      state'.builder.graph.Assembled (entries ++ placed.flatMap (PlacedOutput.entries target)) := by
  induction outputs generalizing state entries with
  | nil =>
    obtain rfl := Except.ok.inj h
    exact ⟨[], rfl, rfl, (List.append_nil _).symm, by simpa using hstate⟩
  | cons output outputs ih =>
    obtain ⟨next, hnext, hrest⟩ := foldlM_cons_eq_ok.mp h
    obtain ⟨first, hliveOut, -, haddress, houtputs, hfirst⟩ := addOutput_ok hstate hnext
    obtain ⟨placed, hliveOuts, haddresses, houtputs', hlater⟩ := ih hfirst hrest
    refine ⟨first :: placed, ?_, ?_, ?_, ?_⟩
    · rw [List.map_cons, hliveOut, hliveOuts]
    · rw [List.map_cons, haddress, haddresses, houtputs, List.length_append, List.length_singleton,
        List.length_cons, List.range'_succ, Nat.add_assoc]
    · rw [houtputs', houtputs, List.append_assoc, List.map_cons, List.singleton_append]
    · rwa [List.flatMap_cons, ← List.append_assoc]

end Loops

/-! ## The bound graph -/

/-- What a binding has made of a graph. -/
structure BoundGraph (source : SourcedDFG) (target : TargetModel) (invocation : KernelInvocation)
    (bound : ABIBoundKernel) (specialized : List (ℕ × ℕ)) (added : List ConstantValue)
    (placed : List PlacedOutput) : Prop where
  assembled : bound.dfg.Assembled (boundEntries source target specialized added placed)
  inputs : HoldsInputs invocation specialized added
  boundaries : ∀ edge ∈ source.dfg.edges, BoundaryHasConstants specialized edge.info.boundary
  bindings : ∀ binding ∈ source.dfg.externalBindings, HasConstant specialized binding.source
  liveOuts : placed.map PlacedOutput.liveOut
    = source.dfg.liveOuts.insertionSort fun lhs rhs ↦ lhs.id ≤ rhs.id
  addresses : placed.map (fun item ↦ item.binding.scratchpadAddress)
    = List.range' bound.layout.outputRegionBase source.dfg.liveOuts.length
  outputs : bound.layout.outputs = placed.map PlacedOutput.binding
  base_eq : bound.layout.outputRegionBase = target.memory.depth - source.dfg.liveOuts.length

theorem exists_boundGraph {source : SourcedDFG} {target : TargetModel}
    {invocation : KernelInvocation} {signature : KernelSignature} {bound : ABIBoundKernel}
    (h : bindGraph source target invocation signature = .ok bound) :
    ∃ specialized added placed,
      BoundGraph source target invocation bound specialized added placed := by
  obtain ⟨copied, hcopied, h⟩ := bind_eq_ok.mp h
  obtain ⟨constantStart, -, h⟩ := bind_eq_ok.mp h
  obtain ⟨⟨withConstants, specialized⟩, hspecialized, h⟩ := bind_eq_ok.mp h
  obtain ⟨withEdges, hedges, h⟩ := bind_eq_ok.mp h
  obtain ⟨withBindings, hbindings, h⟩ := bind_eq_ok.mp h
  obtain ⟨nextNode, -, h⟩ := bind_eq_ok.mp h
  obtain ⟨state, houtputs, h⟩ := bind_eq_ok.mp h
  obtain rfl := Except.ok.inj h
  have hcopy := copyValues_ok (attempt_eq_ok.mp hcopied)
  have hstart : (copied, ([] : List (ℕ × ℕ))).1.graph.Assembled
      (copiedEntries source ++ ([] : List ConstantValue).map .constant) := by
    rwa [List.map_nil, List.append_nil]
  obtain ⟨added, hconstants, hinputs⟩ := specializeInputs_ok hstart
    (fun entry hentry ↦ absurd hentry List.not_mem_nil) (attempt_eq_ok.mp hspecialized)
  obtain ⟨hwithEdges, hboundaries⟩ := importEdges_ok hconstants (attempt_eq_ok.mp hedges)
  obtain ⟨hwithBindings, hsources⟩ := bindOperands_ok hwithEdges (attempt_eq_ok.mp hbindings)
  obtain ⟨placed, hliveOuts, haddresses, hplaced, hstate⟩ := addOutputs_ok hwithBindings houtputs
  refine ⟨specialized, added, placed, ?_⟩
  exact {
    assembled := hstate
    inputs := hinputs
    boundaries := hboundaries
    bindings := hsources
    liveOuts := hliveOuts
    addresses := by rw [haddresses, List.length_insertionSort]; rfl
    outputs := hplaced
    base_eq := rfl }

namespace BoundGraph

variable {source : SourcedDFG} {target : TargetModel} {invocation : KernelInvocation}
  {bound : ABIBoundKernel} {specialized : List (ℕ × ℕ)} {added : List ConstantValue}
  {placed : List PlacedOutput}

theorem entries_eq (h : BoundGraph source target invocation bound specialized added placed) :
    bound.dfg.entries = source.entries ++ placed.map (PlacedOutput.store target) := by
  rw [h.assembled.nodes_eq]
  simp only [boundEntries, copiedEntries, List.filterMap_append, List.filterMap_map,
    List.filterMap_flatMap, Function.comp_def, DFGEntry.node?, List.filterMap_none,
    List.filterMap_eq_map', List.map_id', List.nil_append, List.append_nil]
  rw [List.map_eq_flatMap (l := placed)]
  rfl

theorem constants_eq (h : BoundGraph source target invocation bound specialized added placed) :
    bound.dfg.dfg.constants
      = source.dfg.constants ++ added ++ placed.map PlacedOutput.addressConstant := by
  rw [h.assembled.constants_eq]
  simp only [boundEntries, copiedEntries, List.filterMap_append, List.filterMap_map,
    List.filterMap_flatMap, Function.comp_def, DFGEntry.constant?, List.filterMap_none,
    List.filterMap_some, List.nil_append, List.append_nil]
  rw [List.map_eq_flatMap (l := placed)]
  rfl

theorem edges_eq (h : BoundGraph source target invocation bound specialized added placed) :
    bound.dfg.dfg.edges = source.dfg.edges.map (specializedEdge specialized)
      ++ placed.flatMap PlacedOutput.edges := by
  rw [h.assembled.edges_eq]
  simp only [boundEntries, copiedEntries, List.filterMap_append, List.filterMap_map,
    List.filterMap_flatMap, Function.comp_def, DFGEntry.edge?, List.filterMap_none,
    List.filterMap_eq_map', List.nil_append, List.append_nil]
  rfl

theorem bindings_perm (h : BoundGraph source target invocation bound specialized added placed) :
    bound.dfg.dfg.externalBindings.Perm
      (source.dfg.externalBindings.map (specializedBinding specialized)
        ++ placed.map PlacedOutput.addressBinding) := by
  refine h.assembled.bindings_perm.trans (.of_eq ?_)
  simp only [boundEntries, copiedEntries, List.filterMap_append, List.filterMap_map,
    List.filterMap_flatMap, Function.comp_def, DFGEntry.binding?, List.filterMap_none,
    List.filterMap_eq_map', List.nil_append, List.append_nil]
  rw [List.map_eq_flatMap (l := placed)]
  rfl

end BoundGraph

end KernelABIBinder

end PredicatedMesh
