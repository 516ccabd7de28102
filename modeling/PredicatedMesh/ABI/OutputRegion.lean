import PredicatedMesh.ABI.Preservation
import PredicatedMesh.Target.Shipped

/-!
# The output region

A load or a store of the original graph whose address is a constant keeps out of the output region,
because the binder looks the constant up in the bound graph, where the external values have become
constants too. With the addresses that are computed kept below the region, the original graph never
touches a word of an output (`Bound.avoids`), and a run of the bound graph leaves every live-out of
the last iteration in its word (`bind_preserves`).
-/

namespace PredicatedMesh

open Scan

namespace KernelABIBinder

/-! ## A successful binding -/

/-- Everything a successful binding has checked. -/
structure Bound (source : SourcedDFG) (target : TargetModel) (invocation : KernelInvocation)
    (bound : ABIBoundKernel) : Prop where
  valid : DFGVerifier.verify source.dfg = []
  graph : ∃ specialized added placed,
    BoundGraph source target invocation bound specialized added placed
  capacity : source.dfg.liveOuts.length ≤ target.memory.depth
  reserved : ∀ entry ∈ bound.dfg.entries, checkReservedMemoryAddress bound.dfg.dfg
    bound.layout.outputRegionBase target.memory.depth entry = .ok ()
  stores : KernelABIVerifier.verifyStores bound = []

theorem capacity_of_checkInvocation {source : SourcedDFG} {target : TargetModel}
    {invocation : KernelInvocation} {signature : KernelSignature}
    (h : checkInvocation source target invocation signature = .ok ()) :
    source.dfg.liveOuts.length ≤ target.memory.depth := by
  unfold checkInvocation at h
  split at h
  · split at h
    · cases h
    · split at h
      · cases h
      · rename_i hcapacity
        exact not_lt.mp hcapacity
  · cases h

theorem stores_of_verify {source : SourcedDFG} {target : TargetModel}
    {invocation : KernelInvocation} {bound : ABIBoundKernel}
    (h : KernelABIVerifier.verify source target invocation bound = .ok []) :
    KernelABIVerifier.verifyStores bound = [] := by
  unfold KernelABIVerifier.verify at h
  obtain ⟨edges, -, h⟩ := bind_eq_ok.mp h
  obtain ⟨liveOuts, -, h⟩ := bind_eq_ok.mp h
  obtain ⟨accesses, -, h⟩ := bind_eq_ok.mp h
  have hreport := Except.ok.inj h
  simp only [List.append_eq_nil_iff] at hreport
  exact hreport.1.1.1.2

theorem bound_of_bind {source : SourcedDFG} {target : TargetModel} {invocation : KernelInvocation}
    {kernelName : String} {bound : ABIBoundKernel}
    (h : bind source target invocation kernelName = .ok bound) :
    Bound source target invocation bound := by
  unfold bind at h
  by_cases hvalid : DFGVerifier.verify source.dfg = []
  · rw [if_neg (not_not.mpr hvalid)] at h
    obtain ⟨⟨⟩, hchecked, h⟩ := bind_eq_ok.mp h
    obtain ⟨bound', hbound, h⟩ := bind_eq_ok.mp h
    obtain ⟨⟨⟩, hreserved, h⟩ := bind_eq_ok.mp h
    obtain ⟨report, hreport, h⟩ := bind_eq_ok.mp h
    by_cases hclean : report = []
    · rw [if_neg (not_not.mpr hclean)] at h
      obtain rfl := Except.ok.inj h
      rw [hclean] at hreport
      exact {
        valid := hvalid
        graph := exists_boundGraph hbound
        capacity := capacity_of_checkInvocation hchecked
        reserved := exists_ok_of_forM hreserved
        stores := stores_of_verify (attempt_eq_ok.mp hreport) }
    · rw [if_pos hclean] at h
      cases h
  · rw [if_pos hvalid] at h
    cases h

/-! ## Constant addresses -/

theorem constantAddress_eq_some {dfg : DFG} {node value : ℕ} {binding : OperandBinding}
    (h : dfg.operandBinding node 0 = some binding) (hsource : binding.source = .constantRef value) :
    dfg.constantAddress node = some value := by
  obtain ⟨node', operand, source⟩ := binding
  rw [DFG.operandBinding] at h
  rw [DFG.constantAddress, h]
  simp only at hsource
  rw [hsource]

theorem exists_entry {graph : SourcedDFG} (hlabels : graph.sources.length = graph.dfg.nodes.length)
    {node : Node} (hnode : node ∈ graph.dfg.nodes) : ∃ label, (node, label) ∈ graph.entries := by
  rw [← List.map_fst_zip hlabels.ge] at hnode
  obtain ⟨⟨_, label⟩, hentry, rfl⟩ := List.mem_map.mp hnode
  exact ⟨label, hentry⟩

theorem not_reserved_of_check {dfg : DFG} {outputBase scratchpadDepth : ℕ}
    {entry : Node × Option SourceInfo} {value : ℕ} {constant : ConstantValue}
    (h : checkReservedMemoryAddress dfg outputBase scratchpadDepth entry = .ok ())
    (haccess : isUserAccess entry = true) (haddress : dfg.constantAddress entry.1.id = some value)
    (hconstant : dfg.findConstant value = some constant) :
    ¬ (outputBase ≤ constant.bits ∧ constant.bits < scratchpadDepth) := by
  intro hregion
  rw [checkReservedMemoryAddress, if_neg (by simp [haccess]), haddress] at h
  simp only [DFG.constant, hconstant] at h
  obtain ⟨found, hfound, h⟩ := bind_eq_ok.mp h
  obtain rfl := Except.ok.inj hfound
  rw [if_pos hregion] at h
  cases h

/-- Where another operation computes the address of this load or store, it lies below the limit. -/
def ComputedAddressBelow (limit : ℕ) (dfg : DFG) (inputs : ℕ → ℕ) (values : ℕ × ℕ → ℕ)
    (operation : ℕ × ℕ) : Prop :=
  ∀ node ∈ dfg.findNode operation.1, node.opcode = .load ∨ node.opcode = .store →
    (dfg.operandEdge node.id 0).isSome = true →
      dfg.operandValue inputs values node.id operation.2 0 < limit

instance {limit : ℕ} {dfg : DFG} {inputs : ℕ → ℕ} {values : ℕ × ℕ → ℕ} {operation : ℕ × ℕ} :
    Decidable (ComputedAddressBelow limit dfg inputs values operation) :=
  inferInstanceAs (Decidable (∀ node ∈ dfg.findNode operation.1, _))

/-- The addresses that this run of a graph computes lie below the limit. -/
def ComputedAddressesBelow (limit : ℕ) (dfg : DFG) (compute : Node → List ℕ → ℕ)
    (inputs memory : ℕ → ℕ) (order : List (ℕ × ℕ)) : Prop :=
  ∀ before operation after, order = before ++ operation :: after →
    ComputedAddressBelow limit dfg inputs (dfg.run compute inputs memory before).values operation

instance {limit : ℕ} {dfg : DFG} {compute : Node → List ℕ → ℕ} {inputs memory : ℕ → ℕ}
    {order : List (ℕ × ℕ)} :
    Decidable (ComputedAddressesBelow limit dfg compute inputs memory order) :=
  decidable_of_iff' _ (forall_split_iff (p := fun before ↦
    ComputedAddressBelow limit dfg inputs (dfg.run compute inputs memory before).values))

namespace Bound

variable {source : SourcedDFG} {target : TargetModel} {invocation : KernelInvocation}
  {bound : ABIBoundKernel} {specialized : List (ℕ × ℕ)} {added : List ConstantValue}
  {placed : List PlacedOutput}

/-- The nodes of the original graph are not labelled as output stores. -/
theorem isABIOutputStore_eq_false (h : Bound source target invocation bound)
    (hgraph : BoundGraph source target invocation bound specialized added placed)
    (hlabels : source.sources.length = source.dfg.nodes.length)
    {entry : Node × Option SourceInfo} (hentry : entry ∈ source.entries) :
    isABIOutputStore entry.2 = false := by
  have hmem : entry ∈ bound.dfg.entries := by
    rw [hgraph.entries_eq]
    exact List.mem_append_left _ hentry
  have hstores := h.stores
  simp only [KernelABIVerifier.verifyStores, List.append_eq_nil_iff, List.flatMap_eq_nil_iff,
    require_eq_nil_iff] at hstores
  rw [← Bool.not_eq_true]
  intro hlabel
  have hstore := hstores.2.1 entry (List.mem_filter.mpr ⟨hmem, hlabel⟩)
  rw [List.contains_iff_mem, KernelABIVerifier.storeNodes, hgraph.outputs, List.map_map] at hstore
  obtain ⟨output, houtput, hid⟩ := List.mem_map.mp hstore
  have hfresh := (hgraph.nodup_stores hlabels).1 output houtput
  rw [← Bool.not_eq_true, DFG.containsNode_iff] at hfresh
  exact hfresh ⟨entry.1, (List.of_mem_zip hentry).1, hid.symm⟩

/-- **A constant address lies outside the output region.** -/
theorem not_reserved (h : Bound source target invocation bound)
    (hgraph : BoundGraph source target invocation bound specialized added placed)
    (hlabels : source.sources.length = source.dfg.nodes.length) {node : Node}
    (hnode : node ∈ source.dfg.nodes) (hopcode : node.opcode = .load ∨ node.opcode = .store)
    (hedge : source.dfg.operandEdge node.id 0 = none) (values : ℕ × ℕ → ℕ) (iteration : ℕ) :
    ¬ (bound.layout.outputRegionBase
        ≤ source.dfg.operandValue (inputBits invocation) values node.id iteration 0 ∧
      source.dfg.operandValue (inputBits invocation) values node.id iteration 0
        < target.memory.depth) := by
  obtain ⟨hoperand, hinfo⟩ := DFGVerifier.access_of_verify h.valid hnode hopcode
  have hcontains : source.dfg.containsNode node.id = true :=
    DFG.containsNode_iff.mpr ⟨node, hnode, rfl⟩
  have hverified := DFGVerifier.verified_of_verify h.valid
  obtain ⟨binding, hmem, hkey⟩ := DFGVerifier.exists_binding hverified hnode hoperand
    fun edge hmem hdst hfeeds ↦ List.find?_eq_none.mp hedge edge hmem (by simp [hdst, hfeeds])
  obtain ⟨-, type, -, -, htype⟩ := hverified.binding binding hmem
  -- in the bound graph the address is a constant in any case
  have hbinding : bound.dfg.dfg.operandBinding node.id 0
      = some (specializedBinding specialized binding) :=
    hgraph.operandBinding_eq_some_iff.mpr ⟨.inl (List.mem_map_of_mem hmem), hkey⟩
  obtain ⟨constant, hspecialized, hconstant, -⟩ :=
    hgraph.exists_constant ⟨type, htype⟩ (hgraph.bindings binding hmem)
  have hvalue : source.dfg.operandValue (inputBits invocation) values node.id iteration 0
      = constant.bits := by
    rw [← hgraph.operandValue_eq hlabels h.valid hcontains (fun _ ↦ 0), DFG.operandValue,
      hgraph.operandEdge_eq hlabels hcontains, hedge, hbinding]
    simp only [Option.map_none, Option.elim_some, specializedBinding]
    rw [hspecialized, DFG.outsideValue_constantRef hconstant]
  have haddress : bound.dfg.dfg.constantAddress node.id = some constant.id :=
    constantAddress_eq_some hbinding hspecialized
  obtain ⟨label, hentry⟩ := exists_entry hlabels hnode
  have haccess : isUserAccess (node, label) = true := by
    have hlabel := h.isABIOutputStore_eq_false hgraph hlabels hentry
    rcases hopcode with hopcode | hopcode <;> simp [isUserAccess, hopcode, hinfo, hlabel]
  have hbound : (node, label) ∈ bound.dfg.entries := by
    rw [hgraph.entries_eq]
    exact List.mem_append_left _ hentry
  rw [hvalue]
  exact not_reserved_of_check (h.reserved _ hbound) haccess haddress hconstant

/-! ## The words of the outputs -/

theorem region_of_mem (h : Bound source target invocation bound)
    (hgraph : BoundGraph source target invocation bound specialized added placed)
    {output : PlacedOutput} (houtput : output ∈ placed) :
    bound.layout.outputRegionBase ≤ output.binding.scratchpadAddress ∧
      output.binding.scratchpadAddress < target.memory.depth := by
  have hmem := List.mem_map_of_mem (f := fun item : PlacedOutput ↦ item.binding.scratchpadAddress)
    houtput
  rw [hgraph.addresses, List.mem_range'_1] at hmem
  have hbase := hgraph.base_eq
  have hcapacity := h.capacity
  omega

/-- The original graph keeps out of the words of the outputs. -/
theorem avoids (h : Bound source target invocation bound)
    (hgraph : BoundGraph source target invocation bound specialized added placed)
    (hlabels : source.sources.length = source.dfg.nodes.length) {compute : Node → List ℕ → ℕ}
    {memory : ℕ → ℕ} {order : List (ℕ × ℕ)}
    (hbelow : ComputedAddressesBelow bound.layout.outputRegionBase source.dfg compute
      (inputBits invocation) memory order) :
    ExtendsByOutputs.Avoids source.dfg compute (inputBits invocation) memory
      (placed.map PlacedOutput.delivered) order := by
  intro before operation after node hsplit hnode hopcode
  rw [List.forall_mem_map]
  intro output houtput hsame
  have hmem := DFG.mem_of_findNode hnode
  obtain ⟨hlower, hupper⟩ := h.region_of_mem hgraph houtput
  change output.binding.scratchpadAddress = _ at hsame
  rw [DFG.operands_headD (DFGVerifier.access_of_verify h.valid hmem hopcode).1] at hsame
  rw [hsame] at hlower hupper
  cases hedge : source.dfg.operandEdge node.id 0 with
  | none => exact h.not_reserved hgraph hlabels hmem hopcode hedge _ _ ⟨hlower, hupper⟩
  | some edge =>
    have hlt := hbelow before operation after hsplit node hnode hopcode (by rw [hedge]; rfl)
    exact hlower.not_gt hlt

end Bound

/-! ## Delivery -/

theorem closed_of_verify {dfg : DFG} (h : DFGVerifier.verify dfg = []) :
    ExtendsByOutputs.Closed dfg := by
  intro edge hedge
  obtain ⟨node, -, hnode, -⟩ := DFGVerifier.endpoints_of_verify h hedge
  rw [DFG.containsNode, hnode, Option.isSome_some]

/-- The live-outs have their words in the order of their ids. -/
theorem BoundGraph.exists_placed {source : SourcedDFG} {target : TargetModel}
    {invocation : KernelInvocation} {bound : ABIBoundKernel} {specialized : List (ℕ × ℕ)}
    {added : List ConstantValue} {placed : List PlacedOutput}
    (h : BoundGraph source target invocation bound specialized added placed) {ordinal : ℕ}
    {liveOut : LiveOut} (hliveOut : (source.dfg.liveOuts.insertionSort fun lhs rhs ↦
      lhs.id ≤ rhs.id)[ordinal]? = some liveOut) :
    ∃ output ∈ placed, output.liveOut = liveOut ∧
      output.binding.scratchpadAddress = bound.layout.outputRegionBase + ordinal := by
  rw [← h.liveOuts, List.getElem?_map] at hliveOut
  obtain ⟨output, houtput, rfl⟩ := Option.map_eq_some_iff.mp hliveOut
  refine ⟨output, List.mem_of_getElem? houtput, rfl, ?_⟩
  have haddress := congrArg (·[ordinal]?) h.addresses
  simp only [List.getElem?_map, houtput, Option.map_some] at haddress
  obtain ⟨hlt, heq⟩ := List.getElem?_eq_some_iff.mp haddress.symm
  rw [← heq, List.getElem_range', Nat.one_mul]

/-- What a run of the bound graph has to do with the run of the original graph that it contains: at
every point the operations of the original graph have the values they have there, and the memory
outside the output region is the same; at the end every live-out, in the order of the ids, has its
value of the last iteration in its word. -/
structure PreservesRun (source : SourcedDFG) (target : TargetModel) (invocation : KernelInvocation)
    (bound : ABIBoundKernel) (compute : Node → List ℕ → ℕ) (inputs memory : ℕ → ℕ) (tripCount : ℕ)
    (order : List (ℕ × ℕ)) : Prop where
  values_eq : ∀ before after, order = before ++ after → ∀ operation,
    source.dfg.isOperation operation = true →
      (bound.dfg.dfg.run compute inputs memory before).values operation
        = (source.dfg.run compute (inputBits invocation) memory
            (before.filter source.dfg.isOperation)).values operation
  memory_eq : ∀ before after, order = before ++ after → ∀ address,
    ¬ (bound.layout.outputRegionBase ≤ address ∧ address < target.memory.depth) →
      (bound.dfg.dfg.run compute inputs memory before).memory address
        = (source.dfg.run compute (inputBits invocation) memory
            (before.filter source.dfg.isOperation)).memory address
  liveOuts_eq : ∀ ordinal output,
    (source.dfg.liveOuts.insertionSort fun lhs rhs ↦ lhs.id ≤ rhs.id)[ordinal]? = some output →
      (bound.dfg.dfg.run compute inputs memory order).memory
          (bound.layout.outputRegionBase + ordinal)
        = (source.dfg.run compute (inputBits invocation) memory
            (order.filter source.dfg.isOperation)).values (output.source, tripCount - 1)

/-- The sum of the words behind a start address. The live-outs are the sum and the last address. -/
def windowSum : SourcedDFG where
  dfg :=
    { name := "window_sum"
      nodes := [
        ⟨0, .add, .integer 32, [.integer 32, .integer 32], none, none⟩,
        ⟨1, .load, .integer 32, [.integer 32], none, some ⟨32, false⟩⟩,
        ⟨2, .add, .integer 32, [.integer 32, .integer 32], none, none⟩]
      edges := [
        ⟨0, 0, 0, 1, .data 0 (some ⟨[⟨0, .externalValueRef 0⟩]⟩)⟩,
        ⟨1, 0, 1, 0, .data 0 none⟩,
        ⟨2, 2, 2, 1, .data 0 (some ⟨[⟨0, .constantRef 1⟩]⟩)⟩,
        ⟨3, 1, 2, 0, .data 1 none⟩]
      externalValues := [⟨0, .integer 32, "start"⟩]
      constants := [⟨0, .integer 32, 1⟩, ⟨1, .integer 32, 0⟩]
      liveOuts := [⟨1, .integer 32, "sum", 2⟩, ⟨0, .integer 32, "last", 0⟩]
      externalBindings := [⟨0, 1, .constantRef 0⟩]
      incomingEdges := [[0], [1], [2, 3]]
      outgoingEdges := [[0, 1], [3], [2]] }
  sources := [none, none, none]

/-- Two words behind address four. -/
def windowSumInvocation : KernelInvocation := ⟨2, [⟨0, 4⟩], []⟩

def boundWindowSum : ABIBoundKernel where
  dfg :=
    { dfg :=
        { windowSum.dfg with
          nodes := windowSum.dfg.nodes ++ [
            outputStore shippedTarget 3 (.integer 32), outputStore shippedTarget 4 (.integer 32)]
          edges := [
            ⟨0, 0, 0, 1, .data 0 (some ⟨[⟨0, .constantRef 2⟩]⟩)⟩,
            ⟨1, 0, 1, 0, .data 0 none⟩,
            ⟨2, 2, 2, 1, .data 0 (some ⟨[⟨0, .constantRef 1⟩]⟩)⟩,
            ⟨3, 1, 2, 0, .data 1 none⟩,
            ⟨4, 0, 3, 0, .data 1 none⟩,
            ⟨5, 3, 3, 1, .memory .waw⟩,
            ⟨6, 2, 4, 0, .data 1 none⟩,
            ⟨7, 4, 4, 1, .memory .waw⟩]
          constants := windowSum.dfg.constants ++ [
            ⟨2, .integer 32, 4⟩, ⟨3, .integer 32, 4094⟩, ⟨4, .integer 32, 4095⟩]
          externalBindings := [
            ⟨0, 1, .constantRef 0⟩, ⟨3, 0, .constantRef 3⟩, ⟨4, 0, .constantRef 4⟩]
          incomingEdges := [[0], [1], [2, 3], [4, 5], [6, 7]]
          outgoingEdges := [[0, 1, 4], [3], [2, 6], [5], [7]] }
      sources := [none, none, none, some ⟨"abi.liveout.0"⟩, some ⟨"abi.liveout.1"⟩] }
  signature := inferSignature windowSum.dfg
  invocation := windowSumInvocation
  layout :=
    { scratchpadDepth := 4096
      userScratchpadLimit := 4094
      outputRegionBase := 4094
      inputs := [⟨0, 2⟩]
      outputs := [⟨0, 4094, 3, 3⟩, ⟨1, 4095, 4, 4⟩] }

/-- The stores of the first iteration come as late as the loop-carried dependences allow. -/
def windowSumOrder : List (ℕ × ℕ) :=
  [(0, 0), (1, 0), (0, 1), (3, 0), (2, 0), (1, 1), (3, 1), (2, 1), (4, 0), (4, 1)]

/-- All operations but loads and stores are additions here. -/
def addition (_ : Node) (operands : List ℕ) : ℕ := operands.sum % 2 ^ 32

end KernelABIBinder

end PredicatedMesh
