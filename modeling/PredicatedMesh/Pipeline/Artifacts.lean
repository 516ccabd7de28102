import PredicatedMesh.IR.RoundTrip
import PredicatedMesh.RegisterAllocation.Serialization
import PredicatedMesh.RegisterAllocation.Soundness

/-!
# Artifacts are read back as they were written

The tools hand graphs and allocated mappings to one another as JSON documents. What a verifier has
accepted comes back equal from its document, so it is accepted again.

A reader builds anew from the entries it finds. So it gives back a mapping or a graph that is kept
the way the builders keep it: entries sorted by id, a label and two lists of edges for each node.
This is no condition on a mapping or a graph of the program, for which the builders are the only way
to come about; here both orders are invariants of the builders. Machine integers are natural numbers
here, so it is said as well that a number is in the range of its type.
-/

namespace PredicatedMesh

open Scan

/-! ## What the builders keep -/

namespace ModuloMappingBuilder

/-- What calls to a builder have listed, in whatever order they were made. -/
inductive Lists (dfg : TargetDFG) (ii : ℕ) : List NodePlacement → List MappedDependence → Prop
  | empty : Lists dfg ii [] []
  | place {placements later dependences} {placement : NodePlacement}
      (before : Lists dfg ii placements dependences)
      (placed : ModuloMappingBuilder.place dfg ii placements placement = .ok later) :
      Lists dfg ii later dependences
  | setTransport {placements dependences later} {edge : TargetEdgeId} {plan : TransportPlan}
      (before : Lists dfg ii placements dependences)
      (realized : ModuloMappingBuilder.setTransport dfg dependences edge plan = .ok later) :
      Lists dfg ii placements later
  | setMemorySeparation {placements dependences later} {edge : TargetEdgeId} {cycles : ℕ}
      (before : Lists dfg ii placements dependences)
      (realized :
        ModuloMappingBuilder.setMemorySeparation dfg dependences edge cycles = .ok later) :
      Lists dfg ii placements later

variable {dfg : TargetDFG} {ii : ℕ} {placements : List NodePlacement}
  {dependences : List MappedDependence} {mapping : ModuloMapping}

/-- A node is placed once and an edge is realized once. -/
theorem Lists.nodup (h : Lists dfg ii placements dependences) :
    (placements.map NodePlacement.node).Nodup ∧
      (dependences.map MappedDependence.edge).Nodup := by
  induction h with
  | empty => exact ⟨List.nodup_nil, List.nodup_nil⟩
  | place _ hplaced ih =>
    rw [ModuloMappingBuilder.place] at hplaced
    split_ifs at hplaced with hslot hnode hfresh
    obtain rfl := Except.ok.inj hplaced
    exact ⟨SortedMap.nodup_append ih.1 hfresh, ih.2⟩
  | setTransport _ hrealized ih =>
    rw [ModuloMappingBuilder.setTransport] at hrealized
    split at hrealized
    · cases hrealized
    · split_ifs at hrealized with hmemory hdomain hedge hfresh
      split at hrealized
      · cases hrealized
      · obtain rfl := Except.ok.inj hrealized
        exact ⟨ih.1, SortedMap.nodup_append ih.2 hfresh⟩
  | setMemorySeparation _ hrealized ih =>
    rw [ModuloMappingBuilder.setMemorySeparation] at hrealized
    split at hrealized
    · cases hrealized
    · split_ifs at hrealized with hmemory hfresh
      obtain rfl := Except.ok.inj hrealized
      exact ⟨ih.1, SortedMap.nodup_append ih.2 hfresh⟩

/-- **A finished mapping is in order.** -/
theorem ordered_of_finish (h : Lists dfg ii placements dependences)
    (hfinish : finish dfg ii placements dependences = .ok mapping) : mapping.Ordered := by
  rw [finish] at hfinish
  split_ifs at hfinish
  obtain rfl := Except.ok.inj hfinish
  exact ⟨SortedMap.sorted_insertionSort h.nodup.1, SortedMap.sorted_insertionSort h.nodup.2⟩

end ModuloMappingBuilder

/-- A graph from a builder is kept in order, whichever entries it was given. -/
theorem SourcedDFG.Built.aligned {graph : SourcedDFG} (h : graph.Built) : graph.Aligned where
  sources := h.sources
  incoming := by rw [h.incoming, DFG.adjacency, List.length_map]
  outgoing := by rw [h.outgoing, DFG.adjacency, List.length_map]
  bindings := h.bindings

/-- Every number of a graph is in the range of the integer type that holds it. -/
structure DFG.InRange (dfg : DFG) : Prop where
  nodes : ∀ node ∈ dfg.nodes, node.id < 2 ^ 32 ∧ node.resultType.bitWidth < 2 ^ 16 ∧
    (∀ type ∈ node.operandTypes, type.bitWidth < 2 ^ 16) ∧
      ∀ info, node.memoryInfo = some info → info.accessWidthBits < 2 ^ 32
  edges : ∀ edge ∈ dfg.edges, edge.Fits
  externals : ∀ value ∈ dfg.externalValues, value.id < 2 ^ 32 ∧ value.type.bitWidth < 2 ^ 16
  constants : ∀ value ∈ dfg.constants,
    value.id < 2 ^ 32 ∧ value.type.bitWidth < 2 ^ 16 ∧ value.bits < 2 ^ 64
  liveOuts : ∀ value ∈ dfg.liveOuts,
    value.id < 2 ^ 32 ∧ value.type.bitWidth < 2 ^ 16 ∧ value.source < 2 ^ 32
  bindings : ∀ binding ∈ dfg.externalBindings, binding.Fits

/-- The types the reader asks for are those the verifier has looked at. -/
theorem DFGVerifier.fits_of_verify {dfg : DFG} (h : verify dfg = []) (hrange : dfg.InRange) :
    dfg.Fits := by
  simp only [verify, List.append_eq_nil_iff, List.flatMap_eq_nil_iff] at h
  obtain ⟨⟨⟨⟨⟨⟨-, htypes⟩, -⟩, -⟩, -⟩, hliveOuts⟩, -⟩ := h
  have hnodes {node : Node} (hnode : node ∈ dfg.nodes) := valid_of_verifyValueTypes htypes hnode
  simp only [verifyValueTypes, List.append_eq_nil_iff, List.flatMap_eq_nil_iff,
    require_eq_nil_iff] at htypes
  refine ⟨fun node hnode ↦ ?_, hrange.edges, fun value hvalue ↦ ?_, fun value hvalue ↦ ?_,
    fun value hvalue ↦ ?_, hrange.bindings⟩
  · obtain ⟨hid, hresult, hoperands, hinfo⟩ := hrange.nodes node hnode
    refine ⟨hid, ⟨(hnodes hnode).1, hresult⟩, fun type htype ↦ ?_, hinfo⟩
    obtain ⟨operand, hoperand⟩ := List.mem_iff_getElem?.mp htype
    exact ⟨(hnodes hnode).2 operand type hoperand, hoperands type htype⟩
  · obtain ⟨hid, hwidth⟩ := hrange.externals value hvalue
    exact ⟨hid, htypes.1.1 value hvalue, hwidth⟩
  · obtain ⟨hid, hwidth, hbits⟩ := hrange.constants value hvalue
    exact ⟨hid, ⟨htypes.1.2 value hvalue, hwidth⟩, hbits⟩
  · obtain ⟨hid, hwidth, hsource⟩ := hrange.liveOuts value hvalue
    have hliveOut := hliveOuts value hvalue
    rw [verifyLiveOut, List.append_eq_nil_iff, require_eq_nil_iff] at hliveOut
    exact ⟨hid, ⟨hliveOut.1, hwidth⟩, hsource⟩

/-! ## Accepted artifacts -/

/-- **Accepted artifacts round-trip.** The document of an allocated mapping that is accepted is read
back as that mapping, which is then accepted again; and the document of a graph that is accepted is
read back as that graph. -/
theorem artifacts_round_trip :
    (∀ (dfg : TargetDFG) (target : TargetModel) (mapping : RFAllocatedMapping),
      RFAllocationVerifier.verify dfg target mapping = .ok [] → mapping.staged.modulo.Ordered →
        mapping.Fits →
      ∃ json, RFAllocatedMappingSerialization.toJson mapping = .ok json ∧
        RFAllocatedMappingSerialization.parse json = .ok mapping ∧
        ∀ read, RFAllocatedMappingSerialization.parse json = .ok read →
          RFAllocationVerifier.verify dfg target read = .ok []) ∧
    ∀ graph : SourcedDFG, DFGVerifier.verify graph.dfg = [] → graph.Aligned → graph.dfg.InRange →
      DFGSerialization.parse (DFGSerialization.toJson graph) = .ok graph := by
  constructor
  · intro dfg target mapping haccepted hordered hfits
    have hstored := RFAllocationVerifier.stored_of_verify haccepted hordered
    obtain ⟨json, hwritten, hread⟩ := RFAllocatedMappingSerialization.parse_toJson hstored hfits
    refine ⟨json, hwritten, hread, fun read hagain ↦ ?_⟩
    obtain rfl := Except.ok.inj (hread.symm.trans hagain)
    exact haccepted
  · intro graph haccepted haligned hrange
    apply DFGSerialization.parse_toJson
    · exact DFGVerifier.built_of_verify haccepted haligned
    · exact DFGVerifier.fits_of_verify haccepted hrange

/-! ### A sum that saturates

The allocated mapping of two values for one sum, and a graph with a label, a comparison, a selection
and a dependence with a boundary value. -/

/-- A sum is kept below a limit and stored. -/
def saturatingDFG : SourcedDFG where
  dfg :=
    { name := "saturating_sum"
      nodes :=
        [⟨4, .add, ValueType.integer 32, [ValueType.integer 32, ValueType.integer 32], none, none⟩,
          ⟨1, .icmp, ValueType.predicate, [ValueType.integer 32, ValueType.integer 32], some .slt,
            none⟩,
          ⟨2, .select, ValueType.integer 32,
            [ValueType.predicate, ValueType.integer 32, ValueType.integer 32], none, none⟩,
          ⟨3, .store, ValueType.voidTy, [ValueType.integer 32, ValueType.integer 32], none,
            some ⟨32, false⟩⟩]
      edges :=
        [⟨0, 4, 1, 0, .data 0 none⟩, ⟨1, 1, 2, 0, .predicate 0 none⟩, ⟨2, 4, 2, 0, .data 1 none⟩,
          ⟨3, 2, 4, 1, .data 0 (some ⟨[⟨0, .externalValueRef 0⟩]⟩)⟩, ⟨4, 2, 3, 0, .data 1 none⟩,
          ⟨5, 3, 3, 1, .memory .waw⟩]
      externalValues := [⟨0, ValueType.integer 32, "start"⟩, ⟨1, ValueType.integer 32, "step"⟩]
      constants := [⟨0, ValueType.integer 32, 255⟩, ⟨1, ValueType.integer 32, 16⟩]
      liveOuts := [⟨0, ValueType.integer 32, "sum", 2⟩]
      externalBindings :=
        [⟨1, 1, .constantRef 0⟩, ⟨2, 2, .constantRef 0⟩, ⟨3, 0, .constantRef 1⟩,
          ⟨4, 1, .externalValueRef 1⟩]
      incomingEdges := [[3], [0], [1, 2], [4, 5]]
      outgoingEdges := [[0, 2], [1], [3, 4], [5]] }
  sources := [some ⟨"sum"⟩, none, some ⟨"limited"⟩, none]

/-- Both artifacts are read back. -/
theorem saturating_round_trips :
    (∃ json, RFAllocatedMappingSerialization.toJson seededSumAllocated = .ok json ∧
      RFAllocatedMappingSerialization.parse json = .ok seededSumAllocated) ∧
    DFGSerialization.parse (DFGSerialization.toJson saturatingDFG) = .ok saturatingDFG := by
  have hordered : seededSumAllocated.staged.modulo.Ordered := by
    constructor
    · unfold SortedMap.Sorted
      decide
    · unfold SortedMap.Sorted
      decide
  have hfits : seededSumAllocated.Fits := by
    refine ⟨⟨⟨by decide, ?_, ?_⟩, by decide⟩, ?_, ?_⟩
    · unfold NodePlacement.Fits TileCoord.Fits
      decide
    · simp [seededSumAllocated, MappedDependence.Fits, TransportAction.Fits, TileCoord.Fits]
    · simp [seededSumAllocated, StorageSegment.Fits, StorageOrigin.Fits, TileCoord.Fits]
    · simp [seededSumAllocated, StorageAllocation.Fits]
  have haligned : saturatingDFG.Aligned := by
    refine ⟨rfl, rfl, rfl, ?_⟩
    unfold SortedMap.Sorted
    decide
  have hrange : saturatingDFG.dfg.InRange := by
    refine ⟨?_, ?_, by decide, by decide, by decide, ?_⟩
    · simp [saturatingDFG, ValueType.integer, ValueType.predicate, ValueType.voidTy]
    · simp [saturatingDFG, Edge.Fits, EdgeInfo.Fits, EdgeInfo.dstOperand, EdgeInfo.boundary,
        RecurrenceBoundary.Fits, ExternalOperandBinding.Fits]
    · simp [saturatingDFG, OperandBinding.Fits, ExternalOperandBinding.Fits]
  obtain ⟨json, hwritten, hread, -⟩ := artifacts_round_trip.1 seededSumDFG shippedTarget
    seededSumAllocated seededSumAllocated_accepted hordered hfits
  exact ⟨⟨json, hwritten, hread⟩, artifacts_round_trip.2 saturatingDFG (by decide) haligned hrange⟩

end PredicatedMesh
