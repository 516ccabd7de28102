import PredicatedMesh.IR.Built
import PredicatedMesh.IR.DFGVerifier
import PredicatedMesh.IR.Serialization

/-!
# Dataflow graphs survive being written and read

The reader undoes the writer record by record and hands each entry to the builder, in an order in
which no entry comes before what it refers to. A graph a builder left is therefore taken in again,
entry by entry, and the adjacency the builder computes on the way is the one that was not written.

In the other direction whatever is read has come through the builder, and its numbers fit the types
they were read at.
-/

namespace PredicatedMesh

open Json Scan

/-! ## Numbers that fit -/

/-- A type whose width agrees with its kind and fits. -/
def ValueType.Fits (type : ValueType) : Prop :=
  DFGVerifier.isValidType type = true ∧ type.bitWidth < 2 ^ 16

def ExternalOperandBinding.Fits : ExternalOperandBinding → Prop
  | .externalValueRef value => value < 2 ^ 32
  | .constantRef value => value < 2 ^ 32

def RecurrenceBoundary.Fits (boundary : RecurrenceBoundary) : Prop :=
  ∀ value ∈ boundary.values, value.iterationOffset < 2 ^ 32 ∧ value.value.Fits

def EdgeInfo.Fits (info : EdgeInfo) : Prop :=
  (∀ operand, info.dstOperand = some operand → operand < 2 ^ 32) ∧
    ∀ boundary, info.boundary = some boundary → boundary.Fits

def Edge.Fits (edge : Edge) : Prop :=
  edge.id < 2 ^ 32 ∧ edge.src < 2 ^ 32 ∧ edge.dst < 2 ^ 32 ∧ edge.distance < 2 ^ 32 ∧ edge.info.Fits

def Node.Fits (node : Node) : Prop :=
  node.id < 2 ^ 32 ∧ node.resultType.Fits ∧ (∀ type ∈ node.operandTypes, type.Fits) ∧
    ∀ info, node.memoryInfo = some info → info.accessWidthBits < 2 ^ 32

def ExternalValue.Fits (value : ExternalValue) : Prop := value.id < 2 ^ 32 ∧ value.type.Fits

def ConstantValue.Fits (value : ConstantValue) : Prop :=
  value.id < 2 ^ 32 ∧ value.type.Fits ∧ value.bits < 2 ^ 64

def LiveOut.Fits (value : LiveOut) : Prop :=
  value.id < 2 ^ 32 ∧ value.type.Fits ∧ value.source < 2 ^ 32

def OperandBinding.Fits (binding : OperandBinding) : Prop :=
  binding.node < 2 ^ 32 ∧ binding.operand < 2 ^ 32 ∧ binding.source.Fits

def DFGEntry.Fits : DFGEntry → Prop
  | .node item _ => item.Fits
  | .external item => item.Fits
  | .constant item => item.Fits
  | .liveOut item => item.Fits
  | .edge item => item.Fits
  | .binding item => item.Fits

/-- Every number of a graph fits the integer type that holds it. -/
structure DFG.Fits (dfg : DFG) : Prop where
  nodes : ∀ node ∈ dfg.nodes, node.Fits
  edges : ∀ edge ∈ dfg.edges, edge.Fits
  externals : ∀ value ∈ dfg.externalValues, value.Fits
  constants : ∀ value ∈ dfg.constants, value.Fits
  liveOuts : ∀ value ∈ dfg.liveOuts, value.Fits
  bindings : ∀ binding ∈ dfg.externalBindings, binding.Fits

namespace DFGSerialization

/-! ## Names -/

@[simp] theorem opcodeFromString_toString (opcode : Opcode) :
    opcodeFromString opcode.toString = .ok opcode := by
  cases opcode <;> decide

@[simp] theorem icmpPredicateFromString_name (predicate : ICmpPredicate) :
    icmpPredicateFromString (icmpPredicateName predicate) = .ok predicate := by
  cases predicate <;> decide

@[simp] theorem memoryDepKindFromString_name (kind : MemoryDepKind) :
    memoryDepKindFromString (memoryDepKindName kind) = .ok kind := by
  cases kind <;> decide

@[simp] theorem valueKindFromString_name (kind : ValueKind) :
    valueKindFromString (valueKindName kind) = .ok kind := by
  cases kind <;> decide

/-! ## Types -/

/-- The reader refuses a type exactly when it is invalid. -/
theorem isValidType_iff {type : ValueType} : DFGVerifier.isValidType type = true ↔
    ¬ (type.kind = .void ∧ type.bitWidth ≠ 0 ∨ type.kind ≠ .void ∧ type.bitWidth = 0) ∧
      ¬ (type.kind = .predicate ∧ type.bitWidth ≠ 1) := by
  rcases type with ⟨_ | _ | _ | _, bits⟩
  · simp [DFGVerifier.isValidType]
  · simp only [DFGVerifier.isValidType, beq_iff_eq, reduceCtorEq]
    simp
    omega
  · simp [DFGVerifier.isValidType]
  · simp [DFGVerifier.isValidType]

theorem parseType_typeJson {type : ValueType} (h : type.Fits) (context : String) :
    parseType context (typeJson type) = .ok type := by
  obtain ⟨hvalid, hbits⟩ := h
  obtain ⟨hvoid, hpredicate⟩ := isValidType_iff.mp hvalid
  have hkindField : (typeJson type).field? "kind" = some (.str (valueKindName type.kind)) := by
    simp [typeJson]
  have hbitsField : (typeJson type).field? "bits" = some (.nat type.bitWidth) := by
    simp [typeJson]
  rw [parseType, hkindField, hbitsField]
  refine bind_eq_ok.mpr ⟨valueKindName type.kind, rfl, ?_⟩
  refine bind_eq_ok.mpr ⟨type.kind, valueKindFromString_name _, ?_⟩
  refine bind_eq_ok.mpr ⟨type.bitWidth, getUnsigned_nat hbits, ?_⟩
  rw [if_neg hvoid, if_neg hpredicate]

theorem fits_of_parseType {context : String} {json : Json} {type : ValueType}
    (h : parseType context json = .ok type) : type.Fits := by
  rw [parseType] at h
  split at h
  · obtain ⟨name, -, h⟩ := bind_eq_ok.mp h
    obtain ⟨kind, -, h⟩ := bind_eq_ok.mp h
    obtain ⟨bits, hbits, h⟩ := bind_eq_ok.mp h
    split_ifs at h with hvoid hpredicate
    obtain rfl := Except.ok.inj h
    exact ⟨isValidType_iff.mpr ⟨hvoid, hpredicate⟩, lt_of_getUnsigned (by decide) hbits⟩
  · cases h

/-! ## Values from outside -/

variable {builder later : DFGBuilder} {graph : SourcedDFG}

theorem parseExternal_externalJson {value : ExternalValue} (hfits : value.Fits)
    (happends : builder.graph.Appends (.external value) graph) :
    ∃ later, parseExternal builder (externalJson value) = .ok later ∧ later.graph = graph := by
  obtain ⟨later, hlater, hgraph⟩ := DFGBuilder.importExternal_iff.mpr happends
  refine ⟨later, ?_, hgraph⟩
  refine bind_eq_ok.mpr ⟨value.id, required_unsigned (by simp [externalJson]) hfits.1, ?_⟩
  refine bind_eq_ok.mpr ⟨typeJson value.type, atKey_of_field (by simp [externalJson]), ?_⟩
  refine bind_eq_ok.mpr ⟨value.type, parseType_typeJson hfits.2 _, ?_⟩
  exact bind_eq_ok.mpr ⟨value.name, required_string (by simp [externalJson]), hlater⟩

theorem parseConstant_constantJson {value : ConstantValue} (hfits : value.Fits)
    (happends : builder.graph.Appends (.constant value) graph) :
    ∃ later, parseConstant builder (constantJson value) = .ok later ∧ later.graph = graph := by
  obtain ⟨later, hlater, hgraph⟩ := DFGBuilder.importConstant_iff.mpr happends
  obtain ⟨hid, htype, hbits⟩ := hfits
  refine ⟨later, ?_, hgraph⟩
  refine bind_eq_ok.mpr ⟨value.id, required_unsigned (by simp [constantJson]) hid, ?_⟩
  refine bind_eq_ok.mpr ⟨typeJson value.type, atKey_of_field (by simp [constantJson]), ?_⟩
  refine bind_eq_ok.mpr ⟨value.type, parseType_typeJson htype _, ?_⟩
  exact bind_eq_ok.mpr ⟨value.bits, required_unsigned (by simp [constantJson]) hbits, hlater⟩

theorem parseLiveOut_liveOutJson {value : LiveOut} (hfits : value.Fits)
    (happends : builder.graph.Appends (.liveOut value) graph) :
    ∃ later, parseLiveOut builder (liveOutJson value) = .ok later ∧ later.graph = graph := by
  obtain ⟨later, hlater, hgraph⟩ := DFGBuilder.importLiveOut_iff.mpr happends
  obtain ⟨hid, htype, hsource⟩ := hfits
  refine ⟨later, ?_, hgraph⟩
  refine bind_eq_ok.mpr ⟨value.id, required_unsigned (by simp [liveOutJson]) hid, ?_⟩
  refine bind_eq_ok.mpr ⟨typeJson value.type, atKey_of_field (by simp [liveOutJson]), ?_⟩
  refine bind_eq_ok.mpr ⟨value.type, parseType_typeJson htype _, ?_⟩
  refine bind_eq_ok.mpr ⟨value.name, required_string (by simp [liveOutJson]), ?_⟩
  exact bind_eq_ok.mpr ⟨value.source, required_unsigned (by simp [liveOutJson]) hsource, hlater⟩

/-! ## Nodes -/

theorem parseMemoryInfo_json {info : MemoryOpInfo} (h : info.accessWidthBits < 2 ^ 32) :
    parseMemoryInfo (.obj [("access_width_bits", .nat info.accessWidthBits),
      ("volatile", .bool info.isVolatile)]) = .ok info := by
  refine bind_eq_ok.mpr ⟨info.accessWidthBits, required_unsigned (by simp) h, ?_⟩
  exact bind_eq_ok.mpr ⟨info.isVolatile, required_of_field (by simp) (getBool_bool _), rfl⟩

theorem parseSource_json (source : SourceInfo) :
    parseSource (.obj [("label", .str source.label)]) = .ok source :=
  bind_eq_ok.mpr ⟨source.label, required_string (by simp), rfl⟩

theorem parsePredicate_json (predicate : ICmpPredicate) :
    parsePredicate (.str (icmpPredicateName predicate)) = .ok predicate :=
  bind_eq_ok.mpr ⟨icmpPredicateName predicate, rfl, icmpPredicateFromString_name _⟩

theorem parseNode_nodeJson {node : Node} {source : Option SourceInfo} (hfits : node.Fits)
    (happends : builder.graph.Appends (.node node source) graph) :
    ∃ later, parseNode builder (nodeJson node source) = .ok later ∧ later.graph = graph := by
  obtain ⟨later, hlater, hgraph⟩ := DFGBuilder.importNode_iff.mpr happends
  obtain ⟨hid, hresult, hoperands, hmemory⟩ := hfits
  have hpredicateField : (nodeJson node source).field? "icmp_predicate"
      = node.icmpPredicate.map fun predicate ↦ str (icmpPredicateName predicate) := by
    simp [nodeJson, field?_append, field?_elim]
  have hmemoryField : (nodeJson node source).field? "memory"
      = node.memoryInfo.map fun info ↦ obj [("access_width_bits", .nat info.accessWidthBits),
          ("volatile", .bool info.isVolatile)] := by
    simp [nodeJson, field?_append, field?_elim]
  have hsourceField : (nodeJson node source).field? "source"
      = source.map fun source ↦ obj [("label", .str source.label)] := by
    simp [nodeJson, field?_append, field?_elim]
  refine ⟨later, ?_, hgraph⟩
  refine bind_eq_ok.mpr ⟨node.id, required_unsigned (by simp [nodeJson]) hid, ?_⟩
  refine bind_eq_ok.mpr ⟨.arr (node.operandTypes.map typeJson),
    required_of_field (by simp [nodeJson]) (getJson_eq _), ?_⟩
  refine bind_eq_ok.mpr ⟨node.operandTypes,
    mapM_written fun type htype ↦ parseType_typeJson (hoperands type htype) _, ?_⟩
  refine bind_eq_ok.mpr ⟨node.icmpPredicate,
    optional_of_elim hpredicateField fun predicate _ ↦ parsePredicate_json predicate, ?_⟩
  refine bind_eq_ok.mpr ⟨node.memoryInfo,
    optional_of_elim hmemoryField fun info hinfo ↦ parseMemoryInfo_json (hmemory info hinfo), ?_⟩
  refine bind_eq_ok.mpr ⟨source,
    optional_of_elim hsourceField fun source _ ↦ parseSource_json source, ?_⟩
  refine bind_eq_ok.mpr ⟨node.opcode.toString, required_string (by simp [nodeJson]), ?_⟩
  refine bind_eq_ok.mpr ⟨node.opcode, opcodeFromString_toString _, ?_⟩
  refine bind_eq_ok.mpr ⟨typeJson node.resultType, atKey_of_field (by simp [nodeJson]), ?_⟩
  exact bind_eq_ok.mpr ⟨node.resultType, parseType_typeJson hresult _, hlater⟩

/-! ## Bindings -/

/-- The reference of a binding or of a boundary value is the only one there. -/
theorem source_fields {fields : List (String × Json)} (source : ExternalOperandBinding)
    (hexternal : (obj fields).field? "external" = none)
    (hconstant : (obj fields).field? "constant" = none) :
    (∃ value, source = .externalValueRef value ∧
        (obj (fields ++ sourceJson source)).field? "external" = some (.nat value) ∧
        (obj (fields ++ sourceJson source)).field? "constant" = none) ∨
      ∃ value, source = .constantRef value ∧
        (obj (fields ++ sourceJson source)).field? "external" = none ∧
        (obj (fields ++ sourceJson source)).field? "constant" = some (.nat value) := by
  rcases source with value | value
  · refine .inl ⟨value, rfl, ?_, ?_⟩
    · rw [field?_append, hexternal]
      rfl
    · rw [field?_append, hconstant]
      rfl
  · refine .inr ⟨value, rfl, ?_, ?_⟩
    · rw [field?_append, hexternal]
      rfl
    · rw [field?_append, hconstant]
      rfl

/-- A binding is read back while its node has no edges yet. -/
theorem parseBinding_bindingJson {binding : OperandBinding} (hfits : binding.Fits)
    (hincoming : (builder.graph.dfg.incoming binding.node).getD [] = [])
    (happends : builder.graph.Appends (.binding binding) graph) :
    ∃ later, parseBinding builder (bindingJson binding) = .ok later ∧ later.graph = graph := by
  rcases binding with ⟨node, operand, source⟩
  obtain ⟨hnode, hoperand, hsource⟩ := hfits
  have hbound : builder.graph.dfg.Binds ⟨node, operand, source⟩ ∧
      (builder.graph.dfg.externalBindings.any fun item ↦
        item.node == node && item.operand == operand) = false := by
    cases happends with
    | binding hbinds hfresh => exact ⟨hbinds, hfresh⟩
  obtain ⟨⟨hfound, hprovides⟩, hfresh⟩ := hbound
  have hfree := DFGBuilder.checkProviderAvailable_of_free hfound hincoming hfresh
  obtain ⟨dfg, hdfg, hgraph⟩ := (DFGBuilder.appendBinding_iff ⟨hfound, hprovides⟩).mpr happends
  refine ⟨builder.withGraph dfg, ?_, hgraph⟩
  refine bind_eq_ok.mpr ⟨node, required_unsigned (by simp [bindingJson]) hnode, ?_⟩
  refine bind_eq_ok.mpr ⟨operand, required_unsigned (by simp [bindingJson]) hoperand, ?_⟩
  obtain ⟨value, rfl, hexternal, hconstant⟩ | ⟨value, rfl, hexternal, hconstant⟩ :=
    @source_fields [("node", .nat node), ("operand", .nat operand)] source (by simp) (by simp)
  · rw [bindingJson, if_pos (contains_of_field hexternal)]
    refine bind_eq_ok.mpr ⟨value, required_unsigned hexternal hsource, ?_⟩
    refine bind_eq_ok.mpr ⟨(), hfree, ?_⟩
    rw [if_neg (by simpa [DFG.provides, DFGBuilder.dfg, Option.isSome_iff_ne_none] using hprovides)]
    exact bind_eq_ok.mpr ⟨dfg, hdfg, rfl⟩
  · rw [bindingJson, if_neg (by rw [contains_of_missing hexternal]; exact Bool.false_ne_true),
      if_pos (contains_of_field hconstant)]
    refine bind_eq_ok.mpr ⟨value, required_unsigned hconstant hsource, ?_⟩
    refine bind_eq_ok.mpr ⟨(), hfree, ?_⟩
    rw [if_neg (by simpa [DFG.provides, DFGBuilder.dfg, Option.isSome_iff_ne_none] using hprovides)]
    exact bind_eq_ok.mpr ⟨dfg, hdfg, rfl⟩

/-! ## Edges -/

theorem parseBoundaryValue_boundaryValueJson {value : RecurrenceBoundaryValue}
    (hoffset : value.iterationOffset < 2 ^ 32) (hsource : value.value.Fits) :
    parseBoundaryValue (boundaryValueJson value) = .ok value := by
  rcases value with ⟨offset, source⟩
  refine bind_eq_ok.mpr ⟨offset, required_unsigned (by simp [boundaryValueJson]) hoffset, ?_⟩
  obtain ⟨value, rfl, hexternal, hconstant⟩ | ⟨value, rfl, hexternal, hconstant⟩ :=
    @source_fields [("iteration_offset", .nat offset)] source (by simp) (by simp)
  · rw [boundaryValueJson, ← List.singleton_append, contains_of_field hexternal,
      contains_of_missing hconstant, if_neg (by decide), if_pos rfl]
    exact bind_eq_ok.mpr ⟨value, required_unsigned hexternal hsource, rfl⟩
  · rw [boundaryValueJson, ← List.singleton_append, contains_of_missing hexternal,
      contains_of_field hconstant, if_neg (by decide), if_neg Bool.false_ne_true]
    exact bind_eq_ok.mpr ⟨value, required_unsigned hconstant hsource, rfl⟩

theorem parseBoundary_of_field {json : Json} {boundary : Option RecurrenceBoundary}
    (hfield : json.field? "boundary" = boundary.map fun boundary ↦
      arr (boundary.values.map boundaryValueJson))
    (hfits : ∀ b, boundary = some b → b.Fits) : parseBoundary json = .ok boundary := by
  rw [parseBoundary, hfield]
  rcases boundary with _ | boundary
  · rfl
  · refine bind_eq_ok.mpr ⟨_, getArray_arr _ _, ?_⟩
    refine bind_eq_ok.mpr ⟨boundary.values, mapM_written fun value hvalue ↦ ?_, rfl⟩
    obtain ⟨hoffset, hsource⟩ := hfits boundary rfl value hvalue
    exact parseBoundaryValue_boundaryValueJson hoffset hsource

/-- What an edge carries is read back from the fields behind those of the edge. -/
theorem parseInfo_infoJson {fields : List (String × Json)} {info : EdgeInfo} (hfits : info.Fits)
    (hkind : (obj fields).field? "kind" = none) (hoperand : (obj fields).field? "operand" = none)
    (hdependence : (obj fields).field? "dependence" = none)
    (hboundary : (obj fields).field? "boundary" = none) :
    ∃ kind, (obj (fields ++ infoJson info)).field? "kind" = some (.str kind) ∧
      parseInfo (obj (fields ++ infoJson info)) kind = .ok info := by
  obtain ⟨hlt, hvalues⟩ := hfits
  rcases info with ⟨operand, boundary⟩ | ⟨operand, boundary⟩ | dependence
  · refine ⟨"data", by simp [infoJson, field?_append, hkind], ?_⟩
    rw [parseInfo, if_pos rfl]
    refine bind_eq_ok.mpr ⟨operand,
      required_unsigned (by simp [infoJson, field?_append, hoperand]) (hlt operand rfl), ?_⟩
    refine bind_eq_ok.mpr ⟨boundary, parseBoundary_of_field ?_ hvalues, rfl⟩
    simp [infoJson, boundaryJson, field?_append, field?_elim, hboundary]
  · refine ⟨"predicate", by simp [infoJson, field?_append, hkind], ?_⟩
    rw [parseInfo, if_neg (by decide), if_pos rfl]
    refine bind_eq_ok.mpr ⟨operand,
      required_unsigned (by simp [infoJson, field?_append, hoperand]) (hlt operand rfl), ?_⟩
    refine bind_eq_ok.mpr ⟨boundary, parseBoundary_of_field ?_ hvalues, rfl⟩
    simp [infoJson, boundaryJson, field?_append, field?_elim, hboundary]
  · refine ⟨"memory", by simp [infoJson, field?_append, hkind], ?_⟩
    rw [parseInfo, if_neg (by decide), if_neg (by decide), if_pos rfl, if_neg]
    · refine bind_eq_ok.mpr ⟨memoryDepKindName dependence,
        required_string (by simp [infoJson, field?_append, hdependence]), ?_⟩
      exact bind_eq_ok.mpr ⟨dependence, memoryDepKindFromString_name _, rfl⟩
    · rw [contains_of_missing (by simp [infoJson, field?_append, hoperand])]
      exact Bool.false_ne_true

theorem parseEdge_edgeJson {edge : Edge} (hfits : edge.Fits)
    (happends : builder.graph.Appends (.edge edge) graph) :
    ∃ later, parseEdge builder (edgeJson edge) = .ok later ∧ later.graph = graph := by
  obtain ⟨later, hlater, hgraph⟩ := DFGBuilder.importEdge_iff.mpr happends
  obtain ⟨hid, hsrc, hdst, hdistance, hinfo⟩ := hfits
  obtain ⟨kind, hkind, hparse⟩ := @parseInfo_infoJson [("id", .nat edge.id), ("src", .nat edge.src),
    ("dst", .nat edge.dst), ("distance", .nat edge.distance)] edge.info hinfo (by simp) (by simp)
    (by simp) (by simp)
  refine ⟨later, ?_, hgraph⟩
  refine bind_eq_ok.mpr ⟨edge.id, required_unsigned (by simp [edgeJson]) hid, ?_⟩
  refine bind_eq_ok.mpr ⟨edge.src, required_unsigned (by simp [edgeJson]) hsrc, ?_⟩
  refine bind_eq_ok.mpr ⟨edge.dst, required_unsigned (by simp [edgeJson]) hdst, ?_⟩
  refine bind_eq_ok.mpr ⟨edge.distance, required_unsigned (by simp [edgeJson]) hdistance, ?_⟩
  refine bind_eq_ok.mpr ⟨kind, required_string hkind, ?_⟩
  exact bind_eq_ok.mpr ⟨edge.info, hparse, hlater⟩

end DFGSerialization

/-! ## Graphs on the way

A graph is determined by what is written of it. While it is read, each of its lists grows from
nothing, one after the other. -/

/-- The graph with the given entries. -/
def SourcedDFG.of (name : String) (externals : List ExternalValue) (constants : List ConstantValue)
    (entries : List (Node × Option SourceInfo)) (liveOuts : List LiveOut)
    (bindings : List OperandBinding) (edges : List Edge) : SourcedDFG where
  dfg :=
    { name := name
      nodes := entries.map Prod.fst
      edges := edges
      externalValues := externals
      constants := constants
      liveOuts := liveOuts
      externalBindings := bindings
      incomingEdges := DFG.adjacency (entries.map Prod.fst) edges Edge.dst
      outgoingEdges := DFG.adjacency (entries.map Prod.fst) edges Edge.src }
  sources := entries.map Prod.snd

namespace SourcedDFG

variable {graph : SourcedDFG} {name : String} {externals : List ExternalValue}
  {constants : List ConstantValue} {entries : List (Node × Option SourceInfo)}
  {liveOuts : List LiveOut} {bindings : List OperandBinding} {edges : List Edge}

theorem Built.eq_of (h : graph.Built) :
    graph = of graph.dfg.name graph.dfg.externalValues graph.dfg.constants
      graph.entries graph.dfg.liveOuts graph.dfg.externalBindings
      graph.dfg.edges := by
  rw [of, h.map_fst_entries, h.map_snd_entries, ← h.incoming, ← h.outgoing]

/-- No entry before another has its key. -/
theorem find?_fresh {α : Type} {key : α → ℕ} {before after : List α} {a : α}
    (h : ((before ++ a :: after).map key).Nodup) :
    (before.find? fun b ↦ key b == key a).isSome = false := by
  rw [Option.isSome_eq_false_iff, Option.isNone_iff_eq_none, List.find?_eq_none]
  intro b hb
  rw [List.map_append, List.nodup_append] at h
  simpa using h.2.2 _ (List.mem_map_of_mem hb) _ (List.mem_map_of_mem List.mem_cons_self)

theorem appends_external {before after : List ExternalValue} {value : ExternalValue}
    (h : ((before ++ value :: after).map ExternalValue.id).Nodup) :
    (of name before [] [] [] [] []).Appends (.external value)
      (of name (before ++ [value]) [] [] [] [] []) :=
  .external (find?_fresh h)

theorem appends_constant {before after : List ConstantValue} {value : ConstantValue}
    (h : ((before ++ value :: after).map ConstantValue.id).Nodup) :
    (of name externals before [] [] [] []).Appends (.constant value)
      (of name externals (before ++ [value]) [] [] [] []) :=
  .constant (find?_fresh h)

/-- As long as no edge has been read, no node has one. -/
theorem incoming_of_no_edges (id : ℕ) :
    ((of name externals constants entries liveOuts bindings []).dfg.incoming id).getD [] = [] := by
  rw [DFG.incoming]
  rcases List.findIdx? _ _ with _ | index
  · rfl
  · rw [Option.bind_some, of, DFG.adjacency, List.getElem?_map]
    rcases (entries.map Prod.fst)[index]? with _ | node
    · rfl
    · rfl

theorem appends_node {before after : List (Node × Option SourceInfo)}
    {entry : Node × Option SourceInfo}
    (h : ((before ++ entry :: after).map fun entry ↦ entry.1.id).Nodup) :
    (of name externals constants before [] [] []).Appends (.node entry.1 entry.2)
      (of name externals constants (before ++ [entry]) [] [] []) := by
  have hfresh := find?_fresh h
  have hof : of name externals constants (before ++ [entry]) [] [] []
      = ⟨{ (of name externals constants before [] [] []).dfg with
          nodes := before.map Prod.fst ++ [entry.1]
          incomingEdges := (before.map Prod.fst).map (fun _ ↦ []) ++ [[]]
          outgoingEdges := (before.map Prod.fst).map (fun _ ↦ []) ++ [[]] },
        before.map Prod.snd ++ [entry.2]⟩ := by
    simp [of, DFG.adjacency]
  rw [hof]
  refine .node ?_
  rw [DFG.containsNode, DFG.findNode, of, List.find?_map, Option.isSome_map]
  exact hfresh

theorem appends_liveOut {before after : List LiveOut} {value : LiveOut}
    (h : ((before ++ value :: after).map LiveOut.id).Nodup)
    (hsource : (of name externals constants entries before [] []).dfg.containsNode value.source
      = true) :
    (of name externals constants entries before [] []).Appends (.liveOut value)
      (of name externals constants entries (before ++ [value]) [] []) := by
  refine .liveOut ?_ hsource
  have hfresh := find?_fresh h
  rwa [← Bool.not_eq_true, List.find?_isSome, ← List.any_eq_true, Bool.not_eq_true] at hfresh

theorem appends_binding {before after : List OperandBinding} {binding : OperandBinding}
    (h : SortedMap.Sorted DFG.bindingKey (before ++ binding :: after))
    (hbinds : (of name externals constants entries liveOuts before []).dfg.Binds binding) :
    (of name externals constants entries liveOuts before []).Appends (.binding binding)
      (of name externals constants entries liveOuts (before ++ [binding]) []) := by
  have hsorted : SortedMap.Sorted DFG.bindingKey (before ++ [binding]) := by
    rw [SortedMap.Sorted, ← List.singleton_append, ← List.append_assoc, List.map_append,
      List.pairwise_append] at h
    exact h.1
  have hfresh := SortedMap.contains_eq_false_iff.mp h.fresh
  have happends : (of name externals constants entries liveOuts before []).Appends
    (.binding binding)
      (of name externals constants entries liveOuts
        ((before ++ [binding]).insertionSort fun lhs rhs ↦
          DFG.bindingKey lhs ≤ DFG.bindingKey rhs) []) := by
    refine .binding hbinds (List.any_eq_false.mpr fun item hitem hsame ↦ ?_)
    simp only [Bool.and_eq_true, beq_iff_eq] at hsame
    exact hfresh item hitem (DFG.bindingKey_eq_iff.mpr hsame)
  rwa [hsorted.insertionSort_eq (List.Perm.refl _)] at happends

theorem appends_edge {before after : List Edge} {edge : Edge}
    (hnodes : ((entries.map Prod.fst).map Node.id).Nodup)
    (h : ((before ++ edge :: after).map Edge.id).Nodup)
    (hsrc : (of name externals constants entries liveOuts bindings before).dfg.containsNode edge.src
      = true)
    (hdst : (of name externals constants entries liveOuts bindings before).dfg.containsNode edge.dst
      = true) :
    (of name externals constants entries liveOuts bindings before).Appends (.edge edge)
      (of name externals constants entries liveOuts bindings (before ++ [edge])) := by
  have hof : of name externals constants entries liveOuts bindings (before ++ [edge])
      = ⟨{ (of name externals constants entries liveOuts bindings before).dfg with
          edges := before ++ [edge]
          incomingEdges := DFG.cacheEdge (DFG.adjacency (entries.map Prod.fst) before Edge.dst)
            ((entries.map Prod.fst).findIdx? fun node ↦ node.id == edge.dst) edge.id
          outgoingEdges := DFG.cacheEdge (DFG.adjacency (entries.map Prod.fst) before Edge.src)
            ((entries.map Prod.fst).findIdx? fun node ↦ node.id == edge.src) edge.id },
        entries.map Prod.snd⟩ := by
    rw [DFG.cacheEdge_adjacency hnodes, DFG.cacheEdge_adjacency hnodes]
    rfl
  rw [hof]
  exact .edge (find?_fresh h) hsrc hdst

end SourcedDFG

namespace DFGSerialization

variable {graph : SourcedDFG} {builder : DFGBuilder}

/-- One list of a document is read back entry by entry. -/
theorem exists_parseList {α : Type} {l : List α} (write : α → Json) (graphs : List α → SourcedDFG)
    {parse : DFGBuilder → Json → Except String DFGBuilder} {root : Json} {key : String}
    (hfield : root.field? key = some (.arr (l.map write)))
    (hstep : ∀ before a after, l = before ++ a :: after → ∀ builder : DFGBuilder,
      builder.graph = graphs before →
        ∃ later, parse builder (write a) = .ok later ∧ later.graph = graphs (before ++ [a]))
    (hstart : builder.graph = graphs []) :
    ∃ later, parseList root key parse builder = .ok later ∧ later.graph = graphs l := by
  obtain ⟨later, hlater, hgraph⟩ :=
    @exists_foldlM_written _ _ write parse (fun before builder ↦ builder.graph = graphs before) l
      builder hstep hstart
  refine ⟨later, bind_eq_ok.mpr ⟨_, atKey_of_field hfield, ?_⟩, hgraph⟩
  exact bind_eq_ok.mpr ⟨_, getArray_arr _ _, hlater⟩

theorem mem_of_split {α : Type} {l before after : List α} {a : α} (h : l = before ++ a :: after) :
    a ∈ l :=
  h ▸ List.mem_append_right _ List.mem_cons_self

theorem exists_parse_externals (hbuilt : graph.Built) (hfits : graph.dfg.Fits)
    (hstart : builder.graph = .of graph.dfg.name [] [] [] [] [] []) :
    ∃ later, parseList (toJson graph) "external_values" parseExternal builder = .ok later ∧
      later.graph = .of graph.dfg.name graph.dfg.externalValues [] [] [] [] [] := by
  refine exists_parseList externalJson (fun before ↦ .of graph.dfg.name before [] [] [] [] [])
    (by simp [toJson]) ?_ hstart
  intro before value after hl builder hbuilder
  refine parseExternal_externalJson (hfits.externals value (mem_of_split hl)) ?_
  rw [hbuilder]
  exact SourcedDFG.appends_external (hl ▸ hbuilt.externals)

theorem exists_parse_constants (hbuilt : graph.Built) (hfits : graph.dfg.Fits)
    (hstart : builder.graph = .of graph.dfg.name graph.dfg.externalValues [] [] [] [] []) :
    ∃ later, parseList (toJson graph) "constants" parseConstant builder = .ok later ∧
      later.graph = .of graph.dfg.name graph.dfg.externalValues graph.dfg.constants [] [] []
        [] := by
  refine exists_parseList constantJson
    (fun before ↦ .of graph.dfg.name graph.dfg.externalValues before [] [] [] [])
    (by simp [toJson]) ?_ hstart
  intro before value after hl builder hbuilder
  refine parseConstant_constantJson (hfits.constants value (mem_of_split hl)) ?_
  rw [hbuilder]
  exact SourcedDFG.appends_constant (hl ▸ hbuilt.constants)

theorem exists_parse_nodes (hbuilt : graph.Built) (hfits : graph.dfg.Fits)
    (hstart : builder.graph
      = .of graph.dfg.name graph.dfg.externalValues graph.dfg.constants [] [] [] []) :
    ∃ later, parseList (toJson graph) "nodes" parseNode builder = .ok later ∧
      later.graph = .of graph.dfg.name graph.dfg.externalValues graph.dfg.constants
        graph.entries [] [] [] := by
  refine exists_parseList (fun entry ↦ nodeJson entry.1 entry.2)
    (fun before ↦ .of graph.dfg.name graph.dfg.externalValues graph.dfg.constants before [] [] [])
    (by simp [toJson]) ?_ hstart
  intro before entry after hl builder hbuilder
  have hnode : entry.1 ∈ graph.dfg.nodes := (List.of_mem_zip (mem_of_split hl)).1
  refine parseNode_nodeJson (hfits.nodes entry.1 hnode) ?_
  have hids : ((before ++ entry :: after).map fun entry ↦ entry.1.id).Nodup := by
    rw [← hl]
    change (graph.entries.map (Node.id ∘ Prod.fst)).Nodup
    rw [← List.map_map, hbuilt.map_fst_entries]
    exact hbuilt.nodes
  rw [hbuilder]
  exact SourcedDFG.appends_node hids

theorem exists_parse_liveOuts (hbuilt : graph.Built) (hfits : graph.dfg.Fits)
    (hstart : builder.graph = .of graph.dfg.name graph.dfg.externalValues graph.dfg.constants
      graph.entries [] [] []) :
    ∃ later, parseLiveOuts (toJson graph) builder = .ok later ∧
      later.graph = .of graph.dfg.name graph.dfg.externalValues graph.dfg.constants
        graph.entries graph.dfg.liveOuts [] [] := by
  have hfield : (toJson graph).field? "live_outs"
      = some (.arr (graph.dfg.liveOuts.map liveOutJson)) := by
    simp [toJson]
  obtain ⟨later, hlater, hgraph⟩ := @exists_foldlM_written _ _ liveOutJson parseLiveOut
    (fun before builder ↦ builder.graph = .of graph.dfg.name graph.dfg.externalValues
      graph.dfg.constants graph.entries before [] [])
    graph.dfg.liveOuts builder
    (fun before value after hl builder hbuilder ↦ by
      have hsource := hbuilt.sourced value (mem_of_split hl)
      refine parseLiveOut_liveOutJson (hfits.liveOuts value (mem_of_split hl)) ?_
      rw [hbuilder]
      rw [hbuilt.eq_of] at hsource
      exact SourcedDFG.appends_liveOut (hl ▸ hbuilt.liveOuts) hsource) hstart
  refine ⟨later, ?_, hgraph⟩
  rw [parseLiveOuts, hfield, Option.getD_some]
  exact bind_eq_ok.mpr ⟨_, getArray_arr _ _, hlater⟩

theorem exists_parse_bindings (hbuilt : graph.Built) (hfits : graph.dfg.Fits)
    (hstart : builder.graph = .of graph.dfg.name graph.dfg.externalValues graph.dfg.constants
      graph.entries graph.dfg.liveOuts [] []) :
    ∃ later, parseList (toJson graph) "external_bindings" parseBinding builder = .ok later ∧
      later.graph = .of graph.dfg.name graph.dfg.externalValues graph.dfg.constants
        graph.entries graph.dfg.liveOuts graph.dfg.externalBindings [] := by
  refine exists_parseList bindingJson
    (fun before ↦ .of graph.dfg.name graph.dfg.externalValues graph.dfg.constants
      graph.entries graph.dfg.liveOuts before []) (by simp [toJson]) ?_ hstart
  intro before binding after hl builder hbuilder
  have hbinds := hbuilt.binds binding (mem_of_split hl)
  rw [hbuilt.eq_of] at hbinds
  refine parseBinding_bindingJson (hfits.bindings binding (mem_of_split hl)) ?_ ?_
  · rw [hbuilder]
    exact SourcedDFG.incoming_of_no_edges _
  · rw [hbuilder]
    exact SourcedDFG.appends_binding (hl ▸ hbuilt.bindings) hbinds

theorem exists_parse_edges (hbuilt : graph.Built) (hfits : graph.dfg.Fits)
    (hstart : builder.graph = .of graph.dfg.name graph.dfg.externalValues graph.dfg.constants
      graph.entries graph.dfg.liveOuts graph.dfg.externalBindings []) :
    ∃ later, parseList (toJson graph) "edges" parseEdge builder = .ok later ∧
      later.graph = graph := by
  rw [hbuilt.eq_of]
  refine exists_parseList edgeJson
    (fun before ↦ .of graph.dfg.name graph.dfg.externalValues graph.dfg.constants
      graph.entries graph.dfg.liveOuts graph.dfg.externalBindings before)
    ?_ ?_ hstart
  · simp [toJson, SourcedDFG.of]
  intro before edge after hl builder hbuilder
  obtain ⟨hsrc, hdst⟩ := hbuilt.endpoints edge (mem_of_split hl)
  rw [hbuilt.eq_of] at hsrc hdst
  refine parseEdge_edgeJson (hfits.edges edge (mem_of_split hl)) ?_
  rw [hbuilder]
  refine SourcedDFG.appends_edge ?_ (hl ▸ hbuilt.edges) hsrc hdst
  rw [hbuilt.map_fst_entries]
  exact hbuilt.nodes

/-- **A graph is read back** when a builder could have made it and its numbers fit. -/
theorem parse_toJson (hbuilt : graph.Built) (hfits : graph.dfg.Fits) :
    parse (toJson graph) = .ok graph := by
  refine bind_eq_ok.mpr ⟨(), checkSchema_of_field rfl (by simp [toJson]), ?_⟩
  refine bind_eq_ok.mpr ⟨graph.dfg.name, required_string (by simp [toJson]), ?_⟩
  obtain ⟨first, hfirst, hstart⟩ :=
    @exists_parse_externals graph (.create graph.dfg.name) hbuilt hfits rfl
  obtain ⟨second, hsecond, hstart⟩ := exists_parse_constants hbuilt hfits hstart
  obtain ⟨third, hthird, hstart⟩ := exists_parse_nodes hbuilt hfits hstart
  obtain ⟨fourth, hfourth, hstart⟩ := exists_parse_liveOuts hbuilt hfits hstart
  obtain ⟨fifth, hfifth, hstart⟩ := exists_parse_bindings hbuilt hfits hstart
  obtain ⟨sixth, hsixth, hgraph⟩ := exists_parse_edges hbuilt hfits hstart
  refine bind_eq_ok.mpr ⟨first, hfirst, ?_⟩
  refine bind_eq_ok.mpr ⟨second, hsecond, ?_⟩
  refine bind_eq_ok.mpr ⟨third, hthird, ?_⟩
  refine bind_eq_ok.mpr ⟨fourth, hfourth, ?_⟩
  refine bind_eq_ok.mpr ⟨fifth, hfifth, ?_⟩
  exact bind_eq_ok.mpr ⟨sixth, hsixth, congrArg Except.ok hgraph⟩

end DFGSerialization

/-! ## What is read

Every record that is read is an entry that fits, and the builder has appended it. -/

theorem SourcedDFG.Appends.fits {graph later : SourcedDFG} {entry : DFGEntry}
    (h : graph.Appends entry later) (hentry : entry.Fits) (hfits : graph.dfg.Fits) :
    later.dfg.Fits := by
  have hmem {α : Type} {P : α → Prop} {l : List α} {a : α} (hl : ∀ b ∈ l, P b) (ha : P a) :
      ∀ b ∈ l ++ [a], P b := by
    intro b hb
    rcases List.mem_append.mp hb with hb | hb
    · exact hl b hb
    · exact List.mem_singleton.mp hb ▸ ha
  rcases h with _ | _ | _ | _ | _ | _
  · exact { hfits with nodes := hmem hfits.nodes hentry }
  · exact { hfits with externals := hmem hfits.externals hentry }
  · exact { hfits with constants := hmem hfits.constants hentry }
  · exact { hfits with liveOuts := hmem hfits.liveOuts hentry }
  · exact { hfits with edges := hmem hfits.edges hentry }
  · exact { hfits with
      bindings := fun b hb ↦ hmem hfits.bindings hentry b ((List.mem_insertionSort _).mp hb) }

namespace DFGSerialization

variable {builder later : DFGBuilder} {value : Json}

/-- A step of the reader. -/
def Takes (builder later : DFGBuilder) : Prop :=
  ∃ entry : DFGEntry, entry.Fits ∧ builder.graph.Appends entry later.graph

theorem lt_of_field {context key : String} {n : ℕ}
    (h : required context (getUnsigned 32) value key = .ok n) : n < 2 ^ 32 :=
  lt_of_required (by decide) h

theorem takes_of_parseExternal (h : parseExternal builder value = .ok later) :
    Takes builder later := by
  obtain ⟨id, hid, h⟩ := bind_eq_ok.mp h
  obtain ⟨typeValue, -, h⟩ := bind_eq_ok.mp h
  obtain ⟨type, htype, h⟩ := bind_eq_ok.mp h
  obtain ⟨name, -, h⟩ := bind_eq_ok.mp h
  exact ⟨.external ⟨id, type, name⟩, ⟨lt_of_field hid, fits_of_parseType htype⟩,
    DFGBuilder.importExternal_iff.mp ⟨later, h, rfl⟩⟩

theorem takes_of_parseConstant (h : parseConstant builder value = .ok later) :
    Takes builder later := by
  obtain ⟨id, hid, h⟩ := bind_eq_ok.mp h
  obtain ⟨typeValue, -, h⟩ := bind_eq_ok.mp h
  obtain ⟨type, htype, h⟩ := bind_eq_ok.mp h
  obtain ⟨bits, hbits, h⟩ := bind_eq_ok.mp h
  exact ⟨.constant ⟨id, type, bits⟩,
    ⟨lt_of_field hid, fits_of_parseType htype, lt_of_required (by decide) hbits⟩,
    DFGBuilder.importConstant_iff.mp ⟨later, h, rfl⟩⟩

theorem width_of_parseMemoryInfo {info : MemoryOpInfo} (h : parseMemoryInfo value = .ok info) :
    info.accessWidthBits < 2 ^ 32 := by
  obtain ⟨width, hwidth, h⟩ := bind_eq_ok.mp h
  obtain ⟨isVolatile, -, h⟩ := bind_eq_ok.mp h
  obtain rfl := Except.ok.inj h
  exact lt_of_field hwidth

theorem takes_of_parseNode (h : parseNode builder value = .ok later) : Takes builder later := by
  obtain ⟨id, hid, h⟩ := bind_eq_ok.mp h
  obtain ⟨operandValues, -, h⟩ := bind_eq_ok.mp h
  obtain ⟨operandTypes, hoperands, h⟩ := bind_eq_ok.mp h
  obtain ⟨predicate, -, h⟩ := bind_eq_ok.mp h
  obtain ⟨memory, hmemory, h⟩ := bind_eq_ok.mp h
  obtain ⟨source, -, h⟩ := bind_eq_ok.mp h
  obtain ⟨opcodeName, -, h⟩ := bind_eq_ok.mp h
  obtain ⟨opcode, -, h⟩ := bind_eq_ok.mp h
  obtain ⟨resultValue, -, h⟩ := bind_eq_ok.mp h
  obtain ⟨resultType, hresult, h⟩ := bind_eq_ok.mp h
  refine ⟨.node ⟨id, opcode, resultType, operandTypes, predicate, memory⟩ source,
    ⟨lt_of_field hid, fits_of_parseType hresult, fun type htype ↦ ?_, fun info hinfo ↦ ?_⟩,
    DFGBuilder.importNode_iff.mp ⟨later, h, rfl⟩⟩
  · obtain ⟨operandValue, -, hparse⟩ := exists_source_of_mem hoperands htype
    exact fits_of_parseType hparse
  · obtain rfl : memory = some info := hinfo
    obtain ⟨memoryValue, hparse⟩ := exists_of_optional hmemory
    exact width_of_parseMemoryInfo hparse

theorem takes_of_parseLiveOut (h : parseLiveOut builder value = .ok later) :
    Takes builder later := by
  obtain ⟨id, hid, h⟩ := bind_eq_ok.mp h
  obtain ⟨typeValue, -, h⟩ := bind_eq_ok.mp h
  obtain ⟨type, htype, h⟩ := bind_eq_ok.mp h
  obtain ⟨name, -, h⟩ := bind_eq_ok.mp h
  obtain ⟨node, hnode, h⟩ := bind_eq_ok.mp h
  exact ⟨.liveOut ⟨id, type, name, node⟩,
    ⟨lt_of_field hid, fits_of_parseType htype, lt_of_field hnode⟩,
    DFGBuilder.importLiveOut_iff.mp ⟨later, h, rfl⟩⟩

theorem takes_of_parseBinding (h : parseBinding builder value = .ok later) :
    Takes builder later := by
  obtain ⟨node, hnode, h⟩ := bind_eq_ok.mp h
  obtain ⟨operand, hoperand, h⟩ := bind_eq_ok.mp h
  split_ifs at h
  · obtain ⟨external, hexternal, h⟩ := bind_eq_ok.mp h
    exact ⟨.binding ⟨node, operand, .externalValueRef external⟩,
      ⟨lt_of_field hnode, lt_of_field hoperand, lt_of_field hexternal⟩,
      DFGBuilder.appends_of_bindExternal h⟩
  · obtain ⟨constant, hconstant, h⟩ := bind_eq_ok.mp h
    exact ⟨.binding ⟨node, operand, .constantRef constant⟩,
      ⟨lt_of_field hnode, lt_of_field hoperand, lt_of_field hconstant⟩,
      DFGBuilder.appends_of_bindConstant h⟩

theorem fits_of_parseBoundaryValue {listed : RecurrenceBoundaryValue}
    (h : parseBoundaryValue value = .ok listed) :
    listed.iterationOffset < 2 ^ 32 ∧ listed.value.Fits := by
  obtain ⟨offset, hoffset, h⟩ := bind_eq_ok.mp h
  split_ifs at h
  · obtain ⟨external, hexternal, h⟩ := bind_eq_ok.mp h
    obtain rfl := Except.ok.inj h
    exact ⟨lt_of_field hoffset, lt_of_field hexternal⟩
  · obtain ⟨constant, hconstant, h⟩ := bind_eq_ok.mp h
    obtain rfl := Except.ok.inj h
    exact ⟨lt_of_field hoffset, lt_of_field hconstant⟩

theorem fits_of_parseBoundary {boundary : Option RecurrenceBoundary}
    (h : parseBoundary value = .ok boundary) : ∀ b, boundary = some b → b.Fits := by
  rintro listed rfl
  rw [parseBoundary] at h
  split at h
  · cases h
  · obtain ⟨items, -, h⟩ := bind_eq_ok.mp h
    obtain ⟨values, hvalues, h⟩ := bind_eq_ok.mp h
    obtain rfl := Option.some.inj (Except.ok.inj h)
    intro entry hentry
    obtain ⟨item, -, hparse⟩ := exists_source_of_mem hvalues hentry
    exact fits_of_parseBoundaryValue hparse

theorem fits_of_parseInfo {kind : String} {info : EdgeInfo} (h : parseInfo value kind = .ok info) :
    info.Fits := by
  rw [parseInfo] at h
  split_ifs at h
  · obtain ⟨operand, hoperand, h⟩ := bind_eq_ok.mp h
    obtain ⟨boundary, hboundary, h⟩ := bind_eq_ok.mp h
    obtain rfl := Except.ok.inj h
    refine ⟨fun other hother ↦ ?_, fits_of_parseBoundary hboundary⟩
    obtain rfl := Option.some.inj hother
    exact lt_of_field hoperand
  · obtain ⟨operand, hoperand, h⟩ := bind_eq_ok.mp h
    obtain ⟨boundary, hboundary, h⟩ := bind_eq_ok.mp h
    obtain rfl := Except.ok.inj h
    refine ⟨fun other hother ↦ ?_, fits_of_parseBoundary hboundary⟩
    obtain rfl := Option.some.inj hother
    exact lt_of_field hoperand
  · obtain ⟨name, -, h⟩ := bind_eq_ok.mp h
    obtain ⟨dependence, -, h⟩ := bind_eq_ok.mp h
    obtain rfl := Except.ok.inj h
    refine ⟨fun other hother ↦ ?_, fun other hother ↦ ?_⟩
    · cases hother
    · cases hother

theorem takes_of_parseEdge (h : parseEdge builder value = .ok later) : Takes builder later := by
  obtain ⟨id, hid, h⟩ := bind_eq_ok.mp h
  obtain ⟨src, hsrc, h⟩ := bind_eq_ok.mp h
  obtain ⟨dst, hdst, h⟩ := bind_eq_ok.mp h
  obtain ⟨distance, hdistance, h⟩ := bind_eq_ok.mp h
  obtain ⟨kind, -, h⟩ := bind_eq_ok.mp h
  obtain ⟨info, hinfo, h⟩ := bind_eq_ok.mp h
  exact ⟨.edge ⟨id, src, dst, distance, info⟩,
    ⟨lt_of_field hid, lt_of_field hsrc, lt_of_field hdst, lt_of_field hdistance,
      fits_of_parseInfo hinfo⟩,
    DFGBuilder.importEdge_iff.mp ⟨later, h, rfl⟩⟩

/-- A builder whose graph is in order and whose numbers fit. -/
def Sound (builder : DFGBuilder) : Prop := builder.graph.Built ∧ builder.graph.dfg.Fits

/-- Reading a list keeps the graph in order. -/
theorem sound_of_foldlM {parse : DFGBuilder → Json → Except String DFGBuilder} {items : List Json}
    (hstep : ∀ {builder later : DFGBuilder} {value : Json}, parse builder value = .ok later →
      Takes builder later)
    (h : items.foldlM parse builder = .ok later) (hsound : Sound builder) : Sound later := by
  refine foldlM_invariant (fun first second value _ hfirst hparse ↦ ?_) hsound h
  obtain ⟨entry, hentry, happends⟩ := hstep hparse
  exact ⟨hfirst.1.append happends, happends.fits hentry hfirst.2⟩

theorem sound_of_parseList {parse : DFGBuilder → Json → Except String DFGBuilder} {root : Json}
    {key : String}
    (hstep : ∀ {builder later : DFGBuilder} {value : Json}, parse builder value = .ok later →
      Takes builder later)
    (h : parseList root key parse builder = .ok later) (hsound : Sound builder) : Sound later := by
  obtain ⟨value, -, h⟩ := bind_eq_ok.mp h
  obtain ⟨items, -, h⟩ := bind_eq_ok.mp h
  exact sound_of_foldlM hstep h hsound

/-- **Whatever is read could have been built,** and its numbers fit. -/
theorem sound_of_parse {root : Json} {graph : SourcedDFG} (h : parse root = .ok graph) :
    graph.Built ∧ graph.dfg.Fits := by
  obtain ⟨⟨⟩, -, h⟩ := bind_eq_ok.mp h
  obtain ⟨name, -, h⟩ := bind_eq_ok.mp h
  obtain ⟨first, hfirst, h⟩ := bind_eq_ok.mp h
  obtain ⟨second, hsecond, h⟩ := bind_eq_ok.mp h
  obtain ⟨third, hthird, h⟩ := bind_eq_ok.mp h
  obtain ⟨fourth, hfourth, h⟩ := bind_eq_ok.mp h
  obtain ⟨fifth, hfifth, h⟩ := bind_eq_ok.mp h
  obtain ⟨sixth, hsixth, h⟩ := bind_eq_ok.mp h
  obtain rfl := Except.ok.inj h
  have hempty : Sound (.create name) :=
    ⟨SourcedDFG.built_empty name, ⟨List.forall_mem_nil _, List.forall_mem_nil _,
      List.forall_mem_nil _, List.forall_mem_nil _, List.forall_mem_nil _, List.forall_mem_nil _⟩⟩
  have hsound := sound_of_parseList takes_of_parseExternal hfirst hempty
  have hsound := sound_of_parseList takes_of_parseConstant hsecond hsound
  have hsound := sound_of_parseList takes_of_parseNode hthird hsound
  obtain ⟨items, -, hfourth⟩ := bind_eq_ok.mp hfourth
  have hsound := sound_of_foldlM takes_of_parseLiveOut hfourth hsound
  have hsound := sound_of_parseList takes_of_parseBinding hfifth hsound
  exact sound_of_parseList takes_of_parseEdge hsixth hsound

end DFGSerialization

/-! ## Accepted graphs

The lists the verifier goes through are those of a builder, as long as each node has its label and
its two lists, and the bindings are in order. -/

/-- Each node has a label and two lists of edges, and the bindings are sorted. -/
structure SourcedDFG.Aligned (graph : SourcedDFG) : Prop where
  sources : graph.sources.length = graph.dfg.nodes.length
  incoming : graph.dfg.incomingEdges.length = graph.dfg.nodes.length
  outgoing : graph.dfg.outgoingEdges.length = graph.dfg.nodes.length
  bindings : SortedMap.Sorted DFG.bindingKey graph.dfg.externalBindings

namespace DFGVerifier

variable {dfg : DFG}

theorem isSome_providedType (source : ExternalOperandBinding) :
    (providedType dfg source).isSome = dfg.provides source := by
  rcases source with value | value
  · exact Option.isSome_map
  · exact Option.isSome_map

/-- The cached lists are the adjacency when each of them is checked. -/
theorem eq_adjacency_of_verifyCached {cached : List (List ℕ)} {endpoint : Edge → ℕ}
    {direction : String} (hnodup : (dfg.nodes.map Node.id).Nodup)
    (hlength : cached.length = dfg.nodes.length)
    (h : ∀ node ∈ dfg.nodeIds, verifyCached direction
      ((dfg.nodes.findIdx? fun found ↦ found.id == node).bind fun index ↦ cached[index]?)
      ((dfg.edges.filter fun edge ↦ endpoint edge == node).map Edge.id) node = []) :
    cached = DFG.adjacency dfg.nodes dfg.edges endpoint := by
  refine List.ext_getElem (by rw [hlength, DFG.adjacency, List.length_map]) fun i hi hi' ↦ ?_
  have hlt : i < dfg.nodes.length := hlength ▸ hi
  have hmem : dfg.nodes[i].id ∈ dfg.nodeIds := by
    rw [DFG.nodeIds, List.mem_insertionSort, List.mem_dedup]
    exact List.mem_map_of_mem (List.getElem_mem hlt)
  have hindex : (dfg.nodes.findIdx? fun found ↦ found.id == dfg.nodes[i].id) = some i := by
    rw [List.findIdx?_eq_some_iff_getElem]
    refine ⟨hlt, beq_self_eq_true _, fun j hj ↦ ?_⟩
    have hjlt : j < dfg.nodes.length := by omega
    rw [beq_iff_eq]
    intro heq
    have hkeys : (dfg.nodes.map Node.id)[j]? = (dfg.nodes.map Node.id)[i]? := by
      simp [heq, hlt, hjlt]
    have hsame := (List.getElem?_inj (by simpa using hjlt) hnodup).mp hkeys
    omega
  have hchecked := h _ hmem
  rw [hindex, Option.bind_some, List.getElem?_eq_getElem hi, verifyCached,
    require_eq_nil_iff, beq_iff_eq] at hchecked
  rw [hchecked]
  simp [DFG.adjacency]

/-- **An accepted graph could have been built.** -/
theorem built_of_verify {graph : SourcedDFG} (h : verify graph.dfg = [])
    (haligned : graph.Aligned) : graph.Built := by
  have hverified := verified_of_verify h
  have hcontains {id : ℕ} {node : Node} (hnode : graph.dfg.findNode id = some node) :
      graph.dfg.containsNode id = true := by
    rw [DFG.containsNode, hnode, Option.isSome_some]
  simp only [verify, verifyAdjacency, List.append_eq_nil_iff, List.flatMap_eq_nil_iff] at h
  obtain ⟨-, ⟨-, hincoming⟩, houtgoing⟩ := h
  refine ⟨haligned.sources, hverified.nodup_nodes, hverified.nodup_externals,
    hverified.nodup_constants, hverified.nodup_liveOuts, hverified.nodup_edges, haligned.bindings,
    fun binding hmem ↦ ?_, fun liveOut hmem ↦ ?_, fun edge hmem ↦ ?_, ?_, ?_⟩
  · obtain ⟨node, type, hnode, htype, hprovided⟩ := hverified.binding binding hmem
    refine ⟨⟨node, hnode, (List.getElem?_eq_some_iff.mp htype).1⟩, ?_⟩
    rw [← isSome_providedType, hprovided, Option.isSome_some]
  · obtain ⟨node, hnode, -⟩ := hverified.liveOut liveOut hmem
    exact hcontains hnode
  · obtain ⟨source, destination, hsource, hdestination, -⟩ := hverified.edge edge hmem
    exact ⟨hcontains hsource, hcontains hdestination⟩
  · exact eq_adjacency_of_verifyCached hverified.nodup_nodes haligned.incoming hincoming
  · exact eq_adjacency_of_verifyCached hverified.nodup_nodes haligned.outgoing houtgoing

end DFGVerifier

namespace DFGSerialization

/-- **Reading undoes writing exactly for the graphs a builder leaves,** as far as their numbers fit.
Whatever is read, from any document, is such a graph, and so is every graph that is accepted and
kept the way graphs are kept. -/
theorem parse_toJson_eq_self_iff (graph : SourcedDFG) :
    (parse (toJson graph) = .ok graph ↔ graph.Built ∧ graph.dfg.Fits) ∧
      (∀ document : Json, parse document = .ok graph → graph.Built ∧ graph.dfg.Fits) ∧
      (DFGVerifier.verify graph.dfg = [] → graph.Aligned → graph.Built) :=
  ⟨⟨sound_of_parse, fun h ↦ parse_toJson h.1 h.2⟩, fun _ h ↦ sound_of_parse h,
    DFGVerifier.built_of_verify⟩

end DFGSerialization

end PredicatedMesh
