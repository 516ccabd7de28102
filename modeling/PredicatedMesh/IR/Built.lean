import PredicatedMesh.IR.DFGBuilder

/-!
# What a builder leaves

Every operation of the builder keeps the graph in order: ids are used once, references reach
something, bindings are sorted, and the cached adjacency of a node lists the edges at it. This is
`SourcedDFG.Built`. It holds of the empty graph, so it holds of every graph a builder can ever
return, in whatever order its operations were called.

Each operation appends one entry, and `SourcedDFG.Appends` says what that does and when it can be
done. The builder does not look at the types and numbers it appends: whatever holds of the entries
it was given holds of the entries of the graph.
-/

namespace PredicatedMesh

open Scan

namespace DFG

/-! ## References -/

/-- What the operand of a node can be bound to. -/
def provides (dfg : DFG) : ExternalOperandBinding → Bool
  | .externalValueRef value => (dfg.findExternal value).isSome
  | .constantRef value => (dfg.findConstant value).isSome

/-- A binding that reaches an operand and a value. -/
def Binds (dfg : DFG) (binding : OperandBinding) : Prop :=
  (∃ node, dfg.findNode binding.node = some node ∧ binding.operand < node.operandTypes.length) ∧
    dfg.provides binding.source = true

/-- The ids of the edges at each node, on one side. -/
def adjacency (nodes : List Node) (edges : List Edge) (endpoint : Edge → ℕ) : List (List ℕ) :=
  nodes.map fun node ↦ (edges.filter fun edge ↦ endpoint edge == node.id).map Edge.id

end DFG

/-- A graph that a builder put together. -/
structure SourcedDFG.Built (graph : SourcedDFG) : Prop where
  sources : graph.sources.length = graph.dfg.nodes.length
  nodes : (graph.dfg.nodes.map Node.id).Nodup
  externals : (graph.dfg.externalValues.map ExternalValue.id).Nodup
  constants : (graph.dfg.constants.map ConstantValue.id).Nodup
  liveOuts : (graph.dfg.liveOuts.map LiveOut.id).Nodup
  edges : (graph.dfg.edges.map Edge.id).Nodup
  bindings : SortedMap.Sorted DFG.bindingKey graph.dfg.externalBindings
  binds : ∀ binding ∈ graph.dfg.externalBindings, graph.dfg.Binds binding
  sourced : ∀ liveOut ∈ graph.dfg.liveOuts, graph.dfg.containsNode liveOut.source = true
  endpoints : ∀ edge ∈ graph.dfg.edges,
    graph.dfg.containsNode edge.src = true ∧ graph.dfg.containsNode edge.dst = true
  incoming : graph.dfg.incomingEdges = DFG.adjacency graph.dfg.nodes graph.dfg.edges Edge.dst
  outgoing : graph.dfg.outgoingEdges = DFG.adjacency graph.dfg.nodes graph.dfg.edges Edge.src

namespace SourcedDFG

variable {graph : SourcedDFG}

theorem Built.map_fst_entries (h : graph.Built) : graph.entries.map Prod.fst = graph.dfg.nodes :=
  List.map_fst_zip h.sources.ge

theorem Built.map_snd_entries (h : graph.Built) : graph.entries.map Prod.snd = graph.sources :=
  List.map_snd_zip h.sources.le

end SourcedDFG

/-! ## The adjacency of a longer graph -/

namespace DFG

variable {dfg : DFG}

theorem bindingKey_eq_iff {first second : OperandBinding} :
    bindingKey first = bindingKey second
      ↔ first.node = second.node ∧ first.operand = second.operand := by
  rw [bindingKey, bindingKey, toLex_inj, Prod.mk.injEq]

/-- A node no edge touches has no edges. -/
theorem adjacency_append_node {nodes : List Node} {edges : List Edge} {endpoint : Edge → ℕ}
    {node : Node} (h : ∀ edge ∈ edges, endpoint edge ≠ node.id) :
    adjacency (nodes ++ [node]) edges endpoint = adjacency nodes edges endpoint ++ [[]] := by
  have hnone : (edges.filter fun edge ↦ endpoint edge == node.id) = [] := by
    rw [List.filter_eq_nil_iff]
    exact fun edge hedge ↦ by simpa using h edge hedge
  rw [adjacency, List.map_append, List.map_singleton, hnone, List.map_nil, adjacency]

/-- **A new edge goes into the list of its node,** and into no other. -/
theorem cacheEdge_adjacency {nodes : List Node} (hnodup : (nodes.map Node.id).Nodup)
    (edges : List Edge) (endpoint : Edge → ℕ) (edge : Edge) :
    cacheEdge (adjacency nodes edges endpoint)
        (nodes.findIdx? fun node ↦ node.id == endpoint edge) edge.id
      = adjacency nodes (edges ++ [edge]) endpoint := by
  have hlist : ∀ node : Node,
      ((edges ++ [edge]).filter fun edge ↦ endpoint edge == node.id).map Edge.id
      = if node.id = endpoint edge then
          ((edges.filter fun edge ↦ endpoint edge == node.id).map Edge.id) ++ [edge.id]
        else (edges.filter fun edge ↦ endpoint edge == node.id).map Edge.id := by
    intro node
    rw [List.filter_append, List.map_append]
    by_cases hid : node.id = endpoint edge
    · rw [if_pos hid, List.filter_cons_of_pos (by simp [hid])]
      rfl
    · rw [if_neg hid, List.filter_cons_of_neg (by simpa using Ne.symm hid)]
      exact List.append_nil _
  rw [adjacency, adjacency, List.map_congr_left fun node _ ↦ hlist node]
  rcases hindex : nodes.findIdx? fun node ↦ node.id == endpoint edge with _ | index
  · -- No node has the id, so no list changes.
    rw [hindex, cacheEdge.eq_def]
    refine List.map_congr_left fun node hnode ↦ ?_
    have hid := List.findIdx?_eq_none_iff.mp hindex node hnode
    rw [if_neg (by simpa using hid)]
  · obtain ⟨hlt, hid, -⟩ := List.findIdx?_eq_some_iff_getElem.mp hindex
    rw [hindex, cacheEdge.eq_def]
    refine List.ext_getElem (by simp) fun i hi hi' ↦ ?_
    rw [List.length_map] at hi'
    rw [List.getElem_modify, List.getElem_map, List.getElem_map]
    by_cases heq : index = i
    · subst heq
      rw [if_pos rfl, if_pos (by simpa using hid)]
    · rw [if_neg heq, if_neg]
      intro hother
      -- Ids are used once, so the node is at one position only.
      have hkeys : (nodes.map Node.id)[index]? = (nodes.map Node.id)[i]? := by
        rw [List.getElem?_map, List.getElem?_map, List.getElem?_eq_getElem hlt,
          List.getElem?_eq_getElem hi', Option.map_some, Option.map_some, hother]
        exact congrArg some (by simpa using hid)
      exact heq ((List.getElem?_inj (by simpa using hlt) hnodup).mp hkeys)

end DFG

/-! ## Appending an entry -/

inductive DFGEntry
  | node (node : Node) (source : Option SourceInfo)
  | external (value : ExternalValue)
  | constant (value : ConstantValue)
  | liveOut (value : LiveOut)
  | edge (edge : Edge)
  | binding (binding : OperandBinding)

/-- The graph with one more entry, which fits in with those that are there. -/
inductive SourcedDFG.Appends (graph : SourcedDFG) : DFGEntry → SourcedDFG → Prop
  | node {node : Node} {source : Option SourceInfo}
      (fresh : graph.dfg.containsNode node.id = false) :
      Appends graph (.node node source) ⟨{ graph.dfg with
        nodes := graph.dfg.nodes ++ [node]
        incomingEdges := graph.dfg.incomingEdges ++ [[]]
        outgoingEdges := graph.dfg.outgoingEdges ++ [[]] }, graph.sources ++ [source]⟩
  | external {value : ExternalValue} (fresh : (graph.dfg.findExternal value.id).isSome = false) :
      Appends graph (.external value) ⟨{ graph.dfg with
        externalValues := graph.dfg.externalValues ++ [value] }, graph.sources⟩
  | constant {value : ConstantValue} (fresh : (graph.dfg.findConstant value.id).isSome = false) :
      Appends graph (.constant value) ⟨{ graph.dfg with
        constants := graph.dfg.constants ++ [value] }, graph.sources⟩
  | liveOut {value : LiveOut}
      (fresh : (graph.dfg.liveOuts.any fun liveOut ↦ liveOut.id == value.id) = false)
      (sourced : graph.dfg.containsNode value.source = true) :
      Appends graph (.liveOut value) ⟨{ graph.dfg with
        liveOuts := graph.dfg.liveOuts ++ [value] }, graph.sources⟩
  | edge {edge : Edge} (fresh : (graph.dfg.findEdge edge.id).isSome = false)
      (src : graph.dfg.containsNode edge.src = true)
      (dst : graph.dfg.containsNode edge.dst = true) :
      Appends graph (.edge edge) ⟨{ graph.dfg with
        edges := graph.dfg.edges ++ [edge]
        incomingEdges := DFG.cacheEdge graph.dfg.incomingEdges (graph.dfg.nodeIndex edge.dst)
          edge.id
        outgoingEdges := DFG.cacheEdge graph.dfg.outgoingEdges (graph.dfg.nodeIndex edge.src)
          edge.id }, graph.sources⟩
  | binding {binding : OperandBinding} (binds : graph.dfg.Binds binding)
      (fresh : (graph.dfg.externalBindings.any fun item ↦
        item.node == binding.node && item.operand == binding.operand) = false) :
      Appends graph (.binding binding) ⟨{ graph.dfg with
        externalBindings := (graph.dfg.externalBindings ++ [binding]).insertionSort fun lhs rhs ↦
          DFG.bindingKey lhs ≤ DFG.bindingKey rhs }, graph.sources⟩

/-! ## Nothing is lost -/

namespace DFG

variable {dfg later : DFG}

/-- What a longer graph still has. -/
structure Extends (later dfg : DFG) : Prop where
  nodes : dfg.nodes <+: later.nodes
  externals : dfg.externalValues <+: later.externalValues
  constants : dfg.constants <+: later.constants

theorem find?_of_prefix {α : Type} {p : α → Bool} {l m : List α} {a : α} (h : l <+: m)
    (hfind : l.find? p = some a) : m.find? p = some a := by
  obtain ⟨rest, rfl⟩ := h
  rw [List.find?_append, hfind, Option.some_or]

theorem Extends.containsNode (h : later.Extends dfg) {id : ℕ}
    (hcontains : dfg.containsNode id = true) : later.containsNode id = true := by
  rw [DFG.containsNode_iff] at hcontains ⊢
  obtain ⟨node, hnode, hid⟩ := hcontains
  exact ⟨node, h.nodes.subset hnode, hid⟩

theorem Extends.provides (h : later.Extends dfg) {source : ExternalOperandBinding}
    (hprovides : dfg.provides source = true) : later.provides source = true := by
  rcases source with value | value
  · obtain ⟨external, hexternal⟩ := Option.isSome_iff_exists.mp hprovides
    exact Option.isSome_iff_exists.mpr ⟨external, find?_of_prefix h.externals hexternal⟩
  · obtain ⟨constant, hconstant⟩ := Option.isSome_iff_exists.mp hprovides
    exact Option.isSome_iff_exists.mpr ⟨constant, find?_of_prefix h.constants hconstant⟩

theorem Extends.binds (h : later.Extends dfg) {binding : OperandBinding}
    (hbinds : dfg.Binds binding) : later.Binds binding := by
  obtain ⟨⟨node, hnode, hoperand⟩, hprovides⟩ := hbinds
  exact ⟨⟨node, find?_of_prefix h.nodes hnode, hoperand⟩, h.provides hprovides⟩

end DFG

/-! ## The invariant -/

namespace SourcedDFG

variable {graph later : SourcedDFG} {entry : DFGEntry}

theorem built_empty (name : String) : Built ⟨.empty name, []⟩ where
  sources := rfl
  nodes := List.nodup_nil
  externals := List.nodup_nil
  constants := List.nodup_nil
  liveOuts := List.nodup_nil
  edges := List.nodup_nil
  bindings := List.Pairwise.nil
  binds := List.forall_mem_nil _
  sourced := List.forall_mem_nil _
  endpoints := List.forall_mem_nil _
  incoming := rfl
  outgoing := rfl

theorem Appends.extends (h : graph.Appends entry later) : later.dfg.Extends graph.dfg := by
  rcases h with _ | _ | _ | _ | _ | _
  · exact ⟨List.prefix_append _ _, List.prefix_rfl, List.prefix_rfl⟩
  · exact ⟨List.prefix_rfl, List.prefix_append _ _, List.prefix_rfl⟩
  · exact ⟨List.prefix_rfl, List.prefix_rfl, List.prefix_append _ _⟩
  · exact ⟨List.prefix_rfl, List.prefix_rfl, List.prefix_rfl⟩
  · exact ⟨List.prefix_rfl, List.prefix_rfl, List.prefix_rfl⟩
  · exact ⟨List.prefix_rfl, List.prefix_rfl, List.prefix_rfl⟩

/-- An id that was looked for in vain is put behind those that are used. -/
theorem nodup_append_of_find? {α : Type} {key : α → ℕ} {l : List α} {a : α}
    (h : (l.map key).Nodup) (hfresh : (l.find? fun b ↦ key b == key a).isSome = false) :
    ((l ++ [a]).map key).Nodup := by
  apply SortedMap.nodup_append h
  rwa [← Bool.not_eq_true, List.find?_isSome, ← List.any_eq_true] at hfresh

/-- **Every entry that fits in keeps the graph in order.** -/
theorem Built.append (h : graph.Built) (hentry : graph.Appends entry later) : later.Built := by
  have hext := hentry.extends
  have hbinds : ∀ binding ∈ graph.dfg.externalBindings, later.dfg.Binds binding :=
    fun binding hmem ↦ hext.binds (h.binds binding hmem)
  have hsourced : ∀ liveOut ∈ graph.dfg.liveOuts, later.dfg.containsNode liveOut.source = true :=
    fun liveOut hmem ↦ hext.containsNode (h.sourced liveOut hmem)
  have hendpoints : ∀ edge ∈ graph.dfg.edges,
      later.dfg.containsNode edge.src = true ∧ later.dfg.containsNode edge.dst = true :=
    fun edge hmem ↦ ⟨hext.containsNode (h.endpoints edge hmem).1,
      hext.containsNode (h.endpoints edge hmem).2⟩
  rcases hentry with ⟨hfresh⟩ | ⟨hfresh⟩ | ⟨hfresh⟩ | ⟨hfresh, hsource⟩ | ⟨hfresh, hsrc, hdst⟩ |
    ⟨hbinding, hfresh⟩
  · rename_i node source
    -- The edges end at the nodes that were there, so the new node has none.
    have hother : ∀ id, graph.dfg.containsNode id = true → id ≠ node.id := by
      rintro id hid rfl
      rw [hfresh] at hid
      cases hid
    exact { h with
      sources := by rw [List.length_append, List.length_append, h.sources]; rfl
      nodes := nodup_append_of_find? h.nodes hfresh
      binds := hbinds
      sourced := hsourced
      endpoints := hendpoints
      incoming := by
        rw [DFG.adjacency_append_node fun edge hmem ↦ hother _ (h.endpoints edge hmem).2,
          h.incoming]
      outgoing := by
        rw [DFG.adjacency_append_node fun edge hmem ↦ hother _ (h.endpoints edge hmem).1,
          h.outgoing] }
  · exact { h with externals := nodup_append_of_find? h.externals hfresh, binds := hbinds }
  · exact { h with constants := nodup_append_of_find? h.constants hfresh, binds := hbinds }
  · refine { h with
      liveOuts := SortedMap.nodup_append h.liveOuts (by rw [hfresh]; exact Bool.false_ne_true)
      sourced := fun liveOut hmem ↦ ?_ }
    rcases List.mem_append.mp hmem with hmem | hmem
    · exact hsourced liveOut hmem
    · obtain rfl := List.mem_singleton.mp hmem
      exact hsource
  · refine { h with
      edges := nodup_append_of_find? h.edges hfresh
      endpoints := fun edge hmem ↦ ?_
      incoming := by
        rw [h.incoming]
        exact DFG.cacheEdge_adjacency h.nodes graph.dfg.edges Edge.dst _
      outgoing := by
        rw [h.outgoing]
        exact DFG.cacheEdge_adjacency h.nodes graph.dfg.edges Edge.src _ }
    rcases List.mem_append.mp hmem with hmem | hmem
    · exact hendpoints edge hmem
    · obtain rfl := List.mem_singleton.mp hmem
      exact ⟨hsrc, hdst⟩
  · rename_i binding
    refine { h with bindings := ?_, binds := fun other hmem ↦ ?_ }
    · apply SortedMap.sorted_insertionSort
      apply SortedMap.nodup_append h.bindings.nodup
      intro hany
      obtain ⟨other, hother, hkey⟩ := List.any_eq_true.mp hany
      obtain ⟨hnode, hoperand⟩ := DFG.bindingKey_eq_iff.mp (of_decide_eq_true hkey)
      have hused : (graph.dfg.externalBindings.any fun item ↦
          item.node == binding.node && item.operand == binding.operand) = true :=
        List.any_eq_true.mpr ⟨other, hother, by simp [hnode, hoperand]⟩
      exact Bool.false_ne_true (hfresh.symm.trans hused)
    · rcases List.mem_append.mp (List.mem_insertionSort _ |>.mp hmem) with hmem | hmem
      · exact hbinds other hmem
      · obtain rfl := List.mem_singleton.mp hmem
        exact hbinding

end SourcedDFG

/-! ## What has been appended

The lists of a graph are those of the entries of each sort, in the order they were appended. Only
the bindings are sorted. -/

namespace DFGEntry

def node? : DFGEntry → Option (Node × Option SourceInfo)
  | .node item source => some (item, source)
  | _ => none

def external? : DFGEntry → Option ExternalValue
  | .external item => some item
  | _ => none

def constant? : DFGEntry → Option ConstantValue
  | .constant item => some item
  | _ => none

def liveOut? : DFGEntry → Option LiveOut
  | .liveOut item => some item
  | _ => none

def edge? : DFGEntry → Option Edge
  | .edge item => some item
  | _ => none

def binding? : DFGEntry → Option OperandBinding
  | .binding item => some item
  | _ => none

end DFGEntry

namespace SourcedDFG

variable {graph later : SourcedDFG} {entry : DFGEntry} {entries : List DFGEntry}

/-- A graph put together from these entries. -/
structure Assembled (graph : SourcedDFG) (entries : List DFGEntry) : Prop extends graph.Built where
  nodes_eq : graph.entries = entries.filterMap DFGEntry.node?
  externals_eq : graph.dfg.externalValues = entries.filterMap DFGEntry.external?
  constants_eq : graph.dfg.constants = entries.filterMap DFGEntry.constant?
  liveOuts_eq : graph.dfg.liveOuts = entries.filterMap DFGEntry.liveOut?
  edges_eq : graph.dfg.edges = entries.filterMap DFGEntry.edge?
  bindings_perm : graph.dfg.externalBindings.Perm (entries.filterMap DFGEntry.binding?)

theorem assembled_empty (name : String) : Assembled ⟨.empty name, []⟩ [] where
  toBuilt := built_empty name
  nodes_eq := rfl
  externals_eq := rfl
  constants_eq := rfl
  liveOuts_eq := rfl
  edges_eq := rfl
  bindings_perm := .nil

/-- An entry goes behind those of its sort. -/
theorem Appends.values_eq (h : graph.Appends entry later) :
    later.dfg.externalValues = graph.dfg.externalValues ++ entry.external?.toList ∧
      later.dfg.constants = graph.dfg.constants ++ entry.constant?.toList ∧
      later.dfg.liveOuts = graph.dfg.liveOuts ++ entry.liveOut?.toList ∧
      later.dfg.edges = graph.dfg.edges ++ entry.edge?.toList := by
  cases h <;> simp [DFGEntry.external?, DFGEntry.constant?, DFGEntry.liveOut?, DFGEntry.edge?]

theorem Built.entries_eq (hbuilt : graph.Built) (h : graph.Appends entry later) :
    later.entries = graph.entries ++ entry.node?.toList := by
  cases h with
  | @node node source fresh => exact List.zip_append hbuilt.sources.symm
  | _ => exact (List.append_nil _).symm

theorem Appends.bindings_perm (h : graph.Appends entry later) :
    later.dfg.externalBindings.Perm (graph.dfg.externalBindings ++ entry.binding?.toList) := by
  cases h with
  | binding binds fresh => exact List.perm_insertionSort _ _
  | _ => exact .of_eq (List.append_nil _).symm

theorem filterMap_concat {α β : Type} (f : α → Option β) (l : List α) (a : α) :
    (l ++ [a]).filterMap f = l.filterMap f ++ (f a).toList := by
  rw [List.filterMap_append, List.filterMap_cons]
  cases f a <;> rfl

theorem Assembled.append (h : graph.Assembled entries) (hentry : graph.Appends entry later) :
    later.Assembled (entries ++ [entry]) := by
  obtain ⟨hexternals, hconstants, hliveOuts, hedges⟩ := hentry.values_eq
  exact {
    toBuilt := h.toBuilt.append hentry
    nodes_eq := by rw [h.toBuilt.entries_eq hentry, h.nodes_eq, filterMap_concat]
    externals_eq := by rw [hexternals, h.externals_eq, filterMap_concat]
    constants_eq := by rw [hconstants, h.constants_eq, filterMap_concat]
    liveOuts_eq := by rw [hliveOuts, h.liveOuts_eq, filterMap_concat]
    edges_eq := by rw [hedges, h.edges_eq, filterMap_concat]
    bindings_perm := by
      rw [filterMap_concat]
      exact hentry.bindings_perm.trans (h.bindings_perm.append_right _) }

end SourcedDFG

/-! ## The operations of the builder

Each of them appends an entry that fits in, or fails. -/

namespace DFGBuilder

variable {builder later : DFGBuilder} {graph : SourcedDFG}

theorem importNode_iff {node : Node} {source : Option SourceInfo} :
    (∃ later, builder.importNode node source = .ok later ∧ later.graph = graph)
      ↔ builder.graph.Appends (.node node source) graph := by
  constructor
  · rintro ⟨later, hlater, rfl⟩
    obtain ⟨dfg, hdfg, hlater⟩ := bind_eq_ok.mp hlater
    obtain rfl := Except.ok.inj hlater
    rw [DFG.appendNode] at hdfg
    split_ifs at hdfg with hfresh
    obtain rfl := Except.ok.inj hdfg
    exact .node (Bool.not_eq_true _ ▸ hfresh)
  · rintro ⟨hfresh⟩
    refine ⟨_, bind_eq_ok.mpr ⟨_, ?_, rfl⟩, rfl⟩
    exact if_neg (by rw [dfg, hfresh]; exact Bool.false_ne_true)

theorem importExternal_iff {value : ExternalValue} :
    (∃ later, builder.importExternal value = .ok later ∧ later.graph = graph)
      ↔ builder.graph.Appends (.external value) graph := by
  constructor
  · rintro ⟨later, hlater, rfl⟩
    obtain ⟨dfg, hdfg, hlater⟩ := bind_eq_ok.mp hlater
    obtain rfl := Except.ok.inj hlater
    rw [DFG.appendExternal] at hdfg
    split_ifs at hdfg with hfresh
    obtain rfl := Except.ok.inj hdfg
    exact .external (Bool.not_eq_true _ ▸ hfresh)
  · rintro (_ | ⟨hfresh⟩)
    refine ⟨_, bind_eq_ok.mpr ⟨_, ?_, rfl⟩, rfl⟩
    exact if_neg (by rw [dfg, hfresh]; exact Bool.false_ne_true)

theorem importConstant_iff {value : ConstantValue} :
    (∃ later, builder.importConstant value = .ok later ∧ later.graph = graph)
      ↔ builder.graph.Appends (.constant value) graph := by
  constructor
  · rintro ⟨later, hlater, rfl⟩
    obtain ⟨dfg, hdfg, hlater⟩ := bind_eq_ok.mp hlater
    obtain rfl := Except.ok.inj hlater
    rw [DFG.appendConstant] at hdfg
    split_ifs at hdfg with hfresh
    obtain rfl := Except.ok.inj hdfg
    exact .constant (Bool.not_eq_true _ ▸ hfresh)
  · rintro (_ | _ | ⟨hfresh⟩)
    refine ⟨_, bind_eq_ok.mpr ⟨_, ?_, rfl⟩, rfl⟩
    exact if_neg (by rw [dfg, hfresh]; exact Bool.false_ne_true)

theorem importLiveOut_iff {value : LiveOut} :
    (∃ later, builder.importLiveOut value = .ok later ∧ later.graph = graph)
      ↔ builder.graph.Appends (.liveOut value) graph := by
  constructor
  · rintro ⟨later, hlater, rfl⟩
    obtain ⟨dfg, hdfg, hlater⟩ := bind_eq_ok.mp hlater
    obtain rfl := Except.ok.inj hlater
    rw [DFG.appendLiveOut] at hdfg
    split_ifs at hdfg with hfresh hsource
    obtain rfl := Except.ok.inj hdfg
    exact .liveOut (Bool.not_eq_true _ ▸ hfresh) (by simpa [dfg] using hsource)
  · rintro (_ | _ | _ | ⟨hfresh, hsource⟩)
    refine ⟨_, bind_eq_ok.mpr ⟨_, ?_, rfl⟩, rfl⟩
    rw [DFG.appendLiveOut, dfg, hfresh, hsource, if_neg Bool.false_ne_true,
      if_neg (by decide)]

theorem importEdge_iff {edge : Edge} :
    (∃ later, builder.importEdge edge = .ok later ∧ later.graph = graph)
      ↔ builder.graph.Appends (.edge edge) graph := by
  constructor
  · rintro ⟨later, hlater, rfl⟩
    obtain ⟨dfg, hdfg, hlater⟩ := bind_eq_ok.mp hlater
    obtain rfl := Except.ok.inj hlater
    rw [DFG.appendEdge] at hdfg
    split_ifs at hdfg with hfresh hends
    obtain rfl := Except.ok.inj hdfg
    simp only [Bool.or_eq_true, Bool.not_eq_true', not_or, Bool.not_eq_false] at hends
    exact .edge (Bool.not_eq_true _ ▸ hfresh) hends.1 hends.2
  · rintro (_ | _ | _ | _ | ⟨hfresh, hsrc, hdst⟩)
    refine ⟨_, bind_eq_ok.mpr ⟨_, ?_, rfl⟩, rfl⟩
    rw [DFG.appendEdge, dfg, hfresh, hsrc, hdst, if_neg Bool.false_ne_true, if_neg (by decide)]

theorem node_eq_ok_iff {dfg : DFG} {id : ℕ} {node : Node} :
    dfg.node id = .ok node ↔ dfg.findNode id = some node := by
  rw [DFG.node]
  split
  · rename_i h
    simp [h]
  · rename_i h
    simp [h]

theorem checkOperand_eq_ok_iff {node operand : ℕ} : builder.checkOperand node operand = .ok () ↔
    ∃ found, builder.graph.dfg.findNode node = some found ∧
      operand < found.operandTypes.length := by
  rw [checkOperand, bind_eq_ok]
  simp only [node_eq_ok_iff, ge_iff_le]
  refine exists_congr fun found ↦ and_congr_right fun _ ↦ ?_
  split_ifs with h
  · simp [Nat.not_lt.mpr h]
  · simp [Nat.not_le.mp h]

/-- A value can be bound to an operand that nothing feeds yet. -/
theorem checkProviderAvailable_of_free {node operand : ℕ}
    (hoperand : ∃ found, builder.graph.dfg.findNode node = some found ∧
      operand < found.operandTypes.length)
    (hincoming : (builder.graph.dfg.incoming node).getD [] = [])
    (hfresh : (builder.graph.dfg.externalBindings.any fun item ↦
      item.node == node && item.operand == operand) = false) :
    builder.checkProviderAvailable node operand = .ok () := by
  refine bind_eq_ok.mpr ⟨(), checkOperand_eq_ok_iff.mpr hoperand, ?_⟩
  refine bind_eq_ok.mpr ⟨(), ?_, ?_⟩
  · rw [dfg, hincoming]
    rfl
  · rw [dfg, hfresh, if_neg Bool.false_ne_true]

theorem operand_of_checkProviderAvailable {node operand : ℕ}
    (h : builder.checkProviderAvailable node operand = .ok ()) :
    (∃ found, builder.graph.dfg.findNode node = some found ∧
        operand < found.operandTypes.length) ∧
      (builder.graph.dfg.externalBindings.any fun item ↦
        item.node == node && item.operand == operand) = false := by
  obtain ⟨⟨⟩, hoperand, h⟩ := bind_eq_ok.mp h
  obtain ⟨⟨⟩, -, h⟩ := bind_eq_ok.mp h
  split_ifs at h with hfresh
  exact ⟨checkOperand_eq_ok_iff.mp hoperand, Bool.not_eq_true _ ▸ hfresh⟩

theorem appendBinding_iff {binding : OperandBinding} (hbinds : builder.graph.dfg.Binds binding) :
    (∃ dfg, builder.dfg.appendBinding binding = .ok dfg ∧ (builder.withGraph dfg).graph = graph)
      ↔ builder.graph.Appends (.binding binding) graph := by
  have hnode : builder.graph.dfg.containsNode binding.node = true := by
    obtain ⟨node, hnode, -⟩ := hbinds.1
    rw [DFG.containsNode, hnode, Option.isSome_some]
  constructor
  · rintro ⟨dfg, hdfg, rfl⟩
    rw [DFG.appendBinding] at hdfg
    split_ifs at hdfg with hcontains hfresh
    obtain rfl := Except.ok.inj hdfg
    exact .binding hbinds (Bool.not_eq_true _ ▸ hfresh)
  · rintro (_ | _ | _ | _ | _ | ⟨-, hfresh⟩)
    refine ⟨_, ?_, rfl⟩
    rw [DFG.appendBinding, dfg, hnode, hfresh, if_neg (by decide), if_neg Bool.false_ne_true]

theorem appends_of_bindExternal {node operand value : ℕ}
    (h : builder.bindExternal node operand value = .ok later) :
    builder.graph.Appends (.binding ⟨node, operand, .externalValueRef value⟩) later.graph := by
  obtain ⟨⟨⟩, hfree, h⟩ := bind_eq_ok.mp h
  split_ifs at h with hvalue
  obtain ⟨dfg, hdfg, h⟩ := bind_eq_ok.mp h
  obtain rfl := Except.ok.inj h
  refine (appendBinding_iff ⟨(operand_of_checkProviderAvailable hfree).1, ?_⟩).mp ⟨dfg, hdfg, rfl⟩
  simpa [DFG.provides, DFGBuilder.dfg, Option.isSome_iff_ne_none] using hvalue

theorem appends_of_bindConstant {node operand value : ℕ}
    (h : builder.bindConstant node operand value = .ok later) :
    builder.graph.Appends (.binding ⟨node, operand, .constantRef value⟩) later.graph := by
  obtain ⟨⟨⟩, hfree, h⟩ := bind_eq_ok.mp h
  split_ifs at h with hvalue
  obtain ⟨dfg, hdfg, h⟩ := bind_eq_ok.mp h
  obtain rfl := Except.ok.inj h
  refine (appendBinding_iff ⟨(operand_of_checkProviderAvailable hfree).1, ?_⟩).mp ⟨dfg, hdfg, rfl⟩
  simpa [DFG.provides, DFGBuilder.dfg, Option.isSome_iff_ne_none] using hvalue

theorem appends_of_addDataEdge {src dst dstOperand distance : ℕ}
    {boundary : Option RecurrenceBoundary}
    (h : builder.addDataEdge src dst dstOperand distance boundary = .ok later) :
    builder.graph.Appends
      (.edge ⟨builder.nextEdgeId, src, dst, distance, .data dstOperand boundary⟩) later.graph := by
  obtain ⟨⟨⟩, -, h⟩ := bind_eq_ok.mp h
  exact (@importEdge_iff builder.nextEdge.2 _ _).mp ⟨later, h, rfl⟩

theorem appends_of_addMemoryEdge {src dst distance : ℕ} {dependence : MemoryDepKind}
    (h : builder.addMemoryEdge src dst dependence distance = .ok later) :
    builder.graph.Appends
      (.edge ⟨builder.nextEdgeId, src, dst, distance, .memory dependence⟩) later.graph := by
  obtain ⟨_, -, h⟩ := bind_eq_ok.mp h
  obtain ⟨_, -, h⟩ := bind_eq_ok.mp h
  exact (@importEdge_iff builder.nextEdge.2 _ _).mp ⟨later, h, rfl⟩

/-- A loop that appends an entry for each element of a list. -/
theorem assembled_of_foldlM {α : Type} {f : DFGBuilder → α → Except String DFGBuilder}
    (entry : α → DFGEntry) {entries : List DFGEntry} {l : List α}
    (hstep : ∀ first a second, f first a = .ok second →
      first.graph.Appends (entry a) second.graph)
    (hbuilder : builder.graph.Assembled entries) (h : l.foldlM f builder = .ok later) :
    later.graph.Assembled (entries ++ l.map entry) := by
  induction l generalizing builder entries with
  | nil =>
    obtain rfl := Except.ok.inj h
    rw [List.map_nil, List.append_nil]
    exact hbuilder
  | cons a l ih =>
    obtain ⟨next, hnext, hrest⟩ := foldlM_cons_eq_ok.mp h
    have hlater := ih (hbuilder.append (hstep builder a next hnext)) hrest
    rwa [List.append_assoc] at hlater

end DFGBuilder

end PredicatedMesh
