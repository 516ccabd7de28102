import PredicatedMesh.Target.Legalizer
import PredicatedMesh.Target.Loading

/-!
# What legalization yields

A legalized graph is the generic graph with its nodes and edges renumbered and every node bound to
an operation. `Legalized` says so: each list of the target graph is the list of the generic graph,
entry by entry, through the map of the nodes.

The verifier of target graphs accepts every such graph but for the memory dependences. It wants the
endpoints of a memory dependence to be bound to operations that look like a load or a store, which
neither loading the contract nor legalization asks of `LOAD` and `STORE`.
-/

namespace PredicatedMesh

open Scan

/-! ## The statement -/

namespace TargetLegalizer

/-- A node of the target graph is a generic node, bound to the operation for it. -/
structure Bound (target : TargetModel) (map : LegalizationMap) (generic : Node)
    (node : TargetNode) :
    Prop where
  mapped : (generic.id, [node.id]) ∈ map
  operation_eq : node.operation = operationFor generic
  agrees : ∃ operation, node.Agrees target operation ∧
    operation.accessWidthBits = node.accessWidthBits ∧ operation.resultType = node.resultType
  resultType_eq : node.resultType = generic.resultType
  operandTypes_eq : node.operandTypes = generic.operandTypes
  genericOrigins_eq : node.genericOrigins = [generic.id]

/-- An edge of the target graph joins the images of the endpoints and carries the same. -/
structure Copied (map : LegalizationMap) (generic : Edge) (edge : TargetEdge) : Prop where
  src : (generic.src, [edge.src]) ∈ map
  dst : (generic.dst, [edge.dst]) ∈ map
  distance_eq : edge.distance = generic.distance
  info_eq : edge.info = generic.info

/-- A target graph is a generic graph through a map. -/
structure Legalized (generic : DFG) (target : TargetModel) (map : LegalizationMap)
    (dfg : TargetDFG) : Prop where
  name_eq : dfg.name = generic.name
  targetName_eq : dfg.targetName = target.name
  /-- The map is a bijection between the nodes. -/
  keys_eq : map.map Prod.fst = generic.nodes.map Node.id
  images_eq : map.map Prod.snd = dfg.nodes.map fun node ↦ [node.id]
  nodup_keys : (map.map Prod.fst).Nodup
  nodup_images : (map.map Prod.snd).Nodup
  nodes : List.Forall₂ (Bound target map) generic.nodes dfg.nodes
  edges : List.Forall₂ (Copied map) generic.edges dfg.edges
  /-- Operand bindings are kept in another order. -/
  bindings : ∃ copied, dfg.operandBindings.Perm copied ∧
    List.Forall₂ (fun binding copy ↦ (binding.node, [copy.node]) ∈ map ∧
      copy.operand = binding.operand ∧ copy.source = binding.source) generic.externalBindings copied
  externals_eq : dfg.externalValues = generic.externalValues
  constants_eq : dfg.constants = generic.constants
  liveOuts : List.Forall₂ (fun liveOut copy ↦ (liveOut.source, [copy.source]) ∈ map ∧
      copy.id = liveOut.id ∧ copy.type = liveOut.type ∧ copy.name = liveOut.name)
    generic.liveOuts dfg.liveOuts

/-- The memory operations of a contract look like what a dependence orders. -/
def ordersAccesses (target : TargetModel) (dependence : MemoryDepKind) : Bool :=
  let store := (target.findOperation "STORE").any TargetDFGVerifier.isStoreLike
  let load := (target.findOperation "LOAD").any TargetDFGVerifier.isLoadLike
  match dependence with
  | .raw => store && load
  | .war => load && store
  | .waw => store

/-! ## The operations of the nodes -/

/-- What a planned operation has been checked for. -/
structure Planned (target : TargetModel) (node : Node) (operation : TargetOperationDesc) :
    Prop where
  resultSupported : target.supportsValueType node.resultType = true
  operandsSupported : ∀ type ∈ node.operandTypes, target.supportsValueType type = true
  found : target.findOperation (operationFor node) = some operation
  executable : target.isOperationExecutable operation = true
  required_le : operation.operands.countP (fun operand ↦ !operand.optional)
    ≤ node.operandTypes.length
  length_le : node.operandTypes.length ≤ operation.operands.length
  signature : signatureMatches node operation = true
  resultType_eq : operation.resultType = node.resultType

section Plan

variable {target : TargetModel} {node : Node} {operation : TargetOperationDesc}

theorem planned_of_planNode (h : planNode target node = .ok operation) :
    Planned target node operation := by
  rw [planNode] at h
  split at h
  · cases h
  rename_i hsupported
  simp only [Bool.not_eq_true', Bool.not_eq_false, Bool.and_eq_true, List.all_eq_true] at hsupported
  simp only at h
  split at h
  · cases h
  split at h
  · cases h
  rename_i found hfound
  split at h
  · cases h
  rename_i hexecutable
  split at h
  · cases h
  split at h
  · cases h
  rename_i hcount
  split at h
  · cases h
  rename_i hsignature
  split at h
  · cases h
  rename_i htype
  obtain rfl := Except.ok.inj h
  push Not at hcount
  exact ⟨hsupported.1, hsupported.2, hfound, by simpa using hexecutable, hcount.1, hcount.2,
    by simpa using hsignature, not_not.mp htype⟩

theorem Planned.id_eq (h : Planned target node operation) : operation.id = operationFor node :=
  TargetModel.findOperation_id h.found

/-- The roles of the operands are those of their types. -/
theorem Planned.role (h : Planned target node operation) {operand : ℕ} {type : ValueType}
    (htype : node.operandTypes[operand]? = some type) : ∃ desc,
      operation.operands[operand]? = some desc ∧
        TargetDFGVerifier.roleMatches desc.role type = true := by
  have hlt := (List.getElem?_eq_some_iff.mp htype).1
  have hin : operand < operation.operands.length := hlt.trans_le h.length_le
  refine ⟨operation.operands[operand], List.getElem?_eq_getElem hin, ?_⟩
  have hall := (Bool.and_eq_true _ _ ▸ h.signature :
    (node.operandTypes.zip operation.operands).all _ = true ∧ _).1
  rw [List.all_eq_true] at hall
  refine hall (type, operation.operands[operand]) (List.mem_iff_getElem?.mpr ⟨operand, ?_⟩)
  rw [List.getElem?_zip_eq_some]
  exact ⟨htype, List.getElem?_eq_getElem hin⟩

theorem Planned.resultRole (h : Planned target node operation) :
    TargetDFGVerifier.resultRoleMatches operation.resultRole node.resultType = true :=
  (Bool.and_eq_true _ _ ▸ h.signature :
    (node.operandTypes.zip operation.operands).all _ = true ∧ _).2

/-- A clean preflight plans every node. -/
theorem plan_of_preflight {generic : DFG} (h : preflight target generic = []) :
    (plan target generic).map Prod.fst = generic.nodes ∧
      ∀ item ∈ plan target generic, Planned target item.1 item.2 := by
  rw [preflight, List.append_eq_nil_iff, List.append_eq_nil_iff] at h
  have hnodes := h.1.2
  rw [plan]
  generalize generic.nodes = nodes at hnodes ⊢
  induction nodes with
  | nil => simp
  | cons node nodes ih =>
    rw [List.filterMap_cons] at hnodes ⊢
    rcases hplan : planNode target node with diagnostic | operation
    · simp [nodeDiagnostic, hplan] at hnodes
    · simp only [nodeDiagnostic, hplan] at hnodes ⊢
      obtain ⟨hfst, hitems⟩ := ih hnodes
      rw [List.map_cons, hfst, List.forall_mem_cons]
      exact ⟨rfl, planned_of_planNode hplan, hitems⟩

end Plan

/-! ## The map of the nodes -/

section Map

variable {items : List (Node × TargetOperationDesc)} {id : ℕ} {index : TargetNodeId}

/-- The map of the nodes that are planned. -/
def mapOf (items : List (Node × TargetOperationDesc)) : LegalizationMap :=
  items.zipIdx.map fun item ↦ (item.1.1.id, [item.2])

/-- The ids of the planned nodes. -/
def idsOf (items : List (Node × TargetOperationDesc)) : List ℕ := items.map fun item ↦ item.1.id

/-- The place of a planned node; other ids are sent beyond all places. -/
def place (items : List (Node × TargetOperationDesc)) (id : ℕ) : ℕ :=
  if id ∈ idsOf items then (idsOf items).idxOf id else items.length + id

theorem place_lt (h : id ∈ idsOf items) : place items id < items.length := by
  rw [place, if_pos h, ← List.length_map (f := fun item : Node × TargetOperationDesc ↦ item.1.id)]
  exact List.idxOf_lt_length_iff.mpr h

theorem place_injective (items : List (Node × TargetOperationDesc)) :
    Function.Injective (place items) := by
  intro first second h
  by_cases hfirst : first ∈ idsOf items
  · by_cases hsecond : second ∈ idsOf items
    · rw [place, place, if_pos hfirst, if_pos hsecond] at h
      exact (List.idxOf_inj hfirst).mp h
    · have hlt := place_lt hfirst
      rw [h, place, if_neg hsecond] at hlt
      omega
  · by_cases hsecond : second ∈ idsOf items
    · have hlt := place_lt hsecond
      rw [← h, place, if_neg hfirst] at hlt
      omega
    · rw [place, place, if_neg hfirst, if_neg hsecond] at h
      omega

/-- The item at the place of a planned node. -/
theorem getElem?_place (h : id ∈ idsOf items) :
    ∃ item, items[place items id]? = some item ∧ item.1.id = id := by
  have hlt := place_lt h
  refine ⟨items[place items id], List.getElem?_eq_getElem hlt, ?_⟩
  have hidx : (idsOf items)[(idsOf items).idxOf id]? = some id := by
    rw [List.getElem?_eq_getElem (List.idxOf_lt_length_iff.mpr h), List.getElem_idxOf]
  rw [place, if_pos h] at hlt
  simp only [place, if_pos h]
  rw [idsOf, List.getElem?_map, ← idsOf, List.getElem?_eq_getElem hlt] at hidx
  exact Option.some.inj hidx

/-- With distinct ids, a planned node is at its place. -/
theorem place_eq (hnodup : (idsOf items).Nodup) {item : Node × TargetOperationDesc}
    (h : items[index]? = some item) : place items item.1.id = index := by
  have hget : (idsOf items)[index]? = some item.1.id := by rw [idsOf, List.getElem?_map, h]; rfl
  have hmem : item.1.id ∈ idsOf items := List.mem_of_getElem? hget
  obtain ⟨hlt, hindex⟩ := List.getElem?_eq_some_iff.mp hget
  rw [place, if_pos hmem, ← hindex]
  exact hnodup.idxOf_getElem index hlt

theorem mem_mapOf (h : id ∈ idsOf items) : (id, [place items id]) ∈ mapOf items := by
  obtain ⟨item, hitem, rfl⟩ := getElem?_place h
  exact List.mem_map.mpr ⟨(item, _), List.mem_zipIdx_iff_getElem?.mpr hitem, rfl⟩

theorem fst_mapOf (items : List (Node × TargetOperationDesc)) :
    (mapOf items).map Prod.fst = idsOf items := by
  have hitems : items.zipIdx.map Prod.fst = items := List.zipIdx_map_fst 0 items
  calc (mapOf items).map Prod.fst
      = (items.zipIdx.map Prod.fst).map fun item ↦ item.1.id := by
        rw [mapOf, List.map_map, List.map_map]
        rfl
    _ = idsOf items := by rw [hitems, idsOf]

theorem targetOf_mapOf (hnodup : (idsOf items).Nodup) (h : id ∈ idsOf items) :
    targetOf (mapOf items) id = .ok (place items id) := by
  have hfind : (mapOf items).find? (fun entry ↦ entry.1 == id) = some (id, [place items id]) :=
    (find?_eq_some_iff_of_nodup (by rw [fst_mapOf]; exact hnodup)).mpr ⟨mem_mapOf h, rfl⟩
  rw [targetOf, hfind]

end Map

/-! ## The graph that is built -/

section Build

variable (generic : DFG) (target : TargetModel) (items : List (Node × TargetOperationDesc))

def copyEdge (item : Edge × ℕ) : TargetEdge :=
  ⟨item.2, place items item.1.src, place items item.1.dst, item.1.distance, item.1.info⟩

def copyBinding (binding : OperandBinding) : TargetOperandBinding :=
  ⟨place items binding.node, binding.operand, binding.source⟩

def copyLiveOut (liveOut : LiveOut) : TargetLiveOut :=
  ⟨liveOut.id, liveOut.type, liveOut.name, place items liveOut.source⟩

/-- The target graph, with every id at its place. -/
def image : TargetDFG :=
  let nodes := items.zipIdx.map targetNode
  let edges := generic.edges.zipIdx.map (copyEdge items)
  { name := generic.name
    targetName := target.name
    nodes := nodes
    edges := edges
    externalValues := generic.externalValues
    constants := generic.constants
    liveOuts := generic.liveOuts.map (copyLiveOut items)
    operandBindings := (generic.externalBindings.map (copyBinding items)).insertionSort bindingLe
    incomingEdges := nodes.map fun node ↦
      (edges.filter fun edge ↦ edge.dst == node.id).map TargetEdge.id
    outgoingEdges := nodes.map fun node ↦
      (edges.filter fun edge ↦ edge.src == node.id).map TargetEdge.id }

variable {generic items}

/-- Every endpoint, consumer and source of a graph is planned. -/
structure Known (generic : DFG) (items : List (Node × TargetOperationDesc)) : Prop where
  nodup : (idsOf items).Nodup
  src : ∀ edge ∈ generic.edges, edge.src ∈ idsOf items
  dst : ∀ edge ∈ generic.edges, edge.dst ∈ idsOf items
  binding : ∀ binding ∈ generic.externalBindings, binding.node ∈ idsOf items
  liveOut : ∀ liveOut ∈ generic.liveOuts, liveOut.source ∈ idsOf items

theorem materialize_eq (h : Known generic items) :
    materialize generic target items = .ok (image generic target items, mapOf items) := by
  have hedges : generic.edges.zipIdx.mapM (targetEdge (mapOf items))
      = .ok (generic.edges.zipIdx.map (copyEdge items)) := by
    refine mapM_eq_map fun item hitem ↦ ?_
    have hedge := List.fst_mem_of_mem_zipIdx hitem
    rw [targetEdge, targetOf_mapOf h.nodup (h.src _ hedge), targetOf_mapOf h.nodup (h.dst _ hedge)]
    rfl
  have hbindings : generic.externalBindings.mapM (targetBinding (mapOf items))
      = .ok (generic.externalBindings.map (copyBinding items)) := by
    refine mapM_eq_map fun binding hbinding ↦ ?_
    rw [targetBinding, targetOf_mapOf h.nodup (h.binding _ hbinding)]
    rfl
  have hliveOuts : generic.liveOuts.mapM (targetLiveOut (mapOf items))
      = .ok (generic.liveOuts.map (copyLiveOut items)) := by
    refine mapM_eq_map fun liveOut hliveOut ↦ ?_
    rw [targetLiveOut, targetOf_mapOf h.nodup (h.liveOut _ hliveOut)]
    rfl
  exact bind_eq_ok.mpr
    ⟨_, hedges, bind_eq_ok.mpr ⟨_, hbindings, bind_eq_ok.mpr ⟨_, hliveOuts, rfl⟩⟩⟩

/-! ## The parts of the graph -/

/-- A list made from the numbered entries of another is related to it entry by entry. -/
theorem forall₂_zipIdx_map {α β : Type} {R : α → β → Prop} {f : α × ℕ → β} {l : List α}
    (h : ∀ item ∈ l.zipIdx, R item.1 (f item)) : List.Forall₂ R l (l.zipIdx.map f) := by
  have hall : List.Forall₂ R (l.zipIdx.map Prod.fst) (l.zipIdx.map f) := by
    rw [List.forall₂_map_left_iff, List.forall₂_map_right_iff, List.forall₂_same]
    exact h
  rwa [List.zipIdx_map_fst] at hall

variable (generic items)

theorem map_id_nodes : (image generic target items).nodes.map TargetNode.id
    = List.range items.length := by
  calc (image generic target items).nodes.map TargetNode.id
      = items.zipIdx.map Prod.snd := by rw [image, List.map_map]; rfl
    _ = List.range items.length := by rw [List.zipIdx_map_snd, List.range_eq_range']

theorem map_id_edges : (image generic target items).edges.map TargetEdge.id
    = List.range generic.edges.length := by
  calc (image generic target items).edges.map TargetEdge.id
      = generic.edges.zipIdx.map Prod.snd := by rw [image, List.map_map]; rfl
    _ = List.range generic.edges.length := by rw [List.zipIdx_map_snd, List.range_eq_range']

variable {generic items}

theorem findNode_image {index : TargetNodeId} {item : Node × TargetOperationDesc}
    (h : items[index]? = some item) :
    (image generic target items).findNode index = some (targetNode (item, index)) := by
  have hmem : targetNode (item, index) ∈ (image generic target items).nodes :=
    List.mem_map_of_mem (List.mem_zipIdx_iff_getElem?.mpr h)
  have hnodup : ((image generic target items).nodes.map TargetNode.id).Nodup := by
    rw [map_id_nodes]
    exact List.nodup_range
  exact (find?_eq_some_iff_of_nodup hnodup).mpr ⟨hmem, rfl⟩

/-- A planned node is found on both sides. -/
theorem findNode_place (hitems : items.map Prod.fst = generic.nodes) {id : ℕ} {node : Node}
    (h : generic.findNode id = some node) (hnodup : (idsOf items).Nodup) :
    ∃ operation, (node, operation) ∈ items ∧
      (image generic target items).findNode (place items id)
        = some (targetNode ((node, operation), place items id)) := by
  have hnode : node ∈ items.map Prod.fst := hitems ▸ DFG.mem_of_findNode h
  obtain ⟨⟨node, operation⟩, hmem, rfl⟩ := List.mem_map.mp hnode
  obtain ⟨index, hindex⟩ := List.mem_iff_getElem?.mp hmem
  have hplace := place_eq hnodup hindex
  rw [DFG.findNode_id h] at hplace
  exact ⟨operation, hmem, by rw [hplace]; exact findNode_image target hindex⟩

/-- Every endpoint of a verified graph is planned. -/
theorem known_of_verified (h : generic.Verified) (hitems : items.map Prod.fst = generic.nodes) :
    Known generic items := by
  have hids : idsOf items = generic.nodes.map Node.id := by
    rw [← hitems, List.map_map]
    rfl
  have hfound : ∀ {id : ℕ} {node : Node}, generic.findNode id = some node → id ∈ idsOf items := by
    intro id node hnode
    rw [hids]
    exact List.mem_map.mpr ⟨node, DFG.mem_of_findNode hnode, DFG.findNode_id hnode⟩
  refine ⟨hids ▸ h.nodup_nodes, fun edge hedge ↦ ?_, fun edge hedge ↦ ?_, fun binding hbinding ↦ ?_,
    fun liveOut hliveOut ↦ ?_⟩
  · obtain ⟨source, -, hsource, -⟩ := h.edge edge hedge
    exact hfound hsource
  · obtain ⟨-, destination, -, hdestination, -⟩ := h.edge edge hedge
    exact hfound hdestination
  · obtain ⟨node, -, hnode, -⟩ := h.binding binding hbinding
    exact hfound hnode
  · obtain ⟨node, hnode, -⟩ := h.liveOut liveOut hliveOut
    exact hfound hnode

/-- **The graph that is built** is the generic graph through the map. -/
theorem legalized_image (hitems : items.map Prod.fst = generic.nodes)
    (hplanned : ∀ item ∈ items, Planned target item.1 item.2) (hknown : Known generic items) :
    Legalized generic target (mapOf items) (image generic target items) where
  name_eq := rfl
  targetName_eq := rfl
  keys_eq := by
    rw [fst_mapOf, ← hitems, List.map_map]
    rfl
  images_eq := by
    rw [mapOf, image, List.map_map, List.map_map]
    rfl
  nodup_keys := by
    rw [fst_mapOf]
    exact hknown.nodup
  nodup_images := by
    have hsingle : (mapOf items).map Prod.snd = (List.range items.length).map fun i ↦ [i] := by
      rw [← map_id_nodes generic target items, mapOf, image, List.map_map, List.map_map,
        List.map_map]
      rfl
    rw [hsingle]
    exact List.nodup_range.map fun _ _ h ↦ (List.cons.inj h).1
  nodes := by
    rw [← hitems, List.forall₂_map_left_iff]
    refine forall₂_zipIdx_map ?_
    rintro ⟨⟨node, operation⟩, index⟩ hitem
    have hget := List.mem_zipIdx_iff_getElem?.mp hitem
    have hplan := hplanned _ (List.mem_of_getElem? hget)
    have hfound : target.findOperation operation.id = some operation := by
      rw [hplan.id_eq]
      exact hplan.found
    exact ⟨List.mem_map.mpr ⟨_, hitem, rfl⟩, hplan.id_eq,
      ⟨operation, ⟨hfound, hplan.executable, rfl,
      rfl, rfl, rfl⟩, rfl, hplan.resultType_eq⟩, rfl, rfl, rfl⟩
  edges := by
    refine forall₂_zipIdx_map fun item hitem ↦ ?_
    have hedge := List.fst_mem_of_mem_zipIdx hitem
    exact ⟨mem_mapOf (hknown.src _ hedge), mem_mapOf (hknown.dst _ hedge), rfl, rfl⟩
  bindings := by
    refine ⟨_, List.perm_insertionSort _ _, ?_⟩
    rw [List.forall₂_map_right_iff, List.forall₂_same]
    exact fun binding hbinding ↦ ⟨mem_mapOf (hknown.binding binding hbinding), rfl, rfl⟩
  externals_eq := rfl
  constants_eq := rfl
  liveOuts := by
    rw [image, List.forall₂_map_right_iff, List.forall₂_same]
    exact fun liveOut hliveOut ↦ ⟨mem_mapOf (hknown.liveOut liveOut hliveOut), rfl, rfl, rfl⟩

end Build

/-! ## Verifying the graph -/

section Verify

open TargetDFGVerifier

variable {generic : DFG} {target : TargetModel} {items : List (Node × TargetOperationDesc)}

/-- What is known when the target graph is built. -/
structure Ready (generic : DFG) (target : TargetModel) (items : List (Node × TargetOperationDesc)) :
    Prop where
  verified : generic.Verified
  items_eq : items.map Prod.fst = generic.nodes
  planned : ∀ item ∈ items, Planned target item.1 item.2
  externals : ∀ value ∈ generic.externalValues, target.supportsValueType value.type = true
  constants : ∀ value ∈ generic.constants, target.supportsValueType value.type = true
  liveOuts : ∀ value ∈ generic.liveOuts, target.supportsValueType value.type = true

theorem ready_of_preflight (hverified : generic.Verified) (h : preflight target generic = []) :
    Ready generic target (plan target generic) := by
  obtain ⟨hitems, hplanned⟩ := plan_of_preflight h
  simp only [preflight, List.append_eq_nil_iff, List.flatMap_eq_nil_iff, require_eq_nil_iff] at h
  obtain ⟨⟨⟨hexternals, hconstants⟩, -⟩, hliveOuts⟩ := h
  exact ⟨hverified, hitems, hplanned, hexternals, hconstants, hliveOuts⟩

namespace Ready

theorem known (h : Ready generic target items) : Known generic items :=
  known_of_verified h.verified h.items_eq

theorem findNode (h : Ready generic target items) {id : ℕ} {node : Node}
    (hnode : generic.findNode id = some node) : ∃ operation, Planned target node operation ∧
      (image generic target items).findNode (place items id)
        = some (targetNode ((node, operation), place items id)) := by
  obtain ⟨operation, hmem, hfound⟩ := findNode_place target h.items_eq hnode h.known.nodup
  exact ⟨operation, h.planned _ hmem, hfound⟩

theorem checkIds_image (h : Ready generic target items) :
    checkIds (image generic target items) = [] := by
  have hnodes : ((image generic target items).nodes.map TargetNode.id).Nodup := by
    rw [map_id_nodes]
    exact List.nodup_range
  have hedges : ((image generic target items).edges.map TargetEdge.id).Nodup := by
    rw [map_id_edges]
    exact List.nodup_range
  have hliveOuts : ((image generic target items).liveOuts.map TargetLiveOut.id).Nodup := by
    rw [image, List.map_map]
    exact h.verified.nodup_liveOuts
  have hclean : ∀ {α : Type} {key : α → ℕ} {l : List α},
      (l.map key).Nodup → repeats key [] l = [] :=
    fun hnodup ↦ (repeats_eq_nil_iff _ _ _).mpr ⟨hnodup, fun _ _ ↦ List.not_mem_nil⟩
  have hexternals := hclean h.verified.nodup_externals
  have hconstants := hclean h.verified.nodup_constants
  rw [checkIds, hclean hnodes, hclean hedges, hclean hliveOuts]
  simp only [image, hexternals, hconstants, List.map_nil, List.append_nil]

theorem checkBinding_copy (h : Ready generic target items) {binding : OperandBinding}
    (hmem : binding ∈ generic.externalBindings) :
    checkBinding (image generic target items) (copyBinding items binding) = [] := by
  obtain ⟨node, type, hnode, htype, hprovided⟩ := h.verified.binding binding hmem
  obtain ⟨operation, -, hfound⟩ := h.findNode hnode
  have hsource : bindingType (image generic target items) binding.source = some type := by
    rw [← hprovided]
    rcases binding.source with value | value
    · rfl
    · rfl
  have hoperand : (targetNode ((node, operation), place items binding.node)).operandTypes[
      binding.operand]? = some type := htype
  rw [checkBinding, copyBinding, hfound]
  simp only [hoperand, hsource, beq_self_eq_true]
  rfl

/-! ### Providers -/

/-- The operand of a node at its place. -/
def placed (items : List (Node × TargetOperationDesc)) (operand : ℕ × ℕ) : TargetNodeId × ℕ :=
  (place items operand.1, operand.2)

theorem placed_injective : Function.Injective (placed items) := by
  rintro ⟨node, operand⟩ ⟨node', operand'⟩ h
  obtain ⟨hnode, hoperand⟩ := Prod.mk.inj h
  exact Prod.ext (place_injective items hnode) hoperand

/-- Every binding and every value edge of a verified graph provides an operand. -/
theorem providers_generic (h : generic.Verified) : DFGVerifier.providers generic
    = (generic.edges.filterMap fun edge ↦ edge.info.dstOperand.map fun operand ↦
      (edge.dst, operand))
      ++ generic.externalBindings.map fun binding ↦ (binding.node, binding.operand) := by
  rw [DFGVerifier.providers, List.filter_eq_self]
  intro provided hmem
  have hhas : ∀ {node : Node} {type : ValueType}, generic.findNode provided.1 = some node →
      node.operandTypes[provided.2]? = some type →
        DFGVerifier.hasOperand generic provided.1 provided.2 = true := by
    intro node type hnode htype
    rw [DFGVerifier.hasOperand, hnode, Option.any_some, decide_eq_true_eq]
    exact (List.getElem?_eq_some_iff.mp htype).1
  rcases List.mem_append.mp hmem with hmem | hmem
  · obtain ⟨edge, hedge, hprovides⟩ := List.mem_filterMap.mp hmem
    obtain ⟨source, destination, -, hdestination, hvalid⟩ := h.edge edge hedge
    rw [EdgeValid] at hvalid
    rcases hinfo : edge.info with ⟨operand, boundary⟩ | ⟨operand, boundary⟩ | dependence
    · simp only [hinfo, EdgeInfo.dstOperand, Option.map_some, Option.some.injEq] at hprovides hvalid
      obtain rfl := hprovides
      obtain ⟨type, htype, -⟩ := hvalid
      exact hhas hdestination htype
    · simp only [hinfo, EdgeInfo.dstOperand, Option.map_some, Option.some.injEq] at hprovides hvalid
      obtain rfl := hprovides
      obtain ⟨type, htype, -⟩ := hvalid
      exact hhas hdestination htype
    · simp [hinfo, EdgeInfo.dstOperand] at hprovides
  · obtain ⟨binding, hbinding, rfl⟩ := List.mem_map.mp hmem
    obtain ⟨node, type, hnode, htype, -⟩ := h.binding binding hbinding
    exact hhas hnode htype

/-- Providers keep their numbers. -/
theorem count_providers (h : Ready generic target items) (operand : ℕ × ℕ) :
    (TargetDFGVerifier.providers (image generic target items)).count (placed items operand)
      = (DFGVerifier.providers generic).count operand := by
  have hbindings : ((image generic target items).operandBindings.filter
        (bindingProvides (image generic target items))).map (fun binding ↦
          (binding.node, binding.operand))
      |>.Perm ((generic.externalBindings.map fun binding ↦
        (binding.node, binding.operand)).map (placed items)) := by
    have hall : (image generic target items).operandBindings.filter
        (bindingProvides (image generic target items))
          = (image generic target items).operandBindings := by
      rw [List.filter_eq_self]
      intro copy hcopy
      obtain ⟨binding, hbinding, rfl⟩ := List.mem_map.mp ((List.mem_insertionSort _).mp hcopy)
      obtain ⟨node, type, hnode, htype, -⟩ := h.verified.binding binding hbinding
      obtain ⟨operation, -, hfound⟩ := h.findNode hnode
      rw [bindingProvides, copyBinding, hfound, Option.any_some, decide_eq_true_eq]
      exact (List.getElem?_eq_some_iff.mp htype).1
    rw [hall]
    refine ((List.perm_insertionSort _ _).map _).trans (List.Perm.of_eq ?_)
    rw [List.map_map, List.map_map]
    rfl
  have hedges : ((image generic target items).edges.filterMap fun edge ↦
        edge.info.dstOperand.map fun operand ↦ (edge.dst, operand))
      = (generic.edges.filterMap fun edge ↦ edge.info.dstOperand.map fun operand ↦
        (edge.dst, operand)).map (placed items) := by
    have hedge : ∀ item : Edge × ℕ, ((copyEdge items item).info.dstOperand.map fun operand ↦
          ((copyEdge items item).dst, operand))
        = (item.1.info.dstOperand.map fun operand ↦ (item.1.dst, operand)).map (placed items) := by
      intro item
      rw [Option.map_map]
      rfl
    calc _ = generic.edges.zipIdx.filterMap fun item ↦ (item.1.info.dstOperand.map fun operand ↦
          (item.1.dst, operand)).map (placed items) := by
            rw [image, List.filterMap_map]
            exact List.filterMap_congr fun item _ ↦ hedge item
      _ = (generic.edges.zipIdx.map Prod.fst).filterMap fun edge ↦ (edge.info.dstOperand.map
          fun operand ↦ (edge.dst, operand)).map (placed items) := by
            rw [List.filterMap_map]
            rfl
      _ = _ := by rw [List.zipIdx_map_fst, List.map_filterMap]
  rw [TargetDFGVerifier.providers, hedges, (hbindings.append_right _).count_eq, ← List.map_append,
    List.count_map_of_injective _ _ placed_injective, providers_generic h.verified,
    List.count_append, List.count_append, Nat.add_comm]

/-! ### Nodes -/

theorem checkOperandProviders_image (h : Ready generic target items) {index : TargetNodeId}
    {item : Node × TargetOperationDesc} (hget : items[index]? = some item) {operand : ℕ}
    (hoperand : operand < item.1.operandTypes.length) :
    checkOperandProviders (image generic target items) (targetNode (item, index)) operand = [] := by
  have hnode : item.1 ∈ generic.nodes :=
    h.items_eq ▸ List.mem_map_of_mem (List.mem_of_getElem? hget)
  have hplace : (index, operand) = placed items (item.1.id, operand) := by
    rw [placed, place_eq h.known.nodup hget]
  have hcount : (TargetDFGVerifier.providers (image generic target items)).count
      ((targetNode (item, index)).id, operand) = 1 := by
    have hid : ((targetNode (item, index)).id, operand) = placed items (item.1.id, operand) :=
      hplace
    rw [hid, h.count_providers, h.verified.provider _ hnode operand hoperand]
  rw [checkOperandProviders]
  simp only [hcount]

/-- A bound node comes from a node of the generic graph. -/
theorem containsNode_origin (h : Ready generic target items) {index : TargetNodeId}
    {item : Node × TargetOperationDesc} (hget : items[index]? = some item) :
    generic.containsNode item.1.id = true := by
  have hnode : item.1 ∈ generic.nodes :=
    h.items_eq ▸ List.mem_map_of_mem (List.mem_of_getElem? hget)
  rw [DFG.containsNode, DFG.findNode, List.find?_isSome]
  exact ⟨item.1, hnode, beq_self_eq_true _⟩

/-- A bound node agrees with the contract it was bound by. -/
theorem checkNode_image (h : Ready generic target items) (hloaded : target.Loaded)
    {provenance : Option DFG} (hprovenance : provenance ∈ [none, some generic])
    {index : TargetNodeId} {item : Node × TargetOperationDesc} (hget : items[index]? = some item) :
    checkNode (image generic target items) target provenance (targetNode (item, index)) = [] := by
  obtain ⟨node, operation⟩ := item
  have hplanned := h.planned _ (List.mem_of_getElem? hget)
  have hfound : target.findOperation operation.id = some operation := by
    rw [hplanned.id_eq]
    exact hplanned.found
  have hloadLike : ¬ (isLoadLike operation && (node.resultType == ValueType.voidTy
      || operation.resultLatency.isNone)) = true := by
    rw [Bool.and_eq_true, Bool.or_eq_true, beq_iff_eq, Option.isNone_iff_eq_none]
    rintro ⟨hlike, hbad⟩
    simp only [isLoadLike, Bool.and_eq_true, beq_iff_eq] at hlike
    have hrole := hplanned.resultRole
    rw [hlike.1.2] at hrole
    rcases hbad with hvoid | hlatency
    · rw [hvoid] at hrole
      cases hrole
    · refine hloaded.resultLatency (List.mem_of_find?_eq_some hfound) ?_ hlatency
      rw [hlike.1.2]
      decide
  have hstoreLike : ¬ (isStoreLike operation && node.resultType != ValueType.voidTy) = true := by
    rw [Bool.and_eq_true, bne_iff_ne]
    rintro ⟨hlike, hne⟩
    simp only [isStoreLike, Bool.and_eq_true, beq_iff_eq] at hlike
    have hrole := hplanned.resultRole
    rw [hlike.1.2] at hrole
    exact hne (beq_iff_eq.mp hrole)
  have hoperands : ∀ entry ∈ node.operandTypes.zipIdx,
      checkOperand target operation (targetNode ((node, operation), index)) entry.2 entry.1
        = [] := by
    rintro ⟨type, operand⟩ hentry
    have htype := List.mem_zipIdx_iff_getElem?.mp hentry
    obtain ⟨desc, hdesc, hrole⟩ := hplanned.role htype
    rw [checkOperand, List.append_eq_nil_iff, require_eq_nil_iff, require_eq_nil_iff]
    refine ⟨hplanned.operandsSupported type (List.mem_of_getElem? htype), ?_⟩
    rw [hdesc, Option.any_some]
    exact hrole
  have hproviders : ∀ operand ∈ List.range node.operandTypes.length,
      checkOperandProviders (image generic target items) (targetNode ((node, operation), index))
        operand = [] :=
    fun operand hmem ↦ h.checkOperandProviders_image hget (List.mem_range.mp hmem)
  have htype : (operation.resultType == node.resultType) = true :=
    beq_iff_eq.mpr hplanned.resultType_eq
  have harity : (decide (operation.operands.countP (fun operand ↦ !operand.optional)
      ≤ node.operandTypes.length) && decide (node.operandTypes.length ≤ operation.operands.length))
        = true := by
    rw [Bool.and_eq_true, decide_eq_true_eq, decide_eq_true_eq]
    exact ⟨hplanned.required_le, hplanned.length_le⟩
  have horigins : checkProvenance provenance (targetNode ((node, operation), index)) = [] := by
    rcases List.mem_pair.mp hprovenance with rfl | rfl
    · rfl
    · rw [checkProvenance, targetNode, List.flatMap_singleton, require_eq_nil_iff]
      exact h.containsNode_origin hget
  have hnode : (targetNode ((node, operation), index)).operation = operation.id := rfl
  rw [checkNode, hnode, hfound]
  simp only [checkNodeAgainst, List.append_eq_nil_iff, List.flatMap_eq_nil_iff, require_eq_nil_iff,
    targetNode, hplanned.executable, hplanned.resultRole, hplanned.resultSupported, htype,
    beq_self_eq_true, and_true, true_and]
  rw [Bool.not_eq_true] at hloadLike hstoreLike
  rw [hloadLike, hstoreLike]
  exact ⟨⟨⟨⟨⟨⟨rfl, rfl⟩, harity⟩, hoperands⟩, rfl⟩, horigins⟩, hproviders⟩

/-! ### Edges, live-outs and adjacency -/

/-- The data operations of a contract produce what data edges carry. -/
theorem resultRole_data {node : Node} {operation : TargetOperationDesc}
    (h : Planned target node operation) (hpredicate : node.resultType.kind ≠ .predicate)
    (hvoid : node.resultType.kind ≠ .void) : operation.resultRole = .data := by
  have hrole := h.resultRole
  rcases hvalue : operation.resultRole with _ | _ | _
  · rfl
  · rw [hvalue] at hrole
    simp only [resultRoleMatches, isPredicate, Bool.and_eq_true, beq_iff_eq] at hrole
    exact absurd hrole.1 hpredicate
  · rw [hvalue] at hrole
    simp only [resultRoleMatches, beq_iff_eq] at hrole
    exact absurd (by rw [hrole]; rfl) hvoid

theorem resultRole_predicate {node : Node} {operation : TargetOperationDesc}
    (h : Planned target node operation) (hkind : node.resultType.kind = .predicate) :
    operation.resultRole = .predicate := by
  have hrole := h.resultRole
  rcases hvalue : operation.resultRole with _ | _ | _
  · rw [hvalue] at hrole
    simp only [resultRoleMatches, isData, hkind] at hrole
    cases hrole
  · rfl
  · rw [hvalue] at hrole
    simp only [resultRoleMatches, beq_iff_eq] at hrole
    rw [hrole] at hkind
    cases hkind

theorem operation_targetNode {node : Node} {operation : TargetOperationDesc}
    (h : Planned target node operation) (index : TargetNodeId) :
    target.findOperation (targetNode ((node, operation), index)).operation = some operation := by
  have hid : (targetNode ((node, operation), index)).operation = operationFor node := h.id_eq
  rw [hid, h.found]

section Edge

variable {source destination : Node} {first second : TargetOperationDesc} {i j : TargetNodeId}
variable {operand : ℕ} {type : ValueType}

theorem dataEdgeValid_of_planned (hsource : Planned target source first)
    (hdestination : Planned target destination second)
    (htype : destination.operandTypes[operand]? = some type) (hsame : source.resultType = type)
    (hpredicate : type.kind ≠ .predicate) (hvoid : type.kind ≠ .void) :
    dataEdgeValid target (targetNode ((source, first), i)) (targetNode ((destination, second), j))
      operand = true := by
  have hresult := resultRole_data hsource (hsame ▸ hpredicate) (hsame ▸ hvoid)
  obtain ⟨desc, hdesc, hrole⟩ := hdestination.role htype
  have hdescRole : (desc.role == .data || desc.role == .address) = true := by
    rcases hvalue : desc.role with _ | _ | _
    · rfl
    · rw [hvalue] at hrole
      simp only [roleMatches, isPredicate, Bool.and_eq_true, beq_iff_eq] at hrole
      exact absurd hrole.1 hpredicate
    · rfl
  have hoperand : (targetNode ((destination, second), j)).operandTypes[operand]? = some type :=
    htype
  rw [dataEdgeValid, hoperand, operation_targetNode hsource, operation_targetNode hdestination,
    Option.any_some, Option.any_some, Option.any_some, hdesc, Option.all_some, hdescRole, hresult,
    targetNode, hsame]
  simp only [beq_self_eq_true, Bool.and_self]

theorem predicateEdgeValid_of_planned (hsource : Planned target source first)
    (hdestination : Planned target destination second)
    (htype : destination.operandTypes[operand]? = some type) (hsame : source.resultType = type)
    (hpredicate : DFGVerifier.isPredicateType type = true) :
    predicateEdgeValid target (targetNode ((source, first), i))
      (targetNode ((destination, second), j)) operand = true := by
  simp only [DFGVerifier.isPredicateType, DFGVerifier.isValidType, Bool.and_eq_true,
    beq_iff_eq] at hpredicate
  obtain ⟨hvalid, hkind⟩ := hpredicate
  rw [hkind] at hvalid
  have hwidth : (type.bitWidth == 1) = true := hvalid
  have hresult := resultRole_predicate hsource (hsame ▸ hkind)
  obtain ⟨desc, hdesc, hrole⟩ := hdestination.role htype
  have hdescRole : desc.role = .predicate := by
    rcases hvalue : desc.role with _ | _ | _
    · rw [hvalue] at hrole
      simp only [roleMatches, isData, hkind] at hrole
      cases hrole
    · rfl
    · rw [hvalue] at hrole
      simp only [roleMatches, hkind] at hrole
      cases hrole
  have hoperand : (targetNode ((destination, second), j)).operandTypes[operand]? = some type :=
    htype
  rw [predicateEdgeValid, hoperand, operation_targetNode hsource, operation_targetNode hdestination,
    Option.any_some, Option.any_some, Option.any_some, hdesc, Option.all_some, hdescRole, hresult,
    isPredicate, hkind, hwidth]
  rfl

/-- The endpoints of a memory dependence are bound to the memory operations of the contract. -/
theorem memoryEdgeValid_of_planned (hsource : Planned target source first)
    (hdestination : Planned target destination second) {edge : Edge} {dependence : MemoryDepKind}
    (hinfo : edge.info = .memory dependence) (hvalid : EdgeValid edge source destination) :
    memoryEdgeValid target (targetNode ((source, first), i)) (targetNode ((destination, second), j))
      dependence = ordersAccesses target dependence := by
  have hload : ∀ {node : Node} {operation : TargetOperationDesc}, Planned target node operation →
      node.opcode = .load → target.findOperation "LOAD" = some operation := by
    intro node operation hplanned hopcode
    have hname : operationFor node = "LOAD" := by rw [operationFor, hopcode]
    exact hname ▸ hplanned.found
  have hstore : ∀ {node : Node} {operation : TargetOperationDesc}, Planned target node operation →
      node.opcode = .store → target.findOperation "STORE" = some operation := by
    intro node operation hplanned hopcode
    have hname : operationFor node = "STORE" := by rw [operationFor, hopcode]
    exact hname ▸ hplanned.found
  rw [EdgeValid, hinfo] at hvalid
  simp only [memoryEdgeValid, ordersAccesses, operation_targetNode hsource,
    operation_targetNode hdestination, Option.any_some]
  rcases dependence with _ | _ | _
  · rw [hstore hsource hvalid.1, hload hdestination hvalid.2]
    rfl
  · rw [hload hsource hvalid.1, hstore hdestination hvalid.2]
    rfl
  · have hsame := (hstore hsource hvalid.1).symm.trans (hstore hdestination hvalid.2)
    rw [hstore hsource hvalid.1]
    simp only [Option.any_some, Option.some.inj hsame, Bool.and_self]

end Edge

/-- Only a memory dependence can be refused, for the operations of the contract it joins. -/
theorem checkEdge_copy_iff (h : Ready generic target items) {item : Edge × ℕ}
    (hedge : item.1 ∈ generic.edges) :
    checkEdge (image generic target items) target (copyEdge items item) = [] ↔
      ∀ dependence, item.1.info = .memory dependence → ordersAccesses target dependence = true := by
  obtain ⟨source, destination, hsource, hdestination, hvalid⟩ := h.verified.edge _ hedge
  obtain ⟨first, hfirst, hsourceFound⟩ := h.findNode hsource
  obtain ⟨second, hsecond, hdestinationFound⟩ := h.findNode hdestination
  have hinfo : (copyEdge items item).info = item.1.info := rfl
  have hsrc : (copyEdge items item).src = place items item.1.src := rfl
  have hdst : (copyEdge items item).dst = place items item.1.dst := rfl
  rw [checkEdge, hsrc, hdst, hsourceFound, hdestinationFound]
  simp only [hinfo]
  rcases hkind : item.1.info with ⟨operand, boundary⟩ | ⟨operand, boundary⟩ | dependence
  · rw [EdgeValid, hkind] at hvalid
    obtain ⟨type, htype, hsame, hpredicate, hvoid⟩ := hvalid
    simp [dataEdgeValid_of_planned hfirst hsecond htype hsame hpredicate hvoid]
  · rw [EdgeValid, hkind] at hvalid
    obtain ⟨type, htype, hsame, hpredicate⟩ := hvalid
    simp [predicateEdgeValid_of_planned hfirst hsecond htype hsame hpredicate]
  · simp [memoryEdgeValid_of_planned hfirst hsecond hkind hvalid]

theorem checkLiveOut_copy (h : Ready generic target items) {liveOut : LiveOut}
    (hmem : liveOut ∈ generic.liveOuts) :
    checkLiveOut (image generic target items) target (copyLiveOut items liveOut) = [] := by
  obtain ⟨node, hnode, htype⟩ := h.verified.liveOut liveOut hmem
  obtain ⟨operation, -, hfound⟩ := h.findNode hnode
  have hresult : (targetNode ((node, operation), place items liveOut.source)).resultType
      = liveOut.type := htype
  rw [checkLiveOut, copyLiveOut, hfound, List.append_eq_nil_iff, require_eq_nil_iff,
    require_eq_nil_iff]
  exact ⟨beq_iff_eq.mpr hresult, h.liveOuts liveOut hmem⟩

theorem findIdx?_image {index : TargetNodeId} (hlt : index < items.length) :
    (image generic target items).nodes.findIdx? (fun node ↦ node.id == index) = some index := by
  have hlength : (image generic target items).nodes.length = items.length := by
    rw [image, List.length_map, List.length_zipIdx]
  have hid : ∀ (place : ℕ) (hin : place < (image generic target items).nodes.length),
      ((image generic target items).nodes[place]).id = place := by
    intro place hin
    simp [image, targetNode]
  rw [List.findIdx?_eq_some_iff_getElem]
  refine ⟨hlength ▸ hlt, ?_, fun earlier hearlier ↦ ?_⟩
  · rw [hid, beq_self_eq_true]
  · rw [hid, beq_iff_eq]
    exact hearlier.ne

theorem checkAdjacency_image (h : Ready generic target items) {index : TargetNodeId}
    {item : Node × TargetOperationDesc} (hget : items[index]? = some item) :
    checkAdjacency (image generic target items) (targetNode (item, index)) = [] := by
  have hlt : index < items.length := (List.getElem?_eq_some_iff.mp hget).1
  have hknown : (image generic target items).edges.filter (fun edge ↦
      (image generic target items).containsNode edge.src
        && (image generic target items).containsNode edge.dst)
      = (image generic target items).edges := by
    rw [List.filter_eq_self]
    intro copy hcopy
    obtain ⟨edge, hedge, rfl⟩ := List.mem_map.mp hcopy
    obtain ⟨source, destination, hsource, hdestination, -⟩ :=
      h.verified.edge _ (List.fst_mem_of_mem_zipIdx hedge)
    obtain ⟨_, _, hsourceFound⟩ := h.findNode hsource
    obtain ⟨_, _, hdestinationFound⟩ := h.findNode hdestination
    rw [TargetDFG.containsNode, TargetDFG.containsNode, copyEdge, hsourceFound, hdestinationFound]
    rfl
  have hnode : (image generic target items).nodes[index]? = some (targetNode (item, index)) := by
    rw [image, List.getElem?_map, List.getElem?_zipIdx, hget]
    simp
  have hincoming : (image generic target items).incoming index
      = some (((image generic target items).edges.filter fun edge ↦ edge.dst == index).map
          TargetEdge.id) := by
    rw [TargetDFG.incoming, findIdx?_image hlt, Option.bind_some]
    exact (List.getElem?_map ..).trans (congrArg (Option.map _) hnode)
  have houtgoing : (image generic target items).outgoing index
      = some (((image generic target items).edges.filter fun edge ↦ edge.src == index).map
          TargetEdge.id) := by
    rw [TargetDFG.outgoing, findIdx?_image hlt, Option.bind_some]
    exact (List.getElem?_map ..).trans (congrArg (Option.map _) hnode)
  have hid : (targetNode (item, index)).id = index := rfl
  rw [checkAdjacency, hknown, hid, require_eq_nil_iff, hincoming, houtgoing, beq_self_eq_true,
    beq_self_eq_true]
  rfl

/-- **The verifier on a legalized graph**: the memory dependences decide. -/
theorem verify_image_iff (h : Ready generic target items) (hloaded : target.Loaded)
    {provenance : Option DFG} (hprovenance : provenance ∈ [none, some generic]) :
    TargetDFGVerifier.verify (image generic target items) target provenance = [] ↔
      ∀ edge ∈ generic.edges, ∀ dependence, edge.info = .memory dependence →
        ordersAccesses target dependence = true := by
  have hnodes : ∀ node ∈ (image generic target items).nodes, ∃ item index,
      items[index]? = some item ∧ node = targetNode (item, index) := by
    intro node hnode
    obtain ⟨⟨item, index⟩, hitem, rfl⟩ := List.mem_map.mp hnode
    exact ⟨item, index, List.mem_zipIdx_iff_getElem?.mp hitem, rfl⟩
  have hbindings : ∀ binding ∈ (image generic target items).operandBindings,
      checkBinding (image generic target items) binding = [] := by
    intro binding hbinding
    obtain ⟨origin, horigin, rfl⟩ := List.mem_map.mp ((List.mem_insertionSort _).mp hbinding)
    exact h.checkBinding_copy horigin
  have htypes : checkValueTypes (image generic target items) target = [] := by
    simp only [checkValueTypes, List.append_eq_nil_iff, List.flatMap_eq_nil_iff, require_eq_nil_iff]
    exact ⟨h.externals, h.constants⟩
  have hchecked : ∀ node ∈ (image generic target items).nodes,
      checkNode (image generic target items) target provenance node = [] := by
    intro node hnode
    obtain ⟨item, index, hget, rfl⟩ := hnodes node hnode
    exact h.checkNode_image hloaded hprovenance hget
  have hliveOuts : ∀ liveOut ∈ (image generic target items).liveOuts,
      checkLiveOut (image generic target items) target liveOut = [] := by
    intro liveOut hliveOut
    obtain ⟨origin, horigin, rfl⟩ := List.mem_map.mp hliveOut
    exact h.checkLiveOut_copy horigin
  have hadjacency : ∀ node ∈ (image generic target items).nodes,
      checkAdjacency (image generic target items) node = [] := by
    intro node hnode
    obtain ⟨item, index, hget, rfl⟩ := hnodes node hnode
    exact h.checkAdjacency_image hget
  have hedges : (∀ edge ∈ (image generic target items).edges,
        checkEdge (image generic target items) target edge = []) ↔
      ∀ edge ∈ generic.edges, ∀ dependence, edge.info = .memory dependence →
        ordersAccesses target dependence = true := by
    constructor
    · intro hclean edge hedge
      obtain ⟨index, hindex⟩ := List.mem_iff_getElem?.mp hedge
      have hitem : (edge, index) ∈ generic.edges.zipIdx := List.mem_zipIdx_iff_getElem?.mpr hindex
      have horigin : (edge, index).1 ∈ generic.edges := hedge
      exact (h.checkEdge_copy_iff horigin).mp (hclean _ (List.mem_map_of_mem hitem))
    · intro hmemory edge hedge
      obtain ⟨item, hitem, rfl⟩ := List.mem_map.mp hedge
      have horigin := List.fst_mem_of_mem_zipIdx hitem
      exact (h.checkEdge_copy_iff horigin).mpr (hmemory _ horigin)
  simp only [TargetDFGVerifier.verify, List.append_eq_nil_iff, List.flatMap_eq_nil_iff,
    h.checkIds_image, htypes, true_and, and_true]
  constructor
  · rintro ⟨⟨⟨-, hclean⟩, -⟩, -⟩
    exact hedges.mp hclean
  · intro hmemory
    exact ⟨⟨⟨⟨hbindings, hchecked⟩, hedges.mpr hmemory⟩, hliveOuts⟩, hadjacency⟩

end Ready

end Verify

/-- **Legalization is faithful.** With a diagnostic there is no graph. Without one, the graph is the
generic graph through the map, and the verifier accepts it if and only if the memory operations of
the contract look like the accesses that the memory dependences order, whether or not it is given
the generic graph. -/
theorem legalize_isomorphic (generic : DFG) (target : TargetModel) (hloaded : target.Loaded)
    (hverified : DFGVerifier.verify generic = []) : ∃ result, legalize generic target = .ok result ∧
      (result.diagnostics ≠ [] → result.dfg = none) ∧
      (result.diagnostics = [] → ∃ dfg, result.dfg = some dfg ∧
        Legalized generic target result.map dfg ∧
        ∀ provenance ∈ [none, some generic],
          (TargetDFGVerifier.verify dfg target provenance = [] ↔
            ∀ edge ∈ generic.edges, ∀ dependence, edge.info = .memory dependence →
              ordersAccesses target dependence = true)) := by
  by_cases hclean : preflight target generic = []
  · have hready := ready_of_preflight (DFGVerifier.verified_of_verify hverified) hclean
    have hbuilt := materialize_eq target hready.known
    refine ⟨⟨some (image generic target (plan target generic)), mapOf (plan target generic), []⟩,
      ?_, fun h ↦ absurd rfl h,
      fun _ ↦ ⟨_, rfl, ?_, fun _ hprovenance ↦ hready.verify_image_iff hloaded hprovenance⟩⟩
    · rw [legalize, hverified, hclean, hbuilt]
      rfl
    · exact legalized_image target hready.items_eq hready.planned hready.known
  · refine ⟨⟨none, [], preflight target generic⟩, ?_, fun _ ↦ rfl, fun h ↦ absurd h hclean⟩
    have hfound : (!(preflight target generic).isEmpty) = true := by
      rw [Bool.not_eq_true', List.isEmpty_eq_false_iff]
      exact hclean
    rw [legalize, hverified, if_neg (by simp), if_pos hfound]

/-! ### A load that can be masked

The loader lets a contract give `LOAD` an optional predicate, delivered like the commit predicate of
a store. Nodes without the operand are still legalized. -/

/-- A word is stored and loaded again. -/
def storeLoadDFG : DFG where
  name := "store-load"
  nodes :=
    [⟨7, .store, ValueType.voidTy, [ValueType.integer 32, ValueType.integer 32], none,
      some ⟨32, false⟩⟩,
      ⟨3, .load, ValueType.integer 32, [ValueType.integer 32], none, some ⟨32, false⟩⟩]
  edges := [⟨5, 7, 3, 0, .memory .raw⟩]
  externalValues := []
  constants := [⟨0, ValueType.integer 32, 9⟩]
  liveOuts := [⟨0, ValueType.integer 32, "out", 3⟩]
  externalBindings := [⟨7, 0, .constantRef 0⟩, ⟨7, 1, .constantRef 0⟩, ⟨3, 0, .constantRef 0⟩]
  incomingEdges := [[], [5]]
  outgoingEdges := [[5], []]

/-- The word that is stored and loaded is legalized to a verified graph. -/
theorem storeLoad_legalized : ∃ result dfg, legalize storeLoadDFG shippedTarget = .ok result ∧
    result.dfg = some dfg ∧ Legalized storeLoadDFG shippedTarget result.map dfg ∧
      TargetDFGVerifier.verify dfg shippedTarget (some storeLoadDFG) = [] := by
  have hverified : DFGVerifier.verify storeLoadDFG = [] := by decide
  obtain ⟨result, hresult, -, hlegalized⟩ := legalize_isomorphic storeLoadDFG shippedTarget
    TargetModel.shippedTarget_loaded hverified
  have hdiagnostics : (legalize storeLoadDFG shippedTarget).toOption.any fun result ↦
      result.diagnostics.isEmpty := by decide
  rw [hresult] at hdiagnostics
  obtain ⟨dfg, hdfg, hmap, hverify⟩ := hlegalized (List.isEmpty_iff.mp hdiagnostics)
  refine ⟨result, dfg, hresult, hdfg, hmap, (hverify _ (by simp)).mpr ?_⟩
  intro edge _ dependence _
  rcases dependence with _ | _ | _ <;> decide

def maskedLoadTarget : TargetModel :=
  { shippedTarget with
    operations := shippedTarget.operations.map fun operation ↦
      if operation.id = "LOAD" then
        { operation with
          operands := operation.operands ++ [⟨.predicate, true⟩]
          operandSinks := operation.operandSinks ++ [(1, .lsuCommitPredicate)] }
      else operation }

/-- A loaded contract for which a graph without diagnostics is refused. -/
theorem masked_load_refused : maskedLoadTarget.Loaded ∧ DFGVerifier.verify storeLoadDFG = [] ∧
    ∃ result dfg, legalize storeLoadDFG maskedLoadTarget = .ok result ∧ result.diagnostics = [] ∧
      result.dfg = some dfg ∧ TargetDFGVerifier.verify dfg maskedLoadTarget ≠ [] := by
  have hloaded : maskedLoadTarget.Loaded :=
    { rows_pos := by decide
      cols_pos := by decide
      nodup_operations := by decide
      admits := by decide
      memory := ⟨32, by decide⟩ }
  refine ⟨hloaded, by decide,
    ⟨some (image storeLoadDFG maskedLoadTarget (plan maskedLoadTarget storeLoadDFG)),
      mapOf (plan maskedLoadTarget storeLoadDFG), []⟩, _, ?_, rfl, rfl, ?_⟩
  · decide
  · decide

end TargetLegalizer

end PredicatedMesh
