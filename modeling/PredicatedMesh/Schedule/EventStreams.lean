import PredicatedMesh.Schedule.Materializer
import PredicatedMesh.Schedule.VerifierComplete

/-!
# The events the materializer lists

The materializer lists a stream for every node, for every hop of a route and for the writes and the
reads of every segment, and a boundary event for every injection and every live-out. What it lists
stands for the events of the loop, one for one, and when the times fit it lists them without fail.
-/

namespace PredicatedMesh

open Scan

namespace ScheduleMaterializer

/-! ## Keys and names, in the order they are listed -/

def linkKeys (edge : TargetEdgeId) : List (TransportAction × ℕ) → List PeriodicKey
  | [] => []
  | (.virtualHold _, _) :: actions => linkKeys edge actions
  | (.linkStep _, index) :: actions => .linkLaunch edge index :: linkKeys edge actions

section Keys

variable (dfg : TargetDFG) (mapping : RFAllocatedMapping) (tripCount : ℕ)

/-- The streams of the route of an edge. -/
def edgeKeys (edge : TargetEdge) : List PeriodicKey :=
  if edge.kind = .memory then []
  else
    match mapping.staged.modulo.dependence edge.id with
    | .error _ => []
    | .ok dependence => linkKeys edge.id ((dependence.transport.map (·.actions)).getD []).zipIdx

def segmentKeys (segment : StorageSegment) : List PeriodicKey :=
  [.rfWrite segment.id, .rfRead segment.id]

def streamKeys : List PeriodicKey :=
  (dfg.nodes.map fun node ↦ .nodeIssue node.id) ++ dfg.edges.flatMap (edgeKeys mapping)
    ++ mapping.storageRequirements.segments.flatMap segmentKeys

/-- The injections of an edge. -/
def edgeShotNames (edge : TargetEdge) : List EventName :=
  if edge.kind = .memory then []
  else (List.range (min tripCount edge.distance)).map (.boundaryValueInject edge.id)

def shotNames : List EventName :=
  dfg.edges.flatMap (edgeShotNames tripCount)
    ++ dfg.liveOuts.map fun liveOut ↦ .liveOutBoundaryUse liveOut.id ((tripCount : ℤ) - 1)

end Keys

section Carries

variable (dfg : TargetDFG) (mapping : RFAllocatedMapping) (tripCount : ℕ)

/-- A listed stream stands for a stream of the loop. -/
structure Carries (key : PeriodicKey) (stream : PeriodicStream) : Prop where
  genuine : ∃ (time : ℕ) (last : ℤ),
    Stream dfg mapping tripCount key time stream.event.logicalIteration last ∧
      stream.firstLogicalTime
        = time + stream.event.logicalIteration * mapping.staged.modulo.ii
  event : EventFor dfg mapping tripCount (.periodic key stream.event.logicalIteration) stream.event
  count_eq : stream.count = tripCount
  period_eq : stream.period = mapping.staged.modulo.ii

/-- A listed boundary event stands for a boundary event of the loop. -/
structure CarriesOnce (name : EventName) (shot : OneShot) : Prop where
  occurs : OccursAt dfg mapping tripCount 0 name shot.logicalTime
  event : EventFor dfg mapping tripCount name shot.event

end Carries

/-! ## Checked results -/

section Results

variable {α : Type} {mapping : StagedMapping}

theorem orOverflow_eq_ok {message : String} {result : Option α} {a : α} :
    orOverflow message result = .ok a ↔ result = some a := by
  cases result <;> simp [orOverflow]

theorem orInternal_eq_ok {result : Except String α} {a : α} :
    orInternal result = .ok a ↔ result = .ok a := by
  cases result <;> simp [orInternal]

theorem signedTime_eq_ok {node : TargetNodeId} {time : ℤ}
    (h : signedTime mapping node = .ok time) :
    ∃ issue : ℕ, mapping.logicalIssueTime node = .ok issue ∧ time = issue := by
  unfold signedTime at h
  split at h
  · cases h
  · cases h
  · rename_i issue hissue
    exact ⟨issue, hissue, toSigned_eq_some (orOverflow_eq_ok.mp h)⟩

theorem signedTime_of_le {node : TargetNodeId} {issue : ℕ}
    (hissue : mapping.logicalIssueTime node = .ok issue) (hle : (issue : ℤ) ≤ int64Max) :
    signedTime mapping node = .ok (issue : ℤ) := by
  simp only [signedTime, hissue, toSigned_of_le hle, orOverflow]

/-- The last time of a stream. -/
theorem account_eq_ok {stream : PeriodicStream} {tail : ℤ} (h : account stream = .ok tail) :
    tail = stream.firstLogicalTime + (stream.count - 1 : ℕ) * stream.period := by
  unfold account at h
  split at h
  · cases h
  · obtain ⟨span, hspan, htail⟩ := Option.bind_eq_some_iff.mp (orOverflow_eq_ok.mp h)
    rw [addSigned_eq_some htail, mulSigned_eq_some hspan]

end Results

section Listed

variable {dfg : TargetDFG} {target : TargetModel} {mapping : RFAllocatedMapping}
variable {request : ScheduleMaterializationRequest}

/-! ## What is listed is there -/

theorem carries_issue {node : TargetNode} (hnode : node ∈ dfg.nodes) {issue tripCount : ℕ}
    (hissue : mapping.staged.logicalIssueTime node.id = .ok issue) :
    Carries dfg mapping tripCount (.nodeIssue node.id)
      ⟨{ kind := .nodeIssue, node := some node.id, logicalIteration := 0 }, issue, tripCount,
        mapping.staged.modulo.ii⟩ :=
  ⟨⟨issue, _, Stream.nodeIssue hnode hissue, by simp⟩, EventFor.nodeIssue 0 hnode, rfl, rfl⟩

theorem nodeStream_spec {node : TargetNode} (hnode : node ∈ dfg.nodes) {stream : PeriodicStream}
    (h : nodeStream mapping request node = .ok stream) :
    Carries dfg mapping request.tripCount (.nodeIssue node.id) stream := by
  obtain ⟨first, hfirst, h⟩ := bind_eq_ok.mp h
  obtain ⟨tail, -, h⟩ := bind_eq_ok.mp h
  obtain ⟨issue, hissue, rfl⟩ := signedTime_eq_ok hfirst
  obtain rfl := Except.ok.inj h
  exact carries_issue hnode hissue

theorem carries_launch {edge : TargetEdge} {dependence : MappedDependence} {plan : TransportPlan}
    {action : ℕ} {link : LinkStep} {issue tripCount : ℕ} (hedge : edge ∈ dfg.edges)
    (hkind : edge.kind ≠ .memory)
    (hdependence : mapping.staged.modulo.dependence edge.id = .ok dependence)
    (hplan : dependence.transport = some plan)
    (haction : plan.actions[action]? = some (.linkStep link))
    (hissue : mapping.staged.logicalIssueTime edge.src = .ok issue) :
    Carries dfg mapping tripCount (.linkLaunch edge.id action)
      ⟨{ kind := .linkLaunch, edge := some edge.id, transportActionIndex := some action
         logicalIteration := -(edge.distance : ℤ), domain := some link.domain
         tile := some link.source, direction := some link.direction },
        (issue + link.elapsedFromProducerIssue : ℕ)
          + -(edge.distance : ℤ) * mapping.staged.modulo.ii, tripCount, mapping.staged.modulo.ii⟩ :=
  ⟨⟨_, _, Stream.linkLaunch hedge hkind hdependence hplan haction hissue, rfl⟩,
    EventFor.linkLaunch _ hedge hkind hdependence hplan haction, rfl, rfl⟩

theorem linkStream_spec {edge : TargetEdge} {dependence : MappedDependence} {plan : TransportPlan}
    {action : ℕ} {link : LinkStep} {issue : ℕ} (hedge : edge ∈ dfg.edges)
    (hkind : edge.kind ≠ .memory)
    (hdependence : mapping.staged.modulo.dependence edge.id = .ok dependence)
    (hplan : dependence.transport = some plan)
    (haction : plan.actions[action]? = some (.linkStep link))
    (hissue : mapping.staged.logicalIssueTime edge.src = .ok issue) {stream : PeriodicStream}
    (h : linkStream mapping request edge (issue - edge.distance * mapping.staged.modulo.ii) action
      link = .ok stream) :
    Carries dfg mapping request.tripCount (.linkLaunch edge.id action) stream := by
  obtain ⟨first, hfirst, h⟩ := bind_eq_ok.mp h
  obtain ⟨tail, -, h⟩ := bind_eq_ok.mp h
  obtain rfl := Except.ok.inj h
  have htime : first = (issue + link.elapsedFromProducerIssue : ℕ)
      + -(edge.distance : ℤ) * mapping.staged.modulo.ii := by
    rw [addSigned_eq_some (orOverflow_eq_ok.mp hfirst)]
    push_cast
    ring
  rw [htime]
  exact carries_launch hedge hkind hdependence hplan haction hissue

theorem linkStreams_spec {edge : TargetEdge} {dependence : MappedDependence} {plan : TransportPlan}
    {issue : ℕ} (hedge : edge ∈ dfg.edges) (hkind : edge.kind ≠ .memory)
    (hdependence : mapping.staged.modulo.dependence edge.id = .ok dependence)
    (hplan : dependence.transport = some plan)
    (hissue : mapping.staged.logicalIssueTime edge.src = .ok issue)
    {actions : List (TransportAction × ℕ)} (hactions : ∀ a ∈ actions, a ∈ plan.actions.zipIdx)
    {streams : List PeriodicStream}
    (h : linkStreams mapping request edge (issue - edge.distance * mapping.staged.modulo.ii) actions
      = .ok streams) :
    List.Forall₂ (Carries dfg mapping request.tripCount) (linkKeys edge.id actions) streams := by
  induction actions generalizing streams with
  | nil =>
    obtain rfl := Except.ok.inj h
    exact .nil
  | cons action actions ih =>
    obtain ⟨haction, hrest⟩ := List.forall_mem_cons.mp hactions
    rcases action with ⟨action, index⟩
    cases action with
    | virtualHold hold => exact ih hrest h
    | linkStep link =>
      obtain ⟨stream, hstream, h⟩ := bind_eq_ok.mp h
      obtain ⟨rest, hstreams, h⟩ := bind_eq_ok.mp h
      obtain rfl := Except.ok.inj h
      exact .cons (linkStream_spec hedge hkind hdependence hplan
        (List.mem_zipIdx_iff_getElem?.mp haction) hissue hstream) (ih hrest hstreams)

theorem boundaryShot_spec {edge : TargetEdge} (hedge : edge ∈ dfg.edges)
    (hkind : edge.kind ≠ .memory) {offset : ℕ}
    (hoffset : offset < min request.tripCount edge.distance)
    {shot : OneShot} (h : boundaryShot dfg mapping edge offset = .ok shot) :
    CarriesOnce dfg mapping request.tripCount (.boundaryValueInject edge.id offset) shot := by
  unfold boundaryShot at h
  split at h
  · cases h
  rename_i value hvalue
  dsimp only at h
  split at h
  · cases h
  rename_i source hsource
  obtain ⟨_, hfound, h⟩ := bind_eq_ok.mp h
  obtain rfl := Except.ok.inj hfound
  obtain ⟨producer, hproducer, h⟩ := bind_eq_ok.mp h
  obtain ⟨iteration, hiteration, h⟩ := bind_eq_ok.mp h
  obtain ⟨iterationTime, hiterationTime, h⟩ := bind_eq_ok.mp h
  obtain ⟨readyOffset, hreadyOffset, h⟩ := bind_eq_ok.mp h
  obtain ⟨ready, hready, h⟩ := bind_eq_ok.mp h
  obtain ⟨placement, hplacement, h⟩ := bind_eq_ok.mp h
  obtain rfl := Except.ok.inj h
  obtain ⟨issue, hissue, rfl⟩ := signedTime_eq_ok hproducer
  obtain ⟨sum, hsum, hready⟩ := Option.bind_eq_some_iff.mp (orOverflow_eq_ok.mp hready)
  have hback : iteration = (offset : ℤ) - edge.distance := by
    rw [mulSigned_eq_some (orOverflow_eq_ok.mp hiteration)]
    omega
  have htime : ready = issue + ((offset : ℤ) - edge.distance) * mapping.staged.modulo.ii
      + source.producerOutputReadyOffset.getD 0 := by
    rw [addSigned_eq_some hready, addSigned_eq_some hsum,
      mulSigned_eq_some (orOverflow_eq_ok.mp hiterationTime),
      toSigned_eq_some (orOverflow_eq_ok.mp hreadyOffset), hback]
  subst hback htime
  constructor
  · have hoccurs : OccursAt dfg mapping request.tripCount 0 _ _ :=
      OccursAt.boundaryValueInject hedge hkind hoffset hsource hissue
    simpa using hoccurs
  · exact EventFor.boundaryValueInject hedge hkind (orInternal_eq_ok.mp hplacement) hvalue

theorem edgeEvents_spec {edge : TargetEdge} (hedge : edge ∈ dfg.edges)
    {own : List PeriodicStream × List OneShot}
    (h : edgeEvents dfg mapping request edge = .ok own) :
    List.Forall₂ (Carries dfg mapping request.tripCount) (edgeKeys mapping edge) own.1 ∧
      List.Forall₂ (CarriesOnce dfg mapping request.tripCount)
        (edgeShotNames request.tripCount edge) own.2 := by
  unfold edgeEvents at h
  split at h
  · rename_i hkind
    obtain rfl := Except.ok.inj h
    rw [edgeKeys, if_pos hkind, edgeShotNames, if_pos hkind]
    exact ⟨.nil, .nil⟩
  rename_i hkind
  obtain ⟨dependence, hdependence, h⟩ := bind_eq_ok.mp h
  split at h
  · cases h
  rename_i plan hplan
  obtain ⟨source, hsource, h⟩ := bind_eq_ok.mp h
  obtain ⟨distanceTime, hdistance, h⟩ := bind_eq_ok.mp h
  obtain ⟨firstBase, hbase, h⟩ := bind_eq_ok.mp h
  obtain ⟨streams, hstreams, h⟩ := bind_eq_ok.mp h
  obtain ⟨shots, hshots, h⟩ := bind_eq_ok.mp h
  obtain rfl := Except.ok.inj h
  obtain ⟨issue, hissue, rfl⟩ := signedTime_eq_ok hsource
  have hdependence := orInternal_eq_ok.mp hdependence
  rw [subtractSigned_eq_some (orOverflow_eq_ok.mp hbase),
    mulSigned_eq_some (orOverflow_eq_ok.mp hdistance)] at hstreams
  constructor
  · have hkeys : edgeKeys mapping edge = linkKeys edge.id plan.actions.zipIdx := by
      simp [edgeKeys, hkind, hdependence, hplan]
    rw [hkeys]
    exact linkStreams_spec hedge hkind hdependence hplan hissue (fun _ h ↦ h) hstreams
  · rw [edgeShotNames, if_neg hkind, List.forall₂_map_left_iff]
    exact forall₂_of_mapM hshots fun offset hoffset shot hshot ↦
      boundaryShot_spec hedge hkind (List.mem_range.mp hoffset) hshot

theorem carries_access {edge : TargetEdge} {segment : StorageSegment}
    {allocation : StorageAllocation} (hmem : segment ∈ mapping.storageRequirements.segments)
    (hedge : edge ∈ dfg.edges) (hid : edge.id = segment.edge)
    (hallocation : mapping.allocationFor segment.id = some allocation) (write : Bool)
    (tripCount : ℕ) :
    Carries dfg mapping tripCount (if write then .rfWrite segment.id else .rfRead segment.id)
      ⟨accessEvent segment allocation write (-(edge.distance : ℤ)),
        (if write then segment.writeTime else segment.readTime : ℕ)
          + -(edge.distance : ℤ) * mapping.staged.modulo.ii, tripCount,
        mapping.staged.modulo.ii⟩ := by
  cases write with
  | true => exact ⟨⟨_, _, Stream.rfWrite hmem hedge hid, rfl⟩, EventFor.rfWrite _ hmem hallocation,
      rfl, rfl⟩
  | false => exact ⟨⟨_, _, Stream.rfRead hmem hedge hid, rfl⟩, EventFor.rfRead _ hmem hallocation,
      rfl, rfl⟩

theorem accessStream_spec {edge : TargetEdge} {segment : StorageSegment}
    (hmem : segment ∈ mapping.storageRequirements.segments) (hedge : edge ∈ dfg.edges)
    (hid : edge.id = segment.edge) {write : Bool} {stream : PeriodicStream}
    (h : accessStream mapping request edge segment write
      (edge.distance * mapping.staged.modulo.ii) = .ok stream) :
    Carries dfg mapping request.tripCount
      (if write then .rfWrite segment.id else .rfRead segment.id) stream := by
  obtain ⟨baseTime, hbase, h⟩ := bind_eq_ok.mp h
  dsimp only at h
  split at h
  · cases h
  rename_i allocation hallocation
  obtain ⟨_, hfound, h⟩ := bind_eq_ok.mp h
  obtain rfl := Except.ok.inj hfound
  obtain ⟨tail, -, h⟩ := bind_eq_ok.mp h
  obtain rfl := Except.ok.inj h
  obtain ⟨base, hvalue, hbase⟩ := Option.bind_eq_some_iff.mp (orOverflow_eq_ok.mp hbase)
  have htime : baseTime = (if write then segment.writeTime else segment.readTime : ℕ)
      + -(edge.distance : ℤ) * mapping.staged.modulo.ii := by
    rw [subtractSigned_eq_some hbase, toSigned_eq_some hvalue]
    ring
  rw [htime]
  exact carries_access hmem hedge hid hallocation write request.tripCount

theorem segmentStreams_spec {segment : StorageSegment}
    (hmem : segment ∈ mapping.storageRequirements.segments) {streams : List PeriodicStream}
    (h : segmentStreams dfg mapping request segment = .ok streams) :
    List.Forall₂ (Carries dfg mapping request.tripCount) (segmentKeys segment) streams := by
  unfold segmentStreams at h
  split at h
  · cases h
  rename_i edge hedge
  split at h
  · cases h
  obtain ⟨distanceTime, hdistance, h⟩ := bind_eq_ok.mp h
  obtain ⟨write, hwrite, h⟩ := bind_eq_ok.mp h
  obtain ⟨read, hread, h⟩ := bind_eq_ok.mp h
  obtain rfl := Except.ok.inj h
  rw [mulSigned_eq_some (orOverflow_eq_ok.mp hdistance)] at hwrite hread
  have hmemEdge := TargetDFG.mem_of_findEdge hedge
  have hid := TargetDFG.findEdge_id hedge
  exact .cons (accessStream_spec hmem hmemEdge hid hwrite)
    (.cons (accessStream_spec hmem hmemEdge hid hread) .nil)

theorem liveOutShot_spec (hpos : request.tripCount ≠ 0) {liveOut : TargetLiveOut}
    (hmem : liveOut ∈ dfg.liveOuts) {shot : OneShot}
    (h : liveOutShot dfg mapping request liveOut = .ok shot) :
    CarriesOnce dfg mapping request.tripCount
      (.liveOutBoundaryUse liveOut.id ((request.tripCount : ℤ) - 1)) shot := by
  unfold liveOutShot at h
  split at h
  · cases h
  rename_i node hnode
  split at h
  · cases h
  rename_i latency hlatency
  obtain ⟨source, hsource, h⟩ := bind_eq_ok.mp h
  obtain ⟨iterationTime, hiteration, h⟩ := bind_eq_ok.mp h
  obtain ⟨time, htime, h⟩ := bind_eq_ok.mp h
  obtain rfl := Except.ok.inj h
  obtain ⟨issue, hissue, rfl⟩ := signedTime_eq_ok hsource
  obtain ⟨sum, hsum, htime⟩ := Option.bind_eq_some_iff.mp (orOverflow_eq_ok.mp htime)
  have hcast : ((request.tripCount - 1 : ℕ) : ℤ) = (request.tripCount : ℤ) - 1 := by omega
  rw [addSigned_eq_some htime, addSigned_eq_some hsum,
    mulSigned_eq_some (orOverflow_eq_ok.mp hiteration), hcast]
  constructor
  · have hoccurs : OccursAt dfg mapping request.tripCount 0 _ _ :=
      OccursAt.liveOutBoundaryUse hmem hnode hlatency hissue
    simpa using hoccurs
  · exact EventFor.liveOutBoundaryUse hmem

/-- **What the materializer lists** stands for the events of the loop, in the order of their
keys. -/
theorem events_spec (hpos : request.tripCount ≠ 0)
    {all : List PeriodicStream × List OneShot} (h : events dfg mapping request = .ok all) :
    List.Forall₂ (Carries dfg mapping request.tripCount) (streamKeys dfg mapping) all.1 ∧
      List.Forall₂ (CarriesOnce dfg mapping request.tripCount)
        (shotNames dfg request.tripCount) all.2 := by
  obtain ⟨nodes, hnodes, h⟩ := bind_eq_ok.mp h
  obtain ⟨edges, hedges, h⟩ := bind_eq_ok.mp h
  obtain ⟨segments, hsegments, h⟩ := bind_eq_ok.mp h
  obtain ⟨liveOuts, hliveOuts, h⟩ := bind_eq_ok.mp h
  obtain rfl := Except.ok.inj h
  have hown := forall₂_of_mapM hedges fun edge hedge own hown ↦ edgeEvents_spec hedge hown
  rw [streamKeys, shotNames, List.flatMap_def, List.flatMap_def, List.flatMap_def]
  constructor
  · refine List.rel_append (List.rel_append ?_ (List.rel_flatten ?_)) (List.rel_flatten ?_)
    · rw [List.forall₂_map_left_iff]
      exact forall₂_of_mapM hnodes fun node hnode stream hstream ↦ nodeStream_spec hnode hstream
    · rw [List.forall₂_map_left_iff, List.forall₂_map_right_iff]
      exact hown.imp fun _ _ h ↦ h.1
    · rw [List.forall₂_map_left_iff]
      exact forall₂_of_mapM hsegments fun segment hmem streams hstreams ↦
        segmentStreams_spec hmem hstreams
  · refine List.rel_append (List.rel_flatten ?_) ?_
    · rw [List.forall₂_map_left_iff, List.forall₂_map_right_iff]
      exact hown.imp fun _ _ h ↦ h.2
    · rw [List.forall₂_map_left_iff]
      exact forall₂_of_mapM hliveOuts fun liveOut hmem shot hshot ↦
        liveOutShot_spec hpos hmem hshot

/-! ## Every event of the loop is listed, and once -/

theorem mem_linkKeys {edge : TargetEdgeId} {actions : List (TransportAction × ℕ)}
    {key : PeriodicKey} : key ∈ linkKeys edge actions ↔ ∃ link index,
      (TransportAction.linkStep link, index) ∈ actions ∧ key = .linkLaunch edge index := by
  induction actions with
  | nil => simp [linkKeys]
  | cons action actions ih =>
    rcases action with ⟨link | hold, index⟩
    · rw [linkKeys, List.mem_cons, ih]
      constructor
      · rintro (rfl | ⟨link', index', hmem, rfl⟩)
        · exact ⟨link, index, List.mem_cons_self, rfl⟩
        · exact ⟨link', index', List.mem_cons_of_mem _ hmem, rfl⟩
      · rintro ⟨link', index', hmem, rfl⟩
        rcases List.mem_cons.mp hmem with hsame | hmem
        · obtain ⟨-, rfl⟩ := Prod.mk.inj hsame
          exact .inl rfl
        · exact .inr ⟨link', index', hmem, rfl⟩
    · simp [linkKeys, ih]

theorem nodup_linkKeys {edge : TargetEdgeId} {actions : List (TransportAction × ℕ)}
    (h : (actions.map Prod.snd).Nodup) : (linkKeys edge actions).Nodup := by
  induction actions with
  | nil => exact List.nodup_nil
  | cons action actions ih =>
    rw [List.map_cons, List.nodup_cons] at h
    rcases action with ⟨link | hold, index⟩
    · rw [linkKeys, List.nodup_cons]
      refine ⟨fun hmem ↦ h.1 ?_, ih h.2⟩
      obtain ⟨link', index', hmem, hsame⟩ := mem_linkKeys.mp hmem
      obtain ⟨-, rfl⟩ := PeriodicKey.linkLaunch.inj hsame
      exact List.mem_map.mpr ⟨_, hmem, rfl⟩
    · exact ih h.2

theorem mem_edgeKeys {edge : TargetEdge} {key : PeriodicKey} (h : key ∈ edgeKeys mapping edge) :
    ∃ index, key = .linkLaunch edge.id index := by
  unfold edgeKeys at h
  split at h
  · cases h
  split at h
  · cases h
  obtain ⟨-, index, -, rfl⟩ := mem_linkKeys.mp h
  exact ⟨index, rfl⟩

theorem nodup_edgeKeys (edge : TargetEdge) : (edgeKeys mapping edge).Nodup := by
  unfold edgeKeys
  split
  · exact List.nodup_nil
  split
  · exact List.nodup_nil
  refine nodup_linkKeys ?_
  rw [List.zipIdx_map_snd]
  exact List.nodup_range'

/-- No two streams have the same key. -/
theorem nodup_streamKeys (hv : mapping.Verified dfg target) :
    (streamKeys dfg mapping).Nodup := by
  have hgraph := hv.staged.modulo.graph
  have hedges : (dfg.edges.flatMap (edgeKeys mapping)).Nodup := by
    refine nodup_flatMap_of_key hgraph.nodup_edges (fun edge _ ↦ nodup_edgeKeys edge)
      fun a b key ha hb ↦ ?_
    obtain ⟨index, rfl⟩ := mem_edgeKeys ha
    obtain ⟨index', hsame⟩ := mem_edgeKeys hb
    exact (PeriodicKey.linkLaunch.inj hsame).1
  have hsegments : (mapping.storageRequirements.segments.flatMap segmentKeys).Nodup := by
    refine nodup_flatMap_of_key (StorageRequirementAnalysis.nodup_ids hv.requirements)
      (fun segment _ ↦ by simp [segmentKeys]) fun a b key ha hb ↦ ?_
    simp only [segmentKeys, List.mem_cons, List.not_mem_nil, or_false] at ha hb
    rcases ha with rfl | rfl
    all_goals simpa using hb
  have hnodes : (dfg.nodes.map fun node ↦ PeriodicKey.nodeIssue node.id).Nodup := by
    have h := hgraph.nodup_nodes.map (f := PeriodicKey.nodeIssue) fun a b h ↦
      PeriodicKey.nodeIssue.inj h
    simpa only [List.map_map, Function.comp_def] using h
  -- the kinds of the keys tell the three lists apart
  rw [streamKeys, List.nodup_append', List.nodup_append']
  refine ⟨⟨hnodes, hedges, fun key hnode hedge ↦ ?_⟩, hsegments, fun key hkey hsegment ↦ ?_⟩
  · obtain ⟨node, -, rfl⟩ := List.mem_map.mp hnode
    obtain ⟨edge, -, hmem⟩ := List.mem_flatMap.mp hedge
    obtain ⟨index, hsame⟩ := mem_edgeKeys hmem
    cases hsame
  · obtain ⟨segment, -, hmem⟩ := List.mem_flatMap.mp hsegment
    have hkind : key = .rfWrite segment.id ∨ key = .rfRead segment.id := by
      simpa [segmentKeys] using hmem
    rcases List.mem_append.mp hkey with hnode | hedge
    · obtain ⟨node, -, rfl⟩ := List.mem_map.mp hnode
      rcases hkind with hsame | hsame
      all_goals cases hsame
    · obtain ⟨edge, -, hmem⟩ := List.mem_flatMap.mp hedge
      obtain ⟨index, rfl⟩ := mem_edgeKeys hmem
      rcases hkind with hsame | hsame
      all_goals cases hsame

/-- Every stream of the loop is listed. -/
theorem mem_streamKeys {tripCount : ℕ} {key : PeriodicKey} {time : ℕ} {first last : ℤ}
    (h : Stream dfg mapping tripCount key time first last) : key ∈ streamKeys dfg mapping := by
  simp only [streamKeys, List.mem_append, List.mem_map, List.mem_flatMap]
  rcases h with ⟨hnode, -⟩ | ⟨hedge, hkind, hdependence, hplan, haction, -⟩ | ⟨hmem, -, -⟩ |
    ⟨hmem, -, -⟩
  · exact .inl (.inl ⟨_, hnode, rfl⟩)
  · refine .inl (.inr ⟨_, hedge, ?_⟩)
    simp only [edgeKeys, if_neg hkind, hdependence, hplan, Option.map_some, Option.getD_some]
    exact mem_linkKeys.mpr ⟨_, _, List.mem_zipIdx_iff_getElem?.mpr haction, rfl⟩
  · exact .inr ⟨_, hmem, by simp [segmentKeys]⟩
  · exact .inr ⟨_, hmem, by simp [segmentKeys]⟩

theorem mem_edgeShotNames {tripCount : ℕ} {edge : TargetEdge} {name : EventName} :
    name ∈ edgeShotNames tripCount edge ↔ edge.kind ≠ .memory ∧
      ∃ offset < min tripCount edge.distance, name = .boundaryValueInject edge.id offset := by
  unfold edgeShotNames
  split
  · simp [*]
  · rename_i hkind
    rw [List.mem_map]
    constructor
    · rintro ⟨offset, hoffset, rfl⟩
      exact ⟨hkind, offset, List.mem_range.mp hoffset, rfl⟩
    · rintro ⟨-, offset, hoffset, rfl⟩
      exact ⟨offset, List.mem_range.mpr hoffset, rfl⟩

/-- No two boundary events have the same name. -/
theorem nodup_shotNames (hv : dfg.Verified target) (tripCount : ℕ) :
    (shotNames dfg tripCount).Nodup := by
  rw [shotNames, List.nodup_append']
  refine ⟨?_, ?_, fun name hedge hliveOut ↦ ?_⟩
  · refine nodup_flatMap_of_key hv.nodup_edges (fun edge _ ↦ ?_) fun a b name ha hb ↦ ?_
    · unfold edgeShotNames
      split
      · exact List.nodup_nil
      · exact List.nodup_range.map fun a b h ↦ (EventName.boundaryValueInject.inj h).2
    · obtain ⟨-, offset, -, rfl⟩ := mem_edgeShotNames.mp ha
      obtain ⟨-, offset', -, hsame⟩ := mem_edgeShotNames.mp hb
      exact (EventName.boundaryValueInject.inj hsame).1
  · have h := hv.nodup_liveOuts.map (f := (EventName.liveOutBoundaryUse · ((tripCount : ℤ) - 1)))
      fun a b h ↦ (EventName.liveOutBoundaryUse.inj h).1
    simpa only [List.map_map, Function.comp_def] using h
  · obtain ⟨edge, -, hmem⟩ := List.mem_flatMap.mp hedge
    obtain ⟨-, offset, -, rfl⟩ := mem_edgeShotNames.mp hmem
    simp at hliveOut

/-- Every boundary event of the loop is listed, and no iteration of a stream is. -/
theorem mem_shotNames {tripCount : ℕ} {name : EventName} {time : ℤ}
    (h : OccursAt dfg mapping tripCount 0 name time) :
    name ∈ shotNames dfg tripCount ↔ ∀ key iteration, name ≠ .periodic key iteration := by
  simp only [shotNames, List.mem_append, List.mem_map, List.mem_flatMap, mem_edgeShotNames]
  rcases h with ⟨hstream, -, -⟩ | ⟨hedge, hkind, hoffset, -, -⟩ | ⟨hmem, -, -, -⟩
  · simp
  · simp only [ne_eq, reduceCtorEq, not_false_eq_true, implies_true, iff_true]
    exact .inl ⟨_, hedge, hkind, _, hoffset, rfl⟩
  · simp only [ne_eq, reduceCtorEq, not_false_eq_true, implies_true, iff_true]
    exact .inr ⟨_, hmem, rfl⟩

/-! ## Nothing stops the listing -/

theorem exists_account {shift : ℕ} (hs : Schedulable dfg target mapping request.tripCount shift)
    {key : PeriodicKey} {stream : PeriodicStream}
    (h : Carries dfg mapping request.tripCount key stream) : ∃ tail, account stream = .ok tail := by
  obtain ⟨⟨time, last, hstream, htime⟩, -, hcount, hperiod⟩ := h
  obtain ⟨hspan, hsum⟩ := hs.streamEnd_eq hstream
  have hpos := hs.pos
  have hii := hs.verified.staged.ii_pos
  refine ⟨time + last * mapping.staged.modulo.ii, ?_⟩
  rw [account, if_neg (by omega), orOverflow_eq_ok, hcount, hperiod, htime, hspan]
  exact hsum

theorem exists_nodeStream {shift : ℕ} (hs : Schedulable dfg target mapping request.tripCount shift)
    {node : TargetNode} (hnode : node ∈ dfg.nodes) :
    ∃ stream, nodeStream mapping request node = .ok stream := by
  obtain ⟨issue, hissue⟩ := hs.verified.staged.times node hnode
  obtain ⟨tail, htail⟩ := exists_account hs (carries_issue hnode hissue)
  have hle := hs.fits.time_le _ _ _ _ (Stream.nodeIssue hnode hissue)
  exact ⟨_, bind_eq_ok.mpr ⟨_, signedTime_of_le hissue hle, bind_eq_ok.mpr ⟨tail, htail, rfl⟩⟩⟩

theorem exists_linkStream {shift : ℕ} (hs : Schedulable dfg target mapping request.tripCount shift)
    {edge : TargetEdge} {dependence : MappedDependence} {plan : TransportPlan}
    {action : ℕ} {link : LinkStep} {issue : ℕ} (hedge : edge ∈ dfg.edges)
    (hkind : edge.kind ≠ .memory)
    (hdependence : mapping.staged.modulo.dependence edge.id = .ok dependence)
    (hplan : dependence.transport = some plan)
    (haction : plan.actions[action]? = some (.linkStep link))
    (hissue : mapping.staged.logicalIssueTime edge.src = .ok issue) :
    ∃ stream, linkStream mapping request edge (issue - edge.distance * mapping.staged.modulo.ii)
      action link = .ok stream := by
  have hfirst := hs.linkTime_eq hedge hkind hissue
    (Stream.linkLaunch hedge hkind hdependence hplan haction hissue)
  obtain ⟨tail, htail⟩ := exists_account hs
    (carries_launch hedge hkind hdependence hplan haction hissue)
  exact ⟨_, bind_eq_ok.mpr ⟨_, orOverflow_eq_ok.mpr hfirst, bind_eq_ok.mpr ⟨tail, htail, rfl⟩⟩⟩

theorem exists_linkStreams {shift : ℕ} (hs : Schedulable dfg target mapping request.tripCount shift)
    {edge : TargetEdge} {dependence : MappedDependence} {plan : TransportPlan}
    {issue : ℕ} (hedge : edge ∈ dfg.edges) (hkind : edge.kind ≠ .memory)
    (hdependence : mapping.staged.modulo.dependence edge.id = .ok dependence)
    (hplan : dependence.transport = some plan)
    (hissue : mapping.staged.logicalIssueTime edge.src = .ok issue)
    {actions : List (TransportAction × ℕ)} (hactions : ∀ a ∈ actions, a ∈ plan.actions.zipIdx) :
    ∃ streams, linkStreams mapping request edge
      (issue - edge.distance * mapping.staged.modulo.ii) actions = .ok streams := by
  induction actions with
  | nil => exact ⟨[], rfl⟩
  | cons action actions ih =>
    obtain ⟨haction, hrest⟩ := List.forall_mem_cons.mp hactions
    obtain ⟨streams, hstreams⟩ := ih hrest
    rcases action with ⟨link | hold, index⟩
    · obtain ⟨stream, hstream⟩ := exists_linkStream hs hedge hkind hdependence hplan
        (List.mem_zipIdx_iff_getElem?.mp haction) hissue
      exact ⟨_, bind_eq_ok.mpr ⟨stream, hstream, bind_eq_ok.mpr ⟨streams, hstreams, rfl⟩⟩⟩
    · exact ⟨streams, hstreams⟩

theorem exists_boundaryShot {shift : ℕ}
    (hs : Schedulable dfg target mapping request.tripCount shift) {edge : TargetEdge}
    (hedge : edge ∈ dfg.edges) (hkind : edge.kind ≠ .memory) {offset : ℕ}
    (hoffset : offset < min request.tripCount edge.distance)
    (hvalue : (boundaryValue edge offset).isSome) :
    ∃ shot, boundaryShot dfg mapping edge offset = .ok shot := by
  obtain ⟨value, hvalue⟩ := Option.isSome_iff_exists.mp hvalue
  obtain ⟨source, ready, placement, -, -, issue, use, hsource, hready, hplacement, -, -, hissue,
    huse, hle⟩ := hs.verified.staged.route hedge hkind
  -- the value is ready in a cycle that fits, and the iteration begins in cycle zero or later
  have hcycle := hs.fits.lt _ _
    (OccursAt.boundaryValueInject hedge hkind hoffset hsource hissue)
  have hissued := hs.fits.issued edge hedge hkind issue hissue
  have hback : -((edge.distance : ℤ) * mapping.staged.modulo.ii)
      ≤ ((offset : ℤ) - edge.distance) * mapping.staged.modulo.ii := by
    have hoffset : (0 : ℤ) ≤ offset * mapping.staged.modulo.ii := by positivity
    linarith
  have hready : ((source.producerOutputReadyOffset.getD 0 : ℕ) : ℤ) ≤ int64Max := by
    zify at hissued
    linarith
  have hoccurs : OccursAt dfg mapping request.tripCount 0 (.boundaryValueInject edge.id offset)
      (issue + ((offset : ℤ) - edge.distance) * mapping.staged.modulo.ii
        + source.producerOutputReadyOffset.getD 0) := by
    have h : OccursAt dfg mapping request.tripCount 0 _ _ :=
      OccursAt.boundaryValueInject hedge hkind hoffset hsource hissue
    simpa using h
  obtain ⟨hiteration, hproduct, hsum, htotal⟩ := hs.injectTime_eq hedge hkind
    (hoffset.trans_le (min_le_right _ _)) hissue rfl ⟨_, hoccurs⟩
  have hle := (hs.producerBase_eq hedge hkind hissue).1
  have hshot := htotal
  rw [← Option.bind_some (f := fun ready ↦
    addSigned ready (source.producerOutputReadyOffset.getD 0 : ℕ)), ← hsum] at hshot
  unfold boundaryShot
  simp only [hvalue, hsource]
  exact ⟨_, bind_eq_ok.mpr ⟨_, rfl, bind_eq_ok.mpr ⟨_, signedTime_of_le hissue hle,
    bind_eq_ok.mpr ⟨_, orOverflow_eq_ok.mpr hiteration, bind_eq_ok.mpr
    ⟨_, orOverflow_eq_ok.mpr hproduct, bind_eq_ok.mpr ⟨_, orOverflow_eq_ok.mpr
    (toSigned_of_le hready), bind_eq_ok.mpr ⟨_, orOverflow_eq_ok.mpr hshot, bind_eq_ok.mpr
    ⟨placement, orInternal_eq_ok.mpr hplacement, rfl⟩⟩⟩⟩⟩⟩⟩⟩

theorem exists_edgeEvents {shift : ℕ} (hs : Schedulable dfg target mapping request.tripCount shift)
    {edge : TargetEdge} (hedge : edge ∈ dfg.edges)
    (hvalues : edge.kind ≠ .memory → ∀ offset < min request.tripCount edge.distance,
      (boundaryValue edge offset).isSome) :
    ∃ own, edgeEvents dfg mapping request edge = .ok own := by
  unfold edgeEvents
  split
  · exact ⟨_, rfl⟩
  rename_i hkind
  obtain ⟨-, -, -, dependence, plan, issue, -, -, -, -, hdependence, hplan, hissue, -, -⟩ :=
    hs.verified.staged.route hedge hkind
  obtain ⟨hle, hproduct, hbase⟩ := hs.producerBase_eq hedge hkind hissue
  obtain ⟨streams, hstreams⟩ := @exists_linkStreams _ _ _ request _ hs _ _ _ _ hedge hkind
    hdependence hplan hissue _ fun _ h ↦ h
  obtain ⟨shots, hshots⟩ := exists_mapM fun offset hoffset ↦
    exists_boundaryShot hs hedge hkind (List.mem_range.mp hoffset)
      (hvalues hkind offset (List.mem_range.mp hoffset))
  refine ⟨(streams, shots), bind_eq_ok.mpr ⟨dependence, orInternal_eq_ok.mpr hdependence, ?_⟩⟩
  simp only [hplan]
  exact bind_eq_ok.mpr ⟨_, signedTime_of_le hissue hle, bind_eq_ok.mpr
    ⟨_, orOverflow_eq_ok.mpr hproduct, bind_eq_ok.mpr ⟨_, orOverflow_eq_ok.mpr hbase,
    bind_eq_ok.mpr ⟨streams, hstreams, bind_eq_ok.mpr ⟨shots, hshots, rfl⟩⟩⟩⟩⟩

theorem exists_accessStream {shift : ℕ}
    (hs : Schedulable dfg target mapping request.tripCount shift) {edge : TargetEdge}
    {segment : StorageSegment} (hmem : segment ∈ mapping.storageRequirements.segments)
    (hedge : edge ∈ dfg.edges) (hkind : edge.kind ≠ .memory) (hid : edge.id = segment.edge)
    (write : Bool) : ∃ stream, accessStream mapping request edge segment write
      (edge.distance * mapping.staged.modulo.ii) = .ok stream := by
  obtain ⟨allocation, -, hallocation, -⟩ := hs.verified.held segment hmem
  have hcarries := carries_access hmem hedge hid hallocation write request.tripCount
  obtain ⟨tail, htail⟩ := exists_account hs hcarries
  have hle : ((if write then segment.writeTime else segment.readTime : ℕ) : ℤ) ≤ int64Max := by
    cases write with
    | true => exact hs.fits.time_le _ _ _ _ (Stream.rfWrite hmem hedge hid)
    | false => exact hs.fits.time_le _ _ _ _ (Stream.rfRead hmem hedge hid)
  obtain ⟨-, hbase⟩ := hs.accessTime_eq hedge hkind hle
  unfold accessStream
  simp only [hallocation, toSigned_of_le hle, Option.bind_some, hbase]
  exact ⟨_, bind_eq_ok.mpr ⟨_, rfl, bind_eq_ok.mpr ⟨_, rfl, bind_eq_ok.mpr ⟨tail, htail, rfl⟩⟩⟩⟩

theorem exists_segmentStreams {shift : ℕ}
    (hs : Schedulable dfg target mapping request.tripCount shift) {segment : StorageSegment}
    (hmem : segment ∈ mapping.storageRequirements.segments) :
    ∃ streams, segmentStreams dfg mapping request segment = .ok streams := by
  obtain ⟨edge, hedge, hkind, hid⟩ :=
    StorageRequirementAnalysis.onValueEdges hs.verified.requirements segment hmem
  obtain ⟨write, hwrite⟩ := exists_accessStream hs hmem hedge hkind hid.symm true
  obtain ⟨read, hread⟩ := exists_accessStream hs hmem hedge hkind hid.symm false
  have hproduct := (hs.accessTime_eq hedge hkind (by decide : ((0 : ℕ) : ℤ) ≤ int64Max)).1
  rw [segmentStreams, hid, hs.verified.staged.modulo.graph.findEdge_of_mem hedge]
  simp only [if_neg hkind]
  exact ⟨_, bind_eq_ok.mpr ⟨_, orOverflow_eq_ok.mpr hproduct, bind_eq_ok.mpr ⟨write, hwrite,
    bind_eq_ok.mpr ⟨read, hread, rfl⟩⟩⟩⟩

theorem exists_liveOutShot {shift : ℕ}
    (hs : Schedulable dfg target mapping request.tripCount shift) {liveOut : TargetLiveOut}
    (hmem : liveOut ∈ dfg.liveOuts) :
    ∃ shot, liveOutShot dfg mapping request liveOut = .ok shot := by
  obtain ⟨node, hnode⟩ := hs.verified.staged.modulo.graph.liveOut liveOut hmem
  obtain ⟨latency, hlatency⟩ := Option.ne_none_iff_exists'.mp
    (hs.fits.timed liveOut hmem node hnode)
  obtain ⟨issue, hissue⟩ := hs.verified.staged.times node (TargetDFG.mem_of_findNode hnode)
  rw [TargetDFG.findNode_id hnode] at hissue
  have hoccurs : OccursAt dfg mapping request.tripCount 0
      (.liveOutBoundaryUse liveOut.id ((request.tripCount : ℤ) - 1))
      (issue + ((request.tripCount : ℤ) - 1) * mapping.staged.modulo.ii + latency) := by
    have h : OccursAt dfg mapping request.tripCount 0 _ _ :=
      OccursAt.liveOutBoundaryUse hmem hnode hlatency hissue
    simpa using h
  obtain ⟨hle, hproduct, hsum, htotal⟩ := hs.liveOutTime_eq hnode hissue rfl ⟨_, hoccurs⟩
  have hshot := htotal
  rw [← Option.bind_some (f := fun time ↦ addSigned time latency), ← hsum] at hshot
  unfold liveOutShot
  simp only [hnode, hlatency]
  exact ⟨_, bind_eq_ok.mpr ⟨_, signedTime_of_le hissue hle, bind_eq_ok.mpr
    ⟨_, orOverflow_eq_ok.mpr hproduct, bind_eq_ok.mpr ⟨_, orOverflow_eq_ok.mpr hshot, rfl⟩⟩⟩⟩

/-- **The listing is total** when the times fit and the boundary values are there. -/
theorem exists_events {shift : ℕ} (hs : Schedulable dfg target mapping request.tripCount shift)
    (hvalues : ∀ edge ∈ dfg.edges, edge.kind ≠ .memory →
      ∀ offset < min request.tripCount edge.distance, (boundaryValue edge offset).isSome) :
    ∃ all, events dfg mapping request = .ok all := by
  obtain ⟨nodes, hnodes⟩ := exists_mapM fun node hnode ↦
    exists_nodeStream hs hnode
  obtain ⟨edges, hedges⟩ := exists_mapM fun edge hedge ↦
    exists_edgeEvents hs hedge (hvalues edge hedge)
  obtain ⟨segments, hsegments⟩ := exists_mapM fun segment hmem ↦
    exists_segmentStreams hs hmem
  obtain ⟨liveOuts, hliveOuts⟩ := exists_mapM fun liveOut hmem ↦
    exists_liveOutShot hs hmem
  exact ⟨_, bind_eq_ok.mpr ⟨nodes, hnodes, bind_eq_ok.mpr ⟨edges, hedges, bind_eq_ok.mpr
    ⟨segments, hsegments, bind_eq_ok.mpr ⟨liveOuts, hliveOuts, rfl⟩⟩⟩⟩⟩

end Listed

end ScheduleMaterializer

end PredicatedMesh
