import PredicatedMesh.Lowering.Builder
import PredicatedMesh.Lowering.ControlVerifier
import PredicatedMesh.Target.Providers

/-!
# The calls of an event

What the events of an accepted schedule ask of their builders when their lowering does not fail: the
source a launch selects for the hop after another action, the source an operand that an edge feeds
is read from, and the read addresses that are set, which are those of the operands found in a
register and no others.
-/

namespace PredicatedMesh

open TargetControlProgramVerifier

namespace Lowerer

open Lowered

/-! ## Lists of calls -/

/-- A sequence of calls without an error is made of such calls. -/
theorem foldl_append_error {lowered : List Lowered} {start : Lowered}
    (h : (lowered.foldl append start).error = none) :
    start.error = none ∧ (∀ x ∈ lowered, x.error = none) ∧
      (lowered.foldl append start).calls = start.calls ++ lowered.flatMap Lowered.calls := by
  induction lowered generalizing start with
  | nil => exact ⟨h, by simp, by simp⟩
  | cons x lowered ih =>
    obtain ⟨hstart, hall, hcalls⟩ := ih h
    unfold append at hstart
    split at hstart
    · rename_i herror
      rw [hstart] at herror
      cases herror
    · rename_i hnone
      have happend : append start x = ⟨start.calls ++ x.calls, x.error⟩ := if_neg hnone
      refine ⟨by simpa using hnone, List.forall_mem_cons.mpr ⟨hstart, hall⟩, ?_⟩
      rw [List.foldl_cons, hcalls, happend, List.flatMap_cons, List.append_assoc]

theorem bind_error {α : Type} {result : Except LoweringError α} {rest : α → Lowered}
    (h : (bind result rest).error = none) :
    ∃ a, result = .ok a ∧ bind result rest = rest a := by
  cases result with
  | error error => cases h
  | ok a => exact ⟨a, rfl, rfl⟩

theorem not_mem_bind {α : Type} {result : Except LoweringError α} {rest : α → Lowered}
    {c : BuilderCall} (h : ∀ a, c ∉ (rest a).calls) : c ∉ (bind result rest).calls := by
  cases result with
  | error error => exact List.not_mem_nil
  | ok a => exact h a

/-! ## Where an event happens -/

/-- Resolving gives a node issue the tile the verifier looks it up at. -/
theorem resolve_eq_ok {mapping : RFAllocatedMapping} {event resolved : MaterializedEvent}
    (h : resolve mapping event = .ok resolved) :
    eventTile mapping event = .ok resolved.tile ∧
      resolved = { event with tile := resolved.tile } := by
  unfold resolve at h
  unfold eventTile
  split at h
  · rename_i node hkind htile hnode
    split at h
    · cases h
    · rename_i placement hplacement
      obtain rfl := Except.ok.inj h
      rw [htile, hkind, hnode]
      simp only [hplacement, Lowerer.ofString, Except.map, and_self]
  · rename_i hother
    obtain rfl := Except.ok.inj h
    refine ⟨?_, rfl⟩
    cases htile : event.tile with
    | some tile => rfl
    | none =>
      split
      · cases ‹none = some _›
      · rename_i node hnone hkind hnode
        exact absurd hnode (hother node hkind htile)
      · rfl

section Events

variable {dfg : TargetDFG} {target : TargetModel} {mapping : RFAllocatedMapping}
variable {image : ConstantImage}

/-! ## Launches -/

/-- A launch at a position of its plan after the first. -/
structure LaunchAfter (dfg : TargetDFG) (mapping : RFAllocatedMapping) (event : MaterializedEvent)
    (edge : TargetEdge) (plan : TransportPlan) (index : ℕ) (domain : NetworkDomain)
    (direction : Direction) : Prop where
  kind : event.kind = .linkLaunch
  mem : edge ∈ dfg.edges
  edge_eq : event.edge = some edge.id
  action_eq : event.transportActionIndex = some (index + 1)
  domain_eq : event.domain = some domain
  direction_eq : event.direction = some direction
  transport : ∃ dependence, mapping.staged.modulo.dependence edge.id = .ok dependence ∧
    dependence.transport = some plan

/-- What a launch asks for, as a function of the action before it. -/
def hopSource (mapping : RFAllocatedMapping) (edge : TargetEdge) (domain : NetworkDomain)
    (direction : Direction) : Option TransportAction → Lowered
  | some (.virtualHold hold) =>
    match segmentForEdgeAtTile mapping edge.id hold.tile with
    | none => fail (unsupportedValue "hold has no physical register")
    | some segment =>
      bind (allocationFor mapping segment) fun allocation ↦
        call (.route domain direction (rfSource (allocation.readPort == 1))) nothing
  | some (.linkStep prior) =>
    call (.route domain direction (edgeInput edge prior.direction)) nothing
  | none => fail (invalidSchedule "link action index is out of range")

theorem calls_launchAfter (hv : dfg.Verified target) {event resolved : MaterializedEvent}
    {edge : TargetEdge} {plan : TransportPlan} {index : ℕ} {domain : NetworkDomain}
    {direction : Direction}
    (hlaunch : LaunchAfter dfg mapping event edge plan index domain direction)
    (hresolve : resolve mapping event = .ok resolved)
    (herror : (calls dfg target mapping image resolved).error = none) :
    calls dfg target mapping image resolved
      = hopSource mapping edge domain direction plan.actions[index]? := by
  obtain ⟨-, hresolved⟩ := resolve_eq_ok hresolve
  obtain ⟨dependence, hdependence, hplan⟩ := hlaunch.transport
  rw [hresolved] at herror ⊢
  simp only [calls, hlaunch.kind] at herror ⊢
  split at herror
  · cases herror
  rename_i htile
  rw [if_neg htile]
  simp only [lowerLinkLaunch, hlaunch.edge_eq, hlaunch.direction_eq, hlaunch.domain_eq,
    hlaunch.action_eq, hv.findEdge_of_mem hlaunch.mem] at herror ⊢
  split at herror
  · cases herror
  rename_i hkind
  rw [if_neg hkind]
  simp only [Lowered.bind, hdependence, ofString, hplan] at herror ⊢
  split at herror
  · cases herror
  rename_i hindex
  rw [if_neg hindex, if_neg (Nat.add_one_ne_zero index), Nat.add_sub_cancel]
  rfl

/-- A launch after a hold selects the register of the first segment of its edge on the tile of the
hold. It sets no address. -/
theorem calls_launchAfter_hold (hv : dfg.Verified target) {event resolved : MaterializedEvent}
    {edge : TargetEdge} {plan : TransportPlan} {index : ℕ} {domain : NetworkDomain}
    {direction : Direction} {hold : VirtualHold}
    (hlaunch : LaunchAfter dfg mapping event edge plan index domain direction)
    (hhold : plan.actions[index]? = some (.virtualHold hold))
    (hresolve : resolve mapping event = .ok resolved)
    (herror : (calls dfg target mapping image resolved).error = none) :
    ∃ first allocation, segmentForEdgeAtTile mapping edge.id hold.tile = some first ∧
      mapping.allocationFor first.id = some allocation ∧
      (calls dfg target mapping image resolved).calls
        = [.route domain direction (rfSource (allocation.readPort == 1))] := by
  have hcalls := calls_launchAfter hv hlaunch hresolve herror
  rw [hcalls] at herror ⊢
  rw [hhold] at herror ⊢
  unfold hopSource at herror ⊢
  simp only at herror ⊢
  split at herror
  · cases herror
  rename_i first hfirst
  obtain ⟨allocation, hallocation, hrest⟩ := bind_error herror
  refine ⟨first, allocation, hfirst, ?_, by rw [hrest]; rfl⟩
  unfold allocationFor at hallocation
  split at hallocation
  · cases hallocation
  · rwa [← Except.ok.inj hallocation]

/-- A launch after another selects the input its value arrives at. -/
theorem calls_launchAfter_link (hv : dfg.Verified target) {event resolved : MaterializedEvent}
    {edge : TargetEdge} {plan : TransportPlan} {index : ℕ} {domain : NetworkDomain}
    {direction : Direction} {prior : LinkStep}
    (hlaunch : LaunchAfter dfg mapping event edge plan index domain direction)
    (hprior : plan.actions[index]? = some (.linkStep prior))
    (hresolve : resolve mapping event = .ok resolved)
    (herror : (calls dfg target mapping image resolved).error = none) :
    (calls dfg target mapping image resolved).calls
      = [.route domain direction (edgeInput edge prior.direction)] := by
  rw [calls_launchAfter hv hlaunch hresolve herror, hprior]
  rfl

/-! ## Operands -/

/-- An operand of the node an event issues, with the sink it goes to, fed by an edge. -/
structure OperandOf (dfg : TargetDFG) (target : TargetModel) (event : MaterializedEvent)
    (edge : TargetEdge) (sink : TargetControlSink) : Prop where
  kind : event.kind = .nodeIssue
  mem : edge ∈ dfg.edges
  node_eq : event.node = some edge.dst
  fed : ∃ node operation operand, dfg.findNode edge.dst = some node ∧
    target.findOperation node.operation = some operation ∧
    (operand, sink) ∈ operation.operandSinks ∧ edge.info.dstOperand = some operand

/-- The search for the edge of an operand. -/
theorem edgeForOperand_iff (h : TargetDFGVerifier.verify dfg target = []) {node : TargetNode}
    (hnode : node ∈ dfg.nodes) {operand : ℕ} {edge : TargetEdge} :
    edgeForOperand dfg node.id operand = .ok (some edge) ↔
      edge ∈ dfg.edges ∧ edge.dst = node.id ∧ edge.info.dstOperand = some operand := by
  have hv := TargetDFGVerifier.verified_of_verify h
  have hincoming := TargetDFGVerifier.incoming_of_checkAdjacency h hnode
  -- the ids of the incoming edges lead back to the edges
  have hedges : ((dfg.edges.filter fun edge ↦ edge.dst == node.id).map TargetEdge.id).filterMap
      dfg.findEdge = dfg.edges.filter fun edge ↦ edge.dst == node.id := by
    rw [List.filterMap_map]
    refine (List.filterMap_congr fun other hother ↦ ?_).trans List.filterMap_some
    exact hv.findEdge_of_mem (List.mem_of_mem_filter hother)
  unfold edgeForOperand
  rw [hincoming]
  simp only [hedges, Except.ok.injEq]
  constructor
  · intro hfind
    obtain ⟨hmem, hdst⟩ := List.mem_filter.mp (List.mem_of_find?_eq_some hfind)
    have hoperand := List.find?_some hfind
    exact ⟨hmem, by simpa using hdst, by simpa using hoperand⟩
  · rintro ⟨hmem, hdst, hoperand⟩
    obtain ⟨-, hunique⟩ := TargetDFGVerifier.provider_unique h hmem hoperand
    have hin : edge ∈ dfg.edges.filter fun edge ↦ edge.dst == node.id :=
      List.mem_filter.mpr ⟨hmem, by simpa using hdst⟩
    have hsome : ((dfg.edges.filter fun edge ↦ edge.dst == node.id).find? fun edge ↦
        edge.info.dstOperand == some operand).isSome := by
      rw [List.find?_isSome]
      exact ⟨edge, hin, by simpa using hoperand⟩
    obtain ⟨found, hfound⟩ := Option.isSome_iff_exists.mp hsome
    rw [hfound]
    obtain ⟨hmem', hdst'⟩ := List.mem_filter.mp (List.mem_of_find?_eq_some hfound)
    have hoperand' := List.find?_some hfound
    rw [hunique found hmem' ((by simpa using hdst' : found.dst = node.id).trans hdst.symm)
      (by simpa using hoperand')]

theorem bindingForOperand_eq_none (h : TargetDFGVerifier.verify dfg target = [])
    {edge : TargetEdge} (hmem : edge ∈ dfg.edges) {operand : ℕ}
    (hoperand : edge.info.dstOperand = some operand) :
    bindingForOperand dfg edge.dst operand = none := by
  unfold bindingForOperand
  rw [List.find?_eq_none]
  intro binding hbinding hmatch
  rw [Bool.and_eq_true, beq_iff_eq, beq_iff_eq] at hmatch
  exact (TargetDFGVerifier.provider_unique h hmem hoperand).1 binding hbinding hmatch

/-- An operand an edge feeds is looked up in a register, or read from the last link. -/
theorem lowerEdgeOperand_clean {tile : TileCoord} {sink : TargetControlSink} {edge : TargetEdge}
    (herror : (lowerEdgeOperand target mapping tile sink edge).error = none) :
    (∃ first allocation, segmentForEdgeAtTile mapping edge.id tile = some first ∧
      mapping.allocationFor first.id = some allocation ∧
      (lowerEdgeOperand target mapping tile sink edge).calls
        = [.readAddress first.domain allocation.readPort allocation.reg.index,
          .source sink (rfSource (allocation.readPort == 1))]) ∨
    segmentForEdgeAtTile mapping edge.id tile = none ∧ ∃ dependence plan link,
      mapping.staged.modulo.dependence edge.id = .ok dependence ∧
      dependence.transport = some plan ∧ plan.actions.getLast? = some (.linkStep link) ∧
      (lowerEdgeOperand target mapping tile sink edge).calls
        = [.source sink (edgeInput edge link.direction)] := by
  unfold lowerEdgeOperand at herror ⊢
  split at herror
  · cases herror
  rename_i hkind
  rw [if_neg hkind]
  split at herror
  · rename_i first hfirst
    obtain ⟨allocation, hallocation, hrest⟩ := bind_error herror
    rw [hrest] at herror
    refine .inl ⟨first, allocation, hfirst, ?_, ?_⟩
    · unfold allocationFor at hallocation
      split at hallocation
      · cases hallocation
      · rwa [← Except.ok.inj hallocation]
    · simp only [hrest]
      split at herror
      · cases herror
      · split at herror
        · cases herror
        · rename_i hport
          simp only [if_neg hport]
          rfl
  · rename_i hnone
    obtain ⟨dependence, hdependence, hrest⟩ := bind_error herror
    rw [hrest] at herror
    refine .inr ⟨hnone, ?_⟩
    simp only [hrest]
    split at herror
    · cases herror
    · cases herror
    · rename_i link hlink
      obtain ⟨plan, hplan, hlast⟩ := Option.bind_eq_some_iff.mp hlink
      refine ⟨dependence, plan, link, ?_, hplan, hlast, rfl⟩
      unfold ofString at hdependence
      split at hdependence
      · cases hdependence
      · rename_i hok
        rwa [← Except.ok.inj hdependence]

/-- A node issue asks for its operation and for its operands, none of which has failed. -/
theorem calls_nodeIssue {event resolved : MaterializedEvent} (hkind : event.kind = .nodeIssue)
    (hresolve : resolve mapping event = .ok resolved)
    (herror : (calls dfg target mapping image resolved).error = none) :
    ∃ id node operation tile call, event.node = some id ∧ dfg.findNode id = some node ∧
      target.findOperation node.operation = some operation ∧ resolved.tile = some tile ∧
      (∀ entry ∈ operation.operandSinks,
        (lowerOperand dfg target mapping image node operation tile entry).error = none) ∧
      (∀ domain port index, call ≠ .readAddress domain port index) ∧
      (calls dfg target mapping image resolved).calls
        = call :: operation.operandSinks.flatMap fun entry ↦
          (lowerOperand dfg target mapping image node operation tile entry).calls := by
  obtain ⟨-, hresolved⟩ := resolve_eq_ok hresolve
  have hkind' : resolved.kind = .nodeIssue := by rw [hresolved, hkind]
  have hnode' : resolved.node = event.node := by rw [hresolved]
  simp only [calls, hkind'] at herror ⊢
  unfold lowerNodeIssue at herror ⊢
  split at herror
  · rename_i id tile hnode htile
    simp only [htile] at herror ⊢
    split at herror
    · cases herror
    rename_i node hfound
    split at herror
    · cases herror
    rename_i operation hoperation
    split at herror
    · cases herror
    rename_i encoding hencoding
    obtain ⟨-, hall, hcalls⟩ := foldl_append_error herror
    refine ⟨id, node, operation, tile,
      .merge (if operation.executionClass = .fu then "op" else "lsuOp") encoding.symbol,
      hnode' ▸ hnode, hfound, hoperation, rfl, ?_, ?_, ?_⟩
    · intro entry hentry
      exact hall _ (List.mem_map_of_mem hentry)
    · intro domain port index hcall
      cases hcall
    · simp only [call, hcalls]
      rw [List.flatMap_map]
      rfl
  · cases herror

/-- An operand that an edge feeds is lowered as such. -/
theorem lowerOperand_fed (h : TargetDFGVerifier.verify dfg target = []) {node : TargetNode}
    (hnode : node ∈ dfg.nodes) {operation : TargetOperationDesc} {tile : TileCoord} {operand : ℕ}
    {sink : TargetControlSink} {edge : TargetEdge} (hmem : edge ∈ dfg.edges)
    (hdst : edge.dst = node.id) (hoperand : edge.info.dstOperand = some operand) :
    lowerOperand dfg target mapping image node operation tile (operand, sink)
      = lowerEdgeOperand target mapping tile sink edge := by
  have hedge := (edgeForOperand_iff h hnode).mpr ⟨hmem, hdst, hoperand⟩
  have hbinding := bindingForOperand_eq_none h hmem hoperand
  rw [hdst] at hbinding
  simp only [lowerOperand, hedge, Lowered.bind, hbinding]

theorem readAddress_not_mem_binding {sink : TargetControlSink} {binding : TargetOperandBinding}
    {domain : RegisterBankDomain} {port index : ℕ} :
    .readAddress domain port index ∉ (lowerBinding dfg image sink binding).calls := by
  unfold lowerBinding Lowered.bind
  split
  · simp [fail]
  · split
    · simp [fail]
    · split <;> simp [fail, call, nothing]

/-- Only operands that an edge feeds set a read address. -/
theorem fed_of_readAddress_mem (h : TargetDFGVerifier.verify dfg target = []) {node : TargetNode}
    (hnode : node ∈ dfg.nodes) {operation : TargetOperationDesc} {tile : TileCoord}
    {entry : ℕ × TargetControlSink} {domain : RegisterBankDomain} {port index : ℕ}
    (hmem : .readAddress domain port index
      ∈ (lowerOperand dfg target mapping image node operation tile entry).calls) :
    ∃ edge ∈ dfg.edges, edge.dst = node.id ∧ edge.info.dstOperand = some entry.1 := by
  cases hedge : edgeForOperand dfg node.id entry.1 with
  | error error =>
    simp only [lowerOperand, hedge, Lowered.bind] at hmem
    cases hmem
  | ok edge? =>
    simp only [lowerOperand, hedge, Lowered.bind] at hmem
    split at hmem
    · exact absurd hmem readAddress_not_mem_binding
    · exact ⟨_, (edgeForOperand_iff h hnode).mp hedge⟩
    · split at hmem <;> cases hmem

/-- The lowering of an operand of an event is part of that of the event. -/
theorem calls_operand (h : TargetDFGVerifier.verify dfg target = [])
    {event resolved : MaterializedEvent} {edge : TargetEdge} {sink : TargetControlSink}
    (hoperand : OperandOf dfg target event edge sink)
    (hresolve : resolve mapping event = .ok resolved)
    (herror : (calls dfg target mapping image resolved).error = none) :
    ∃ tile, resolved.tile = some tile ∧
      (lowerEdgeOperand target mapping tile sink edge).error = none ∧
      ∀ call ∈ (lowerEdgeOperand target mapping tile sink edge).calls,
        call ∈ (calls dfg target mapping image resolved).calls := by
  obtain ⟨id, node, operation, tile, first, hid, hfound, hoperation, htile, hall, -, hcalls⟩ :=
    calls_nodeIssue hoperand.kind hresolve herror
  obtain ⟨node', operation', operand, hfound', hoperation', hsink, hdst⟩ := hoperand.fed
  obtain rfl := Option.some.inj (hid.symm.trans hoperand.node_eq)
  obtain rfl := Option.some.inj (hfound.symm.trans hfound')
  obtain rfl := Option.some.inj (hoperation.symm.trans hoperation')
  have hlowered : lowerOperand dfg target mapping image node operation tile (operand, sink)
      = lowerEdgeOperand target mapping tile sink edge :=
    lowerOperand_fed h (TargetDFG.mem_of_findNode hfound) hoperand.mem
      (TargetDFG.findNode_id hfound).symm hdst
  refine ⟨tile, htile, hlowered ▸ hall _ hsink, fun call hcall ↦ ?_⟩
  rw [hcalls]
  refine List.mem_cons_of_mem _ (List.mem_flatMap.mpr ⟨_, hsink, ?_⟩)
  rwa [hlowered]

theorem readAddress_not_mem_fromProducer {edge : TargetEdge} {iteration : ℤ}
    {fallback : Except LoweringError String} {rest : Bool → String → Lowered}
    {domain : RegisterBankDomain} {port index : ℕ}
    (hrest : ∀ boundary source, .readAddress domain port index ∉ (rest boundary source).calls) :
    .readAddress domain port index
      ∉ (lowerFromProducer dfg image edge iteration fallback rest).calls := by
  unfold lowerFromProducer
  refine not_mem_bind fun boundary? ↦ ?_
  cases boundary? with
  | some boundary =>
    intro hmem
    rcases List.mem_cons.mp hmem with heq | hmem
    · cases heq
    · exact not_mem_bind (fun source ↦ hrest true source) hmem
  | none => exact not_mem_bind fun source ↦ hrest false source

theorem readAddress_not_mem_linkLaunch {resolved : MaterializedEvent}
    {domain : RegisterBankDomain} {port index : ℕ} :
    .readAddress domain port index
      ∉ (lowerLinkLaunch dfg target mapping image resolved).calls := by
  unfold lowerLinkLaunch
  split
  · split
    · exact List.not_mem_nil
    split
    · exact List.not_mem_nil
    refine not_mem_bind fun dependence ↦ ?_
    split
    · exact List.not_mem_nil
    split
    · exact List.not_mem_nil
    split
    · exact readAddress_not_mem_fromProducer fun _ _ ↦ by simp [call, nothing]
    split
    · split
      · exact List.not_mem_nil
      · exact not_mem_bind fun allocation ↦ by simp [call, nothing]
    · simp [call, nothing]
    · exact List.not_mem_nil
  · exact List.not_mem_nil

theorem readAddress_not_mem_rfWrite {resolved : MaterializedEvent}
    {domain : RegisterBankDomain} {port index : ℕ} :
    .readAddress domain port index ∉ (lowerRFWrite dfg target mapping image resolved).calls := by
  unfold lowerRFWrite
  split
  · split
    · exact List.not_mem_nil
    split
    · exact List.not_mem_nil
    refine readAddress_not_mem_fromProducer fun boundary source ↦ not_mem_bind fun allocation ↦ ?_
    simp only
    split <;> simp [call, nothing]
  · exact List.not_mem_nil

theorem readAddress_not_mem {resolved : MaterializedEvent} (hkind : resolved.kind ≠ .nodeIssue)
    {domain : RegisterBankDomain} {port index : ℕ} :
    .readAddress domain port index ∉ (calls dfg target mapping image resolved).calls := by
  unfold calls
  split
  · unfold lowerBoundaryInject
    split
    · split
      · exact List.not_mem_nil
      split
      · exact List.not_mem_nil
      refine not_mem_bind fun constant? ↦ ?_
      split
      · exact List.not_mem_nil
      · exact not_mem_bind fun address ↦ by simp [call, nothing]
    · exact List.not_mem_nil
  · exact List.not_mem_nil
  · exact absurd ‹_› hkind
  · split
    · exact List.not_mem_nil
    split
    · exact readAddress_not_mem_linkLaunch
    · exact readAddress_not_mem_rfWrite
    · exact List.not_mem_nil

/-- **The read addresses an event sets** are those of the operands found in a register. -/
theorem readAddress_mem_calls_iff (h : TargetDFGVerifier.verify dfg target = [])
    {event resolved : MaterializedEvent} (hresolve : resolve mapping event = .ok resolved)
    (herror : (calls dfg target mapping image resolved).error = none)
    {domain : RegisterBankDomain} {port index : ℕ} :
    .readAddress domain port index ∈ (calls dfg target mapping image resolved).calls ↔
      ∃ tile edge sink first allocation, resolved.tile = some tile ∧
        OperandOf dfg target event edge sink ∧
        segmentForEdgeAtTile mapping edge.id tile = some first ∧
        mapping.allocationFor first.id = some allocation ∧ first.domain = domain ∧
        allocation.readPort = port ∧ allocation.reg.index = index := by
  obtain ⟨-, hresolved⟩ := resolve_eq_ok hresolve
  constructor
  · intro hmem
    by_cases hkind : event.kind = .nodeIssue
    · obtain ⟨id, node, operation, tile, call, hid, hfound, hoperation, htile, hall, hcall,
        hcalls⟩ :=
        calls_nodeIssue hkind hresolve herror
      rw [hcalls] at hmem
      rcases List.mem_cons.mp hmem with heq | hmem
      · exact absurd heq.symm (hcall domain port index)
      obtain ⟨⟨operand, sink⟩, hsink, hread⟩ := List.mem_flatMap.mp hmem
      have hnode := TargetDFG.mem_of_findNode hfound
      obtain ⟨edge, hedge, hdst, hoperand⟩ := fed_of_readAddress_mem h hnode hread
      have hclean := hall _ hsink
      rw [lowerOperand_fed h hnode hedge hdst hoperand] at hread hclean
      have hid' : id = edge.dst := (TargetDFG.findNode_id hfound).symm.trans hdst.symm
      subst hid'
      have hof : OperandOf dfg target event edge sink :=
        ⟨hkind, hedge, hid, node, operation, operand, hfound, hoperation, hsink, hoperand⟩
      rcases lowerEdgeOperand_clean hclean with
        ⟨first, allocation, hfirst, hallocation, hlist⟩ | ⟨-, -, -, link, -, -, -, hlist⟩
      · rw [hlist] at hread
        simp only [List.mem_cons, BuilderCall.readAddress.injEq, reduceCtorEq, List.not_mem_nil,
          or_false] at hread
        obtain ⟨hdomain, hport, hindex⟩ := hread
        exact ⟨tile, edge, sink, first, allocation, htile, hof, hfirst, hallocation,
          hdomain.symm, hport.symm, hindex.symm⟩
      · rw [hlist] at hread
        simp at hread
    · -- the other events set no read address
      exfalso
      have hkind' : resolved.kind ≠ .nodeIssue := by rwa [hresolved]
      exact readAddress_not_mem hkind' hmem
  · rintro ⟨tile, edge, sink, first, allocation, htile, hof, hfirst, hallocation, rfl, rfl, rfl⟩
    obtain ⟨tile', htile', hclean, hsub⟩ := calls_operand h hof hresolve herror
    obtain rfl := Option.some.inj (htile.symm.trans htile')
    apply hsub
    rcases lowerEdgeOperand_clean hclean with
      ⟨first', allocation', hfirst', hallocation', hlist⟩ | ⟨hnone, -⟩
    · obtain rfl := Option.some.inj (hfirst.symm.trans hfirst')
      obtain rfl := Option.some.inj (hallocation.symm.trans hallocation')
      rw [hlist]
      exact List.mem_cons_self
    · rw [hfirst] at hnone
      cases hnone

end Events

end Lowerer

end PredicatedMesh
