import PredicatedMesh.Lowering.Control
import PredicatedMesh.Schedule.MaterializedVerifier

/-!
# Lowering a schedule to tile controls

Every event of a cycle is lowered to calls on the builder of its tile. A value comes from the unit
that produced it, from the link it arrived on, from a register, or, where a recurrence has not
produced anything yet, from the constant memory; which of these is decided here, event by event.
The kernel body is lowered once, with the iterations of its first repetition.
-/

namespace PredicatedMesh

/-! ## Constants -/

structure ConstantAllocation where
  constant : ℕ
  address : ℕ
  bits : ℕ
  deriving DecidableEq, Repr

structure ConstantImage where
  entries : List ConstantAllocation
  deriving DecidableEq, Repr

namespace ConstantImage

variable (image : ConstantImage)

def location (id : ℕ) : Option ℕ :=
  (image.entries.find? fun entry ↦ entry.constant == id).map ConstantAllocation.address

def address (id : ℕ) : Except LoweringError ℕ :=
  match image.location id with
  | none => .error ⟨.internalError, "constant has no physical allocation"⟩
  | some address => .ok address

end ConstantImage

namespace ConstantAllocator

/-- Give every constant the address of its low 32 bits, taking a new address for a new value. -/
def allocateFrom (target : TargetModel) :
    List ConstantValue → List (ℕ × ℕ) → Except String (List ConstantAllocation)
  | [], _ => .ok []
  | constant :: constants, valueAddresses =>
    let value := constant.bits % 2 ^ 32
    match valueAddresses.find? fun entry ↦ entry.1 == value with
    | some entry => do
      let rest ← allocateFrom target constants valueAddresses
      return ⟨constant.id, entry.2, constant.bits⟩ :: rest
    | none =>
      let address := valueAddresses.length
      if address ≥ target.constantMemoryDepth then .error "constant memory capacity exceeded"
      else do
        let rest ← allocateFrom target constants (valueAddresses ++ [(value, address)])
        return ⟨constant.id, address, constant.bits⟩ :: rest

def allocate (dfg : TargetDFG) (target : TargetModel) : Except String ConstantImage := do
  let entries ← allocateFrom target dfg.constants []
  return ⟨entries.insertionSort fun lhs rhs ↦ lhs.constant ≤ rhs.constant⟩

end ConstantAllocator

/-! ## Sources -/

namespace Lowerer

def inputName : Direction → String
  | .north => "NORTH"
  | .south => "SOUTH"
  | .east => "EAST"
  | .west => "WEST"

/-- The input a value arrives at after a hop in the given direction. -/
def dataInput (direction : Direction) : String := inputName direction.opposite ++ "_DATA_IN"

def predicateInput (direction : Direction) : String := inputName direction.opposite ++ "_PRED_IN"

def edgeInput (edge : TargetEdge) (direction : Direction) : String :=
  if edge.kind = .predicate then predicateInput direction else dataInput direction

def rfSource (second : Bool) : String := if second then "RF_B" else "RF_A"

def internal (message : String) : LoweringError := ⟨.internalError, message⟩

def ofString {α : Type} : Except String α → Except LoweringError α
  | .error message => .error (internal message)
  | .ok a => .ok a

def resultSource : TargetResultSource → Except LoweringError String
  | .fuDataResult => .ok "FU_DATA_RESULT"
  | .fuPredicateResult => .ok "FU_PRED_RESULT"
  | .lsuLoadData => .ok "LSU_LOAD_DATA"
  | .none =>
    .error ⟨.unsupportedOperationLowering, "operation has no materializable result source"⟩

/-- The constant that stands in for a producer iteration before the first. -/
def boundaryConstantFor (edge : TargetEdge) (producerIteration : ℤ) :
    Except LoweringError (Option ℕ) :=
  if producerIteration ≥ 0 ∨ edge.distance = 0 then .ok none
  else
    let offset := producerIteration + edge.distance
    if offset < 0 ∨ offset ≥ edge.distance then
      .error ⟨.invalidMaterializedSchedule,
        "boundary producer iteration is outside recurrence boundary"⟩
    else
      match edge.info.boundary.bind fun boundary ↦ boundary.values[offset.toNat]? with
      | none =>
        .error ⟨.unsupportedBoundaryProvider,
          "recurrence boundary has no value for this producer iteration"⟩
      | some ⟨_, .externalValueRef _⟩ =>
        .error ⟨.unsupportedExternalProvider,
          "unresolved external recurrence boundary reaches target lowering"⟩
      | some ⟨_, .constantRef id⟩ => .ok (some id)

section Lowerer

variable (dfg : TargetDFG) (target : TargetModel) (mapping : RFAllocatedMapping)
variable (image : ConstantImage)

def constantFor (id : ℕ) : Option ConstantValue :=
  dfg.constants.find? fun constant ↦ constant.id == id

/-- The source that delivers a boundary constant. -/
def boundarySource (edge : TargetEdge) (id : ℕ) : Except LoweringError String :=
  match constantFor dfg id with
  | none =>
    .error ⟨.unsupportedBoundaryProvider, "boundary constant is not present in target DFG"⟩
  | some value =>
    .ok (if edge.kind = .predicate then
      if value.bits ≠ 0 then "CONST_TRUE" else "CONST_FALSE"
    else "CONST_DATA")

/-- The result of the producer itself. -/
def producerSource (edge : TargetEdge) : Except LoweringError String :=
  match dfg.findNode edge.src with
  | none => .error (internal ("unknown target DFG node id: " ++ toString edge.src))
  | some node =>
    match target.findOperation node.operation with
    | none => .error (internal ("unknown target operation: " ++ node.operation))
    | some operation => resultSource operation.resultSource

def segmentForEdgeAtTile (edge : TargetEdgeId) (tile : TileCoord) : Option StorageSegment :=
  mapping.storageRequirements.segments.find? fun segment ↦
    segment.edge == edge && segment.tile == tile

def allocationFor (segment : StorageSegment) : Except LoweringError StorageAllocation :=
  match mapping.allocationFor segment.id with
  | none => .error (internal "storage segment has no physical register allocation")
  | some allocation => .ok allocation

def edgeForOperand (node : TargetNodeId) (operand : ℕ) : Except LoweringError (Option TargetEdge) :=
  match dfg.incoming node with
  | none => .error (internal ("unknown target DFG node id: " ++ toString node))
  | some incoming =>
    .ok ((incoming.filterMap dfg.findEdge).find? fun edge ↦ edge.info.dstOperand == some operand)

def bindingForOperand (node : TargetNodeId) (operand : ℕ) : Option TargetOperandBinding :=
  dfg.operandBindings.find? fun binding ↦ binding.node == node && binding.operand == operand

/-! ## One event -/

/-- The calls an event makes, and the error it stops with, if any. -/
@[ext] structure Lowered where
  calls : List BuilderCall
  error : Option LoweringError
  deriving DecidableEq, Repr

namespace Lowered

def nothing : Lowered := ⟨[], none⟩

def fail (error : LoweringError) : Lowered := ⟨[], some error⟩

/-- Make a call, then go on. -/
def call (c : BuilderCall) (rest : Lowered) : Lowered := ⟨c :: rest.calls, rest.error⟩

/-- Go on with a result, or stop. -/
def bind {α : Type} (result : Except LoweringError α) (rest : α → Lowered) : Lowered :=
  match result with
  | .error error => fail error
  | .ok a => rest a

/-- One list of calls after another. -/
def append (first second : Lowered) : Lowered :=
  if first.error.isSome then first else ⟨first.calls ++ second.calls, second.error⟩

end Lowered

open Lowered

def invalidSchedule (message : String) : LoweringError := ⟨.invalidMaterializedSchedule, message⟩

def unsupportedValue (message : String) : LoweringError := ⟨.unsupportedValueSource, message⟩

def lowerBoundaryInject (event : MaterializedEvent) : Lowered :=
  match event.edge, event.boundaryValue with
  | some edgeId, some _ =>
    if event.logicalIteration = 0 then
      fail (invalidSchedule "boundary injection has incomplete provenance")
    else
      match dfg.findEdge edgeId with
      | none => fail (internal ("unknown target DFG edge id: " ++ toString edgeId))
      | some edge =>
        bind (boundaryConstantFor edge event.logicalIteration) fun constant? ↦
          match constant? with
          | none =>
            fail ⟨.unsupportedBoundaryProvider,
              "boundary injection does not resolve to a constant"⟩
          | some id => bind (image.address id) fun address ↦ call (.constant address) nothing
  | _, _ => fail (invalidSchedule "boundary injection has incomplete provenance")

def isPredicateSink : TargetControlSink → Bool
  | .fuPredicate0 | .fuPredicate1 | .lsuCommitPredicate => true
  | _ => false

/-- An operand bound to a constant. -/
def lowerBinding (sink : TargetControlSink) (binding : TargetOperandBinding) : Lowered :=
  match binding.source with
  | .externalValueRef _ =>
    fail ⟨.unsupportedExternalProvider, "external operand provider is not lowered in T012"⟩
  | .constantRef id =>
    match constantFor dfg id with
    | none => fail (unsupportedValue "constant operand references unknown constant")
    | some constant =>
      bind (image.address id) fun address ↦
        call (.constant address)
          (call (.source sink (if isPredicateSink sink then
            if constant.bits ≠ 0 then "CONST_TRUE" else "CONST_FALSE" else "CONST_DATA")) nothing)

/-- An operand delivered by an edge: from the register it waits in, or from its last link. -/
def lowerEdgeOperand (tile : TileCoord) (sink : TargetControlSink) (edge : TargetEdge) : Lowered :=
  if edge.kind = .memory then
    fail (unsupportedValue "memory dependence cannot provide an operand value")
  else
    match segmentForEdgeAtTile mapping edge.id tile with
    | some segment =>
      bind (allocationFor mapping segment) fun allocation ↦
        match target.registerBank segment.domain allocation.reg.tile.row
          allocation.reg.tile.col with
        | none =>
          fail (TileBuilder.portViolation "RF read operand exceeds target read-port contract")
        | some bank =>
          if allocation.readPort ≥ bank.readPorts then
            fail (TileBuilder.portViolation "RF read operand exceeds target read-port contract")
          else
            call (.readAddress segment.domain allocation.readPort allocation.reg.index)
              (call (.source sink (rfSource (allocation.readPort == 1))) nothing)
    | none =>
      bind (ofString (mapping.staged.modulo.dependence edge.id)) fun dependence ↦
        match dependence.transport.bind fun plan ↦ plan.actions.getLast? with
        | none => fail (unsupportedValue "value operand has no transport or storage source")
        | some (.virtualHold _) =>
          fail (unsupportedValue "value operand storage provenance is incomplete")
        | some (.linkStep link) => call (.source sink (edgeInput edge link.direction)) nothing

def lowerOperand (node : TargetNode) (operation : TargetOperationDesc) (tile : TileCoord)
    (operand : ℕ × TargetControlSink) : Lowered :=
  bind (edgeForOperand dfg node.id operand.1) fun edge? ↦
    match bindingForOperand dfg node.id operand.1, edge? with
    | some binding, _ => lowerBinding dfg image operand.2 binding
    | none, some edge => lowerEdgeOperand target mapping tile operand.2 edge
    | none, none =>
      if operation.operands[operand.1]?.any TargetOperandDesc.optional then nothing
      else fail (unsupportedValue ("operand has no provider provenance for node "
        ++ toString node.id ++ " operand " ++ toString operand.1))

def lowerNodeIssue (event : MaterializedEvent) : Lowered :=
  match event.node, event.tile with
  | some id, some tile =>
    match dfg.findNode id with
    | none => fail (internal ("unknown target DFG node id: " ++ toString id))
    | some node =>
      match target.findOperation node.operation with
      | none => fail (internal ("unknown target operation: " ++ node.operation))
      | some operation =>
        match operation.encoding with
        | none =>
          fail ⟨.unsupportedOperationLowering, "operation has no encoding binding"⟩
        | some encoding =>
          call (.merge (if operation.executionClass = .fu then "op" else "lsuOp") encoding.symbol)
            ((operation.operandSinks.map (lowerOperand dfg target mapping image node operation
              tile)).foldl append nothing)
  | _, _ => fail (invalidSchedule "node issue has no node provenance")

/-- A constant in place of a producer that never ran: its address and the source that selects it.
The source is looked up after the address has been set, so its failure comes later. -/
def boundaryProvider (edge : TargetEdge) (producerIteration : ℤ) :
    Except LoweringError (Option (ℕ × Except LoweringError String)) := do
  match ← boundaryConstantFor edge producerIteration with
  | none => return none
  | some id =>
    let address ← image.address id
    return some (address, boundarySource dfg edge id)

/-- The source of the first hop of a route, or of a write, when it is the producer's turn. -/
def lowerFromProducer (edge : TargetEdge) (producerIteration : ℤ)
    (fallback : Except LoweringError String) (rest : Bool → String → Lowered) : Lowered :=
  bind (boundaryProvider dfg image edge producerIteration) fun boundary? ↦
    match boundary? with
    | some boundary => call (.constant boundary.1) (bind boundary.2 (rest true))
    | none => bind fallback (rest false)

def lowerLinkLaunch (event : MaterializedEvent) : Lowered :=
  match event.edge, event.direction, event.domain, event.transportActionIndex with
  | some edgeId, some direction, some domain, some actionIndex =>
    match dfg.findEdge edgeId with
    | none => fail (internal ("unknown target DFG edge id: " ++ toString edgeId))
    | some edge =>
      if edge.kind = .memory then fail (unsupportedValue "memory edge cannot be routed")
      else
        bind (ofString (mapping.staged.modulo.dependence edgeId)) fun dependence ↦
          match dependence.transport with
          | none => fail (invalidSchedule "link event has no transport plan")
          | some plan =>
            if actionIndex ≥ plan.actions.length then
              fail (invalidSchedule "link action index is out of range")
            else if actionIndex = 0 then
              lowerFromProducer dfg image edge event.logicalIteration
                (producerSource dfg target edge) fun _ source ↦
                  call (.route domain direction source) nothing
            else
              match plan.actions[actionIndex - 1]? with
              | some (.virtualHold hold) =>
                match segmentForEdgeAtTile mapping edge.id hold.tile with
                | none => fail (unsupportedValue "hold has no physical register")
                | some segment =>
                  bind (allocationFor mapping segment) fun allocation ↦
                    call (.route domain direction (rfSource (allocation.readPort == 1))) nothing
              | some (.linkStep prior) =>
                call (.route domain direction (edgeInput edge prior.direction)) nothing
              | none => fail (invalidSchedule "link action index is out of range")
  | _, _, _, _ => fail (invalidSchedule "link launch has incomplete provenance")

/-- The source of a write of a produced value. -/
def writeSource (edge : TargetEdge) (segment : StorageSegment) : Except LoweringError String := do
  let dependence ← ofString (mapping.staged.modulo.dependence edge.id)
  let actions := (dependence.transport.map TransportPlan.actions).getD []
  match segment.origins.findSome? fun origin ↦
      if origin.kind = .explicitVirtualHold then origin.transportActionIndex else none with
  | some index =>
    match if index = 0 then none else actions[index - 1]? with
    | some (.linkStep link) => .ok (edgeInput edge link.direction)
    | _ => producerSource dfg target edge
  | none =>
    match actions.getLast? with
    | some (.linkStep link) => .ok (edgeInput edge link.direction)
    | _ => producerSource dfg target edge

def lowerRFWrite (event : MaterializedEvent) : Lowered :=
  match event.segment, event.physicalRegister, event.edge with
  | some segmentId, some register, some edgeId =>
    match mapping.storageRequirements.segments.find? fun segment ↦ segment.id == segmentId with
    | none => fail (internal "unknown storage segment")
    | some segment =>
      match dfg.findEdge edgeId with
      | none => fail (internal ("unknown target DFG edge id: " ++ toString edgeId))
      | some edge =>
        lowerFromProducer dfg image edge event.logicalIteration
          (writeSource dfg target mapping edge segment) fun isBoundaryInstance source ↦
            bind (allocationFor mapping segment) fun allocation ↦
              let port := if isBoundaryInstance then
                allocation.boundaryWritePort.getD allocation.writePort else allocation.writePort
              if segment.domain = .data then call (.dataWrite port register.index source) nothing
              else call (.predicateWrite port register.index source) nothing
  | _, _, _ => fail (invalidSchedule "RF write has incomplete provenance")

/-- The calls of an event. -/
def calls (event : MaterializedEvent) : Lowered :=
  match event.kind with
  | .boundaryValueInject => lowerBoundaryInject dfg image event
  | .liveOutBoundaryUse => nothing
  | .nodeIssue => lowerNodeIssue dfg target mapping image event
  | kind =>
    if event.tile.isNone then fail (invalidSchedule "materialized event has no tile")
    else
      match kind with
      | .linkLaunch => lowerLinkLaunch dfg target mapping image event
      | .rfWrite => lowerRFWrite dfg target mapping image event
      | _ => nothing

/-- Lower one event into the builder of its tile. -/
def event (event : MaterializedEvent) (builder : TileBuilder) : Except LoweringError TileBuilder :=
  let lowered := calls dfg target mapping image event
  match lowered.calls.foldlM (TileBuilder.perform target) builder with
  | .error error => .error error
  | .ok builder =>
    match lowered.error with
    | some error => .error error
    | none => .ok builder

/-! ## Cycles and phases -/

/-- A node issue without a tile happens where the node is placed. -/
def resolve (event : MaterializedEvent) : Except LoweringError MaterializedEvent :=
  match event.kind, event.tile, event.node with
  | .nodeIssue, none, some node =>
    match mapping.staged.modulo.placement node with
    | .error message => .error (internal message)
    | .ok placement => .ok { event with tile := some placement.tile }
  | _, _, _ => .ok event

def tileIndex (tile : TileCoord) : Except LoweringError ℕ :=
  if tile.row ≥ target.array.rows ∨ tile.col ≥ target.array.cols then
    .error ⟨.sourceConnectivityViolation, "tile is outside target array"⟩
  else .ok (tile.row * target.array.cols + tile.col)

/-- Lower one event of a cycle, given the builders of all tiles. -/
def lowerEvent (builders : List TileBuilder) (bundled : MaterializedEvent) :
    Except LoweringError (List TileBuilder) :=
  if bundled.kind = .liveOutBoundaryUse then .ok builders
  else do
    let resolved ← resolve mapping bundled
    match resolved.tile with
    | none => .error (invalidSchedule "event has no tile")
    | some tile =>
      let index ← tileIndex target tile
      match builders[index]? with
      | none => .error (internal "vector::_M_range_check")
      | some builder =>
        let builder ← event dfg target mapping image resolved builder
        return builders.set index builder

/-- The controls of all tiles in a cycle. -/
def lowerCycle (bundle : CycleBundle) : Except LoweringError (List TileControl) := do
  let builders ← bundle.events.foldlM (lowerEvent dfg target mapping image)
    ((List.range (target.array.rows * target.array.cols)).map fun index ↦
      { tile := ⟨index / target.array.cols, index % target.array.cols⟩ })
  return builders.map TileBuilder.control

end Lowerer

end Lowerer

/-! ## Programs -/

/-- A control program: for each cycle the controls of all tiles. -/
structure TargetControlProgram where
  ii : ℕ
  tripCount : ℕ
  prologue : List (List TileControl)
  kernelBody : List (List TileControl)
  kernelRepeatCount : ℕ
  epilogue : List (List TileControl)
  deriving DecidableEq, Repr

/-- Lower a schedule. The kernel body is lowered once; cycles it lacks are idle. -/
def Lowerer.run (dfg : TargetDFG) (target : TargetModel) (mapping : RFAllocatedMapping)
    (schedule : MaterializedSchedule) (image : ConstantImage) :
    Except LoweringError TargetControlProgram :=
  if schedule.ii = 0 then .error (Lowerer.invalidSchedule "II must be positive")
  else do
    let lowerCycle := Lowerer.lowerCycle dfg target mapping image
    let prologue ← schedule.prologue.cycles.mapM lowerCycle
    let body ← (List.range schedule.ii).mapM fun cycle ↦
      lowerCycle (schedule.kernel.body[cycle]?.getD ⟨[]⟩)
    let epilogue ← schedule.epilogue.cycles.mapM lowerCycle
    return ⟨schedule.ii, schedule.tripCount, prologue, body, schedule.kernel.repeatCount, epilogue⟩

end PredicatedMesh
