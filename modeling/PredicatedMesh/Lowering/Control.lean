import PredicatedMesh.Mapping.ModuloMapping

/-!
# Tile controls and the builder that fills them

A tile's control word in a cycle is a record of named fields. Several events can speak about one
tile in one cycle, so the record is filled by a builder that remembers which fields have been
assigned: assigning a field a second time is harmless if the value is the same and an error
otherwise.

What an event asks of the builder is a list of calls. Keeping the calls apart from the builder makes
it possible to say that two events ask for the same fields.
-/

namespace PredicatedMesh

/-! ## Controls -/

structure RouteControl where
  enabled : Bool := false
  source : String := "NONE"
  deriving DecidableEq, Repr

/-- The control of one tile in one cycle; the defaults do nothing. -/
structure TileControl where
  op : String := "NOP"
  srcA : String := "ZERO"
  srcB : String := "ZERO"
  srcP0 : String := "CONST_FALSE"
  srcP1 : String := "CONST_FALSE"
  dataRfReadAddrA : ℕ := 0
  dataRfReadAddrB : ℕ := 0
  predicateRfReadAddrA : ℕ := 0
  predicateRfReadAddrB : ℕ := 0
  dataWrite0Enable : Bool := false
  dataWrite0Addr : ℕ := 0
  dataWrite1Enable : Bool := false
  dataWrite1Addr : ℕ := 0
  dataWrite1Source : String := "ZERO"
  predicateWrite0Enable : Bool := false
  predicateWrite0Addr : ℕ := 0
  predicateWrite1Enable : Bool := false
  predicateWrite1Addr : ℕ := 0
  predicateWrite1Source : String := "CONST_FALSE"
  /-- One route for each direction: north, south, east, west. -/
  dataRoutes : List RouteControl := List.replicate 4 {}
  predicateRoutes : List RouteControl := List.replicate 4 {}
  constantAddr : ℕ := 0
  lsuOp : String := "NONE"
  lsuAddrSource : String := "ZERO"
  lsuStoreDataSource : String := "ZERO"
  lsuCommitPredicateEnable : Bool := false
  lsuCommitPredicateInvert : Bool := false
  lsuCommitPredicateSource : String := "CONST_FALSE"
  deriving DecidableEq, Repr

/-! ## Errors -/

inductive TargetLoweringStatus
  | success
  | invalidTargetDFG
  | invalidRFAllocatedMapping
  | invalidMaterializedSchedule
  | unsupportedOperationLowering
  | unsupportedValueSource
  | unsupportedBoundaryProvider
  | unsupportedExternalProvider
  | constantCapacityExceeded
  | controlFieldConflict
  | sourceConnectivityViolation
  | rfAccessPortViolation
  | controlEncodingFailure
  | verificationFailure
  | internalError
  deriving DecidableEq, Repr

/-- A failed lowering. An exception that is not a lowering error has the status of an internal
error. -/
structure LoweringError where
  status : TargetLoweringStatus
  message : String
  deriving DecidableEq, Repr

/-! ## The builder -/

/-- What an event asks of the builder of its tile. -/
inductive BuilderCall
  | merge (field value : String)
  /-- The address a register-file read port reads. -/
  | readAddress (domain : RegisterBankDomain) (port index : ℕ)
  | source (sink : TargetControlSink) (value : String)
  | route (domain : NetworkDomain) (direction : Direction) (value : String)
  | dataWrite (port address : ℕ) (value : String)
  | predicateWrite (port address : ℕ) (value : String)
  | constant (address : ℕ)
  deriving DecidableEq, Repr

structure TileBuilder where
  control : TileControl := {}
  /-- The fields assigned so far. -/
  owned : List String := []
  tile : TileCoord
  deriving DecidableEq, Repr

def directionIndex : Direction → ℕ
  | .north => 0
  | .south => 1
  | .east => 2
  | .west => 3

namespace TileBuilder

def conflict (message : String) : LoweringError := ⟨.controlFieldConflict, message⟩

/-- Assign a field that is read by `get` and written by `set`. -/
def assign {α : Type} [DecidableEq α] (field message : String) (get : TileControl → α)
    (set : TileControl → TileControl) (value : α) (builder : TileBuilder) :
    Except LoweringError TileBuilder :=
  if field ∈ builder.owned then
    if get builder.control ≠ value then .error (conflict message) else .ok builder
  else .ok { builder with control := set builder.control, owned := field :: builder.owned }

def mergeField {α : Type} [DecidableEq α] (field : String) (get : TileControl → α)
    (set : TileControl → TileControl) (value : α) :
    TileBuilder → Except LoweringError TileBuilder :=
  assign field ("conflicting assignment to " ++ field) get set value

/-- Assign a field by its name; a name that is not a field is ignored. -/
def merge (field value : String) (builder : TileBuilder) : Except LoweringError TileBuilder :=
  match field with
  | "op" => mergeField field (·.op) (fun c ↦ { c with op := value }) value builder
  | "srcA" => mergeField field (·.srcA) (fun c ↦ { c with srcA := value }) value builder
  | "srcB" => mergeField field (·.srcB) (fun c ↦ { c with srcB := value }) value builder
  | "srcP0" => mergeField field (·.srcP0) (fun c ↦ { c with srcP0 := value }) value builder
  | "srcP1" => mergeField field (·.srcP1) (fun c ↦ { c with srcP1 := value }) value builder
  | "lsuOp" => mergeField field (·.lsuOp) (fun c ↦ { c with lsuOp := value }) value builder
  | "lsuAddrSource" =>
    mergeField field (·.lsuAddrSource) (fun c ↦ { c with lsuAddrSource := value }) value builder
  | "lsuStoreDataSource" =>
    mergeField field (·.lsuStoreDataSource) (fun c ↦ { c with lsuStoreDataSource := value }) value
      builder
  | "lsuCommitPredicateSource" =>
    mergeField field (·.lsuCommitPredicateSource)
      (fun c ↦ { c with lsuCommitPredicateSource := value }) value builder
  | "dataWrite1Source" =>
    mergeField field (·.dataWrite1Source) (fun c ↦ { c with dataWrite1Source := value }) value
      builder
  | "predicateWrite1Source" =>
    mergeField field (·.predicateWrite1Source) (fun c ↦ { c with predicateWrite1Source := value })
      value builder
  | _ => .ok builder

def source (sink : TargetControlSink) (value : String) (builder : TileBuilder) :
    Except LoweringError TileBuilder :=
  match sink with
  | .fuDataA => merge "srcA" value builder
  | .fuDataB => merge "srcB" value builder
  | .fuPredicate0 => merge "srcP0" value builder
  | .fuPredicate1 => merge "srcP1" value builder
  | .lsuAddress => merge "lsuAddrSource" value builder
  | .lsuStoreData => merge "lsuStoreDataSource" value builder
  | .lsuCommitPredicate => do
    let builder ← merge "lsuCommitPredicateSource" value builder
    mergeField "lsuCommitPredicateEnable" (·.lsuCommitPredicateEnable)
      (fun c ↦ { c with lsuCommitPredicateEnable := true }) true builder

def route (domain : NetworkDomain) (direction : Direction) (value : String)
    (builder : TileBuilder) : Except LoweringError TileBuilder := do
  let index := directionIndex direction
  let routes := fun c : TileControl ↦
    match domain with
    | .data => c.dataRoutes
    | .predicate => c.predicateRoutes
  let update := fun (f : RouteControl → RouteControl) (c : TileControl) ↦
    match domain with
    | .data => { c with dataRoutes := c.dataRoutes.modify index f }
    | .predicate => { c with predicateRoutes := c.predicateRoutes.modify index f }
  let label :=
    (match domain with
      | .data => "dataRoute"
      | .predicate => "predicateRoute") ++ toString index
  let builder ← mergeField label (fun c ↦ ((routes c)[index]?.getD {}).enabled)
    (update fun r ↦ { r with enabled := true }) true builder
  assign (label ++ "Source") "conflicting route source"
    (fun c ↦ ((routes c)[index]?.getD {}).source) (update fun r ↦ { r with source := value }) value
    builder

def readAddress (domain : RegisterBankDomain) (port index : ℕ) (builder : TileBuilder) :
    Except LoweringError TileBuilder :=
  match domain, port with
  | .data, 0 => mergeField "dataRfReadAddrA" (·.dataRfReadAddrA)
      (fun c ↦ { c with dataRfReadAddrA := index }) index builder
  | .data, _ => mergeField "dataRfReadAddrB" (·.dataRfReadAddrB)
      (fun c ↦ { c with dataRfReadAddrB := index }) index builder
  | .predicate, 0 => mergeField "predicateRfReadAddrA" (·.predicateRfReadAddrA)
      (fun c ↦ { c with predicateRfReadAddrA := index }) index builder
  | .predicate, _ => mergeField "predicateRfReadAddrB" (·.predicateRfReadAddrB)
      (fun c ↦ { c with predicateRfReadAddrB := index }) index builder

def portViolation (message : String) : LoweringError := ⟨.rfAccessPortViolation, message⟩

/-- The bank of the tile must accept the source at the port. -/
def checkPort (target : TargetModel) (domain : RegisterBankDomain) (label : String) (port : ℕ)
    (value : String) (builder : TileBuilder) : Except LoweringError Unit :=
  match target.registerBank domain builder.tile.row builder.tile.col with
  | none => .error (portViolation (label ++ " RF bank is unavailable on tile"))
  | some bank =>
    match bank.writePortSources.find? fun entry ↦ entry.1 == "W" ++ toString port with
    | none =>
      .error (portViolation (label ++ " RF write source is not accepted by selected port"))
    | some entry =>
      if entry.2.contains value then .ok ()
      else .error (portViolation (label ++ " RF write source is not accepted by selected port"))

def dataWrite (target : TargetModel) (port address : ℕ) (value : String) (builder : TileBuilder) :
    Except LoweringError TileBuilder := do
  checkPort target .data "data" port value builder
  if port = 0 then
    let builder ← mergeField "dataWrite0Enable" (·.dataWrite0Enable)
      (fun c ↦ { c with dataWrite0Enable := true }) true builder
    let builder ← mergeField "dataWrite0Addr" (·.dataWrite0Addr)
      (fun c ↦ { c with dataWrite0Addr := address }) address builder
    if value ≠ "FU_DATA_RESULT" then
      .error (portViolation "data W0 only accepts FU_DATA_RESULT")
    else return builder
  else
    let builder ← mergeField "dataWrite1Enable" (·.dataWrite1Enable)
      (fun c ↦ { c with dataWrite1Enable := true }) true builder
    let builder ← mergeField "dataWrite1Addr" (·.dataWrite1Addr)
      (fun c ↦ { c with dataWrite1Addr := address }) address builder
    merge "dataWrite1Source" value builder

def predicateWrite (target : TargetModel) (port address : ℕ) (value : String)
    (builder : TileBuilder) : Except LoweringError TileBuilder := do
  checkPort target .predicate "predicate" port value builder
  if port = 0 then
    let builder ← mergeField "predicateWrite0Enable" (·.predicateWrite0Enable)
      (fun c ↦ { c with predicateWrite0Enable := true }) true builder
    let builder ← mergeField "predicateWrite0Addr" (·.predicateWrite0Addr)
      (fun c ↦ { c with predicateWrite0Addr := address }) address builder
    if value ≠ "FU_PRED_RESULT" then
      .error (portViolation "predicate W0 only accepts FU_PRED_RESULT")
    else return builder
  else
    let builder ← mergeField "predicateWrite1Enable" (·.predicateWrite1Enable)
      (fun c ↦ { c with predicateWrite1Enable := true }) true builder
    let builder ← mergeField "predicateWrite1Addr" (·.predicateWrite1Addr)
      (fun c ↦ { c with predicateWrite1Addr := address }) address builder
    merge "predicateWrite1Source" value builder

def constant (address : ℕ) : TileBuilder → Except LoweringError TileBuilder :=
  mergeField "constantAddr" (·.constantAddr) (fun c ↦ { c with constantAddr := address }) address

/-- Carry out one call. -/
def perform (target : TargetModel) (builder : TileBuilder) :
    BuilderCall → Except LoweringError TileBuilder
  | .merge field value => merge field value builder
  | .readAddress domain port index => readAddress domain port index builder
  | .source sink value => source sink value builder
  | .route domain direction value => route domain direction value builder
  | .dataWrite port address value => dataWrite target port address value builder
  | .predicateWrite port address value => predicateWrite target port address value builder
  | .constant address => constant address builder

end TileBuilder

end PredicatedMesh
