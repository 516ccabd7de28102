import PredicatedMesh.Lowering.Lowerer
import PredicatedMesh.Target.ControlFields

/-!
# What a builder has been asked for

A builder owns the fields that have been assigned. `assign` changes a field only the first time and
fails later unless the value is the same, so that at the end of a lowering without errors every
assignment still holds, whatever came between, and a field nobody assigned has its default. This is
`TileBuilder.Settled`, the invariant of the calls on one builder; `lowerCycle_settled` carries it
through the events of a cycle, which are spread over the builders of all tiles.
-/

namespace PredicatedMesh

/-! ## Assignments -/

/-- A field of a control. -/
inductive ControlKey
  | number (field : ControlNumber)
  | flag (field : ControlFlag)
  | symbol (field : ControlSymbol)
  deriving DecidableEq, Repr

inductive ControlValue
  | number (value : ℕ)
  | flag (value : Bool)
  | symbol (value : String)
  deriving DecidableEq, Repr

/-- A field and the value it is given. -/
inductive Assignment
  | number (field : ControlNumber) (value : ℕ)
  | flag (field : ControlFlag) (value : Bool)
  | symbol (field : ControlSymbol) (value : String)
  deriving DecidableEq, Repr

def ControlKey.get (control : TileControl) : ControlKey → ControlValue
  | .number field => .number (field.get control)
  | .flag field => .flag (field.get control)
  | .symbol field => .symbol (field.get control)

/-- The name under which a builder owns a field. -/
def ControlKey.label : ControlKey → String
  | .number .dataRfReadAddrA => "dataRfReadAddrA"
  | .number .dataRfReadAddrB => "dataRfReadAddrB"
  | .number .predicateRfReadAddrA => "predicateRfReadAddrA"
  | .number .predicateRfReadAddrB => "predicateRfReadAddrB"
  | .number .dataWrite0Addr => "dataWrite0Addr"
  | .number .dataWrite1Addr => "dataWrite1Addr"
  | .number .predicateWrite0Addr => "predicateWrite0Addr"
  | .number .predicateWrite1Addr => "predicateWrite1Addr"
  | .number .constantAddr => "constantAddr"
  | .flag .dataWrite0Enable => "dataWrite0Enable"
  | .flag .dataWrite1Enable => "dataWrite1Enable"
  | .flag .predicateWrite0Enable => "predicateWrite0Enable"
  | .flag .predicateWrite1Enable => "predicateWrite1Enable"
  | .flag .lsuCommitPredicateEnable => "lsuCommitPredicateEnable"
  | .flag .lsuCommitPredicateInvert => "lsuCommitPredicateInvert"
  | .flag (.dataRouteEnable direction) => "dataRoute" ++ toString (directionIndex direction)
  | .flag (.predicateRouteEnable direction) =>
    "predicateRoute" ++ toString (directionIndex direction)
  | .symbol .op => "op"
  | .symbol .srcA => "srcA"
  | .symbol .srcB => "srcB"
  | .symbol .srcP0 => "srcP0"
  | .symbol .srcP1 => "srcP1"
  | .symbol .dataWrite1Source => "dataWrite1Source"
  | .symbol .predicateWrite1Source => "predicateWrite1Source"
  | .symbol .lsuOp => "lsuOp"
  | .symbol .lsuAddrSource => "lsuAddrSource"
  | .symbol .lsuStoreDataSource => "lsuStoreDataSource"
  | .symbol .lsuCommitPredicateSource => "lsuCommitPredicateSource"
  | .symbol (.dataRouteSource direction) =>
    "dataRoute" ++ toString (directionIndex direction) ++ "Source"
  | .symbol (.predicateRouteSource direction) =>
    "predicateRoute" ++ toString (directionIndex direction) ++ "Source"

def ControlKey.all : List ControlKey :=
  ControlInteger.all.map (fun
    | .number field => .number field
    | .flag field => .flag field) ++ ControlSymbol.all.map .symbol

theorem ControlKey.mem_all (key : ControlKey) : key ∈ all := by
  refine List.mem_append.mpr ?_
  cases key with
  | number field => exact .inl (List.mem_map.mpr ⟨.number field, ControlInteger.mem_all _, rfl⟩)
  | flag field => exact .inl (List.mem_map.mpr ⟨.flag field, ControlInteger.mem_all _, rfl⟩)
  | symbol field => exact .inr (List.mem_map.mpr ⟨field, field.mem_all, rfl⟩)

/-- No two fields are owned under one name. -/
theorem ControlKey.label_injective {key other : ControlKey} (h : key.label = other.label) :
    key = other := by
  have hall : ∀ key ∈ all, ∀ other ∈ all, key.label = other.label → key = other := by
    decide +kernel
  exact hall key key.mem_all other other.mem_all h

namespace Assignment

def key : Assignment → ControlKey
  | .number field _ => .number field
  | .flag field _ => .flag field
  | .symbol field _ => .symbol field

def value : Assignment → ControlValue
  | .number _ value => .number value
  | .flag _ value => .flag value
  | .symbol _ value => .symbol value

def apply (control : TileControl) : Assignment → TileControl
  | .number field value => field.set control value
  | .flag field value => field.set control value
  | .symbol field value => field.set control value

/-- The control has the value. -/
def Holds (assignment : Assignment) (control : TileControl) : Prop :=
  assignment.key.get control = assignment.value

theorem get_apply {control : TileControl} (h : control.Shaped) (assignment : Assignment)
    (key : ControlKey) : key.get (assignment.apply control)
      = if assignment.key = key then assignment.value else key.get control := by
  cases assignment <;> cases key <;>
    simp only [ControlKey.get, Assignment.apply, Assignment.key, Assignment.value,
      ControlKey.number.injEq, ControlKey.flag.injEq, ControlKey.symbol.injEq, reduceCtorEq,
      if_false, ControlNumber.get_number_set, ControlNumber.get_flag_set,
      ControlNumber.get_symbol_set, ControlFlag.get_number_set, ControlFlag.get_flag_set h,
      ControlFlag.get_symbol_set h, ControlSymbol.get_number_set, ControlSymbol.get_flag_set h,
      ControlSymbol.get_symbol_set h] <;>
    split <;> rfl

theorem shaped_apply {control : TileControl} (h : control.Shaped) (assignment : Assignment) :
    (assignment.apply control).Shaped := by
  cases assignment with
  | number field value => exact h.set_number field value
  | flag field value => exact h.set_flag field value
  | symbol field value => exact h.set_symbol field value

end Assignment

/-! ## The assignments of a call -/

namespace BuilderCall

/-- The field `merge` assigns for a name. -/
def mergeField : String → Option ControlSymbol
  | "op" => some .op
  | "srcA" => some .srcA
  | "srcB" => some .srcB
  | "srcP0" => some .srcP0
  | "srcP1" => some .srcP1
  | "lsuOp" => some .lsuOp
  | "lsuAddrSource" => some .lsuAddrSource
  | "lsuStoreDataSource" => some .lsuStoreDataSource
  | "lsuCommitPredicateSource" => some .lsuCommitPredicateSource
  | "dataWrite1Source" => some .dataWrite1Source
  | "predicateWrite1Source" => some .predicateWrite1Source
  | _ => none

/-- The address field of a read port. -/
def readAddressField : RegisterBankDomain → ℕ → ControlNumber
  | .data, 0 => .dataRfReadAddrA
  | .data, _ => .dataRfReadAddrB
  | .predicate, 0 => .predicateRfReadAddrA
  | .predicate, _ => .predicateRfReadAddrB

/-- The source field of a sink. -/
def sinkField : TargetControlSink → ControlSymbol
  | .fuDataA => .srcA
  | .fuDataB => .srcB
  | .fuPredicate0 => .srcP0
  | .fuPredicate1 => .srcP1
  | .lsuAddress => .lsuAddrSource
  | .lsuStoreData => .lsuStoreDataSource
  | .lsuCommitPredicate => .lsuCommitPredicateSource

def routeEnable : NetworkDomain → Direction → ControlFlag
  | .data => .dataRouteEnable
  | .predicate => .predicateRouteEnable

def routeSource : NetworkDomain → Direction → ControlSymbol
  | .data => .dataRouteSource
  | .predicate => .predicateRouteSource

def assignments : BuilderCall → List Assignment
  | .merge field value => ((mergeField field).map fun symbol ↦ .symbol symbol value).toList
  | .readAddress domain port index => [.number (readAddressField domain port) index]
  | .source sink value =>
    .symbol (sinkField sink) value ::
      if sink = .lsuCommitPredicate then [.flag .lsuCommitPredicateEnable true] else []
  | .route domain direction value =>
    [.flag (routeEnable domain direction) true, .symbol (routeSource domain direction) value]
  | .dataWrite port address value =>
    if port = 0 then [.flag .dataWrite0Enable true, .number .dataWrite0Addr address]
    else [.flag .dataWrite1Enable true, .number .dataWrite1Addr address,
      .symbol .dataWrite1Source value]
  | .predicateWrite port address value =>
    if port = 0 then [.flag .predicateWrite0Enable true, .number .predicateWrite0Addr address]
    else [.flag .predicateWrite1Enable true, .number .predicateWrite1Addr address,
      .symbol .predicateWrite1Source value]
  | .constant address => [.number .constantAddr address]

end BuilderCall

/-! ## Carrying out assignments -/

namespace TileBuilder

/-- Carrying out an assignment: a field owned already has the value, another one gets it. -/
def Assigned (assignment : Assignment) (builder later : TileBuilder) : Prop :=
  (assignment.key.label ∈ builder.owned ∧ assignment.Holds builder.control ∧ later = builder) ∨
    (assignment.key.label ∉ builder.owned ∧
      later = { builder with control := assignment.apply builder.control
                             owned := assignment.key.label :: builder.owned })

/-- Carrying out assignments one after the other. -/
inductive Assigns : List Assignment → TileBuilder → TileBuilder → Prop
  | nil (builder : TileBuilder) : Assigns [] builder builder
  | cons {assignment : Assignment} {assignments : List Assignment}
      {builder middle later : TileBuilder} (head : Assigned assignment builder middle)
      (tail : Assigns assignments middle later) :
      Assigns (assignment :: assignments) builder later

theorem Assigns.single {assignment : Assignment} {builder later : TileBuilder}
    (h : Assigned assignment builder later) : Assigns [assignment] builder later :=
  .cons h (.nil later)

/-- What the assignments so far have left in a builder. -/
structure Settled (assigned : List Assignment) (builder : TileBuilder) : Prop where
  shaped : builder.control.Shaped
  holds : ∀ assignment ∈ assigned,
    assignment.key.label ∈ builder.owned ∧ assignment.Holds builder.control
  /-- Only the assigned fields are owned. -/
  assigned : ∀ key : ControlKey, key.label ∈ builder.owned →
    ∃ assignment ∈ assigned, assignment.key = key
  /-- Other fields have their default. -/
  default : ∀ key : ControlKey, key.label ∉ builder.owned →
    key.get builder.control = key.get {}

theorem settled_nil (tile : TileCoord) : Settled [] { tile := tile } where
  shaped := ⟨rfl, rfl⟩
  holds := by simp
  assigned := by simp
  default := fun _ _ ↦ rfl

theorem Settled.assign {assigned : List Assignment} {assignment : Assignment}
    {builder later : TileBuilder} (h : Settled assigned builder)
    (hassign : Assigned assignment builder later) : Settled (assigned ++ [assignment]) later := by
  rcases hassign with ⟨howned, hholds, rfl⟩ | ⟨hfree, rfl⟩
  · refine ⟨h.shaped, ?_, ?_, h.default⟩
    · intro other hmem
      rcases List.mem_append.mp hmem with hmem | hmem
      · exact h.holds other hmem
      · rw [List.mem_singleton.mp hmem]
        exact ⟨howned, hholds⟩
    · intro key hkey
      obtain ⟨other, hother, heq⟩ := h.assigned key hkey
      exact ⟨other, List.mem_append_left _ hother, heq⟩
  · -- the field is new, so no assignment so far is about it
    refine ⟨assignment.shaped_apply h.shaped, ?_, ?_, ?_⟩
    · intro other hmem
      rcases List.mem_append.mp hmem with hmem | hmem
      · obtain ⟨howned, hholds⟩ := h.holds other hmem
        refine ⟨List.mem_cons_of_mem _ howned, ?_⟩
        have hne : assignment.key ≠ other.key := fun heq ↦ hfree (heq ▸ howned)
        rw [Assignment.Holds, Assignment.get_apply h.shaped, if_neg hne]
        exact hholds
      · rw [List.mem_singleton.mp hmem]
        refine ⟨List.mem_cons_self, ?_⟩
        rw [Assignment.Holds, Assignment.get_apply h.shaped, if_pos rfl]
    · intro key hkey
      rcases List.mem_cons.mp hkey with heq | hkey
      · refine ⟨assignment, List.mem_append_right _ (List.mem_singleton.mpr rfl), ?_⟩
        exact (ControlKey.label_injective heq).symm
      · obtain ⟨other, hother, heq⟩ := h.assigned key hkey
        exact ⟨other, List.mem_append_left _ hother, heq⟩
    · intro key hkey
      rw [List.mem_cons, not_or] at hkey
      have hne : assignment.key ≠ key := fun heq ↦ hkey.1 (congrArg ControlKey.label heq.symm)
      rw [Assignment.get_apply h.shaped, if_neg hne]
      exact h.default key hkey.2

theorem Settled.assigns {assigned assignments : List Assignment} {builder later : TileBuilder}
    (h : Settled assigned builder) (hassigns : Assigns assignments builder later) :
    Settled (assigned ++ assignments) later := by
  induction hassigns generalizing assigned with
  | nil => rwa [List.append_nil]
  | cons head tail ih =>
    rw [List.append_cons]
    exact ih (h.assign head)

/-- **The value of a field** is the one it was assigned, and the default if it was not. -/
theorem Settled.get_eq_iff {assigned : List Assignment} {builder : TileBuilder}
    (h : Settled assigned builder) (key : ControlKey) (value : ControlValue) :
    key.get builder.control = value ↔
      (∃ assignment ∈ assigned, assignment.key = key ∧ assignment.value = value) ∨
        (∀ assignment ∈ assigned, assignment.key ≠ key) ∧ key.get {} = value := by
  by_cases hex : ∃ assignment ∈ assigned, assignment.key = key
  · obtain ⟨assignment, hmem, rfl⟩ := hex
    have hholds := (h.holds assignment hmem).2
    constructor
    · intro hvalue
      exact .inl ⟨assignment, hmem, rfl, hholds.symm.trans hvalue⟩
    · rintro (⟨other, hother, hkey, rfl⟩ | ⟨hnone, -⟩)
      · rw [← hkey]
        exact (h.holds other hother).2
      · exact absurd rfl (hnone assignment hmem)
  · have hnone : ∀ assignment ∈ assigned, assignment.key ≠ key :=
      fun assignment hmem heq ↦ hex ⟨assignment, hmem, heq⟩
    have hfree : key.label ∉ builder.owned := fun howned ↦ hex (h.assigned key howned)
    rw [h.default key hfree]
    constructor
    · exact fun hvalue ↦ .inr ⟨hnone, hvalue⟩
    · rintro (⟨assignment, hmem, hkey, -⟩ | ⟨-, hvalue⟩)
      · exact absurd hkey (hnone assignment hmem)
      · exact hvalue

/-! ### The calls -/

section Calls

variable {target : TargetModel} {builder later : TileBuilder}

/-- `assign` carries out an assignment if it reads and writes the assigned field. -/
theorem assigned_of_assign {α : Type} [DecidableEq α] {message : String}
    {get : TileControl → α} {set : TileControl → TileControl} {value : α} (assignment : Assignment)
    (hget : ∀ control, get control = value → assignment.Holds control)
    (hset : ∀ control, set control = assignment.apply control)
    (h : assign assignment.key.label message get set value builder = .ok later) :
    Assigned assignment builder later := by
  unfold assign at h
  split at h
  · rename_i howned
    split at h
    · cases h
    · rename_i hvalue
      exact .inl ⟨howned, hget _ (not_not.mp hvalue), (Except.ok.inj h).symm⟩
  · rename_i hfree
    refine .inr ⟨hfree, ?_⟩
    rw [← hset]
    exact (Except.ok.inj h).symm

theorem assigns_of_merge {field value : String} (h : merge field value builder = .ok later) :
    Assigns (BuilderCall.assignments (.merge field value)) builder later := by
  unfold merge at h
  split at h
  case h_12 =>
    -- a name that is no field is ignored
    have hnone : BuilderCall.mergeField field = none := by
      unfold BuilderCall.mergeField
      split <;> first | rfl | contradiction
    rw [BuilderCall.assignments, hnone, Except.ok.inj h]
    exact .nil later
  all_goals
    refine .single (assigned_of_assign (.symbol _ value) ?_ ?_ h)
    · rintro control rfl
      rfl
    · exact fun _ ↦ rfl

theorem Assigns.append {first second : List Assignment} {middle : TileBuilder}
    (h : Assigns first builder middle) (h' : Assigns second middle later) :
    Assigns (first ++ second) builder later := by
  induction h with
  | nil => exact h'
  | cons head tail ih => exact .cons head (ih h')

theorem assigned_number {message : String} {field : ControlNumber} {value : ℕ}
    {get : TileControl → ℕ} {set : TileControl → TileControl}
    (hget : ∀ control, get control = field.get control)
    (hset : ∀ control, set control = field.set control value)
    (h : assign (ControlKey.number field).label message get set value builder = .ok later) :
    Assigned (.number field value) builder later := by
  refine assigned_of_assign (.number field value) ?_ hset h
  intro control hvalue
  rw [← hvalue, hget]
  rfl

theorem assigned_flag {message : String} {field : ControlFlag}
    {get : TileControl → Bool} {set : TileControl → TileControl}
    (hget : ∀ control, get control = field.get control)
    (hset : ∀ control, set control = field.set control true)
    (h : assign (ControlKey.flag field).label message get set true builder = .ok later) :
    Assigned (.flag field true) builder later := by
  refine assigned_of_assign (.flag field true) ?_ hset h
  intro control hvalue
  rw [Assignment.Holds, Assignment.value, ← hvalue, hget]
  rfl

theorem assigned_symbol {message : String} {field : ControlSymbol} {value : String}
    {get : TileControl → String} {set : TileControl → TileControl}
    (hget : ∀ control, get control = field.get control)
    (hset : ∀ control, set control = field.set control value)
    (h : assign (ControlKey.symbol field).label message get set value builder = .ok later) :
    Assigned (.symbol field value) builder later := by
  refine assigned_of_assign (.symbol field value) ?_ hset h
  intro control hvalue
  rw [← hvalue, hget]
  rfl

theorem assigns_of_readAddress {domain : RegisterBankDomain} {port index : ℕ}
    (h : readAddress domain port index builder = .ok later) :
    Assigns (BuilderCall.assignments (.readAddress domain port index)) builder later := by
  refine .single ?_
  rcases domain with _ | _ <;> rcases port with _ | port <;>
    exact assigned_number (fun _ ↦ rfl) (fun _ ↦ rfl) h

theorem assigns_of_source {sink : TargetControlSink} {value : String}
    (h : source sink value builder = .ok later) :
    Assigns (BuilderCall.assignments (.source sink value)) builder later := by
  cases sink with
  | lsuCommitPredicate =>
    obtain ⟨middle, hmerge, henable⟩ := Scan.bind_eq_ok.mp h
    refine Assigns.append (assigns_of_merge hmerge) (.single ?_)
    exact assigned_flag (fun _ ↦ rfl) (fun _ ↦ rfl) henable
  | fuDataA => exact assigns_of_merge (show merge "srcA" value builder = .ok later from h)
  | fuDataB => exact assigns_of_merge (show merge "srcB" value builder = .ok later from h)
  | fuPredicate0 => exact assigns_of_merge (show merge "srcP0" value builder = .ok later from h)
  | fuPredicate1 => exact assigns_of_merge (show merge "srcP1" value builder = .ok later from h)
  | lsuAddress =>
    exact assigns_of_merge (show merge "lsuAddrSource" value builder = .ok later from h)
  | lsuStoreData =>
    exact assigns_of_merge (show merge "lsuStoreDataSource" value builder = .ok later from h)

theorem assigns_of_route {domain : NetworkDomain} {direction : Direction} {value : String}
    (h : route domain direction value builder = .ok later) :
    Assigns (BuilderCall.assignments (.route domain direction value)) builder later := by
  obtain ⟨middle, henable, hsource⟩ := Scan.bind_eq_ok.mp h
  cases domain with
  | data =>
    refine .cons (?_ : Assigned _ builder middle) (.single ?_)
    · exact assigned_flag (fun _ ↦ rfl) (fun _ ↦ rfl) henable
    · exact assigned_symbol (fun _ ↦ rfl) (fun _ ↦ rfl) hsource
  | predicate =>
    refine .cons (?_ : Assigned _ builder middle) (.single ?_)
    · exact assigned_flag (fun _ ↦ rfl) (fun _ ↦ rfl) henable
    · exact assigned_symbol (fun _ ↦ rfl) (fun _ ↦ rfl) hsource

theorem assigns_of_dataWrite {port address : ℕ} {value : String}
    (h : dataWrite target port address value builder = .ok later) :
    Assigns (BuilderCall.assignments (.dataWrite port address value)) builder later := by
  obtain ⟨-, -, h⟩ := Scan.bind_eq_ok.mp h
  split at h
  · rename_i hport
    rw [BuilderCall.assignments, if_pos hport]
    obtain ⟨first, henable, h⟩ := Scan.bind_eq_ok.mp h
    obtain ⟨second, haddress, h⟩ := Scan.bind_eq_ok.mp h
    split at h
    · cases h
    · rw [← Except.ok.inj h]
      refine .cons (?_ : Assigned _ builder first) (.single ?_)
      · exact assigned_flag (fun _ ↦ rfl) (fun _ ↦ rfl) henable
      · exact assigned_number (fun _ ↦ rfl) (fun _ ↦ rfl) haddress
  · rename_i hport
    rw [BuilderCall.assignments, if_neg hport]
    obtain ⟨first, henable, h⟩ := Scan.bind_eq_ok.mp h
    obtain ⟨second, haddress, h⟩ := Scan.bind_eq_ok.mp h
    refine .cons (?_ : Assigned _ builder first) (.cons ?_ (assigns_of_merge h))
    · exact assigned_flag (fun _ ↦ rfl) (fun _ ↦ rfl) henable
    · exact assigned_number (fun _ ↦ rfl) (fun _ ↦ rfl) haddress

theorem assigns_of_predicateWrite {port address : ℕ} {value : String}
    (h : predicateWrite target port address value builder = .ok later) :
    Assigns (BuilderCall.assignments (.predicateWrite port address value)) builder later := by
  obtain ⟨-, -, h⟩ := Scan.bind_eq_ok.mp h
  split at h
  · rename_i hport
    rw [BuilderCall.assignments, if_pos hport]
    obtain ⟨first, henable, h⟩ := Scan.bind_eq_ok.mp h
    obtain ⟨second, haddress, h⟩ := Scan.bind_eq_ok.mp h
    split at h
    · cases h
    · rw [← Except.ok.inj h]
      refine .cons (?_ : Assigned _ builder first) (.single ?_)
      · exact assigned_flag (fun _ ↦ rfl) (fun _ ↦ rfl) henable
      · exact assigned_number (fun _ ↦ rfl) (fun _ ↦ rfl) haddress
  · rename_i hport
    rw [BuilderCall.assignments, if_neg hport]
    obtain ⟨first, henable, h⟩ := Scan.bind_eq_ok.mp h
    obtain ⟨second, haddress, h⟩ := Scan.bind_eq_ok.mp h
    refine .cons (?_ : Assigned _ builder first) (.cons ?_ (assigns_of_merge h))
    · exact assigned_flag (fun _ ↦ rfl) (fun _ ↦ rfl) henable
    · exact assigned_number (fun _ ↦ rfl) (fun _ ↦ rfl) haddress

/-- **A call that succeeds** has carried out its assignments. -/
theorem assigns_of_perform {call : BuilderCall} (h : perform target builder call = .ok later) :
    Assigns call.assignments builder later := by
  cases call with
  | merge field value => exact assigns_of_merge h
  | readAddress domain port index => exact assigns_of_readAddress h
  | source sink value => exact assigns_of_source h
  | route domain direction value => exact assigns_of_route h
  | dataWrite port address value => exact assigns_of_dataWrite h
  | predicateWrite port address value => exact assigns_of_predicateWrite h
  | constant address => exact .single (assigned_number (fun _ ↦ rfl) (fun _ ↦ rfl) h)

theorem Settled.perform {assigned : List Assignment} {calls : List BuilderCall}
    (h : Settled assigned builder)
    (hcalls : calls.foldlM (TileBuilder.perform target) builder = .ok later) :
    Settled (assigned ++ calls.flatMap BuilderCall.assignments) later := by
  induction calls generalizing assigned builder with
  | nil =>
    obtain rfl := Except.ok.inj hcalls
    rwa [List.flatMap_nil, List.append_nil]
  | cons call calls ih =>
    rw [List.foldlM_cons] at hcalls
    obtain ⟨middle, hcall, hrest⟩ := Scan.bind_eq_ok.mp hcalls
    rw [List.flatMap_cons, ← List.append_assoc]
    exact ih (h.assigns (assigns_of_perform hcall)) hrest

end Calls

end TileBuilder

/-! ## The builders of a cycle -/

namespace Lowerer

open TileBuilder

section Cycle

variable {dfg : TargetDFG} {target : TargetModel} {mapping : RFAllocatedMapping}
variable {image : ConstantImage}

/-- The event is lowered into the builder at an index. -/
def LoweredAt (target : TargetModel) (mapping : RFAllocatedMapping) (index : ℕ)
    (bundled resolved : MaterializedEvent) : Prop :=
  bundled.kind ≠ .liveOutBoundaryUse ∧ resolve mapping bundled = .ok resolved ∧
    ∃ tile, resolved.tile = some tile ∧ tileIndex target tile = .ok index

/-- The calls an event makes on the builder at an index. -/
def callsAt (dfg : TargetDFG) (target : TargetModel) (mapping : RFAllocatedMapping)
    (image : ConstantImage) (index : ℕ) (bundled : MaterializedEvent) : List BuilderCall :=
  if bundled.kind = .liveOutBoundaryUse then []
  else
    match resolve mapping bundled with
    | .error _ => []
    | .ok resolved =>
      match resolved.tile.map (tileIndex target) with
      | some (.ok at_) =>
        if at_ = index then (calls dfg target mapping image resolved).calls else []
      | _ => []

theorem mem_callsAt_iff {index : ℕ} {bundled : MaterializedEvent} {call : BuilderCall} :
    call ∈ callsAt dfg target mapping image index bundled ↔
      ∃ resolved, LoweredAt target mapping index bundled resolved ∧
        call ∈ (calls dfg target mapping image resolved).calls := by
  unfold callsAt LoweredAt
  by_cases hkind : bundled.kind = .liveOutBoundaryUse
  · simp [hkind]
  rw [if_neg hkind]
  split
  · rename_i hresolve
    simp [hresolve]
  · rename_i resolved hresolve
    split
    · rename_i at_ hat
      obtain ⟨tile, htile, hindex⟩ := Option.map_eq_some_iff.mp hat
      split
      · rename_i heq
        subst heq
        constructor
        · exact fun hcall ↦ ⟨resolved, ⟨hkind, hresolve, tile, htile, hindex⟩, hcall⟩
        · rintro ⟨resolved', ⟨-, hresolve', -⟩, hcall⟩
          obtain rfl := Except.ok.inj (hresolve.symm.trans hresolve')
          exact hcall
      · rename_i hne
        simp only [List.not_mem_nil, false_iff]
        rintro ⟨resolved', ⟨-, hresolve', tile', htile', hindex'⟩, -⟩
        obtain rfl := Except.ok.inj (hresolve.symm.trans hresolve')
        obtain rfl := Option.some.inj (htile.symm.trans htile')
        exact hne (Except.ok.inj (hindex.symm.trans hindex'))
    · rename_i hnone
      simp only [List.not_mem_nil, false_iff]
      rintro ⟨resolved', ⟨-, hresolve', tile', htile', hindex'⟩, -⟩
      obtain rfl := Except.ok.inj (hresolve.symm.trans hresolve')
      exact hnone index (by rw [htile', Option.map_some, hindex'])

/-- An event that succeeds has carried out all its calls. -/
theorem event_eq_ok {event : MaterializedEvent} {builder later : TileBuilder}
    (h : Lowerer.event dfg target mapping image event builder = .ok later) :
    (calls dfg target mapping image event).calls.foldlM (TileBuilder.perform target) builder
        = .ok later ∧ (calls dfg target mapping image event).error = none := by
  simp only [Lowerer.event] at h
  split at h
  · cases h
  · rename_i performed hperformed
    split at h
    · cases h
    · rename_i herror
      rw [← h]
      exact ⟨hperformed, herror⟩

/-- **One event**: it has been lowered without an error into the builder of its tile, and all
builders stay settled. -/
theorem lowerEvent_settled {builders later : List TileBuilder} {bundled : MaterializedEvent}
    {assigned : ℕ → List Assignment}
    (hsettled : ∀ index builder, builders[index]? = some builder →
      Settled (assigned index) builder)
    (h : lowerEvent dfg target mapping image builders bundled = .ok later) :
    (∀ index builder, later[index]? = some builder →
      Settled (assigned index
        ++ (callsAt dfg target mapping image index bundled).flatMap BuilderCall.assignments)
        builder) ∧
    (bundled.kind ≠ .liveOutBoundaryUse → ∃ index resolved,
      LoweredAt target mapping index bundled resolved ∧
        (calls dfg target mapping image resolved).error = none) := by
  unfold lowerEvent at h
  by_cases hkind : bundled.kind = .liveOutBoundaryUse
  · rw [if_pos hkind] at h
    obtain rfl := Except.ok.inj h
    refine ⟨fun index builder hget ↦ ?_, fun hne ↦ absurd hkind hne⟩
    rw [callsAt, if_pos hkind, List.flatMap_nil, List.append_nil]
    exact hsettled index builder hget
  rw [if_neg hkind] at h
  obtain ⟨resolved, hresolve, h⟩ := Scan.bind_eq_ok.mp h
  split at h
  · cases h
  rename_i tile htile
  obtain ⟨index, hindex, h⟩ := Scan.bind_eq_ok.mp h
  split at h
  · cases h
  rename_i builder hbuilder
  obtain ⟨next, hevent, h⟩ := Scan.bind_eq_ok.mp h
  obtain rfl := Except.ok.inj h
  have hlowered : LoweredAt target mapping index bundled resolved :=
    ⟨hkind, hresolve, tile, htile, hindex⟩
  obtain ⟨hperformed, herror⟩ := event_eq_ok hevent
  refine ⟨fun other builder' hget ↦ ?_, fun _ ↦ ⟨index, resolved, hlowered, herror⟩⟩
  have hcalls : callsAt dfg target mapping image other bundled
      = if index = other then (calls dfg target mapping image resolved).calls else [] := by
    rw [callsAt, if_neg hkind, hresolve]
    simp only [htile, Option.map_some, hindex]
  rw [hcalls]
  rw [List.getElem?_set] at hget
  by_cases hother : index = other
  · -- the builder of the event's tile
    subst hother
    rw [if_pos rfl] at hget ⊢
    split at hget
    · obtain rfl := Option.some.inj hget
      exact (hsettled index builder hbuilder).perform hperformed
    · cases hget
  · rw [if_neg hother] at hget ⊢
    rw [List.flatMap_nil, List.append_nil]
    exact hsettled other builder' hget

theorem lowerEvents_settled {events : List MaterializedEvent} {builders later : List TileBuilder}
    {assigned : ℕ → List Assignment}
    (hsettled : ∀ index builder, builders[index]? = some builder →
      Settled (assigned index) builder)
    (h : events.foldlM (lowerEvent dfg target mapping image) builders = .ok later) :
    (∀ index builder, later[index]? = some builder →
      Settled (assigned index ++ events.flatMap fun event ↦
        (callsAt dfg target mapping image index event).flatMap BuilderCall.assignments)
        builder) ∧
    ∀ event ∈ events, event.kind ≠ .liveOutBoundaryUse → ∃ index resolved,
      LoweredAt target mapping index event resolved ∧
        (calls dfg target mapping image resolved).error = none := by
  induction events generalizing builders assigned with
  | nil =>
    obtain rfl := Except.ok.inj h
    refine ⟨fun index builder hget ↦ ?_, by simp⟩
    rw [List.flatMap_nil, List.append_nil]
    exact hsettled index builder hget
  | cons event events ih =>
    rw [List.foldlM_cons] at h
    obtain ⟨middle, hevent, hrest⟩ := Scan.bind_eq_ok.mp h
    obtain ⟨hstep, hlowered⟩ := lowerEvent_settled hsettled hevent
    obtain ⟨hrun, hall⟩ := ih hstep hrest
    refine ⟨fun index builder hget ↦ ?_, List.forall_mem_cons.mpr ⟨hlowered, hall⟩⟩
    rw [List.flatMap_cons, ← List.append_assoc]
    exact hrun index builder hget

/-- **A cycle.** Each of its controls holds what the events of its tile have assigned, and nothing
else; each event has been lowered. -/
theorem lowerCycle_settled {bundle : CycleBundle} {controls : List TileControl}
    (h : lowerCycle dfg target mapping image bundle = .ok controls) :
    (∀ (index : ℕ) (control : TileControl), controls[index]? = some control →
      ∃ builder, builder.control = control ∧
        Settled (bundle.events.flatMap fun event ↦
          (callsAt dfg target mapping image index event).flatMap BuilderCall.assignments)
          builder) ∧
    ∀ event ∈ bundle.events, event.kind ≠ .liveOutBoundaryUse → ∃ index resolved,
      LoweredAt target mapping index event resolved ∧
        (calls dfg target mapping image resolved).error = none := by
  obtain ⟨builders, hfold, h⟩ := Scan.bind_eq_ok.mp h
  obtain rfl := Except.ok.inj h
  have hinitial : ∀ (index : ℕ) (builder : TileBuilder),
      ((List.range (target.array.rows * target.array.cols)).map fun index ↦
        ({ tile := ⟨index / target.array.cols, index % target.array.cols⟩ } : TileBuilder))[index]?
        = some builder → Settled ((fun _ : ℕ ↦ ([] : List Assignment)) index) builder := by
    intro index builder hget
    rw [List.getElem?_map] at hget
    obtain ⟨position, -, rfl⟩ := Option.map_eq_some_iff.mp hget
    exact settled_nil _
  obtain ⟨hrun, hall⟩ := lowerEvents_settled hinitial hfold
  refine ⟨fun index control hget ↦ ?_, hall⟩
  rw [List.getElem?_map] at hget
  obtain ⟨builder, hbuilder, hcontrol⟩ := Option.map_eq_some_iff.mp hget
  exact ⟨builder, hcontrol, hrun index builder hbuilder⟩

end Cycle

end Lowerer

end PredicatedMesh
