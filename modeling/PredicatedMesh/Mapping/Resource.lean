import PredicatedMesh.Mapping.ModuloMapping

/-!
# Modulo resources and their reservation

Time is folded into the initiation interval: a resource is a unit or a directed link of the array
*at one slot*, and it is identified by its position in a fixed enumeration. Operations and routes
are checked by reserving resource ids in a table that never gives an id away twice.

Exclusivity needs only one direction of the identification — equal resources have equal ids — so
the enumeration's 32-bit counter is kept as the source has it. Were it ever to wrap, two resources
would share an id and the table would refuse more, never less.

The table is read through two notions: `Extends`, a later table keeps every owner an earlier one
recorded, and `Owns`, a list of ids is recorded for an owner. Two owners that own one id are equal,
and that is all the exclusivity theorems use.
-/

namespace PredicatedMesh

/-! ## Resources -/

inductive ModuloResource
  | fu (tile : TileCoord) (slot : ℕ)
  | lsu (tile : TileCoord) (slot : ℕ)
  | link (domain : NetworkDomain) (source : TileCoord) (direction : Direction) (slot : ℕ)
  deriving DecidableEq, Repr

inductive ResourceKind
  | fu
  | lsu
  | dataLink
  | predicateLink
  deriving DecidableEq, Repr

namespace ModuloResource

def kindOf : ModuloResource → ResourceKind
  | .fu _ _ => .fu
  | .lsu _ _ => .lsu
  | .link .data _ _ _ => .dataLink
  | .link .predicate _ _ _ => .predicateLink

def tile : ModuloResource → TileCoord
  | .fu tile _ => tile
  | .lsu tile _ => tile
  | .link _ source _ _ => source

def slot : ModuloResource → ℕ
  | .fu _ slot => slot
  | .lsu _ slot => slot
  | .link _ _ _ slot => slot

end ModuloResource

abbrev ResourceId := ℕ

/-- The resources of a target at an initiation interval. -/
structure ModuloResourceModel where
  target : TargetModel
  ii : ℕ

namespace ModuloResourceModel

variable (model : ModuloResourceModel)

/-- The links of one domain that leave a tile at a slot. -/
def tileLinks (domain : NetworkDomain) (tile : TileCoord) (slot : ℕ) : List ModuloResource :=
  (Direction.all.filter fun direction ↦ (model.target.neighbor tile direction).isSome).map
    fun direction ↦ .link domain tile direction slot

/-- The resources of one tile at one slot, in the order they are enumerated. -/
def tileResources (slot : ℕ) (tile : TileCoord) : List ModuloResource :=
  [.fu tile slot]
  ++ (if model.target.tileHasLSU tile.row tile.col then [.lsu tile slot] else [])
  ++ if model.target.dataNetwork.topology == "mesh_2d" then
      model.tileLinks .data tile slot ++ model.tileLinks .predicate tile slot
    else []

def resources : List ModuloResource :=
  (List.range model.ii).flatMap fun slot ↦
    model.target.tiles.flatMap fun tile ↦ model.tileResources slot ⟨tile.1, tile.2⟩

def resourceCount : ℕ := model.resources.length

/-- The resource behind an id. -/
def resource (id : ResourceId) : Option ModuloResource := model.resources[id]?

/-- The id of a resource: its position, counted in 32 bits. -/
def findResource (requested : ModuloResource) : Option ResourceId :=
  (model.resources.findIdx? fun resource ↦ resource == requested).map (· % 2 ^ 32)

def supportsOperation (tile : TileCoord) (node : TargetNode) : Bool :=
  if tile.row ≥ model.target.array.rows || tile.col ≥ model.target.array.cols then
    false
  else
    match model.target.findOperation node.operation with
    | none => false
    | some operation => model.target.tileSupportsOperation tile.row tile.col operation.id

def hasFU (tile : TileCoord) : Bool :=
  decide (tile.row < model.target.array.rows) && decide (tile.col < model.target.array.cols)

def fuResource (tile : TileCoord) (slot : ℕ) : Except String ResourceId :=
  if slot ≥ model.ii then .error "modulo slot is outside [0, II)"
  else if !model.hasFU tile then .error "tile is outside the target array"
  else match model.findResource (.fu tile slot) with
    | none => .error "requested modulo resource does not exist"
    | some id => .ok id

def lsuResource (tile : TileCoord) (slot : ℕ) : Except String (Option ResourceId) :=
  if slot ≥ model.ii then .error "modulo slot is outside [0, II)"
  else if !model.target.tileHasLSU tile.row tile.col then .ok none
  else match model.findResource (.lsu tile slot) with
    | none => .error "requested modulo resource does not exist"
    | some id => .ok (some id)

/-- The link that leaves a tile at a slot of the interval, if there is one. -/
def linkAt (domain : NetworkDomain) (source : TileCoord) (direction : Direction)
    (slot : ℕ) : Option ResourceId :=
  if (model.target.neighbor source direction).isSome then
    model.findResource (.link domain source direction slot)
  else none

def linkResource (domain : NetworkDomain) (source : TileCoord) (direction : Direction)
    (slot : ℕ) : Except String (Option ResourceId) :=
  if slot ≥ model.ii then .error "modulo slot is outside [0, II)"
  else .ok (model.linkAt domain source direction slot)

/-- The unit an operation of an execution class occupies on a tile at a slot. -/
def unitResource : TargetExecutionClass → TileCoord → ℕ → ModuloResource
  | .fu, tile, slot => .fu tile slot
  | .lsu, tile, slot => .lsu tile slot

def unitResourceId (executionClass : TargetExecutionClass) (tile : TileCoord) (slot : ℕ) :
    Except String ResourceId :=
  match executionClass with
  | .fu => model.fuResource tile slot
  | .lsu =>
    match model.lsuResource tile slot with
    | .error what => .error what
    | .ok none => .error "bad optional access"
    | .ok (some id) => .ok id

/-- The ids an operation occupies from `offset` on, given those it occupies already. -/
def footprintFrom (executionClass : TargetExecutionClass) (tile : TileCoord) (issueSlot : ℕ) :
    ℕ → ℕ → List ResourceId → Except String (List ResourceId)
  | 0, _, footprint => .ok footprint
  | remaining + 1, offset, footprint =>
    match ModuloTimeDomain.advance model.ii issueSlot offset with
    | .error e => .error e
    | .ok slot =>
      match model.unitResourceId executionClass tile slot with
      | .error e => .error e
      | .ok resource =>
        if footprint.contains resource then
          .error "operation footprint overlaps itself in modulo time"
        else
          footprintFrom executionClass tile issueSlot remaining (offset + 1)
            (footprint ++ [resource])

def operationFootprint (node : TargetNode) (tile : TileCoord) (issueSlot : ℕ) :
    Except String (List ResourceId) :=
  match model.target.findOperation node.operation with
  | none => .error "operation is absent from TargetModel"
  | some operation =>
    if !model.supportsOperation tile node then
      .error "operation cannot execute on requested tile"
    else if operation.issueOccupancy = 0 then
      .error "operation issue occupancy must be positive"
    else
      model.footprintFrom operation.executionClass tile issueSlot operation.issueOccupancy 0 []

variable {model}

/-! ### Ids -/

theorem findResource_lt {requested : ModuloResource} {id : ResourceId}
    (h : model.findResource requested = some id) : id < model.resourceCount := by
  obtain ⟨index, hindex, rfl⟩ := Option.map_eq_some_iff.mp h
  have hlt : index < model.resources.length := by
    obtain ⟨hlt, -⟩ := List.findIdx?_eq_some_iff_getElem.mp hindex
    exact hlt
  exact (Nat.mod_le index _).trans_lt hlt

theorem lsuResource_eq_ok_some {tile : TileCoord} {slot id : ℕ}
    (h : model.lsuResource tile slot = .ok (some id)) :
    model.target.tileHasLSU tile.row tile.col = true ∧
      model.findResource (.lsu tile slot) = some id := by
  rw [lsuResource] at h
  split at h
  · cases h
  · split at h
    · cases h
    · rename_i hlsu
      split at h
      · cases h
      · rename_i hfound
        exact ⟨by simpa using hlsu, hfound.trans (Except.ok.inj h)⟩

theorem linkResource_eq {domain : NetworkDomain} {source : TileCoord} {direction : Direction}
    {slot : ℕ} (h : slot < model.ii) : model.linkResource domain source direction slot
      = .ok (model.linkAt domain source direction slot) :=
  if_neg (Nat.not_le.mpr h)

/-- The slots that are asked for are those of the interval. -/
theorem linkResource_of_advance {domain : NetworkDomain} {source : TileCoord}
    {direction : Direction} {start delta slot : ℕ}
    (h : ModuloTimeDomain.advance model.ii start delta = .ok slot) :
    model.linkResource domain source direction slot
      = .ok (model.linkAt domain source direction slot) := by
  obtain ⟨hlt, rfl⟩ := ModuloTimeDomain.advance_eq_ok_iff.mp h
  exact linkResource_eq (Nat.mod_lt _ (Nat.zero_lt_of_lt hlt))

theorem findResource_unitResource {executionClass : TargetExecutionClass} {tile : TileCoord}
    {slot id : ℕ} (h : model.unitResourceId executionClass tile slot = .ok id) :
    model.findResource (unitResource executionClass tile slot) = some id := by
  cases executionClass with
  | fu =>
    unfold unitResourceId fuResource at h
    simp only at h
    split at h
    · cases h
    · split at h
      · cases h
      · split at h
        · cases h
        · rename_i hfound
          exact hfound.trans (congrArg some (Except.ok.inj h))
  | lsu =>
    rw [unitResourceId] at h
    split at h
    · cases h
    · cases h
    · rename_i hlsu
      obtain rfl := Except.ok.inj h
      exact (lsuResource_eq_ok_some hlsu).2

theorem findResource_linkAt {domain : NetworkDomain} {source : TileCoord}
    {direction : Direction} {slot id : ℕ}
    (h : model.linkAt domain source direction slot = some id) :
    model.findResource (.link domain source direction slot) = some id := by
  unfold linkAt at h
  split at h
  · exact h
  · cases h

/-! ### Footprints -/

/-- What the footprint loop has done when it returns: it kept what it was given, it holds the id of
the unit at every remaining offset, and no id occurs twice. -/
theorem footprintFrom_spec {executionClass : TargetExecutionClass} {tile : TileCoord}
    {issueSlot remaining offset : ℕ} {acc footprint : List ResourceId} (hacc : acc.Nodup)
    (h : model.footprintFrom executionClass tile issueSlot remaining offset acc = .ok footprint) :
    ∃ added : List ResourceId, footprint = acc ++ added ∧ footprint.Nodup ∧
      added.length = remaining ∧ ∀ i, ∀ hi : i < added.length, issueSlot < model.ii ∧
        model.findResource (unitResource executionClass tile
          ((issueSlot + (offset + i)) % model.ii)) = some (added.get ⟨i, hi⟩) := by
  induction remaining generalizing offset acc with
  | zero =>
    rw [footprintFrom, Except.ok.injEq] at h
    subst h
    exact ⟨[], by simp, hacc, rfl, fun i hi ↦ absurd hi (by simp)⟩
  | succ remaining ih =>
    unfold footprintFrom at h
    split at h
    · cases h
    · rename_i slot hslot
      obtain ⟨hlt, rfl⟩ := ModuloTimeDomain.advance_eq_ok_iff.mp hslot
      split at h
      · cases h
      · rename_i resource hresource
        split at h
        · cases h
        · rename_i hfresh
          have hnot : resource ∉ acc := by simpa using hfresh
          have hacc' : (acc ++ [resource]).Nodup :=
            List.nodup_append.mpr ⟨hacc, List.nodup_singleton _, by
              intro a ha b hb hab
              rw [List.mem_singleton] at hb
              exact hnot (hb ▸ hab ▸ ha)⟩
          obtain ⟨added, rfl, hnd, hlen, hids⟩ := ih hacc' h
          refine ⟨resource :: added, by simp, hnd, by simp [hlen], ?_⟩
          intro i hi
          cases i with
          | zero => exact ⟨hlt, findResource_unitResource hresource⟩
          | succ i =>
            have hi' : i < added.length := by simpa using hi
            have hstep := (hids i hi').2
            rw [show offset + 1 + i = offset + (i + 1) from by omega] at hstep
            exact ⟨hlt, hstep⟩

theorem supportsOperation_of_footprint {node : TargetNode} {tile : TileCoord} {issueSlot : ℕ}
    {footprint : List ResourceId}
    (h : model.operationFootprint node tile issueSlot = .ok footprint) :
    model.supportsOperation tile node = true := by
  rw [operationFootprint] at h
  split at h
  · cases h
  · split at h
    · cases h
    · rename_i hsupports
      simpa using hsupports

theorem inRange_of_supportsOperation {node : TargetNode} {tile : TileCoord}
    (h : model.supportsOperation tile node = true) :
    tile.row < model.target.array.rows ∧ tile.col < model.target.array.cols := by
  rw [supportsOperation] at h
  split at h
  · cases h
  · rename_i hin
    simpa using hin

/-- **The footprint of an operation.** It is the units at `issueOccupancy` consecutive slots,
folded into the interval, and no two of them coincide. -/
theorem operationFootprint_spec {node : TargetNode} {tile : TileCoord} {issueSlot : ℕ}
    {operation : TargetOperationDesc} {footprint : List ResourceId}
    (hop : model.target.findOperation node.operation = some operation)
    (h : model.operationFootprint node tile issueSlot = .ok footprint) :
    issueSlot < model.ii ∧ 0 < operation.issueOccupancy ∧ footprint.Nodup ∧
      footprint.length = operation.issueOccupancy ∧
      ∀ i, ∀ hi : i < footprint.length, model.findResource
        (unitResource operation.executionClass tile ((issueSlot + i) % model.ii))
          = some (footprint.get ⟨i, hi⟩) := by
  unfold operationFootprint at h
  rw [hop] at h
  simp only at h
  split at h
  · cases h
  · split at h
    · cases h
    · rename_i hpos
      obtain ⟨added, rfl, hnd, hlen, hids⟩ := footprintFrom_spec List.nodup_nil h
      have hocc : 0 < operation.issueOccupancy := Nat.pos_of_ne_zero hpos
      refine ⟨(hids 0 (by omega)).1, hocc, hnd, hlen, fun i hi ↦ ?_⟩
      simpa using (hids i hi).2

end ModuloResourceModel

/-! ## The reservation table -/

inductive ReservationOwnerKind
  | node
  | edge
  deriving DecidableEq, Repr

structure ReservationOwner where
  kind : ReservationOwnerKind
  id : ℕ
  deriving DecidableEq, Repr

/-- The owner of each resource id, if it has one. -/
structure ResourceReservationTable where
  owners : List (Option ReservationOwner)
  deriving DecidableEq, Repr

namespace ResourceReservationTable

def empty (model : ModuloResourceModel) : ResourceReservationTable :=
  ⟨List.replicate model.resourceCount none⟩

variable (table : ResourceReservationTable)

/-- The recorded owner of an id. The source throws on an id it does not know. -/
def owner (resource : ResourceId) : Except String (Option ReservationOwner) :=
  match table.owners[resource]? with
  | none => .error "unknown reservation resource id"
  | some owner => .ok owner

def isFree (resource : ResourceId) : Except String Bool :=
  (table.owner resource).map Option.isNone

/-- Known, free and not listed twice. -/
def canReserve : List ResourceId → List ResourceId → Bool
  | _, [] => true
  | unique, resource :: resources =>
    if table.owners[resource]? = some none ∧ resource ∉ unique then
      canReserve (resource :: unique) resources
    else false

def reserve (resources : List ResourceId) (reservationOwner : ReservationOwner) :
    Option ResourceReservationTable :=
  if table.canReserve [] resources then
    some ⟨resources.foldl (fun owners resource ↦ owners.set resource (some reservationOwner))
      table.owners⟩
  else none

/-- A later table keeps the owners an earlier one recorded. -/
def Extends (table later : ResourceReservationTable) : Prop :=
  ∀ (resource : ResourceId) (owner : ReservationOwner),
    table.owners[resource]? = some (some owner) → later.owners[resource]? = some (some owner)

/-- Every listed id is recorded for the owner. -/
def Owns (owner : ReservationOwner) (resources : List ResourceId)
    (table : ResourceReservationTable) : Prop :=
  ∀ resource ∈ resources, table.owners[resource]? = some (some owner)

variable {table}

theorem Extends.refl (table : ResourceReservationTable) : table.Extends table :=
  fun _ _ h ↦ h

theorem Extends.trans {a b c : ResourceReservationTable} (hab : a.Extends b) (hbc : b.Extends c) :
    a.Extends c :=
  fun resource owner h ↦ hbc resource owner (hab resource owner h)

theorem Owns.mono {owner : ReservationOwner} {resources : List ResourceId}
    {later : ResourceReservationTable} (h : Owns owner resources table)
    (hext : table.Extends later) : Owns owner resources later :=
  fun resource hmem ↦ hext resource owner (h resource hmem)

/-- An id has one owner. -/
theorem Owns.owner_eq {a b : ReservationOwner} {l m : List ResourceId} {resource : ResourceId}
    (hl : Owns a l table) (hm : Owns b m table) (hrl : resource ∈ l) (hrm : resource ∈ m) :
    a = b := by
  have h := (hl resource hrl).symm.trans (hm resource hrm)
  simpa using h

@[simp] theorem length_empty (model : ModuloResourceModel) :
    (empty model).owners.length = model.resourceCount :=
  List.length_replicate

theorem canReserve_spec {unique resources : List ResourceId}
    (h : table.canReserve unique resources = true) :
    ∀ resource ∈ resources, table.owners[resource]? = some none := by
  induction resources generalizing unique with
  | nil => simp
  | cons resource resources ih =>
    unfold canReserve at h
    split at h
    · rename_i hfree
      intro r hr
      rcases List.mem_cons.mp hr with rfl | hr
      · exact hfree.1
      · exact ih h r hr
    · cases h

/-- A refusal has a reason: an id listed twice, an unknown id or an id that has an owner. -/
theorem canReserve_eq_false {unique resources : List ResourceId}
    (h : table.canReserve unique resources = false) (hnd : resources.Nodup)
    (hdisj : ∀ resource ∈ resources, resource ∉ unique)
    (hknown : ∀ resource ∈ resources, resource < table.owners.length) :
    ∃ resource ∈ resources, ∃ owner, table.owners[resource]? = some (some owner) := by
  induction resources generalizing unique with
  | nil => simp [canReserve] at h
  | cons resource resources ih =>
    rw [List.nodup_cons] at hnd
    unfold canReserve at h
    by_cases hfree : table.owners[resource]? = some none
    · rw [if_pos ⟨hfree, hdisj resource List.mem_cons_self⟩] at h
      obtain ⟨r, hr, howner⟩ := ih h hnd.2
        (fun r hr hmem ↦ by
          rcases List.mem_cons.mp hmem with rfl | hmem
          · exact hnd.1 hr
          · exact hdisj r (List.mem_cons_of_mem _ hr) hmem)
        (fun r hr ↦ hknown r (List.mem_cons_of_mem _ hr))
      exact ⟨r, List.mem_cons_of_mem _ hr, howner⟩
    · have hlt := hknown resource List.mem_cons_self
      refine ⟨resource, List.mem_cons_self, ?_⟩
      rw [List.getElem?_eq_getElem hlt] at hfree ⊢
      cases howner : table.owners[resource] with
      | none => exact absurd (congrArg some howner) hfree
      | some owner => exact ⟨owner, rfl⟩

theorem length_foldl_set (value : Option ReservationOwner) (resources : List ResourceId)
    (owners : List (Option ReservationOwner)) :
    (resources.foldl (fun owners resource ↦ owners.set resource value) owners).length
      = owners.length := by
  induction resources generalizing owners with
  | nil => rfl
  | cons resource resources ih => rw [List.foldl_cons, ih, List.length_set]

theorem foldl_set_getElem? (value : Option ReservationOwner) (resources : List ResourceId)
    (owners : List (Option ReservationOwner)) (r : ResourceId) :
    (resources.foldl (fun owners resource ↦ owners.set resource value) owners)[r]?
      = if r ∈ resources ∧ r < owners.length then some value else owners[r]? := by
  induction resources generalizing owners with
  | nil => simp
  | cons resource resources ih =>
    rw [List.foldl_cons, ih, List.length_set, List.getElem?_set]
    by_cases hmem : r ∈ resources <;> by_cases heq : resource = r <;>
      by_cases hlt : r < owners.length <;> simp_all [eq_comm]

/-- Reserving records the owner for exactly the listed ids, all of which were free. -/
theorem reserve_spec {resources : List ResourceId} {owner : ReservationOwner}
    {later : ResourceReservationTable} (h : table.reserve resources owner = some later) :
    later.owners.length = table.owners.length ∧ table.Extends later ∧
      Owns owner resources later := by
  unfold reserve at h
  split at h
  · rename_i hcan
    have hfree := canReserve_spec hcan
    obtain rfl := Option.some.inj h
    refine ⟨length_foldl_set (some owner) resources table.owners, ?_, ?_⟩
    · intro r o hr
      rw [foldl_set_getElem?, if_neg]
      · exact hr
      · rintro ⟨hmem, -⟩
        rw [hfree r hmem] at hr
        cases hr
    · intro r hr
      have hlt : r < table.owners.length := (List.getElem?_eq_some_iff.mp (hfree r hr)).1
      rw [foldl_set_getElem?, if_pos ⟨hr, hlt⟩]
  · cases h

end ResourceReservationTable

end PredicatedMesh
