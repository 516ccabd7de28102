import PredicatedMesh.Target.DFG

/-!
# Modulo mappings

A `ModuloMapping` places every node of the loop body on a tile at a slot of the initiation interval
and gives every dependence a realization: a minimum separation and, for a dependence that carries a
value, the transport plan that moves it. A plan is a list of link launches and holds whose times
count from the issue of the producer, so a plan may be longer than the interval.
-/

namespace PredicatedMesh

/-! ## Tiles, directions and modulo time -/

structure TileCoord where
  row : ℕ
  col : ℕ
  deriving DecidableEq, Repr

def TileCoord.toString (tile : TileCoord) : String :=
  "(" ++ ToString.toString tile.row ++ "," ++ ToString.toString tile.col ++ ")"

inductive Direction
  | north
  | south
  | east
  | west
  deriving DecidableEq, Repr

inductive NetworkDomain
  | data
  | predicate
  deriving DecidableEq, Repr

namespace Direction

def opposite : Direction → Direction
  | .north => .south
  | .south => .north
  | .east => .west
  | .west => .east

/-- The order in which the resource model enumerates the links of a tile. -/
def all : List Direction := [.north, .south, .east, .west]

end Direction

/-- The tile one hop away, if the array has one there. -/
def neighbor (tile : TileCoord) (direction : Direction) (rows cols : ℕ) : Option TileCoord :=
  if tile.row ≥ rows || tile.col ≥ cols then
    none
  else
    match direction with
    | .north => if tile.row = 0 then none else some ⟨tile.row - 1, tile.col⟩
    | .south => if tile.row + 1 ≥ rows then none else some ⟨tile.row + 1, tile.col⟩
    | .east => if tile.col + 1 ≥ cols then none else some ⟨tile.row, tile.col + 1⟩
    | .west => if tile.col = 0 then none else some ⟨tile.row, tile.col - 1⟩

def TargetModel.neighbor (target : TargetModel) (tile : TileCoord) (direction : Direction) :
    Option TileCoord :=
  PredicatedMesh.neighbor tile direction target.array.rows target.array.cols

/-- The network a value travels on. The contract describes both networks once. -/
def TargetModel.network (target : TargetModel) : NetworkDomain → InterconnectDesc
  | .predicate => target.predicateNetwork
  | .data => target.dataNetwork

@[simp] theorem TargetModel.network_eq (target : TargetModel) (domain : NetworkDomain) :
    target.network domain = target.interconnect := by
  cases domain <;> rfl

namespace ModuloTimeDomain

def normalize (ii logicalCycle : ℕ) : ℕ := logicalCycle % ii

/-- The slot reached `deltaCycles` after `slot`. The source throws on a slot outside the
interval. -/
def advance (ii slot deltaCycles : ℕ) : Except String ℕ :=
  if slot ≥ ii then .error "modulo slot is outside [0, II)"
  else .ok (normalize ii (slot + deltaCycles % ii))

theorem advance_eq_ok_iff {ii slot deltaCycles r : ℕ} :
    advance ii slot deltaCycles = .ok r ↔ slot < ii ∧ r = (slot + deltaCycles) % ii := by
  unfold advance normalize
  by_cases h : slot ≥ ii
  · simp [h]
  · rw [if_neg h, Except.ok.injEq, Nat.add_mod_mod]
    exact ⟨fun hr ↦ ⟨by omega, hr.symm⟩, fun hr ↦ hr.2.symm⟩

end ModuloTimeDomain

/-! ## The mapping -/

structure NodePlacement where
  node : TargetNodeId
  tile : TileCoord
  issueSlot : ℕ
  deriving DecidableEq, Repr

/-- The launch of a value onto a link. -/
structure LinkStep where
  domain : NetworkDomain
  source : TileCoord
  direction : Direction
  elapsedFromProducerIssue : ℕ
  deriving DecidableEq, Repr

/-- A wait on one tile, later given a register. -/
structure VirtualHold where
  domain : NetworkDomain
  tile : TileCoord
  captureElapsed : ℕ
  releaseElapsed : ℕ
  deriving DecidableEq, Repr

inductive TransportAction
  | linkStep (link : LinkStep)
  | virtualHold (hold : VirtualHold)
  deriving DecidableEq, Repr

def TransportAction.domain : TransportAction → NetworkDomain
  | .linkStep link => link.domain
  | .virtualHold hold => hold.domain

structure TransportPlan where
  edge : TargetEdgeId
  domain : NetworkDomain
  actions : List TransportAction
  requiredSeparationCycles : ℕ
  deriving DecidableEq, Repr

structure MappedDependence where
  edge : TargetEdgeId
  kind : EdgeKind
  requiredSeparationCycles : ℕ
  transport : Option TransportPlan
  deriving DecidableEq, Repr

structure ModuloMapping where
  targetName : String
  /-- The initiation interval. -/
  ii : ℕ
  placements : List NodePlacement
  dependences : List MappedDependence
  deriving DecidableEq, Repr

namespace ModuloMapping

variable (mapping : ModuloMapping)

def placement (node : TargetNodeId) : Except String NodePlacement :=
  match mapping.placements.find? fun placement ↦ placement.node == node with
  | none => .error "mapping has no placement for target node"
  | some placement => .ok placement

def dependence (edge : TargetEdgeId) : Except String MappedDependence :=
  match mapping.dependences.find? fun dependence ↦ dependence.edge == edge with
  | none => .error "mapping has no realization for target edge"
  | some dependence => .ok dependence

/-- The placements recorded for a node; the verifier asks for exactly one. -/
def placementEntries (node : TargetNodeId) : List NodePlacement :=
  mapping.placements.filter fun placement ↦ placement.node == node

def dependenceEntries (edge : TargetEdgeId) : List MappedDependence :=
  mapping.dependences.filter fun dependence ↦ dependence.edge == edge

variable {mapping}

theorem placement_of_entries {node : TargetNodeId} {placement : NodePlacement}
    (h : mapping.placementEntries node = [placement]) : mapping.placement node = .ok placement := by
  have hfind : mapping.placements.find? (fun p ↦ p.node == node) = some placement := by
    rw [← List.head?_filter]
    exact congrArg List.head? h
  rw [ModuloMapping.placement, hfind]

theorem dependence_of_entries {edge : TargetEdgeId} {dependence : MappedDependence}
    (h : mapping.dependenceEntries edge = [dependence]) :
    mapping.dependence edge = .ok dependence := by
  have hfind : mapping.dependences.find? (fun d ↦ d.edge == edge) = some dependence := by
    rw [← List.head?_filter]
    exact congrArg List.head? h
  rw [ModuloMapping.dependence, hfind]

end ModuloMapping

end PredicatedMesh
