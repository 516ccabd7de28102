import Mathlib.Logic.Relation
import PredicatedMesh.Library.Scan
import PredicatedMesh.Mapping.Resource

/-!
# Reservations as transactions

The search engines reserve resources in stages and take the stages back when one of them fails. Two
things make that safe. A reservation is all or nothing, whatever list of ids it is asked for, and
so is a release: both look at every id before they write the first owner. And a release of what a
reservation recorded restores the table it was made in, entry for entry, because everything that was
reserved had been free.

A search that nests reservations keeps a stack of deltas. `Unwinds` says that undoing the stack
leads back to a given table; every reservation and every undo of the top keeps it, so a run that
ends with the stack it began with ends with the table it began with.
-/

namespace PredicatedMesh

/-- What a reservation recorded, for undoing it. -/
structure ReservationDelta where
  owner : ReservationOwner
  resources : List ResourceId
  deriving DecidableEq, Repr

namespace ResourceReservationTable

variable (table : ResourceReservationTable)

/-- The answer, and the table afterwards. -/
def tryReserve (resources : List ResourceId) (reservationOwner : ReservationOwner) :
    Option ReservationDelta × ResourceReservationTable :=
  match table.reserve resources reservationOwner with
  | none => (none, table)
  | some later => (some ⟨reservationOwner, resources⟩, later)

/-- The first of the two loops of `release`: it throws before anything is written. -/
def checkRelease (resources : List ResourceId) (reservationOwner : ReservationOwner) :
    Except String Unit :=
  resources.forM fun resource ↦
    if table.owners[resource]? = some (some reservationOwner) then .ok ()
    else .error "reservation release owner mismatch"

/-- The outcome, and the table afterwards. -/
def release (resources : List ResourceId) (reservationOwner : ReservationOwner) :
    Except String Unit × ResourceReservationTable :=
  match table.checkRelease resources reservationOwner with
  | .error what => (.error what, table)
  | .ok () => (.ok (), ⟨resources.foldl (fun owners resource ↦ owners.set resource none)
      table.owners⟩)

def undo (delta : ReservationDelta) : Except String Unit × ResourceReservationTable :=
  table.release delta.resources delta.owner

variable {table}

/-! ## Reading the table -/

theorem isFree_eq_ok_true {resource : ResourceId} :
    table.isFree resource = .ok true ↔ table.owners[resource]? = some none := by
  rw [isFree, owner]
  rcases table.owners[resource]? with _ | _ | _ <;> simp [Except.map]

/-- Two tables in which every id has the same owner are equal. -/
theorem ext_getElem? {a b : ResourceReservationTable}
    (h : ∀ resource : ResourceId, a.owners[resource]? = b.owners[resource]?) : a = b := by
  rcases a with ⟨a⟩
  rcases b with ⟨b⟩
  exact congrArg mk (List.ext_getElem? h)

/-! ## Reserving -/

theorem canReserve_iff {unique resources : List ResourceId} :
    table.canReserve unique resources = true ↔ resources.Nodup ∧
      ∀ resource ∈ resources, table.owners[resource]? = some none ∧ resource ∉ unique := by
  induction resources generalizing unique with
  | nil => simp [canReserve]
  | cons resource resources ih =>
    rw [canReserve, List.nodup_cons, List.forall_mem_cons]
    constructor
    · intro h
      split at h
      · rename_i hfree
        obtain ⟨hnd, hall⟩ := ih.mp h
        refine ⟨⟨fun hmem ↦ ?_, hnd⟩, hfree, fun r hr ↦ ⟨(hall r hr).1, fun hu ↦ ?_⟩⟩
        · exact (hall resource hmem).2 List.mem_cons_self
        · exact (hall r hr).2 (List.mem_cons_of_mem _ hu)
      · cases h
    · rintro ⟨⟨hnot, hnd⟩, hfree, hall⟩
      rw [if_pos hfree, ih]
      refine ⟨hnd, fun r hr ↦ ⟨(hall r hr).1, fun hu ↦ ?_⟩⟩
      rcases List.mem_cons.mp hu with rfl | hu
      · exact hnot hr
      · exact (hall r hr).2 hu

/-- A reservation succeeds when its ids are known, free and distinct, and records its owner for
exactly these. -/
theorem reserve_eq_some_iff {resources : List ResourceId} {reservationOwner : ReservationOwner}
    {later : ResourceReservationTable} : table.reserve resources reservationOwner = some later ↔
      (resources.Nodup ∧ ∀ resource ∈ resources, table.owners[resource]? = some none) ∧
        ∀ resource : ResourceId, later.owners[resource]?
          = if resource ∈ resources then some (some reservationOwner)
            else table.owners[resource]? := by
  have hcan : table.canReserve [] resources = true ↔ resources.Nodup ∧
      ∀ resource ∈ resources, table.owners[resource]? = some none := by
    rw [canReserve_iff]
    simp
  have hread : (∀ resource ∈ resources, table.owners[resource]? = some none) →
      ∀ resource : ResourceId,
        (resources.foldl (fun owners r ↦ owners.set r (some reservationOwner))
          table.owners)[resource]?
          = if resource ∈ resources then some (some reservationOwner)
            else table.owners[resource]? := by
    intro hfree resource
    rw [foldl_set_getElem?]
    by_cases hmem : resource ∈ resources
    · have hlt := (List.getElem?_eq_some_iff.mp (hfree resource hmem)).1
      rw [if_pos ⟨hmem, hlt⟩, if_pos hmem]
    · rw [if_neg (fun h ↦ hmem h.1), if_neg hmem]
  rw [reserve, ← hcan]
  by_cases hres : table.canReserve [] resources = true
  · rw [if_pos hres, Option.some.injEq]
    constructor
    · rintro rfl
      exact ⟨hres, hread (hcan.mp hres).2⟩
    · rintro ⟨-, hlater⟩
      apply ext_getElem?
      intro resource
      rw [hlater, hread (hcan.mp hres).2]
  · rw [if_neg hres]
    constructor
    · intro h
      cases h
    · rintro ⟨h, -⟩
      exact absurd h hres

/-- Whether a reservation succeeds. -/
theorem exists_reserve_iff {resources : List ResourceId} {reservationOwner : ReservationOwner} :
    (∃ later, table.reserve resources reservationOwner = some later) ↔
      resources.Nodup ∧ ∀ resource ∈ resources, table.owners[resource]? = some none := by
  constructor
  · rintro ⟨later, h⟩
    exact (reserve_eq_some_iff.mp h).1
  · intro h
    have hcan : table.canReserve [] resources = true :=
      canReserve_iff.mpr ⟨h.1, fun resource hmem ↦ ⟨h.2 resource hmem, List.not_mem_nil⟩⟩
    exact ⟨_, if_pos hcan⟩

theorem tryReserve_eq_some_iff {resources : List ResourceId}
    {reservationOwner : ReservationOwner} {delta : ReservationDelta}
    {later : ResourceReservationTable} :
    table.tryReserve resources reservationOwner = (some delta, later) ↔
      delta = ⟨reservationOwner, resources⟩ ∧
        table.reserve resources reservationOwner = some later := by
  rw [tryReserve]
  rcases table.reserve resources reservationOwner with _ | reserved
  · simp
  · simp only [Prod.mk.injEq, Option.some.injEq]
    constructor
    · rintro ⟨rfl, rfl⟩
      exact ⟨rfl, rfl⟩
    · rintro ⟨rfl, rfl⟩
      exact ⟨rfl, rfl⟩

/-! ## Releasing -/

theorem checkRelease_eq_ok_iff {resources : List ResourceId}
    {reservationOwner : ReservationOwner} :
    table.checkRelease resources reservationOwner = .ok () ↔
      ∀ resource ∈ resources, table.owners[resource]? = some (some reservationOwner) := by
  constructor
  · intro h resource hmem
    have hone := Scan.exists_ok_of_forM h resource hmem
    by_contra hne
    rw [if_neg hne] at hone
    cases hone
  · intro h
    rw [checkRelease]
    induction resources with
    | nil => rfl
    | cons resource resources ih =>
      rw [List.forall_mem_cons] at h
      exact Scan.bind_eq_ok.mpr ⟨(), if_pos h.1, ih h.2⟩

/-- A release frees its ids when all of them belong to its owner. -/
theorem release_of_owned {resources : List ResourceId} {reservationOwner : ReservationOwner}
    (h : ∀ resource ∈ resources, table.owners[resource]? = some (some reservationOwner)) :
    (table.release resources reservationOwner).1 = .ok () ∧
      ∀ resource : ResourceId, (table.release resources reservationOwner).2.owners[resource]?
        = if resource ∈ resources then some none else table.owners[resource]? := by
  rw [release, checkRelease_eq_ok_iff.mpr h]
  refine ⟨rfl, fun resource ↦ ?_⟩
  rw [foldl_set_getElem?]
  by_cases hmem : resource ∈ resources
  · have hlt := (List.getElem?_eq_some_iff.mp (h resource hmem)).1
    rw [if_pos ⟨hmem, hlt⟩, if_pos hmem]
  · rw [if_neg (fun h ↦ hmem h.1), if_neg hmem]

/-- A release throws, and leaves the table alone, when one of its ids belongs to someone else. -/
theorem release_of_foreign {resources : List ResourceId} {reservationOwner : ReservationOwner}
    (h : ¬ ∀ resource ∈ resources, table.owners[resource]? = some (some reservationOwner)) :
    ∃ what, table.release resources reservationOwner = (.error what, table) := by
  rw [release]
  rcases hcheck : table.checkRelease resources reservationOwner with what | _
  · exact ⟨what, rfl⟩
  · exact absurd (checkRelease_eq_ok_iff.mp hcheck) h

/-- **Undoing a reservation restores the table.** -/
theorem undo_tryReserve {resources : List ResourceId} {reservationOwner : ReservationOwner}
    {delta : ReservationDelta} {later : ResourceReservationTable}
    (h : table.tryReserve resources reservationOwner = (some delta, later)) :
    later.undo delta = (.ok (), table) := by
  obtain ⟨rfl, hreserve⟩ := tryReserve_eq_some_iff.mp h
  obtain ⟨⟨-, hfree⟩, hlater⟩ := reserve_eq_some_iff.mp hreserve
  have howned : ∀ resource ∈ resources, later.owners[resource]? = some (some reservationOwner) := by
    intro resource hmem
    rw [hlater, if_pos hmem]
  obtain ⟨hok, hread⟩ := release_of_owned howned
  refine Prod.ext hok (ext_getElem? fun resource ↦ ?_)
  rw [undo, hread]
  by_cases hmem : resource ∈ resources
  · rw [if_pos hmem, hfree resource hmem]
  · rw [if_neg hmem, hlater, if_neg hmem]

/-! ## Nesting -/

/-- One step of a search that nests reservations: a successful reservation, or an undo of the latest
delta that is left, whatever comes of it. -/
inductive Transaction :
    ResourceReservationTable × List ReservationDelta →
      ResourceReservationTable × List ReservationDelta → Prop
  | reserve {table later : ResourceReservationTable} {deltas : List ReservationDelta}
      {resources : List ResourceId} {reservationOwner : ReservationOwner}
      {delta : ReservationDelta} :
      table.tryReserve resources reservationOwner = (some delta, later) →
        Transaction (table, deltas) (later, delta :: deltas)
  | undo {table : ResourceReservationTable} {delta : ReservationDelta}
      {deltas : List ReservationDelta} :
      Transaction (table, delta :: deltas) ((table.undo delta).2, deltas)

/-- Undoing the deltas one after the other succeeds and leads back to `origin`. -/
def Unwinds (origin : ResourceReservationTable) :
    ResourceReservationTable → List ReservationDelta → Prop
  | table, [] => table = origin
  | table, delta :: deltas =>
    (table.undo delta).1 = .ok () ∧ Unwinds origin (table.undo delta).2 deltas

theorem Unwinds.step {origin : ResourceReservationTable}
    {a b : ResourceReservationTable × List ReservationDelta} (h : Unwinds origin a.1 a.2)
    (hstep : Transaction a b) : Unwinds origin b.1 b.2 := by
  rcases hstep with hreserve | _
  · have hundo := undo_tryReserve hreserve
    rw [Unwinds, hundo]
    exact ⟨rfl, h⟩
  · exact h.2

/-- From a table with nothing to undo, whatever was reserved and undone since unwinds to it. -/
theorem Unwinds.run {origin : ResourceReservationTable}
    {b : ResourceReservationTable × List ReservationDelta}
    (h : Relation.ReflTransGen Transaction (origin, []) b) : Unwinds origin b.1 b.2 := by
  induction h with
  | refl => exact rfl
  | tail _ hstep ih => exact ih.step hstep

/-- **Reservations are transactions.** Reserving is all or nothing, releasing is all or nothing, and
a nested run of reservations and undos that has undone everything is back at its first table. -/
theorem transactions_atomic (table : ResourceReservationTable) :
    (∀ resources reservationOwner,
      ((∃ later, table.reserve resources reservationOwner = some later) ↔
        resources.Nodup ∧ ∀ resource ∈ resources, table.isFree resource = .ok true) ∧
      (∀ later, table.reserve resources reservationOwner = some later → ∀ resource,
        later.owner resource = if resource ∈ resources then .ok (some reservationOwner)
          else table.owner resource)) ∧
    (∀ resources reservationOwner,
      ((table.tryReserve resources reservationOwner).1 = none ∧
          (table.tryReserve resources reservationOwner).2 = table ∧
          table.reserve resources reservationOwner = none) ∨
        ((table.tryReserve resources reservationOwner).1 = some ⟨reservationOwner, resources⟩ ∧
          table.reserve resources reservationOwner
            = some (table.tryReserve resources reservationOwner).2)) ∧
    (∀ resources reservationOwner,
      ((table.release resources reservationOwner).1 = .ok () ∧ ∀ resource,
          (table.release resources reservationOwner).2.owner resource
            = if resource ∈ resources then .ok none else table.owner resource) ∨
        ∃ what, table.release resources reservationOwner = (.error what, table)) ∧
    (∀ delta, ((table.undo delta).1 = .ok () ∧ ∀ resource,
          (table.undo delta).2.owner resource
            = if resource ∈ delta.resources then .ok none else table.owner resource) ∨
        ∃ what, table.undo delta = (.error what, table)) ∧
    ∀ later deltas, Relation.ReflTransGen Transaction (table, []) (later, deltas) →
      (deltas = [] → later = table) ∧
        ∀ delta ∈ deltas.head?, (later.undo delta).1 = .ok () := by
  have hrelease : ∀ resources reservationOwner,
      ((table.release resources reservationOwner).1 = .ok () ∧ ∀ resource,
          (table.release resources reservationOwner).2.owner resource
            = if resource ∈ resources then .ok none else table.owner resource) ∨
        ∃ what, table.release resources reservationOwner = (.error what, table) := by
    intro resources reservationOwner
    by_cases howned : ∀ resource ∈ resources,
        table.owners[resource]? = some (some reservationOwner)
    · obtain ⟨hok, hread⟩ := release_of_owned howned
      refine .inl ⟨hok, fun resource ↦ ?_⟩
      rw [owner, hread]
      by_cases hmem : resource ∈ resources
      · rw [if_pos hmem, if_pos hmem]
      · rw [if_neg hmem, if_neg hmem, owner]
    · exact .inr (release_of_foreign howned)
  refine ⟨?_, ?_, hrelease, fun delta ↦ hrelease delta.resources delta.owner, ?_⟩
  · intro resources reservationOwner
    refine ⟨?_, ?_⟩
    · rw [exists_reserve_iff]
      simp only [isFree_eq_ok_true]
    · intro later h resource
      rw [owner, (reserve_eq_some_iff.mp h).2]
      by_cases hmem : resource ∈ resources
      · rw [if_pos hmem, if_pos hmem]
      · rw [if_neg hmem, if_neg hmem, owner]
  · intro resources reservationOwner
    rw [tryReserve]
    rcases table.reserve resources reservationOwner with _ | later
    · exact .inl ⟨rfl, rfl, rfl⟩
    · exact .inr ⟨rfl, rfl⟩
  · intro later deltas hrun
    have hunwinds := Unwinds.run hrun
    refine ⟨?_, ?_⟩
    · rintro rfl
      exact hunwinds
    · intro delta hdelta
      rcases deltas with _ | ⟨head, rest⟩
      · cases hdelta
      · obtain rfl := Option.some.inj hdelta
        exact hunwinds.1

/-- A reservation of two of three resources can be undone. -/
theorem reservation_undone :
    ((⟨[some ⟨.edge, 4⟩, none, some ⟨.edge, 4⟩]⟩ : ResourceReservationTable).undo
      ⟨⟨.edge, 4⟩, [2, 0]⟩).1 = .ok () := by
  have hstep : Transaction (⟨[none, none, none]⟩, [])
      (⟨[some ⟨.edge, 4⟩, none, some ⟨.edge, 4⟩]⟩, [⟨⟨.edge, 4⟩, [2, 0]⟩]) :=
    .reserve (show tryReserve ⟨[none, none, none]⟩ [2, 0] ⟨.edge, 4⟩ = _ by decide)
  exact ((transactions_atomic ⟨[none, none, none]⟩).2.2.2.2 _ _ (.single hstep)).2 _ rfl

end ResourceReservationTable

end PredicatedMesh
