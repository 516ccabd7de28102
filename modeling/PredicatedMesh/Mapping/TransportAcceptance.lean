import PredicatedMesh.Mapping.RouteSoundness
import PredicatedMesh.Mapping.VerifierSpec

/-!
# A route is accepted

The verifier walks along a transport plan with its own account of where the value is and since when.
A plan that travels from the producer to the consumer over free links takes it through: each launch
and each hold stands where and when the walk expects it. Conversely a walk that reports nothing has
travelled (`travels_of_walk`).
-/

namespace PredicatedMesh

namespace ModuloMappingVerifier

open Scan

/-! ## Walking a route that was found -/

section Walk

variable {tctx : TransportContext}

/-- A launch from where the value is, at the time it is there, over a free link. -/
theorem checkAction_link {available : Availability} {next : TileCoord} {direction : Direction}
    {resource : ResourceId} {index : ℕ}
    (hslot : tctx.srcPlacement.issueSlot < tctx.resources.ii)
    (hready : tctx.producerReady ≤ available.elapsed)
    (hneighbor : tctx.resources.target.neighbor available.tile direction = some next)
    (hresource : tctx.resources.linkAt tctx.domain available.tile direction
      ((tctx.srcPlacement.issueSlot + available.elapsed) % tctx.resources.ii) = some resource)
    (hfresh : resource ∉ available.routeResources)
    (hfree : tctx.reservations.owners[resource]? = some none) :
    checkAction tctx available
        (.linkStep ⟨tctx.domain, available.tile, direction, available.elapsed⟩, index)
      = .ok (⟨next, available.elapsed + tctx.hopLatency, available.routeResources ++ [resource]⟩,
          []) := by
  have hadvance : ModuloTimeDomain.advance tctx.resources.ii tctx.srcPlacement.issueSlot
      available.elapsed
        = .ok ((tctx.srcPlacement.issueSlot + available.elapsed) % tctx.resources.ii) :=
    ModuloTimeDomain.advance_eq_ok_iff.mpr ⟨hslot, rfl⟩
  have howner : tctx.reservations.owner resource = .ok none := by
    rw [ResourceReservationTable.owner, hfree]
  have hlaunch : launchLink tctx available
      ⟨tctx.domain, available.tile, direction, available.elapsed⟩ index
      ((tctx.srcPlacement.issueSlot + available.elapsed) % tctx.resources.ii) (some resource)
        = .ok (⟨next, available.elapsed + tctx.hopLatency,
            available.routeResources ++ [resource]⟩, []) := by
    simp only [launchLink, hneighbor]
    rw [if_neg (by simpa using hfresh), howner]
  simp only [checkAction, TransportAction.domain, checkLink, ne_eq, not_true_eq_false, if_false,
    lt_irrefl, not_lt.mpr hready, and_false, hadvance,
    ModuloResourceModel.linkResource_of_advance hadvance, hresource, hlaunch]

/-- A hold where the value is, from the time it is there. -/
theorem checkAction_hold {available : Availability} {release index : ℕ}
    (hlt : available.elapsed < release) :
    checkAction tctx available
        (.virtualHold ⟨tctx.domain, available.tile, available.elapsed, release⟩, index)
      = .ok ({ available with elapsed := release }, []) := by
  simp only [checkAction, TransportAction.domain, checkHold, ne_eq, not_true_eq_false, if_false,
    lt_irrefl, not_le.mpr hlt]

/-- **The walk along a plan that travels over free links.** -/
theorem walk_of_travels {actions : List TransportAction} {links : List ResourceId}
    {tile : TileCoord} {elapsed : ℕ} (hslot : tctx.srcPlacement.issueSlot < tctx.resources.ii)
    (hhop : tctx.hopLatency = (tctx.resources.target.network tctx.domain).hopLatency)
    (hfree : ∀ link ∈ links, tctx.reservations.owners[link]? = some none) (hnodup : links.Nodup)
    (h : Travels tctx.resources tctx.domain tctx.srcPlacement tctx.producerReady actions links tile
      elapsed) :
    loop (checkAction tctx) ⟨tctx.srcPlacement.tile, tctx.producerReady, []⟩ actions.zipIdx
      = .ok (⟨tile, elapsed, links⟩, []) := by
  induction h with
  | start => rfl
  | @link actions links tile' next elapsed' direction resource hbefore hneighbor hresource ih =>
    rw [List.nodup_append_comm, List.singleton_append, List.nodup_cons] at hnodup
    rw [List.forall_mem_append, List.forall_mem_singleton] at hfree
    have hstep := @checkAction_link tctx ⟨tile', elapsed', links⟩ next direction resource
      (0 + actions.length) hslot hbefore.ready_le hneighbor hresource hnodup.1 hfree.2
    rw [hhop] at hstep
    rw [List.zipIdx_append]
    exact loop_append_clean (ih hfree.1 hnodup.2) (loop_cons_clean_iff.mpr ⟨_, hstep, rfl⟩)
  | @hold actions links tile' elapsed' release _ hlt ih =>
    have hstep := @checkAction_hold tctx ⟨tile', elapsed', links⟩ release (0 + actions.length) hlt
    rw [List.zipIdx_append]
    exact loop_append_clean (ih hfree hnodup) (loop_cons_clean_iff.mpr ⟨_, hstep, rfl⟩)

/-- The link a clean step launches over is one the resource model knows. -/
theorem linkAt_of_findResource {model : ModuloResourceModel} {domain : NetworkDomain}
    {tile next : TileCoord} {direction : Direction} {slot resource : ℕ}
    (hneighbor : model.target.neighbor tile direction = some next)
    (hfound : model.findResource (.link domain tile direction slot) = some resource) :
    model.linkAt domain tile direction slot = some resource := by
  rw [ModuloResourceModel.linkAt, if_pos (by rw [hneighbor]; rfl), hfound]

/-- **A clean walk travels.** Its plan goes from the producer to where the walk ends, over the links
the walk has collected. -/
theorem travels_of_walk {before actions : List TransportAction} {available later : Availability}
    {index : ℕ} (hhop : tctx.hopLatency = (tctx.resources.target.network tctx.domain).hopLatency)
    (hbefore : Travels tctx.resources tctx.domain tctx.srcPlacement tctx.producerReady before
      available.routeResources available.tile available.elapsed)
    (hnodup : available.routeResources.Nodup)
    (h : loop (checkAction tctx) available (actions.zipIdx index) = .ok (later, [])) :
    Travels tctx.resources tctx.domain tctx.srcPlacement tctx.producerReady (before ++ actions)
      later.routeResources later.tile later.elapsed ∧ later.routeResources.Nodup := by
  induction actions generalizing before available index with
  | nil =>
    obtain ⟨rfl, -⟩ := Prod.mk.inj (Except.ok.inj h)
    rw [List.append_nil]
    exact ⟨hbefore, hnodup⟩
  | cons action actions ih =>
    rw [List.zipIdx_cons] at h
    obtain ⟨middle, hstep, hrest⟩ := loop_cons_clean_iff.mp h
    obtain ⟨hdomain, hcases⟩ := checkAction_clean hstep
    rw [← List.singleton_append, ← List.append_assoc]
    rcases hcases with ⟨link, hlink, hclean⟩ | ⟨hold, hhold, hclean⟩
    · obtain ⟨next, resource, hsource, helapsed, hneighbor, hresource, hnew, rfl⟩ :=
        checkLink_clean hclean
      simp only at hlink hdomain
      subst hlink
      rcases link with ⟨domain, source, direction, elapsed⟩
      obtain rfl : domain = tctx.domain := hdomain
      obtain rfl : source = available.tile := hsource
      obtain rfl : elapsed = available.elapsed := helapsed
      have hlaunch := hbefore.link hneighbor (linkAt_of_findResource hneighbor hresource)
      rw [← hhop] at hlaunch
      refine ih hlaunch ?_ hrest
      rw [List.nodup_append_comm, List.singleton_append, List.nodup_cons]
      exact ⟨hnew, hnodup⟩
    · obtain ⟨htile, hcapture, hrelease, rfl⟩ := checkHold_clean hclean
      simp only at hhold hdomain
      subst hhold
      rcases hold with ⟨domain, tile, capture, release⟩
      obtain rfl : domain = tctx.domain := hdomain
      obtain rfl : tile = available.tile := htile
      obtain rfl : capture = available.elapsed := hcapture
      exact @ih _ { available with elapsed := release } _ (hbefore.hold hrelease) hnodup hrest

end Walk

section Finish

variable {dfg : TargetDFG} {target : TargetModel} {mapping : ModuloMapping} {edge : TargetEdge}
  {dependence : MappedDependence} {plan : TransportPlan} {producer consumer : NodePlacement}
  {links : List ResourceId} {table later : ResourceReservationTable}

/-- The end of a walk that has arrived. -/
theorem finishTransport_eq (hwaits : producer.tile = consumer.tile → plan.actions ≠ [])
    (hcycles : dependence.requiredSeparationCycles = plan.requiredSeparationCycles)
    (hlater : table.reserve links ⟨.edge, edge.id⟩ = some later) :
    finishTransport edge dependence plan producer consumer table
      ⟨consumer.tile, plan.requiredSeparationCycles, links⟩ = (later, []) := by
  have hmoves : ¬ (plan.actions.isEmpty && producer.tile == consumer.tile) = true := by
    rw [Bool.and_eq_true, List.isEmpty_iff, beq_iff_eq]
    rintro ⟨hempty, hlocal⟩
    exact hwaits hlocal hempty
  rw [finishTransport, if_neg hmoves]
  simp only [ne_eq, not_true_eq_false, if_false, hcycles, or_self]
  by_cases hempty : links = []
  · -- a route without links reserves nothing, and the verifier does not ask for it
    subst hempty
    obtain rfl : table = later := Option.some.inj hlater
    rfl
  · rw [if_neg (fun h ↦ hempty (List.isEmpty_iff.mp h)), hlater]

/-- **A plan that travels is accepted.** -/
theorem verifyValueTransport_of_travels {node : TargetNode} {ready : ℕ}
    (hplan : dependence.transport = some plan)
    (hcycles : dependence.requiredSeparationCycles = plan.requiredSeparationCycles)
    (hedge : plan.edge = edge.id) (hdomain : plan.domain = ModuloRouteSearch.requestedDomain edge)
    (hnode : dfg.findNode edge.src = some node)
    (hready : node.producerOutputReadyOffset = some ready)
    (hhop : (target.network plan.domain).hopLatency ≠ 0) (hslot : producer.issueSlot < mapping.ii)
    (hwaits : producer.tile = consumer.tile → plan.actions ≠ [])
    (htravels : Travels (resourceModel target mapping) plan.domain producer ready plan.actions links
      consumer.tile plan.requiredSeparationCycles)
    (hnodup : links.Nodup) (hfree : ∀ link ∈ links, table.owners[link]? = some none)
    (hlater : table.reserve links ⟨.edge, edge.id⟩ = some later) :
    verifyValueTransport dfg target mapping edge dependence producer consumer table
      = .ok (later, []) := by
  have hwalk := @walk_of_travels
    { resources := resourceModel target mapping, reservations := table, edge := edge
      domain := plan.domain, srcPlacement := producer, producerReady := ready
      hopLatency := (target.network plan.domain).hopLatency }
    plan.actions links consumer.tile plan.requiredSeparationCycles hslot rfl hfree hnodup htravels
  have hexpected : plan.domain = expectedDomain edge.kind := by
    rw [hdomain, ModuloRouteSearch.requestedDomain]
    rcases edge.kind with _ | _ | _
    · rfl
    · rfl
    · rfl
  rw [verifyValueTransport, hplan]
  simp only [hedge, ← hexpected, hnode, hready, hhop, ne_eq, not_true_eq_false, if_false]
  rw [hwalk]
  exact congrArg Except.ok (finishTransport_eq hwaits hcycles hlater)

end Finish

end ModuloMappingVerifier

end PredicatedMesh
