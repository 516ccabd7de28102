import PredicatedMesh.Mapping.Verifier

/-!
# What an accepted modulo mapping satisfies

The verifier's report is empty for one reason per check. This module reads those reasons back: one
lemma for each step of the two loops, then the loop rule, then `ModuloMapping.Verified`, which is
all that the staged results use.

## Chains

`TransportChain` says what a transport plan does in absolute time. It is indexed by the cycle `base`
at which the producer issues, because the plan's own times count from there: the same plan gives one
chain for every iteration.
-/

namespace PredicatedMesh

open Scan ModuloMappingVerifier

/-! ## Transport chains -/

/-- `TransportChain target hopLatency base tile time actions tile' time'`: a value available on
`tile` from `time` on is moved by `actions`, without a gap, to `tile'`, where it is available from
`time'` on. Each launch starts where and when the value is available and ends `hopLatency` cycles
later on the neighbouring tile; each hold captures when the value is available and ends at its
release on the same tile. -/
inductive TransportChain (target : TargetModel) (hopLatency : ℕ) (base : ℤ) :
    TileCoord → ℤ → List TransportAction → TileCoord → ℤ → Prop
  | nil (tile : TileCoord) (time : ℤ) : TransportChain target hopLatency base tile time [] tile time
  | link {tile next tile' : TileCoord} {time time' : ℤ} {link : LinkStep}
      {actions : List TransportAction} (source : link.source = tile)
      (launch : base + link.elapsedFromProducerIssue = time)
      (neighbor : target.neighbor tile link.direction = some next)
      (rest : TransportChain target hopLatency base next (time + hopLatency) actions tile' time') :
      TransportChain target hopLatency base tile time (.linkStep link :: actions) tile' time'
  | hold {tile tile' : TileCoord} {time time' : ℤ} {hold : VirtualHold}
      {actions : List TransportAction} (onTile : hold.tile = tile)
      (capture : base + hold.captureElapsed = time) (release : time < base + hold.releaseElapsed)
      (rest : TransportChain target hopLatency base tile (base + hold.releaseElapsed) actions
        tile' time') :
      TransportChain target hopLatency base tile time (.virtualHold hold :: actions) tile' time'

/-- A chain never goes back in time. -/
theorem TransportChain.time_le {target : TargetModel} {hopLatency : ℕ} {base : ℤ}
    {tile tile' : TileCoord} {time time' : ℤ} {actions : List TransportAction}
    (h : TransportChain target hopLatency base tile time actions tile' time') :
    time ≤ time' := by
  induction h with
  | nil tile time => exact le_rfl
  | link _ _ _ _ ih => omega
  | hold _ _ hrelease _ ih => omega

/-- With a positive hop latency every action takes time, so a chain that does something arrives
strictly later than it starts. -/
theorem TransportChain.time_lt {target : TargetModel} {hopLatency : ℕ} {base : ℤ}
    {tile tile' : TileCoord} {time time' : ℤ} {actions : List TransportAction}
    (h : TransportChain target hopLatency base tile time actions tile' time')
    (hhop : 0 < hopLatency) (hne : actions ≠ []) : time < time' := by
  cases h with
  | nil tile time => exact absurd rfl hne
  | link _ _ _ hrest => have := hrest.time_le; omega
  | hold _ _ hrelease hrest => exact hrelease.trans_le hrest.time_le

/-- A chain of no actions stays on its tile. -/
theorem TransportChain.eq_of_nil {target : TargetModel} {hopLatency : ℕ} {base : ℤ}
    {tile tile' : TileCoord} {time time' : ℤ}
    (h : TransportChain target hopLatency base tile time [] tile' time') : tile = tile' := by
  cases h
  rfl

/-! ### Consecutive actions -/

section Chain

variable {target : TargetModel} {hopLatency : ℕ} {base : ℤ} {tile tile' : TileCoord}
variable {time time' : ℤ} {actions : List TransportAction}

/-- The rest of a chain is a chain. -/
theorem TransportChain.drop
    (h : TransportChain target hopLatency base tile time actions tile' time') (index : ℕ) :
    ∃ middle reached,
      TransportChain target hopLatency base middle reached (actions.drop index) tile' time' := by
  induction h generalizing index with
  | nil tile time =>
    rw [List.drop_nil]
    exact ⟨tile, time, .nil tile time⟩
  | link hsource hlaunch hneighbor hrest ih =>
    rcases index with _ | index
    · exact ⟨_, _, .link hsource hlaunch hneighbor hrest⟩
    · exact ih index
  | hold hon hcapture hrelease hrest ih =>
    rcases index with _ | index
    · exact ⟨_, _, .hold hon hcapture hrelease hrest⟩
    · exact ih index

/-- After a launch the value is on the neighbouring tile. -/
theorem TransportChain.after_link {link : LinkStep}
    (h : TransportChain target hopLatency base tile time (.linkStep link :: actions) tile' time') :
    ∃ next reached, target.neighbor link.source link.direction = some next ∧
      TransportChain target hopLatency base next reached actions tile' time' := by
  rcases h with _ | ⟨rfl, -, hneighbor, hrest⟩
  exact ⟨_, _, hneighbor, hrest⟩

/-- A launch after another starts where the other ends. -/
theorem TransportChain.neighbor_of_link {index : ℕ} {prior link : LinkStep}
    (h : TransportChain target hopLatency base tile time actions tile' time')
    (hprior : actions[index]? = some (.linkStep prior))
    (hlink : actions[index + 1]? = some (.linkStep link)) :
    target.neighbor prior.source prior.direction = some link.source := by
  obtain ⟨middle, reached, hchain⟩ := h.drop index
  rw [List.drop_eq_getElem?_toList_append, hprior] at hchain
  obtain ⟨next, reached, hneighbor, hchain⟩ := hchain.after_link
  rw [List.drop_eq_getElem?_toList_append, hlink] at hchain
  rcases hchain with _ | ⟨rfl, -, -, -⟩
  exact hneighbor

/-- The last launch ends where the chain does. -/
theorem TransportChain.neighbor_of_last {link : LinkStep}
    (h : TransportChain target hopLatency base tile time actions tile' time')
    (hlast : actions.getLast? = some (.linkStep link)) :
    target.neighbor link.source link.direction = some tile' := by
  obtain ⟨initial, rfl⟩ := List.getLast?_eq_some_iff.mp hlast
  obtain ⟨middle, reached, hchain⟩ := h.drop initial.length
  rw [List.drop_left] at hchain
  obtain ⟨next, reached, hneighbor, hchain⟩ := hchain.after_link
  rwa [hchain.eq_of_nil] at hneighbor

end Chain

namespace ModuloMappingVerifier

/-! ## One action -/

section Walk

variable {ctx : TransportContext} {available later : Availability} {index : ℕ}

/-- A clean launch: the link exists, its resource is new to the route, and the value is on the
neighbouring tile one hop later. -/
theorem launchLink_clean {link : LinkStep} {slot : ℕ}
    (h : launchLink ctx available link index slot
      (ctx.resources.linkAt ctx.domain link.source link.direction slot) = .ok (later, [])) :
    ∃ nextTile resource, ctx.resources.target.neighbor link.source link.direction = some nextTile ∧
      ctx.resources.findResource (.link ctx.domain link.source link.direction slot)
        = some resource ∧ resource ∉ available.routeResources ∧
      later = ⟨nextTile, link.elapsedFromProducerIssue + ctx.hopLatency,
        available.routeResources ++ [resource]⟩ := by
  unfold launchLink at h
  split at h
  · rename_i nextTile resource hnext hresource
    by_cases hnew : available.routeResources.contains resource
    · rw [if_pos hnew] at h
      simp at h
    · rw [if_neg hnew] at h
      split at h
      · cases h
      · simp at h
      · obtain ⟨rfl, -⟩ := Prod.mk.inj (Except.ok.inj h)
        have hnot : resource ∉ available.routeResources := by simpa using hnew
        exact ⟨nextTile, resource, hnext,
          ModuloResourceModel.findResource_linkAt hresource, hnot, rfl⟩
  · simp at h

theorem checkLink_clean {link : LinkStep}
    (h : checkLink ctx available link index = .ok (later, [])) :
    ∃ nextTile resource, link.source = available.tile ∧
      link.elapsedFromProducerIssue = available.elapsed ∧
      ctx.resources.target.neighbor link.source link.direction = some nextTile ∧
      ctx.resources.findResource (ctx.launchResource link) = some resource ∧
      resource ∉ available.routeResources ∧
      later = ⟨nextTile, available.elapsed + ctx.hopLatency,
        available.routeResources ++ [resource]⟩ := by
  unfold checkLink at h
  by_cases hready : index = 0 ∧ link.elapsedFromProducerIssue < ctx.producerReady
  · simp [hready] at h
  rw [if_neg hready] at h
  by_cases hlt : link.elapsedFromProducerIssue < available.elapsed
  · simp [hlt] at h
  rw [if_neg hlt] at h
  by_cases hgt : link.elapsedFromProducerIssue > available.elapsed
  · simp [hgt] at h
  rw [if_neg hgt] at h
  by_cases hsource : link.source = available.tile
  · rw [if_neg (not_not.mpr hsource)] at h
    have helapsed : link.elapsedFromProducerIssue = available.elapsed := by omega
    split at h
    · cases h
    · rename_i slot hslot
      rw [ModuloResourceModel.linkResource_of_advance hslot] at h
      obtain ⟨-, rfl⟩ := ModuloTimeDomain.advance_eq_ok_iff.mp hslot
      obtain ⟨nextTile, resource, hnext, hresource, hnew, rfl⟩ := launchLink_clean h
      exact ⟨nextTile, resource, hsource, helapsed, hnext, hresource, hnew, by rw [helapsed]⟩
  · simp [hsource] at h

theorem checkHold_clean {hold : VirtualHold}
    (h : checkHold ctx available hold index = .ok (later, [])) :
    hold.tile = available.tile ∧ hold.captureElapsed = available.elapsed ∧
      available.elapsed < hold.releaseElapsed ∧
      later = { available with elapsed := hold.releaseElapsed } := by
  unfold checkHold at h
  by_cases htile : hold.tile = available.tile
  · rw [if_neg (not_not.mpr htile)] at h
    by_cases hlt : hold.captureElapsed < available.elapsed
    · simp [hlt] at h
    rw [if_neg hlt] at h
    by_cases hgt : hold.captureElapsed > available.elapsed
    · simp [hgt] at h
    rw [if_neg hgt] at h
    by_cases hrel : hold.releaseElapsed ≤ hold.captureElapsed
    · simp [hrel] at h
    rw [if_neg hrel] at h
    obtain ⟨rfl, -⟩ := Prod.mk.inj (Except.ok.inj h)
    exact ⟨htile, by omega, by omega, rfl⟩
  · simp [htile] at h

theorem checkAction_clean {entry : TransportAction × ℕ}
    (h : checkAction ctx available entry = .ok (later, [])) :
    entry.1.domain = ctx.domain ∧
      ((∃ link, entry.1 = .linkStep link ∧
          checkLink ctx available link entry.2 = .ok (later, [])) ∨
        ∃ hold, entry.1 = .virtualHold hold ∧
          checkHold ctx available hold entry.2 = .ok (later, [])) := by
  unfold checkAction at h
  by_cases hdomain : entry.1.domain = ctx.domain
  · rw [if_neg (not_not.mpr hdomain)] at h
    refine ⟨hdomain, ?_⟩
    cases haction : entry.1 with
    | linkStep link => exact Or.inl ⟨link, rfl, by rwa [haction] at h⟩
    | virtualHold hold => exact Or.inr ⟨hold, rfl, by rwa [haction] at h⟩
  · simp [hdomain] at h

/-! ## The walk -/

/-- Two launches of one plan use different link resources. -/
def TransportContext.DistinctLaunches (ctx : TransportContext) (a b : TransportAction) : Prop :=
  ∀ link link', a = .linkStep link → b = .linkStep link' →
    ctx.launchResource link ≠ ctx.launchResource link'

/-- **A clean walk.** It is a chain for every issue cycle, the route it collects extends the one it
started from by the resources of its launches, and no resource is collected twice. -/
theorem walk_clean {actions : List TransportAction} (hnd : available.routeResources.Nodup)
    (h : loop (checkAction ctx) available (actions.zipIdx index) = .ok (later, [])) :
    (∀ base : ℤ, TransportChain ctx.resources.target ctx.hopLatency base available.tile
      (base + available.elapsed) actions later.tile (base + later.elapsed)) ∧
    later.routeResources.Nodup ∧
    (∀ action ∈ actions, action.domain = ctx.domain) ∧
    actions.Pairwise ctx.DistinctLaunches ∧
    ∃ added, later.routeResources = available.routeResources ++ added ∧
      ∀ link, .linkStep link ∈ actions →
        ∃ resource ∈ added, ctx.resources.findResource (ctx.launchResource link)
          = some resource := by
  induction actions generalizing available index with
  | nil =>
    obtain ⟨rfl, -⟩ := Prod.mk.inj (Except.ok.inj h)
    refine ⟨fun base ↦ TransportChain.nil _ _, hnd, ?_, List.Pairwise.nil, [], ?_, ?_⟩
    · simp
    · simp
    · simp
  | cons action actions ih =>
    rw [List.zipIdx_cons] at h
    obtain ⟨middle, hstep, hrest⟩ := loop_cons_clean_iff.mp h
    obtain ⟨hdomain, hcases⟩ := checkAction_clean hstep
    rcases hcases with ⟨link, rfl, hlink⟩ | ⟨hold, rfl, hhold⟩
    · obtain ⟨nextTile, resource, hsource, helapsed, hnext, hresource, hnew, rfl⟩ :=
        checkLink_clean hlink
      have hnd' : (available.routeResources ++ [resource]).Nodup :=
        List.nodup_append.mpr ⟨hnd, List.nodup_singleton _, by
          intro a ha b hb hab
          rw [List.mem_singleton] at hb
          exact hnew (hb ▸ hab ▸ ha)⟩
      obtain ⟨hchain, hndLater, hdomains, hpair, added, hadded, hids⟩ := ih hnd' hrest
      refine ⟨fun base ↦ ?_, hndLater, ?_, ?_, resource :: added, by simpa using hadded, ?_⟩
      · refine TransportChain.link hsource (by rw [helapsed]) (hsource ▸ hnext) ?_
        have := hchain base
        rwa [Nat.cast_add, ← add_assoc] at this
      · intro a ha
        rcases List.mem_cons.mp ha with rfl | ha
        · exact hdomain
        · exact hdomains a ha
      · -- a later launch of the same resource would be collected a second time
        refine List.pairwise_cons.mpr ⟨?_, hpair⟩
        rintro b hb link₁ link₂ h₁ rfl heq
        obtain rfl := TransportAction.linkStep.inj h₁
        obtain ⟨resource', hmem, hfound⟩ := hids link₂ hb
        rw [← heq, hresource, Option.some.injEq] at hfound
        subst hfound
        rw [hadded, List.append_assoc] at hndLater
        have htail := (List.nodup_append.mp hndLater).2.1
        exact (List.nodup_cons.mp htail).1 hmem
      · intro link' hmem
        rcases List.mem_cons.mp hmem with heq | hmem
        · obtain rfl := TransportAction.linkStep.inj heq
          exact ⟨resource, List.mem_cons_self, hresource⟩
        · obtain ⟨r, hr, hfound⟩ := hids link' hmem
          exact ⟨r, List.mem_cons_of_mem _ hr, hfound⟩
    · obtain ⟨htile, hcapture, hrelease, rfl⟩ := checkHold_clean hhold
      have hnd' : ({ available with elapsed := hold.releaseElapsed } : Availability)
          |>.routeResources.Nodup := hnd
      obtain ⟨hchain, hndLater, hdomains, hpair, added, hadded, hids⟩ := ih hnd' hrest
      refine ⟨fun base ↦ ?_, hndLater, ?_, ?_, added, hadded, ?_⟩
      · exact TransportChain.hold htile (by rw [hcapture]) (by omega) (hchain base)
      · intro a ha
        rcases List.mem_cons.mp ha with rfl | ha
        · exact hdomain
        · exact hdomains a ha
      · refine List.pairwise_cons.mpr ⟨?_, hpair⟩
        intro b _ link₁ link₂ h₁
        cases h₁
      · intro link' hmem
        rcases List.mem_cons.mp hmem with heq | hmem
        · cases heq
        · exact hids link' hmem

end Walk

end ModuloMappingVerifier

/-! ## Placed nodes and routed edges -/

/-- The link resource a launch of a plan occupies, given where its producer is placed. -/
def ModuloMapping.launchResource (mapping : ModuloMapping) (plan : TransportPlan)
    (src : NodePlacement) (link : LinkStep) : ModuloResource :=
  .link plan.domain link.source link.direction
    ((src.issueSlot + link.elapsedFromProducerIssue) % mapping.ii)

/-- A node has one placement, on a tile that supports it, and owns its footprint. -/
structure ModuloMapping.Placed (target : TargetModel) (mapping : ModuloMapping)
    (table : ResourceReservationTable) (node : TargetNode) (placement : NodePlacement)
    (operation : TargetOperationDesc) (footprint : List ResourceId) : Prop where
  entries : mapping.placementEntries node.id = [placement]
  found : target.findOperation node.operation = some operation
  supports : target.tileSupportsOperation placement.tile.row placement.tile.col operation.id = true
  slot_lt : placement.issueSlot < mapping.ii
  occupancy_pos : 0 < operation.issueOccupancy
  nodup : footprint.Nodup
  length : footprint.length = operation.issueOccupancy
  ids : ∀ i, ∀ hi : i < footprint.length, (resourceModel target mapping).findResource
    (ModuloResourceModel.unitResource operation.executionClass placement.tile
      ((placement.issueSlot + i) % mapping.ii)) = some (footprint.get ⟨i, hi⟩)
  owns : table.Owns ⟨.node, node.id⟩ footprint

/-- A value edge has a plan that is a chain from producer to consumer and owns its links. -/
structure ModuloMapping.Routed (target : TargetModel) (mapping : ModuloMapping)
    (table : ResourceReservationTable) (edge : TargetEdge) (producerReady : ℕ)
    (src dst : NodePlacement) (plan : TransportPlan) (route : List ResourceId) : Prop where
  srcEntries : mapping.placementEntries edge.src = [src]
  dstEntries : mapping.placementEntries edge.dst = [dst]
  domain : plan.domain = expectedDomain edge.kind
  hopLatency_pos : 0 < target.interconnect.hopLatency
  nonempty : plan.actions ≠ []
  chain : ∀ base : ℤ, TransportChain target target.interconnect.hopLatency base src.tile
    (base + producerReady) plan.actions dst.tile (base + plan.requiredSeparationCycles)
  domains : ∀ action ∈ plan.actions, action.domain = plan.domain
  distinct : plan.actions.Pairwise fun a b ↦ ∀ link link', a = .linkStep link →
    b = .linkStep link' → mapping.launchResource plan src link
      ≠ mapping.launchResource plan src link'
  launches : ∀ link, .linkStep link ∈ plan.actions → ∃ resource ∈ route,
    (resourceModel target mapping).findResource (mapping.launchResource plan src link)
      = some resource
  owns : table.Owns ⟨.edge, edge.id⟩ route

/-- The realization of a dependence: the contract's separation for a memory dependence, a routed
plan for a value dependence. -/
structure ModuloMapping.Realized (dfg : TargetDFG) (target : TargetModel) (mapping : ModuloMapping)
    (table : ResourceReservationTable) (edge : TargetEdge) (dependence : MappedDependence) :
    Prop where
  entries : mapping.dependenceEntries edge.id = [dependence]
  memory : ∀ kind, edge.info = .memory kind → dependence.transport = none ∧
    dependence.requiredSeparationCycles = target.memoryDependenceSeparation kind
  value : edge.kind ≠ .memory → ∃ producer producerReady src dst plan route,
    dfg.findNode edge.src = some producer ∧
    producer.producerOutputReadyOffset = some producerReady ∧
    dependence.transport = some plan ∧
    dependence.requiredSeparationCycles = plan.requiredSeparationCycles ∧
    mapping.Routed target table edge producerReady src dst plan route

/-- What an accepted mapping satisfies. -/
structure ModuloMapping.Verified (dfg : TargetDFG) (target : TargetModel)
    (mapping : ModuloMapping) : Prop where
  graph : dfg.Verified target
  ii_pos : 0 < mapping.ii
  reserved : ∃ table : ResourceReservationTable,
    (∀ node ∈ dfg.nodes, ∃ placement operation footprint,
      mapping.Placed target table node placement operation footprint) ∧
    ∀ edge ∈ dfg.edges, ∃ dependence, mapping.Realized dfg target table edge dependence

theorem ModuloMapping.Placed.mono {target : TargetModel} {mapping : ModuloMapping}
    {table later : ResourceReservationTable} {node : TargetNode} {placement : NodePlacement}
    {operation : TargetOperationDesc} {footprint : List ResourceId}
    (h : mapping.Placed target table node placement operation footprint)
    (hext : table.Extends later) :
    mapping.Placed target later node placement operation footprint :=
  { h with owns := h.owns.mono hext }

theorem ModuloMapping.Realized.mono {dfg : TargetDFG} {target : TargetModel}
    {mapping : ModuloMapping} {table later : ResourceReservationTable} {edge : TargetEdge}
    {dependence : MappedDependence} (h : mapping.Realized dfg target table edge dependence)
    (hext : table.Extends later) : mapping.Realized dfg target later edge dependence where
  entries := h.entries
  memory := h.memory
  value hkind := by
    obtain ⟨producer, ready, src, dst, plan, route, hp, hr, ht, hs, hrouted⟩ := h.value hkind
    exact ⟨producer, ready, src, dst, plan, route, hp, hr, ht, hs,
      { hrouted with owns := hrouted.owns.mono hext }⟩

namespace ModuloMappingVerifier

section Steps

variable {dfg : TargetDFG} {target : TargetModel} {mapping : ModuloMapping}
  {table later : ResourceReservationTable}

/-! ### The node loop -/

/-- A refused footprint is always reported, so a clean step has reserved it. -/
theorem footprintConflict_ne_nil {node : TargetNode} {footprint : List ResourceId}
    (h : ∃ resource ∈ footprint, ∃ owner, table.owners[resource]? = some (some owner)) :
    footprintConflict target mapping table node footprint ≠ [] := by
  induction footprint with
  | nil =>
    obtain ⟨resource, hmem, -⟩ := h
    exact absurd hmem List.not_mem_nil
  | cons resource footprint ih =>
    unfold footprintConflict
    split
    · simp
    · rename_i hother
      obtain ⟨r, hr, owner, howner⟩ := h
      rcases List.mem_cons.mp hr with rfl | hr
      · exact absurd (by simp [ResourceReservationTable.owner, howner]) (hother owner)
      · exact ih ⟨r, hr, owner, howner⟩

theorem reserveFootprint_clean {node : TargetNode} {footprint : List ResourceId}
    (hnd : footprint.Nodup) (hknown : ∀ resource ∈ footprint, resource < table.owners.length)
    (h : reserveFootprint target mapping table node footprint = (later, [])) :
    table.reserve footprint ⟨.node, node.id⟩ = some later := by
  unfold reserveFootprint at h
  by_cases hcan : table.canReserve [] footprint
  · rw [if_pos hcan] at h
    cases hres : table.reserve footprint ⟨.node, node.id⟩ with
    | none => simp [hres] at h
    | some reserved =>
      rw [hres] at h
      exact congrArg some (Prod.mk.inj h).1
  · rw [if_neg hcan] at h
    have howned := ResourceReservationTable.canReserve_eq_false (by simpa using hcan) hnd
      (by simp) hknown
    exact absurd (Prod.mk.inj h).2 (footprintConflict_ne_nil howned)

/-- A clean step has reserved the footprint of the node. -/
theorem checkPlacement_reserves {node : TargetNode} {placement : NodePlacement}
    {operation : TargetOperationDesc} (hentries : mapping.placementEntries node.id = [placement])
    (hfound : target.findOperation node.operation = some operation)
    (hsize : table.owners.length = (resourceModel target mapping).resourceCount)
    (h : checkPlacement target mapping table node = .ok (later, [])) :
    ∃ footprint, (resourceModel target mapping).operationFootprint node placement.tile
      placement.issueSlot = .ok footprint ∧
        table.reserve footprint ⟨.node, node.id⟩ = some later := by
  unfold checkPlacement at h
  rw [hentries] at h
  simp only at h
  by_cases htile : placement.tile.row ≥ target.array.rows ∨ placement.tile.col ≥ target.array.cols
  · simp [htile] at h
  rw [if_neg htile] at h
  by_cases hslot : placement.issueSlot ≥ mapping.ii
  · simp [hslot] at h
  rw [if_neg hslot] at h
  by_cases hsup : (resourceModel target mapping).supportsOperation placement.tile node
  · rw [if_neg (by simp [hsup])] at h
    cases hfp : (resourceModel target mapping).operationFootprint node placement.tile
        placement.issueSlot with
    | error e => simp [hfp] at h
    | ok footprint =>
      rw [hfp] at h
      obtain ⟨-, -, hnd, -, hids⟩ := ModuloResourceModel.operationFootprint_spec hfound hfp
      have hknown : ∀ resource ∈ footprint, resource < table.owners.length := by
        intro resource hmem
        obtain ⟨i, hi⟩ := List.mem_iff_get.mp hmem
        rw [hsize, ← hi]
        exact ModuloResourceModel.findResource_lt (hids i.1 i.2)
      exact ⟨footprint, rfl, reserveFootprint_clean hnd hknown (Except.ok.inj h)⟩
  · rw [if_pos (by simp [hsup])] at h
    simp at h

/-- **The node step.** -/
theorem checkPlacement_clean {node : TargetNode} {placement : NodePlacement}
    {operation : TargetOperationDesc} (hentries : mapping.placementEntries node.id = [placement])
    (hfound : target.findOperation node.operation = some operation)
    (hsize : table.owners.length = (resourceModel target mapping).resourceCount)
    (h : checkPlacement target mapping table node = .ok (later, [])) :
    later.owners.length = (resourceModel target mapping).resourceCount ∧ table.Extends later ∧
      ∃ footprint, mapping.Placed target later node placement operation footprint := by
  obtain ⟨footprint, hfootprint, hreserve⟩ := checkPlacement_reserves hentries hfound hsize h
  obtain ⟨hlt, hocc, hnd, hlen, hids⟩ :=
    ModuloResourceModel.operationFootprint_spec hfound hfootprint
  obtain ⟨hlater, hext, howns⟩ := ResourceReservationTable.reserve_spec hreserve
  have hsup := ModuloResourceModel.supportsOperation_of_footprint hfootprint
  have hsupports : target.tileSupportsOperation placement.tile.row placement.tile.col
      operation.id = true := by
    unfold ModuloResourceModel.supportsOperation at hsup
    split at hsup
    · cases hsup
    · rwa [show (resourceModel target mapping).target = target from rfl, hfound] at hsup
  exact ⟨hlater.trans hsize, hext, footprint,
    ⟨hentries, hfound, hsupports, hlt, hocc, hnd, hlen, hids, howns⟩⟩

/-! ### The edge loop -/

theorem finishTransport_clean {edge : TargetEdge} {dependence : MappedDependence}
    {plan : TransportPlan} {src dst : NodePlacement} {available : Availability}
    (h : finishTransport edge dependence plan src dst table available = (later, [])) :
    ¬(plan.actions = [] ∧ src.tile = dst.tile) ∧ available.tile = dst.tile ∧
      available.elapsed = plan.requiredSeparationCycles ∧
      dependence.requiredSeparationCycles = plan.requiredSeparationCycles ∧
      later.owners.length = table.owners.length ∧ table.Extends later ∧
      later.Owns ⟨.edge, edge.id⟩ available.routeResources := by
  unfold finishTransport at h
  by_cases hempty : (plan.actions.isEmpty && src.tile == dst.tile) = true
  · simp [hempty] at h
  rw [if_neg hempty] at h
  by_cases htile : available.tile = dst.tile
  · rw [if_neg (not_not.mpr htile)] at h
    by_cases hsep : available.elapsed ≠ plan.requiredSeparationCycles ∨
        dependence.requiredSeparationCycles ≠ plan.requiredSeparationCycles
    · simp [hsep] at h
    rw [if_neg hsep] at h
    simp only [ne_eq, not_or, not_not] at hsep
    have hmoves : ¬(plan.actions = [] ∧ src.tile = dst.tile) := by simpa using hempty
    by_cases hroute : available.routeResources.isEmpty
    · rw [if_pos hroute] at h
      obtain rfl := (Prod.mk.inj h).1
      refine ⟨hmoves, htile, hsep.1, hsep.2, rfl, ResourceReservationTable.Extends.refl table, ?_⟩
      rw [List.isEmpty_iff.mp hroute]
      exact fun resource hmem ↦ absurd hmem List.not_mem_nil
    · rw [if_neg hroute] at h
      cases hres : table.reserve available.routeResources ⟨.edge, edge.id⟩ with
      | none => simp [hres] at h
      | some reserved =>
        rw [hres] at h
        obtain rfl := (Prod.mk.inj h).1
        obtain ⟨hlen, hext, howns⟩ := ResourceReservationTable.reserve_spec hres
        exact ⟨hmoves, htile, hsep.1, hsep.2, hlen, hext, howns⟩
  · simp [htile] at h

/-- What the walk along the plan of an edge needs to know. -/
def transportContext (target : TargetModel) (mapping : ModuloMapping)
    (table : ResourceReservationTable) (edge : TargetEdge) (plan : TransportPlan)
    (src : NodePlacement) (producerReady : ℕ) : TransportContext where
  resources := resourceModel target mapping
  reservations := table
  edge := edge
  domain := plan.domain
  srcPlacement := src
  producerReady := producerReady
  hopLatency := target.interconnect.hopLatency

/-- A clean step has walked along the plan to its end. -/
theorem verifyValueTransport_walks {edge : TargetEdge} {dependence : MappedDependence}
    {src dst : NodePlacement}
    (h : verifyValueTransport dfg target mapping edge dependence src dst table
      = .ok (later, [])) :
    ∃ plan producer producerReady available,
      dependence.transport = some plan ∧
      plan.edge = edge.id ∧
      plan.domain = expectedDomain edge.kind ∧
      dfg.findNode edge.src = some producer ∧
      producer.producerOutputReadyOffset = some producerReady ∧
      0 < target.interconnect.hopLatency ∧
      loop (checkAction (transportContext target mapping table edge plan src producerReady))
        ⟨src.tile, producerReady, []⟩ plan.actions.zipIdx = .ok (available, []) ∧
      finishTransport edge dependence plan src dst table available = (later, []) := by
  unfold verifyValueTransport at h
  cases hplan : dependence.transport with
  | none => simp [hplan] at h
  | some plan =>
    simp only [hplan] at h
    by_cases hedge : plan.edge = edge.id
    · rw [if_neg (not_not.mpr hedge)] at h
      by_cases hdomain : plan.domain = expectedDomain edge.kind
      · rw [if_neg (not_not.mpr hdomain)] at h
        cases hproducer : dfg.findNode edge.src with
        | none => simp [hproducer] at h
        | some producer =>
          simp only [hproducer] at h
          cases hready : producer.producerOutputReadyOffset with
          | none => simp [hready] at h
          | some producerReady =>
            simp only [hready, TargetModel.network_eq] at h
            by_cases hhop : target.interconnect.hopLatency = 0
            · simp [hhop] at h
            rw [if_neg hhop] at h
            split at h
            · cases h
            · rename_i available hwalk
              exact ⟨plan, producer, producerReady, available, rfl, hedge, hdomain, rfl, hready,
                Nat.pos_of_ne_zero hhop, hwalk, Except.ok.inj h⟩
            · rename_i diagnostics hne hwalk
              obtain ⟨-, rfl⟩ := Prod.mk.inj (Except.ok.inj h)
              exact absurd rfl hne
      · simp [hdomain] at h
    · simp [hedge] at h

/-- **The value-edge step.** -/
theorem verifyValueTransport_clean {edge : TargetEdge} {dependence : MappedDependence}
    {src dst : NodePlacement} (hsrc : mapping.placementEntries edge.src = [src])
    (hdst : mapping.placementEntries edge.dst = [dst])
    (h : verifyValueTransport dfg target mapping edge dependence src dst table
      = .ok (later, [])) :
    table.Extends later ∧ ∃ producer producerReady plan route,
      dfg.findNode edge.src = some producer ∧
      producer.producerOutputReadyOffset = some producerReady ∧
      dependence.transport = some plan ∧
      dependence.requiredSeparationCycles = plan.requiredSeparationCycles ∧
      mapping.Routed target later edge producerReady src dst plan route := by
  obtain ⟨plan, producer, producerReady, available, hplan, -, hdomain, hproducer, hready, hhop,
    hwalk, hfinish⟩ := verifyValueTransport_walks h
  obtain ⟨hchain, -, hdomains, hpair, added, hadded, hids⟩ := walk_clean (by simp) hwalk
  obtain ⟨hmoves, htile, hsep, hdep, -, hext, howns⟩ := finishTransport_clean hfinish
  have hchain' : ∀ base : ℤ, TransportChain target target.interconnect.hopLatency base
      src.tile (base + producerReady) plan.actions dst.tile
      (base + plan.requiredSeparationCycles) := by
    intro base
    have hbase := hchain base
    rwa [htile, hsep] at hbase
  refine ⟨hext, producer, producerReady, plan, available.routeResources, hproducer, hready,
    hplan, hdep, ?_⟩
  refine
    { srcEntries := hsrc
      dstEntries := hdst
      domain := hdomain
      hopLatency_pos := hhop
      nonempty := fun hnil ↦ hmoves ⟨hnil, ?_⟩
      chain := hchain'
      domains := hdomains
      distinct := hpair
      launches := fun link hmem ↦ ?_
      owns := howns }
  · have hbase := hchain' 0
    rw [hnil] at hbase
    exact hbase.eq_of_nil
  · obtain ⟨resource, hres, hfound⟩ := hids link hmem
    exact ⟨resource, by rw [hadded]; exact List.mem_append_right _ hres, hfound⟩

theorem checkMemoryDependence_clean {edge : TargetEdge} {dependence : MappedDependence}
    {kind : MemoryDepKind} (h : checkMemoryDependence target edge dependence kind = []) :
    dependence.transport = none ∧
      dependence.requiredSeparationCycles = target.memoryDependenceSeparation kind := by
  unfold checkMemoryDependence at h
  by_cases htransport : dependence.transport.isSome
  · simp [htransport] at h
  rw [if_neg htransport] at h
  by_cases hlt : dependence.requiredSeparationCycles < target.memoryDependenceSeparation kind
  · simp [hlt] at h
  rw [if_neg hlt, require_eq_nil_iff, beq_iff_eq] at h
  exact ⟨by simpa using htransport, h⟩

/-- The step of a value edge with its ends placed is the walk along its plan. -/
theorem verifyValueTransport_of_checkDependence {edge : TargetEdge} {dependence : MappedDependence}
    {src dst : NodePlacement} (hentries : mapping.dependenceEntries edge.id = [dependence])
    (hsrc : mapping.placementEntries edge.src = [src])
    (hdst : mapping.placementEntries edge.dst = [dst]) (hvalue : edge.kind ≠ .memory)
    (h : checkDependence dfg target mapping table edge = .ok (later, [])) :
    verifyValueTransport dfg target mapping edge dependence src dst table = .ok (later, []) := by
  unfold checkDependence at h
  rw [hentries] at h
  simp only at h
  by_cases hkind : dependence.kind = edge.kind
  · rw [if_neg (not_not.mpr hkind)] at h
    cases hinfo : edge.info with
    | data operand boundary => simpa only [hinfo, hsrc, hdst] using h
    | predicate operand boundary => simpa only [hinfo, hsrc, hdst] using h
    | memory kind => exact absurd (TargetEdge.kind_eq_memory_iff.mpr ⟨_, hinfo⟩) hvalue
  · simp [hkind] at h

/-- **The edge step.** -/
theorem checkDependence_clean {edge : TargetEdge} {dependence : MappedDependence}
    {src dst : NodePlacement} (hentries : mapping.dependenceEntries edge.id = [dependence])
    (hsrc : mapping.placementEntries edge.src = [src])
    (hdst : mapping.placementEntries edge.dst = [dst])
    (h : checkDependence dfg target mapping table edge = .ok (later, [])) :
    table.Extends later ∧ mapping.Realized dfg target later edge dependence := by
  by_cases hmem : edge.kind = .memory
  · -- a memory dependence reserves nothing
    unfold checkDependence at h
    rw [hentries] at h
    simp only at h
    by_cases hkind : dependence.kind = edge.kind
    · rw [if_neg (not_not.mpr hkind)] at h
      obtain ⟨kind, hinfo⟩ := TargetEdge.kind_eq_memory_iff.mp hmem
      rw [hinfo] at h
      obtain ⟨rfl, hclean⟩ := Prod.mk.inj (Except.ok.inj h)
      refine ⟨ResourceReservationTable.Extends.refl table, hentries, ?_, fun hne ↦ ?_⟩
      · intro kind' hkind'
        rw [hinfo, EdgeInfo.memory.injEq] at hkind'
        exact hkind' ▸ checkMemoryDependence_clean hclean
      · exact absurd hmem hne
    · simp [hkind] at h
  · obtain ⟨hext, producer, ready, plan, route, hp, hr, ht, hs, hrouted⟩ :=
      verifyValueTransport_clean hsrc hdst
        (verifyValueTransport_of_checkDependence hentries hsrc hdst hmem h)
    refine ⟨hext, hentries, fun kind hinfo ↦ ?_, fun _ ↦ ?_⟩
    · exact absurd (TargetEdge.kind_eq_memory_iff.mpr ⟨kind, hinfo⟩) hmem
    · exact ⟨producer, ready, src, dst, plan, route, hp, hr, ht, hs, hrouted⟩

/-! ### The whole verifier -/

theorem entries_of_checkMissingEntries (h : checkMissingEntries dfg mapping = []) :
    (∀ node ∈ dfg.nodes, ∃ placement, mapping.placementEntries node.id = [placement]) ∧
      ∀ edge ∈ dfg.edges, ∃ dependence, mapping.dependenceEntries edge.id = [dependence] := by
  simp only [checkMissingEntries, List.append_eq_nil_iff, List.flatMap_eq_nil_iff,
    require_eq_nil_iff, beq_iff_eq, TargetDFG.mem_nodesById, TargetDFG.mem_edgesById,
    List.length_eq_one_iff] at h
  exact h

/-- **The two loops, read through the loop rule.** What every step establishes of its node or its
edge, and what more reservations do not undo, holds of the final table. -/
theorem exists_table_of_verifyReservations {N : TargetNode → ResourceReservationTable → Prop}
    {E : TargetEdge → ResourceReservationTable → Prop}
    (hNmono : ∀ node a b, N node a → ResourceReservationTable.Extends a b → N node b)
    (hEmono : ∀ edge a b, E edge a → ResourceReservationTable.Extends a b → E edge b)
    (hnode : ∀ node ∈ dfg.nodes, ∀ a b : ResourceReservationTable,
      a.owners.length = (resourceModel target mapping).resourceCount →
      checkPlacement target mapping a node = .ok (b, []) →
        b.owners.length = (resourceModel target mapping).resourceCount ∧ a.Extends b ∧ N node b)
    (hedge : ∀ edge ∈ dfg.edges, ∀ a b : ResourceReservationTable,
      checkDependence dfg target mapping a edge = .ok (b, []) → a.Extends b ∧ E edge b)
    (h : verifyReservations dfg target mapping = .ok []) :
    ∃ table : ResourceReservationTable,
      (∀ node ∈ dfg.nodes, N node table) ∧ ∀ edge ∈ dfg.edges, E edge table := by
  unfold verifyReservations at h
  split at h
  · cases h
  rename_i reservations nodeReport hnodes
  split at h
  · cases h
  rename_i table edgeReport hedges
  obtain ⟨rfl, rfl⟩ := List.append_eq_nil_iff.mp (Except.ok.inj h)
  obtain ⟨-, -, hN⟩ := loop_clean
    (I := fun t ↦ t.owners.length = (resourceModel target mapping).resourceCount)
    (R := ResourceReservationTable.Extends) (Q := N)
    ResourceReservationTable.Extends.refl ResourceReservationTable.Extends.trans
    (fun hn hext ↦ hNmono _ _ _ hn hext)
    (ResourceReservationTable.length_empty _)
    (fun node hmem s s' hsize hstep ↦
      hnode node (TargetDFG.mem_nodesById.mp hmem) s s' hsize hstep)
    hnodes
  obtain ⟨-, hext, hE⟩ := loop_clean (I := fun _ ↦ True)
    (R := ResourceReservationTable.Extends) (Q := E)
    ResourceReservationTable.Extends.refl ResourceReservationTable.Extends.trans
    (fun he hext ↦ hEmono _ _ _ he hext) trivial
    (fun edge hmem s s' _ hstep ↦
      ⟨trivial, hedge edge (TargetDFG.mem_edgesById.mp hmem) s s' hstep⟩)
    hedges
  refine ⟨table, fun node hmem ↦ ?_, fun edge hmem ↦ hE edge (TargetDFG.mem_edgesById.mpr hmem)⟩
  exact hNmono _ _ _ (hN node (TargetDFG.mem_nodesById.mpr hmem)) hext

/-- The ends of an edge of a verified graph are placed. -/
theorem endpoints_placed (hgraph : dfg.Verified target)
    (hplaced : ∀ node ∈ dfg.nodes, ∃ placement, mapping.placementEntries node.id = [placement])
    {edge : TargetEdge} (hedge : edge ∈ dfg.edges) :
    ∃ src dst, mapping.placementEntries edge.src = [src] ∧
      mapping.placementEntries edge.dst = [dst] := by
  obtain ⟨src, dst, hsrc, hdst⟩ := hgraph.endpoints edge hedge
  obtain ⟨srcPlacement, hsrcEntries⟩ := hplaced src (TargetDFG.mem_of_findNode hsrc)
  obtain ⟨dstPlacement, hdstEntries⟩ := hplaced dst (TargetDFG.mem_of_findNode hdst)
  rw [TargetDFG.findNode_id hsrc] at hsrcEntries
  rw [TargetDFG.findNode_id hdst] at hdstEntries
  exact ⟨srcPlacement, dstPlacement, hsrcEntries, hdstEntries⟩

/-- What the two loops leave behind. -/
theorem reserved_of_verifyReservations (hgraph : dfg.Verified target)
    (hplaced : ∀ node ∈ dfg.nodes, ∃ placement, mapping.placementEntries node.id = [placement])
    (hrealized : ∀ edge ∈ dfg.edges,
      ∃ dependence, mapping.dependenceEntries edge.id = [dependence])
    (h : verifyReservations dfg target mapping = .ok []) :
    ∃ table : ResourceReservationTable,
      (∀ node ∈ dfg.nodes, ∃ placement operation footprint,
        mapping.Placed target table node placement operation footprint) ∧
      ∀ edge ∈ dfg.edges, ∃ dependence, mapping.Realized dfg target table edge dependence := by
  refine exists_table_of_verifyReservations ?_ ?_ ?_ ?_ h
  · rintro node a b ⟨placement, operation, footprint, hp⟩ hext
    exact ⟨placement, operation, footprint, hp.mono hext⟩
  · rintro edge a b ⟨dependence, hd⟩ hext
    exact ⟨dependence, hd.mono hext⟩
  · intro node hmem a b hsize hstep
    obtain ⟨placement, hentries⟩ := hplaced node hmem
    obtain ⟨operation, hagrees⟩ := hgraph.agrees node hmem
    obtain ⟨hsize', hext, footprint, hp⟩ :=
      checkPlacement_clean hentries hagrees.found hsize hstep
    exact ⟨hsize', hext, placement, operation, footprint, hp⟩
  · intro edge hmem a b hstep
    obtain ⟨dependence, hentries⟩ := hrealized edge hmem
    obtain ⟨src, dst, hsrc, hdst⟩ := endpoints_placed hgraph hplaced hmem
    obtain ⟨hext, hd⟩ := checkDependence_clean hentries hsrc hdst hstep
    exact ⟨hext, dependence, hd⟩

/-- **The verifier's contract.** -/
theorem verified_of_verify (h : verify dfg target mapping = .ok []) :
    mapping.Verified dfg target := by
  simp only [verify, checkPreconditions, stage_eq_ok_nil_iff, require_eq_nil_iff,
    List.isEmpty_iff, bne_iff_ne] at h
  obtain ⟨hreport, -, hii, -, hrest⟩ := h
  split at hrest
  · cases hrest
  · rename_i report hres
    simp only [Except.ok.injEq, List.append_eq_nil_iff] at hrest
    obtain ⟨⟨-, hmissing⟩, rfl⟩ := hrest
    have hgraph := TargetDFGVerifier.verified_of_verify hreport
    obtain ⟨hplaced, hrealized⟩ := entries_of_checkMissingEntries hmissing
    exact ⟨hgraph, Nat.pos_of_ne_zero hii,
      reserved_of_verifyReservations hgraph hplaced hrealized hres⟩

end Steps

end ModuloMappingVerifier

end PredicatedMesh
