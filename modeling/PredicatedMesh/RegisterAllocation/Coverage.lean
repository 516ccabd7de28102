import PredicatedMesh.RegisterAllocation.Soundness
import PredicatedMesh.RegisterAllocation.Storage
import PredicatedMesh.Schedule.Execution

/-!
# Storage covers every wait

A value is produced, waits, is launched over a link, waits again, and is used. `analyze` walks the
plan of an edge once and keeps a flag for "the last action was a hold". This module shows what the
walk leaves behind: at every cycle between production and use the value is either in flight on
exactly one link or held in exactly one segment, on the tile its links have taken it to.

`Waits` is the state of the walk. It says this for the part of the plan already walked, together
with what the flag means: when it is set, the last segment ends now and here, and when it is not,
every segment has ended before now. A wait either continues the last segment or starts after all
others, so two segments of an edge never touch (`Waits.wait`), and a launch puts a flight between
them (`Waits.launch`).
-/

namespace PredicatedMesh

/-- The segment holds its value during a cycle. -/
def StorageSegment.covers (segment : StorageSegment) (time : ℕ) : Bool :=
  decide (segment.writeTime ≤ time) && decide (time < segment.readTime)

/-- The launch is on its link during a cycle, for a producer that issues at `base`. -/
def LinkStep.inFlight (base hopLatency : ℕ) (link : LinkStep) (time : ℕ) : Bool :=
  decide (base + link.elapsedFromProducerIssue ≤ time)
    && decide (time < base + link.elapsedFromProducerIssue + hopLatency)

def LinkStep.arrivedBy (base hopLatency : ℕ) (time : ℕ) (link : LinkStep) : Bool :=
  decide (base + link.elapsedFromProducerIssue + hopLatency ≤ time)

def TransportAction.link? : TransportAction → Option LinkStep
  | .linkStep link => some link
  | .virtualHold _ => none

/-- The launches of a plan, in order. -/
def linksOf (actions : List TransportAction) : List LinkStep :=
  actions.filterMap TransportAction.link?

/-- The tile a value has reached over the links it has left behind. -/
def tileAt (target : TargetModel) (base hopLatency : ℕ) (links : List LinkStep) (tile : TileCoord)
    (time : ℕ) : Option TileCoord :=
  (links.filter (LinkStep.arrivedBy base hopLatency time)).foldlM
    (fun tile link ↦ target.neighbor tile link.direction) tile

namespace StorageRequirementAnalysis

open Scan

/-- The origins of the holds of a plan, by position. -/
def holdOrigins (edge : TargetEdgeId) (actions : List (TransportAction × ℕ)) :
    List StorageOrigin :=
  actions.filterMap fun entry ↦
    match entry.1 with
    | .linkStep _ => none
    | .virtualHold _ => some ⟨.explicitVirtualHold, edge, some entry.2⟩

/-- A walk of the plan of `edge` that has reached `tile` at `time`: `segments` and `links` are the
waits and the launches so far, `held` is the flag. -/
structure Waits (target : TargetModel) (edge : TargetEdgeId) (domain : RegisterBankDomain)
    (base hopLatency start : ℕ) (source : TileCoord) (links : List LinkStep) (tile : TileCoord)
    (time : ℕ) (held : Bool) (segments : List StorageSegment) (origins : List StorageOrigin) :
    Prop where
  start_le : start ≤ time
  edge_eq : ∀ segment ∈ segments, segment.edge = edge
  domain_eq : ∀ segment ∈ segments, segment.domain = domain
  partition : ∀ t, (segments.countP fun segment ↦ segment.covers t)
    + (links.countP fun link ↦ link.inFlight base hopLatency t)
      = if start ≤ t ∧ t < time then 1 else 0
  arrived : ∀ link ∈ links, base + link.elapsedFromProducerIssue + hopLatency ≤ time
  here : links.foldlM (fun tile link ↦ target.neighbor tile link.direction) source = some tile
  located : ∀ segment ∈ segments, ∀ t, segment.covers t = true →
    tileAt target base hopLatency links source t = some segment.tile
  bounds : ∀ segment ∈ segments, segment.writeTime < segment.readTime ∧ segment.readTime ≤ time
  apart : segments.Pairwise fun a b ↦ a.readTime < b.writeTime
  flag : if held then ∃ last, segments.getLast? = some last ∧ last.readTime = time ∧
      last.tile = tile
    else ∀ segment ∈ segments, segment.readTime < time
  origins_eq : segments.flatMap StorageSegment.origins = origins

section Walk

variable {target : TargetModel} {edge : TargetEdgeId} {domain : RegisterBankDomain}
variable {base hopLatency start : ℕ} {source tile : TileCoord} {links : List LinkStep}
variable {time : ℕ} {held : Bool} {segments : List StorageSegment} {origins : List StorageOrigin}

theorem covers_iff {segment : StorageSegment} {t : ℕ} :
    segment.covers t = true ↔ segment.writeTime ≤ t ∧ t < segment.readTime := by
  simp [StorageSegment.covers]

theorem inFlight_iff {link : LinkStep} {t : ℕ} : link.inFlight base hopLatency t = true ↔
    base + link.elapsedFromProducerIssue ≤ t ∧
      t < base + link.elapsedFromProducerIssue + hopLatency := by
  simp [LinkStep.inFlight]

/-- Before the first action. -/
theorem Waits.initially (target : TargetModel) (edge : TargetEdgeId) (domain : RegisterBankDomain)
    (base hopLatency start : ℕ) (source : TileCoord) :
    Waits target edge domain base hopLatency start source [] source start false [] [] where
  start_le := le_rfl
  edge_eq := by simp
  domain_eq := by simp
  partition t := by
    rw [if_neg (fun h ↦ absurd h.2 h.1.not_gt)]
    rfl
  arrived := by simp
  here := rfl
  located := by simp
  bounds := by simp
  apart := .nil
  flag := by simp
  origins_eq := rfl

/-- Once every link has arrived, the value is where the last one took it. -/
theorem Waits.tileAt_of_le
    (h : Waits target edge domain base hopLatency start source links tile time held segments
      origins) {t : ℕ} (ht : time ≤ t) :
    tileAt target base hopLatency links source t = some tile := by
  have hall : links.filter (LinkStep.arrivedBy base hopLatency t) = links := by
    rw [List.filter_eq_self]
    intro link hlink
    simpa [LinkStep.arrivedBy] using (h.arrived link hlink).trans ht
  rw [tileAt, hall, h.here]

/-- The split of a cycle count at the end of what has been walked. -/
theorem indicator_add {start time later t : ℕ} (h₁ : start ≤ time) (h₂ : time < later) :
    (if start ≤ t ∧ t < later then 1 else 0)
      = (if start ≤ t ∧ t < time then 1 else 0) + if time ≤ t ∧ t < later then 1 else 0 := by
  by_cases hlow : t < time
  · have hlater : t < later := by omega
    have hnot : ¬ time ≤ t := by omega
    simp [hlow, hlater, hnot]
  · have hle : time ≤ t := by omega
    have hstart : start ≤ t := by omega
    simp [hlow, hle, hstart]

/-- The segments `front` and a segment that is held from `new.writeTime` on until `release` are what
a wait leaves behind, if until now they cover what the walk has covered. -/
theorem Waits.held_until
    (h : Waits target edge domain base hopLatency start source links tile time held segments
      origins) {release : ℕ} (hrelease : time < release) {front : List StorageSegment}
    {new : StorageSegment} {later : List StorageOrigin} (hfront : front.Sublist segments)
    (hedge : new.edge = edge) (hdomain : new.domain = domain) (htile : new.tile = tile)
    (hread : new.readTime = release) (hwrite : new.writeTime ≤ time)
    (hcovered : ∀ t, (front.countP fun segment ↦ segment.covers t)
      + (if new.writeTime ≤ t ∧ t < time then 1 else 0) = segments.countP fun segment ↦
        segment.covers t)
    (hlocated : ∀ t, new.writeTime ≤ t → t < time →
      tileAt target base hopLatency links source t = some tile)
    (hended : ∀ segment ∈ front, segment.readTime < new.writeTime)
    (horigins : front.flatMap StorageSegment.origins ++ new.origins = later) :
    Waits target edge domain base hopLatency start source links tile release true (front ++ [new])
      later where
  start_le := h.start_le.trans hrelease.le
  edge_eq := List.forall_mem_append.mpr
    ⟨fun segment hmem ↦ h.edge_eq segment (hfront.subset hmem), by simpa using hedge⟩
  domain_eq := List.forall_mem_append.mpr
    ⟨fun segment hmem ↦ h.domain_eq segment (hfront.subset hmem), by simpa using hdomain⟩
  partition t := by
    have hnew : ([new].countP fun segment ↦ segment.covers t)
        = (if new.writeTime ≤ t ∧ t < time then 1 else 0)
          + if time ≤ t ∧ t < release then 1 else 0 := by
      rw [List.countP_singleton, ← indicator_add hwrite hrelease]
      simp only [covers_iff, hread]
    rw [List.countP_append, hnew, ← add_assoc, hcovered t, add_right_comm, h.partition t,
      indicator_add h.start_le hrelease]
  arrived link hlink := (h.arrived link hlink).trans hrelease.le
  here := h.here
  located := by
    refine List.forall_mem_append.mpr
      ⟨fun segment hmem t ht ↦ h.located segment (hfront.subset hmem) t ht, ?_⟩
    intro segment hmem t ht
    obtain rfl := List.mem_singleton.mp hmem
    rw [htile]
    by_cases hearly : t < time
    · exact hlocated t (covers_iff.mp ht).1 hearly
    · exact h.tileAt_of_le (not_lt.mp hearly)
  bounds := by
    refine List.forall_mem_append.mpr ⟨fun segment hmem ↦ ?_, fun segment hmem ↦ ?_⟩
    · have hb := h.bounds segment (hfront.subset hmem)
      exact ⟨hb.1, hb.2.trans hrelease.le⟩
    · rw [List.mem_singleton.mp hmem, hread]
      exact ⟨hwrite.trans_lt hrelease, le_rfl⟩
  apart := by
    refine List.pairwise_append.mpr ⟨h.apart.sublist hfront, List.pairwise_singleton _ _, ?_⟩
    intro a ha b hb
    rw [List.mem_singleton.mp hb]
    exact hended a ha
  flag := ⟨new, List.getLast?_concat, hread, htile⟩
  origins_eq := by
    rw [List.flatMap_append, List.flatMap_singleton, horigins]

/-- **A wait** lengthens the last segment if the value has been waiting, and otherwise adds a
segment that begins after all others have ended. -/
theorem Waits.wait
    (h : Waits target edge domain base hopLatency start source links tile time held segments
      origins) {release : ℕ} (hrelease : time < release) (origin : StorageOrigin)
    (earlier : List StorageSegment) :
    ∃ later, appendSegment (earlier ++ segments) edge tile domain time release origin held
        = earlier ++ later ∧
      Waits target edge domain base hopLatency start source links tile release true later
        (origins ++ [origin]) := by
  rcases held with _ | _
  · -- nothing to continue: a segment of its own
    have hended : ∀ segment ∈ segments, segment.readTime < time := h.flag
    have happend : appendSegment (earlier ++ segments) edge tile domain time release origin false
        = earlier ++ (segments ++ [⟨(earlier ++ segments).length, edge, tile, domain, time, release,
          [origin]⟩]) := by
      rw [appendSegment]
      rcases (earlier ++ segments).getLast? with _ | previous
      · rw [List.append_assoc]
      · simp only [Bool.false_eq_true, false_and, if_false, List.append_assoc]
    refine ⟨_, happend, h.held_until hrelease (List.Sublist.refl _) rfl rfl rfl rfl le_rfl
      (fun t ↦ ?_) (fun t hle hlt ↦ absurd hlt hle.not_gt) hended ?_⟩
    · rw [if_neg fun ht ↦ absurd ht.2 ht.1.not_gt, add_zero]
    · rw [h.origins_eq]
  · -- the last segment ends here and now
    obtain ⟨last, hlast, hread, htile⟩ := h.flag
    obtain ⟨front, rfl⟩ := List.getLast?_eq_some_iff.mp hlast
    have hmemLast : last ∈ front ++ [last] := by simp
    have hjoined : ∀ a ∈ front, a.readTime < last.writeTime := by
      intro a ha
      exact (List.pairwise_append.mp h.apart).2.2 a ha last (by simp)
    have happend : appendSegment (earlier ++ (front ++ [last])) edge tile domain time release
        origin true = earlier ++ (front
          ++ [{ last with readTime := release, origins := last.origins ++ [origin] }]) := by
      rw [appendSegment, ← List.append_assoc, List.getLast?_concat]
      simp only [true_and]
      rw [if_pos ⟨h.edge_eq last hmemLast, htile, h.domain_eq last hmemLast, hread⟩,
        List.dropLast_concat, List.append_assoc]
    refine ⟨_, happend, h.held_until hrelease (List.sublist_append_left front [last])
      (h.edge_eq last hmemLast) (h.domain_eq last hmemLast) htile rfl ?_ (fun t ↦ ?_)
      (fun t hle hlt ↦ ?_) hjoined ?_⟩
    · exact hread ▸ (h.bounds last hmemLast).1.le
    · rw [List.countP_append, List.countP_singleton]
      simp only [covers_iff, hread]
    · rw [← htile]
      exact h.located last hmemLast t (covers_iff.mpr ⟨hle, hread ▸ hlt⟩)
    · rw [← h.origins_eq, List.flatMap_append, List.flatMap_singleton, List.append_assoc]

/-- **A launch** puts the value in flight until it has arrived on the neighbouring tile. -/
theorem Waits.launch
    (h : Waits target edge domain base hopLatency start source links tile time held segments
      origins) (hhop : 0 < hopLatency) {link : LinkStep} {next : TileCoord}
    (htime : base + link.elapsedFromProducerIssue = time)
    (hnext : target.neighbor tile link.direction = some next) :
    Waits target edge domain base hopLatency start source (links ++ [link]) next
      (time + hopLatency) false segments origins where
  start_le := h.start_le.trans (Nat.le_add_right _ _)
  edge_eq := h.edge_eq
  domain_eq := h.domain_eq
  partition t := by
    have hflight : ([link].countP fun link ↦ link.inFlight base hopLatency t)
        = if time ≤ t ∧ t < time + hopLatency then 1 else 0 := by
      rw [List.countP_singleton]
      simp only [inFlight_iff, htime]
    rw [List.countP_append, hflight, ← add_assoc, h.partition t,
      indicator_add h.start_le (Nat.lt_add_of_pos_right hhop)]
  arrived := by
    intro l hl
    rcases List.mem_append.mp hl with hl | hl
    · exact (h.arrived l hl).trans (Nat.le_add_right _ _)
    · rw [List.mem_singleton.mp hl, htime]
  here := by
    rw [List.foldlM_append, h.here]
    simp [hnext]
  located := by
    intro segment hmem t ht
    -- a segment seen so far ends before the new link arrives
    have hbefore : t < time := (covers_iff.mp ht).2.trans_le (h.bounds segment hmem).2
    have hnot : ¬ base + link.elapsedFromProducerIssue + hopLatency ≤ t := by omega
    rw [tileAt, List.filter_append, List.filter_singleton]
    simp only [LinkStep.arrivedBy, hnot, decide_false, cond_false, List.append_nil]
    exact h.located segment hmem t ht
  bounds := by
    intro segment hmem
    have hb := h.bounds segment hmem
    exact ⟨hb.1, hb.2.trans (Nat.le_add_right _ _)⟩
  apart := h.apart
  flag := by
    intro segment hmem
    exact (h.bounds segment hmem).2.trans_lt (Nat.lt_add_of_pos_right hhop)
  origins_eq := h.origins_eq

end Walk

/-! ## One edge -/

/-- The holds of a plan, walked along the chain the mapping verifier has accepted. -/
theorem waits_of_appendHolds {target : TargetModel} {edge : TargetEdge} {domain : NetworkDomain}
    {base hopLatency start : ℕ} {source : TileCoord} (hhop : 0 < hopLatency)
    {earlier : List StorageSegment} {actions : List TransportAction} {index : ℕ}
    {tile tile' : TileCoord} {time : ℕ} {time' : ℤ} {links : List LinkStep} {held : Bool}
    {segments : List StorageSegment} {origins : List StorageOrigin}
    {result : List StorageSegment × Bool}
    (hchain : TransportChain target hopLatency base tile time actions tile' time')
    (hwaits : Waits target edge.id (bankDomain domain) base hopLatency start source links tile time
      held segments origins)
    (h : appendHolds edge domain base (actions.zipIdx index) (earlier ++ segments) held
      = .ok result) :
    ∃ later : List StorageSegment, ∃ reached : ℕ, time' = reached ∧
      result.1 = earlier ++ later ∧
      Waits target edge.id (bankDomain domain) base hopLatency start source
        (links ++ linksOf actions) tile' reached result.2 later
        (origins ++ holdOrigins edge.id (actions.zipIdx index)) := by
  induction actions generalizing index tile time links held segments origins with
  | nil =>
    obtain rfl := Except.ok.inj h
    rcases hchain with ⟨_, _⟩
    refine ⟨segments, time, rfl, rfl, ?_⟩
    simpa [linksOf, holdOrigins] using hwaits
  | cons action actions ih =>
    rcases action with link | hold
    · rcases hchain with _ | ⟨hsource, hlaunch, hneighbor, hrest⟩
      have htime : base + link.elapsedFromProducerIssue = time := by exact_mod_cast hlaunch
      have hlaunched := hwaits.launch hhop htime hneighbor
      obtain ⟨later, reached, hreached, hresult, hfinal⟩ :=
        ih (by exact_mod_cast hrest) hlaunched h
      refine ⟨later, reached, hreached, hresult, ?_⟩
      rw [List.append_assoc] at hfinal
      exact hfinal
    · rcases hchain with _ | _ | ⟨hon, hcapture, hrelease, hrest⟩
      rw [List.zipIdx_cons, appendHolds] at h
      split at h
      · rename_i writeTime readTime hwrite hread
        rw [checkedAdd_eq_some hwrite, checkedAdd_eq_some hread] at h
        split at h
        · cases h
        · have hcaptured : base + hold.captureElapsed = time := by exact_mod_cast hcapture
          have hreleased : time < base + hold.releaseElapsed := by exact_mod_cast hrelease
          rw [hcaptured, hon] at h
          obtain ⟨waited, happend, hwaited⟩ := hwaits.wait hreleased
            ⟨.explicitVirtualHold, edge.id, some index⟩ earlier
          rw [happend] at h
          obtain ⟨later, reached, hreached, hresult, hfinal⟩ :=
            ih (by exact_mod_cast hrest) hwaited h
          refine ⟨later, reached, hreached, hresult, ?_⟩
          rw [List.append_assoc] at hfinal
          exact hfinal
      · cases h

/-- What the segments of a value edge are, once its consumer has read it. -/
structure CoversEdge (target : TargetModel) (mapping : StagedMapping) (edge : TargetEdge)
    (producerReady : ℕ) (segments : List StorageSegment) : Prop where
  /-- The production, the plan and the use of the value. -/
  exists_waits : ∃ issue use dependence plan source,
    mapping.logicalIssueTime edge.src = .ok issue ∧
    mapping.logicalIssueTime edge.dst = .ok use ∧
    mapping.modulo.dependence edge.id = .ok dependence ∧ dependence.transport = some plan ∧
    mapping.modulo.placement edge.src = .ok source ∧
    (∀ t, (segments.countP fun segment ↦ segment.covers t)
      + ((linksOf plan.actions).countP fun link ↦
          link.inFlight issue target.interconnect.hopLatency t)
        = if issue + producerReady ≤ t ∧ t < use + edge.distance * mapping.modulo.ii
          then 1 else 0) ∧
    (∀ segment ∈ segments, ∀ t, segment.covers t = true →
      tileAt target issue target.interconnect.hopLatency (linksOf plan.actions) source.tile t
        = some segment.tile) ∧
    segments.flatMap StorageSegment.origins = holdOrigins edge.id plan.actions.zipIdx
      ++ if issue + plan.requiredSeparationCycles < use + edge.distance * mapping.modulo.ii
        then [⟨.terminalSlack, edge.id, none⟩] else []
  edge_eq : ∀ segment ∈ segments, segment.edge = edge.id
  positive : ∀ segment ∈ segments, segment.writeTime < segment.readTime
  apart : segments.Pairwise fun a b ↦ a.readTime < b.writeTime

/-- The segments added for a value edge. -/
theorem coversEdge_of_appendEdge {dfg : TargetDFG} {target : TargetModel} {mapping : StagedMapping}
    (hverified : mapping.Verified dfg target) {edge : TargetEdge} (hedge : edge ∈ dfg.edges)
    (hkind : edge.kind ≠ .memory) {earlier result : List StorageSegment}
    (h : appendEdge mapping earlier edge = .ok result) : ∃ producer producerReady later,
      dfg.findNode edge.src = some producer ∧
      producer.producerOutputReadyOffset = some producerReady ∧
      result = earlier ++ later ∧ CoversEdge target mapping edge producerReady later := by
  obtain ⟨table, hnodes, hedges⟩ := hverified.modulo.reserved
  obtain ⟨dependence, hrealized⟩ := hedges edge hedge
  obtain ⟨producer, producerReady, src, dst, plan, route, hproducer, hready, htransport,
    hseparation, hrouted⟩ := hrealized.value hkind
  have hdependence := ModuloMapping.dependence_of_entries hrealized.entries
  have hsrc := ModuloMapping.placement_of_entries hrouted.srcEntries
  have hdst := ModuloMapping.placement_of_entries hrouted.dstEntries
  rw [appendEdge, if_neg hkind, hdependence] at h
  simp only [htransport] at h
  split at h
  · cases h
  · cases h
  · rename_i issue use hissue huse
    split at h
    · cases h
    · rename_i withHolds held hholds
      have hchain := hrouted.chain (issue : ℤ)
      rw [← List.append_nil earlier] at hholds
      obtain ⟨walked, reached, hreached, hresult, hwaits⟩ :=
        waits_of_appendHolds hrouted.hopLatency_pos (by exact_mod_cast hchain)
          (.initially target edge.id (bankDomain plan.domain) issue
            target.interconnect.hopLatency (issue + producerReady) src.tile) hholds
      have harrival : reached = issue + plan.requiredSeparationCycles := by
        exact_mod_cast hreached.symm
      simp only at hresult
      simp only [List.nil_append] at hwaits
      refine ⟨producer, producerReady, ?_⟩
      -- both ends of the slack are covered by one description of the segments
      have hcovers : ∀ (later : List StorageSegment) (flag : Bool) (slack : List StorageOrigin),
          Waits target edge.id (bankDomain plan.domain) issue target.interconnect.hopLatency
            (issue + producerReady) src.tile (linksOf plan.actions) dst.tile
            (use + edge.distance * mapping.modulo.ii) flag later
            (holdOrigins edge.id plan.actions.zipIdx ++ slack) →
          slack = (if issue + plan.requiredSeparationCycles
              < use + edge.distance * mapping.modulo.ii
            then [⟨.terminalSlack, edge.id, none⟩] else []) →
          CoversEdge target mapping edge producerReady later := by
        intro later flag slack hw hslack
        exact
          { exists_waits := ⟨issue, use, dependence, plan, src, hissue, huse, hdependence,
              htransport, hsrc, hw.partition, hw.located, by rw [hw.origins_eq, hslack]⟩
            edge_eq := hw.edge_eq
            positive := fun segment hmem ↦ (hw.bounds segment hmem).1
            apart := hw.apart }
      rw [appendSlack] at h
      split at h
      · rename_i arrivalTime distanceCycles harrivalTime hdistance
        obtain rfl := checkedAdd_eq_some harrivalTime
        obtain rfl := checkedMul_eq_some hdistance
        rw [hseparation, ← harrival] at h
        split at h
        · cases h
        · rename_i consumerUseTime huseTime
          obtain rfl := checkedAdd_eq_some huseTime
          split at h
          · cases h
          · rename_i hnot
            split at h
            · rename_i hlate
              rw [hdst] at h
              obtain ⟨later, happend, hlater⟩ := hwaits.wait hlate
                ⟨.terminalSlack, edge.id, none⟩ earlier
              have hfinal := Except.ok.inj h
              rw [hresult, happend] at hfinal
              refine ⟨later, hproducer, hready, hfinal.symm, hcovers later true _ hlater ?_⟩
              rw [if_pos (harrival ▸ hlate)]
            · rename_i hlate
              have heq : reached = use + edge.distance * mapping.modulo.ii := by omega
              refine ⟨walked, hproducer, hready, ?_, hcovers walked held [] ?_ ?_⟩
              · rw [← Except.ok.inj h, hresult]
              · rw [List.append_nil, ← heq]
                exact hwaits
              · rw [if_neg (by omega)]
      · cases h

/-! ## All edges -/

/-- The segments of the edges, edge after edge. -/
theorem parts_of_appendEdges {dfg : TargetDFG} {target : TargetModel} {mapping : StagedMapping}
    (hverified : mapping.Verified dfg target) {edges : List TargetEdge}
    (hedges : ∀ edge ∈ edges, edge ∈ dfg.edges) {earlier result : List StorageSegment}
    (h : appendEdges mapping earlier edges = .ok result) :
    ∃ parts : List (List StorageSegment), result = earlier ++ parts.flatten ∧
      List.Forall₂ (fun edge part ↦ (edge.kind = .memory → part = []) ∧
        (edge.kind ≠ .memory → ∃ producer producerReady,
          dfg.findNode edge.src = some producer ∧
          producer.producerOutputReadyOffset = some producerReady ∧
          CoversEdge target mapping edge producerReady part)) edges parts := by
  induction edges generalizing earlier with
  | nil => exact ⟨[], by simpa using (Except.ok.inj h).symm, .nil⟩
  | cons edge edges ih =>
    rw [appendEdges] at h
    split at h
    · cases h
    · rename_i later hlater
      obtain ⟨parts, hresult, hparts⟩ :=
        ih (fun e he ↦ hedges e (List.mem_cons_of_mem _ he)) h
      by_cases hkind : edge.kind = .memory
      · rw [appendEdge, if_pos hkind, Except.ok.injEq] at hlater
        subst hlater
        exact ⟨[] :: parts, by simpa using hresult,
          .cons ⟨fun _ ↦ rfl, fun hne ↦ absurd hkind hne⟩ hparts⟩
      · obtain ⟨producer, producerReady, part, hproducer, hready, rfl, hcovers⟩ :=
          coversEdge_of_appendEdge hverified (hedges edge List.mem_cons_self) hkind hlater
        refine ⟨part :: parts, ?_, .cons ⟨fun hmem ↦ absurd hmem hkind,
          fun _ ↦ ⟨producer, producerReady, hproducer, hready, hcovers⟩⟩ hparts⟩
        rw [hresult, List.flatten_cons, List.append_assoc]

theorem exists_part_of_mem {R : TargetEdge → List StorageSegment → Prop} {edges : List TargetEdge}
    {parts : List (List StorageSegment)} (hparts : List.Forall₂ R edges parts)
    {segment : StorageSegment} (hmem : segment ∈ parts.flatten) :
    ∃ edge ∈ edges, ∃ part, R edge part ∧ segment ∈ part := by
  induction hparts with
  | nil => simp at hmem
  | @cons edge part edges parts hpart _ ih =>
    rw [List.flatten_cons, List.mem_append] at hmem
    rcases hmem with hmem | hmem
    · exact ⟨edge, List.mem_cons_self, part, hpart, hmem⟩
    · obtain ⟨other, hother, hrest⟩ := ih hmem
      exact ⟨other, List.mem_cons_of_mem _ hother, hrest⟩

/-- The part of an edge is what carries its id, when ids are distinct. -/
theorem part_of_filter {R : TargetEdge → List StorageSegment → Prop} {edges : List TargetEdge}
    (hR : ∀ edge part, R edge part → ∀ segment ∈ part, segment.edge = edge.id)
    {parts : List (List StorageSegment)} (hparts : List.Forall₂ R edges parts)
    (hnodup : (edges.map TargetEdge.id).Nodup) {edge : TargetEdge} (hedge : edge ∈ edges) :
    R edge (parts.flatten.filter fun segment ↦ segment.edge == edge.id) := by
  induction hparts with
  | nil => cases hedge
  | @cons first part edges parts hpart hparts ih =>
    rw [List.map_cons, List.nodup_cons] at hnodup
    rw [List.flatten_cons, List.filter_append]
    rcases List.mem_cons.mp hedge with rfl | hedge
    · have hown : part.filter (fun segment ↦ segment.edge == edge.id) = part :=
        List.filter_eq_self.mpr fun segment hmem ↦ beq_iff_eq.mpr (hR _ _ hpart segment hmem)
      have hnone : parts.flatten.filter (fun segment ↦ segment.edge == edge.id) = [] := by
        rw [List.filter_eq_nil_iff]
        intro segment hmem heq
        obtain ⟨other, hother, p, hp, hmem⟩ := exists_part_of_mem hparts hmem
        have hid := (hR _ _ hp segment hmem).symm.trans (beq_iff_eq.mp heq)
        exact hnodup.1 (List.mem_map.mpr ⟨other, hother, hid⟩)
      rw [hown, hnone, List.append_nil]
      exact hpart
    · have hnone : part.filter (fun segment ↦ segment.edge == edge.id) = [] := by
        rw [List.filter_eq_nil_iff]
        intro segment hmem heq
        have hid := (beq_iff_eq.mp heq).symm.trans (hR _ _ hpart segment hmem)
        exact hnodup.1 (List.mem_map.mpr ⟨edge, hedge, hid⟩)
      rw [hnone, List.nil_append]
      exact ih hnodup.2 hedge

/-- No hold and no slack is an origin twice. -/
theorem nodup_origins (edge : TargetEdgeId) (actions : List TransportAction) (slack : Bool) :
    (holdOrigins edge actions.zipIdx
      ++ if slack then [(⟨.terminalSlack, edge, none⟩ : StorageOrigin)] else []).Nodup := by
  have hindex : ∀ origin ∈ holdOrigins edge actions.zipIdx,
      origin.kind = .explicitVirtualHold := by
    intro origin hmem
    obtain ⟨⟨action, index⟩, -, heq⟩ := List.mem_filterMap.mp hmem
    rcases action with link | hold
    · cases heq
    · rw [← Option.some.inj heq]
  have hholds : ∀ index, (holdOrigins edge (actions.zipIdx index)).Nodup ∧
      ∀ origin ∈ holdOrigins edge (actions.zipIdx index), ∃ i ≥ index,
        origin.transportActionIndex = some i := by
    clear hindex
    induction actions with
    | nil => simp [holdOrigins]
    | cons action actions ih =>
      intro index
      obtain ⟨hnd, hlater⟩ := ih (index + 1)
      rcases action with link | hold
      · refine ⟨hnd, fun origin hmem ↦ ?_⟩
        obtain ⟨i, hi, heq⟩ := hlater origin hmem
        exact ⟨i, by omega, heq⟩
      · have hcons : holdOrigins edge ((.virtualHold hold :: actions).zipIdx index)
            = ⟨.explicitVirtualHold, edge, some index⟩
              :: holdOrigins edge (actions.zipIdx (index + 1)) := rfl
        rw [hcons]
        refine ⟨List.nodup_cons.mpr ⟨fun hmem ↦ ?_, hnd⟩, fun origin hmem ↦ ?_⟩
        · obtain ⟨i, hi, heq⟩ := hlater _ hmem
          have hsame := Option.some.inj heq
          omega
        · rcases List.mem_cons.mp hmem with rfl | hmem
          · exact ⟨index, le_rfl, rfl⟩
          · obtain ⟨i, hi, heq⟩ := hlater origin hmem
            exact ⟨i, by omega, heq⟩
  refine List.nodup_append.mpr ⟨(hholds 0).1, ?_, ?_⟩
  · split
    · exact List.nodup_singleton _
    · exact List.nodup_nil
  · intro a ha b hb hab
    subst hab
    split at hb
    · rw [List.mem_singleton] at hb
      rw [hb] at ha
      cases hindex _ ha
    · cases hb

/-- **Segments cover every wait exactly once.** Ids are dense; memory edges have no segment; and for
every value edge the segments and the flights partition the cycles from production to use, each
segment on the tile the value has reached, no two segments touching, and every hold and the terminal
slack among the origins exactly once. -/
theorem segments_cover (dfg : TargetDFG) (target : TargetModel) (mapping : StagedMapping)
    (requirements : StorageRequirements)
    (hverify : StageAssignmentVerifier.verify dfg target mapping = .ok [])
    (h : analyze dfg target mapping = .ok (.ok requirements)) :
    requirements.segments.map StorageSegment.id = List.range requirements.segments.length ∧
      (∀ segment ∈ requirements.segments, ∃ edge ∈ dfg.edges,
        edge.kind ≠ .memory ∧ segment.edge = edge.id) ∧
      ∀ edge ∈ dfg.edges,
        (edge.kind = .memory → ∀ segment ∈ requirements.segments, segment.edge ≠ edge.id) ∧
        (edge.kind ≠ .memory → ∃ producer producerReady,
          dfg.findNode edge.src = some producer ∧
          producer.producerOutputReadyOffset = some producerReady ∧
          CoversEdge target mapping edge producerReady
            (requirements.segments.filter fun segment ↦ segment.edge == edge.id) ∧
          ((requirements.segments.filter fun segment ↦ segment.edge == edge.id).flatMap
            StorageSegment.origins).Nodup) := by
  have hverified := StageAssignmentVerifier.verified_of_verify hverify
  obtain ⟨-, -, -, hedges⟩ := analyze_eq_ok h
  obtain ⟨parts, hresult, hparts⟩ := parts_of_appendEdges hverified
    (fun edge hmem ↦ TargetDFG.mem_edgesById.mp hmem) hedges
  rw [List.nil_append] at hresult
  have hnodup : (dfg.edgesById.map TargetEdge.id).Nodup :=
    (TargetDFG.edgesById_perm.map TargetEdge.id).nodup_iff.mpr hverified.modulo.graph.nodup_edges
  have hedgeOf : ∀ edge part, ((edge.kind = .memory → part = []) ∧
      (edge.kind ≠ .memory → ∃ producer producerReady,
        dfg.findNode edge.src = some producer ∧
        producer.producerOutputReadyOffset = some producerReady ∧
        CoversEdge target mapping edge producerReady part)) →
      ∀ segment ∈ part, segment.edge = edge.id := by
    intro edge part hpart segment hmem
    by_cases hkind : edge.kind = .memory
    · rw [hpart.1 hkind] at hmem
      cases hmem
    · obtain ⟨_, _, -, -, hcovers⟩ := hpart.2 hkind
      exact hcovers.edge_eq segment hmem
  refine ⟨appendEdges_invariant (fun edge _ _ ↦ keeps_numbered edge) hedges rfl, onValueEdges h,
    fun edge hedge ↦ ?_⟩
  have hpart := part_of_filter hedgeOf hparts hnodup (TargetDFG.mem_edgesById.mpr hedge)
  rw [← hresult] at hpart
  refine ⟨fun hkind segment hmem heq ↦ ?_, fun hkind ↦ ?_⟩
  · have hnone := List.filter_eq_nil_iff.mp (hpart.1 hkind) segment hmem
    exact hnone (beq_iff_eq.mpr heq)
  · obtain ⟨producer, producerReady, hproducer, hready, hcovers⟩ := hpart.2 hkind
    refine ⟨producer, producerReady, hproducer, hready, hcovers, ?_⟩
    obtain ⟨issue, use, _, plan, _, -, -, -, -, -, -, -, horigins⟩ := hcovers.exists_waits
    rw [horigins]
    have hnd := nodup_origins edge.id plan.actions (decide
      (issue + plan.requiredSeparationCycles < use + edge.distance * mapping.modulo.ii))
    simpa using hnd

/-- The two operands of the sum wait for one cycle on its tile, one of them in a hold of its route
and the other after its hop. -/
theorem seededSum_segments_cover :
    CoversEdge shippedTarget seededSumAllocated.staged
        ⟨0, 0, 2, 1, .data 0 (some ⟨[⟨0, .constantRef 0⟩]⟩)⟩ 0
        [⟨0, 0, ⟨0, 0⟩, .data, 1, 2, [⟨.explicitVirtualHold, 0, some 0⟩]⟩] ∧
      CoversEdge shippedTarget seededSumAllocated.staged
        ⟨1, 1, 2, 1, .data 1 (some ⟨[⟨0, .constantRef 1⟩]⟩)⟩ 0
        [⟨1, 1, ⟨0, 0⟩, .data, 1, 2, [⟨.terminalSlack, 1, none⟩]⟩] := by
  obtain ⟨-, -, hedges⟩ := segments_cover seededSumDFG shippedTarget seededSumAllocated.staged
    seededSumAllocated.storageRequirements (by decide +kernel) (by decide +kernel)
  have hready : ∀ node ∈ seededSumDFG.nodes, node.producerOutputReadyOffset = some 0 := by decide
  constructor
  · obtain ⟨producer, producerReady, hproducer, hoffset, hcovers, -⟩ :=
      (hedges ⟨0, 0, 2, 1, .data 0 (some ⟨[⟨0, .constantRef 0⟩]⟩)⟩ (by decide)).2 (by decide)
    have hzero := hready producer (TargetDFG.mem_of_findNode hproducer)
    obtain rfl := Option.some.inj (hzero.symm.trans hoffset)
    exact hcovers
  · obtain ⟨producer, producerReady, hproducer, hoffset, hcovers, -⟩ :=
      (hedges ⟨1, 1, 2, 1, .data 1 (some ⟨[⟨0, .constantRef 1⟩]⟩)⟩ (by decide)).2 (by decide)
    have hzero := hready producer (TargetDFG.mem_of_findNode hproducer)
    obtain rfl := Option.some.inj (hzero.symm.trans hoffset)
    exact hcovers

end StorageRequirementAnalysis

end PredicatedMesh
