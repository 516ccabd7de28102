import PredicatedMesh.Schedule.EventStreams

/-!
# The origin of time and the kernel window

The materializer moves the events it has listed so that the first one happens in cycle zero or
later, and then cuts the periods of `ii` cycles in which every stream has an event down to those in
which no boundary event falls. It cuts at both ends only, so a boundary event in the middle would be
an error; there is none, because the injections of an edge come in consecutive periods that begin no
later than the streams, and a live-out is used no earlier than the last iteration of its source.
-/

namespace PredicatedMesh

open Scan

namespace ScheduleMaterializer

section Origin

variable {dfg : TargetDFG} {target : TargetModel} {mapping : RFAllocatedMapping} {tripCount : ℕ}
variable {streams : List PeriodicStream} {shots : List OneShot}

/-! ## The spans of what is listed -/

/-- From when to when the listed streams and boundary events last. -/
def spans (streams : List PeriodicStream) (shots : List OneShot) : List (ℤ × ℤ) :=
  (streams.map fun stream ↦ (stream.firstLogicalTime,
    stream.firstLogicalTime + ((stream.count - 1 : ℕ) : ℤ) * stream.period))
  ++ shots.map fun shot ↦ (shot.logicalTime, shot.logicalTime)

/-- A stream that carries a key starts where the stream of the loop with this key does. -/
theorem Carries.start_eq {key : PeriodicKey} {stream : PeriodicStream}
    (h : Carries dfg mapping tripCount key stream) (hv : mapping.Verified dfg target) {time : ℕ}
    {first last : ℤ} (hstream : Stream dfg mapping tripCount key time first last) :
    stream.event.logicalIteration = first ∧
      stream.firstLogicalTime = time + first * mapping.staged.modulo.ii := by
  have hgraph := hv.staged.modulo.graph
  have hids := StorageRequirementAnalysis.nodup_ids hv.requirements
  obtain ⟨time', last', hstream', htime⟩ := h.genuine
  obtain ⟨hfirst, -⟩ := hstream'.range_unique hgraph hids hstream
  obtain rfl := hstream'.time_unique hgraph hids hstream rfl
  exact ⟨hfirst, by rw [htime, hfirst]⟩

/-- The listed stream of a stream of the loop. -/
theorem exists_carrier (hv : mapping.Verified dfg target)
    (h : List.Forall₂ (Carries dfg mapping tripCount) (streamKeys dfg mapping) streams)
    {key : PeriodicKey} {time : ℕ} {first last : ℤ}
    (hstream : Stream dfg mapping tripCount key time first last) :
    ∃ stream ∈ streams, Carries dfg mapping tripCount key stream ∧
      stream.event.logicalIteration = first ∧
      stream.firstLogicalTime = time + first * mapping.staged.modulo.ii := by
  obtain ⟨stream, hmem, hcarries⟩ := exists_of_forall₂ h key (mem_streamKeys hstream)
  exact ⟨stream, hmem, hcarries, hcarries.start_eq hv hstream⟩

theorem spanning (hv : mapping.Verified dfg target) (hpos : tripCount ≠ 0)
    (hstreams : List.Forall₂ (Carries dfg mapping tripCount) (streamKeys dfg mapping) streams)
    (hshots : List.Forall₂ (CarriesOnce dfg mapping tripCount) (shotNames dfg tripCount) shots) :
    Spanning dfg mapping tripCount (spans streams shots) := by
  have hgraph := hv.staged.modulo.graph
  have hids := StorageRequirementAnalysis.nodup_ids hv.requirements
  -- the span of a listed stream is that of the stream it stands for
  have hspan : ∀ stream ∈ streams, ∀ key, Carries dfg mapping tripCount key stream →
      ∀ time last, Stream dfg mapping tripCount key time stream.event.logicalIteration last →
        stream.firstLogicalTime
            = time + stream.event.logicalIteration * mapping.staged.modulo.ii →
        stream.firstLogicalTime + ((stream.count - 1 : ℕ) : ℤ) * stream.period
          = time + last * mapping.staged.modulo.ii := by
    intro stream _ key hcarries time last hstream htime
    have hcast : ((tripCount - 1 : ℕ) : ℤ) = (tripCount : ℤ) - 1 := by omega
    rw [htime, hcarries.count_eq, hcarries.period_eq, hcast, hstream.last_eq]
    ring
  constructor
  · intro span hmem
    rcases List.mem_append.mp hmem with hmem | hmem
    · obtain ⟨stream, hlisted, rfl⟩ := List.mem_map.mp hmem
      obtain ⟨key, -, hcarries⟩ := exists_of_forall₂ hstreams.flip stream hlisted
      obtain ⟨time, last, hstream, htime⟩ := hcarries.genuine
      obtain ⟨hfirst, hlast, -⟩ := hstream.spans hpos
      dsimp only
      rw [hspan stream hlisted key hcarries time last hstream htime, htime]
      exact ⟨hfirst, hlast⟩
    · obtain ⟨shot, hlisted, rfl⟩ := List.mem_map.mp hmem
      obtain ⟨name, -, hcarries⟩ := exists_of_forall₂ hshots.flip shot hlisted
      exact ⟨⟨name, hcarries.occurs⟩, ⟨name, hcarries.occurs⟩⟩
  · rintro t ⟨name, hoccurs⟩
    by_cases hname : ∀ key iteration, name ≠ .periodic key iteration
    · obtain ⟨shot, hmem, hcarries⟩ :=
        exists_of_forall₂ hshots name ((mem_shotNames hoccurs).mpr hname)
      obtain rfl := hoccurs.cycle_unique hgraph hids hcarries.occurs rfl
      exact ⟨_, List.mem_append_right _ (List.mem_map_of_mem hmem), le_rfl, le_rfl⟩
    · simp only [not_forall, not_not] at hname
      obtain ⟨key, iteration, rfl⟩ := hname
      obtain ⟨time, first, last, hstream, hfirst, hlast, rfl⟩ := hoccurs.of_periodic
      obtain ⟨stream, hmem, hcarries, rfl, htime⟩ := exists_carrier hv hstreams hstream
      obtain ⟨hlower, hupper⟩ := (hstream.spans hpos).2.2 iteration hfirst hlast
      refine ⟨_, List.mem_append_left _ (List.mem_map_of_mem hmem), ?_, ?_⟩
      · simp only [htime, Nat.cast_zero, zero_add]
        exact hlower
      · simp only [hspan stream hmem key hcarries time last hstream htime, Nat.cast_zero, zero_add]
        exact hupper

/-! ## The shift and the number of cycles -/

theorem shifted_eq_ok {shift logical : ℤ} {cycle : ℕ} (h : shifted shift logical = .ok cycle) :
    (cycle : ℤ) = logical + shift := by
  unfold shifted at h
  split at h
  · cases h
  · rename_i value hvalue
    split at h
    · cases h
    · rename_i hnonneg
      rw [← Except.ok.inj h, Int.toNat_of_nonneg (not_lt.mp hnonneg), addSigned_eq_some hvalue]

theorem shifted_of_le {shift logical : ℤ} (hlogical : int64.Has logical)
    (hnonneg : 0 ≤ logical + shift) (hle : logical + shift ≤ int64Max) :
    shifted shift logical = .ok (logical + shift).toNat := by
  have hmin : int64Min ≤ 0 := by decide
  rw [shifted, addSigned_of_has hlogical (int64_has.mpr ⟨by omega, hle⟩)]
  simp only [if_neg (not_lt.mpr hnonneg)]

theorem map_fst_spans : (spans streams shots).map Prod.fst
    = streams.map PeriodicStream.firstLogicalTime ++ shots.map OneShot.logicalTime := by
  simp [spans, Function.comp_def]

theorem map_snd_spans {tails : List ℤ} (h : streams.mapM account = .ok tails) :
    (spans streams shots).map Prod.snd = tails ++ shots.map OneShot.logicalTime := by
  have htails := map_eq_of_forall₂ (f := fun stream : PeriodicStream ↦
    stream.firstLogicalTime + ((stream.count - 1 : ℕ) : ℤ) * stream.period) (g := id)
    (fun stream tail h ↦ (account_eq_ok h).symm) (mapM_eq_ok.mp h)
  rw [List.map_id] at htails
  simp [spans, Function.comp_def, ← htails]

/-- The first event is moved to cycle zero when it lies before it, and the last event is in the last
cycle. -/
theorem timeOrigin_spec (hspanning : Spanning dfg mapping tripCount (spans streams shots))
    (hfits : ∀ time ∈ EventTime dfg mapping tripCount, int64Min ≤ time ∧ time ≤ int64Max)
    {origin : ℕ × ℕ} (h : timeOrigin streams shots = .ok origin) :
    spans streams shots ≠ [] ∧
      (∀ time, IsLeast (EventTime dfg mapping tripCount) time →
        (origin.1 : ℤ) = if time < 0 then -time else 0) ∧
      ∀ time, IsGreatest (EventTime dfg mapping tripCount) time →
        (origin.2 : ℤ) = time + origin.1 + 1 := by
  obtain ⟨tails, htails, h⟩ := bind_eq_ok.mp h
  dsimp only at h
  rw [← map_fst_spans, ← map_snd_spans htails] at h
  split at h
  · cases h
  rename_i hsome
  split at h
  · cases h
  obtain ⟨last, hlast, h⟩ := bind_eq_ok.mp h
  split at h
  · cases h
  obtain rfl := Except.ok.inj h
  have hne : spans streams shots ≠ [] := fun hnil ↦ by
    rw [hnil] at hsome
    exact hsome (Or.inl rfl)
  obtain ⟨hleast, hgreatest⟩ := hspanning.extremes hne hfits
  have hshift : ∀ m : ℤ, (((if m < 0 then -m else 0).toNat : ℕ) : ℤ) = if m < 0 then -m else 0 := by
    intro m
    split <;> omega
  refine ⟨hne, fun time htime ↦ ?_, fun time htime ↦ ?_⟩
  · rw [htime.unique hleast]
    exact hshift _
  · rw [htime.unique hgreatest]
    dsimp only
    rw [hshift]
    push_cast
    rw [shifted_eq_ok hlast]

theorem exists_timeOrigin {request : ScheduleMaterializationRequest} {shift : ℕ}
    (hs : Schedulable dfg target mapping request.tripCount shift)
    (hstreams : List.Forall₂ (Carries dfg mapping request.tripCount) (streamKeys dfg mapping)
      streams)
    (hspanning : Spanning dfg mapping request.tripCount (spans streams shots))
    (hne : spans streams shots ≠ [])
    (hshift : ∀ time, IsLeast (EventTime dfg mapping request.tripCount) time →
      (shift : ℤ) = if time < 0 then -time else 0) :
    ∃ origin, timeOrigin streams shots = .ok origin := by
  obtain ⟨tails, htails⟩ := exists_mapM fun stream hmem ↦ by
    obtain ⟨key, -, hcarries⟩ := exists_of_forall₂ hstreams.flip stream hmem
    exact exists_account hs hcarries
  have hfits : ∀ time ∈ EventTime dfg mapping request.tripCount,
      int64Min ≤ time ∧ time ≤ int64Max := fun time htime ↦
    int64_has.mp (hs.fits.has hs.shift_le htime).1
  obtain ⟨hleast, hgreatest⟩ := hspanning.extremes hne hfits
  have hmove := hshift _ hleast
  have hfirst := hs.fits.has hs.shift_le hleast.1
  have hlast := hs.fits.has hs.shift_le hgreatest.1
  have hle := hgreatest.2 hleast.1
  have hshiftLe := hs.shift_le
  have hmin : int64Min = -int64Max - 1 := by decide
  have hmax : (int64Max : ℤ) < uint64Max := by decide
  refine ⟨((shift : ℤ).toNat,
    (((spans streams shots).map Prod.snd).foldl max int64Min + shift).toNat + 1),
    bind_eq_ok.mpr ⟨tails, htails, ?_⟩⟩
  dsimp only
  rw [← map_fst_spans, ← map_snd_spans htails, if_neg (by omega), if_neg (by omega), ← hmove,
    shifted_of_le hlast.1 (by omega) (by omega)]
  exact bind_eq_ok.mpr ⟨_, rfl, if_neg (by omega)⟩

end Origin

/-! ## Moved to the origin -/

theorem shiftAll_spec {α : Type} {time : α → ℤ} {message : String} {shift : ℤ} {items : List α}
    {moved : List (Timed α)} (h : shiftAll time message shift items = .ok moved) :
    List.Forall₂ (fun item timed ↦ timed.item = item ∧ (timed.cycle : ℤ) = time item + shift) items
      moved := by
  refine forall₂_of_mapM h fun item _ timed htimed ↦ ?_
  obtain ⟨cycle, hcycle, htimed⟩ := bind_eq_ok.mp htimed
  obtain ⟨_, -, htimed⟩ := bind_eq_ok.mp htimed
  obtain rfl := Except.ok.inj htimed
  exact ⟨rfl, shifted_eq_ok hcycle⟩

theorem exists_shiftAll {α : Type} {time : α → ℤ} {message : String} {shift : ℤ} {items : List α}
    (h : ∀ item ∈ items, int64.Has (time item) ∧ 0 ≤ time item + shift
      ∧ time item + shift ≤ int64Max) :
    ∃ moved, shiftAll time message shift items = .ok moved := by
  refine exists_mapM fun item hmem ↦ ?_
  obtain ⟨hhas, hnonneg, hle⟩ := h item hmem
  have hcycle : (((time item + shift).toNat : ℕ) : ℤ) ≤ int64Max := by omega
  exact ⟨_, bind_eq_ok.mpr ⟨_, shifted_of_le hhas hnonneg hle,
    bind_eq_ok.mpr ⟨_, orOverflow_eq_ok.mpr (toSigned_of_le hcycle), rfl⟩⟩⟩

section Placed

variable (dfg : TargetDFG) (mapping : RFAllocatedMapping) (tripCount shift : ℕ)

/-- A listed stream, and the cycle of its first event. -/
structure Placed (key : PeriodicKey) (stream : Timed PeriodicStream) : Prop where
  carries : Carries dfg mapping tripCount key stream.item
  cycle_eq : (stream.cycle : ℤ) = stream.item.firstLogicalTime + shift

/-- A listed boundary event and its cycle. -/
structure PlacedOnce (name : EventName) (shot : Timed OneShot) : Prop where
  carries : CarriesOnce dfg mapping tripCount name shot.item
  cycle_eq : (shot.cycle : ℤ) = shot.item.logicalTime + shift

/-- Everything that happens, in its place. -/
structure Listed (streams : List (Timed PeriodicStream)) (shots : List (Timed OneShot)) :
    Prop where
  streams : List.Forall₂ (Placed dfg mapping tripCount shift) (streamKeys dfg mapping) streams
  shots : List.Forall₂ (PlacedOnce dfg mapping tripCount shift) (shotNames dfg tripCount) shots

end Placed

section Window

variable {dfg : TargetDFG} {target : TargetModel} {mapping : RFAllocatedMapping}
variable {tripCount shift : ℕ}

/-- Iteration `j` of a placed stream. -/
theorem Placed.occursAt {key : PeriodicKey} {stream : Timed PeriodicStream}
    (h : Placed dfg mapping tripCount shift key stream) {j : ℕ} (hj : j < tripCount) :
    OccursAt dfg mapping tripCount shift
      (.periodic key (stream.item.event.logicalIteration + j))
      (stream.cycle + j * mapping.staged.modulo.ii : ℕ) := by
  obtain ⟨time, last, hstream, htime⟩ := h.carries.genuine
  have hlast := hstream.last_eq
  convert OccursAt.periodic hstream (by omega : _ ≤ stream.item.event.logicalIteration + j)
    (by omega) using 1
  push_cast
  rw [h.cycle_eq, htime]
  ring

theorem Placed.eventFor {key : PeriodicKey} {stream : Timed PeriodicStream}
    (h : Placed dfg mapping tripCount shift key stream) (j : ℕ) :
    EventFor dfg mapping tripCount (.periodic key (stream.item.event.logicalIteration + j))
      (stream.item.event.advance j) :=
  h.carries.event.at _

theorem PlacedOnce.occursAt {name : EventName} {shot : Timed OneShot}
    (h : PlacedOnce dfg mapping tripCount shift name shot) :
    OccursAt dfg mapping tripCount shift name shot.cycle := by
  have hmoved := h.carries.occurs.shift shift
  rw [h.cycle_eq]
  simpa using hmoved

theorem Listed.exists_stream {streams : List (Timed PeriodicStream)} {shots : List (Timed OneShot)}
    (h : Listed dfg mapping tripCount shift streams shots) (hv : mapping.Verified dfg target)
    {key : PeriodicKey} {time : ℕ} {first last : ℤ}
    (hstream : Stream dfg mapping tripCount key time first last) :
    ∃ stream ∈ streams, Placed dfg mapping tripCount shift key stream ∧
      stream.item.event.logicalIteration = first ∧
      (stream.cycle : ℤ) = shift + time + first * mapping.staged.modulo.ii := by
  obtain ⟨stream, hmem, hplaced⟩ := exists_of_forall₂ h.streams key (mem_streamKeys hstream)
  obtain ⟨hfirst, htime⟩ := hplaced.carries.start_eq hv hstream
  refine ⟨stream, hmem, hplaced, hfirst, ?_⟩
  rw [hplaced.cycle_eq, htime]
  ring

theorem Listed.exists_shot {streams : List (Timed PeriodicStream)} {shots : List (Timed OneShot)}
    (h : Listed dfg mapping tripCount shift streams shots) (hv : mapping.Verified dfg target)
    {name : EventName} {cycle : ℤ} (hoccurs : OccursAt dfg mapping tripCount shift name cycle)
    (hname : ∀ key iteration, name ≠ .periodic key iteration) :
    ∃ shot ∈ shots, PlacedOnce dfg mapping tripCount shift name shot ∧
      (shot.cycle : ℤ) = cycle := by
  obtain ⟨shot, hmem, hplaced⟩ :=
    exists_of_forall₂ h.shots name ((mem_shotNames (hoccurs.shift 0)).mpr hname)
  exact ⟨shot, hmem, hplaced, hplaced.occursAt.cycle_unique hv.staged.modulo.graph
    (StorageRequirementAnalysis.nodup_ids hv.requirements) hoccurs rfl⟩

/-! ## The window -/

/-- The periods in which a stream has an event. -/
def InStream (ii : ℕ) (stream : Timed PeriodicStream) (period : ℕ) : Prop :=
  stream.cycle / ii ≤ period ∧ period ≤ stream.cycle / ii + (stream.item.count - 1)

theorem commonPeriods_spec {ii : ℕ} {streams : List (Timed PeriodicStream)} {first last : ℕ}
    {common : ℕ × ℕ} (h : commonPeriods ii streams first last = .ok common) (p : ℕ) :
    common.1 ≤ p ∧ p ≤ common.2 ↔
      (first ≤ p ∧ p ≤ last) ∧ ∀ stream ∈ streams, InStream ii stream p := by
  induction streams generalizing first last with
  | nil =>
    obtain rfl := Except.ok.inj h
    simp
  | cons stream streams ih =>
    obtain ⟨lastPeriod, hlast, h⟩ := bind_eq_ok.mp h
    obtain rfl := addUnsigned_eq_some (orOverflow_eq_ok.mp hlast)
    rw [ih h, max_le_iff, le_min_iff, List.forall_mem_cons, InStream]
    tauto

theorem exists_commonPeriods {ii : ℕ} {streams : List (Timed PeriodicStream)}
    (h : ∀ stream ∈ streams, stream.cycle / ii + (stream.item.count - 1) ≤ uint64Max)
    (first last : ℕ) : ∃ common, commonPeriods ii streams first last = .ok common := by
  induction streams generalizing first last with
  | nil => exact ⟨_, rfl⟩
  | cons stream streams ih =>
    obtain ⟨hstream, hrest⟩ := List.forall_mem_cons.mp h
    obtain ⟨common, hcommon⟩ := ih hrest (max first (stream.cycle / ii))
      (min last (stream.cycle / ii + (stream.item.count - 1)))
    exact ⟨common, bind_eq_ok.mpr ⟨_, orOverflow_eq_ok.mpr (addUnsigned_of_le hstream), hcommon⟩⟩

/-- What is dropped at the front is busy, and what the rest begins with is not. -/
theorem skipFront_spec {busy : ℕ → Bool} (hbusy : ∀ p, busy p = true → p < uint64Max)
    {last fuel first : ℕ} (hfuel : last + 1 - first ≤ fuel) :
    (skipFront busy last fuel first).2 = last ∧ first ≤ (skipFront busy last fuel first).1 ∧
      (∀ p, first ≤ p → p < (skipFront busy last fuel first).1 → busy p = true) ∧
      ((skipFront busy last fuel first).1 ≤ last →
        busy (skipFront busy last fuel first).1 = false) := by
  induction fuel generalizing first with
  | zero =>
    rw [skipFront]
    refine ⟨rfl, le_rfl, fun p hle hlt ↦ absurd hlt (not_lt.mpr hle), fun hle ↦ ?_⟩
    dsimp only at hle
    omega
  | succ fuel ih =>
    rw [skipFront]
    split
    · rename_i hskip
      have hlt := hbusy first hskip.2
      rw [if_neg hlt.ne]
      obtain ⟨hlast, hle, hall, hnext⟩ := ih (show last + 1 - (first + 1) ≤ fuel by omega)
      refine ⟨hlast, by omega, fun p hp hlt ↦ ?_, hnext⟩
      rcases Nat.eq_or_lt_of_le hp with rfl | hp
      · exact hskip.2
      · exact hall p hp hlt
    · rename_i hstop
      refine ⟨rfl, le_rfl, fun p hle hlt ↦ absurd hlt (not_lt.mpr hle), fun hle ↦ ?_⟩
      simpa [hle] using hstop

/-- What is dropped at the back is busy, and what the rest ends with is not. -/
theorem skipBack_spec {busy : ℕ → Bool} {first fuel last : ℕ} (hfuel : last + 1 - first ≤ fuel) :
    (∀ p, (skipBack busy first fuel last).1 ≤ p → p ≤ (skipBack busy first fuel last).2 →
        first ≤ p ∧ p ≤ last) ∧
      (∀ p, first ≤ p → p ≤ last →
        ((skipBack busy first fuel last).1 ≤ p ∧ p ≤ (skipBack busy first fuel last).2)
          ∨ busy p = true) ∧
      ((skipBack busy first fuel last).1 ≤ (skipBack busy first fuel last).2 →
        (skipBack busy first fuel last).1 = first ∧
          busy (skipBack busy first fuel last).2 = false) := by
  induction fuel generalizing last with
  | zero =>
    simp only [skipBack]
    exact ⟨fun p h h' ↦ ⟨h, h'⟩, fun p h h' ↦ .inl ⟨h, h'⟩, fun h ↦ by omega⟩
  | succ fuel ih =>
    rw [skipBack]
    split
    · rename_i hskip
      split
      · rename_i hzero
        subst hzero
        refine ⟨fun p h h' ↦ by omega, fun p _ hp ↦ .inr ?_, fun h ↦ by omega⟩
        rw [Nat.le_zero.mp hp]
        exact hskip.2
      · obtain ⟨hsub, hrest, hends⟩ := ih (show last - 1 + 1 - first ≤ fuel by omega)
        refine ⟨fun p h h' ↦ ?_, fun p h h' ↦ ?_, hends⟩
        · have := hsub p h h'
          omega
        · rcases Nat.eq_or_lt_of_le h' with rfl | hlt
          · exact .inr hskip.2
          · exact hrest p h (by omega)
    · rename_i hstop
      refine ⟨fun p h h' ↦ ⟨h, h'⟩, fun p h h' ↦ .inl ⟨h, h'⟩, fun hle ↦ ⟨rfl, ?_⟩⟩
      simpa [hle] using hstop

/-- Dropping busy periods at both ends drops only busy periods, and leaves ends that are not. -/
theorem trim_spec {busy : ℕ → Bool} (hbusy : ∀ p, busy p = true → p < uint64Max)
    {common front window : ℕ × ℕ}
    (hfront : skipFront busy common.2 (common.2 + 1 - common.1) common.1 = front)
    (hwindow : skipBack busy front.1 (front.2 + 1 - front.1) front.2 = window) :
    (∀ p, window.1 ≤ p → p ≤ window.2 → common.1 ≤ p ∧ p ≤ common.2) ∧
      (∀ p, common.1 ≤ p → p ≤ common.2 → busy p = false → window.1 ≤ p ∧ p ≤ window.2) ∧
      (window.1 ≤ window.2 → busy window.1 = false ∧ busy window.2 = false) := by
  obtain ⟨hlast, hle, hdropped, hnext⟩ := skipFront_spec hbusy (le_refl (common.2 + 1 - common.1))
  obtain ⟨hsub, hrest, hends⟩ :=
    @skipBack_spec busy front.1 _ front.2 (le_refl (front.2 + 1 - front.1))
  rw [hfront] at hlast hle hdropped hnext
  rw [hwindow] at hsub hrest hends
  refine ⟨fun p hfirst hend ↦ ?_, fun p hfirst hend hfree ↦ ?_, fun hne ↦ ?_⟩
  · have hmem := hsub p hfirst hend
    omega
  · have hafter : front.1 ≤ p := by
      by_contra hbefore
      rw [hdropped p hfirst (not_le.mp hbefore)] at hfree
      cases hfree
    rcases hrest p hafter (by omega) with hmem | hbusy
    · exact hmem
    · rw [hbusy] at hfree
      cases hfree
  · obtain ⟨hfirst, hend⟩ := hends hne
    have hmem := hsub window.2 hne le_rfl
    rw [hfirst]
    exact ⟨hnext (by omega), hend⟩

theorem hasOneShotInPeriod_iff {ii : ℕ} {shots : List (Timed OneShot)} {period : ℕ} :
    hasOneShotInPeriod ii shots period = true ↔ ∃ shot ∈ shots, shot.cycle / ii = period := by
  simp [hasOneShotInPeriod]

section Periods

variable {ii : ℕ} {streams : List (Timed PeriodicStream)} {shots : List (Timed OneShot)}

theorem mem_common_iff (hne : streams ≠ [])
    (hlast : ∀ stream ∈ streams, stream.cycle / ii + (stream.item.count - 1) ≤ uint64Max)
    {common : ℕ × ℕ} (h : commonPeriods ii streams 0 uint64Max = .ok common) (p : ℕ) :
    common.1 ≤ p ∧ p ≤ common.2 ↔ ∀ stream ∈ streams, InStream ii stream p := by
  rw [commonPeriods_spec h]
  obtain ⟨stream, hstream⟩ := List.exists_mem_of_ne_nil _ hne
  refine ⟨fun h ↦ h.2, fun h ↦ ⟨⟨p.zero_le, ?_⟩, h⟩⟩
  exact (h stream hstream).2.trans (hlast stream hstream)

theorem lt_of_hasOneShotInPeriod (hfits : ∀ shot ∈ shots, shot.cycle / ii < uint64Max) {p : ℕ}
    (h : hasOneShotInPeriod ii shots p = true) : p < uint64Max := by
  obtain ⟨shot, hshot, rfl⟩ := hasOneShotInPeriod_iff.mp h
  exact hfits shot hshot

/-- **The kernel window** holds the periods in which every stream has an event and no boundary event
falls. -/
theorem kernelWindow_spec (hne : streams ≠ [])
    (hfits : ∀ shot ∈ shots, shot.cycle / ii < uint64Max)
    (hlast : ∀ stream ∈ streams, stream.cycle / ii + (stream.item.count - 1) ≤ uint64Max)
    {window : ℕ × ℕ} (h : kernelWindow ii streams shots = .ok window) (p : ℕ) :
    window.1 ≤ p ∧ p ≤ window.2 ↔
      (∀ stream ∈ streams, InStream ii stream p) ∧ hasOneShotInPeriod ii shots p = false := by
  have hempty : ¬ streams.isEmpty = true := by simpa using hne
  unfold kernelWindow at h
  dsimp only at h
  rw [if_neg hempty] at h
  obtain ⟨common, hcommon, h⟩ := bind_eq_ok.mp h
  split at h
  · cases h
  rename_i hclean
  obtain rfl := Except.ok.inj h
  obtain ⟨hsub, hrest, -⟩ :=
    @trim_spec _ (fun p ↦ lt_of_hasOneShotInPeriod hfits) common _ _ rfl rfl
  rw [← mem_common_iff hne hlast hcommon]
  constructor
  · rintro ⟨hfirst, hend⟩
    refine ⟨hsub p hfirst hend, ?_⟩
    by_contra hbusy
    obtain ⟨shot, hshot, rfl⟩ := hasOneShotInPeriod_iff.mp (by simpa using hbusy)
    exact hclean ⟨hfirst.trans hend, List.any_eq_true.mpr ⟨shot, hshot, by simp [hfirst, hend]⟩⟩
  · rintro ⟨⟨hfirst, hend⟩, hfree⟩
    exact hrest p hfirst hend hfree

/-- Nothing stops the window when boundary events keep to the ends of the common periods. -/
theorem exists_kernelWindow (hne : streams ≠ [])
    (hfits : ∀ shot ∈ shots, shot.cycle / ii < uint64Max)
    (hlast : ∀ stream ∈ streams, stream.cycle / ii + (stream.item.count - 1) ≤ uint64Max)
    (hends : ∀ shot ∈ shots,
      (∀ q, (∀ stream ∈ streams, InStream ii stream q) → q ≤ shot.cycle / ii →
        hasOneShotInPeriod ii shots q = true) ∨
      ∀ q, (∀ stream ∈ streams, InStream ii stream q) → shot.cycle / ii ≤ q →
        hasOneShotInPeriod ii shots q = true) :
    ∃ window, kernelWindow ii streams shots = .ok window := by
  have hempty : ¬ streams.isEmpty = true := by simpa using hne
  obtain ⟨common, hcommon⟩ := exists_commonPeriods hlast 0 uint64Max
  have hall := mem_common_iff hne hlast hcommon
  obtain ⟨hsub, -, htrimmed⟩ :=
    @trim_spec _ (fun p ↦ lt_of_hasOneShotInPeriod hfits) common _ _ rfl rfl
  unfold kernelWindow
  dsimp only
  rw [if_neg hempty]
  refine ⟨_, bind_eq_ok.mpr ⟨common, hcommon, if_neg ?_⟩⟩
  rintro ⟨hle, hany⟩
  obtain ⟨shot, hshot, hmem⟩ := List.any_eq_true.mp hany
  obtain ⟨hfirst, hend⟩ := htrimmed hle
  simp only [Bool.and_eq_true, decide_eq_true_eq] at hmem
  -- the end of the window on one side of the event would be busy
  rcases hends shot hshot with hbusy | hbusy
  · rw [hbusy _ ((hall _).mp (hsub _ le_rfl hle)) hmem.1] at hfirst
    cases hfirst
  · rw [hbusy _ ((hall _).mp (hsub _ hle le_rfl)) hmem.2] at hend
    cases hend

end Periods

/-! ## The kernel periods of a loop -/

theorem inStream_iff {key : PeriodicKey} {stream : Timed PeriodicStream}
    (h : Placed dfg mapping tripCount shift key stream) (hpos : tripCount ≠ 0)
    (hii : 0 < mapping.staged.modulo.ii) {p : ℕ} : InStream mapping.staged.modulo.ii stream p ↔
      ∃ j < tripCount, (stream.cycle + j * mapping.staged.modulo.ii) / mapping.staged.modulo.ii
        = p := by
  rw [InStream, h.carries.count_eq]
  constructor
  · rintro ⟨hfirst, hlast⟩
    refine ⟨p - stream.cycle / mapping.staged.modulo.ii, by omega, ?_⟩
    rw [Nat.add_mul_div_right _ _ hii]
    omega
  · rintro ⟨j, hj, rfl⟩
    rw [Nat.add_mul_div_right _ _ hii]
    omega

end Window

end ScheduleMaterializer

/-- The periods in which every stream of the loop has an event and no boundary event falls. -/
def KernelPeriod (dfg : TargetDFG) (mapping : RFAllocatedMapping) (tripCount shift period : ℕ) :
    Prop :=
  (∀ key time first last, Stream dfg mapping tripCount key time first last →
    ∃ iteration, first ≤ iteration ∧ iteration ≤ last ∧
      ((shift : ℤ) + time + iteration * mapping.staged.modulo.ii) / mapping.staged.modulo.ii
        = period) ∧
  ∀ name cycle, OccursAt dfg mapping tripCount shift name cycle →
    (∀ key iteration, name ≠ .periodic key iteration) → cycle / mapping.staged.modulo.ii ≠ period

namespace ScheduleMaterializer.Listed

variable {dfg : TargetDFG} {target : TargetModel} {mapping : RFAllocatedMapping}
variable {tripCount shift : ℕ} {streams : List (Timed PeriodicStream)}
variable {shots : List (Timed OneShot)}

/-- The cycles of what is listed fit. -/
theorem fits (h : Listed dfg mapping tripCount shift streams shots) (hpos : tripCount ≠ 0)
    (hii : 0 < mapping.staged.modulo.ii)
    (hlt : ∀ name cycle, OccursAt dfg mapping tripCount shift name cycle → cycle < int64Max) :
    (∀ shot ∈ shots, shot.cycle / mapping.staged.modulo.ii < uint64Max) ∧
      ∀ stream ∈ streams, stream.cycle / mapping.staged.modulo.ii + (stream.item.count - 1)
        ≤ uint64Max := by
  have hmax : (int64Max : ℤ) ≤ uint64Max := by decide
  constructor
  · intro shot hshot
    obtain ⟨name, -, hplaced⟩ := exists_of_forall₂ h.shots.flip shot hshot
    have hcycle := hlt _ _ hplaced.occursAt
    have hdiv := Nat.div_le_self shot.cycle mapping.staged.modulo.ii
    omega
  · intro stream hstream
    obtain ⟨key, -, hplaced⟩ := exists_of_forall₂ h.streams.flip stream hstream
    have hcycle := hlt _ _ (hplaced.occursAt (Nat.sub_one_lt hpos))
    have hdiv := Nat.div_le_self (stream.cycle + (tripCount - 1) * mapping.staged.modulo.ii)
      mapping.staged.modulo.ii
    rw [Nat.add_mul_div_right _ _ hii] at hdiv
    rw [hplaced.carries.count_eq]
    omega

/-- The kernel window holds the kernel periods. -/
theorem mem_kernelWindow_iff (h : Listed dfg mapping tripCount shift streams shots)
    (hv : mapping.Verified dfg target) (hpos : tripCount ≠ 0)
    (hlt : ∀ name cycle, OccursAt dfg mapping tripCount shift name cycle → cycle < int64Max)
    (hne : streams ≠ []) {window : ℕ × ℕ}
    (hwindow : kernelWindow mapping.staged.modulo.ii streams shots = .ok window) (p : ℕ) :
    window.1 ≤ p ∧ p ≤ window.2 ↔ KernelPeriod dfg mapping tripCount shift p := by
  have hii := hv.staged.ii_pos
  obtain ⟨hshots, hstreams⟩ := h.fits hpos hii hlt
  rw [kernelWindow_spec hne hshots hstreams hwindow, KernelPeriod, ← Bool.not_eq_true,
    hasOneShotInPeriod_iff]
  refine and_congr ⟨fun hall key time first last hstream ↦ ?_, fun hall stream hmem ↦ ?_⟩
    ⟨fun hfree name cycle hoccurs hname hsame ↦ hfree ?_, fun hfree ↦ ?_⟩
  · obtain ⟨stream, hmem, hplaced, rfl, hcycle⟩ := h.exists_stream hv hstream
    obtain ⟨j, hj, hperiod⟩ := (inStream_iff hplaced hpos hii).mp (hall stream hmem)
    have hlast := hstream.last_eq
    refine ⟨stream.item.event.logicalIteration + j, by omega, by omega, ?_⟩
    rw [← hperiod]
    push_cast
    rw [hcycle]
    congr 1
    ring
  · obtain ⟨key, -, hplaced⟩ := exists_of_forall₂ h.streams.flip stream hmem
    obtain ⟨time, last, hstream, htime⟩ := hplaced.carries.genuine
    obtain ⟨iteration, hfirst, hend, hperiod⟩ := hall key time _ last hstream
    have hlast := hstream.last_eq
    refine (inStream_iff hplaced hpos hii).mpr
      ⟨(iteration - stream.item.event.logicalIteration).toNat, by omega, ?_⟩
    zify
    rw [← hperiod, hplaced.cycle_eq, htime, Int.toNat_of_nonneg (by omega)]
    congr 1
    ring
  · obtain ⟨shot, hmem, -, hcycle⟩ := h.exists_shot hv hoccurs hname
    refine ⟨shot, hmem, ?_⟩
    zify
    rw [hcycle, hsame]
  · rintro ⟨shot, hmem, rfl⟩
    obtain ⟨name, hlisted, hplaced⟩ := exists_of_forall₂ h.shots.flip shot hmem
    refine hfree name shot.cycle hplaced.occursAt ?_ (by push_cast; rfl)
    exact (mem_shotNames hplaced.carries.occurs).mp hlisted

/-- The injections of an edge come in consecutive periods, which begin no later than the streams:
with one of them, all periods before it are busy. -/
theorem busy_before (h : Listed dfg mapping tripCount shift streams shots)
    (hv : mapping.Verified dfg target) {shot : Timed OneShot}
    {id : TargetEdgeId} {offset : ℕ}
    (hplaced : PlacedOnce dfg mapping tripCount shift (.boundaryValueInject id offset) shot) (q : ℕ)
    (hq : ∀ stream ∈ streams, InStream mapping.staged.modulo.ii stream q)
    (hle : q ≤ shot.cycle / mapping.staged.modulo.ii) :
    hasOneShotInPeriod mapping.staged.modulo.ii shots q = true := by
  have hii := hv.staged.ii_pos
  have hgraph := hv.staged.modulo.graph
  obtain ⟨edge, src, issue, hedge, rfl, hkind, hoffset, hsrc, hissue, hcycle⟩ :=
    hplaced.occursAt.of_inject
  obtain ⟨producer, ready, -, -, -, issue', use, hproducer, hready, -, -, -, hissue', huse,
    hroute⟩ := hv.staged.route hedge hkind
  obtain rfl := Option.some.inj (hsrc.symm.trans hproducer)
  obtain rfl := Except.ok.inj (hissue.symm.trans hissue')
  rw [hready, Option.getD_some] at hcycle
  -- the first injection lies no later than the first issue of the consumer
  obtain ⟨-, dst, -, hdst⟩ := hgraph.endpoints edge hedge
  rw [← TargetDFG.findNode_id hdst] at huse
  obtain ⟨consumer, hmem, -, -, hconsumer⟩ :=
    h.exists_stream hv (Stream.nodeIssue (TargetDFG.mem_of_findNode hdst) huse)
  have hfirst := (hq consumer hmem).1
  have hinject : ∀ o < min tripCount edge.distance, OccursAt dfg mapping tripCount shift
      (.boundaryValueInject edge.id o) _ := fun o ho ↦
    OccursAt.boundaryValueInject hedge hkind ho hsrc hissue
  have hmoved : ∀ o < min tripCount edge.distance, ∃ other ∈ shots,
      (other.cycle : ℤ) + offset * mapping.staged.modulo.ii
        = shot.cycle + o * mapping.staged.modulo.ii := by
    intro o ho
    obtain ⟨other, hother, -, hsame⟩ := h.exists_shot hv (hinject o ho) (by simp)
    refine ⟨other, hother, ?_⟩
    rw [hsame, hcycle, hready, Option.getD_some]
    ring
  obtain ⟨initial, -, hinitial⟩ := hmoved 0 (by omega)
  have hbase : shot.cycle = initial.cycle + offset * mapping.staged.modulo.ii := by
    zify
    rw [hinitial, Nat.cast_zero, zero_mul, add_zero]
  have hearly : initial.cycle / mapping.staged.modulo.ii ≤ q := by
    refine (Nat.div_le_div_right ?_).trans hfirst
    zify at hbase hroute ⊢
    linarith
  rw [hbase, Nat.add_mul_div_right _ _ hii] at hle
  obtain ⟨other, hother, hsame⟩ := hmoved (q - initial.cycle / mapping.staged.modulo.ii) (by omega)
  have hcycle : other.cycle = initial.cycle
      + (q - initial.cycle / mapping.staged.modulo.ii) * mapping.staged.modulo.ii := by
    zify at hbase ⊢
    linarith
  refine hasOneShotInPeriod_iff.mpr ⟨other, hother, ?_⟩
  rw [hcycle, Nat.add_mul_div_right _ _ hii]
  omega

/-- A live-out is used no earlier than the last iteration of its source. -/
theorem busy_after (h : Listed dfg mapping tripCount shift streams shots)
    (hv : mapping.Verified dfg target) (hpos : tripCount ≠ 0) {shot : Timed OneShot}
    (hmem : shot ∈ shots) {id : ℕ} {iteration : ℤ}
    (hplaced : PlacedOnce dfg mapping tripCount shift (.liveOutBoundaryUse id iteration) shot)
    (q : ℕ) (hq : ∀ stream ∈ streams, InStream mapping.staged.modulo.ii stream q)
    (hle : shot.cycle / mapping.staged.modulo.ii ≤ q) :
    hasOneShotInPeriod mapping.staged.modulo.ii shots q = true := by
  obtain ⟨liveOut, node, issue, latency, -, -, hnode, -, hissue, -, hcycle⟩ :=
    hplaced.occursAt.of_liveOut
  rw [← TargetDFG.findNode_id hnode] at hissue
  obtain ⟨source, hsource, hplacedSource, -, hstart⟩ :=
    h.exists_stream hv (Stream.nodeIssue (TargetDFG.mem_of_findNode hnode) hissue)
  have hlast := (hq source hsource).2
  rw [hplacedSource.carries.count_eq, ← Nat.add_mul_div_right _ _ hv.staged.ii_pos] at hlast
  have hlater : source.cycle + (tripCount - 1) * mapping.staged.modulo.ii ≤ shot.cycle := by
    have hcast : ((tripCount - 1 : ℕ) : ℤ) = (tripCount : ℤ) - 1 := by omega
    zify
    rw [hcast, hcycle, hstart]
    linarith
  exact hasOneShotInPeriod_iff.mpr
    ⟨shot, hmem, hle.antisymm (hlast.trans (Nat.div_le_div_right hlater))⟩

/-- **There is a kernel window**: no boundary event falls between kernel periods. -/
theorem exists_kernelWindow (h : Listed dfg mapping tripCount shift streams shots)
    (hv : mapping.Verified dfg target) (hpos : tripCount ≠ 0)
    (hlt : ∀ name cycle, OccursAt dfg mapping tripCount shift name cycle → cycle < int64Max)
    (hne : streams ≠ []) :
    ∃ window, kernelWindow mapping.staged.modulo.ii streams shots = .ok window := by
  obtain ⟨hshots, hstreams⟩ := h.fits hpos hv.staged.ii_pos hlt
  refine ScheduleMaterializer.exists_kernelWindow hne hshots hstreams fun shot hmem ↦ ?_
  obtain ⟨name, hlisted, hplaced⟩ := exists_of_forall₂ h.shots.flip shot hmem
  cases name with
  | periodic key iteration =>
    exact absurd rfl ((mem_shotNames hplaced.carries.occurs).mp hlisted key iteration)
  | boundaryValueInject id offset => exact .inl (h.busy_before hv hplaced)
  | liveOutBoundaryUse id iteration => exact .inr (h.busy_after hv hpos hmem hplaced)

end ScheduleMaterializer.Listed

end PredicatedMesh
