import PredicatedMesh.Schedule.Exact

/-!
# The checks behind an accepted schedule

`MaterializedScheduleVerifier` walks over the prologue, the kernel body and the epilogue and checks
each event as it meets it. The theorem that it accepts exact schedules only looks at the records the
walk leaves behind; passes that translate a schedule event by event need the checks themselves.
-/

namespace PredicatedMesh

open Scan MaterializedScheduleVerifier

/-! ## Timed events -/

theorem mem_timed_iff {base : ℕ} {cycles : List CycleBundle} {x : ℕ × MaterializedEvent} :
    x ∈ timed base cycles ↔ ∃ bundle, cycles[x.1 - base]? = some bundle ∧ base ≤ x.1 ∧
      x.2 ∈ bundle.events := by
  simp only [timed, List.mem_flatMap, List.mem_map]
  constructor
  · rintro ⟨⟨bundle, cycle⟩, hbundle, event, hevent, rfl⟩
    obtain ⟨hle, hget⟩ := List.mk_mem_zipIdx_iff_le_and_getElem?_sub.mp hbundle
    exact ⟨bundle, hget, hle, hevent⟩
  · rintro ⟨bundle, hget, hle, hevent⟩
    exact ⟨(bundle, x.1), List.mk_mem_zipIdx_iff_le_and_getElem?_sub.mpr ⟨hle, hget⟩, x.2, hevent,
      rfl⟩

theorem lt_of_mem_timed {base : ℕ} {cycles : List CycleBundle} {x : ℕ × MaterializedEvent}
    (h : x ∈ timed base cycles) : base ≤ x.1 ∧ x.1 < base + cycles.length := by
  obtain ⟨bundle, hget, hle, -⟩ := mem_timed_iff.mp h
  obtain ⟨hlt, -⟩ := List.getElem?_eq_some_iff.mp hget
  omega

theorem MaterializedEvent.kind_of_inject {event : MaterializedEvent} {edge : TargetEdgeId}
    {offset : ℕ} (h : event.name? = some (.boundaryValueInject edge offset)) :
    event.kind = .boundaryValueInject := by
  unfold name? at h
  split at h
  · simp at h
  · simp at h
  · split at h <;> simp at h
  · simp at h
  · assumption
  · simp at h

section Accepted

variable {dfg : TargetDFG} {target : TargetModel} {mapping : RFAllocatedMapping}
variable {request : ScheduleMaterializationRequest} {schedule : MaterializedSchedule}

/-- The three walks of an accepted schedule, none of which has found anything. -/
theorem MaterializedScheduleVerifier.Accepted.walks
    (h : Accepted dfg target mapping request schedule) : ∃ seen₁ seen₂ seen₃,
      loop (scanEvent dfg mapping request schedule) [] (timed 0 schedule.prologue.cycles)
        = .ok (seen₁, []) ∧
      loop (scanKernelEvent dfg mapping request schedule) seen₁ schedule.kernelEvents
        = .ok (seen₂, []) ∧
      loop (scanEvent dfg mapping request schedule) seen₂
        (timed schedule.kernelEnd schedule.epilogue.cycles) = .ok (seen₃, []) := by
  obtain ⟨⟨seen, report⟩, hscan, hrest⟩ := bind_eq_ok.mp h.events
  obtain ⟨expected, -, hrest⟩ := bind_eq_ok.mp hrest
  simp only [pure, Except.pure, Except.ok.injEq, List.append_eq_nil_iff] at hrest
  obtain ⟨⟨rfl, -⟩, -⟩ := hrest
  unfold scan at hscan
  obtain ⟨⟨seen₁, report₁⟩, hprologue, hscan⟩ := bind_eq_ok.mp hscan
  obtain ⟨⟨seen₂, report₂⟩, hkernel, hscan⟩ := bind_eq_ok.mp hscan
  obtain ⟨⟨seen₃, report₃⟩, hepilogue, hscan⟩ := bind_eq_ok.mp hscan
  simp only [pure, Except.pure, Except.ok.injEq, Prod.mk.injEq, List.append_eq_nil_iff] at hscan
  obtain ⟨rfl, ⟨rfl, rfl⟩, rfl⟩ := hscan
  exact ⟨seen₁, seen₂, seen₃, scanPhase_clean hprologue, scanPhase_clean hkernel,
    scanPhase_clean hepilogue⟩

/-- An event outside the kernel of an accepted schedule has been checked. -/
theorem MaterializedScheduleVerifier.Accepted.explicit_checked
    (h : Accepted dfg target mapping request schedule) {item : ℕ × MaterializedEvent}
    (hitem : item ∈ schedule.explicitEvents) : ∃ seen recorded,
      verifyEvent dfg mapping request schedule seen item.2 item.1 = .ok (recorded, []) := by
  obtain ⟨seen₁, seen₂, seen₃, hprologue, -, hepilogue⟩ := h.walks
  have hstep : ∃ s s', scanEvent dfg mapping request schedule s item = .ok (s', []) := by
    rcases List.mem_append.mp hitem with hitem | hitem
    · exact exists_clean_step hprologue hitem
    · exact exists_clean_step hepilogue hitem
  obtain ⟨s, s', hstep⟩ := hstep
  unfold scanEvent at hstep
  split at hstep
  · cases hstep
  · rename_i recorded report hevent
    obtain ⟨-, rfl⟩ := Prod.mk.inj (Except.ok.inj hstep)
    exact ⟨s, recorded, hevent⟩

/-- A kernel event of an accepted schedule has been checked, and it is not a boundary event. -/
theorem MaterializedScheduleVerifier.Accepted.kernel_checked
    (h : Accepted dfg target mapping request schedule) {item : ℕ × MaterializedEvent}
    (hitem : item ∈ schedule.kernelEvents) :
    item.2.kind ≠ .boundaryValueInject ∧ item.2.kind ≠ .liveOutBoundaryUse ∧
      ∃ recorded, verifyPeriodic dfg mapping request schedule item.2 item.1
        = .ok (recorded, []) := by
  obtain ⟨seen₁, seen₂, seen₃, -, hkernel, -⟩ := h.walks
  obtain ⟨s, s', hstep⟩ := exists_clean_step hkernel hitem
  unfold scanKernelEvent at hstep
  split at hstep
  · simp at hstep
  rename_i hkind
  rw [not_or] at hkind
  split at hstep
  · cases hstep
  rename_i recorded report hperiodic
  split at hstep
  · exact absurd ‹_› (repeatCount_ne_zero h.shape hitem)
  split at hstep
  · simp at hstep
  · obtain ⟨-, rfl⟩ := Prod.mk.inj (Except.ok.inj hstep)
    exact ⟨hkind.1, hkind.2, recorded, hperiodic⟩

theorem MaterializedScheduleVerifier.Accepted.kernel_cycle
    (h : Accepted dfg target mapping request schedule) {item : ℕ × MaterializedEvent}
    (hitem : item ∈ schedule.kernelEvents) : schedule.prologue.cycles.length ≤ item.1 ∧
      item.1 < schedule.prologue.cycles.length + schedule.ii := by
  have hlength := h.shape.2 (repeatCount_ne_zero h.shape hitem)
  have hbounds := lt_of_mem_timed hitem
  omega

end Accepted

end PredicatedMesh
