import PredicatedMesh.RegisterAllocation.Allocator

/-!
# Ports are matched exactly

`assignPorts` goes over the slots of the interval and matches the segments that access a bank in a
slot to the ports of the bank. One slot is a run of the matching library, `Matching.assign`, and the
library knows when such a run succeeds; what is left is to follow the ports into the allocations.

Writing a slot back touches the allocations of its own segments only. `PortKind.record` is what a
whole assignment does: one port for each segment of it, put into the allocation of that segment.
Slots have different segments, so the effects of two slots join to one (`record_record`), and the
loop over the slots carries the joined effect along.
-/

namespace PredicatedMesh

open Scan

namespace RFAllocator

/-! ## The segments of the allocator -/

/-- Segments with their banks, under ids of their own. -/
structure Banked (target : TargetModel) (segments : List BankedSegment) : Prop where
  distinct : (segments.map BankedSegment.id).Nodup
  registerBank : ∀ banked ∈ segments,
    target.registerBank banked.segment.domain banked.segment.tile.row banked.segment.tile.col
      = some banked.bank

theorem bankFor_eq_ok {target : TargetModel} {ii : ℕ} {segment : StorageSegment}
    {banked : BankedSegment} (h : bankFor target ii segment = .ok banked) :
    banked.segment = segment ∧
      target.registerBank segment.domain segment.tile.row segment.tile.col = some banked.bank ∧
      banked.bank.allocatableIndices ≠ [] ∧
      fixedRegisterSelfOverlaps segment ii banked.bank.sameAddressReadWritePolicy = false := by
  unfold bankFor at h
  split at h
  · cases h
  · rename_i bank hbank
    split at h
    · cases h
    · rename_i hempty
      split at h
      · cases h
      · rename_i hoverlap
        obtain rfl := Except.ok.inj h
        exact ⟨rfl, hbank, by simpa using hempty, by simpa using hoverlap⟩

/-- The segments are those of the requirements, in their order. -/
theorem map_segment_of_mapM {target : TargetModel} {ii : ℕ} {listed : List StorageSegment}
    {segments : List BankedSegment} (h : listed.mapM (bankFor target ii) = .ok segments) :
    segments.map BankedSegment.segment = listed := by
  induction listed generalizing segments with
  | nil =>
    obtain rfl : [] = segments := Except.ok.inj h
    rfl
  | cons segment listed ih =>
    rw [List.mapM_cons] at h
    obtain ⟨banked, hbanked, h⟩ := bind_eq_ok.mp h
    obtain ⟨rest, hrest, h⟩ := bind_eq_ok.mp h
    obtain rfl := Except.ok.inj h
    rw [List.map_cons, (bankFor_eq_ok hbanked).1, ih hrest]

/-- **The allocator's segments have banks and ids of their own.** -/
theorem banked_of_analyze {dfg : TargetDFG} {target : TargetModel} {mapping : StagedMapping}
    {requirements : StorageRequirements} {segments : List BankedSegment}
    (hanalyze : StorageRequirementAnalysis.analyze dfg target mapping = .ok (.ok requirements))
    (hbanks : requirements.segments.mapM (bankFor target requirements.ii) = .ok segments) :
    Banked target segments where
  distinct := by
    have hids := StorageRequirementAnalysis.nodup_ids hanalyze
    rwa [← map_segment_of_mapM hbanks, List.map_map] at hids
  registerBank banked hmem := by
    obtain ⟨segment, -, hbanked⟩ := exists_source_of_mem hbanks hmem
    obtain ⟨rfl, hbank, -⟩ := bankFor_eq_ok hbanked
    exact hbank

section Banked

variable {target : TargetModel} {segments : List BankedSegment}

theorem Banked.eq_of_id (h : Banked target segments) {a b : BankedSegment} (ha : a ∈ segments)
    (hb : b ∈ segments) (hid : a.id = b.id) : a = b :=
  List.inj_on_of_nodup_map h.distinct ha hb hid

/-- A bank of a tile is known by its id: the two register files have different ones. -/
theorem Banked.bank_eq (h : Banked target segments) {a b : BankedSegment} (ha : a ∈ segments)
    (hb : b ∈ segments) (hkey : a.key = b.key) : a.bank = b.bank := by
  have hbanka := h.registerBank a ha
  have hbankb := h.registerBank b hb
  rw [TargetModel.registerBank] at hbanka hbankb
  split at hbanka
  · split at hbankb
    · have hida := Option.some.inj hbanka
      have hidb := Option.some.inj hbankb
      have hid : a.bank.id = b.bank.id := congrArg BankKey.bank hkey
      rw [← hida, ← hidb] at hid ⊢
      rw [target.bankDesc_id_injective hid]
    · cases hbankb
  · cases hbanka

theorem Banked.sublist (h : Banked target segments) {others : List BankedSegment}
    (hsub : others.Sublist segments) : Banked target others where
  distinct := h.distinct.sublist (hsub.map _)
  registerBank banked hmem := h.registerBank banked (hsub.subset hmem)

end Banked

/-! ## Slots -/

/-- The segments that access a bank at a slot. -/
def accessing (slotOf : BankedSegment → ℕ) (segments : List BankedSegment) (key : SlotKey) :
    List BankedSegment :=
  segments.filter fun banked ↦ (⟨banked.key, slotOf banked⟩ : SlotKey) = key

theorem mem_accessing {slotOf : BankedSegment → ℕ} {segments : List BankedSegment} {key : SlotKey}
    {banked : BankedSegment} : banked ∈ accessing slotOf segments key ↔
      banked ∈ segments ∧ (⟨banked.key, slotOf banked⟩ : SlotKey) = key := by
  simp [accessing]

/-- An assignment of the segments to ports of their own that accept them. -/
def PortKind.Assignable (kind : PortKind) (segments : List BankedSegment) : Prop :=
  ∃ port : {banked // banked ∈ segments} → ℕ,
    (∀ banked, port banked < kind.ports banked.1.bank ∧
      kind.accepts banked.1.bank banked (port banked) = true) ∧
    Function.Injective port

/-- The ports the segments have been given: accepted, in range, one for each segment. -/
structure PortKind.Seated (kind : PortKind) (portFor : StorageSegmentId → Option ℕ)
    (segments : List BankedSegment) : Prop where
  accepted : ∀ banked ∈ segments, ∃ port, portFor banked.id = some port ∧
    port < kind.ports banked.bank ∧ kind.accepts banked.bank banked port = true
  apart : ∀ a ∈ segments, ∀ b ∈ segments, portFor a.id = portFor b.id → a = b

/-- The allocation of a segment with the port the segment has been given. -/
def PortKind.record (kind : PortKind) (portFor : StorageSegmentId → Option ℕ)
    (allocation : StorageAllocation) : StorageAllocation :=
  match portFor allocation.segment with
  | none => allocation
  | some port => kind.set port allocation

/-- Setting a port leaves the segment as it is. -/
def PortKind.Keeps (kind : PortKind) : Prop :=
  ∀ port allocation, (kind.set port allocation).segment = allocation.segment

section Kind

variable {kind : PortKind} {portFor : StorageSegmentId → Option ℕ} {segments : List BankedSegment}

theorem PortKind.Seated.assignable (h : kind.Seated portFor segments) :
    kind.Assignable segments := by
  choose port hport haccepted using fun banked : {banked // banked ∈ segments} ↦
    h.accepted banked.1 banked.2
  refine ⟨port, haccepted, fun a b hab ↦ Subtype.ext (h.apart a.1 a.2 b.1 b.2 ?_)⟩
  rw [hport a, hport b, hab]

theorem PortKind.Assignable.mono (h : kind.Assignable segments) {others : List BankedSegment}
    (hmem : ∀ banked, banked ∈ others → banked ∈ segments) : kind.Assignable others := by
  obtain ⟨port, haccepted, hinjective⟩ := h
  refine ⟨fun banked ↦ port ⟨banked.1, hmem _ banked.2⟩, fun banked ↦ haccepted _, fun a b hab ↦ ?_⟩
  have heq := congrArg Subtype.val (hinjective hab)
  exact Subtype.ext heq

/-- With one bank, these are the assignments of the matching library. -/
theorem PortKind.assignable_iff {bank : RegisterFileDesc}
    (hbank : ∀ banked ∈ segments, banked.bank = bank) : kind.Assignable segments ↔
      Matching.Assignable (kind.accepts bank) (List.range (kind.ports bank)) segments := by
  constructor
  · rintro ⟨port, haccepted, hinjective⟩
    refine ⟨port, fun banked ↦ ?_, hinjective⟩
    rw [List.mem_range, ← hbank banked.1 banked.2]
    exact haccepted banked
  · rintro ⟨port, haccepted, hinjective⟩
    refine ⟨port, fun banked ↦ ?_, hinjective⟩
    have h := haccepted banked
    rwa [List.mem_range, ← hbank banked.1 banked.2] at h

@[simp] theorem PortKind.segment_record (hkeeps : kind.Keeps) (allocation : StorageAllocation) :
    (kind.record portFor allocation).segment = allocation.segment := by
  rw [record]
  split
  · rfl
  · exact hkeeps _ _

/-- Two effects on different segments are one. -/
theorem PortKind.record_record (hkeeps : kind.Keeps) {other : StorageSegmentId → Option ℕ}
    (hother : ∀ id, portFor id ≠ none → other id = none) (allocation : StorageAllocation) :
    kind.record other (kind.record portFor allocation)
      = kind.record (fun id ↦ portFor id <|> other id) allocation := by
  rcases hfirst : portFor allocation.segment with _ | port
  · have hsame : kind.record portFor allocation = allocation := by rw [record, hfirst]
    rw [hsame, record, record, hfirst]
    rfl
  · have hnone : other allocation.segment = none := hother _ (by rw [hfirst]; simp)
    have hrecord : kind.record portFor allocation = kind.set port allocation := by
      rw [record, hfirst]
    have hsegment : (kind.set port allocation).segment = allocation.segment := hkeeps _ _
    rw [hrecord, record, record, hsegment, hnone, hfirst]
    rfl

/-! ## One slot -/

/-- The port of a segment id in a matching. -/
def portIn (matched : ℕ → Option BankedSegment) (ports : List ℕ) (id : StorageSegmentId) :
    Option ℕ :=
  ports.find? fun port ↦ (matched port).any fun banked ↦ banked.id == id

theorem portIn_eq_some {matched : ℕ → Option BankedSegment} {ports : List ℕ}
    {id : StorageSegmentId} {port : ℕ} (h : portIn matched ports id = some port) :
    port ∈ ports ∧ ∃ banked, matched port = some banked ∧ banked.id = id := by
  have hany := List.find?_some h
  refine ⟨List.mem_of_find?_eq_some h, ?_⟩
  simp only [Option.any_eq_true_iff_get, beq_iff_eq] at hany
  obtain ⟨hsome, hid⟩ := hany
  exact ⟨_, (Option.some_get hsome).symm, hid⟩

/-- No segment has two ports. -/
def OnePort (matched : ℕ → Option BankedSegment) : Prop :=
  ∀ p q a b, matched p = some a → matched q = some b → a.id = b.id → p = q

/-- **Writing a slot back** gives every matched segment its port. -/
theorem writeBack_eq_map (hkeeps : kind.Keeps) {matched : ℕ → Option BankedSegment}
    (hone : OnePort matched) {ports : List ℕ} (hnodup : ports.Nodup)
    (allocations : List StorageAllocation) :
    writeBack kind matched ports allocations
      = allocations.map (kind.record (portIn matched ports)) := by
  induction ports generalizing allocations with
  | nil =>
    have hid : kind.record (portIn matched []) = id := by
      funext allocation
      rfl
    rw [hid, List.map_id]
    rfl
  | cons port ports ih =>
    obtain ⟨hport, hports⟩ := List.nodup_cons.mp hnodup
    rw [writeBack, List.foldl_cons]
    rcases hmatched : matched port with _ | banked
    · have hsame : portIn matched (port :: ports) = portIn matched ports := by
        funext id
        simp [portIn, hmatched]
      rw [hsame]
      exact ih hports allocations
    · have hstep := ih hports (allocations.map fun allocation ↦
        if allocation.segment = banked.id then kind.set port allocation else allocation)
      rw [writeBack] at hstep
      rw [hstep, List.map_map]
      refine List.map_congr_left fun allocation _ ↦ ?_
      rw [Function.comp_apply]
      by_cases hsegment : allocation.segment = banked.id
      · -- the other ports belong to other segments
        have hrest : portIn matched ports allocation.segment = none := by
          rcases hfound : portIn matched ports allocation.segment with _ | other
          · rfl
          · obtain ⟨hmem, b, hb, hid⟩ := portIn_eq_some hfound
            have heq := hone other port b banked hb hmatched (hid.trans hsegment)
            exact absurd (heq ▸ hmem) hport
        have hthis : portIn matched (port :: ports) allocation.segment = some port := by
          simp [portIn, hmatched, hsegment]
        have hkept : (kind.set port allocation).segment = allocation.segment := hkeeps _ _
        rw [if_pos hsegment, PortKind.record, PortKind.record, hkept, hrest, hthis]
      · have hsame : portIn matched (port :: ports) allocation.segment
            = portIn matched ports allocation.segment := by
          simp [portIn, hmatched, Ne.symm hsegment]
        rw [if_neg hsegment, PortKind.record, PortKind.record, hsame]

/-- **One slot.** -/
theorem assignSlot_spec (hkeeps : kind.Keeps) {key : SlotKey} {event : List BankedSegment}
    (hids : (event.map BankedSegment.id).Nodup)
    (hbank : ∀ a ∈ event, ∀ b ∈ event, a.bank = b.bank) (allocations : List StorageAllocation) :
    (∀ later, assignSlot kind allocations (key, event) = .ok later →
      ∃ portFor : StorageSegmentId → Option ℕ, later = allocations.map (kind.record portFor) ∧
        kind.Seated portFor event ∧
        ∀ id, portFor id ≠ none → id ∈ event.map BankedSegment.id) ∧
    (∀ exit, assignSlot kind allocations (key, event) = .error exit →
      ¬ kind.Assignable event ∧ ∃ banked ∈ event, exit = kind.conflict banked) := by
  rcases event with _ | ⟨first, rest⟩
  · refine ⟨fun later h ↦ ⟨fun _ ↦ none, ?_, ⟨by simp, by simp⟩, by simp⟩, fun exit h ↦ ?_⟩
    · obtain rfl : allocations = later := Except.ok.inj h
      have hid : kind.record (fun _ ↦ none) = id := by
        funext allocation
        rfl
      rw [hid, List.map_id]
    · cases h
  · have hsame : ∀ banked ∈ first :: rest, banked.bank = first.bank := fun banked hmem ↦
      hbank banked hmem first List.mem_cons_self
    have hnodup : (first :: rest).Nodup := .of_map _ hids
    have hexact := @Matching.assign_exact _ _ _ (kind.accepts first.bank)
      (List.range (kind.ports first.bank)) _ hnodup
    rw [assignSlot]
    simp only
    rcases hassign : Matching.assign (kind.accepts first.bank)
      (List.range (kind.ports first.bank)) (first :: rest) (fun _ ↦ none) with item | matched
    · refine ⟨fun later h ↦ ?_, fun exit h ↦ ⟨fun hassignable ↦ ?_, item, ?_, ?_⟩⟩
      · cases h
      · obtain ⟨later, hlater⟩ := hexact.1.mpr ((PortKind.assignable_iff hsame).mp hassignable)
        rw [hassign] at hlater
        cases hlater
      · exact Matching.mem_of_assign_eq_error hassign
      · exact (Except.error.inj h).symm
    · obtain ⟨hmatching, hset⟩ := hexact.2 matched hassign
      have hmem : ∀ p a, matched p = some a → a ∈ first :: rest := fun p a hp ↦
        (hset a).mp ⟨p, rfl, hp⟩
      have hone : OnePort matched := by
        intro p q a b hp hq hid
        obtain rfl := List.inj_on_of_nodup_map hids (hmem p a hp) (hmem q b hq) hid
        exact hmatching.injective p q a rfl rfl hp hq
      have hfound : ∀ banked ∈ first :: rest, ∃ port,
          portIn matched (List.range (kind.ports first.bank)) banked.id = some port := by
        intro banked hbanked
        obtain ⟨port, -, hport⟩ := (hset banked).mpr hbanked
        rcases hin : portIn matched (List.range (kind.ports first.bank)) banked.id with _ | found
        · have hnone := List.find?_eq_none.mp hin port (hmatching.accepted port banked rfl hport).1
          simp [hport] at hnone
        · exact ⟨found, rfl⟩
      refine ⟨fun later h ↦ ⟨portIn matched (List.range (kind.ports first.bank)), ?_, ⟨?_, ?_⟩, ?_⟩,
        fun exit h ↦ ?_⟩
      · rw [← writeBack_eq_map hkeeps hone List.nodup_range]
        exact (Except.ok.inj h).symm
      · intro banked hbanked
        obtain ⟨port, hport⟩ := hfound banked hbanked
        obtain ⟨-, b, hb, hid⟩ := portIn_eq_some hport
        obtain rfl := List.inj_on_of_nodup_map hids (hmem port b hb) hbanked hid
        obtain ⟨hrange, haccepts⟩ := hmatching.accepted port b rfl hb
        rw [hsame b hbanked]
        exact ⟨port, hport, List.mem_range.mp hrange, haccepts⟩
      · intro a ha b hb hab
        obtain ⟨port, hport⟩ := hfound a ha
        obtain ⟨-, c, hc, hca⟩ := portIn_eq_some hport
        obtain ⟨-, d, hd, hdb⟩ := portIn_eq_some (hab ▸ hport)
        obtain rfl := Option.some.inj (hc.symm.trans hd)
        exact List.inj_on_of_nodup_map hids ha hb (hca.symm.trans hdb)
      · intro id hid
        obtain ⟨port, hport⟩ := Option.ne_none_iff_exists'.mp hid
        obtain ⟨-, banked, hbanked, rfl⟩ := portIn_eq_some hport
        exact List.mem_map_of_mem (hmem port banked hbanked)
      · cases h

/-! ## The loop over the slots -/

/-- Groups with segments of their own, of one bank each. -/
structure Separate {κ : Type} (groups : List (κ × List BankedSegment)) : Prop where
  distinct : ∀ group ∈ groups, (group.2.map BankedSegment.id).Nodup
  bank_eq : ∀ group ∈ groups, ∀ a ∈ group.2, ∀ b ∈ group.2, a.bank = b.bank
  apart : groups.Pairwise fun e f ↦ ∀ a ∈ e.2, ∀ b ∈ f.2, a.id ≠ b.id

theorem Separate.tail {κ : Type} {group : κ × List BankedSegment}
    {groups : List (κ × List BankedSegment)} (h : Separate (group :: groups)) :
    Separate groups where
  distinct g hg := h.distinct g (List.mem_cons_of_mem _ hg)
  bank_eq g hg := h.bank_eq g (List.mem_cons_of_mem _ hg)
  apart := h.apart.tail

theorem PortKind.Seated.congr (h : kind.Seated portFor segments)
    {other : StorageSegmentId → Option ℕ}
    (heq : ∀ banked ∈ segments, other banked.id = portFor banked.id) :
    kind.Seated other segments where
  accepted banked hmem := by
    rw [heq banked hmem]
    exact h.accepted banked hmem
  apart a ha b hb hab := by
    rw [heq a ha, heq b hb] at hab
    exact h.apart a ha b hb hab

/-- **All slots.** Each is matched on its own, and the first that cannot be ends the loop. -/
theorem assignPorts_spec (hkeeps : kind.Keeps) {events : List (SlotKey × List BankedSegment)}
    (hslots : Separate events) (allocations : List StorageAllocation) :
    (∀ later, assignPorts kind events allocations = .ok later →
      ∃ portFor : StorageSegmentId → Option ℕ, later = allocations.map (kind.record portFor) ∧
        (∀ event ∈ events, kind.Seated portFor event.2) ∧
        ∀ id, portFor id ≠ none → ∃ event ∈ events, ∃ banked ∈ event.2, banked.id = id) ∧
    (∀ exit, assignPorts kind events allocations = .error exit →
      ∃ event ∈ events, ¬ kind.Assignable event.2 ∧
        ∃ banked ∈ event.2, exit = kind.conflict banked) := by
  induction events generalizing allocations with
  | nil =>
    refine ⟨fun later h ↦ ⟨fun _ ↦ none, ?_, by simp, by simp⟩, fun exit h ↦ ?_⟩
    · obtain rfl : allocations = later := Except.ok.inj h
      have hid : kind.record (fun _ ↦ none) = id := by
        funext allocation
        rfl
      rw [hid, List.map_id]
    · cases h
  | cons event events ih =>
    obtain ⟨key, banked⟩ := event
    have hapart := (List.pairwise_cons.mp hslots.apart).1
    obtain ⟨hok, herror⟩ := @assignSlot_spec kind hkeeps key banked
      (hslots.distinct _ List.mem_cons_self) (hslots.bank_eq _ List.mem_cons_self) allocations
    rw [assignPorts, List.foldlM_cons]
    rcases hslot : assignSlot kind allocations (key, banked) with exit | between
    · refine ⟨fun later h ↦ ?_, fun e h ↦ ?_⟩
      · cases h
      · obtain rfl : exit = e := Except.error.inj h
        obtain ⟨hnot, b, hb, hexit⟩ := herror exit hslot
        exact ⟨_, List.mem_cons_self, hnot, b, hb, hexit⟩
    · obtain ⟨first, rfl, hfirst, hfirstIds⟩ := hok between hslot
      obtain ⟨hokRest, herrorRest⟩ := ih hslots.tail (allocations.map (kind.record first))
      refine ⟨fun later h ↦ ?_, fun e h ↦ ?_⟩
      · obtain ⟨other, rfl, hother, hotherIds⟩ := hokRest later h
        have hnone : ∀ id, first id ≠ none → other id = none := by
          intro id hid
          by_contra hne
          obtain ⟨a, ha, rfl⟩ := List.mem_map.mp (hfirstIds id hid)
          obtain ⟨e, he, b, hb, hba⟩ := hotherIds _ hne
          exact hapart e he a ha b hb hba.symm
        refine ⟨fun id ↦ first id <|> other id, ?_, ?_, ?_⟩
        · rw [List.map_map]
          refine List.map_congr_left fun allocation _ ↦ ?_
          exact PortKind.record_record hkeeps hnone allocation
        · intro e he
          rcases List.mem_cons.mp he with rfl | he
          · refine hfirst.congr fun b hb ↦ ?_
            obtain ⟨port, hport, -⟩ := hfirst.accepted b hb
            rw [hport]
            rfl
          · refine (hother e he).congr fun b hb ↦ ?_
            have hfree : first b.id = none := by
              by_contra hne
              obtain ⟨a, ha, hab⟩ := List.mem_map.mp (hfirstIds _ hne)
              exact hapart e he a ha b hb hab
            rw [hfree]
            rfl
        · intro id hid
          rcases hfirstId : first id with _ | port
          · simp only [hfirstId] at hid
            obtain ⟨e, he, b, hb, hbid⟩ := hotherIds id hid
            exact ⟨e, List.mem_cons_of_mem _ he, b, hb, hbid⟩
          · obtain ⟨a, ha, hid⟩ := List.mem_map.mp (hfirstIds id (by rw [hfirstId]; simp))
            exact ⟨_, List.mem_cons_self, a, ha, hid⟩
      · obtain ⟨e', he', hnot, hconflict⟩ := herrorRest e h
        exact ⟨e', List.mem_cons_of_mem _ he', hnot, hconflict⟩

end Kind

section SlotEvents

variable {target : TargetModel} {segments : List BankedSegment} {slotOf : BankedSegment → ℕ}

theorem mem_slotEvents {event : SlotKey × List BankedSegment}
    (h : event ∈ slotEvents slotOf segments) :
    event.2.Perm (accessing slotOf segments event.1) := by
  obtain ⟨key, -, rfl⟩ := List.mem_map.mp h
  exact List.perm_insertionSort _ _

/-- Every segment has its event. -/
theorem exists_slotEvent {banked : BankedSegment} (h : banked ∈ segments) :
    ∃ event ∈ slotEvents slotOf segments, event.1 = ⟨banked.key, slotOf banked⟩ := by
  refine ⟨_, List.mem_map_of_mem ((List.mem_insertionSort _).mpr
    (List.mem_dedup.mpr (List.mem_map_of_mem h))), rfl⟩

theorem separate_slotEvents (h : Banked target segments) :
    Separate (slotEvents slotOf segments) where
  distinct event hevent := by
    refine ((mem_slotEvents hevent).map _).nodup_iff.mpr ?_
    exact h.distinct.sublist (List.filter_sublist.map _)
  bank_eq event hevent a ha b hb := by
    obtain ⟨ha, hkeya⟩ := mem_accessing.mp ((mem_slotEvents hevent).mem_iff.mp ha)
    obtain ⟨hb, hkeyb⟩ := mem_accessing.mp ((mem_slotEvents hevent).mem_iff.mp hb)
    exact h.bank_eq ha hb (congrArg SlotKey.bank (hkeya.trans hkeyb.symm))
  apart := by
    have hkeys : ((segments.map fun banked ↦
        (⟨banked.key, slotOf banked⟩ : SlotKey)).dedup.insertionSort fun a b ↦ a.le b).Nodup :=
      (List.perm_insertionSort _ _).nodup_iff.mpr (List.nodup_dedup _)
    rw [slotEvents, List.pairwise_map]
    refine hkeys.imp fun {p q} hne a ha b hb hid ↦ hne ?_
    obtain ⟨ha, hkeya⟩ := mem_accessing.mp ((List.mem_insertionSort _).mp ha)
    obtain ⟨hb, hkeyb⟩ := mem_accessing.mp ((List.mem_insertionSort _).mp hb)
    obtain rfl := h.eq_of_id ha hb hid
    exact hkeya.symm.trans hkeyb

/-- **A port assignment**, for the accesses `slotOf` of the segments: `port` reads the port it sets,
and `status` is what it reports when it fails. -/
structure MatchesPorts (kind : PortKind) (port : StorageAllocation → Option ℕ)
    (status : RFAllocationStatus) (slotOf : BankedSegment → ℕ) (segments : List BankedSegment)
    (allocations : List StorageAllocation) : Prop where
  succeeds_iff : (∃ later, assignPorts kind (slotEvents slotOf segments) allocations = .ok later) ↔
    ∀ key, kind.Assignable (accessing slotOf segments key)
  assigned : ∀ later, assignPorts kind (slotEvents slotOf segments) allocations = .ok later →
    ∃ portFor : StorageSegmentId → Option ℕ, later = allocations.map (kind.record portFor) ∧
      (∀ banked ∈ segments, ∃ allocation ∈ later, allocation.segment = banked.id ∧
        port allocation = portFor banked.id) ∧
      (∀ key, kind.Seated portFor (accessing slotOf segments key)) ∧
      ∀ id, portFor id ≠ none → ∃ banked ∈ segments, banked.id = id
  conflict : ∀ exit, assignPorts kind (slotEvents slotOf segments) allocations = .error exit →
    ∃ key, ¬ kind.Assignable (accessing slotOf segments key) ∧
      ∃ banked ∈ accessing slotOf segments key, exit = kind.conflict banked ∧
        ∃ result, exit = .returned result ∧ result.status = status

theorem matchesPorts (hbanked : Banked target segments) {kind : PortKind} (hkeeps : kind.Keeps)
    {port : StorageAllocation → Option ℕ}
    (hport : ∀ value allocation, port (kind.set value allocation) = some value)
    {status : RFAllocationStatus}
    (hstatus : ∀ banked, ∃ result, kind.conflict banked = .returned result ∧
      result.status = status)
    {allocations : List StorageAllocation}
    (hlisted : ∀ banked ∈ segments, ∃ allocation ∈ allocations, allocation.segment = banked.id) :
    MatchesPorts kind port status slotOf segments allocations := by
  have hslots : Separate (slotEvents slotOf segments) := separate_slotEvents hbanked
  obtain ⟨hok, herror⟩ := assignPorts_spec hkeeps hslots allocations
  have hevent : ∀ key banked, banked ∈ accessing slotOf segments key →
      ∃ event ∈ slotEvents slotOf segments, event.1 = key := by
    intro key banked hmem
    obtain ⟨hsegment, rfl⟩ := mem_accessing.mp hmem
    exact exists_slotEvent hsegment
  refine ⟨⟨?_, fun hall ↦ ?_⟩, fun later h ↦ ?_, fun exit h ↦ ?_⟩
  · rintro ⟨later, h⟩ key
    obtain ⟨portFor, -, hseated, -⟩ := hok later h
    rcases hlist : accessing slotOf segments key with _ | ⟨first, rest⟩
    · exact ⟨fun banked ↦ (List.not_mem_nil banked.2).elim,
        fun banked ↦ (List.not_mem_nil banked.2).elim, fun a ↦ (List.not_mem_nil a.2).elim⟩
    · rw [← hlist]
      obtain ⟨event, hmem, rfl⟩ := hevent key first (by simp [hlist])
      exact (hseated event hmem).assignable.mono fun b hb ↦ (mem_slotEvents hmem).mem_iff.mpr hb
  · rcases hrun : assignPorts kind (slotEvents slotOf segments) allocations with exit | later
    · obtain ⟨event, hmem, hnot, -⟩ := herror exit hrun
      exact absurd ((hall event.1).mono fun b hb ↦ (mem_slotEvents hmem).mem_iff.mp hb) hnot
    · exact ⟨later, rfl⟩
  · obtain ⟨portFor, rfl, hseated, honly⟩ := hok later h
    have hkey : ∀ key, kind.Seated portFor (accessing slotOf segments key) := by
      intro key
      refine ⟨fun banked hbanked ↦ ?_, fun a ha b hb hab ↦ ?_⟩
      · obtain ⟨event, hmem, rfl⟩ := hevent key banked hbanked
        exact (hseated event hmem).accepted banked ((mem_slotEvents hmem).mem_iff.mpr hbanked)
      · obtain ⟨event, hmem, rfl⟩ := hevent key a ha
        exact (hseated event hmem).apart a ((mem_slotEvents hmem).mem_iff.mpr ha) b
          ((mem_slotEvents hmem).mem_iff.mpr hb) hab
    have hother : ∀ id, portFor id ≠ none → ∃ banked ∈ segments, banked.id = id := by
      intro id hid
      obtain ⟨event, hmem, banked, hbanked, hbid⟩ := honly id hid
      exact ⟨banked, (mem_accessing.mp ((mem_slotEvents hmem).mem_iff.mp hbanked)).1, hbid⟩
    refine ⟨portFor, rfl, fun banked hmem ↦ ?_, hkey, hother⟩
    obtain ⟨allocation, hallocation, hsegment⟩ := hlisted banked hmem
    obtain ⟨value, hvalue, -⟩ := (hkey ⟨banked.key, slotOf banked⟩).accepted banked
      (mem_accessing.mpr ⟨hmem, rfl⟩)
    refine ⟨_, List.mem_map_of_mem hallocation, ?_, ?_⟩
    · rw [PortKind.segment_record hkeeps, hsegment]
    · rw [PortKind.record, hsegment, hvalue]
      exact hport value allocation
  · obtain ⟨event, hmem, hnot, banked, hbanked, hexit⟩ := herror exit h
    obtain ⟨result, hresult, hstatus⟩ := hstatus banked
    refine ⟨event.1, fun hassignable ↦ hnot ?_, banked, (mem_slotEvents hmem).mem_iff.mp hbanked,
      hexit, result, hexit.trans hresult, hstatus⟩
    exact hassignable.mono fun b hb ↦ (mem_slotEvents hmem).mem_iff.mp hb

theorem readPorts_keeps : readPorts.Keeps := fun _ _ ↦ rfl

theorem writePorts_keeps (sources : StorageSegmentId → String) : (writePorts sources).Keeps :=
  fun _ _ ↦ rfl

theorem boundaryPorts_keeps (sources : StorageSegmentId → String) :
    (boundaryPorts sources).Keeps :=
  fun _ _ ↦ rfl

/-- **Ports are matched exactly.** For the reads, the writes and the writes that seed a recurrence:
the assignment succeeds when the accesses of every slot can be given ports of their own that accept
them, and then gives them such ports; otherwise it reports the conflict. -/
theorem ports_exact (hbanked : Banked target segments) {allocations : List StorageAllocation}
    (hlisted : ∀ banked ∈ segments, ∃ allocation ∈ allocations, allocation.segment = banked.id)
    (slotOf : BankedSegment → ℕ) (sources : StorageSegmentId → String) :
    MatchesPorts readPorts (fun allocation ↦ some allocation.readPort) .readPortConflict slotOf
        segments allocations ∧
      MatchesPorts (writePorts sources) (fun allocation ↦ some allocation.writePort)
        .writePortConflict slotOf segments allocations ∧
      MatchesPorts (boundaryPorts sources) StorageAllocation.boundaryWritePort .writePortConflict
        slotOf segments allocations :=
  ⟨matchesPorts hbanked readPorts_keeps (fun _ _ ↦ rfl) (fun _ ↦ ⟨_, rfl, rfl⟩) hlisted,
    matchesPorts hbanked (writePorts_keeps sources) (fun _ _ ↦ rfl) (fun _ ↦ ⟨_, rfl, rfl⟩) hlisted,
    matchesPorts hbanked (boundaryPorts_keeps sources) (fun _ _ ↦ rfl) (fun _ ↦ ⟨_, rfl, rfl⟩)
      hlisted⟩

end SlotEvents

/-! ## An example -/

/-- The operands of a sum, one from its own tile and one from the east, waiting on its tile. -/
def sumSegments : List BankedSegment :=
  [⟨⟨0, 0, ⟨0, 0⟩, .data, 1, 2, [⟨.explicitVirtualHold, 0, some 0⟩]⟩, shippedTarget.bankDesc .data⟩,
    ⟨⟨1, 1, ⟨0, 0⟩, .data, 1, 2, [⟨.terminalSlack, 1, none⟩]⟩, shippedTarget.bankDesc .data⟩]

def sumSources (id : StorageSegmentId) : String :=
  if id = 0 then "FU_DATA_RESULT" else "EAST_DATA_IN"

/-- The operands are written in one slot, through ports of their own; their seeds, two constants,
are a conflict for the one port that accepts a constant. -/
theorem sum_ports_exact :
    (∃ later, assignPorts (writePorts sumSources)
      (slotEvents (fun banked ↦ banked.segment.writeTime % 2) sumSegments)
      (initialAllocations sumSegments some) = .ok later) ∧
    ¬ ∃ later, assignPorts (boundaryPorts fun _ ↦ "CONST_DATA")
      (slotEvents (boundarySlot 2) sumSegments) (initialAllocations sumSegments some)
        = .ok later := by
  have hbanked : Banked shippedTarget sumSegments := ⟨by decide, by decide⟩
  have hlisted : ∀ banked ∈ sumSegments, ∃ allocation ∈ initialAllocations sumSegments some,
      allocation.segment = banked.id := by decide
  have haccepts : ∀ banked ∈ sumSegments, banked.id < banked.bank.writePorts ∧
      RFAllocationVerifier.portAccepts banked.bank banked.id (sumSources banked.id) = true := by
    decide
  have hids : ∀ a ∈ sumSegments, ∀ b ∈ sumSegments, a.id = b.id → a = b := by decide
  have hconstant : ∀ banked ∈ sumSegments, ∀ port < banked.bank.writePorts,
      RFAllocationVerifier.portAccepts banked.bank port "CONST_DATA" = true → port = 1 := by decide
  constructor
  · -- the port of a segment is its id
    refine (ports_exact hbanked hlisted (fun banked ↦ banked.segment.writeTime % 2)
      sumSources).2.1.succeeds_iff.mpr fun key ↦
        ⟨fun banked ↦ banked.1.id, fun banked ↦ ?_, fun a b hab ↦ ?_⟩
    · exact haccepts banked.1 (mem_accessing.mp banked.2).1
    · exact Subtype.ext (hids a.1 (mem_accessing.mp a.2).1 b.1 (mem_accessing.mp b.2).1 hab)
  · intro h
    obtain ⟨port, hport, hinjective⟩ := (ports_exact hbanked hlisted (boundarySlot 2)
      fun _ ↦ "CONST_DATA").2.2.succeeds_iff.mp h ⟨⟨⟨0, 0⟩, "data_rf"⟩, 1⟩
    have hone : ∀ banked, port banked = 1 := fun banked ↦
      hconstant banked.1 (mem_accessing.mp banked.2).1 _ (hport banked).1 (hport banked).2
    have hmem : ∀ banked ∈ sumSegments,
        banked ∈ accessing (boundarySlot 2) sumSegments ⟨⟨⟨0, 0⟩, "data_rf"⟩, 1⟩ := by decide
    have hsame : (⟨sumSegments[0], hmem _ (by decide)⟩ : {banked // banked ∈ accessing
        (boundarySlot 2) sumSegments ⟨⟨⟨0, 0⟩, "data_rf"⟩, 1⟩})
          = ⟨sumSegments[1], hmem _ (by decide)⟩ := hinjective ((hone _).trans (hone _).symm)
    have hid : sumSegments[0].id = sumSegments[1].id := congrArg (fun banked ↦ banked.1.id) hsame
    exact absurd hid (by decide)

end RFAllocator

end PredicatedMesh
