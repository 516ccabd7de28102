import PredicatedMesh.Library.Interning
import PredicatedMesh.Lowering.Manifest
import PredicatedMesh.Schedule.Execution

/-!
# The constant image

Constants are allocated by value: the allocator numbers the low 32 bits of the constants as they
turn up, and the address of a constant is the number of its value. The entries of the image are
sorted by constant afterwards, and the manifest writes the first entry it meets for an address, so
which constant stands for an address depends on that order. The word does not: constants that share
an address agree on the low 32 bits, and no more than these is written.
-/

namespace PredicatedMesh

open Interning

/-- The part of a constant that the constant memory keeps. -/
def ConstantValue.lowBits (constant : ConstantValue) : ℕ := constant.bits % 2 ^ 32

theorem ConstantValue.ofNat_bits_eq {a b : ConstantValue} (h : a.lowBits = b.lowBits) :
    BitVec.ofNat 32 a.bits = BitVec.ofNat 32 b.bits := by
  apply BitVec.eq_of_toNat_eq
  rw [BitVec.toNat_ofNat, BitVec.toNat_ofNat]
  exact h

namespace ConstantAllocator

/-- A constant at the number of its value. -/
def allocation (values : List ℕ) (constant : ConstantValue) : ConstantAllocation :=
  ⟨constant.id, values.idxOf constant.lowBits, constant.bits⟩

/-- **What the allocator does**: it numbers the values, and fails when there are more of them than
the memory has words. -/
theorem allocateFrom_eq {target : TargetModel} {constants : List ConstantValue} {known : List ℕ}
    (hknown : known.length ≤ target.constantMemoryDepth) :
    allocateFrom target constants known.zipIdx
      = if (intern known (constants.map ConstantValue.lowBits)).length
            ≤ target.constantMemoryDepth then
          .ok (constants.map (allocation (intern known (constants.map ConstantValue.lowBits))))
        else .error "constant memory capacity exceeded" := by
  induction constants generalizing known with
  | nil =>
    rw [allocateFrom, List.map_nil, intern, if_pos hknown]
    rfl
  | cons constant constants ih =>
    rw [allocateFrom, List.map_cons, intern]
    have hlow : constant.bits % 2 ^ 32 = constant.lowBits := rfl
    simp only [hlow, find?_zipIdx, Nat.zero_add]
    by_cases hmem : constant.lowBits ∈ known
    · simp only [if_pos hmem, ih hknown, List.map_cons]
      split
      · rw [allocation, idxOf_intern hmem]
        rfl
      · rfl
    · simp only [if_neg hmem, List.length_zipIdx]
      have hlength : (known ++ [constant.lowBits]).length = known.length + 1 := by simp
      by_cases hroom : known.length ≥ target.constantMemoryDepth
      · have hprefix : known ++ [constant.lowBits] <+:
            intern (known ++ [constant.lowBits]) (constants.map ConstantValue.lowBits) :=
          prefix_intern
        have hle := hprefix.length_le
        rw [if_pos hroom, if_neg (by omega)]
      · have hnext : known.zipIdx ++ [(constant.lowBits, known.length)]
            = (known ++ [constant.lowBits]).zipIdx := by
          rw [List.zipIdx_append]
          simp
        rw [if_neg hroom, hnext, ih (by omega)]
        have hlast : constant.lowBits ∈ known ++ [constant.lowBits] := by simp
        split
        · rw [List.map_cons, allocation, idxOf_intern hlast, List.idxOf_append_of_notMem hmem,
            List.idxOf_cons_self, Nat.add_zero]
          rfl
        · rfl

variable {dfg : TargetDFG} {target : TargetModel} {image : ConstantImage}

/-- The number of values decides, and they are numbered in the order of the graph's constants. -/
theorem allocate_cases (dfg : TargetDFG) (target : TargetModel) :
    (target.constantMemoryDepth < (dfg.constants.map ConstantValue.lowBits).dedup.length ∧
        allocate dfg target = .error "constant memory capacity exceeded") ∨
      ((dfg.constants.map ConstantValue.lowBits).dedup.length ≤ target.constantMemoryDepth ∧
        allocate dfg target = .ok ⟨(dfg.constants.map
          (allocation (intern [] (dfg.constants.map ConstantValue.lowBits)))).insertionSort
            fun lhs rhs ↦ lhs.constant ≤ rhs.constant⟩) := by
  have hrun := @allocateFrom_eq target dfg.constants [] (Nat.zero_le _)
  rw [List.zipIdx_nil, length_intern] at hrun
  rw [allocate, hrun]
  by_cases hroom : (dfg.constants.map ConstantValue.lowBits).dedup.length
      ≤ target.constantMemoryDepth
  · rw [if_pos hroom]
    exact .inr ⟨hroom, rfl⟩
  · rw [if_neg hroom]
    exact .inl ⟨not_le.mp hroom, rfl⟩

theorem entries_perm (h : allocate dfg target = .ok image) :
    image.entries.Perm (dfg.constants.map
      (allocation (intern [] (dfg.constants.map ConstantValue.lowBits)))) := by
  rcases allocate_cases dfg target with ⟨-, herror⟩ | ⟨-, hok⟩
  · rw [herror] at h
    cases h
  · obtain rfl := Except.ok.inj (hok.symm.trans h)
    exact List.perm_insertionSort _ _

/-- A constant is found at the number of its value. -/
theorem location_eq (hids : (dfg.constants.map ConstantValue.id).Nodup)
    (h : allocate dfg target = .ok image) {constant : ConstantValue}
    (hmem : constant ∈ dfg.constants) : image.location constant.id
      = some ((intern [] (dfg.constants.map ConstantValue.lowBits)).idxOf constant.lowBits) := by
  have hperm := entries_perm h
  have hnodup : (image.entries.map ConstantAllocation.constant).Nodup := by
    rw [(hperm.map ConstantAllocation.constant).nodup_iff, List.map_map]
    exact hids
  have hfind : image.entries.find? (fun entry ↦ entry.constant == constant.id)
      = some (allocation (intern [] (dfg.constants.map ConstantValue.lowBits)) constant) :=
    (Scan.find?_eq_some_iff_of_nodup hnodup).mpr
      ⟨hperm.mem_iff.mpr (List.mem_map_of_mem hmem), rfl⟩
  rw [ConstantImage.location, hfind]
  rfl

theorem mem_entries (h : allocate dfg target = .ok image) {entry : ConstantAllocation} :
    entry ∈ image.entries ↔ ∃ constant ∈ dfg.constants,
      allocation (intern [] (dfg.constants.map ConstantValue.lowBits)) constant = entry := by
  rw [(entries_perm h).mem_iff, List.mem_map]

/-- Two constants have the same number when they have the same value. -/
theorem idxOf_eq_iff {a b : ConstantValue} (ha : a ∈ dfg.constants) :
    (intern [] (dfg.constants.map ConstantValue.lowBits)).idxOf a.lowBits
        = (intern [] (dfg.constants.map ConstantValue.lowBits)).idxOf b.lowBits
      ↔ a.lowBits = b.lowBits :=
  List.idxOf_inj (mem_intern.mpr (.inr (List.mem_map_of_mem ha)))

end ConstantAllocator

/-! ## The words of the constant memory -/

namespace ProgramManifestBuilder

/-- A word of a constant memory and its address. -/
def constantEntry (word : ℕ × BitVec 32) : Json :=
  .obj [("addr", .nat word.1), ("value", .str (Hex.word word.2))]

/-- Each address is written once, with the word of one of its allocations. -/
theorem constantEntries_eq (allocations : List ConstantAllocation) (emitted : List ℕ) :
    ∃ words : List (ℕ × BitVec 32), constantEntries allocations emitted = words.map constantEntry ∧
      (words.map Prod.fst).Nodup ∧
      (∀ word ∈ words, word.1 ∉ emitted ∧ ∃ allocation ∈ allocations,
        word = (allocation.address, BitVec.ofNat 32 allocation.bits)) ∧
      ∀ allocation ∈ allocations,
        allocation.address ∈ emitted ∨ allocation.address ∈ words.map Prod.fst := by
  induction allocations generalizing emitted with
  | nil => exact ⟨[], rfl, List.nodup_nil, nofun, nofun⟩
  | cons first allocations ih =>
    rw [constantEntries]
    by_cases hemitted : first.address ∈ emitted
    · obtain ⟨words, hwords, hnodup, hsound, hcomplete⟩ := ih emitted
      rw [if_pos hemitted]
      refine ⟨words, hwords, hnodup, fun word hword ↦ ?_, ?_⟩
      · obtain ⟨hnew, allocation, hmem, hword⟩ := hsound word hword
        exact ⟨hnew, allocation, List.mem_cons_of_mem _ hmem, hword⟩
      · rw [List.forall_mem_cons]
        exact ⟨.inl hemitted, hcomplete⟩
    · obtain ⟨words, hwords, hnodup, hsound, hcomplete⟩ := ih (first.address :: emitted)
      rw [if_neg hemitted, hwords]
      refine ⟨(first.address, BitVec.ofNat 32 first.bits) :: words, rfl, ?_, ?_, ?_⟩
      · rw [List.map_cons, List.nodup_cons]
        refine ⟨fun hmem ↦ ?_, hnodup⟩
        obtain ⟨word, hword, haddress⟩ := List.mem_map.mp hmem
        exact (hsound word hword).1 (haddress ▸ List.mem_cons_self)
      · rw [List.forall_mem_cons]
        refine ⟨⟨hemitted, first, List.mem_cons_self, rfl⟩, fun word hword ↦ ?_⟩
        obtain ⟨hnew, allocation, hmem, hword⟩ := hsound word hword
        exact ⟨fun h ↦ hnew (List.mem_cons_of_mem _ h), allocation, List.mem_cons_of_mem _ hmem,
          hword⟩
      · rw [List.forall_mem_cons]
        refine ⟨.inr List.mem_cons_self, fun allocation hmem ↦ ?_⟩
        rcases hcomplete allocation hmem with h | h
        · rcases List.mem_cons.mp h with h | h
          · exact .inr (h ▸ List.mem_cons_self)
          · exact .inl h
        · exact .inr (List.mem_cons_of_mem _ h)

end ProgramManifestBuilder

/-! ## The image as a whole -/

/-- **The constant image is consistent.** There is one address for each value, from zero on, and the
constant memory of every tile of a manifest has each address once, with the low bits of every
constant there. -/
theorem constant_image_consistent (dfg : TargetDFG) (target : TargetModel)
    (hids : (dfg.constants.map ConstantValue.id).Nodup) :
    ((∃ what, ConstantAllocator.allocate dfg target = .error what) ↔
      target.constantMemoryDepth < (dfg.constants.map ConstantValue.lowBits).dedup.length) ∧
    ∀ image, ConstantAllocator.allocate dfg target = .ok image →
      (∀ constant ∈ dfg.constants, ∃ address, image.location constant.id = some address ∧
        ∀ entry ∈ image.entries, entry.constant = constant.id →
          entry = ⟨constant.id, address, constant.bits⟩) ∧
      (∀ a ∈ dfg.constants, ∀ b ∈ dfg.constants,
        image.location a.id = image.location b.id ↔ a.lowBits = b.lowBits) ∧
      (∀ address, (∃ entry ∈ image.entries, entry.address = address) ↔
        address < (dfg.constants.map ConstantValue.lowBits).dedup.length) ∧
      ∃ words : List (ℕ × BitVec 32), (words.map Prod.fst).Nodup ∧
        (∀ word, word ∈ words ↔ ∃ constant ∈ dfg.constants,
          image.location constant.id = some word.1 ∧ word.2 = BitVec.ofNat 32 constant.bits) ∧
        (∀ options controls, ∀ tile ∈
            ProgramManifestBuilder.tileImages target image options controls,
          tile.field? "const_memory"
            = some (.arr (words.map ProgramManifestBuilder.constantEntry))) ∧
        ∀ program encoded options manifest,
          ProgramManifestBuilder.build target program encoded image options = .ok manifest →
          ∃ tiles, (manifest.field? "program").bind (·.field? "tiles") = some (.arr tiles) ∧
            ∀ tile ∈ tiles, tile.field? "const_memory"
              = some (.arr (words.map ProgramManifestBuilder.constantEntry)) := by
  have hnumber : ∀ constant ∈ dfg.constants,
      (intern [] (dfg.constants.map ConstantValue.lowBits)).idxOf constant.lowBits
        < (dfg.constants.map ConstantValue.lowBits).dedup.length :=
    fun constant hmem ↦ idxOf_lt_length_intern (List.mem_map_of_mem hmem)
  refine ⟨?_, fun image h ↦ ⟨?_, ?_, ?_, ?_⟩⟩
  · rcases ConstantAllocator.allocate_cases dfg target with ⟨hdepth, herror⟩ | ⟨hroom, hok⟩
    · exact ⟨fun _ ↦ hdepth, fun _ ↦ ⟨_, herror⟩⟩
    · constructor
      · rintro ⟨what, herror⟩
        rw [hok] at herror
        cases herror
      · intro hdepth
        exact absurd hroom (not_le.mpr hdepth)
  · intro constant hmem
    refine ⟨_, ConstantAllocator.location_eq hids h hmem, fun entry hentry hid ↦ ?_⟩
    obtain ⟨other, hother, rfl⟩ := (ConstantAllocator.mem_entries h).mp hentry
    obtain rfl := List.inj_on_of_nodup_map hids hother hmem hid
    rfl
  · intro a ha b hb
    rw [ConstantAllocator.location_eq hids h ha, ConstantAllocator.location_eq hids h hb,
      Option.some.injEq, ConstantAllocator.idxOf_eq_iff ha]
  · intro address
    constructor
    · rintro ⟨entry, hentry, rfl⟩
      obtain ⟨constant, hmem, rfl⟩ := (ConstantAllocator.mem_entries h).mp hentry
      exact hnumber constant hmem
    · intro haddress
      rw [← length_intern] at haddress
      have hvalue := mem_intern.mp (List.getElem_mem haddress)
      obtain ⟨constant, hmem, hlow⟩ := List.mem_map.mp (hvalue.resolve_left List.not_mem_nil)
      refine ⟨_, (ConstantAllocator.mem_entries h).mpr ⟨constant, hmem, rfl⟩, ?_⟩
      rw [ConstantAllocator.allocation, hlow]
      exact (nodup_intern List.nodup_nil).idxOf_getElem address haddress
  · obtain ⟨words, hwords, hnodup, hsound, hcomplete⟩ :=
      ProgramManifestBuilder.constantEntries_eq image.entries []
    have htiles : ∀ options controls, ∀ tile ∈
        ProgramManifestBuilder.tileImages target image options controls,
          tile.field? "const_memory"
            = some (.arr (words.map ProgramManifestBuilder.constantEntry)) := by
      intro options controls tile htile
      rw [ProgramManifestBuilder.tileImages, hwords] at htile
      obtain ⟨row, -, hrow⟩ := List.mem_flatMap.mp htile
      obtain ⟨col, -, rfl⟩ := List.mem_map.mp hrow
      simp [ProgramManifestBuilder.tileImage]
    refine ⟨words, hnodup, fun word ↦ ?_, htiles, fun program encoded options manifest hbuilt ↦ ?_⟩
    · constructor
      · intro hword
        obtain ⟨-, entry, hentry, rfl⟩ := hsound word hword
        obtain ⟨constant, hmem, rfl⟩ := (ConstantAllocator.mem_entries h).mp hentry
        exact ⟨constant, hmem, ConstantAllocator.location_eq hids h hmem, rfl⟩
      · rintro ⟨constant, hmem, hlocation, hvalue⟩
        -- the word at this address was written for some constant with the same value
        rw [ConstantAllocator.location_eq hids h hmem, Option.some.injEq] at hlocation
        have hentry := (ConstantAllocator.mem_entries h).mpr ⟨constant, hmem, rfl⟩
        obtain ⟨written, hwritten, haddress⟩ :=
          List.mem_map.mp ((hcomplete _ hentry).resolve_left List.not_mem_nil)
        obtain ⟨-, entry, hentry', rfl⟩ := hsound written hwritten
        obtain ⟨other, hother, rfl⟩ := (ConstantAllocator.mem_entries h).mp hentry'
        have hlow := (ConstantAllocator.idxOf_eq_iff hother).mp haddress
        have hword : word = (word.1, word.2) := rfl
        rw [hword, ← hlocation, hvalue, ← ConstantValue.ofNat_bits_eq hlow, ← hlow]
        exact hwritten
    · obtain ⟨controls, -, hmanifest⟩ := Scan.bind_eq_ok.mp hbuilt
      rw [← Except.ok.inj hmanifest]
      refine ⟨_, ?_, htiles options controls⟩
      simp

/-- Two constants that differ above the low 32 bits, in the reverse order of their ids. -/
def sharedConstantsDFG : TargetDFG :=
  { delayLineDFG with
    constants := [⟨5, ValueType.integer 64, 7⟩, ⟨1, ValueType.integer 64, 2 ^ 32 + 7⟩] }

theorem sharedConstants_share_address :
    ∃ image, ConstantAllocator.allocate sharedConstantsDFG shippedTarget = .ok image ∧
      image.location 5 = image.location 1 := by
  have hids : (sharedConstantsDFG.constants.map ConstantValue.id).Nodup := by decide
  have hallocated : (ConstantAllocator.allocate sharedConstantsDFG shippedTarget).toOption.map
      (fun image ↦ image.location 5) = some (some 0) := by decide
  obtain ⟨image, himage, -⟩ := Scan.exists_of_toOption_map hallocated
  have hshared := ((constant_image_consistent sharedConstantsDFG shippedTarget hids).2 image
    himage).2.1
  exact ⟨image, himage, (hshared ⟨5, ValueType.integer 64, 7⟩ (by decide)
    ⟨1, ValueType.integer 64, 2 ^ 32 + 7⟩ (by decide)).mpr (by decide)⟩

end PredicatedMesh
