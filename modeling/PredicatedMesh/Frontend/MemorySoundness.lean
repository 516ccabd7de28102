import PredicatedMesh.Frontend.MemoryAnalysis
import PredicatedMesh.Library.Scan

/-!
# Which collisions the memory dependences cover

An instance of an access is the access in one iteration. Two instances collide when they touch the
same word and one of them stores; the earlier one must then be ordered before the later one by a
dependence whose distance the two iterations reach. The analysis finds that dependence for every
pair of accesses it compares, whatever the bases are and whichever path each iteration takes.

It does not compare the pairs that the alias analysis separates. An answer of `noAlias` speaks
about one iteration only, so for such a pair instances of different iterations may still collide,
and no dependence orders them: `dependence_iff_compared` says that these pairs are the only
exception.
-/

namespace PredicatedMesh.Frontend

/-! ## Runs of the loop -/

/-- A run of the loop: the blocks each iteration visits, in order. A block is visited at most once
in an iteration of an innermost loop, and after every block of the loop that dominates it. -/
structure LoopRun (analyses : LLVMAnalyses) where
  /-- The blocks of an iteration, none after the last one. -/
  path : ℕ → List ℕ
  nodup : ∀ i, (path i).Nodup
  inside : ∀ i, ∀ block ∈ path i, analyses.contains block = true
  dominator_first : ∀ i a b, analyses.contains a = true → analyses.dominates a b = true → a ≠ b →
    b ∈ path i → (path i).idxOf a < (path i).idxOf b

variable {analyses : LLVMAnalyses}

namespace LoopRun

variable (run : LoopRun analyses)

/-- The iteration executes the access. -/
def Executes (access : LLVMMemoryAccessDescriptor) (i : ℕ) : Prop :=
  access.instruction.parent ∈ run.path i

/-- Program order within one iteration. -/
def PrecedesIn (i : ℕ) (a b : LLVMMemoryAccessDescriptor) : Prop :=
  (run.path i).idxOf a.instruction.parent < (run.path i).idxOf b.instruction.parent ∨
    a.instruction.parent = b.instruction.parent ∧ a.instruction.position < b.instruction.position

/-- Sequential program order of two instances. -/
def Precedes (a : LLVMMemoryAccessDescriptor) (i : ℕ) (b : LLVMMemoryAccessDescriptor) (j : ℕ) :
    Prop :=
  i < j ∨ i = j ∧ run.PrecedesIn i a b

theorem not_precedesIn_self (i : ℕ) (a : LLVMMemoryAccessDescriptor) :
    ¬run.PrecedesIn i a a := by
  rintro (h | ⟨-, h⟩)
  · exact lt_irrefl _ h
  · exact lt_irrefl _ h

/-- An access that the analysis puts first does not come second in any iteration. -/
theorem not_precedesIn_of_before {a b : LLVMMemoryAccessDescriptor} {i j : ℕ}
    (hbefore : instructionBefore analyses a.instruction b.instruction = true)
    (ha : run.Executes a j) (hb : run.Executes b i) : ¬run.PrecedesIn i b a := by
  rw [instructionBefore] at hbefore
  by_cases hparent : a.instruction.parent = b.instruction.parent
  · rw [if_pos hparent, decide_eq_true_eq] at hbefore
    rintro (h | ⟨-, h⟩)
    · rw [hparent] at h
      exact lt_irrefl _ h
    · exact lt_asymm hbefore h
  · rw [if_neg hparent] at hbefore
    have hfirst := run.dominator_first i _ _ (run.inside j _ ha) hbefore hparent hb
    rintro (h | ⟨h, -⟩)
    · exact lt_asymm hfirst h
    · exact hparent h.symm

end LoopRun

/-! ## Addresses -/

/-- The word an access touches in an iteration, given the addresses of the root objects. -/
def touchedWord (base : PointerRoot → ℤ) (access : LLVMMemoryAccessDescriptor) (i : ℕ) : ℤ :=
  base access.base + access.constantOffsetWords + i * access.iterationStrideWords

/-- The alias answer the analysis asks for, the access earlier in the list first. -/
def aliasAnswer (analyses : LLVMAnalyses) (a b : LLVMMemoryAccessDescriptor) : AliasResult :=
  if a.id < b.id then analyses.aliasAnalysis a.instruction b.instruction
  else analyses.aliasAnalysis b.instruction a.instruction

/-- The pair is left to the alias analysis, which separates it. -/
def SeparatedByAlias (analyses : LLVMAnalyses) (a b : LLVMMemoryAccessDescriptor) : Prop :=
  a.id ≠ b.id ∧ exactPair a b = false ∧ aliasAnswer analyses a b = .noAlias

/-- What `noAlias` promises: within an iteration that executes both accesses they touch different
words. -/
def AliasConsistent (run : LoopRun analyses) (base : PointerRoot → ℤ)
    (accesses : List LLVMMemoryAccessDescriptor) : Prop :=
  ∀ a ∈ accesses, ∀ b ∈ accesses, a.id ≠ b.id → aliasAnswer analyses a b = .noAlias →
    ∀ i, run.Executes a i → run.Executes b i → touchedWord base a i ≠ touchedWord base b i

/-- Two instances that must stay in order: the first precedes the second, they touch one word, and
one of them stores. -/
structure Collision (run : LoopRun analyses) (base : PointerRoot → ℤ)
    (a : LLVMMemoryAccessDescriptor) (i : ℕ) (b : LLVMMemoryAccessDescriptor) (j : ℕ) : Prop where
  executes_left : run.Executes a i
  executes_right : run.Executes b j
  precedes : run.Precedes a i b j
  sameWord : touchedWord base a i = touchedWord base b j
  store : isStore a = true ∨ isStore b = true

/-- A dependence of the right kind that two iterations this far apart obey. -/
def Covered (dependences : List LLVMMemoryDependenceDescriptor)
    (a b : LLVMMemoryAccessDescriptor) (iterations : ℕ) : Prop :=
  ∃ d ∈ dependences, d.sourceAccess = a.id ∧ d.destinationAccess = b.id ∧
    d.kind = dependenceKind a b ∧ d.distance ≤ iterations

/-! ## What the analysis of one access establishes -/

/-- The affine description of one `getelementptr` whose index follows `affine`. -/
structure DescribesIndex (analyses : LLVMAnalyses) (offset : GEPOffset) (index : Scalar)
    (scaleBytes : ℤ) (affine : AffineValue) : Prop where
  variableOffsets : offset.variableOffsets = [(index, scaleBytes)]
  aligned : scaleBytes.tmod 4 = 0
  scale : fitsAddressWord (scaleBytes.tdiv 4) = true
  affineValue : affineValue analyses index = some affine
  start : fitsAddressWord affine.offset = true
  step : fitsAddressWord affine.stride = true
  derivedOffset :
    fitsAddressWord (offset.constantOffset.tdiv 4 + affine.offset * scaleBytes.tdiv 4) = true
  derivedStride : fitsAddressWord (affine.stride * scaleBytes.tdiv 4) = true

/-- What an accepted `getelementptr` contributes to a descriptor. -/
theorem describeOffset_ok {d d' : LLVMMemoryAccessDescriptor} {collected : Option GEPOffset}
    (h : describeOffset analyses d collected = .ok d') :
    ∃ offset, collected = some offset ∧ offset.constantOffset.tmod 4 = 0 ∧
      fitsAddressWord (offset.constantOffset.tdiv 4) = true ∧
      (offset.variableOffsets = [] ∧
          d' = { d with
            gepConstantOffsetWords := offset.constantOffset.tdiv 4
            constantOffsetWords := offset.constantOffset.tdiv 4 } ∨
        ∃ index scaleBytes affine, DescribesIndex analyses offset index scaleBytes affine ∧
          d' = { d with
            gepConstantOffsetWords := offset.constantOffset.tdiv 4
            dynamicIndex := some index
            dynamicScaleWords := scaleBytes.tdiv 4
            constantOffsetWords :=
              offset.constantOffset.tdiv 4 + affine.offset * scaleBytes.tdiv 4
            iterationStrideWords := affine.stride * scaleBytes.tdiv 4 }) := by
  unfold describeOffset nonAffine at h
  split at h
  · cases h
  rename_i offset
  split at h
  · cases h
  rename_i haligned
  simp only at h
  split at h
  · cases h
  rename_i hgep
  simp only [not_or, ne_eq, not_not, Bool.not_eq_false] at haligned hgep
  refine ⟨offset, rfl, haligned.2, hgep, ?_⟩
  split at h
  · rename_i hvariable
    cases h
    exact .inl ⟨hvariable, rfl⟩
  · rename_i index scaleBytes hvariable
    split at h
    · cases h
    rename_i hscale
    split at h
    · cases h
    rename_i hscaleWords
    split at h
    · cases h
    rename_i affine haffine
    split at h
    · cases h
    rename_i hindex
    split at h
    · cases h
    rename_i hderived
    simp only [not_or, ne_eq, not_not, Bool.not_eq_false] at hscale hscaleWords hindex hderived
    cases h
    exact .inr ⟨index, scaleBytes, affine,
      ⟨hvariable, hscale.2, hscaleWords, haffine, hindex.1, hindex.2, hderived.1, hderived.2⟩, rfl⟩
  · cases h

theorem analyzeAccess_ok {instruction : MemoryInstruction} {d : LLVMMemoryAccessDescriptor}
    (h : analyzeAccess analyses instruction = .ok d) :
    instruction.address.asGEPInst = none ∧ d = initialDescriptor analyses instruction ∨
      ∃ collected, instruction.address.asGEPInst = some collected ∧
        describeOffset analyses (initialDescriptor analyses instruction) collected = .ok d := by
  unfold analyzeAccess at h
  iterate 4
    split at h
    · cases h
  simp only at h
  split at h
  · cases h
  split at h
  · rename_i hgep
    cases h
    exact .inl ⟨hgep, rfl⟩
  · rename_i collected hgep
    exact .inr ⟨collected, hgep, h⟩

/-- Every descriptor is exact, and its offset lies in the address domain. -/
structure LLVMMemoryAccessDescriptor.Bounded (d : LLVMMemoryAccessDescriptor) : Prop where
  exactAffine : d.exactAffine = true
  accessWidth : d.accessWidthBits = 32
  offset : fitsAddressWord d.constantOffsetWords = true

theorem analyzeAccess_bounded {instruction : MemoryInstruction} {d : LLVMMemoryAccessDescriptor}
    (h : analyzeAccess analyses instruction = .ok d) : d.Bounded := by
  rcases analyzeAccess_ok h with ⟨-, rfl⟩ | ⟨collected, -, h⟩
  · exact ⟨rfl, rfl, rfl⟩
  · obtain ⟨offset, -, -, hgep, ⟨-, rfl⟩ | ⟨index, scaleBytes, affine, hindex, rfl⟩⟩ :=
      describeOffset_ok h
    · exact ⟨rfl, rfl, hgep⟩
    · exact ⟨rfl, rfl, hindex.derivedOffset⟩

/-! ## Pairs and their numbering -/

section Pairs

variable {α : Type*} {l : List α}

theorem of_mem_indexPairs {R : α → α → Prop} (hl : l.Pairwise R) {p : α × α}
    (hp : p ∈ indexPairs l) : p.1 ∈ l ∧ p.2 ∈ l ∧ R p.1 p.2 := by
  induction l with
  | nil => cases hp
  | cons a l ih =>
    rw [List.pairwise_cons] at hl
    rw [indexPairs, List.mem_append] at hp
    rcases hp with hp | hp
    · obtain ⟨b, hb, rfl⟩ := List.mem_map.mp hp
      exact ⟨List.mem_cons_self, List.mem_cons_of_mem _ hb, hl.1 b hb⟩
    · obtain ⟨h₁, h₂, hR⟩ := ih hl.2 hp
      exact ⟨List.mem_cons_of_mem _ h₁, List.mem_cons_of_mem _ h₂, hR⟩

/-- The nested loops visit every two different elements, in one order or the other. -/
theorem mem_indexPairs_or {a b : α} (ha : a ∈ l) (hb : b ∈ l) (hne : a ≠ b) :
    (a, b) ∈ indexPairs l ∨ (b, a) ∈ indexPairs l := by
  induction l with
  | nil => cases ha
  | cons c l ih =>
    simp only [indexPairs, List.mem_append]
    rcases List.mem_cons.mp ha with rfl | hal
    · rcases List.mem_cons.mp hb with rfl | hbl
      · exact absurd rfl hne
      · exact .inl (.inl (List.mem_map.mpr ⟨b, hbl, rfl⟩))
    · rcases List.mem_cons.mp hb with rfl | hbl
      · exact .inr (.inl (List.mem_map.mpr ⟨a, hal, rfl⟩))
      · exact (ih hal hbl).imp .inr .inr

end Pairs

section Numbering

variable {l : List LLVMMemoryAccessDescriptor} {a b : LLVMMemoryAccessDescriptor}

/-- The accesses of a result are numbered in the order of the list. -/
theorem pairwise_id_mapIdx (l : List LLVMMemoryAccessDescriptor) :
    (l.mapIdx fun id access ↦ { access with id }).Pairwise fun a b ↦ a.id < b.id := by
  rw [List.pairwise_iff_getElem]
  intro i j hi hj hij
  simpa using hij

theorem eq_of_id_eq (hl : l.Pairwise fun a b ↦ a.id < b.id) (ha : a ∈ l) (hb : b ∈ l)
    (hid : a.id = b.id) : a = b := by
  by_contra hne
  rcases mem_indexPairs_or ha hb hne with hp | hp
  · exact absurd (of_mem_indexPairs hl hp).2.2 (by simp [hid])
  · exact absurd (of_mem_indexPairs hl hp).2.2 (by simp [hid])

theorem mem_indexPairs_of_id_lt (hl : l.Pairwise fun a b ↦ a.id < b.id) (ha : a ∈ l) (hb : b ∈ l)
    (hid : a.id < b.id) : (a, b) ∈ indexPairs l := by
  have hne : a ≠ b := by
    rintro rfl
    exact lt_irrefl _ hid
  rcases mem_indexPairs_or ha hb hne with hp | hp
  · exact hp
  · exact absurd (of_mem_indexPairs hl hp).2.2 (lt_asymm hid)

end Numbering

/-! ## The dependences of a result -/

namespace DependenceState

/-- The keys of the dependences found. -/
def keys (state : DependenceState) : List DependenceKey :=
  state.dependences.map LLVMMemoryDependenceDescriptor.key

/-- The set of seen keys is the set of keys found. -/
def Consistent (state : DependenceState) : Prop := ∀ k, k ∈ state.seen ↔ k ∈ state.keys

variable {state : DependenceState}

theorem Consistent.add (h : state.Consistent) (d : LLVMMemoryDependenceDescriptor) :
    (addDependence state d).Consistent ∧
      ∀ k, k ∈ (addDependence state d).keys ↔ k ∈ state.keys ∨ k = d.key := by
  by_cases hseen : d.key ∈ state.seen
  · rw [addDependence, if_pos hseen]
    refine ⟨h, fun k ↦ ⟨.inl, ?_⟩⟩
    rintro (hk | rfl)
    · exact hk
    · exact (h _).mp hseen
  · rw [addDependence, if_neg hseen]
    have hkeys : ∀ k, k ∈ keys ⟨d.key :: state.seen, state.dependences ++ [d]⟩ ↔
        k ∈ state.keys ∨ k = d.key := by
      intro k
      simp [keys]
    refine ⟨fun k ↦ ?_, hkeys⟩
    rw [hkeys, List.mem_cons, h k, or_comm]

theorem Consistent.addAll (h : state.Consistent) (ds : List LLVMMemoryDependenceDescriptor) :
    (ds.foldl addDependence state).Consistent ∧
      ∀ k, k ∈ (ds.foldl addDependence state).keys ↔
        k ∈ state.keys ∨ k ∈ ds.map LLVMMemoryDependenceDescriptor.key := by
  induction ds generalizing state with
  | nil => exact ⟨h, fun k ↦ by simp⟩
  | cons d ds ih =>
    obtain ⟨hcons, hkeys⟩ := h.add d
    obtain ⟨hcons', hkeys'⟩ := ih hcons
    refine ⟨hcons', fun k ↦ ?_⟩
    rw [List.foldl_cons, hkeys' k, hkeys k, List.map_cons, List.mem_cons, or_assoc]

end DependenceState

/-- A run of the comparison loop compares every pair and finds the dependences of each. -/
theorem comparePairs_spec {state state' : DependenceState}
    {pairs : List (LLVMMemoryAccessDescriptor × LLVMMemoryAccessDescriptor)}
    (hstate : state.Consistent) (h : comparePairs analyses state pairs = .ok state') :
    (∀ p ∈ pairs, ∃ found, comparePair analyses p.1 p.2 = .ok found) ∧
      ∀ k, k ∈ state'.keys ↔ k ∈ state.keys ∨ ∃ p ∈ pairs, ∃ found,
        comparePair analyses p.1 p.2 = .ok found ∧
          k ∈ found.map LLVMMemoryDependenceDescriptor.key := by
  induction pairs generalizing state with
  | nil =>
    rw [comparePairs, Except.ok.injEq] at h
    subst h
    simp
  | cons p pairs ih =>
    rw [comparePairs, Scan.bind_eq_ok] at h
    obtain ⟨found, hfound, h⟩ := h
    obtain ⟨hcons, hkeys⟩ := hstate.addAll found
    obtain ⟨hall, hmem⟩ := ih hcons h
    constructor
    · intro q hq
      rcases List.mem_cons.mp hq with rfl | hq
      · exact ⟨found, hfound⟩
      · exact hall q hq
    · intro k
      have hhead : (∃ found, comparePair analyses p.1 p.2 = .ok found ∧
          k ∈ found.map LLVMMemoryDependenceDescriptor.key) ↔
          k ∈ found.map LLVMMemoryDependenceDescriptor.key := by
        rw [hfound]
        simp
      rw [hmem k, hkeys k, or_assoc]
      simp only [List.mem_cons, exists_eq_or_imp, hhead]

/-- The result of an accepted analysis: numbered exact accesses, every pair compared, and exactly
the dependences of the invariant stores and of the pairs. -/
structure LLVMMemoryAnalysisResult.Complete (analyses : LLVMAnalyses)
    (result : LLVMMemoryAnalysisResult) : Prop where
  numbered : result.accesses.Pairwise fun a b ↦ a.id < b.id
  bounded : ∀ a ∈ result.accesses, a.Bounded
  compared : ∀ p ∈ indexPairs result.accesses, ∃ found, comparePair analyses p.1 p.2 = .ok found
  mem_keys_iff : ∀ k, k ∈ result.dependences.map LLVMMemoryDependenceDescriptor.key ↔
    (∃ a ∈ result.accesses, k ∈ (selfDependences a).map LLVMMemoryDependenceDescriptor.key) ∨
      ∃ p ∈ indexPairs result.accesses, ∃ found, comparePair analyses p.1 p.2 = .ok found ∧
        k ∈ found.map LLVMMemoryDependenceDescriptor.key

theorem analyzeMemoryDependences_complete {instructions : List MemoryInstruction}
    {result : LLVMMemoryAnalysisResult}
    (h : analyzeMemoryDependences analyses instructions = .ok result) :
    result.Complete analyses := by
  rw [analyzeMemoryDependences, Scan.bind_eq_ok] at h
  obtain ⟨described, hdescribed, h⟩ := h
  rw [Scan.bind_eq_ok] at h
  obtain ⟨state, hstate, h⟩ := h
  rw [Except.ok.injEq] at h
  subst h
  have hempty : DependenceState.Consistent ⟨[], []⟩ := fun k ↦ by simp [DependenceState.keys]
  obtain ⟨hself, hselfKeys⟩ := hempty.addAll
    ((described.mapIdx fun id access ↦ { access with id }).flatMap selfDependences)
  obtain ⟨hcompared, hkeys⟩ := comparePairs_spec hself hstate
  refine ⟨pairwise_id_mapIdx _, ?_, hcompared, fun k ↦ ?_⟩
  · intro a ha
    obtain ⟨n, hn, rfl⟩ := List.mem_mapIdx.mp ha
    obtain ⟨instruction, -, hok⟩ := Scan.exists_source_of_mem hdescribed (List.getElem_mem hn)
    have hbounded := analyzeAccess_bounded hok
    exact ⟨hbounded.exactAffine, hbounded.accessWidth, hbounded.offset⟩
  · refine (hkeys k).trans (or_congr ?_ Iff.rfl)
    rw [hselfKeys k, List.map_flatMap, List.mem_flatMap]
    simp [DependenceState.keys]

/-! ## Affine distances -/

/-- A whole positive multiple of the stride is solved exactly. -/
theorem positiveDistance_mul {n : ℕ} {stride : ℤ} (hn : 0 < n) (hbound : n ≤ 2 ^ 32 - 1)
    (hstride : stride ≠ 0) : positiveDistance (n * stride) stride = some n := by
  have hmod : ((n : ℤ) * stride).tmod stride = 0 := Int.mul_tmod_left _ _
  have hdiv : ((n : ℤ) * stride).tdiv stride = n := Int.mul_tdiv_cancel _ hstride
  rw [positiveDistance, if_neg (by simp [hstride, hmod])]
  simp only [hdiv]
  rw [if_neg (by omega)]
  simp

/-- Two offsets of the address domain are fewer than `2 ^ 32` strides apart. -/
theorem distance_le {x y stride : ℤ} {n : ℕ} (hx : fitsAddressWord x = true)
    (hy : fitsAddressWord y = true) (hstride : stride ≠ 0) (h : x - y = n * stride) :
    n ≤ 2 ^ 32 - 1 := by
  simp only [fitsAddressWord, decide_eq_true_eq] at hx hy
  have habs : |x - y| ≤ 2 ^ 32 - 1 := abs_le.mpr ⟨by omega, by omega⟩
  have hone : 1 ≤ |stride| := Int.one_le_abs hstride
  rw [h, abs_mul, Nat.abs_cast] at habs
  have hle : (n : ℤ) * 1 ≤ n * |stride| := mul_le_mul_of_nonneg_left hone (Int.natCast_nonneg n)
  omega

/-! ## The dependences of one compared pair -/

section Pair

variable {base : PointerRoot → ℤ} {a b : LLVMMemoryAccessDescriptor} {i j : ℕ}

theorem exactPair_iff (ha : a.Bounded) (hb : b.Bounded) :
    exactPair a b = true ↔
      a.base = b.base ∧ a.iterationStrideWords = b.iterationStrideWords := by
  simp [exactPair, ha.exactAffine, hb.exactAffine, ha.accessWidth, hb.accessWidth]

/-- The equation two colliding instances of an exact pair satisfy. -/
theorem sub_offset_eq (ha : a.Bounded) (hb : b.Bounded) (hexact : exactPair a b = true)
    (hij : i ≤ j) (hword : touchedWord base a i = touchedWord base b j) :
    a.constantOffsetWords - b.constantOffsetWords = (j - i : ℕ) * a.iterationStrideWords := by
  obtain ⟨hbase, hstride⟩ := (exactPair_iff ha hb).mp hexact
  rw [touchedWord, touchedWord, hbase, ← hstride] at hword
  rw [Nat.cast_sub hij]
  linear_combination hword

/-- The key of a dependence from `a` to `b`. -/
def keyOf (a b : LLVMMemoryAccessDescriptor) (distance : ℕ) : DependenceKey :=
  (a.id, b.id, dependenceKind a b, distance)

/-- An exact pair in program order: the earlier access first. -/
theorem exactDependences_forward (ha : a.Bounded) (hb : b.Bounded)
    (hexact : exactPair a b = true) (hij : i ≤ j)
    (hword : touchedWord base a i = touchedWord base b j) :
    ∃ distance ≤ j - i, keyOf a b distance ∈
      (exactDependences a b).map LLVMMemoryDependenceDescriptor.key := by
  have heq := sub_offset_eq ha hb hexact hij hword
  by_cases hsame : a.constantOffsetWords = b.constantOffsetWords
  · refine ⟨0, Nat.zero_le _, ?_⟩
    simp only [exactDependences, if_pos hsame]
    exact List.mem_cons_self
  · have hstride : a.iterationStrideWords ≠ 0 := by
      intro hzero
      rw [hzero, mul_zero] at heq
      exact hsame (sub_eq_zero.mp heq)
    have hpos : 0 < j - i := by
      by_contra hzero
      rw [Nat.eq_zero_of_not_pos hzero, Nat.cast_zero, zero_mul] at heq
      exact hsame (sub_eq_zero.mp heq)
    have hsolved := positiveDistance_mul hpos (distance_le ha.offset hb.offset hstride heq) hstride
    refine ⟨j - i, le_refl _, ?_⟩
    simp only [exactDependences, if_neg hstride, heq, hsolved]
    simp [orderedBy, LLVMMemoryDependenceDescriptor.key, keyOf]

/-- An exact pair in program order: the later access first, in an earlier iteration. -/
theorem exactDependences_backward (ha : a.Bounded) (hb : b.Bounded)
    (hexact : exactPair a b = true) (hij : i < j)
    (hword : touchedWord base a i = touchedWord base b j) :
    ∃ distance ≤ j - i, keyOf a b distance ∈
      (exactDependences b a).map LLVMMemoryDependenceDescriptor.key := by
  have heq := sub_offset_eq ha hb hexact hij.le hword
  have hstrides := ((exactPair_iff ha hb).mp hexact).2
  by_cases hstride : a.iterationStrideWords = 0
  · rw [hstride, mul_zero, sub_eq_zero] at heq
    refine ⟨1, by omega, ?_⟩
    simp only [exactDependences, ← hstrides, hstride, heq, if_true]
    simp [orderedBy, LLVMMemoryDependenceDescriptor.key, keyOf]
  · have hsolved := positiveDistance_mul (Nat.sub_pos_of_lt hij)
      (distance_le ha.offset hb.offset hstride heq) hstride
    refine ⟨j - i, le_refl _, ?_⟩
    simp only [exactDependences, ← hstrides, if_neg hstride, heq, hsolved]
    simp [orderedBy, LLVMMemoryDependenceDescriptor.key, keyOf]

theorem pairDependences_forward (ha : a.Bounded) (hb : b.Bounded) (hij : i ≤ j)
    (hword : touchedWord base a i = touchedWord base b j) :
    ∃ distance ≤ j - i, keyOf a b distance ∈
      (pairDependences a b).map LLVMMemoryDependenceDescriptor.key := by
  by_cases hexact : exactPair a b = true
  · rw [pairDependences, if_pos hexact]
    exact exactDependences_forward ha hb hexact hij hword
  · rw [pairDependences, if_neg hexact]
    exact ⟨0, Nat.zero_le _, List.mem_cons_self⟩

theorem pairDependences_backward (ha : a.Bounded) (hb : b.Bounded) (hij : i < j)
    (hword : touchedWord base a i = touchedWord base b j) :
    ∃ distance ≤ j - i, keyOf a b distance ∈
      (pairDependences b a).map LLVMMemoryDependenceDescriptor.key := by
  have hcomm : exactPair b a = exactPair a b := by
    rw [Bool.eq_iff_iff, exactPair_iff hb ha, exactPair_iff ha hb, eq_comm, and_congr_right_iff]
    exact fun _ ↦ eq_comm
  by_cases hexact : exactPair a b = true
  · rw [pairDependences, hcomm, if_pos hexact]
    exact exactDependences_backward ha hb hexact hij hword
  · rw [pairDependences, hcomm, if_neg hexact]
    exact ⟨1, by omega, List.mem_cons_of_mem _ List.mem_cons_self⟩

/-- A dependence of a pair runs between its two accesses. -/
theorem ids_of_mem_pairDependences {k : DependenceKey}
    (hk : k ∈ (pairDependences a b).map LLVMMemoryDependenceDescriptor.key) :
    k.1 = a.id ∧ k.2.1 = b.id ∨ k.1 = b.id ∧ k.2.1 = a.id := by
  obtain ⟨d, hd, rfl⟩ := List.mem_map.mp hk
  by_cases hexact : exactPair a b = true
  · rw [pairDependences, if_pos hexact] at hd
    simp only [exactDependences, List.mem_append] at hd
    rcases hd with hd | hd
    · split_ifs at hd
      · rw [List.mem_singleton] at hd
        exact .inl ⟨by rw [hd]; rfl, by rw [hd]; rfl⟩
      · cases hd
    · split_ifs at hd
      · rw [List.mem_singleton] at hd
        exact .inr ⟨by rw [hd]; rfl, by rw [hd]; rfl⟩
      · cases hd
      · rcases List.mem_append.mp hd with hd | hd
        · obtain ⟨distance, -, rfl⟩ := List.mem_map.mp hd
          exact .inl ⟨rfl, rfl⟩
        · obtain ⟨distance, -, rfl⟩ := List.mem_map.mp hd
          exact .inr ⟨rfl, rfl⟩
  · rw [pairDependences, if_neg hexact] at hd
    rcases List.mem_cons.mp hd with rfl | hd
    · exact .inl ⟨rfl, rfl⟩
    · rw [List.mem_singleton] at hd
      exact .inr ⟨by rw [hd]; rfl, by rw [hd]; rfl⟩

end Pair

/-! ## One comparison -/

section Comparison

variable {run : LoopRun analyses} {base : PointerRoot → ℤ}
  {a b : LLVMMemoryAccessDescriptor} {i j : ℕ} {found : List LLVMMemoryDependenceDescriptor}

/-- A pair is given its dependences in program order. -/
def InProgramOrder (analyses : LLVMAnalyses) (a b : LLVMMemoryAccessDescriptor)
    (found : List LLVMMemoryDependenceDescriptor) : Prop :=
  instructionBefore analyses a.instruction b.instruction = true ∧ found = pairDependences a b ∨
    instructionBefore analyses b.instruction a.instruction = true ∧ found = pairDependences b a

theorem InProgramOrder.symm (h : InProgramOrder analyses a b found) :
    InProgramOrder analyses b a found :=
  Or.symm h

/-- The two outcomes of comparing a pair with a store in it. -/
theorem comparePair_ok (h : comparePair analyses a b = .ok found)
    (hstore : isStore a = true ∨ isStore b = true) :
    (exactPair a b = false ∧ analyses.aliasAnalysis a.instruction b.instruction = .noAlias) ∧
        found = [] ∨
      ¬(exactPair a b = false ∧
          analyses.aliasAnalysis a.instruction b.instruction = .noAlias) ∧
        InProgramOrder analyses a b found := by
  have hsome : ¬(isStore a = false ∧ isStore b = false) := by
    rintro ⟨ha, hb⟩
    rw [ha, hb] at hstore
    simp at hstore
  rw [comparePair, if_neg hsome] at h
  by_cases hsep : exactPair a b = false ∧
      analyses.aliasAnalysis a.instruction b.instruction = .noAlias
  · rw [if_pos hsep, Except.ok.injEq] at h
    exact .inl ⟨hsep, h.symm⟩
  · rw [if_neg hsep] at h
    refine .inr ⟨hsep, ?_⟩
    split_ifs at h with hab hba
    · exact .inl ⟨hab, (Except.ok.inj h).symm⟩
    · exact .inr ⟨hba, (Except.ok.inj h).symm⟩

theorem ids_of_mem_comparePair (h : comparePair analyses a b = .ok found) {k : DependenceKey}
    (hk : k ∈ found.map LLVMMemoryDependenceDescriptor.key) :
    k.1 = a.id ∧ k.2.1 = b.id ∨ k.1 = b.id ∧ k.2.1 = a.id := by
  by_cases hstore : isStore a = true ∨ isStore b = true
  · rcases comparePair_ok h hstore with ⟨-, rfl⟩ | ⟨-, ⟨-, rfl⟩ | ⟨-, rfl⟩⟩
    · simp at hk
    · exact ids_of_mem_pairDependences hk
    · exact (ids_of_mem_pairDependences hk).symm
  · rw [not_or, Bool.not_eq_true, Bool.not_eq_true] at hstore
    rw [comparePair, if_pos hstore, Except.ok.injEq] at h
    subst h
    simp at hk

/-- Dependences in program order cover every collision of the pair. -/
theorem InProgramOrder.covers (h : InProgramOrder analyses a b found) (ha : a.Bounded)
    (hb : b.Bounded) (hcollision : Collision run base a i b j) :
    ∃ distance ≤ j - i, keyOf a b distance ∈ found.map LLVMMemoryDependenceDescriptor.key := by
  rcases h with ⟨-, rfl⟩ | ⟨hbefore, rfl⟩
  · have hij : i ≤ j := by
      rcases hcollision.precedes with hlt | ⟨heq, -⟩
      · exact hlt.le
      · exact heq.le
    exact pairDependences_forward ha hb hij hcollision.sameWord
  · -- `b` comes first in every iteration, so the instance of `a` is from an earlier one
    have hij : i < j := by
      rcases hcollision.precedes with hlt | ⟨-, hin⟩
      · exact hlt
      · exact absurd hin
          (run.not_precedesIn_of_before hbefore hcollision.executes_right hcollision.executes_left)
    exact pairDependences_backward ha hb hij hcollision.sameWord

end Comparison

/-! ## Coverage -/

section Coverage

variable {run : LoopRun analyses} {base : PointerRoot → ℤ}
  {result : LLVMMemoryAnalysisResult} {a b : LLVMMemoryAccessDescriptor} {i j : ℕ}

theorem covered_iff {dependences : List LLVMMemoryDependenceDescriptor} {iterations : ℕ} :
    Covered dependences a b iterations ↔ ∃ distance ≤ iterations,
      keyOf a b distance ∈ dependences.map LLVMMemoryDependenceDescriptor.key := by
  constructor
  · rintro ⟨d, hd, hsource, hdestination, hkind, hdistance⟩
    refine ⟨d.distance, hdistance, List.mem_map.mpr ⟨d, hd, ?_⟩⟩
    rw [LLVMMemoryDependenceDescriptor.key, keyOf, hsource, hdestination, hkind]
  · rintro ⟨distance, hdistance, hmem⟩
    obtain ⟨d, hd, hkey⟩ := List.mem_map.mp hmem
    simp only [LLVMMemoryDependenceDescriptor.key, keyOf, Prod.mk.injEq] at hkey
    exact ⟨d, hd, hkey.1, hkey.2.1, hkey.2.2.1, hkey.2.2.2.trans_le hdistance⟩

/-- Two different accesses were compared, in the order of the list, and the comparison found either
nothing or the dependences of the pair. -/
theorem LLVMMemoryAnalysisResult.Complete.compared_pair (h : result.Complete analyses)
    (ha : a ∈ result.accesses) (hb : b ∈ result.accesses) (hid : a.id ≠ b.id)
    (hstore : isStore a = true ∨ isStore b = true) :
    ∃ p ∈ indexPairs result.accesses, ∃ found, comparePair analyses p.1 p.2 = .ok found ∧
      (p = (a, b) ∨ p = (b, a)) ∧
      (SeparatedByAlias analyses a b ∧ found = [] ∨
        ¬SeparatedByAlias analyses a b ∧ InProgramOrder analyses a b found) := by
  have hcomm : exactPair b a = exactPair a b := by
    rw [Bool.eq_iff_iff, exactPair_iff (h.bounded b hb) (h.bounded a ha),
      exactPair_iff (h.bounded a ha) (h.bounded b hb), eq_comm, and_congr_right_iff]
    exact fun _ ↦ eq_comm
  rcases Nat.lt_or_gt_of_ne hid with hlt | hlt
  · have hp := mem_indexPairs_of_id_lt h.numbered ha hb hlt
    obtain ⟨found, hfound⟩ := h.compared _ hp
    have hsep : SeparatedByAlias analyses a b ↔ exactPair a b = false ∧
        analyses.aliasAnalysis a.instruction b.instruction = .noAlias := by
      rw [SeparatedByAlias, aliasAnswer, if_pos hlt]
      simp [hid]
    refine ⟨_, hp, found, hfound, .inl rfl, ?_⟩
    rw [hsep]
    exact comparePair_ok hfound hstore
  · have hp := mem_indexPairs_of_id_lt h.numbered hb ha hlt
    obtain ⟨found, hfound⟩ := h.compared _ hp
    have hsep : SeparatedByAlias analyses a b ↔ exactPair b a = false ∧
        analyses.aliasAnalysis b.instruction a.instruction = .noAlias := by
      rw [SeparatedByAlias, aliasAnswer, if_neg (lt_asymm hlt), hcomm]
      simp [hid]
    refine ⟨_, hp, found, hfound, .inr rfl, ?_⟩
    rw [hsep]
    exact (comparePair_ok hfound hstore.symm).imp id fun h ↦ ⟨h.1, h.2.symm⟩

/-- An invariant store is ordered after itself. -/
theorem LLVMMemoryAnalysisResult.Complete.covered_self (h : result.Complete analyses)
    (ha : a ∈ result.accesses) (hcollision : Collision run base a i a j) :
    Covered result.dependences a a (j - i) := by
  have hij : i < j := by
    rcases hcollision.precedes with hlt | ⟨-, hin⟩
    · exact hlt
    · exact absurd hin (run.not_precedesIn_self i a)
  have hstore : isStore a = true := by
    rcases hcollision.store with hs | hs
    · exact hs
    · exact hs
  have hstride : a.iterationStrideWords = 0 := by
    have hword := hcollision.sameWord
    rw [touchedWord, touchedWord, add_right_inj] at hword
    by_contra hne
    exact hij.ne (by exact_mod_cast mul_right_cancel₀ hne hword)
  refine covered_iff.mpr ⟨1, by omega, (h.mem_keys_iff _).mpr (.inl ⟨a, ha, ?_⟩)⟩
  simp [selfDependences, hstore, hstride, keyOf, LLVMMemoryDependenceDescriptor.key, dependenceKind]

/-- A pair that the alias analysis separates has no dependence at all. -/
theorem LLVMMemoryAnalysisResult.Complete.not_covered_of_separated (h : result.Complete analyses)
    (ha : a ∈ result.accesses) (hb : b ∈ result.accesses)
    (hstore : isStore a = true ∨ isStore b = true) (hsep : SeparatedByAlias analyses a b) (n : ℕ) :
    ¬Covered result.dependences a b n := by
  rw [covered_iff]
  rintro ⟨distance, -, hmem⟩
  rcases (h.mem_keys_iff _).mp hmem with ⟨c, hc, hself⟩ | ⟨p, hp, found, hfound, hmem⟩
  · -- a dependence of an invariant store has equal ends
    rw [selfDependences] at hself
    split_ifs at hself
    · simp only [List.map_cons, List.map_nil, List.mem_singleton, keyOf,
        LLVMMemoryDependenceDescriptor.key, Prod.mk.injEq] at hself
      exact hsep.1 (hself.1.trans hself.2.1.symm)
    · cases hself
  · obtain ⟨q, hq, found', hfound', hpair, hcases⟩ := h.compared_pair ha hb hsep.1 hstore
    obtain ⟨hp₁, hp₂, hplt⟩ := of_mem_indexPairs h.numbered hp
    obtain ⟨hq₁, hq₂, hqlt⟩ := of_mem_indexPairs h.numbered hq
    have hids := ids_of_mem_comparePair hfound hmem
    simp only [keyOf] at hids
    -- the two ends determine the compared pair
    have hpq : p = q := by
      have h₁ : p.1.id = q.1.id ∧ p.2.id = q.2.id := by
        rcases hpair with rfl | rfl <;> rcases hids with ⟨e₁, e₂⟩ | ⟨e₁, e₂⟩ <;>
          simp only at hqlt ⊢ <;> omega
      exact Prod.ext (eq_of_id_eq h.numbered hp₁ hq₁ h₁.1) (eq_of_id_eq h.numbered hp₂ hq₂ h₁.2)
    subst hpq
    rw [hfound, Except.ok.injEq] at hfound'
    subst hfound'
    rcases hcases with ⟨-, rfl⟩ | ⟨hnot, -⟩
    · simp at hmem
    · exact hnot hsep

/-- **Which collisions are covered.** In an accepted analysis, for every run of the loop and every
placement of the root objects, a collision is covered by a dependence of its kind within the
distance of its iterations if and only if the alias analysis was not left to separate the pair. -/
theorem dependence_iff_compared {instructions : List MemoryInstruction}
    (haccepted : analyzeMemoryDependences analyses instructions = .ok result)
    (ha : a ∈ result.accesses) (hb : b ∈ result.accesses)
    (hcollision : Collision run base a i b j) :
    Covered result.dependences a b (j - i) ↔ ¬SeparatedByAlias analyses a b := by
  have h := analyzeMemoryDependences_complete haccepted
  by_cases hid : a.id = b.id
  · obtain rfl := eq_of_id_eq h.numbered ha hb hid
    refine iff_of_true (h.covered_self ha hcollision) ?_
    rintro ⟨hne, -⟩
    exact hne rfl
  · constructor
    · intro hcovered hsep
      exact h.not_covered_of_separated ha hb hcollision.store hsep _ hcovered
    · intro hsep
      obtain ⟨p, hp, found, hfound, -, hcases⟩ := h.compared_pair ha hb hid hcollision.store
      rcases hcases with ⟨hsep', -⟩ | ⟨-, horder⟩
      · exact absurd hsep' hsep
      · obtain ⟨distance, hle, hmem⟩ :=
          horder.covers (h.bounded a ha) (h.bounded b hb) hcollision
        exact covered_iff.mpr
          ⟨distance, hle, (h.mem_keys_iff _).mpr (.inr ⟨p, hp, found, hfound, hmem⟩)⟩

/-- **Memory dependences.** Let the placement of the objects keep the promises of the alias
analysis. Then a collision within one iteration is always covered, and a collision between two
iterations is covered exactly when the pair was compared, that is, when it is an exact affine pair
or the alias analysis did not answer `noAlias`. -/
theorem memoryDependences_cover (analyses : LLVMAnalyses) (instructions : List MemoryInstruction)
    (result : LLVMMemoryAnalysisResult)
    (haccepted : analyzeMemoryDependences analyses instructions = .ok result)
    (run : LoopRun analyses) (base : PointerRoot → ℤ)
    (hconsistent : AliasConsistent run base result.accesses)
    (a b : LLVMMemoryAccessDescriptor) (ha : a ∈ result.accesses) (hb : b ∈ result.accesses)
    (i j : ℕ) (hcollision : Collision run base a i b j) :
    (i = j → Covered result.dependences a b (j - i)) ∧
      (Covered result.dependences a b (j - i) ↔ ¬SeparatedByAlias analyses a b) := by
  have hiff := dependence_iff_compared haccepted ha hb hcollision
  refine ⟨?_, hiff⟩
  rintro rfl
  rw [hiff]
  rintro ⟨hid, -, hanswer⟩
  exact hconsistent a ha b hb hid hanswer i hcollision.executes_left hcollision.executes_right
    hcollision.sameWord

end Coverage

/-! ## A pair that `noAlias` separates

The loop body reads word `2 * i + 1` and writes word `i` of one array. In one iteration the two
words differ, and the read of iteration 0 is the write of iteration 1. -/

/-- The induction variable. -/
def stridedIndex : Scalar := .instruction 0 32

/-- The array with a scaled and shifted index. -/
def stridedAddress (gep : ℕ) (offset scale : ℤ) : Pointer :=
  .gep (.inLoop gep) (.root ⟨0, .argument⟩) (some ⟨4 * offset, [(stridedIndex, 4 * scale)]⟩)

def stridedLoad : MemoryInstruction :=
  ⟨3, 0, 3, .load, some 32, false, false, 4, 0, stridedAddress 2 1 2⟩

def stridedStore : MemoryInstruction :=
  ⟨5, 0, 5, .store, some 32, false, false, 4, 0, stridedAddress 4 0 1⟩

/-- One block, an induction variable from zero, and a fixed alias answer. -/
def stridedAnalyses (answer : AliasResult) : LLVMAnalyses where
  loop := 0
  contains block := block == 0
  getUnderlyingObject := Pointer.underlying
  getSCEV _ := .addRec 0 true (.constant 0) (.constant 1)
  dominates a b := a == b
  aliasAnalysis _ _ := answer

def stridedRun (answer : AliasResult) : LoopRun (stridedAnalyses answer) where
  path _ := [0]
  nodup _ := by simp
  inside _ block h := by simpa [stridedAnalyses] using h
  dominator_first _ a b _ h hne := absurd (by simpa [stridedAnalyses] using h) hne

/-- The descriptors of the two accesses. -/
def stridedAccess (id : ℕ) (instruction : MemoryInstruction) (offset scale : ℤ) :
    LLVMMemoryAccessDescriptor :=
  { initialDescriptor (stridedAnalyses .mayAlias) instruction with
    id
    dynamicIndex := some stridedIndex
    dynamicScaleWords := scale
    gepConstantOffsetWords := offset
    constantOffsetWords := offset
    iterationStrideWords := scale }

theorem strided_collision (answer : AliasResult) :
    Collision (stridedRun answer) (fun _ ↦ 0) (stridedAccess 0 stridedLoad 1 2) 0
      (stridedAccess 1 stridedStore 0 1) 1 where
  executes_left := List.mem_singleton.mpr rfl
  executes_right := List.mem_singleton.mpr rfl
  precedes := .inl Nat.one_pos
  sameWord := by decide
  store := .inr rfl

theorem strided_consistent (answer : AliasResult) :
    AliasConsistent (stridedRun answer) (fun _ ↦ 0)
      [stridedAccess 0 stridedLoad 1 2, stridedAccess 1 stridedStore 0 1] := by
  intro a ha b hb hid _ i _ _
  simp only [List.mem_cons, List.not_mem_nil, or_false] at ha hb
  rcases ha with rfl | rfl <;> rcases hb with rfl | rfl
  · exact absurd rfl hid
  · simp only [touchedWord, stridedAccess]
    omega
  · simp only [touchedWord, stridedAccess]
    omega
  · exact absurd rfl hid

/-- Where the alias analysis does not separate the pair, the read is ordered before the write. -/
theorem strided_covered : ∃ result,
    analyzeMemoryDependences (stridedAnalyses .mayAlias) [stridedLoad, stridedStore]
      = .ok result ∧
    Covered result.dependences (stridedAccess 0 stridedLoad 1 2) (stridedAccess 1 stridedStore 0 1)
      (1 - 0) := by
  refine ⟨⟨[stridedAccess 0 stridedLoad 1 2, stridedAccess 1 stridedStore 0 1],
    [orderedBy (stridedAccess 0 stridedLoad 1 2) (stridedAccess 1 stridedStore 0 1) 0
        .conservative "MayAlias program order within one iteration",
      orderedBy (stridedAccess 1 stridedStore 0 1) (stridedAccess 0 stridedLoad 1 2) 1
        .conservative "MayAlias reverse order across iterations"]⟩, by decide +kernel, ?_⟩
  have hanswer : ¬SeparatedByAlias (stridedAnalyses .mayAlias) (stridedAccess 0 stridedLoad 1 2)
      (stridedAccess 1 stridedStore 0 1) := by
    rintro ⟨-, -, h⟩
    cases h
  exact (memoryDependences_cover (stridedAnalyses .mayAlias) [stridedLoad, stridedStore]
    ⟨[stridedAccess 0 stridedLoad 1 2, stridedAccess 1 stridedStore 0 1], _⟩
    (by decide +kernel) (stridedRun .mayAlias) (fun _ ↦ 0) (strided_consistent .mayAlias) _ _
    List.mem_cons_self (List.mem_cons_of_mem _ List.mem_cons_self) 0 1
    (strided_collision .mayAlias)).2.mpr hanswer

/-- The read of iteration 0 and the write of iteration 1 touch word 1, and no dependence orders
them. -/
theorem strided_noAlias_uncovered :
    ∃ result, analyzeMemoryDependences (stridedAnalyses .noAlias) [stridedLoad, stridedStore]
        = .ok result ∧
      AliasConsistent (stridedRun .noAlias) (fun _ ↦ 0) result.accesses ∧
      ∃ a ∈ result.accesses, ∃ b ∈ result.accesses,
        Collision (stridedRun .noAlias) (fun _ ↦ 0) a 0 b 1 ∧
          ¬Covered result.dependences a b (1 - 0) := by
  refine ⟨⟨[stridedAccess 0 stridedLoad 1 2, stridedAccess 1 stridedStore 0 1], []⟩,
    by decide +kernel, strided_consistent .noAlias, _, List.mem_cons_self, _,
    List.mem_cons_of_mem _ List.mem_cons_self, strided_collision .noAlias, ?_⟩
  rintro ⟨d, hd, -⟩
  cases hd

end PredicatedMesh.Frontend
