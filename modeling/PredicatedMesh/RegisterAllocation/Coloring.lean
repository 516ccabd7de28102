import PredicatedMesh.Library.Coloring
import PredicatedMesh.RegisterAllocation.PortMatching

/-!
# Colouring is exact

A bank of a tile is coloured greedily, and if that fails by a search that backtracks. Both only ever
give free colours to vertices, so whatever they have given is a partial colouring in the sense of
the colouring library. The search tries every free colour of the vertex it has selected and takes
each back when it leads nowhere; by the library a search that fails has therefore found that nothing
could have been completed (`colorExact_spec`). The greedy pass proves nothing by failing, and its
colours are forgotten before the search begins.
-/

namespace PredicatedMesh

open Scan Coloring

namespace RFAllocator

/-! ## The conflict graph -/

theorem conflictGraph_symm (ii : ℕ) (policy : SameAddressReadWritePolicy)
    (lhs rhs : BankedSegment) :
    conflictGraph ii policy lhs rhs = conflictGraph ii policy rhs lhs := by
  unfold conflictGraph
  rcases lt_trichotomy lhs.id rhs.id with h | h | h
  · rw [if_pos h, if_neg h.not_gt, if_pos h]
  · rw [if_neg h.not_lt, if_neg h.symm.not_lt, if_neg h.symm.not_lt, if_neg h.not_lt]
  · rw [if_neg h.not_gt, if_pos h, if_pos h]

theorem conflictGraph_self (ii : ℕ) (policy : SameAddressReadWritePolicy)
    (vertex : BankedSegment) : conflictGraph ii policy vertex vertex = false := by
  rw [conflictGraph, if_neg (lt_irrefl _), if_neg (lt_irrefl _)]

/-- The colours of the segments. -/
def view (colors : StorageSegmentId → Option ℕ) (banked : BankedSegment) : Option ℕ :=
  colors banked.id

section Search

variable {graph : BankedSegment → BankedSegment → Bool} {vertices : List BankedSegment}
variable {budget : RFAllocationBudget} {palette : List ℕ}

theorem available_iff {colors : StorageSegmentId → Option ℕ} {vertex : BankedSegment}
    {color : ℕ} : available graph vertices colors vertex color = true ↔
      Free graph vertices (view colors) vertex color := by
  simp only [available, List.all_eq_true, Bool.not_eq_true', Bool.and_eq_false_imp,
    beq_eq_false_iff_ne, Free, view]

/-- Setting a colour, where ids tell the vertices apart. -/
theorem assigned_update (hids : (vertices.map BankedSegment.id).Nodup)
    (colors : StorageSegmentId → Option ℕ) {vertex : BankedSegment} (hvertex : vertex ∈ vertices)
    (color : ℕ) : Assigned vertices (view colors) vertex color
      (view (Function.update colors vertex.id (some color))) where
  self := Function.update_self _ _ _
  other other hother hne := by
    refine Function.update_of_ne (fun hid ↦ hne ?_) _ _
    exact List.inj_on_of_nodup_map hids hother hvertex hid

/-- Colours outside the vertices are as they were. -/
def Outside (vertices : List BankedSegment) (colors later : StorageSegmentId → Option ℕ) : Prop :=
  ∀ id, id ∉ vertices.map BankedSegment.id → later id = colors id

theorem Outside.trans {a b c : StorageSegmentId → Option ℕ} (h : Outside vertices a b)
    (h' : Outside vertices b c) : Outside vertices a c :=
  fun id hid ↦ (h' id hid).trans (h id hid)

theorem outside_update {vertex : BankedSegment} (hvertex : vertex ∈ vertices)
    (colors : StorageSegmentId → Option ℕ) (color : Option ℕ) :
    Outside vertices colors (Function.update colors vertex.id color) := by
  intro id hid
  refine Function.update_of_ne ?_ _ _
  rintro rfl
  exact hid (List.mem_map_of_mem hvertex)

/-- The vertices have colours: proper ones, of the palette. -/
structure Colored (graph : BankedSegment → BankedSegment → Bool) (vertices : List BankedSegment)
    (palette : List ℕ) (colors : StorageSegmentId → Option ℕ) : Prop where
  isPartial : Partial graph vertices palette (view colors)
  all : ∀ vertex ∈ vertices, ∃ color, colors vertex.id = some color

theorem Colored.congr {colors later : StorageSegmentId → Option ℕ}
    (h : Colored graph vertices palette colors)
    (hsame : ∀ vertex ∈ vertices, later vertex.id = colors vertex.id) :
    Colored graph vertices palette later := by
  constructor
  · refine ⟨fun v hv c hc ↦ ?_, fun v hv w hw hedge c hc ↦ ?_⟩
    · rw [view, hsame v hv] at hc
      exact h.isPartial.mem v hv c hc
    · rw [view, hsame v hv] at hc
      rw [view, hsame w hw]
      exact h.isPartial.apart v hv w hw hedge c hc
  · intro vertex hvertex
    rw [hsame vertex hvertex]
    exact h.all vertex hvertex

theorem Colored.proper {colors : StorageSegmentId → Option ℕ}
    (h : Colored graph vertices palette colors) :
    Proper graph vertices palette fun vertex ↦ (colors vertex.id).getD 0 := by
  refine h.isPartial.proper fun vertex hvertex ↦ ?_
  obtain ⟨color, hcolor⟩ := h.all vertex hvertex
  rw [view, hcolor]
  rfl

/-- What a search leaves when it is not stopped by its budget: a colouring, or the proof that there
is none. -/
structure Searched (graph : BankedSegment → BankedSegment → Bool) (vertices : List BankedSegment)
    (palette : List ℕ) (state : ColorState) (outcome : ColorOutcome × ColorState) : Prop where
  colored : outcome.1 = .colored → Colored graph vertices palette outcome.2.colors ∧
    Outside vertices state.colors outcome.2.colors
  failed : outcome.1 = .failed → ¬ Completable graph vertices palette (view state.colors) ∧
    outcome.2.colors = state.colors

/-! ## The selected vertex -/

theorem selectVertex_eq_none {colors : StorageSegmentId → Option ℕ}
    (h : selectVertex graph vertices colors = none) :
    ∀ vertex ∈ vertices, ∃ color, colors vertex.id = some color := by
  intro vertex hvertex
  rw [selectVertex] at h
  have hfilter := Scan.eq_nil_of_foldl_pick (fun selected vertex ↦ ?_) h
  · have hsome := List.filter_eq_nil_iff.mp hfilter vertex hvertex
    rw [Option.isNone_iff_eq_none] at hsome
    exact Option.ne_none_iff_exists'.mp hsome
  · split
    · exact Option.some_ne_none _
    · split <;> exact Option.some_ne_none _

theorem selectVertex_eq_some {colors : StorageSegmentId → Option ℕ} {vertex : BankedSegment}
    (h : selectVertex graph vertices colors = some vertex) :
    vertex ∈ vertices ∧ colors vertex.id = none := by
  rw [selectVertex] at h
  have hpicked := Scan.mem_of_foldl_pick (fun selected other r hpick ↦ ?_) h
  · rcases hpicked with hmem | hnone
    · have hfilter := List.mem_filter.mp hmem
      exact ⟨hfilter.1, by simpa using hfilter.2⟩
    · cases hnone
  · split at hpick
    · exact .inl (Option.some.inj hpick).symm
    · split at hpick
      · exact .inl (Option.some.inj hpick).symm
      · exact .inr hpick

/-! ## The search -/

/-- The vertices without a colour. -/
def uncolored (vertices : List BankedSegment) (colors : StorageSegmentId → Option ℕ) : ℕ :=
  vertices.countP fun vertex ↦ (colors vertex.id).isNone

theorem uncolored_update_lt {colors : StorageSegmentId → Option ℕ} {vertex : BankedSegment}
    (hvertex : vertex ∈ vertices) (hnone : colors vertex.id = none) (color : ℕ) :
    uncolored vertices (Function.update colors vertex.id (some color))
      < uncolored vertices colors := by
  have hle : ∀ other : BankedSegment,
      (Function.update colors vertex.id (some color) other.id).isNone = true →
        (colors other.id).isNone = true := by
    intro other h
    by_cases hid : other.id = vertex.id
    · rw [hid, Function.update_self] at h
      cases h
    · rwa [Function.update_of_ne hid] at h
  induction vertices with
  | nil => cases hvertex
  | cons first rest ih =>
    rw [uncolored, uncolored, List.countP_cons, List.countP_cons]
    have hrest := List.countP_mono_left (l := rest) fun other _ ↦ hle other
    rcases List.mem_cons.mp hvertex with rfl | hmem
    · rw [Function.update_self, hnone]
      simp only [Option.isNone_some, Option.isNone_none, if_true, Bool.false_eq_true, if_false]
      omega
    · have hlt := ih hmem
      rw [uncolored, uncolored] at hlt
      by_cases hfirst : (Function.update colors vertex.id (some color) first.id).isNone = true
      · rw [if_pos hfirst, if_pos (hle first hfirst)]
        omega
      · rw [if_neg hfirst]
        omega

/-- **The colours of one vertex.** A colour that is not free leads nowhere, nor does one the rest
cannot be coloured with. -/
theorem tryColors_spec (budget : RFAllocationBudget) (hsymm : ∀ v w, graph v w = graph w v)
    (hirrefl : ∀ v, graph v v = false) (hids : (vertices.map BankedSegment.id).Nodup)
    {selected : BankedSegment}
    (hselected : selected ∈ vertices) {recurse : ColorState → ColorOutcome × ColorState}
    {colors : StorageSegmentId → Option ℕ} (hnone : colors selected.id = none)
    (hcolored : Partial graph vertices palette (view colors))
    (hrecurse : ∀ state : ColorState, uncolored vertices state.colors < uncolored vertices colors →
      Partial graph vertices palette (view state.colors) →
      Searched graph vertices palette state (recurse state))
    {rest : List ℕ} (hrest : ∀ color ∈ rest, color ∈ palette) {state : ColorState}
    (hstate : state.colors = colors) :
    ((tryColors graph vertices budget recurse selected rest state).1 = .colored →
      Colored graph vertices palette
          (tryColors graph vertices budget recurse selected rest state).2.colors ∧
        Outside vertices colors
          (tryColors graph vertices budget recurse selected rest state).2.colors) ∧
    ((tryColors graph vertices budget recurse selected rest state).1 = .failed →
      (∀ color ∈ rest, ¬ Completable graph vertices palette
          (view (Function.update colors selected.id (some color)))) ∧
        (tryColors graph vertices budget recurse selected rest state).2.colors = colors) := by
  induction rest generalizing state with
  | nil =>
    refine ⟨fun h ↦ ?_, fun _ ↦ ⟨by simp, hstate⟩⟩
    cases h
  | cons color rest ih =>
    have hrest' : ∀ c ∈ rest, c ∈ palette := fun c hc ↦ hrest c (List.mem_cons_of_mem _ hc)
    have hassigned := assigned_update hids colors hselected color
    rw [tryColors, hstate]
    by_cases havailable : available graph vertices colors selected color = true
    · rw [if_neg (by simp [havailable])]
      by_cases hbudget : state.coloringDecisions ≥ budget.maxColoringDecisions
      · rw [if_pos hbudget]
        exact ⟨nofun, nofun⟩
      · rw [if_neg hbudget]
        have hsearched := hrecurse
          { state with
            colors := Function.update colors selected.id (some color)
            coloringDecisions := state.coloringDecisions + 1 }
          (uncolored_update_lt hselected hnone color)
          (hcolored.assigned hsymm hirrefl (hrest color List.mem_cons_self)
            (available_iff.mp havailable) hassigned)
        rcases hrun : recurse
          { state with
            colors := Function.update colors selected.id (some color)
            coloringDecisions := state.coloringDecisions + 1 } with ⟨outcome, later⟩
        rw [hrun] at hsearched
        rcases outcome with _ | _ | _
        · refine ⟨fun _ ↦ ⟨(hsearched.colored rfl).1, ?_⟩, nofun⟩
          exact (outside_update hselected colors _).trans (hsearched.colored rfl).2
        · -- the colour is taken back, and the others are tried
          obtain ⟨hnot, hlater⟩ := hsearched.failed rfl
          simp only at hlater ⊢
          have hback : Function.update later.colors selected.id none = colors := by
            rw [hlater, Function.update_idem, ← hnone, Function.update_eq_self]
          split
          · exact ⟨nofun, nofun⟩
          · have hbackState : ({ later with
                colors := Function.update later.colors selected.id none
                coloringBacktracks := later.coloringBacktracks + 1 } : ColorState).colors
                  = colors := hback
            obtain ⟨hcolored, hfailed⟩ := ih hrest' hbackState
            refine ⟨hcolored, fun h ↦ ⟨?_, (hfailed h).2⟩⟩
            exact List.forall_mem_cons.mpr ⟨hnot, (hfailed h).1⟩
        · exact ⟨nofun, nofun⟩
    · rw [if_pos (by simpa using havailable)]
      obtain ⟨hcolored, hfailed⟩ := ih hrest' hstate
      refine ⟨hcolored, fun h ↦ ⟨List.forall_mem_cons.mpr ⟨?_, (hfailed h).1⟩, (hfailed h).2⟩⟩
      exact not_completable_of_not_free hirrefl hselected hassigned fun hfree ↦
        havailable (available_iff.mpr hfree)

/-- **The search is exact.** -/
theorem colorExact_spec (hsymm : ∀ v w, graph v w = graph w v) (hirrefl : ∀ v, graph v v = false)
    (hids : (vertices.map BankedSegment.id).Nodup) {fuel : ℕ} {state : ColorState}
    (hfuel : uncolored vertices state.colors < fuel)
    (hcolored : Partial graph vertices palette (view state.colors)) :
    Searched graph vertices palette state
      (colorExact graph vertices budget palette fuel state) := by
  induction fuel generalizing state with
  | zero => exact absurd hfuel (Nat.not_lt_zero _)
  | succ fuel ih =>
    rw [colorExact]
    rcases hselect : selectVertex graph vertices state.colors with _ | selected
    · refine ⟨fun _ ↦ ⟨⟨hcolored, selectVertex_eq_none hselect⟩, fun id _ ↦ rfl⟩, fun h ↦ ?_⟩
      cases h
    · obtain ⟨hselected, hnone⟩ := selectVertex_eq_some hselect
      obtain ⟨hcolored, hfailed⟩ := tryColors_spec budget hsymm hirrefl hids hselected hnone
        hcolored (fun later hlt hlater ↦ ih (by omega) hlater) (fun color h ↦ h) rfl
      refine ⟨hcolored, fun h ↦ ⟨fun hcompletable ↦ ?_, (hfailed h).2⟩⟩
      obtain ⟨color, hcolor, hthen⟩ :=
        (completable_iff hselected hnone (assigned_update hids state.colors hselected)).mp
          hcompletable
      exact (hfailed h).1 color hcolor hthen

/-! ## The greedy pass -/

theorem greedyColor_spec {vertex : BankedSegment} {rest : List ℕ} {state : ColorState} :
    ((greedyColor graph vertices budget vertex rest state).1 = .colored →
      ∃ color ∈ rest, Free graph vertices (view state.colors) vertex color ∧
        (greedyColor graph vertices budget vertex rest state).2.colors
          = Function.update state.colors vertex.id (some color)) ∧
    ((greedyColor graph vertices budget vertex rest state).1 = .failed →
      (greedyColor graph vertices budget vertex rest state).2.colors = state.colors) := by
  induction rest with
  | nil => exact ⟨nofun, fun _ ↦ rfl⟩
  | cons color rest ih =>
    rw [greedyColor]
    by_cases hbudget : state.coloringDecisions ≥ budget.maxColoringDecisions
    · rw [if_pos hbudget]
      exact ⟨nofun, nofun⟩
    · rw [if_neg hbudget]
      by_cases havailable : available graph vertices state.colors vertex color = true
      · rw [if_neg (by simp [havailable])]
        exact ⟨fun _ ↦ ⟨color, List.mem_cons_self, available_iff.mp havailable, rfl⟩,
          nofun⟩
      · rw [if_pos (by simpa using havailable)]
        refine ⟨fun h ↦ ?_, ih.2⟩
        obtain ⟨c, hc, hfree, hcolors⟩ := ih.1 h
        exact ⟨c, List.mem_cons_of_mem _ hc, hfree, hcolors⟩

/-- The greedy pass gives free colours only. -/
theorem greedy_spec (budget : RFAllocationBudget) (hsymm : ∀ v w, graph v w = graph w v)
    (hirrefl : ∀ v, graph v v = false) (hids : (vertices.map BankedSegment.id).Nodup)
    {rest : List BankedSegment}
    (hrest : ∀ vertex ∈ rest, vertex ∈ vertices) {state : ColorState}
    (hcolored : Partial graph vertices palette (view state.colors)) :
    ((greedy graph vertices budget palette rest state).1 = .colored →
      Partial graph vertices palette
          (view (greedy graph vertices budget palette rest state).2.1.colors) ∧
        (∀ vertex ∈ rest, ∃ color,
          (greedy graph vertices budget palette rest state).2.1.colors vertex.id = some color) ∧
        ∀ id color, state.colors id = some color → ∃ color',
          (greedy graph vertices budget palette rest state).2.1.colors id = some color') ∧
    ((greedy graph vertices budget palette rest state).1 ≠ .exceeded →
      Outside vertices state.colors
        (greedy graph vertices budget palette rest state).2.1.colors) := by
  induction rest generalizing state with
  | nil => exact ⟨fun _ ↦ ⟨hcolored, by simp, fun _ color h ↦ ⟨color, h⟩⟩, fun _ _ _ ↦ rfl⟩
  | cons vertex rest ih =>
    have hrest' : ∀ v ∈ rest, v ∈ vertices := fun v hv ↦ hrest v (List.mem_cons_of_mem _ hv)
    have hvertex := hrest vertex List.mem_cons_self
    have hcolor := @greedyColor_spec graph vertices budget vertex palette state
    rw [greedy]
    rcases hrun : greedyColor graph vertices budget vertex palette state with ⟨outcome, later⟩
    rw [hrun] at hcolor
    rcases outcome with _ | _ | _
    · obtain ⟨color, hmem, hfree, hlater⟩ := hcolor.1 rfl
      simp only at hlater ⊢
      have hassigned := assigned_update hids state.colors hvertex color
      rw [← hlater] at hassigned
      obtain ⟨hdone, houtside⟩ := ih hrest'
        (hcolored.assigned hsymm hirrefl hmem hfree hassigned)
      have hfirst : later.colors vertex.id = some color := hassigned.self
      refine ⟨fun h ↦ ?_, fun h ↦ ?_⟩
      · obtain ⟨hall', hall, hkept⟩ := hdone h
        refine ⟨hall', List.forall_mem_cons.mpr ⟨hkept _ _ hfirst, hall⟩, fun id c hc ↦ ?_⟩
        by_cases hid : id = vertex.id
        · rw [hid]
          exact hkept _ _ hfirst
        · refine hkept id c ?_
          rw [hlater, Function.update_of_ne hid, hc]
      · refine Outside.trans ?_ (houtside h)
        rw [hlater]
        exact outside_update hvertex _ _
    · refine ⟨nofun, fun _ id _ ↦ ?_⟩
      exact congrFun (hcolor.2 rfl) id
    · exact ⟨nofun, fun h ↦ absurd rfl h⟩

theorem reset_colors (state : ColorState) (id : StorageSegmentId) :
    (reset vertices state).colors id
      = if id ∈ vertices.map BankedSegment.id then none else state.colors id := by
  unfold reset
  simp only
  generalize state.colors = colors
  induction vertices generalizing colors with
  | nil => rfl
  | cons vertex rest ih =>
    rw [List.foldl_cons, ih]
    by_cases hid : id = vertex.id
    · subst hid
      simp
    · rw [Function.update_of_ne hid]
      simp [hid]

end Search

/-! ## The banks -/

/-- The graph and the registers of a bank. -/
def bankGraph (ii : ℕ) (bank : RegisterFileDesc) : BankedSegment → BankedSegment → Bool :=
  conflictGraph ii bank.sameAddressReadWritePolicy

/-- The segments of a bank have registers of it, different ones along the edges. -/
def BankColored (ii : ℕ) (vertices : List BankedSegment)
    (colors : StorageSegmentId → Option ℕ) : Prop :=
  ∀ vertex ∈ vertices, Colored (bankGraph ii vertex.bank) vertices vertex.bank.allocatableIndices
    colors

def BankColorable (ii : ℕ) (vertices : List BankedSegment) : Prop :=
  ∀ vertex ∈ vertices, Colorable (bankGraph ii vertex.bank) vertices vertex.bank.allocatableIndices

/-- How a step of the colouring fails. -/
def ColorFailure (infeasible : Prop) (exit : RFAllocationExit) : Prop :=
  ∃ result, exit = .returned result ∧ (result.status = .budgetExceeded ∨
    result.status = .registerDepthInfeasible ∧ infeasible)

/-- **One bank.** -/
theorem colorBank_spec {ii : ℕ} {budget : RFAllocationBudget} {state : ColorState}
    {key : BankKey} {vertices : List BankedSegment}
    (hids : (vertices.map BankedSegment.id).Nodup)
    (hbank : ∀ a ∈ vertices, ∀ b ∈ vertices, a.bank = b.bank)
    (hnone : ∀ vertex ∈ vertices, state.colors vertex.id = none) :
    (∀ later, colorBank ii budget state (key, vertices) = .ok later →
      BankColored ii vertices later.colors ∧ Outside vertices state.colors later.colors) ∧
    ∀ exit, colorBank ii budget state (key, vertices) = .error exit →
      ColorFailure (¬ BankColorable ii vertices) exit := by
  rcases vertices with _ | ⟨first, rest⟩
  · refine ⟨fun later h ↦ ⟨by simp [BankColored], ?_⟩, nofun⟩
    obtain rfl : state = later := Except.ok.inj h
    exact fun _ _ ↦ rfl
  · generalize hvertices : first :: rest = vertices at hids hbank hnone
    have hfirst : first ∈ vertices := hvertices ▸ List.mem_cons_self
    have hsymm := conflictGraph_symm ii first.bank.sameAddressReadWritePolicy
    have hself := conflictGraph_self ii first.bank.sameAddressReadWritePolicy
    have hempty : ∀ later : ColorState, (∀ vertex ∈ vertices, later.colors vertex.id = none) →
        Partial (bankGraph ii first.bank) vertices first.bank.allocatableIndices
          (view later.colors) := by
      intro later hlater
      refine ⟨fun v hv c hc ↦ ?_, fun v hv w hw _ c hc ↦ ?_⟩ <;>
      · rw [view, hlater v hv] at hc
        cases hc
    have hcolored : ∀ {colors : StorageSegmentId → Option ℕ},
        Colored (bankGraph ii first.bank) vertices first.bank.allocatableIndices colors →
        BankColored ii vertices colors := by
      intro colors h vertex hvertex
      rw [hbank vertex hvertex first hfirst]
      exact h
    obtain ⟨hgreedy, houtside⟩ := greedy_spec budget hsymm hself hids (fun v hv ↦ hv)
      (hempty state hnone)
    subst hvertices
    rw [colorBank]
    simp only
    rcases hrun : greedy (conflictGraph ii first.bank.sameAddressReadWritePolicy) (first :: rest)
      budget first.bank.allocatableIndices (first :: rest) state with ⟨outcome, later, vertex⟩
    rw [hrun] at hgreedy houtside
    rcases outcome with _ | _ | _
    · refine ⟨fun result h ↦ ?_, nofun⟩
      obtain rfl := Except.ok.inj h
      obtain ⟨hassigned, hall, -⟩ := hgreedy rfl
      exact ⟨hcolored ⟨hassigned, hall⟩, houtside (by simp)⟩
    · -- the colours of the greedy pass are forgotten
      simp only
      have hreset : ∀ vertex ∈ first :: rest,
          (reset (first :: rest) later).colors vertex.id = none := by
        intro vertex hvertex
        rw [reset_colors, if_pos (List.mem_map_of_mem hvertex)]
      have hfuel : uncolored (first :: rest) (reset (first :: rest) later).colors
          < (first :: rest).length + 1 := Nat.lt_succ_of_le List.countP_le_length
      have hsearched := @colorExact_spec _ _ budget _ hsymm hself hids _ _ hfuel
        (hempty _ hreset)
      rcases hexact : colorExact (conflictGraph ii first.bank.sameAddressReadWritePolicy)
        (first :: rest) budget first.bank.allocatableIndices ((first :: rest).length + 1)
        (reset (first :: rest) later) with ⟨outcome, exact⟩
      rw [hexact] at hsearched
      rcases outcome with _ | _ | _
      · refine ⟨fun result h ↦ ?_, nofun⟩
        obtain rfl := Except.ok.inj h
        obtain ⟨hall, hkept⟩ := hsearched.colored rfl
        refine ⟨hcolored hall, fun id hid ↦ ?_⟩
        rw [hkept id hid, reset_colors, if_neg hid]
        exact houtside (by simp) id hid
      · refine ⟨nofun, fun exit h ↦ ⟨_, (Except.error.inj h).symm, .inr ⟨rfl, ?_⟩⟩⟩
        intro hcolorable
        exact (hsearched.failed rfl).1
          ((completable_of_none hreset).mpr (hcolorable first List.mem_cons_self))
      · exact ⟨nofun,
          fun exit h ↦ ⟨_, (Except.error.inj h).symm, .inl rfl⟩⟩
    · exact ⟨nofun,
        fun exit h ↦ ⟨_, (Except.error.inj h).symm, .inl rfl⟩⟩

/-- **All banks.** -/
theorem colorBanks_spec {ii : ℕ} {budget : RFAllocationBudget}
    {groups : List (BankKey × List BankedSegment)} (hseparate : Separate groups)
    {state : ColorState}
    (hnone : ∀ group ∈ groups, ∀ vertex ∈ group.2, state.colors vertex.id = none) :
    (∀ later, groups.foldlM (colorBank ii budget) state = .ok later →
      (∀ group ∈ groups, BankColored ii group.2 later.colors) ∧
        ∀ id, (∀ group ∈ groups, ∀ vertex ∈ group.2, vertex.id ≠ id) →
          later.colors id = state.colors id) ∧
    ∀ exit, groups.foldlM (colorBank ii budget) state = .error exit →
      ColorFailure (∃ group ∈ groups, ¬ BankColorable ii group.2) exit := by
  induction groups generalizing state with
  | nil =>
    refine ⟨fun later h ↦ ⟨by simp, fun id _ ↦ ?_⟩, nofun⟩
    obtain rfl : state = later := Except.ok.inj h
    rfl
  | cons group groups ih =>
    obtain ⟨key, vertices⟩ := group
    have hapart := (List.pairwise_cons.mp hseparate.apart).1
    obtain ⟨hok, herror⟩ := @colorBank_spec ii budget state key vertices
      (hseparate.distinct _ List.mem_cons_self) (hseparate.bank_eq _ List.mem_cons_self)
      (hnone _ List.mem_cons_self)
    rw [List.foldlM_cons]
    rcases hrun : colorBank ii budget state (key, vertices) with exit | between
    · refine ⟨nofun, fun e h ↦ ?_⟩
      obtain rfl : exit = e := Except.error.inj h
      obtain ⟨result, hresult, hstatus⟩ := herror exit hrun
      refine ⟨result, hresult, hstatus.imp_right fun hinfeasible ↦ ⟨hinfeasible.1, ?_⟩⟩
      exact ⟨_, List.mem_cons_self, hinfeasible.2⟩
    · obtain ⟨hcolored, houtside⟩ := hok between hrun
      have hother : ∀ g ∈ groups, ∀ vertex ∈ g.2, vertex.id ∉ vertices.map BankedSegment.id := by
        intro g hg vertex hvertex hmem
        obtain ⟨v, hv, hid⟩ := List.mem_map.mp hmem
        exact hapart g hg v hv vertex hvertex hid
      have hbetween : ∀ g ∈ groups, ∀ vertex ∈ g.2, between.colors vertex.id = none := by
        intro g hg vertex hvertex
        rw [houtside _ (hother g hg vertex hvertex)]
        exact hnone g (List.mem_cons_of_mem _ hg) vertex hvertex
      obtain ⟨hrestOk, hrestError⟩ := ih hseparate.tail hbetween
      refine ⟨fun later h ↦ ?_, fun e h ↦ ?_⟩
      · obtain ⟨hall, hkept⟩ := hrestOk later h
        refine ⟨List.forall_mem_cons.mpr ⟨fun vertex hvertex ↦ ?_, hall⟩, fun id hid ↦ ?_⟩
        · -- the later banks have other segments
          have hsame : ∀ v ∈ vertices, later.colors v.id = between.colors v.id := fun v hv ↦
            hkept v.id fun g hg w hw hid ↦ hapart g hg v hv w hw hid.symm
          exact (hcolored vertex hvertex).congr hsame
        · rw [hkept id fun g hg ↦ hid g (List.mem_cons_of_mem _ hg)]
          refine houtside id fun hmem ↦ ?_
          obtain ⟨v, hv, hvid⟩ := List.mem_map.mp hmem
          exact hid _ List.mem_cons_self v hv hvid
      · obtain ⟨result, hresult, hstatus⟩ := hrestError e h
        refine ⟨result, hresult, hstatus.imp_right fun ⟨hinfeasible, g, hg, hnot⟩ ↦ ?_⟩
        exact ⟨hinfeasible, g, List.mem_cons_of_mem _ hg, hnot⟩

/-! ## The groups -/

section Groups

variable {target : TargetModel} {segments : List BankedSegment}

theorem mem_bankGroups {group : BankKey × List BankedSegment} (h : group ∈ bankGroups segments)
    {banked : BankedSegment} :
    banked ∈ group.2 ↔ banked ∈ segments ∧ banked.key = group.1 := by
  obtain ⟨key, -, rfl⟩ := List.mem_map.mp h
  simp

theorem exists_bankGroup {banked : BankedSegment} (h : banked ∈ segments) :
    ∃ group ∈ bankGroups segments, banked ∈ group.2 := by
  refine ⟨_, List.mem_map_of_mem ((List.mem_insertionSort _).mpr
    (List.mem_dedup.mpr (List.mem_map_of_mem h))), ?_⟩
  simp [h]

theorem separate_bankGroups (h : Banked target segments) : Separate (bankGroups segments) where
  distinct group hgroup := by
    obtain ⟨key, -, rfl⟩ := List.mem_map.mp hgroup
    exact h.distinct.sublist (List.filter_sublist.map _)
  bank_eq group hgroup a ha b hb := by
    obtain ⟨ha, hkeya⟩ := (mem_bankGroups hgroup).mp ha
    obtain ⟨hb, hkeyb⟩ := (mem_bankGroups hgroup).mp hb
    exact h.bank_eq ha hb (hkeya.trans hkeyb.symm)
  apart := by
    have hkeys : ((segments.map BankedSegment.key).dedup.insertionSort fun a b ↦ a.le b).Nodup :=
      (List.perm_insertionSort _ _).nodup_iff.mpr (List.nodup_dedup _)
    rw [bankGroups, List.pairwise_map]
    refine hkeys.imp fun {p q} hne a ha b hb hid ↦ hne ?_
    obtain ⟨ha, hkeya⟩ := List.mem_filter.mp ha
    obtain ⟨hb, hkeyb⟩ := List.mem_filter.mp hb
    obtain rfl := h.eq_of_id ha hb hid
    simp only [decide_eq_true_eq] at hkeya hkeyb
    exact hkeya.symm.trans hkeyb

end Groups

end RFAllocator

end PredicatedMesh
