import Mathlib.Data.List.Basic
import Mathlib.Tactic

/-!
# Colouring a graph vertex by vertex

A search for a colouring holds a partial one (`Partial`) and asks whether it can be completed
(`Completable`). To give an uncoloured vertex a colour is to choose one of the ways in which it
could be completed (`completable_iff`), and a colour that a neighbour has already leads nowhere
(`not_completable_of_not_free`), so a search that tries the free colours of any one uncoloured
vertex misses nothing. Which vertex it takes has no part in the argument.
-/

namespace Coloring

variable {ν κ : Type*}

/-- Colours of the palette for all vertices, different ones along the edges. -/
structure Proper (graph : ν → ν → Bool) (vertices : List ν) (palette : List κ) (color : ν → κ) :
    Prop where
  mem : ∀ v ∈ vertices, color v ∈ palette
  apart : ∀ v ∈ vertices, ∀ w ∈ vertices, graph v w = true → color v ≠ color w

def Colorable (graph : ν → ν → Bool) (vertices : List ν) (palette : List κ) : Prop :=
  ∃ color : ν → κ, Proper graph vertices palette color

/-- Colours for some vertices. -/
structure Partial (graph : ν → ν → Bool) (vertices : List ν) (palette : List κ)
    (colors : ν → Option κ) : Prop where
  mem : ∀ v ∈ vertices, ∀ color, colors v = some color → color ∈ palette
  apart : ∀ v ∈ vertices, ∀ w ∈ vertices, graph v w = true → ∀ color, colors v = some color →
    colors w ≠ some color

/-- The colours given so far are those of a proper colouring. -/
def Completable (graph : ν → ν → Bool) (vertices : List ν) (palette : List κ)
    (colors : ν → Option κ) : Prop :=
  ∃ color : ν → κ, Proper graph vertices palette color ∧
    ∀ v ∈ vertices, ∀ c, colors v = some c → color v = c

/-- No neighbour has the colour. -/
def Free (graph : ν → ν → Bool) (vertices : List ν) (colors : ν → Option κ) (v : ν) (color : κ) :
    Prop :=
  ∀ w ∈ vertices, graph v w = true → colors w ≠ some color

/-- `later` gives `v` the colour and is otherwise as before. -/
structure Assigned (vertices : List ν) (colors : ν → Option κ) (v : ν) (color : κ)
    (later : ν → Option κ) : Prop where
  self : later v = some color
  other : ∀ w ∈ vertices, w ≠ v → later w = colors w

variable {graph : ν → ν → Bool} {vertices : List ν} {palette : List κ} {colors : ν → Option κ}
variable {v : ν} {later : ν → Option κ} {color : κ}

/-- With no colours given, all proper colourings are completions. -/
theorem completable_of_none (hnone : ∀ v ∈ vertices, colors v = none) :
    Completable graph vertices palette colors ↔ Colorable graph vertices palette := by
  constructor
  · rintro ⟨full, hproper, -⟩
    exact ⟨full, hproper⟩
  · rintro ⟨full, hproper⟩
    refine ⟨full, hproper, fun v hv c hc ↦ ?_⟩
    rw [hnone v hv] at hc
    cases hc

/-- When all vertices have colours, the partial colouring is a proper one. -/
theorem Partial.proper (h : Partial graph vertices palette colors) {full : ν → κ}
    (hfull : ∀ v ∈ vertices, colors v = some (full v)) : Proper graph vertices palette full where
  mem v hv := h.mem v hv _ (hfull v hv)
  apart v hv w hw hedge heq := h.apart v hv w hw hedge _ (hfull v hv) (heq ▸ hfull w hw)

/-- A free colour can be given. -/
theorem Partial.assigned (h : Partial graph vertices palette colors)
    (hsymm : ∀ v w, graph v w = graph w v) (hirrefl : ∀ v, graph v v = false)
    (hcolor : color ∈ palette) (hfree : Free graph vertices colors v color)
    (hassigned : Assigned vertices colors v color later) :
    Partial graph vertices palette later := by
  constructor
  · intro w hw c hc
    by_cases hwv : w = v
    · subst hwv
      obtain rfl := Option.some.inj (hassigned.self.symm.trans hc)
      exact hcolor
    · rw [hassigned.other w hw hwv] at hc
      exact h.mem w hw c hc
  · intro w hw u hu hedge c hc hcu
    by_cases hwv : w = v
    · subst hwv
      obtain rfl := Option.some.inj (hassigned.self.symm.trans hc)
      have huw : u ≠ w := by
        rintro rfl
        rw [hirrefl] at hedge
        cases hedge
      rw [hassigned.other u hu huw] at hcu
      exact hfree u hu hedge hcu
    · rw [hassigned.other w hw hwv] at hc
      by_cases huv : u = v
      · subst huv
        obtain rfl := Option.some.inj (hassigned.self.symm.trans hcu)
        exact hfree w hw (hsymm w u ▸ hedge) hc
      · rw [hassigned.other u hu huv] at hcu
        exact h.apart w hw u hu hedge c hc hcu

/-- **One vertex decides**: a colouring can be completed when it can with some colour for it. -/
theorem completable_iff (hv : v ∈ vertices) (hnone : colors v = none)
    {assign : κ → ν → Option κ} (hassign : ∀ c, Assigned vertices colors v c (assign c)) :
    Completable graph vertices palette colors ↔
      ∃ c ∈ palette, Completable graph vertices palette (assign c) := by
  constructor
  · rintro ⟨full, hproper, hextends⟩
    refine ⟨full v, hproper.mem v hv, full, hproper, fun w hw c hc ↦ ?_⟩
    by_cases hwv : w = v
    · subst hwv
      exact Option.some.inj ((hassign _).self.symm.trans hc)
    · rw [(hassign _).other w hw hwv] at hc
      exact hextends w hw c hc
  · rintro ⟨c, -, full, hproper, hextends⟩
    refine ⟨full, hproper, fun w hw d hd ↦ hextends w hw d ?_⟩
    have hwv : w ≠ v := by
      rintro rfl
      rw [hnone] at hd
      cases hd
    rw [(hassign c).other w hw hwv, hd]

/-- A colour that a neighbour has leads nowhere. -/
theorem not_completable_of_not_free (hirrefl : ∀ v, graph v v = false) (hv : v ∈ vertices)
    (hassigned : Assigned vertices colors v color later)
    (hfree : ¬ Free graph vertices colors v color) :
    ¬ Completable graph vertices palette later := by
  rintro ⟨full, hproper, hextends⟩
  refine hfree fun w hw hedge hcolor ↦ hproper.apart v hv w hw hedge ?_
  have hwv : w ≠ v := by
    rintro rfl
    rw [hirrefl] at hedge
    cases hedge
  rw [hextends v hv color hassigned.self,
    hextends w hw color (by rw [hassigned.other w hw hwv, hcolor])]

end Coloring
