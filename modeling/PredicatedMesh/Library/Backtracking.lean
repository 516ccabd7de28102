import Mathlib.Tactic

/-!
# Searches that take back what they tried

A step of such a search changes a state and says whether it succeeded. When it fails, it has taken
back whatever it tried and leaves the state as it was; only then may the next alternative be tried.
A step may also leave with an exception.

`Settles` is what such a step owes to its caller: it succeeds in a state that is good, or it fails,
leaves the state alone, and what it looked for does not exist. Each combinator settles a question
that is put together from the questions of its parts, so that an exhaustive search is shown to be
one by following its shape.
-/

namespace Backtracking

universe u v w

/-- A step of a search: whether it succeeded, and the state afterwards. -/
abbrev Step (ε : Type u) (σ : Type v) := σ → Except ε (Bool × σ)

variable {ε : Type u} {σ : Type v} {α : Type w}

def fail : Step ε σ := fun s ↦ .ok (false, s)

/-- A step, and another one if it fails. -/
def orElse (first second : Step ε σ) : Step ε σ := fun s ↦
  match first s with
  | .error what => .error what
  | .ok (true, later) => .ok (true, later)
  | .ok (false, later) => second later

/-- A step for each alternative, until one of them succeeds. -/
def anyOf (step : α → Step ε σ) : List α → Step ε σ
  | [] => fail
  | a :: alternatives => orElse (step a) (anyOf step alternatives)

/-- A step for the continuation of the search, if the state allows one. -/
def along (next : σ → Except ε (Option α)) (step : α → Step ε σ) : Step ε σ := fun s ↦
  match next s with
  | .error what => .error what
  | .ok none => .ok (false, s)
  | .ok (some a) => step a s

/-- A step inside a change of the state, which is taken back if the step fails. -/
def within (enter : σ → Option (α × σ)) (leave : α → σ → Except ε σ) (step : Step ε σ) :
    Step ε σ := fun s ↦
  match enter s with
  | none => .ok (false, s)
  | some (delta, entered) =>
    match step entered with
    | .error what => .error what
    | .ok (true, later) => .ok (true, later)
    | .ok (false, later) =>
      match leave delta later with
      | .error what => .error what
      | .ok restored => .ok (false, restored)

/-! ## Settling a question -/

/-- The step succeeds in a good state, or it fails, leaves the state alone and settles that what it
looked for does not exist. -/
def Settles (step : Step ε σ) (s : σ) (possible : Prop) (good : σ → Prop) : Prop :=
  (∃ later, step s = .ok (true, later) ∧ good later) ∨ (step s = .ok (false, s) ∧ ¬ possible)

variable {first second step : Step ε σ} {s : σ} {possible possible' : Prop} {good : σ → Prop}

theorem settles_fail (h : ¬ possible) : Settles (fail : Step ε σ) s possible good :=
  .inr ⟨rfl, h⟩

/-- A step that settles a question settles every question that is harder. -/
theorem Settles.mono (h : Settles step s possible good) (hpossible : possible' → possible) :
    Settles step s possible' good := by
  rcases h with hfound | ⟨hstep, hnone⟩
  · exact .inl hfound
  · exact .inr ⟨hstep, fun hp ↦ hnone (hpossible hp)⟩

/-- Only what the step does to this state matters. -/
theorem Settles.congr {other : Step ε σ} (h : Settles step s possible good)
    (heq : other s = step s) : Settles other s possible good := by
  rw [Settles, heq]
  exact h

/-- Two steps settle whether one of two things exists. -/
theorem Settles.orElse (hfirst : Settles first s possible good)
    (hsecond : Settles second s possible' good) :
    Settles (orElse first second) s (possible ∨ possible') good := by
  rcases hfirst with ⟨later, hstep, hgood⟩ | ⟨hstep, hnone⟩
  · refine .inl ⟨later, ?_, hgood⟩
    simp only [Backtracking.orElse, hstep]
  · have hrun : Backtracking.orElse first second s = second s := by
      simp only [Backtracking.orElse, hstep]
    rcases hsecond with ⟨later, hlater, hgood⟩ | ⟨hlater, hnone'⟩
    · exact .inl ⟨later, hrun.trans hlater, hgood⟩
    · exact .inr ⟨hrun.trans hlater, fun hp ↦ hp.elim hnone hnone'⟩

/-- **Trying all alternatives** settles whether one of them leads anywhere. -/
theorem settles_anyOf {step : α → Step ε σ} {possible : α → Prop} {alternatives : List α}
    (h : ∀ a ∈ alternatives, Settles (step a) s (possible a) good) :
    Settles (anyOf step alternatives) s (∃ a ∈ alternatives, possible a) good := by
  induction alternatives with
  | nil =>
    refine settles_fail ?_
    rintro ⟨a, ha, -⟩
    exact absurd ha List.not_mem_nil
  | cons a alternatives ih =>
    rw [List.forall_mem_cons] at h
    refine (h.1.orElse (ih h.2)).mono ?_
    rintro ⟨b, hb, hpossible⟩
    rcases List.mem_cons.mp hb with rfl | hb
    · exact .inl hpossible
    · exact .inr ⟨b, hb, hpossible⟩

theorem settles_along {next : σ → Except ε (Option α)} {step : α → Step ε σ} {o : Option α}
    {possible : α → Prop} (hnext : next s = .ok o)
    (h : ∀ a, o = some a → Settles (step a) s (possible a) good) :
    Settles (along next step) s (∃ a, o = some a ∧ possible a) good := by
  rcases o with _ | a
  · refine .inr ⟨?_, ?_⟩
    · simp only [along, hnext]
    · rintro ⟨a, ha, -⟩
      cases ha
  · have hrun : along next step s = step a s := by
      simp only [along, hnext]
    refine ((h a rfl).mono ?_).congr hrun
    rintro ⟨b, hb, hpossible⟩
    obtain rfl := Option.some.inj hb
    exact hpossible

/-- **Searching inside a change** settles a question if leaving takes the change back. -/
theorem settles_within {enter : σ → Option (α × σ)} {leave : α → σ → Except ε σ}
    (hleave : ∀ delta entered, enter s = some (delta, entered) → leave delta entered = .ok s)
    (hnone : enter s = none → ¬ possible)
    (h : ∀ delta entered, enter s = some (delta, entered) →
      Settles step entered possible good) :
    Settles (within enter leave step) s possible good := by
  rcases henter : enter s with _ | ⟨delta, entered⟩
  · refine .inr ⟨?_, hnone henter⟩
    simp only [within, henter]
  · rcases h delta entered henter with ⟨later, hstep, hgood⟩ | ⟨hstep, himpossible⟩
    · refine .inl ⟨later, ?_, hgood⟩
      simp only [within, henter, hstep]
    · refine .inr ⟨?_, himpossible⟩
      simp only [within, henter, hstep, hleave delta entered henter]

end Backtracking
