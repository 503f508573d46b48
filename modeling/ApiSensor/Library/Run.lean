import Mathlib.Logic.Basic

/-!
# Labelled runs

A run of a labelled transition relation, with the states it passes.
-/

namespace Library

variable {σ ℓ : Type}

/-- Steps taken one after the other.  The trace lists each label with the state it was taken in. -/
inductive Run (step : σ → ℓ → σ → Prop) : σ → List (σ × ℓ) → σ → Prop
  | nil (state : σ) : Run step state [] state
  | cons {state next final : σ} {label : ℓ} {trace : List (σ × ℓ)} :
      step state label next → Run step next trace final →
      Run step state ((state, label) :: trace) final

namespace Run

variable {step : σ → ℓ → σ → Prop} {state final : σ} {trace : List (σ × ℓ)}

/-- What every step of the trace preserves holds at the end. -/
theorem invariant (run : Run step state trace final) (inv : σ → Prop)
    (preserved : ∀ before label after, (before, label) ∈ trace → step before label after →
      inv before → inv after)
    (initial : inv state) : inv final := by
  induction run with
  | nil => exact initial
  | cons first rest induction =>
    refine induction (fun before label after member => ?_) ?_
    · exact preserved before label after (List.mem_cons_of_mem _ member)
    · exact preserved _ _ _ List.mem_cons_self first initial

/-- Every entry of the trace is a step. -/
theorem exists_step (run : Run step state trace final) {entry : σ × ℓ} (member : entry ∈ trace) :
    ∃ next, step entry.1 entry.2 next := by
  induction run with
  | nil => exact absurd member List.not_mem_nil
  | cons first _ induction =>
    rcases List.mem_cons.mp member with rfl | later
    · exact ⟨_, first⟩
    · exact induction later

/-- A run can go on. -/
theorem concat {label : ℓ} {next : σ} (run : Run step state trace final)
    (last : step final label next) : Run step state (trace ++ [(final, label)]) next := by
  induction run with
  | nil => exact .cons last (.nil _)
  | cons first _ induction => exact .cons first (induction last)

/-- A run can be cut at any place of its trace. -/
theorem of_append {earlier later : List (σ × ℓ)} (run : Run step state (earlier ++ later) final) :
    ∃ middle, Run step state earlier middle ∧ Run step middle later final := by
  induction earlier generalizing state with
  | nil => exact ⟨state, .nil state, run⟩
  | cons entry earlier induction =>
    cases run with
    | cons first rest =>
      obtain ⟨middle, before, after⟩ := induction rest
      exact ⟨middle, .cons first before, after⟩

end Run

/-- If a step keeps an invariant exactly when it meets a condition, a run keeps it in every state
exactly when all its steps do. -/
theorem foldl_invariant_iff {step : σ → ℓ → σ} {inv : σ → Prop} {meets : σ → ℓ → Prop}
    (step_iff : ∀ state label, inv state → (inv (step state label) ↔ meets state label))
    {state : σ} (initial : inv state) (labels : List ℓ) :
    (∀ early rest, labels = early ++ rest → inv (early.foldl step state)) ↔
      ∀ early label rest, labels = early ++ label :: rest →
        meets (early.foldl step state) label := by
  constructor
  · rintro kept early label rest rfl
    have before := kept early (label :: rest) rfl
    have after := kept (early ++ [label]) rest (by simp)
    rw [List.foldl_append] at after
    exact (step_iff _ label before).mp after
  · intro met early rest split
    induction early generalizing state labels with
    | nil => exact initial
    | cons label early induction =>
      subst split
      have first := (step_iff state label initial).mpr (met [] label (early ++ rest) rfl)
      refine induction first (early ++ rest) (fun early' label' rest' split => ?_) rfl
      exact met (label :: early') label' rest' (congrArg (label :: ·) split)

end Library
