import Mathlib

namespace MeridianCore

/-- The states a labelled step leads through, from one state to another. -/
inductive Run {σ τ : Type*} (step : σ → τ → σ → Prop) : σ → List τ → σ → Prop where
  | nil (state : σ) : Run step state [] state
  | snoc {start state next : σ} {labels : List τ} {label : τ} (before : Run step start labels state)
      (taken : step state label next) : Run step start (labels ++ [label]) next

namespace Run

variable {σ τ : Type*} {step : σ → τ → σ → Prop}

/-- What holds at the start and every step keeps holds at the end. -/
theorem invariant (P : σ → Prop) {start state : σ} {labels : List τ} (run : Run step start labels state)
    (initial : P start) (kept : ∀ state label next, P state → step state label next → P next) : P state := by
  induction run with
  | nil => exact initial
  | snoc before taken ih => exact kept _ _ _ ih taken

/-- What holds at the start and every step that meets its condition keeps holds at the end of a run
whose steps all meet it. -/
theorem invariant_of (P : σ → Prop) {Met : σ → τ → Prop} {start state : σ} {labels : List τ}
    (run : Run (fun state label next => Met state label ∧ step state label next) start labels state)
    (initial : P start) (kept : ∀ state label next, P state → Met state label → step state label next → P next) :
    P state :=
  run.invariant P initial fun state label next holds taken => kept state label next holds taken.1 taken.2

theorem forget {Met : σ → τ → Prop} {start state : σ} {labels : List τ}
    (run : Run (fun state label next => Met state label ∧ step state label next) start labels state) :
    Run step start labels state := by
  induction run with
  | nil => exact .nil _
  | snoc before taken ih => exact ih.snoc taken.2

/-- A run whose steps each meet what every step meets. -/
theorem imp {met : σ → τ → σ → Prop} (meets : ∀ state label next, step state label next → met state label next)
    {start state : σ} {labels : List τ} (run : Run step start labels state) : Run met start labels state := by
  induction run with
  | nil => exact .nil _
  | snoc before taken ih => exact ih.snoc (meets _ _ _ taken)

/-- A fold that answers is a run of its steps. -/
theorem of_foldlM {ε : Type*} {move : σ → τ → Except ε σ} {start state : σ} {labels : List τ}
    (folded : labels.foldlM move start = .ok state) :
    Run (fun state label next => move state label = .ok next) start labels state := by
  induction labels using List.reverseRecOn generalizing state with
  | nil =>
    cases folded
    exact .nil _
  | append_singleton before label ih =>
    rw [List.foldlM_append] at folded
    cases reached : before.foldlM move start with
    | error out =>
      rw [reached] at folded
      cases folded
    | ok middle =>
      rw [reached] at folded
      refine (ih reached).snoc ?_
      cases moved : move middle label with
      | error out => simp [bind, Except.bind, moved] at folded
      | ok after => simpa [bind, Except.bind, pure, Except.pure, moved] using folded

/-- A run computed: where its steps end meets a check. -/
theorem of_any {move : σ → τ → Option σ} {start : σ} {labels : List τ} {check : σ → Bool}
    (computed : (labels.foldlM move start).any check = true) :
    ∃ state, Run (fun state label next => move state label = some next) start labels state ∧ check state = true := by
  obtain ⟨state, folded, checked⟩ := Option.any_eq_true _ _ |>.mp computed
  refine ⟨state, ?_, checked⟩
  clear computed checked
  induction labels using List.reverseRecOn generalizing state with
  | nil =>
    cases folded
    exact .nil _
  | append_singleton before label ih =>
    rw [List.foldlM_append] at folded
    obtain ⟨middle, reached, moved⟩ := Option.bind_eq_some_iff.mp folded
    refine (ih middle reached).snoc ?_
    simpa using moved

end Run

end MeridianCore
