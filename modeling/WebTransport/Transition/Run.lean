import Mathlib.Tactic.Common

namespace transition

variable {σ ε : Type} {step : σ → ε → Option σ} {Allowed : σ → ε → Prop} {start s : σ}

/-- The states that steps from `start` lead to, when every step is one of the allowed. -/
inductive Run (step : σ → ε → Option σ) (Allowed : σ → ε → Prop) (start : σ) : σ → Prop where
  | start : Run step Allowed start start
  | step {s next : σ} {event : ε} (hrun : Run step Allowed start s) (hallowed : Allowed s event)
      (hstep : step s event = some next) : Run step Allowed start next

abbrev Reachable (step : σ → ε → Option σ) (start : σ) : σ → Prop :=
  Run step (fun _ _ => True) start

/-- What holds at the start and is kept by every allowed step holds in every run. -/
theorem Run.invariant (Inv : σ → Prop) (hstart : Inv start)
    (hkeep : ∀ {s next : σ} {event : ε}, Inv s → Allowed s event → step s event = some next → Inv next)
    (hrun : Run step Allowed start s) : Inv s := by
  induction hrun with
  | start => exact hstart
  | step _ hallowed hstep ih => exact hkeep ih hallowed hstep

/-- The steps of some events, one after the other. -/
def steps (step : σ → ε → Option σ) : σ → List ε → Option σ
  | s, [] => some s
  | s, event :: events =>
    match step s event with
    | some next => steps step next events
    | none => none

/-- Steps follow on steps. -/
theorem steps_append {events events' : List ε} {mid next : σ} (h : steps step s events = some mid)
    (h' : steps step mid events' = some next) : steps step s (events ++ events') = some next := by
  induction events generalizing s with
  | nil =>
    cases h
    exact h'
  | cons event events ih =>
    rw [steps] at h
    rw [List.cons_append, steps]
    split at h
    · exact ih h
    · cases h

/-- A run goes on by any steps that are allowed everywhere. -/
theorem Run.steps (hrun : Run step Allowed start s) {events : List ε} {next : σ}
    (hallowed : ∀ event ∈ events, ∀ s, Allowed s event) (h : transition.steps step s events = some next) :
    Run step Allowed start next := by
  induction events generalizing s with
  | nil =>
    cases h
    exact hrun
  | cons event events ih =>
    obtain ⟨hevent, hevents⟩ := List.forall_mem_cons.mp hallowed
    rw [transition.steps] at h
    split at h
    · rename_i mid hstep
      exact ih (.step hrun (hevent s) hstep) hevents h
    · cases h

theorem Reachable.steps (hrun : Reachable step start s) {events : List ε} {next : σ}
    (h : transition.steps step s events = some next) : Reachable step start next :=
  Run.steps hrun (fun _ _ _ => trivial) h

end transition
