import Mathlib.Data.List.Basic

set_option autoImplicit false

/-! Runs of a total step that answers each input, seen through a view of the state.
Where a step moves the view only on some inputs, all the others can be left out of a
run and nobody who watches the view can tell. -/

namespace Unwinding

variable {σ ι ο ν : Type} {step : σ → ι → ο × σ} {view : σ → ν} {moves watched : ι → Prop}

/-- The state a list of inputs leads to. -/
def final (step : σ → ι → ο × σ) (state : σ) (inputs : List ι) : σ :=
  inputs.foldl (fun state input => (step state input).2) state

@[simp]
theorem final_nil (step : σ → ι → ο × σ) (state : σ) : final step state [] = state := rfl

@[simp]
theorem final_cons (step : σ → ι → ο × σ) (state : σ) (input : ι) (inputs : List ι) :
    final step state (input :: inputs) = final step (step state input).2 inputs := rfl

theorem final_append (step : σ → ι → ο × σ) (state : σ) (front back : List ι) :
    final step state (front ++ back) = final step (final step state front) back :=
  List.foldl_append ..

/-- Inputs that do not move the view leave it; the others move it by what it shows;
and a watched input is answered by what it shows. -/
structure Unwinds (step : σ → ι → ο × σ) (view : σ → ν) (moves watched : ι → Prop) : Prop where
  still : ∀ state input, ¬ moves input → view (step state input).2 = view state
  moved : ∀ state state' input, moves input → view state = view state' →
    view (step state input).2 = view (step state' input).2
  answered : ∀ state state' input, watched input → view state = view state' →
    (step state input).1 = (step state' input).1

namespace Unwinds

theorem congr (unwinds : Unwinds step view moves watched) {state state' : σ}
    (same : view state = view state') (input : ι) :
    view (step state input).2 = view (step state' input).2 := by
  by_cases moving : moves input
  · exact unwinds.moved state state' input moving same
  · rw [unwinds.still state input moving, unwinds.still state' input moving, same]

theorem final_congr (unwinds : Unwinds step view moves watched) {state state' : σ}
    (same : view state = view state') (inputs : List ι) :
    view (final step state inputs) = view (final step state' inputs) := by
  induction inputs generalizing state state' with
  | nil => exact same
  | cons input rest ih => exact ih (unwinds.congr same input)

/-- The view after a run is the one after the inputs that move it. -/
theorem final_filter [DecidablePred moves] (unwinds : Unwinds step view moves watched)
    (state : σ) (inputs : List ι) :
    view (final step state (inputs.filter moves)) = view (final step state inputs) := by
  induction inputs generalizing state with
  | nil => rfl
  | cons input rest ih =>
    by_cases moving : moves input
    · rw [List.filter_cons_of_pos (by simpa using moving)]
      exact ih _
    · rw [List.filter_cons_of_neg (by simpa using moving), final_cons, ih]
      exact unwinds.final_congr (unwinds.still state input moving).symm rest

/-- A watched input is answered as it is after the inputs that move the view. -/
theorem answer_filter [DecidablePred moves] (unwinds : Unwinds step view moves watched)
    (state : σ) (inputs : List ι) {input : ι} (watching : watched input) :
    (step (final step state (inputs.filter moves)) input).1 =
      (step (final step state inputs) input).1 :=
  unwinds.answered _ _ input watching (unwinds.final_filter state inputs)

end Unwinds

end Unwinding
