import DriveServe.Runs

set_option autoImplicit false

/-! One step system in terms of another: what a state and a label of the first come to in
the second. -/

namespace Refinement

open Runs (Run Free)

variable {σ τ ι κ : Type} {step : σ → ι → Option σ} {ok : σ → ι → Prop}
  {model : τ → κ → Option τ} {abstraction : σ → τ} {meant : ι → κ}

/-- Every allowed step is one of the model, under what its label means there. -/
def Refines (step : σ → ι → Option σ) (ok : σ → ι → Prop) (model : τ → κ → Option τ)
    (abstraction : σ → τ) (meant : ι → κ) : Prop :=
  ∀ state event next, ok state event → step state event = some next →
    model (abstraction state) (meant event) = some (abstraction next)

/-- Whole runs are runs of the model then. -/
theorem Refines.run (refines : Refines step ok model abstraction meant) {first last : σ}
    {events : List ι} (run : Run step ok first events last) :
    Free model (abstraction first) (events.map meant) (abstraction last) := by
  induction run with
  | nil => exact .nil _
  | snoc _ allowed taken ih =>
    rw [List.map_append]
    exact ih.snoc trivial (refines _ _ _ allowed taken)

end Refinement
