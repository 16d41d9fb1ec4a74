import Mathlib.Init

set_option autoImplicit false

/-! Finite runs of labelled partial steps. A step function answers `none` where
a label is not enabled; `ok` is a condition on every step that is taken. -/

namespace Runs

variable {σ ι : Type}

/-- `labels` leads from the first state to the last, and `ok` holds of each step
in the state it is taken in. -/
inductive Run (step : σ → ι → Option σ) (ok : σ → ι → Prop) : σ → List ι → σ → Prop
  | nil (state : σ) : Run step ok state [] state
  | snoc {first middle last : σ} {labels : List ι} {label : ι}
      (before : Run step ok first labels middle)
      (allowed : ok middle label)
      (taken : step middle label = some last) :
      Run step ok first (labels ++ [label]) last

/-- Runs with no condition on their steps. -/
abbrev Free (step : σ → ι → Option σ) : σ → List ι → σ → Prop :=
  Run step (fun _ _ => True)

variable {step : σ → ι → Option σ} {ok : σ → ι → Prop}

namespace Run

theorem single {first last : σ} {label : ι} (allowed : ok first label)
    (taken : step first label = some last) : Run step ok first [label] last :=
  @snoc _ _ _ _ first first last [] label (nil first) allowed taken

theorem append {first middle last : σ} {front back : List ι}
    (head : Run step ok first front middle) (tail : Run step ok middle back last) :
    Run step ok first (front ++ back) last := by
  induction tail with
  | nil => simpa using head
  | snoc _ allowed taken ih =>
    rw [← List.append_assoc]
    exact snoc ih allowed taken

/-- What holds at the start and is kept by every allowed step holds at the end. -/
theorem invariant {Inv : σ → Prop} {first last : σ} {labels : List ι}
    (run : Run step ok first labels last) (init : Inv first)
    (keeps : ∀ state label next, Inv state → ok state label →
      step state label = some next → Inv next) : Inv last := by
  induction run with
  | nil => exact init
  | snoc _ allowed taken ih => exact keeps _ _ _ ih allowed taken

/-- Where an invariant has every allowed step meet another condition, so does the run. -/
theorem meets {Inv : σ → Prop} {other : σ → ι → Prop} {first last : σ} {labels : List ι}
    (run : Run step ok first labels last) (init : Inv first)
    (keeps : ∀ state label next, Inv state → ok state label → step state label = some next →
      other state label ∧ Inv next) : Run step other first labels last ∧ Inv last := by
  induction run with
  | nil => exact ⟨nil _, init⟩
  | snoc _ allowed taken ih =>
    obtain ⟨before, inv⟩ := ih
    obtain ⟨now, kept⟩ := keeps _ _ _ inv allowed taken
    exact ⟨snoc before now taken, kept⟩

/-- A reflexive and transitive relation that holds across every allowed step,
between states that satisfy an invariant, holds across the whole run. -/
theorem relation {Inv : σ → Prop} {Rel : σ → σ → Prop} {first last : σ} {labels : List ι}
    (run : Run step ok first labels last) (init : Inv first)
    (keeps : ∀ state label next, Inv state → ok state label →
      step state label = some next → Inv next ∧ Rel state next)
    (refl : ∀ state, Rel state state)
    (trans : ∀ a b c, Rel a b → Rel b c → Rel a c) : Inv last ∧ Rel first last := by
  induction run with
  | nil => exact ⟨init, refl _⟩
  | snoc _ allowed taken ih =>
    obtain ⟨inv, before⟩ := ih
    obtain ⟨kept, now⟩ := keeps _ _ _ inv allowed taken
    exact ⟨kept, trans _ _ _ before now⟩

theorem weaken {first last : σ} {labels : List ι} {weaker : σ → ι → Prop}
    (run : Run step ok first labels last)
    (implies : ∀ state label, ok state label → weaker state label) :
    Run step weaker first labels last := by
  induction run with
  | nil => exact nil _
  | snoc _ allowed taken ih => exact snoc ih (implies _ _ allowed) taken

/-- A condition that the labels meet can be read off every step. -/
theorem restrict {first last : σ} {labels : List ι} {meets : ι → Prop}
    (run : Run step ok first labels last) (all : ∀ label ∈ labels, meets label) :
    Run step (fun state label => ok state label ∧ meets label) first labels last := by
  induction run with
  | nil => exact nil _
  | snoc _ allowed taken ih =>
    have before := ih fun label member => all label (List.mem_append_left _ member)
    have here := all _ (List.mem_append_right _ (List.mem_singleton_self _))
    exact snoc before ⟨allowed, here⟩ taken

end Run

/-- Execute a list of labels, stopping with `none` at the first disabled one. -/
def exec (step : σ → ι → Option σ) : σ → List ι → Option σ
  | state, [] => some state
  | state, label :: rest => (step state label).bind fun next => exec step next rest

theorem exec_run {first last : σ} {labels : List ι} (executed : exec step first labels = some last)
    (allowed : ∀ state, ∀ label ∈ labels, ok state label) : Run step ok first labels last := by
  induction labels generalizing first with
  | nil =>
    cases executed
    exact .nil _
  | cons label rest ih =>
    obtain ⟨next, taken, executed⟩ := Option.bind_eq_some_iff.mp executed
    have head := Run.single (allowed first label List.mem_cons_self) taken
    exact head.append (ih executed fun state label member =>
      allowed state label (List.mem_cons_of_mem _ member))

/-- The step with its condition checked first. -/
def guarded (step : σ → ι → Option σ) (ok : σ → ι → Prop)
    [∀ state label, Decidable (ok state label)] (state : σ) (label : ι) : Option σ :=
  if ok state label then step state label else none

theorem exec_guarded_run [∀ state label, Decidable (ok state label)] {first last : σ}
    {labels : List ι} (executed : exec (guarded step ok) first labels = some last) :
    Run step ok first labels last := by
  induction labels generalizing first with
  | nil =>
    cases executed
    exact .nil _
  | cons label rest ih =>
    obtain ⟨next, taken, executed⟩ := Option.bind_eq_some_iff.mp executed
    unfold guarded at taken
    split at taken
    · rename_i allowed
      exact (Run.single allowed taken).append (ih executed)
    · cases taken

end Runs
