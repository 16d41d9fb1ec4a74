import DriveServe.Runs
import DriveServe.Unwinding
import Mathlib.Data.List.Nodup

set_option autoImplicit false

/-! Requests served at the same time, each by a few atomic steps on what they share,
one of which takes effect. In the order of these steps the requests might as well have
been served one after the other. -/

namespace Linearize

variable {σ ι κ ο ν : Type}

/-- How a request is served: the stage it starts in, its next atomic step, what it has
answered in the end, and what it is bound to answer once it has taken effect. -/
structure Server (σ ι κ ο : Type) where
  start : κ
  advance : σ → ι → κ → Option (κ × σ)
  answer : κ → Option ο
  due : ι → κ → Option ο

structure Flight (ι κ : Type) where
  request : ι
  stage : κ
  deriving DecidableEq, Repr

/-- The requests so far. `order` is kept for the proof: the requests that have taken
effect, by their places among the flights, in the order they did. -/
structure Serving (σ ι κ : Type) where
  shared : σ
  flights : List (Flight ι κ)
  order : List Nat

inductive Event (ι : Type) where
  | arrive (request : ι)
  | advance (index : Nat)

namespace Serving

def boot (shared : σ) : Serving σ ι κ := { shared, flights := [], order := [] }

def arrive (server : Server σ ι κ ο) (system : Serving σ ι κ) (request : ι) : Serving σ ι κ :=
  { system with flights := system.flights ++ [{ request, stage := server.start }] }

def moved (server : Server σ ι κ ο) (system : Serving σ ι κ) (index : Nat)
    (flight : Flight ι κ) (stage : κ) (shared : σ) : Serving σ ι κ where
  shared := shared
  flights := system.flights.set index { flight with stage }
  order :=
    if (server.due flight.request flight.stage).isNone ∧
        (server.due flight.request stage).isSome then system.order ++ [index]
    else system.order

def step (server : Server σ ι κ ο) (system : Serving σ ι κ) : Event ι → Option (Serving σ ι κ)
  | .arrive request => some (system.arrive server request)
  | .advance index => do
    let flight ← system.flights[index]?
    let (stage, shared) ← server.advance system.shared flight.request flight.stage
    return system.moved server index flight stage shared

inductive Stepped (server : Server σ ι κ ο) (system : Serving σ ι κ) :
    Event ι → Serving σ ι κ → Prop
  | arrive (request : ι) : Stepped server system (.arrive request) (system.arrive server request)
  | advance (index : Nat) (flight : Flight ι κ) (stage : κ) (shared : σ)
      (found : system.flights[index]? = some flight)
      (advanced : server.advance system.shared flight.request flight.stage =
        some (stage, shared)) :
      Stepped server system (.advance index) (system.moved server index flight stage shared)

theorem step_cases {server : Server σ ι κ ο} {system next : Serving σ ι κ} {event : Event ι}
    (taken : system.step server event = some next) : Stepped server system event next := by
  cases event with
  | arrive request =>
    cases taken
    exact .arrive request
  | advance index =>
    obtain ⟨flight, found, taken⟩ := Option.bind_eq_some_iff.mp taken
    obtain ⟨⟨stage, shared⟩, advanced, taken⟩ := Option.bind_eq_some_iff.mp taken
    cases taken
    exact .advance index flight stage shared found advanced

def requests (system : Serving σ ι κ) (indices : List Nat) : List ι :=
  indices.filterMap fun index => (system.flights[index]?).map Flight.request

end Serving

/-- Each step a request can come to either leaves what is seen of the shared state and what
the request is bound to answer, or is the one that does what the plain `spec` does. -/
structure Atomic (server : Server σ ι κ ο) (spec : σ → ι → ο × σ) (view : σ → ν)
    (watched : ι → Prop) (fits : ι → κ → Prop) : Prop where
  starts : ∀ request, fits request server.start
  stays : ∀ shared request stage stage' shared', fits request stage →
    server.advance shared request stage = some (stage', shared') → fits request stage'
  pending : ∀ request, server.due request server.start = none
  stepped : ∀ shared request stage stage' shared', fits request stage →
    server.advance shared request stage = some (stage', shared') →
      (server.due request stage' = server.due request stage ∧ view shared' = view shared) ∨
      (watched request ∧ server.due request stage = none ∧
        server.due request stage' = some (spec shared request).1 ∧
        view shared' = view (spec shared request).2)
  kept : ∀ request stage answer, watched request → server.answer stage = some answer →
    server.due request stage = some answer
  congr : ∀ shared shared' request, watched request → view shared = view shared' →
    (spec shared request).1 = (spec shared' request).1 ∧
      view (spec shared request).2 = view (spec shared' request).2

variable {server : Server σ ι κ ο} {spec : σ → ι → ο × σ} {view : σ → ν} {watched : ι → Prop}
  {fits : ι → κ → Prop} {first : σ} {system earlier later : Serving σ ι κ}

open Serving Unwinding

/-- What has taken effect so far, and that it might have been served in that order. -/
structure Inv (server : Server σ ι κ ο) (spec : σ → ι → ο × σ) (view : σ → ν)
    (fits : ι → κ → Prop) (first : σ) (system : Serving σ ι κ) : Prop where
  fitting : ∀ (index : Nat) (flight : Flight ι κ), system.flights[index]? = some flight →
    fits flight.request flight.stage
  listed : ∀ index, index ∈ system.order ↔ ∃ flight, system.flights[index]? = some flight ∧
    (server.due flight.request flight.stage).isSome
  once : system.order.Nodup
  state : view system.shared = view (final spec first (system.requests system.order))
  placed : ∀ front index back, system.order = front ++ index :: back →
    ∀ flight answer, system.flights[index]? = some flight →
      server.due flight.request flight.stage = some answer →
      answer = (spec (final spec first (system.requests front)) flight.request).1

namespace Inv

theorem within (inv : Inv server spec view fits first system) {index : Nat}
    (member : index ∈ system.order) : index < system.flights.length := by
  obtain ⟨flight, found, _⟩ := (inv.listed index).mp member
  exact (List.getElem?_eq_some_iff.mp found).1

theorem boot : Inv server spec view fits first (.boot first) where
  fitting index flight found := by simp [Serving.boot] at found
  listed index := by simp [Serving.boot]
  once := List.nodup_nil
  state := rfl
  placed front index back split := by simp [Serving.boot] at split

end Inv

theorem requests_arrive (system : Serving σ ι κ) (request : ι) {indices : List Nat}
    (within : ∀ index ∈ indices, index < system.flights.length) :
    (system.arrive server request).requests indices = system.requests indices := by
  apply List.filterMap_congr
  intro index member
  simp only [Serving.arrive, List.getElem?_append_left (within index member)]

theorem requests_moved {index : Nat} {flight : Flight ι κ}
    (found : system.flights[index]? = some flight) (stage : κ) (shared : σ)
    (indices : List Nat) :
    (system.moved server index flight stage shared).requests indices =
      system.requests indices := by
  apply List.filterMap_congr
  intro other _
  simp only [Serving.moved, List.getElem?_set]
  split
  · rename_i same
    subst same
    obtain ⟨bound, held⟩ := List.getElem?_eq_some_iff.mp found
    simp [bound, held]
  · rfl

theorem flights_moved {index : Nat} {flight : Flight ι κ}
    (found : system.flights[index]? = some flight) (stage : κ) (shared : σ) (other : Nat) :
    (system.moved server index flight stage shared).flights[other]? =
      if other = index then some { flight with stage } else system.flights[other]? := by
  have bound := (List.getElem?_eq_some_iff.mp found).1
  simp only [Serving.moved, List.getElem?_set]
  by_cases same : index = other
  · subst same
    simp [bound]
  · simp [same, Ne.symm same]

theorem inv_arrive (atomic : Atomic server spec view watched fits)
    (inv : Inv server spec view fits first system) (request : ι) :
    Inv server spec view fits first (system.arrive server request) where
  fitting index flight found := by
    rcases List.mem_append.mp (List.mem_of_getElem? found) with old | new
    · obtain ⟨place, bound, held⟩ := List.mem_iff_getElem.mp old
      exact inv.fitting place flight (by rw [List.getElem?_eq_getElem bound, held])
    · rw [List.mem_singleton.mp new]
      exact atomic.starts request
  listed index := by
    rw [show (system.arrive server request).order = system.order from rfl, inv.listed]
    simp only [Serving.arrive, List.getElem?_append]
    split
    · rfl
    · rename_i beyond
      have missing : system.flights[index]? = none := List.getElem?_eq_none (by omega)
      constructor
      · rintro ⟨flight, found, _⟩
        rw [missing] at found
        cases found
      · rintro ⟨flight, found, settled⟩
        have here := List.mem_of_getElem? found
        rw [List.mem_singleton] at here
        subst here
        rw [atomic.pending] at settled
        cases settled
  once := inv.once
  state := by
    rw [show (system.arrive server request).order = system.order from rfl,
      requests_arrive system request fun _ member => inv.within member]
    exact inv.state
  placed front index back split flight answer found settled := by
    have ordered : system.order = front ++ index :: back := split
    have member : index ∈ system.order := by simp [ordered]
    have bound := inv.within member
    rw [requests_arrive system request fun other before =>
      inv.within (by simp [ordered, before])]
    simp only [Serving.arrive, List.getElem?_append_left bound] at found
    exact inv.placed front index back ordered flight answer found settled

theorem order_moved_of_silent {index : Nat} {flight : Flight ι κ} {stage : κ}
    (silent : server.due flight.request stage = server.due flight.request flight.stage)
    (shared : σ) :
    (system.moved server index flight stage shared).order = system.order := by
  simp only [Serving.moved, silent, ite_eq_right_iff]
  rintro ⟨nothing, something⟩
  rw [Option.isNone_iff_eq_none.mp nothing] at something
  cases something

theorem order_moved_of_effect {index : Nat} {flight : Flight ι κ} {stage : κ} {answer : ο}
    (pending : server.due flight.request flight.stage = none)
    (settled : server.due flight.request stage = some answer) (shared : σ) :
    (system.moved server index flight stage shared).order = system.order ++ [index] := by
  simp [Serving.moved, pending, settled]

theorem fitting_moved (inv : Inv server spec view fits first system) {index : Nat}
    {flight : Flight ι κ} (found : system.flights[index]? = some flight) {stage : κ}
    (fit : fits flight.request stage) (shared : σ) (other : Nat) (held : Flight ι κ)
    (there : (system.moved server index flight stage shared).flights[other]? = some held) :
    fits held.request held.stage := by
  rw [flights_moved found] at there
  split at there
  · cases there
    exact fit
  · exact inv.fitting other held there

theorem inv_silent (inv : Inv server spec view fits first system) {index : Nat}
    {flight : Flight ι κ} (found : system.flights[index]? = some flight) {stage : κ}
    (fit : fits flight.request stage)
    (silent : server.due flight.request stage = server.due flight.request flight.stage)
    {shared : σ} (still : view shared = view system.shared) :
    Inv server spec view fits first (system.moved server index flight stage shared) := by
  have ordered := @order_moved_of_silent _ _ _ _ server system index flight stage silent shared
  refine ⟨fitting_moved inv found fit shared, fun other => ?_, by rw [ordered]; exact inv.once,
    ?_, ?_⟩
  · rw [ordered, inv.listed, flights_moved found]
    by_cases here : other = index
    · subst here
      simp only [↓reduceIte, found, Option.some.injEq, exists_eq_left', silent]
    · simp only [here, ↓reduceIte]
  · rw [ordered, requests_moved found]
    exact still.trans inv.state
  · intro front other back split held answer there settled
    rw [ordered] at split
    rw [requests_moved found]
    rw [flights_moved found] at there
    by_cases here : other = index
    · subst here
      simp only [↓reduceIte, Option.some.injEq] at there
      subst there
      exact inv.placed front other back split flight answer found (silent ▸ settled)
    · simp only [here, ↓reduceIte] at there
      exact inv.placed front other back split held answer there settled

theorem final_requests_snoc {index : Nat} {flight : Flight ι κ}
    (found : system.flights[index]? = some flight) (indices : List Nat) :
    final spec first (system.requests (indices ++ [index])) =
      (spec (final spec first (system.requests indices)) flight.request).2 := by
  have one : system.requests [index] = [flight.request] := by
    simp [Serving.requests, found]
  have more : system.requests (indices ++ [index]) =
      system.requests indices ++ system.requests [index] := List.filterMap_append ..
  rw [more, one, final_append, final_cons, final_nil]

/-- Where an element of a list with one more at its end can stand. -/
theorem snoc_split {α : Type} {list front back : List α} {last item : α}
    (split : list ++ [last] = front ++ item :: back) :
    (front = list ∧ item = last) ∨ ∃ init, list = front ++ item :: init := by
  cases List.eq_nil_or_concat back with
  | inl empty =>
    subst empty
    have front_eq : list = front := List.append_inj_left' split rfl
    have last_eq : [last] = [item] := List.append_inj_right' split rfl
    exact Or.inl ⟨front_eq.symm, (List.singleton_inj.mp last_eq).symm⟩
  | inr longer =>
    obtain ⟨init, final, rfl⟩ := longer
    rw [List.concat_eq_append, ← List.cons_append, ← List.append_assoc] at split
    exact Or.inr ⟨init, List.append_inj_left' split rfl⟩

theorem inv_effect (atomic : Atomic server spec view watched fits)
    (inv : Inv server spec view fits first system) {index : Nat} {flight : Flight ι κ}
    (found : system.flights[index]? = some flight) (watching : watched flight.request)
    (pending : server.due flight.request flight.stage = none) {stage : κ}
    (fit : fits flight.request stage)
    (settled : server.due flight.request stage =
      some (spec system.shared flight.request).1) {shared : σ}
    (done : view shared = view (spec system.shared flight.request).2) :
    Inv server spec view fits first (system.moved server index flight stage shared) := by
  have ordered := @order_moved_of_effect _ _ _ _ server system index flight stage _ pending
    settled shared
  have unlisted : index ∉ system.order := by
    intro member
    obtain ⟨held, here, something⟩ := (inv.listed index).mp member
    rw [found, Option.some_inj] at here
    subst here
    rw [pending] at something
    cases something
  obtain ⟨answered, moved⟩ := atomic.congr _ _ flight.request watching inv.state
  refine ⟨fitting_moved inv found fit shared, fun other => ?_, ?_, ?_, ?_⟩
  · rw [ordered, List.mem_append, List.mem_singleton, flights_moved found]
    by_cases here : other = index
    · subst here
      simp [settled]
    · simp only [here, or_false, ↓reduceIte, inv.listed]
  · rw [ordered]
    exact List.nodup_append.mpr ⟨inv.once, List.nodup_singleton _, fun a member b last => by
      rintro rfl
      exact unlisted (List.mem_singleton.mp last ▸ member)⟩
  · rw [ordered, requests_moved found, final_requests_snoc found]
    exact done.trans moved
  · intro front other back split held answer there due
    rw [ordered] at split
    rw [requests_moved found]
    rw [flights_moved found] at there
    by_cases here : other = index
    · subst here
      simp only [↓reduceIte, Option.some.injEq] at there
      subst there
      rw [settled, Option.some_inj] at due
      rcases snoc_split split with ⟨rfl, _⟩ | ⟨init, before⟩
      · rw [← due]
        exact answered
      · exact absurd (by simp [before]) unlisted
    · simp only [here, ↓reduceIte] at there
      rcases snoc_split split with ⟨_, last⟩ | ⟨init, before⟩
      · exact absurd last here
      · exact inv.placed front other init before held answer there due

theorem inv_step (atomic : Atomic server spec view watched fits)
    (inv : Inv server spec view fits first system) {event : Event ι} {next : Serving σ ι κ}
    (taken : system.step server event = some next) :
    Inv server spec view fits first next := by
  cases step_cases taken with
  | arrive request => exact inv_arrive atomic inv request
  | advance index flight stage shared found advanced =>
    have here := inv.fitting index flight found
    have fit := atomic.stays _ _ _ _ _ here advanced
    rcases atomic.stepped _ _ _ _ _ here advanced with ⟨silent, still⟩ |
      ⟨watching, pending, settled, done⟩
    · exact inv_silent inv found fit silent still
    · exact inv_effect atomic inv found watching pending fit settled done

theorem run_fitting (atomic : Atomic server spec view watched fits) {events : List (Event ι)}
    (run : Runs.Free (Serving.step server) (.boot first) events system) :
    ∀ flight ∈ system.flights, fits flight.request flight.stage := by
  intro flight member
  have inv : Inv server spec view fits first system :=
    run.invariant .boot fun _ _ _ inv _ taken => inv_step atomic inv taken
  obtain ⟨index, found⟩ := List.mem_iff_getElem?.mp member
  exact inv.fitting index flight found

theorem order_step (atomic : Atomic server spec view watched fits)
    (inv : Inv server spec view fits first system) {event : Event ι}
    {next : Serving σ ι κ} (taken : system.step server event = some next) :
    system.order <+: next.order := by
  cases step_cases taken with
  | arrive request => exact List.prefix_rfl
  | advance index flight stage shared found advanced =>
    rcases atomic.stepped _ _ _ _ _ (inv.fitting index flight found) advanced with
      ⟨silent, _⟩ | ⟨_, pending, settled, _⟩
    · exact (order_moved_of_silent silent shared) ▸ List.prefix_rfl
    · rw [order_moved_of_effect pending settled]
      exact List.prefix_append ..

/-- Two moments of a run, and the one order all that was answered up to the later one might
have been served in: it agrees with what came before what. -/
structure Linearized (server : Server σ ι κ ο) (spec : σ → ι → ο × σ) (view : σ → ν)
    (watched : ι → Prop) (first : σ) (earlier later : Serving σ ι κ) : Prop where
  once : later.order.Nodup
  state : view later.shared = view (final spec first (later.requests later.order))
  answered : ∀ index flight answer, later.flights[index]? = some flight →
    watched flight.request → server.answer flight.stage = some answer →
    ∃ front back, later.order = front ++ index :: back ∧
      answer = (spec (final spec first (later.requests front)) flight.request).1
  realTime : ∀ index flight answer, earlier.flights[index]? = some flight →
    watched flight.request → server.answer flight.stage = some answer →
    ∀ newer front back, earlier.flights.length ≤ newer →
      later.order = front ++ newer :: back → index ∈ front

theorem run_linearized (atomic : Atomic server spec view watched fits)
    {before after : List (Event ι)}
    (start : Runs.Free (Serving.step server) (.boot first) before earlier)
    (rest : Runs.Free (Serving.step server) earlier after later) :
    Linearized server spec view watched first earlier later := by
  have keeps : ∀ (state : Serving σ ι κ) event next,
      Inv server spec view fits first state → True → state.step server event = some next →
        Inv server spec view fits first next :=
    fun _ _ _ inv _ taken => inv_step atomic inv taken
  have then_ := start.invariant .boot keeps
  have grown : Inv server spec view fits first later ∧ earlier.order <+: later.order :=
    rest.relation then_
      (fun _ _ _ inv _ taken => ⟨inv_step atomic inv taken, order_step atomic inv taken⟩)
      (fun _ => List.prefix_rfl) (fun _ _ _ => List.IsPrefix.trans)
  obtain ⟨inv, added⟩ := grown
  refine ⟨inv.once, inv.state, ?_, ?_⟩
  · intro index flight answer found watching given
    have due := atomic.kept _ _ _ watching given
    have member := (inv.listed index).mpr ⟨flight, found, by simp [due]⟩
    obtain ⟨front, back, split⟩ := List.append_of_mem member
    exact ⟨front, back, split, inv.placed front index back split flight answer found due⟩
  · intro index flight answer found watching given newer front back late split
    have due := atomic.kept _ _ _ watching given
    have member := (then_.listed index).mpr ⟨flight, found, by simp [due]⟩
    obtain ⟨more, longer⟩ := added
    have unlisted : newer ∉ earlier.order := fun listed => by
      have bound := then_.within listed
      omega
    rw [← longer] at split
    rcases List.append_eq_append_iff.mp split with ⟨extra, rfl, _⟩ | ⟨extra, ordered, rest⟩
    · exact List.mem_append_left _ member
    · cases extra with
      | nil => simpa [ordered] using member
      | cons head tail =>
        have same : newer = head := (List.cons.inj rest).1
        exact absurd (by simp [ordered, same]) unlisted

end Linearize
