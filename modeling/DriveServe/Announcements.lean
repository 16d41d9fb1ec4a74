import DriveServe.Concurrent
import Mathlib.Data.List.Perm.Basic

set_option autoImplicit false

/-! The change beacons of requests served concurrently, each published after its handler has
let go of the lock. -/

namespace DriveServe

section

variable {δ σ ε α β : Type}

/-- The number of the last change of a drive. -/
def Registry.cursorOf (registry : Registry δ) (driveId : String) : Option Nat :=
  (registry.get driveId).map fun tenant => tenant.feed.cursor

/-- The seq of the drive of whose change a request has told, and the node took it. -/
def sent (driveId : String) (flight : Linearize.Flight (Arrival ε) Stage) : Option Nat :=
  match flight.stage with
  | .done _ (some ⟨beacon, some _⟩) => if beacon.drive = driveId then some beacon.maxSeq else none
  | _ => none

/-- The seq of the drive a request has handed over in a beacon that did not go out. -/
def lost (driveId : String) (flight : Linearize.Flight (Arrival ε) Stage) : Option Nat :=
  match flight.stage with
  | .done _ (some ⟨beacon, none⟩) => if beacon.drive = driveId then some beacon.maxSeq else none
  | _ => none

/-- The seq of the drive a request is about to hand a beacon over with. -/
def unsent (driveId : String) (flight : Linearize.Flight (Arrival ε) Stage) : Option Nat :=
  match flight.stage with
  | .announcing _ seq => if flight.request.req.drive = driveId then some seq else none
  | _ => none

def tells (driveId : String) (flight : Linearize.Flight (Arrival ε) Stage) : Option Nat :=
  ((sent driveId flight).or (lost driveId flight)).or (unsent driveId flight)

theorem filterMap_set_same {f : α → Option β} {list : List α} {index : Nat} {old new : α}
    (found : list[index]? = some old) (same : f new = f old) :
    (list.set index new).filterMap f = list.filterMap f := by
  induction list generalizing index with
  | nil => rfl
  | cons head tail ih =>
    cases index with
    | zero =>
      cases found
      simp only [List.set_cons_zero, List.filterMap_cons, same]
    | succ index =>
      simp only [List.set_cons_succ, List.filterMap_cons, ih found]

theorem filterMap_set_new {f : α → Option β} {list : List α} {index : Nat} {old new : α} {b : β}
    (found : list[index]? = some old) (before : f old = none) (now : f new = some b) :
    ((list.set index new).filterMap f).Perm (b :: list.filterMap f) := by
  induction list generalizing index with
  | nil => simp at found
  | cons head tail ih =>
    cases index with
    | zero =>
      cases found
      simp only [List.set_cons_zero, List.filterMap_cons, before, now, List.Perm.refl]
    | succ index =>
      simp only [List.set_cons_succ, List.filterMap_cons]
      cases f head with
      | none => exact ih found
      | some first => exact ((ih found).cons first).trans (.swap ..)

theorem tells_done (driveId : String) (request : Arrival ε) (reply : DriveReply)
    (announcement : Announcement) :
    tells driveId ⟨request, .done reply (some announcement)⟩ =
      if announcement.beacon.drive = driveId then some announcement.beacon.maxSeq else none := by
  obtain ⟨beacon, _ | bytes⟩ := announcement <;>
    simp only [tells, sent, lost, unsent, Option.none_or, Option.or_none]

/-- Where no element is of both kinds, the two lists go into one. -/
theorem filterMap_or_perm {f g : α → Option β} (apart : ∀ a, f a = none ∨ g a = none)
    (list : List α) :
    (list.filterMap f ++ list.filterMap g).Perm (list.filterMap fun a => (f a).or (g a)) := by
  induction list with
  | nil => exact .nil
  | cons head tail ih =>
    simp only [List.filterMap_cons]
    cases first : f head with
    | some b =>
      have nothing : g head = none := (apart head).resolve_left fun none => nomatch first ▸ none
      simp only [nothing, Option.some_or]
      exact ih.cons b
    | none =>
      cases g head with
      | none => exact ih
      | some b => exact List.perm_middle.trans (ih.cons b)

theorem tells_split (driveId : String) (flights : List (Linearize.Flight (Arrival ε) Stage)) :
    (flights.filterMap (sent driveId) ++ flights.filterMap (lost driveId) ++
      flights.filterMap (unsent driveId)).Perm (flights.filterMap (tells driveId)) := by
  have handed := @filterMap_or_perm _ _ (sent driveId) (lost driveId)
    (fun flight : Linearize.Flight (Arrival ε) Stage => by
      obtain ⟨request, stage⟩ := flight
      rcases stage with _ | _ | _ | _ | _ | _ | _ | ⟨_, _ | ⟨_, _ | _⟩⟩ <;> simp [sent, lost])
    flights
  refine (handed.append_right _).trans (filterMap_or_perm (fun flight => ?_) flights)
  obtain ⟨request, stage⟩ := flight
  cases stage <;> simp [sent, lost, unsent]

theorem planned_error {core : SyncedDrive δ σ ε} {env : ε}
    {plan : δ → Except DriveErr (Recording δ)} {tenant after : Tenant δ} {e : DriveErr}
    (ended : planned core env plan tenant = (.error e, after)) :
    after.feed = tenant.feed := by
  unfold planned mutateRecord at ended
  split at ended
  · cases ended
    rfl
  · split at ended
    · cases ended
      rfl
    · cases ended

theorem planned_ok {core : SyncedDrive δ σ ε} {env : ε}
    {plan : δ → Except DriveErr (Recording δ)} {tenant after : Tenant δ} {reply : DriveOk}
    {seq : Nat} (ended : planned core env plan tenant = (.ok (reply, seq), after)) :
    seq = tenant.feed.cursor + 1 ∧ after.feed.cursor = tenant.feed.cursor + 1 := by
  unfold planned mutateRecord at ended
  split at ended
  · cases ended
  · split at ended
    · cases ended
    · cases ended
      exact ⟨rfl, Feed.record_cursor ..⟩

theorem cursorOf_of_ne (registry : Registry δ) {driveId other : String} (apart : other ≠ driveId)
    (stretch : Tenant δ → Except DriveErr α × Tenant δ) :
    (registry.locked driveId stretch).2.cursorOf other = registry.cursorOf other := by
  unfold Registry.cursorOf
  rw [registry.locked_get_of_ne apart]

theorem cursorOf_locked (registry : Registry δ) {driveId : String}
    {stretch : Tenant δ → Except DriveErr α × Tenant δ}
    (still : ∀ tenant, (stretch tenant).2.feed = tenant.feed) (other : String) :
    (registry.locked driveId stretch).2.cursorOf other = registry.cursorOf other := by
  by_cases here : other = driveId
  · subst here
    unfold Registry.cursorOf
    cases found : registry.get other with
    | none => simp only [Registry.locked, found]
    | some tenant =>
      rw [Registry.locked_of_found found]
      simp only [Registry.get_put_self found, Option.map_some, still]
  · exact cursorOf_of_ne registry here stretch

variable {host : Host δ σ ε} {registry registry' : Registry δ} {arrival : Arrival ε}

theorem mutateOnly_feed (core : SyncedDrive δ σ ε) (env : ε) (call : DriveCall)
    (tenant : Tenant δ) : (mutateOnly core env call tenant).2.feed = tenant.feed := by
  unfold mutateOnly
  split <;> rfl

/-- What a step does to the cursors, and what it has the request tell. -/
inductive Tells (registry registry' : Registry δ) (arrival : Arrival ε) (stage stage' : Stage) :
    Prop
  | same (told : ∀ driveId, tells driveId ⟨arrival, stage'⟩ = tells driveId ⟨arrival, stage⟩)
      (still : ∀ driveId, registry'.cursorOf driveId = registry.cursorOf driveId)
  | recorded (cursor : Nat) (silent : ∀ driveId, tells driveId ⟨arrival, stage⟩ = none)
      (before : registry.cursorOf arrival.req.drive = some cursor)
      (told : ∀ driveId, tells driveId ⟨arrival, stage'⟩ =
        if arrival.req.drive = driveId then some (cursor + 1) else none)
      (now : registry'.cursorOf arrival.req.drive = some (cursor + 1))
      (still : ∀ driveId, driveId ≠ arrival.req.drive →
        registry'.cursorOf driveId = registry.cursorOf driveId)

theorem records_tells (registry : Registry δ) (chain : List SignedCapability) {env : ε}
    (plan : δ → Except DriveErr (Recording δ)) (stage : Stage)
    (silent : ∀ driveId, tells driveId ⟨arrival, stage⟩ = none) :
    let ended := takeTurn host registry arrival.req.drive chain
      (.records (planned host.core env plan))
    Tells registry ended.2 arrival stage ended.1 := by
  dsimp only [takeTurn]
  cases found : registry.get arrival.req.drive with
  | none =>
    simp only [Registry.locked, found]
    exact .same (fun driveId => (silent driveId).symm ▸ rfl) fun _ => rfl
  | some tenant =>
    rw [Registry.locked_of_found found]
    cases ended : planned host.core env plan tenant with
    | mk answered after =>
      have apart : ∀ other, other ≠ arrival.req.drive →
          (registry.put arrival.req.drive after).cursorOf other = registry.cursorOf other := by
        intro other differs
        unfold Registry.cursorOf
        rw [registry.get_put_of_ne differs]
      cases answered with
      | error e =>
        refine .same (fun driveId => (silent driveId).symm ▸ rfl) fun driveId => ?_
        by_cases here : driveId = arrival.req.drive
        · subst here
          dsimp only [Registry.cursorOf]
          rw [Registry.get_put_self found, found, Option.map_some, Option.map_some,
            planned_error ended]
        · exact apart driveId here
      | ok told =>
        obtain ⟨reply, seq⟩ := told
        obtain ⟨numbered, moved⟩ := planned_ok ended
        subst numbered
        refine .recorded tenant.feed.cursor silent ?_ (fun _ => rfl) ?_ apart
        · rw [Registry.cursorOf, found, Option.map_some]
        · dsimp only [Registry.cursorOf]
          rw [Registry.get_put_self found, Option.map_some, moved]

/-- A step records at most one change, and then has its request tell of it. -/
theorem proceed_tells {stage stage' : Stage}
    (advanced : proceed host registry arrival stage = some (stage', registry')) :
    Tells registry registry' arrival stage stage' := by
  cases stage with
  | received | missed | copied =>
    simp only [proceed, Option.some.injEq] at advanced
    split at advanced <;> cases advanced <;> exact .same (fun _ => rfl) fun _ => rfl
  | admitted chain =>
    have step : takeTurn host registry arrival.req.drive chain
        (turn host arrival.world arrival.fromHex chain arrival.req) = (stage', registry') :=
      Option.some.inj advanced
    cases shape : turn host arrival.world arrival.fromHex chain arrival.req with
    | unlocked | reads =>
      rw [shape] at step
      cases step
      exact .same (fun _ => rfl) fun _ => rfl
    | fetches | opens =>
      rw [shape] at step
      dsimp only [takeTurn] at step
      split at step <;> cases step <;> exact .same (fun _ => rfl) fun _ => rfl
    | records stretch =>
      obtain ⟨plan, rfl⟩ := turn_planned shape
      rw [shape] at step
      have told := @records_tells _ _ _ host arrival registry chain arrival.world.env plan
        (.admitted chain) fun _ => rfl
      rw [step] at told
      exact told
    | changes stretch =>
      obtain ⟨call, rfl⟩ := turn_mutateOnly shape
      rw [shape] at step
      cases step
      exact .same (fun _ => rfl) (cursorOf_locked registry (mutateOnly_feed _ _ call))
  | fetching =>
    cases advanced
    exact .same (fun _ => rfl) fun _ => rfl
  | announcing reply seq =>
    cases advanced
    refine .same (fun driveId => ?_) fun _ => rfl
    rw [tells_done]
    simp only [tells, sent, lost, unsent, Option.none_or]
    rfl
  | uploaded chain cid =>
    cases advanced
    exact .same (fun _ => rfl) (cursorOf_locked registry fun _ => rfl)
  | done => cases advanced

/-- The changes of a drive since `first`, and the requests that tell of them. -/
structure Announced (driveId : String) (first : Nat)
    (system : Linearize.Serving (Registry δ) (Arrival ε) Stage) (cursor : Nat) : Prop where
  now : system.shared.cursorOf driveId = some cursor
  grown : first ≤ cursor
  once : (system.flights.filterMap (tells driveId)).Perm (List.range' (first + 1) (cursor - first))

def Telling (driveId : String) (first : Nat)
    (system : Linearize.Serving (Registry δ) (Arrival ε) Stage) : Prop :=
  ∃ cursor, Announced driveId first system cursor

theorem announced_moved {driveId : String} {first cursor index : Nat}
    {system : Linearize.Serving (Registry δ) (Arrival ε) Stage}
    (announced : Announced driveId first system cursor)
    {flight : Linearize.Flight (Arrival ε) Stage} (found : system.flights[index]? = some flight)
    {stage : Stage} {registry : Registry δ}
    (step : Tells system.shared registry flight.request flight.stage stage) :
    Telling driveId first (system.moved (serving host) index flight stage registry) := by
  cases step with
  | same told still =>
    refine ⟨cursor, (still driveId).trans announced.now, announced.grown, ?_⟩
    dsimp only [Linearize.Serving.moved]
    rw [filterMap_set_same found (told driveId)]
    exact announced.once
  | recorded held silent before told now still =>
    by_cases here : flight.request.req.drive = driveId
    · subst here
      have same : held = cursor := Option.some.inj (before.symm.trans announced.now)
      subst same
      have grown := announced.grown
      refine ⟨held + 1, now, by omega, ?_⟩
      have spoken := (told flight.request.req.drive).trans (if_pos rfl)
      have longer : List.range' (first + 1) (held + 1 - first) =
          List.range' (first + 1) (held - first) ++ [held + 1] := by
        rw [show held + 1 - first = held - first + 1 by omega, List.range'_concat]
        congr 2
        omega
      dsimp only [Linearize.Serving.moved]
      rw [longer]
      exact (filterMap_set_new found (silent _) spoken).trans
        ((announced.once.cons _).trans (List.perm_append_singleton _ _).symm)
    · refine ⟨cursor, (still driveId fun same => here same.symm).trans announced.now,
        announced.grown, ?_⟩
      dsimp only [Linearize.Serving.moved]
      rw [filterMap_set_same found (((told driveId).trans (if_neg here)).trans
        (silent driveId).symm)]
      exact announced.once

/-- However requests are interleaved, each change recorded since boot is handed over to be
published once, under its own number: its beacon went out, or was lost as the request's world
had it, or is still to be handed over by the request that made the change. -/
theorem changes_announced (host : Host δ σ ε) {driveId : String} {tenant : Tenant δ}
    (found : registry.get driveId = some tenant)
    {events : List (Linearize.Event (Arrival ε))}
    {system : Linearize.Serving (Registry δ) (Arrival ε) Stage}
    (run : Runs.Free (Linearize.Serving.step (serving host)) (.boot registry) events system) :
    ∃ after, system.shared.get driveId = some after ∧
      tenant.feed.cursor ≤ after.feed.cursor ∧
      (system.flights.filterMap (sent driveId) ++ system.flights.filterMap (lost driveId) ++
        system.flights.filterMap (unsent driveId)).Perm
        (List.range' (tenant.feed.cursor + 1) (after.feed.cursor - tenant.feed.cursor)) ∧
      ∀ flight ∈ system.flights, ∀ reply announcement,
        flight.stage = .done reply (some announcement) →
        announcement = publishBeacon host flight.request.world flight.request.req.drive
          announcement.beacon.maxSeq := by
  have booted : Telling driveId tenant.feed.cursor
      (Linearize.Serving.boot registry : Linearize.Serving _ (Arrival ε) _) := by
    refine ⟨tenant.feed.cursor, ?_, Nat.le_refl _, ?_⟩
    · simp only [Linearize.Serving.boot, Registry.cursorOf, found, Option.map_some]
    · rw [Nat.sub_self]
      exact .nil
  have telling : Telling driveId tenant.feed.cursor system := by
    refine run.invariant booted fun state event next inv _ taken => ?_
    obtain ⟨cursor, announced⟩ := inv
    cases Linearize.Serving.step_cases taken with
    | arrive request =>
      refine ⟨cursor, announced.now, announced.grown, ?_⟩
      simp only [Linearize.Serving.arrive, List.filterMap_append]
      exact (List.append_nil _).symm ▸ announced.once
    | advance index flight stage shared here advanced =>
      rw [serving_advance] at advanced
      exact announced_moved announced here (proceed_tells advanced)
  obtain ⟨cursor, announced⟩ := telling
  have now := announced.now
  unfold Registry.cursorOf at now
  obtain ⟨after, stored, same⟩ := Option.map_eq_some_iff.mp now
  subst same
  refine ⟨after, stored, announced.grown,
    (tells_split driveId system.flights).trans announced.once, ?_⟩
  intro flight member reply announcement ended
  have fit := Linearize.run_fitting (serving_atomic host) run flight member
  rwa [ended] at fit

end

open Reference in
def unheard (op : DriveOp) : Arrival (Option String) :=
  { askedTeam op with
    world := { (world (some "n2")).toWorld with publish := fun _ _ => .error "offline" } }

/-- Three directories are made: one beacon is lost, one goes out, one is still to come. -/
def threeChanges : List (Linearize.Event (Arrival (Option String))) :=
  [.arrive (unheard (.mkdir "/d")), .arrive (askedTeam (.mkdir "/e")),
    .arrive (askedTeam (.mkdir "/f")), .advance 0, .advance 1, .advance 2, .advance 0,
    .advance 1, .advance 1, .advance 0, .advance 2]

open Reference in
theorem threeChanges_announced :
    ∃ system : Linearize.Serving (Registry FileDrive) (Arrival (Option String)) Stage,
      (system.flights.filterMap (lost "team") = [1] ∧
        system.flights.filterMap (sent "team") = [2] ∧
        system.flights.filterMap (unsent "team") = [3]) ∧
      ∃ after, system.shared.get "team" = some after ∧ 0 ≤ after.feed.cursor ∧
        (system.flights.filterMap (sent "team") ++ system.flights.filterMap (lost "team") ++
          system.flights.filterMap (unsent "team")).Perm (List.range' 1 after.feed.cursor) ∧
        ∀ flight ∈ system.flights, ∀ reply announcement,
          flight.stage = .done reply (some announcement) →
          announcement = publishBeacon grantedHost flight.request.world flight.request.req.drive
            announcement.beacon.maxSeq := by
  have found : teamRegistry.get "team" = some (Tenant.new teamDrive quota) := rfl
  obtain ⟨system, executed, told⟩ : ∃ system,
      Runs.exec (Linearize.Serving.step (serving grantedHost)) (.boot teamRegistry) threeChanges =
        some system ∧ system.flights.filterMap (lost "team") = [1] ∧
          system.flights.filterMap (sent "team") = [2] ∧
          system.flights.filterMap (unsent "team") = [3] := by
    refine ⟨_, rfl, ?_⟩
    decide
  exact ⟨system, told,
    changes_announced grantedHost found (Runs.exec_run executed fun _ _ _ => trivial)⟩

end DriveServe
