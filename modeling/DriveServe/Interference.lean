import DriveServe.Footprint
import DriveServe.Isolation
import DriveServe.Unwinding

set_option autoImplicit false

/-! What the requests of others mean to a drive over a whole run: nothing. The runs are of
requests to this host; what other writers of a replicated drive bring in is not in them. -/

namespace DriveServe

section

variable {δ σ ε : Type}

def respond (host : Host δ σ ε) (registry : Registry δ) (arrival : Arrival ε) :
    (DriveReply × Option Announcement) × Registry δ :=
  let served := dispatch host arrival.world registry arrival.fromHex arrival.req
  ((served.reply, served.beacon), served.registry)

def afterAll (host : Host δ σ ε) (registry : Registry δ) (arrivals : List (Arrival ε)) :
    Registry δ :=
  Unwinding.final (respond host) registry arrivals

/-- A request for the drive that the gate lets through. -/
def LetIn (host : Host δ σ ε) (driveId : String) (arrival : Arrival ε) : Prop :=
  arrival.req.drive = driveId ∧
    ∃ chain, admission host arrival.world arrival.fromHex arrival.req = .ok chain

/-- One that was let through to write. -/
def Writes (host : Host δ σ ε) (driveId : String) (arrival : Arrival ε) : Prop :=
  LetIn host driveId arrival ∧ requiredAbility arrival.req.op = Ability.write

/-- One that may leave the tenant changed: an `Open` keeps its snapshot. -/
def Touches (host : Host δ σ ε) (driveId : String) (arrival : Arrival ε) : Prop :=
  LetIn host driveId arrival ∧
    (arrival.req.op = .openDrive ∨ requiredAbility arrival.req.op = Ability.write)

instance (host : Host δ σ ε) (driveId : String) : DecidablePred (LetIn host driveId) :=
  fun arrival =>
    match gate : admission host arrival.world arrival.fromHex arrival.req with
    | .ok chain =>
      decidable_of_iff (arrival.req.drive = driveId)
        ⟨fun named => ⟨named, chain, gate⟩, fun admitted => admitted.1⟩
    | .error _ => isFalse fun admitted => by
      obtain ⟨_, chain, passed⟩ := admitted
      rw [gate] at passed
      cases passed

instance (host : Host δ σ ε) (driveId : String) : DecidablePred (Writes host driveId) :=
  fun _ => inferInstanceAs (Decidable (_ ∧ _))

instance (host : Host δ σ ε) (driveId : String) : DecidablePred (Touches host driveId) :=
  fun _ => inferInstanceAs (Decidable (_ ∧ _))

variable {host : Host δ σ ε} {registry registry' : Registry δ} {driveId : String}
  {arrival : Arrival ε}

theorem respond_get_of_not_letIn (registry : Registry δ) (out : ¬ LetIn host driveId arrival) :
    (respond host registry arrival).2.get driveId = registry.get driveId := by
  by_cases named : arrival.req.drive = driveId
  · cases gate : admission host arrival.world arrival.fromHex arrival.req with
    | error e =>
      simp only [respond, dispatch_refused gate]
      rfl
    | ok chain => exact absurd ⟨named, chain, gate⟩ out
  · dsimp only [respond]
    exact dispatch_get_of_ne host arrival.world registry arrival.fromHex arrival.req
      (Ne.symm named)

theorem respond_get_of_not_touches (registry : Registry δ) (out : ¬ Touches host driveId arrival) :
    (respond host registry arrival).2.get driveId = registry.get driveId := by
  by_cases admitted : LetIn host driveId arrival
  · obtain ⟨named, chain, gate⟩ := id admitted
    have idle : ¬ (arrival.req.op = .openDrive ∨ requiredAbility arrival.req.op = Ability.write) :=
      fun touching => out ⟨admitted, touching⟩
    rw [not_or] at idle
    simp only [respond, dispatch_admitted gate]
    rw [dispatchInner_idle _ _ _ _ _ idle.2 idle.1]
  · exact respond_get_of_not_letIn registry admitted

theorem respond_lasting_of_not_writes (registry : Registry δ)
    (out : ¬ Writes host driveId arrival) :
    (respond host registry arrival).2.lasting driveId = registry.lasting driveId := by
  by_cases touching : Touches host driveId arrival
  · obtain ⟨admitted, opened | writing⟩ := touching
    · obtain ⟨named, chain, gate⟩ := admitted
      subst named
      simp only [respond, dispatch_admitted gate, dispatchInner, opened, Served.silent]
      exact opOpen_lasting ..
    · exact absurd ⟨admitted, writing⟩ out
  · exact congrArg (Option.map Tenant.lasting) (respond_get_of_not_touches registry touching)

/-- The tenant decides what a request for it is answered and what becomes of it. -/
theorem respond_congr (named : arrival.req.drive = driveId)
    (same : registry.get driveId = registry'.get driveId) :
    (respond host registry arrival).1 = (respond host registry' arrival).1 ∧
      (respond host registry arrival).2.get driveId =
        (respond host registry' arrival).2.get driveId := by
  subst named
  cases gate : admission host arrival.world arrival.fromHex arrival.req with
  | error e =>
    simp only [respond, dispatch_refused gate]
    exact ⟨rfl, same⟩
  | ok chain =>
    simp only [respond, dispatch_admitted gate]
    obtain ⟨told, kept⟩ :=
      dispatchInner_get_congr host arrival.world arrival.fromHex chain same
    rw [dispatchInner_congr host arrival.world arrival.fromHex chain same, told]
    exact ⟨rfl, kept⟩

/-- So does what lasts of it, an `Open` apart. -/
theorem respond_lasting_congr (named : arrival.req.drive = driveId)
    (unopened : arrival.req.op ≠ .openDrive)
    (same : registry.lasting driveId = registry'.lasting driveId) :
    (respond host registry arrival).1 = (respond host registry' arrival).1 ∧
      (respond host registry arrival).2.lasting driveId =
        (respond host registry' arrival).2.lasting driveId := by
  subst named
  cases gate : admission host arrival.world arrival.fromHex arrival.req with
  | error e =>
    simp only [respond, dispatch_refused gate]
    exact ⟨rfl, same⟩
  | ok chain =>
    simp only [respond, dispatch_admitted gate]
    obtain ⟨answered, told, kept⟩ :=
      dispatchInner_blind host arrival.world arrival.fromHex chain unopened same
    exact ⟨by rw [answered, told], kept⟩

theorem respond_unwinds (host : Host δ σ ε) (driveId : String) :
    Unwinding.Unwinds (respond host) (fun registry => registry.get driveId)
      (Touches host driveId) (fun arrival => arrival.req.drive = driveId) where
  still registry _ out := respond_get_of_not_touches registry out
  moved _ _ _ touching same := (respond_congr touching.1.1 same).2
  answered _ _ _ named same := (respond_congr named same).1

theorem respond_unwinds_lasting (host : Host δ σ ε) (driveId : String) :
    Unwinding.Unwinds (respond host) (fun registry => registry.lasting driveId)
      (Writes host driveId)
      (fun arrival => arrival.req.drive = driveId ∧ arrival.req.op ≠ .openDrive) where
  still registry _ out := respond_lasting_of_not_writes registry out
  moved registry registry' arrival writing same := by
    have unopened : arrival.req.op ≠ .openDrive := by
      intro opened
      have apart : Ability.read ≠ Ability.write := by decide
      exact apart (by simpa [opened, requiredAbility] using writing.2)
    exact (respond_lasting_congr writing.1.1 unopened same).2
  answered _ _ _ watching same := (respond_lasting_congr watching.1 watching.2 same).1

/-- A drive in a run of requests for any drives: what it comes to and what is answered and
announced about it is what it would be had only a few of them been made. -/
structure Undisturbed (host : Host δ σ ε) (registry : Registry δ) (driveId : String)
    (arrivals : List (Arrival ε)) : Prop where
  tenant : (afterAll host registry arrivals).get driveId =
    (afterAll host registry (arrivals.filter (Touches host driveId))).get driveId
  answers : ∀ arrival : Arrival ε, arrival.req.drive = driveId →
    (respond host (afterAll host registry arrivals) arrival).1 =
      (respond host (afterAll host registry (arrivals.filter (Touches host driveId))) arrival).1
  lasting : (afterAll host registry arrivals).lasting driveId =
    (afterAll host registry (arrivals.filter (Writes host driveId))).lasting driveId
  unopened : ∀ arrival : Arrival ε, arrival.req.drive = driveId → arrival.req.op ≠ .openDrive →
    (respond host (afterAll host registry arrivals) arrival).1 =
      (respond host (afterAll host registry (arrivals.filter (Writes host driveId))) arrival).1

/-- Only the requests let through to write or to open a drive have a part in its tenant and in
what is answered about it; and only those let through to write have one in its contents, its
feed, and any answer but an `Open`'s. -/
theorem requests_undisturbed (host : Host δ σ ε) (registry : Registry δ) (driveId : String)
    (arrivals : List (Arrival ε)) : Undisturbed host registry driveId arrivals where
  tenant := ((respond_unwinds host driveId).final_filter registry arrivals).symm
  answers _ named := ((respond_unwinds host driveId).answer_filter registry arrivals named).symm
  lasting := ((respond_unwinds_lasting host driveId).final_filter registry arrivals).symm
  unopened _ named unopened :=
    ((respond_unwinds_lasting host driveId).answer_filter registry arrivals
      ⟨named, unopened⟩).symm

end

end DriveServe
