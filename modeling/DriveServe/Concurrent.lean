import DriveServe.Interference
import DriveServe.Linearize

set_option autoImplicit false

/-! Requests served concurrently, each letting go of the registry lock wherever its
handler does. But for `Open`, which takes it up to three times, a handler takes it once. -/

namespace DriveServe

section

variable {δ σ ε : Type}

inductive Stage where
  | received
  | admitted (chain : List SignedCapability)
  /-- A `Read` that has let go of the lock. -/
  | fetching (objectCid : String) (offset : Nat) (len : Option Nat)
  /-- A recorded change whose beacon is still to be published. -/
  | announcing (reply : DriveOk) (seq : Nat)
  | missed (chain : List SignedCapability)
  | copied (chain : List SignedCapability) (stateBytes : Bytes)
  | uploaded (chain : List SignedCapability) (cid : String)
  | done (reply : DriveReply) (beacon : Option Announcement)

/-- What `Read` does once it knows the object. -/
def readTail (host : Host δ σ ε) (world : World ε) (objectCid : String) (offset : Nat)
    (len : Option Nat) : Except DriveErr DriveOk := do
  let manifestBytes ← (world.getBlob objectCid).mapError fun _ => .notFound
  let manifest ← (host.codec.decodeManifest manifestBytes).mapError
    fun e => .internal ("manifest decode: " ++ e)
  return .readPlan (readPlan objectCid manifest offset len)

theorem opRead_eq (host : Host δ σ ε) (world : World ε) (registry : Registry δ)
    (driveId path : String) (offset : Nat) (len : Option Nat) :
    opRead host world registry driveId path offset len =
      (registry.borrowed driveId (readObject host.core path)).bind fun objectCid =>
        readTail host world objectCid offset len := rfl

def takeTurn (host : Host δ σ ε) (registry : Registry δ) (driveId : String)
    (chain : List SignedCapability) : Turn δ → Stage × Registry δ
  | .unlocked reply => (.done reply none, registry)
  | .reads read => (.done (registry.borrowed driveId read) none, registry)
  | .fetches path offset len =>
    match registry.borrowed driveId (readObject host.core path) with
    | .error e => (.done (.error e) none, registry)
    | .ok objectCid => (.fetching objectCid offset len, registry)
  | .records stretch =>
    match registry.locked driveId stretch with
    | (.error e, after) => (.done (.error e) none, after)
    | (.ok (reply, seq), after) => (.announcing reply seq, after)
  | .changes stretch =>
    let (reply, after) := registry.locked driveId stretch
    (.done reply none, after)
  | .opens =>
    match registry.borrowed driveId fun tenant =>
        .ok (openFast (grantedAbilities chain) tenant) with
    | .error e => (.done (.error e) none, registry)
    | .ok (some cached) => (.done (.ok cached) none, registry)
    | .ok none => (.missed chain, registry)

/-- The next atomic step of a request: nothing else runs within a stretch under the lock. -/
def proceed (host : Host δ σ ε) (registry : Registry δ) (arrival : Arrival ε) :
    Stage → Option (Stage × Registry δ)
  | .received =>
    some (match admission host arrival.world arrival.fromHex arrival.req with
      | .error e => (.done (.error e) none, registry)
      | .ok chain => (.admitted chain, registry))
  | .admitted chain =>
    some (takeTurn host registry arrival.req.drive chain
      (turn host arrival.world arrival.fromHex chain arrival.req))
  | .fetching objectCid offset len =>
    some (.done (readTail host arrival.world objectCid offset len) none, registry)
  | .announcing reply seq =>
    some (.done (.ok reply) (some (publishBeacon host arrival.world arrival.req.drive seq)),
      registry)
  | .missed chain =>
    some (match registry.borrowed arrival.req.drive (openState host) with
      | .error e => (.done (.error e) none, registry)
      | .ok stateBytes => (.copied chain stateBytes, registry))
  | .copied chain stateBytes =>
    some (match arrival.world.putObject stateBytes with
      | .error e => (.done (.error (.internal ("snapshot publish: " ++ e))) none, registry)
      | .ok cid => (.uploaded chain cid, registry))
  | .uploaded chain cid =>
    let (published, after) := registry.locked arrival.req.drive fun tenant =>
      (.ok (openPublish cid tenant).1, (openPublish cid tenant).2)
    some (.done (published.map fun (serverSeq, quota) =>
      .opened cid serverSeq (grantedAbilities chain) quota) none, after)
  | .done .. => none

/-- What a request other than an `Open` will answer, from its turn at the lock on. -/
def due (host : Host δ σ ε) (arrival : Arrival ε) (stage : Stage) :
    Option (DriveReply × Option Announcement) :=
  if arrival.req.op = .openDrive then none
  else
    match stage with
    | .fetching objectCid offset len =>
      some (readTail host arrival.world objectCid offset len, none)
    | .announcing reply seq =>
      some (.ok reply, some (publishBeacon host arrival.world arrival.req.drive seq))
    | .done reply beacon => some (reply, beacon)
    | _ => none

def serving (host : Host δ σ ε) :
    Linearize.Server (Registry δ) (Arrival ε) Stage (DriveReply × Option Announcement) where
  start := .received
  advance := proceed host
  answer
    | .done reply beacon => some (reply, beacon)
    | _ => none
  due := due host

@[simp]
theorem serving_advance (host : Host δ σ ε) (registry : Registry δ) (arrival : Arrival ε)
    (stage : Stage) :
    (serving host).advance registry arrival stage = proceed host registry arrival stage := rfl

variable {host : Host δ σ ε} {registry registry' : Registry δ} {arrival : Arrival ε}

/-- The chain a request goes on with is the one the gate let through, only an `Open` goes
through the stages of one, and a beacon is about the request's own drive. -/
def Fits (host : Host δ σ ε) (arrival : Arrival ε) : Stage → Prop
  | .admitted chain => admission host arrival.world arrival.fromHex arrival.req = .ok chain
  | .missed _ | .copied .. | .uploaded .. => arrival.req.op = .openDrive
  | .done _ (some announcement) => announcement =
      publishBeacon host arrival.world arrival.req.drive announcement.beacon.maxSeq
  | _ => True

def sharedView (registry : Registry δ) (driveId : String) : Option (δ × Feed × Quota) :=
  registry.lasting driveId

theorem due_of_opened (opened : arrival.req.op = .openDrive) (stage : Stage) :
    due host arrival stage = none := if_pos opened

theorem due_received (host : Host δ σ ε) (arrival : Arrival ε) :
    due host arrival .received = none := by
  unfold due
  split <;> rfl

/-- A turn at the lock settles the reply of the request taken alone, and leaves the registry
it does. -/
theorem takeTurn_served {taken : Turn δ} (untaken : taken ≠ .opens)
    (unopened : arrival.req.op ≠ .openDrive) (registry : Registry δ)
    (chain : List SignedCapability) :
    let served := taken.served host arrival.world registry chain arrival.req.drive
    let ended := takeTurn host registry arrival.req.drive chain taken
    due host arrival ended.1 = some (served.reply, served.beacon) ∧
      ended.2 = served.registry := by
  cases taken with
  | unlocked reply => exact ⟨if_neg unopened, rfl⟩
  | reads read => exact ⟨if_neg unopened, rfl⟩
  | fetches path offset len =>
    dsimp only [takeTurn, Turn.served, Served.unchanged]
    rw [opRead_eq]
    cases registry.borrowed arrival.req.drive (readObject host.core path) with
    | error e => exact ⟨if_neg unopened, rfl⟩
    | ok objectCid => exact ⟨if_neg unopened, rfl⟩
  | records stretch =>
    dsimp only [takeTurn, Turn.served, Served.announced]
    cases registry.locked arrival.req.drive stretch with
    | mk answered after => cases answered <;> exact ⟨if_neg unopened, rfl⟩
  | changes stretch => exact ⟨if_neg unopened, rfl⟩
  | opens => exact absurd rfl untaken

theorem takeTurn_opens (registry : Registry δ) (driveId : String)
    (chain : List SignedCapability) :
    (takeTurn host registry driveId chain .opens).2 = registry := by
  unfold takeTurn
  dsimp only
  split <;> rfl

theorem publish_view (registry : Registry δ) (driveId cid : String) :
    sharedView (registry.locked driveId fun tenant =>
      (.ok (openPublish cid tenant).1, (openPublish cid tenant).2) :
        Except DriveErr (Nat × Quota) × Registry δ).2 = sharedView registry := by
  funext other
  unfold sharedView Registry.lasting
  by_cases here : other = driveId
  · subst here
    cases found : registry.get other with
    | none => simp only [Registry.locked, found]
    | some tenant =>
      rw [Registry.locked_of_found found]
      simp only [Registry.get_put_self found, Option.map_some]
      rfl
  · rw [registry.locked_get_of_ne here]

theorem respond_view_congr (unopened : arrival.req.op ≠ .openDrive)
    (same : sharedView registry = sharedView registry') :
    (respond host registry arrival).1 = (respond host registry' arrival).1 ∧
      sharedView (respond host registry arrival).2 =
        sharedView (respond host registry' arrival).2 := by
  obtain ⟨answered, kept⟩ :=
    @respond_lasting_congr _ _ _ host _ _ _ arrival rfl unopened (congrFun same arrival.req.drive)
  refine ⟨answered, funext fun driveId => ?_⟩
  by_cases named : driveId = arrival.req.drive
  · subst named
    exact kept
  · simp only [sharedView, Registry.lasting, respond]
    rw [dispatch_get_of_ne _ _ registry _ _ named, dispatch_get_of_ne _ _ registry' _ _ named]
    exact congrFun same driveId

theorem proceed_fits {stage stage' : Stage} (fit : Fits host arrival stage)
    (advanced : proceed host registry arrival stage = some (stage', registry')) :
    Fits host arrival stage' := by
  cases stage with
  | received =>
    simp only [proceed, Option.some.injEq] at advanced
    split at advanced
    · cases advanced
      exact trivial
    · rename_i chain gate
      cases advanced
      exact gate
  | admitted chain =>
    have taken := turn_opens_iff host arrival.world arrival.fromHex chain arrival.req
    simp only [proceed, Option.some.injEq] at advanced
    cases shape : turn host arrival.world arrival.fromHex chain arrival.req with
    | unlocked | reads =>
      rw [shape] at advanced
      cases advanced
      exact trivial
    | fetches | records =>
      rw [shape] at advanced
      dsimp only [takeTurn] at advanced
      split at advanced <;> cases advanced <;> exact trivial
    | changes =>
      rw [shape] at advanced
      cases advanced
      exact trivial
    | opens =>
      rw [shape] at advanced
      dsimp only [takeTurn] at advanced
      split at advanced
      · cases advanced
        exact trivial
      · cases advanced
        exact trivial
      · cases advanced
        exact taken.mp shape
  | fetching | uploaded =>
    cases advanced
    exact trivial
  | announcing reply seq =>
    cases advanced
    rfl
  | missed | copied =>
    simp only [proceed, Option.some.injEq] at advanced
    split at advanced
    · cases advanced
      exact trivial
    · cases advanced
      exact fit
  | done => cases advanced

/-- A step of a request leaves what it is bound to answer, or settles it as the request taken
alone would. -/
theorem proceed_effect {stage stage' : Stage} (fit : Fits host arrival stage)
    (advanced : proceed host registry arrival stage = some (stage', registry')) :
    (due host arrival stage' = due host arrival stage ∧
        sharedView registry' = sharedView registry) ∨
      (arrival.req.op ≠ .openDrive ∧ due host arrival stage = none ∧
        due host arrival stage' = some (respond host registry arrival).1 ∧
        sharedView registry' = sharedView (respond host registry arrival).2) := by
  by_cases opened : arrival.req.op = .openDrive
  · refine Or.inl ⟨by rw [due_of_opened opened, due_of_opened opened], ?_⟩
    cases stage with
    | received | missed | copied =>
      simp only [proceed, Option.some.injEq] at advanced
      split at advanced <;> cases advanced <;> rfl
    | admitted chain =>
      have taken := (turn_opens_iff host arrival.world arrival.fromHex chain arrival.req).mpr opened
      simp only [proceed, taken, Option.some.injEq] at advanced
      have kept : (stage', registry').2 = registry := advanced ▸ takeTurn_opens ..
      exact congrArg sharedView kept
    | fetching | announcing =>
      cases advanced
      rfl
    | uploaded chain cid =>
      cases advanced
      exact publish_view ..
    | done => cases advanced
  · cases stage with
    | received =>
      simp only [proceed, Option.some.injEq] at advanced
      cases gate : admission host arrival.world arrival.fromHex arrival.req with
      | error e =>
        rw [gate] at advanced
        cases advanced
        refine Or.inr ⟨opened, if_neg opened, ?_, ?_⟩
        · simp only [respond, dispatch_refused gate]
          exact if_neg opened
        · simp only [respond, dispatch_refused gate]
          rfl
      | ok chain =>
        rw [gate] at advanced
        cases advanced
        exact Or.inl ⟨rfl, rfl⟩
    | admitted chain =>
      have untaken := mt (turn_opens_iff host arrival.world arrival.fromHex chain arrival.req).mp
        opened
      obtain ⟨settled, left⟩ := @takeTurn_served _ _ _ host arrival _ untaken opened registry chain
      rw [← dispatchInner_eq_turn, ← dispatch_admitted fit] at settled left
      have step : takeTurn host registry arrival.req.drive chain
          (turn host arrival.world arrival.fromHex chain arrival.req) = (stage', registry') :=
        Option.some.inj advanced
      rw [step] at settled left
      dsimp only [respond] at left ⊢
      exact Or.inr ⟨opened, if_neg opened, settled, congrArg sharedView left⟩
    | fetching | announcing =>
      cases advanced
      exact Or.inl ⟨rfl, rfl⟩
    | missed | copied | uploaded => exact absurd fit opened
    | done => cases advanced

/-- Every request but an `Open` takes effect at its one turn at the lock. -/
theorem serving_atomic (host : Host δ σ ε) :
    Linearize.Atomic (serving host) (respond host) sharedView
      (fun arrival => arrival.req.op ≠ .openDrive) (Fits host) where
  starts _ := trivial
  stays _ _ _ _ _ fit advanced := by
    rw [serving_advance] at advanced
    exact proceed_fits fit advanced
  pending arrival := due_received host arrival
  stepped _ _ _ _ _ fit advanced := by
    rw [serving_advance] at advanced
    exact proceed_effect fit advanced
  kept arrival stage answer unopened answered := by
    cases stage with
    | done reply beacon =>
      cases answered
      exact if_neg unopened
    | _ => cases answered
  congr _ _ _ unopened same := respond_view_congr unopened same

/-- However the requests are interleaved where their handlers let go of the lock: the drives'
contents and feeds, every reply but an `Open`'s and the beacon handed over with it are those of the
same requests dispatched one after the other, in an order that keeps what was answered before
it came in. -/
theorem dispatch_linearized (host : Host δ σ ε) (registry : Registry δ)
    {before later : List (Linearize.Event (Arrival ε))}
    {earlier last : Linearize.Serving (Registry δ) (Arrival ε) Stage}
    (start : Runs.Free (Linearize.Serving.step (serving host)) (.boot registry) before earlier)
    (rest : Runs.Free (Linearize.Serving.step (serving host)) earlier later last) :
    Linearize.Linearized (serving host) (respond host) sharedView
      (fun arrival => arrival.req.op ≠ .openDrive) registry earlier last :=
  Linearize.run_linearized (serving_atomic host) start rest

end

open Reference in
def askedTeam (op : DriveOp) : Arrival (Option String) :=
  { fromHex := sender, req := { drive := "team", cap := "grant", op },
    world := (world (some "n2")).toWorld }

/-- A `Stat` comes in first and is let through first, but the `Mkdir` gets to the lock
before it. -/
def overtaken : List (Linearize.Event (Arrival (Option String))) :=
  [.arrive (askedTeam (.stat "/d")), .advance 0, .arrive (askedTeam (.mkdir "/d")), .advance 1,
    .advance 1, .advance 0]

open Reference in
def grantedHost : Host FileDrive FileDrive (Option String) := host [("grant", [grant "/"])] []

open Reference in
theorem overtaken_linearized :
    ∃ last, Linearize.Linearized (serving grantedHost) (respond grantedHost) sharedView
        (fun arrival => arrival.req.op ≠ .openDrive) teamRegistry last last ∧
      last.order = [1, 0] := by
  obtain ⟨last, executed, order⟩ : ∃ last,
      Runs.exec (Linearize.Serving.step (serving grantedHost)) (.boot teamRegistry) overtaken =
        some last ∧ last.order = [1, 0] := ⟨_, rfl, by decide⟩
  exact ⟨last, dispatch_linearized grantedHost teamRegistry
    (Runs.exec_run executed fun _ _ _ => trivial) (.nil _), order⟩

end DriveServe
