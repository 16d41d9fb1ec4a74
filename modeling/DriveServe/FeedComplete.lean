import DriveServe.Effects
import DriveServe.ReferenceDrive
import DriveServe.Runs

set_option autoImplicit false

/-! Whether the change feed tells of every change to the drive, and the cached
snapshot that `Open` answers with on the strength of it. -/

namespace DriveServe

section

variable {δ σ ε : Type} {cidOf : Bytes → String}

structure Request (ε : Type) (cidOf : Bytes → String) where
  fromHex : String
  req : DriveReq
  world : AddressedWorld ε cidOf

def serve (host : Host δ σ ε) (registry : Registry δ) (request : Request ε cidOf) :
    Option (Registry δ) :=
  some (dispatch host request.world.toWorld registry request.fromHex request.req).registry

/-- Whatever the op changes without recording it comes to nothing in the state. -/
def Quiet (host : Host δ σ ε) (world : World ε) (op : DriveOp) (tenant : Tenant δ) : Prop :=
  ∀ call, silentCall host.core op = some call →
    host.core.toState (host.core.call world.env tenant.drive call).2 =
      host.core.toState tenant.drive

/-- An admitted `SetProp`, `Tag` or `Link` that changes what the drive serializes. -/
def Unrecorded (host : Host δ σ ε) (driveId : String) (registry : Registry δ)
    (request : Request ε cidOf) : Prop :=
  request.req.drive = driveId ∧
    (∃ chain, admission host request.world.toWorld request.fromHex request.req = .ok chain) ∧
    ∃ tenant, registry.get driveId = some tenant ∧
      ¬ Quiet host request.world.toWorld request.req.op tenant

/-- What one moment of a drive's feed says of a later one. -/
structure Told (core : SyncedDrive δ σ ε) (earlier later : Tenant δ) : Prop where
  cursor : earlier.feed.cursor ≤ later.feed.cursor
  state : earlier.feed.cursor = later.feed.cursor →
    core.toState earlier.drive = core.toState later.drive

namespace Told

theorem refl (core : SyncedDrive δ σ ε) (tenant : Tenant δ) : Told core tenant tenant :=
  ⟨Nat.le_refl _, fun _ => rfl⟩

theorem trans {core : SyncedDrive δ σ ε} {first middle last : Tenant δ}
    (before : Told core first middle) (after : Told core middle last) : Told core first last := by
  have up := before.cursor
  have further := after.cursor
  refine ⟨by omega, fun same => ?_⟩
  have left := before.state (by omega)
  have right := after.state (by omega)
  exact left.trans right

end Told

/-- A cached snapshot that a feed has not outrun is of the drive as it is. -/
def SnapshotCurrent (host : Host δ σ ε) (cidOf : Bytes → String) (tenant : Tenant δ) : Prop :=
  ∀ cid snapCursor, tenant.snapshot = some (cid, snapCursor) →
    snapCursor ≤ tenant.feed.cursor ∧
      (snapCursor = tenant.feed.cursor →
        ∃ bytes, openState host tenant = .ok bytes ∧ cid = cidOf bytes)

variable {host : Host δ σ ε} {driveId : String} {registry : Registry δ} {tenant : Tenant δ}

theorem openState_congr {tenant after : Tenant δ}
    (same : host.core.toState after.drive = host.core.toState tenant.drive) :
    openState host after = openState host tenant := by
  simp only [openState, same]

theorem told_with_drive {drive : δ}
    (same : host.core.toState drive = host.core.toState tenant.drive) :
    Told host.core tenant { tenant with drive } :=
  ⟨Nat.le_refl _, fun _ => same.symm⟩

theorem snapshotCurrent_with_drive {drive : δ}
    (same : host.core.toState drive = host.core.toState tenant.drive)
    (current : SnapshotCurrent host cidOf tenant) :
    SnapshotCurrent host cidOf { tenant with drive } := by
  intro cid snapCursor cached
  obtain ⟨within, fresh⟩ := current cid snapCursor cached
  refine ⟨within, fun tail => ?_⟩
  have copied : openState host { tenant with drive } = openState host tenant :=
    openState_congr same
  rw [copied]
  exact fresh tail

theorem quiet_of_unspoken {world : World ε} {op : DriveOp}
    (unspoken : silentCall host.core op = none) : Quiet host world op tenant :=
  fun _ verb => nomatch unspoken.symm.trans verb

/-- What an op does is told by the feed exactly when it is quiet. -/
theorem effect_told_iff (clean : host.core.FailsClean) {world : World ε} {op : DriveOp}
    {reply : DriveReply} {after : Tenant δ} (effect : Effect host world op tenant reply after) :
    Told host.core tenant after ↔ Quiet host world op tenant := by
  cases effect with
  | kept _ unspoken => exact iff_of_true (.refl _ _) (quiet_of_unspoken unspoken)
  | failed call e drive verb made =>
    have same := clean _ _ _ _ _ made
    refine iff_of_true (told_with_drive same) fun spoken named => ?_
    rw [verb spoken named, made]
    exact same
  | recorded call answer drive path nodeId kind etag _ unspoken made =>
    have moved := tenant.feed.record_cursor path nodeId kind etag
    refine iff_of_true ⟨?_, fun same => ?_⟩ (quiet_of_unspoken unspoken)
    · change _ ≤ (tenant.feed.record path nodeId kind etag).2.cursor
      omega
    · change _ = (tenant.feed.record path nodeId kind etag).2.cursor at same
      omega
  | silent call answer drive verb made =>
    constructor
    · intro told spoken named
      obtain rfl := Option.some.inj (named.symm.trans verb)
      rw [made]
      exact (told.state rfl).symm
    · intro quiet
      have same := quiet call verb
      rw [made] at same
      exact told_with_drive same
  | published bytes cid granted opened encoded put =>
    subst opened
    exact iff_of_true ⟨Nat.le_refl _, fun _ => rfl⟩ (quiet_of_unspoken rfl)

theorem effect_snapshot (clean : host.core.FailsClean) {world : AddressedWorld ε cidOf}
    {op : DriveOp} {reply : DriveReply} {after : Tenant δ}
    (effect : Effect host world.toWorld op tenant reply after)
    (quiet : Quiet host world.toWorld op tenant) (current : SnapshotCurrent host cidOf tenant) :
    SnapshotCurrent host cidOf after := by
  cases effect with
  | kept => exact current
  | failed call e drive verb made =>
    exact snapshotCurrent_with_drive (clean _ _ _ _ _ made) current
  | recorded call answer drive path nodeId kind etag _ unspoken made =>
    intro cid snapCursor cached
    have within := (current cid snapCursor cached).1
    have moved := tenant.feed.record_cursor path nodeId kind etag
    -- the feed has outrun the snapshot
    change snapCursor ≤ (tenant.feed.record path nodeId kind etag).2.cursor ∧
      (snapCursor = (tenant.feed.record path nodeId kind etag).2.cursor → _)
    exact ⟨by omega, fun tail => by omega⟩
  | silent call answer drive verb made =>
    have same := quiet call verb
    rw [made] at same
    exact snapshotCurrent_with_drive same current
  | published bytes cid granted opened encoded put =>
    intro other snapCursor cached
    obtain ⟨rfl, rfl⟩ := Prod.mk.inj (Option.some.inj cached)
    refine ⟨Nat.le_refl _, fun _ => ⟨bytes, ?_, world.addressed bytes cid put⟩⟩
    simp only [openState, encoded, Outcome.mapError_ok]

theorem served_apart {request : Request ε cidOf}
    (apart : request.req.drive = driveId →
      ∀ chain, admission host request.world.toWorld request.fromHex request.req ≠ .ok chain) :
    (dispatch host request.world.toWorld registry request.fromHex request.req).registry.get
      driveId = registry.get driveId := by
  cases gate : admission host request.world.toWorld request.fromHex request.req with
  | error e =>
    rw [dispatch_refused gate]
    rfl
  | ok chain =>
    rw [dispatch_admitted gate]
    exact dispatchInner_get_of_ne _ _ _ _ _ _ fun same => apart same.symm chain gate

/-- One request is told by the feed exactly when it is not an unrecorded change, and
then keeps the cached snapshot right. -/
theorem served_told_iff (clean : host.core.FailsClean) (found : registry.get driveId = some tenant)
    (request : Request ε cidOf) :
    ∃ after, (dispatch host request.world.toWorld registry request.fromHex request.req).registry.get
        driveId = some after ∧
      (Told host.core tenant after ↔ ¬ Unrecorded host driveId registry request) ∧
      (¬ Unrecorded host driveId registry request →
        SnapshotCurrent host cidOf tenant → SnapshotCurrent host cidOf after) := by
  by_cases touched : request.req.drive = driveId ∧
      ∃ chain, admission host request.world.toWorld request.fromHex request.req = .ok chain
  · obtain ⟨rfl, chain, gate⟩ := touched
    obtain ⟨after, stored, effect⟩ := @dispatchInner_effect _ _ _ host request.world.toWorld tenant
      registry request.fromHex chain request.req found
    have quiet_iff : Quiet host request.world.toWorld request.req.op tenant ↔
        ¬ Unrecorded host request.req.drive registry request := by
      constructor
      · rintro quiet ⟨_, _, other, held, loud⟩
        obtain rfl := Option.some.inj (found.symm.trans held)
        exact loud quiet
      · intro told
        by_contra loud
        exact told ⟨rfl, ⟨chain, gate⟩, tenant, found, loud⟩
    rw [dispatch_admitted gate]
    refine ⟨after, stored, (effect_told_iff clean effect).trans quiet_iff, fun told => ?_⟩
    exact effect_snapshot clean effect (quiet_iff.mpr told)
  · have kept : ∀ chain, request.req.drive = driveId →
        admission host request.world.toWorld request.fromHex request.req ≠ .ok chain :=
      fun chain named gate => touched ⟨named, chain, gate⟩
    refine ⟨tenant, ?_, iff_of_true (.refl _ _) ?_, fun _ current => current⟩
    · rw [served_apart fun named chain => kept chain named]
      exact found
    · rintro ⟨named, admitted, _⟩
      exact touched ⟨named, admitted⟩

/-- Along requests that record what they change, the feed tells of every change
between two moments and the cached snapshot stays right. -/
theorem run_told (clean : host.core.FailsClean) {first last : Registry δ}
    {requests : List (Request ε cidOf)}
    (run : Runs.Run (serve host)
      (fun registry request => ¬ Unrecorded host driveId registry request) first requests last)
    (found : first.get driveId = some tenant) (current : SnapshotCurrent host cidOf tenant) :
    ∃ after, last.get driveId = some after ∧ Told host.core tenant after ∧
      SnapshotCurrent host cidOf after := by
  induction run with
  | nil => exact ⟨tenant, found, .refl _ _, current⟩
  | @snoc middle last _ request _ recorded taken ih =>
    obtain ⟨before, held, told, kept⟩ := ih
    obtain ⟨after, stored, told_iff, keeps⟩ := served_told_iff clean held request
    obtain rfl := Option.some.inj taken
    exact ⟨after, stored, told.trans (told_iff.mpr recorded), keeps recorded kept⟩

/-- Two moments of a drive with the same cursor have the same state, and what `Open`
answers from its cache is what it would publish, as long as no request changes the
state without recording it. -/
theorem feed_complete (clean : host.core.FailsClean) {drive : δ} {quota : Quota}
    {first middle last : Registry δ} {requests more : List (Request ε cidOf)}
    (opened : first.get driveId = some (Tenant.new drive quota))
    (before : Runs.Run (serve host)
      (fun registry request => ¬ Unrecorded host driveId registry request) first requests middle)
    (after : Runs.Run (serve host)
      (fun registry request => ¬ Unrecorded host driveId registry request) middle more last) :
    ∃ earlier later, middle.get driveId = some earlier ∧ last.get driveId = some later ∧
      (earlier.feed.cursor = later.feed.cursor →
        host.core.toState earlier.drive = host.core.toState later.drive) ∧
      ∀ granted reply, openFast granted later = some reply →
        ∃ bytes, openState host later = .ok bytes ∧
          reply = .opened (cidOf bytes) later.feed.cursor granted later.quota := by
  have unpublished : SnapshotCurrent host cidOf (Tenant.new drive quota) :=
    fun _ _ cached => nomatch cached
  obtain ⟨earlier, present, _, current⟩ := run_told clean before opened unpublished
  obtain ⟨later, stored, told, fresh⟩ := run_told clean after present current
  refine ⟨earlier, later, present, stored, told.state, ?_⟩
  intro granted reply answered
  obtain ⟨cid, cached, shape⟩ := openFast_some answered
  obtain ⟨bytes, copied, named⟩ := (fresh cid _ cached).2 rfl
  exact ⟨bytes, copied, named ▸ shape⟩

end

namespace Reference

def teamHost : Host FileDrive FileDrive (Option String) := host [("grant", [grant "/"])] []

def teamRequest (op : DriveOp) : Request (Option String) cidOf where
  fromHex := sender
  req := { drive := "team", cap := "grant", op }
  world := world (some "n2")

def served (registry : Registry FileDrive) (op : DriveOp) : Registry FileDrive :=
  (dispatch teamHost (world (some "n2")).toWorld registry sender
    { drive := "team", cap := "grant", op }).registry

theorem served_run {registry : Registry FileDrive} {op : DriveOp}
    {ok : Registry FileDrive → Request (Option String) cidOf → Prop}
    (allowed : ok registry (teamRequest op)) :
    Runs.Run (serve teamHost) ok registry [teamRequest op] (served registry op) :=
  .single allowed rfl

end Reference

open Reference in
theorem teamRegistry_told :
    ∃ earlier later, (served teamRegistry (.mkdir "/d")).get "team" = some earlier ∧
      (served (served teamRegistry (.mkdir "/d")) .openDrive).get "team" = some later ∧
      (earlier.feed.cursor = later.feed.cursor →
        teamHost.core.toState earlier.drive = teamHost.core.toState later.drive) ∧
      ∀ granted reply, openFast granted later = some reply →
        ∃ bytes, openState teamHost later = .ok bytes ∧
          reply = .opened (cidOf bytes) later.feed.cursor granted later.quota :=
  feed_complete core_failsClean rfl
    (@served_run _ (.mkdir "/d") _ fun ⟨_, _, _, _, loud⟩ => loud (quiet_of_unspoken rfl))
    (@served_run _ .openDrive _ fun ⟨_, _, _, _, loud⟩ => loud (quiet_of_unspoken rfl))

open Reference in
/-- A property set on a file is told by no change, and the snapshot published before
it is answered as current. -/
theorem property_untold :
    let opened := served teamRegistry .openDrive
    let tagged := served opened (.setProp "/a" "kind" (some "note"))
    teamHost.core.FailsClean ∧ teamRegistry.get "team" = some (Tenant.new teamDrive quota) ∧
      Runs.Free (serve teamHost) teamRegistry [teamRequest .openDrive] opened ∧
      Runs.Free (serve teamHost) opened [teamRequest (.setProp "/a" "kind" (some "note"))] tagged ∧
      ∃ earlier later, opened.get "team" = some earlier ∧ tagged.get "team" = some later ∧
        earlier.feed.cursor = later.feed.cursor ∧
        teamHost.core.toState earlier.drive ≠ teamHost.core.toState later.drive ∧
        ∃ cid bytes, openFast [] later = some (.opened cid 0 [] quota) ∧
          openState teamHost later = .ok bytes ∧ cid ≠ cidOf bytes :=
  ⟨core_failsClean, rfl, served_run trivial, served_run trivial, _, _, rfl, rfl, by decide,
    by decide, _, _, rfl, rfl, by decide⟩

end DriveServe
