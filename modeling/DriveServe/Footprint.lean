import DriveServe.Calls

set_option autoImplicit false

/-! What a request reads of the registry: the one drive it names, and of that drive
the cached snapshot only where it opens it. -/

namespace DriveServe

variable {δ σ ε α : Type}

/-- A tenant but for the snapshot kept for the next `Open`. -/
def Tenant.lasting (tenant : Tenant δ) : δ × Feed × Quota :=
  (tenant.drive, tenant.feed, tenant.quota)

def Registry.lasting (registry : Registry δ) (driveId : String) : Option (δ × Feed × Quota) :=
  (registry.get driveId).map Tenant.lasting

/-- A stretch that has no use for the snapshot. -/
structure Blind (stretch : Tenant δ → α × Tenant δ) : Prop where
  answer : ∀ tenant tenant', tenant.lasting = tenant'.lasting →
    (stretch tenant).1 = (stretch tenant').1
  lasting : ∀ tenant tenant', tenant.lasting = tenant'.lasting →
    (stretch tenant).2.lasting = (stretch tenant').2.lasting

theorem Blind.of_snapshot {stretch : Tenant δ → α × Tenant δ}
    (blind : ∀ tenant snapshot, (stretch { tenant with snapshot }).1 = (stretch tenant).1 ∧
      (stretch { tenant with snapshot }).2.lasting = (stretch tenant).2.lasting) :
    Blind stretch := by
  have recast : ∀ tenant tenant' : Tenant δ, tenant.lasting = tenant'.lasting →
      tenant = { tenant' with snapshot := tenant.snapshot } := by
    intro tenant tenant' same
    obtain ⟨drive, feed, quota, snapshot⟩ := tenant
    obtain ⟨drive', feed', quota', snapshot'⟩ := tenant'
    simp only [Tenant.lasting, Prod.mk.injEq] at same
    obtain ⟨rfl, rfl, rfl⟩ := same
    rfl
  constructor
  · intro tenant tenant' same
    rw [recast tenant tenant' same]
    exact (blind tenant' _).1
  · intro tenant tenant' same
    rw [recast tenant tenant' same]
    exact (blind tenant' _).2

theorem Blind.snapshot {stretch : Tenant δ → α × Tenant δ} (blind : Blind stretch)
    (tenant : Tenant δ) (snapshot : Option (String × Nat)) :
    (stretch { tenant with snapshot }).1 = (stretch tenant).1 ∧
      (stretch { tenant with snapshot }).2.lasting = (stretch tenant).2.lasting :=
  ⟨blind.answer _ _ rfl, blind.lasting _ _ rfl⟩

theorem mutateRecord_blind (core : SyncedDrive δ σ ε) (env : ε) (call : DriveCall)
    (path : String) (kind : ChangeKind) (nodeOf : String → String) (etagOf : δ → String → String)
    (reply : (etag nodeId : String) → Nat → DriveOk) :
    Blind (mutateRecord core env call path kind nodeOf etagOf reply) := by
  apply Blind.of_snapshot
  intro tenant snapshot
  unfold mutateRecord
  cases core.call env tenant.drive call with
  | mk answered drive => cases answered <;> exact ⟨rfl, rfl⟩

theorem mutateOnly_blind (core : SyncedDrive δ σ ε) (env : ε) (call : DriveCall) :
    Blind (mutateOnly core env call) := by
  apply Blind.of_snapshot
  intro tenant snapshot
  unfold mutateOnly
  cases core.call env tenant.drive call with
  | mk answered drive => cases answered <;> exact ⟨rfl, rfl⟩

/-- What an op takes the registry lock for. -/
inductive Turn (δ : Type) where
  | unlocked (reply : Except DriveErr DriveOk)
  | reads (read : Tenant δ → Except DriveErr DriveOk)
  | fetches (path : String) (offset : Nat) (len : Option Nat)
  | records (stretch : Tenant δ → Except DriveErr (DriveOk × Nat) × Tenant δ)
  | changes (stretch : Tenant δ → Except DriveErr DriveOk × Tenant δ)
  | opens

def turn (host : Host δ σ ε) (world : World ε) (fromHex : String)
    (chain : List SignedCapability) (req : DriveReq) : Turn δ :=
  let core := host.core
  let splitting (path : String)
      (stretch : String × String → Tenant δ → Except DriveErr (DriveOk × Nat) × Tenant δ) :
      Turn δ :=
    match splitPath path with
    | none => .unlocked (.error .badPath)
    | some parts => .records (stretch parts)
  match req.op with
  | .openDrive => .opens
  | .stat path => .reads (opStat core path)
  | .list path cursor limit => .reads (opList core path cursor limit)
  | .read path offset len => .fetches path offset len
  | .write path objectCid size baseEtag =>
    splitting path fun (parent, name) =>
      opWrite core world path parent name objectCid size baseEtag
  | .mkdir path => splitting path fun (parent, name) => opMkdir core world path parent name
  | .move src dst =>
    splitting dst fun (toParent, toName) => opMove core world src dst toParent toName
  | .copy src dst =>
    splitting dst fun (toParent, toName) => opCopy core world src dst toParent toName
  | .delete path _ => .records (opDelete core world path)
  | .share path audience abilities caveats =>
    .unlocked (opShare host.server req.drive fromHex chain path audience abilities caveats)
  | .poll cursor limit => .reads (opPoll cursor limit)
  | .watch => .reads (opWatch req.drive)
  | .metaOf path => .reads (opMeta core path)
  | .setProp path key value => .changes (opSetProp core world path key value)
  | .tag path tag remove => .changes (opTag core world path tag remove)
  | .link path rel target remove => .changes (opLink core world path rel target remove)
  | .backlinks target => .reads (opBacklinks core target)
  | .versions path => .reads (opVersions core path)

def Turn.served (host : Host δ σ ε) (world : World ε) (registry : Registry δ)
    (chain : List SignedCapability) (driveId : String) : Turn δ → Served δ
  | .unlocked reply => .unchanged registry reply
  | .reads read => .unchanged registry (registry.borrowed driveId read)
  | .fetches path offset len =>
    .unchanged registry (opRead host world registry driveId path offset len)
  | .records stretch =>
    .announced (publishBeacon host world driveId) (registry.locked driveId stretch)
  | .changes stretch => .silent (registry.locked driveId stretch)
  | .opens => .silent (opOpen host world registry driveId chain)

theorem dispatchInner_eq_turn (host : Host δ σ ε) (world : World ε) (registry : Registry δ)
    (fromHex : String) (chain : List SignedCapability) (req : DriveReq) :
    dispatchInner host world registry fromHex chain req =
      (turn host world fromHex chain req).served host world registry chain req.drive := by
  obtain ⟨drive, cap, op⟩ := req
  cases op with
  | write path | mkdir path | move src path | copy src path =>
    dsimp only [dispatchInner, turn]
    cases splitPath path <;> rfl
  | _ => rfl

theorem turn_opens_iff (host : Host δ σ ε) (world : World ε) (fromHex : String)
    (chain : List SignedCapability) (req : DriveReq) :
    turn host world fromHex chain req = .opens ↔ req.op = .openDrive := by
  obtain ⟨drive, cap, op⟩ := req
  cases op with
  | write path | mkdir path | move src path | copy src path =>
    dsimp only [turn]
    cases splitPath path <;> simp
  | _ => simp [turn]

variable {host : Host δ σ ε} {world : World ε} {op : DriveOp} {registry registry' : Registry δ}
  {driveId : String}

/-- No handler but that of `Open` looks at the snapshot. -/
def Turn.Blind : Turn δ → Prop
  | .unlocked _ | .fetches .. | .opens => True
  | .reads read => ∀ tenant snapshot, read { tenant with snapshot } = read tenant
  | .records stretch => DriveServe.Blind stretch
  | .changes stretch => DriveServe.Blind stretch

/-- What a handler that records goes on to do once it has looked at the drive. -/
structure Recording (δ : Type) where
  call : DriveCall
  path : String
  kind : ChangeKind
  nodeOf : String → String
  etagOf : δ → String → String
  reply : (etag nodeId : String) → Nat → DriveOk

/-- A stretch that looks at the drive first, and gives up or makes the call it plans. -/
def planned (core : SyncedDrive δ σ ε) (env : ε) (plan : δ → Except DriveErr (Recording δ))
    (tenant : Tenant δ) : Except DriveErr (DriveOk × Nat) × Tenant δ :=
  match plan tenant.drive with
  | .error e => (.error e, tenant)
  | .ok r => mutateRecord core env r.call r.path r.kind r.nodeOf r.etagOf r.reply tenant

def writePlan (core : SyncedDrive δ σ ε) (world : World ε) (path parent name objectCid : String)
    (size : Nat) (baseEtag : Option String) (drive : δ) : Except DriveErr (Recording δ) :=
  match writeConflict core drive path baseEtag with
  | some currentEtag => .error (.conflict currentEtag)
  | none =>
    let fc := core.newContent (core.objectLocator objectCid) size 0o644 world.nowMs
    .ok { call := .addFile parent name fc, path := normPath path, kind := .modified, nodeOf := id
          etagOf := etagFor core, reply := fun etag nodeId seq => .written etag nodeId seq }

theorem opWrite_planned (core : SyncedDrive δ σ ε) (world : World ε)
    (path parent name objectCid : String) (size : Nat) (baseEtag : Option String) :
    opWrite core world path parent name objectCid size baseEtag =
      planned core world.env (writePlan core world path parent name objectCid size baseEtag) := by
  funext tenant
  unfold opWrite planned writePlan
  cases writeConflict core tenant.drive path baseEtag <;> simp only

def mkdirPlan (core : SyncedDrive δ σ ε) (path parent name : String) (_drive : δ) :
    Except DriveErr (Recording δ) :=
  .ok { call := .mkdir parent name, path := normPath path, kind := .created, nodeOf := id
        etagOf := etagFor core, reply := fun _ nodeId _ => .made nodeId }

theorem opMkdir_planned (core : SyncedDrive δ σ ε) (world : World ε) (path parent name : String) :
    opMkdir core world path parent name =
      planned core world.env (mkdirPlan core path parent name) := by
  funext tenant
  simp only [opMkdir, planned, mkdirPlan]

def movePlan (core : SyncedDrive δ σ ε) (src dst toParent toName : String) (drive : δ) :
    Except DriveErr (Recording δ) :=
  match core.resolve drive (normPath src) with
  | none => .error .notFound
  | some node =>
    .ok { call := .mv (normPath src) toParent toName, path := normPath dst
          kind := .moved (normPath src), nodeOf := fun _ => node, etagOf := etagFor core
          reply := fun _ nodeId _ => .made nodeId }

theorem opMove_planned (core : SyncedDrive δ σ ε) (world : World ε)
    (src dst toParent toName : String) :
    opMove core world src dst toParent toName =
      planned core world.env (movePlan core src dst toParent toName) := by
  funext tenant
  unfold opMove planned movePlan
  cases core.resolve tenant.drive (normPath src) <;> simp only

def copyPlan (core : SyncedDrive δ σ ε) (world : World ε) (src dst toParent toName : String)
    (drive : δ) : Except DriveErr (Recording δ) :=
  match core.resolve drive (normPath src) with
  | none => .error .notFound
  | some node =>
    match core.contentOf drive node with
    | none => .error .notFound
    | some content =>
      let fc := core.newContent content.locator content.size content.mode world.nowMs
      .ok { call := .addFile toParent toName fc, path := normPath dst, kind := .created
            nodeOf := id, etagOf := etagFor core, reply := fun _ nodeId _ => .made nodeId }

theorem opCopy_planned (core : SyncedDrive δ σ ε) (world : World ε)
    (src dst toParent toName : String) :
    opCopy core world src dst toParent toName =
      planned core world.env (copyPlan core world src dst toParent toName) := by
  funext tenant
  unfold opCopy planned copyPlan
  cases core.resolve tenant.drive (normPath src) with
  | none => simp only
  | some node =>
    dsimp only
    cases core.contentOf tenant.drive node <;> simp only

def deletePlan (core : SyncedDrive δ σ ε) (path : String) (drive : δ) :
    Except DriveErr (Recording δ) :=
  match core.resolve drive (normPath path) with
  | none => .error .notFound
  | some node =>
    .ok { call := .rm (normPath path), path := normPath path, kind := .deleted
          nodeOf := fun _ => node, etagOf := fun _ _ => "", reply := fun _ _ _ => .deleted }

theorem opDelete_planned (core : SyncedDrive δ σ ε) (world : World ε) (path : String) :
    opDelete core world path = planned core world.env (deletePlan core path) := by
  funext tenant
  unfold opDelete planned deletePlan
  cases core.resolve tenant.drive (normPath path) <;> simp only

/-- All five handlers that record are of this shape. -/
theorem turn_planned {fromHex : String} {chain : List SignedCapability} {req : DriveReq}
    {stretch : Tenant δ → Except DriveErr (DriveOk × Nat) × Tenant δ}
    (records : turn host world fromHex chain req = .records stretch) :
    ∃ plan, stretch = planned host.core world.env plan := by
  obtain ⟨drive, cap, op⟩ := req
  cases op with
  | write path | mkdir path | move src path | copy src path =>
    dsimp only [turn] at records
    cases split : splitPath path with
    | none =>
      rw [split] at records
      cases records
    | some parts =>
      rw [split] at records
      cases records
      first
        | exact ⟨_, opWrite_planned ..⟩
        | exact ⟨_, opMkdir_planned ..⟩
        | exact ⟨_, opMove_planned ..⟩
        | exact ⟨_, opCopy_planned ..⟩
  | delete path recursive =>
    cases records
    exact ⟨_, opDelete_planned ..⟩
  | _ => cases records

theorem turn_mutateOnly {fromHex : String} {chain : List SignedCapability} {req : DriveReq}
    {stretch : Tenant δ → Except DriveErr DriveOk × Tenant δ}
    (changes : turn host world fromHex chain req = .changes stretch) :
    ∃ call, stretch = mutateOnly host.core world.env call := by
  obtain ⟨drive, cap, op⟩ := req
  cases op with
  | write path | mkdir path | move src path | copy src path =>
    dsimp only [turn] at changes
    cases split : splitPath path <;> rw [split] at changes <;> cases changes
  | setProp | tag | link =>
    cases changes
    exact ⟨_, rfl⟩
  | _ => cases changes

theorem planned_blind (core : SyncedDrive δ σ ε) (env : ε)
    (plan : δ → Except DriveErr (Recording δ)) : Blind (planned core env plan) := by
  apply Blind.of_snapshot
  intro tenant snapshot
  unfold planned
  dsimp only
  cases plan tenant.drive with
  | error e => exact ⟨rfl, rfl⟩
  | ok recording => exact (mutateRecord_blind ..).snapshot tenant snapshot

theorem turn_blind (host : Host δ σ ε) (world : World ε) (fromHex : String)
    (chain : List SignedCapability) (req : DriveReq) :
    (turn host world fromHex chain req).Blind := by
  cases shape : turn host world fromHex chain req with
  | unlocked | fetches | opens => exact trivial
  | records stretch =>
    obtain ⟨plan, rfl⟩ := turn_planned shape
    exact planned_blind ..
  | changes stretch =>
    obtain ⟨call, rfl⟩ := turn_mutateOnly shape
    exact mutateOnly_blind ..
  | reads read =>
    intro tenant snapshot
    obtain ⟨drive, cap, op⟩ := req
    cases op with
    | stat | list | poll | watch | metaOf | backlinks | versions =>
      simp only [turn, Turn.reads.injEq] at shape
      subst shape
      simp only [opStat, opList, opPoll, opWatch, opMeta, opBacklinks, opVersions]
    | write path | mkdir path | move src path | copy src path =>
      dsimp only [turn] at shape
      cases split : splitPath path <;> rw [split] at shape <;> cases shape
    | _ => cases shape

theorem locked_blind {stretch : Tenant δ → Except DriveErr α × Tenant δ} (blind : Blind stretch)
    (same : registry.lasting driveId = registry'.lasting driveId) :
    (registry.locked driveId stretch).1 = (registry'.locked driveId stretch).1 ∧
      (registry.locked driveId stretch).2.lasting driveId =
        (registry'.locked driveId stretch).2.lasting driveId := by
  unfold Registry.lasting at same
  cases found : registry.get driveId with
  | none =>
    cases found' : registry'.get driveId with
    | none =>
      simp only [Registry.locked, Registry.lasting, found, found', Option.map_none, true_and]
    | some tenant' => simp [found, found'] at same
  | some tenant =>
    cases found' : registry'.get driveId with
    | none => simp [found, found'] at same
    | some tenant' =>
      rw [found, found', Option.map_some, Option.map_some, Option.some_inj] at same
      rw [Registry.locked_of_found found, Registry.locked_of_found found']
      refine ⟨blind.answer _ _ same, ?_⟩
      simp only [Registry.lasting, Registry.get_put_self found, Registry.get_put_self found',
        Option.map_some]
      rw [blind.lasting _ _ same]

theorem borrowed_eq_locked (registry : Registry δ) (driveId : String)
    (read : Tenant δ → Except DriveErr α) :
    registry.borrowed driveId read =
      (registry.locked driveId fun tenant => (read tenant, tenant)).1 := by
  unfold Registry.borrowed Registry.locked
  cases registry.get driveId <;> rfl

theorem borrowed_blind {read : Tenant δ → Except DriveErr α}
    (blind : ∀ tenant snapshot, read { tenant with snapshot } = read tenant)
    (same : registry.lasting driveId = registry'.lasting driveId) :
    registry.borrowed driveId read = registry'.borrowed driveId read := by
  have looks : Blind fun tenant => (read tenant, tenant) :=
    .of_snapshot fun tenant snapshot => ⟨blind tenant snapshot, rfl⟩
  rw [borrowed_eq_locked, borrowed_eq_locked]
  exact (locked_blind looks same).1

/-- A turn is answered by what lasts of the drive, and changes it by what lasts. -/
theorem Turn.served_blind {taken : Turn δ} (blind : taken.Blind) (unopened : taken ≠ .opens)
    (host : Host δ σ ε) (world : World ε) (chain : List SignedCapability)
    (same : registry.lasting driveId = registry'.lasting driveId) :
    let served := taken.served host world registry chain driveId
    let served' := taken.served host world registry' chain driveId
    served.reply = served'.reply ∧ served.beacon = served'.beacon ∧
      served.registry.lasting driveId = served'.registry.lasting driveId := by
  cases taken with
  | unlocked reply => exact ⟨rfl, rfl, same⟩
  | reads read => exact ⟨borrowed_blind blind same, rfl, same⟩
  | fetches path offset len =>
    have object := @borrowed_blind _ _ _ registry' driveId (readObject host.core path)
      (fun _ _ => rfl) same
    exact ⟨by simp only [Turn.served, Served.unchanged, opRead, object], rfl, same⟩
  | records stretch =>
    obtain ⟨answered, kept⟩ := locked_blind blind same
    simp only [Turn.served, Served.announced, answered, kept, and_self]
  | changes stretch =>
    obtain ⟨answered, kept⟩ := locked_blind blind same
    exact ⟨answered, rfl, kept⟩
  | opens => exact absurd rfl unopened

/-- An `Open` moves nothing that lasts. -/
theorem opOpen_lasting (host : Host δ σ ε) (world : World ε) (registry : Registry δ)
    (driveId : String) (chain : List SignedCapability) :
    (opOpen host world registry driveId chain).2.lasting driveId = registry.lasting driveId := by
  cases found : registry.get driveId with
  | none => simp only [opOpen, Registry.borrowed, found]
  | some tenant =>
    have ends : OpenEnds host world registry driveId (grantedAbilities chain) tenant
      (opOpen host world registry driveId chain) := opOpen_ends host world found chain
    generalize opOpen host world registry driveId chain = outcome at ends ⊢
    cases ends with
    | cached | unread | unpublished => rfl
    | published bytes cid missed copied put =>
      simp only [Registry.lasting, Registry.get_put_self found, found, Option.map_some]
      rfl

/-- What needs no write ability leaves the registry, an `Open` apart. -/
theorem dispatchInner_idle (host : Host δ σ ε) (world : World ε) (registry : Registry δ)
    (fromHex : String) (chain : List SignedCapability) {req : DriveReq}
    (reading : requiredAbility req.op ≠ Ability.write) (unopened : req.op ≠ .openDrive) :
    (dispatchInner host world registry fromHex chain req).registry = registry := by
  obtain ⟨drive, cap, op⟩ := req
  cases op with
  | openDrive => exact absurd rfl unopened
  | stat | list | read | share | poll | watch | metaOf | backlinks | versions => rfl
  | write | mkdir | move | copy | delete | setProp | tag | link => exact absurd rfl reading

theorem dispatchInner_blind (host : Host δ σ ε) (world : World ε) (fromHex : String)
    (chain : List SignedCapability) {req : DriveReq} (unopened : req.op ≠ .openDrive)
    (same : registry.lasting req.drive = registry'.lasting req.drive) :
    let served := dispatchInner host world registry fromHex chain req
    let served' := dispatchInner host world registry' fromHex chain req
    served.reply = served'.reply ∧ served.beacon = served'.beacon ∧
      served.registry.lasting req.drive = served'.registry.lasting req.drive := by
  rw [dispatchInner_eq_turn, dispatchInner_eq_turn]
  exact Turn.served_blind (turn_blind ..) (mt (turn_opens_iff ..).mp unopened) host world chain same

theorem locked_get_congr (same : registry.get driveId = registry'.get driveId)
    (stretch : Tenant δ → Except DriveErr α × Tenant δ) :
    (registry.locked driveId stretch).2.get driveId =
      (registry'.locked driveId stretch).2.get driveId := by
  cases found : registry.get driveId with
  | none =>
    have missing : registry'.get driveId = none := same ▸ found
    simp only [Registry.locked, found, missing]
  | some tenant =>
    have stored : registry'.get driveId = some tenant := same ▸ found
    rw [Registry.locked_of_found found, Registry.locked_of_found stored,
      Registry.get_put_self found, Registry.get_put_self stored]

theorem opOpen_get_congr (host : Host δ σ ε) (world : World ε)
    (same : registry.get driveId = registry'.get driveId) (chain : List SignedCapability) :
    (opOpen host world registry driveId chain).2.get driveId =
      (opOpen host world registry' driveId chain).2.get driveId := by
  have fast := Registry.borrowed_congr same fun tenant =>
    .ok (openFast (grantedAbilities chain) tenant)
  have slow := Registry.borrowed_congr same (openState host)
  unfold opOpen
  simp only [fast, slow]
  cases registry'.borrowed driveId fun tenant =>
      .ok (openFast (grantedAbilities chain) tenant) with
  | error e => exact same
  | ok cached =>
    cases cached with
    | some reply => exact same
    | none =>
      cases registry'.borrowed driveId (openState host) with
      | error e => exact same
      | ok bytes =>
        dsimp only
        cases world.putObject bytes with
        | error e => exact same
        | ok cid => exact locked_get_congr same _

/-- What an admitted request makes of the drive it names, and whether it tells of it, depends
on the tenant there alone. -/
theorem dispatchInner_get_congr (host : Host δ σ ε) (world : World ε) (fromHex : String)
    (chain : List SignedCapability) {req : DriveReq}
    (same : registry.get req.drive = registry'.get req.drive) :
    let served := dispatchInner host world registry fromHex chain req
    let served' := dispatchInner host world registry' fromHex chain req
    served.beacon = served'.beacon ∧
      served.registry.get req.drive = served'.registry.get req.drive := by
  rw [dispatchInner_eq_turn, dispatchInner_eq_turn]
  cases turn host world fromHex chain req with
  | unlocked | reads | fetches => exact ⟨rfl, same⟩
  | records stretch =>
    refine ⟨?_, locked_get_congr same stretch⟩
    simp only [Turn.served, Served.announced, Registry.locked_congr same stretch]
  | changes stretch => exact ⟨rfl, locked_get_congr same stretch⟩
  | opens => exact ⟨rfl, opOpen_get_congr host world same chain⟩

end DriveServe
