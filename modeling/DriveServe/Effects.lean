import DriveServe.Dispatch

set_option autoImplicit false

/-! What one request can do to the registry, said once for all eighteen ops. -/

namespace DriveServe

variable {δ σ ε : Type}

/-- The call of an op that changes the drive and records nothing. -/
def silentCall (core : SyncedDrive δ σ ε) : DriveOp → Option DriveCall
  | .setProp path key (some value) => some (.setProp (normPath path) key value)
  | .setProp path key none => some (.unsetProp (normPath path) key)
  | .tag path tag remove =>
    some (if remove then .removeTag (normPath path) tag else .addTag (normPath path) tag)
  | .link path rel target remove =>
    some (if remove then .unlink (normPath path) rel (core.parseTarget target)
      else .link (normPath path) rel (core.parseTarget target))
  | _ => none

/-- A reply and what became of the tenant the request named. -/
inductive Effect (host : Host δ σ ε) (world : World ε) (op : DriveOp) (tenant : Tenant δ) :
    DriveReply → Tenant δ → Prop
  | kept (reply : DriveReply) (unspoken : silentCall host.core op = none) :
      Effect host world op tenant reply tenant
  | failed (call : DriveCall) (e : String) (drive : δ)
      (verb : ∀ spoken, silentCall host.core op = some spoken → spoken = call)
      (made : host.core.call world.env tenant.drive call = (.error e, drive)) :
      Effect host world op tenant (.error (.internal e)) { tenant with drive }
  | recorded (call : DriveCall) (answer : String) (drive : δ) (path nodeId : String)
      (kind : ChangeKind) (etag : String) (reply : DriveOk)
      (unspoken : silentCall host.core op = none)
      (made : host.core.call world.env tenant.drive call = (.ok answer, drive)) :
      Effect host world op tenant (.ok reply)
        { tenant with drive, feed := (tenant.feed.record path nodeId kind etag).2 }
  | silent (call : DriveCall) (answer : String) (drive : δ)
      (verb : silentCall host.core op = some call)
      (made : host.core.call world.env tenant.drive call = (.ok answer, drive)) :
      Effect host world op tenant (.ok .deleted) { tenant with drive }
  | published (bytes : Bytes) (cid : String) (granted : List String) (opened : op = .openDrive)
      (encoded : host.codec.encodeState (host.core.toState tenant.drive) = .ok bytes)
      (put : world.putObject bytes = .ok cid) :
      Effect host world op tenant (.ok (.opened cid tenant.feed.cursor granted tenant.quota))
        { tenant with snapshot := some (cid, tenant.feed.cursor) }

variable {host : Host δ σ ε} {world : World ε} {op : DriveOp} {tenant : Tenant δ}

theorem mutateRecord_effect (unspoken : silentCall host.core op = none) (call : DriveCall)
    (path : String) (kind : ChangeKind) (nodeOf : String → String) (etagOf : δ → String → String)
    (reply : (etag nodeId : String) → Nat → DriveOk) :
    let outcome := mutateRecord host.core world.env call path kind nodeOf etagOf reply tenant
    Effect host world op tenant (outcome.1.map Prod.fst) outcome.2 := by
  intro outcome
  cases made : host.core.call world.env tenant.drive call with
  | mk answered drive =>
    cases answered with
    | error e =>
      have failed : outcome = (.error (.internal e), { tenant with drive }) := by
        simp only [outcome, mutateRecord, made]
      rw [failed]
      exact .failed call e drive (fun _ verb => nomatch unspoken.symm.trans verb) made
    | ok answer =>
      have recorded : outcome.2 = { tenant with drive, feed := (tenant.feed.record path
          (nodeOf answer) kind (etagOf drive (nodeOf answer))).2 } := by
        simp only [outcome, mutateRecord, made]
      have answers : outcome.1.map Prod.fst = .ok (reply (etagOf drive (nodeOf answer))
          (nodeOf answer) (tenant.feed.cursor + 1)) := by
        simp only [outcome, mutateRecord, made, Feed.record_fst, Except.map]
      rw [recorded, answers]
      exact .recorded call answer drive path _ kind _ _ unspoken made

theorem mutateOnly_effect {call : DriveCall} (verb : silentCall host.core op = some call) :
    let outcome := mutateOnly host.core world.env call tenant
    Effect host world op tenant outcome.1 outcome.2 := by
  intro outcome
  cases made : host.core.call world.env tenant.drive call with
  | mk answered drive =>
    cases answered with
    | error e =>
      have failed : outcome = (.error (.internal e), { tenant with drive }) := by
        simp only [outcome, mutateOnly, made]
      rw [failed]
      exact .failed call e drive (fun _ spoken => Option.some.inj (spoken.symm.trans verb)) made
    | ok answer =>
      have changed : outcome = (.ok .deleted, { tenant with drive }) := by
        simp only [outcome, mutateOnly, made]
      rw [changed]
      exact .silent call answer drive verb made

theorem opWrite_effect (unspoken : silentCall host.core op = none)
    (path parent name objectCid : String) (size : Nat) (baseEtag : Option String) :
    let outcome := opWrite host.core world path parent name objectCid size baseEtag tenant
    Effect host world op tenant (outcome.1.map Prod.fst) outcome.2 := by
  unfold opWrite
  split
  · exact .kept _ unspoken
  · exact mutateRecord_effect unspoken ..

theorem opMove_effect (unspoken : silentCall host.core op = none)
    (src dst toParent toName : String) :
    let outcome := opMove host.core world src dst toParent toName tenant
    Effect host world op tenant (outcome.1.map Prod.fst) outcome.2 := by
  unfold opMove
  split
  · exact .kept _ unspoken
  · exact mutateRecord_effect unspoken ..

theorem opCopy_effect (unspoken : silentCall host.core op = none)
    (src dst toParent toName : String) :
    let outcome := opCopy host.core world src dst toParent toName tenant
    Effect host world op tenant (outcome.1.map Prod.fst) outcome.2 := by
  unfold opCopy
  split
  · exact .kept _ unspoken
  · split
    · exact .kept _ unspoken
    · exact mutateRecord_effect unspoken ..

theorem opDelete_effect (unspoken : silentCall host.core op = none) (path : String) :
    let outcome := opDelete host.core world path tenant
    Effect host world op tenant (outcome.1.map Prod.fst) outcome.2 := by
  unfold opDelete
  split
  · exact .kept _ unspoken
  · exact mutateRecord_effect unspoken ..

/-- `Open` keeps the tenant but for the snapshot it publishes. -/
theorem opOpen_effect {registry : Registry δ} {driveId : String}
    (found : registry.get driveId = some tenant) (chain : List SignedCapability) :
    let outcome := opOpen host world registry driveId chain
    ∃ after, outcome.2.get driveId = some after ∧
      Effect host world .openDrive tenant outcome.1 after := by
  intro outcome
  have ends : OpenEnds host world registry driveId (grantedAbilities chain) tenant outcome :=
    opOpen_ends host world found chain
  clear_value outcome
  cases ends with
  | cached | unread | unpublished => exact ⟨tenant, found, .kept _ rfl⟩
  | published bytes cid missed copied put =>
    have encoded : host.codec.encodeState (host.core.toState tenant.drive) = .ok bytes := by
      simpa [openState] using copied
    exact ⟨_, Registry.get_put_self found _,
      .published bytes cid (grantedAbilities chain) rfl encoded put⟩

theorem unspoken_of_records {stretch : Tenant δ → Except DriveErr (DriveOk × Nat) × Tenant δ}
    (records : recordingStretch host.core world op = some stretch) :
    silentCall host.core op = none := by
  cases op <;> first | rfl | cases records

theorem recordingStretch_effect {stretch : Tenant δ → Except DriveErr (DriveOk × Nat) × Tenant δ}
    (records : recordingStretch host.core world op = some stretch) (tenant : Tenant δ) :
    Effect host world op tenant ((stretch tenant).1.map Prod.fst) (stretch tenant).2 := by
  have unspoken := unspoken_of_records records
  cases op with
  | write path | mkdir path | move src path | copy src path =>
    simp only [recordingStretch, Option.map_eq_some_iff] at records
    obtain ⟨parts, _, shape⟩ := records
    rw [← shape]
    first
      | exact opWrite_effect unspoken ..
      | exact mutateRecord_effect unspoken ..
      | exact opMove_effect unspoken ..
      | exact opCopy_effect unspoken ..
  | delete path recursive =>
    simp only [recordingStretch, Option.some_inj] at records
    rw [← records]
    exact opDelete_effect unspoken path
  | _ => cases records

theorem locked_effect {registry : Registry δ} {driveId : String} {α : Type}
    (found : registry.get driveId = some tenant)
    {stretch : Tenant δ → Except DriveErr α × Tenant δ} {replied : Except DriveErr α → DriveReply}
    (effect : Effect host world op tenant (replied (stretch tenant).1) (stretch tenant).2) :
    ∃ after, (registry.locked driveId stretch).2.get driveId = some after ∧
      Effect host world op tenant (replied (registry.locked driveId stretch).1) after := by
  rw [Registry.locked_of_found found]
  exact ⟨_, Registry.get_put_self found _, effect⟩

theorem dispatchInner_effect {registry : Registry δ} {fromHex : String}
    {chain : List SignedCapability} {req : DriveReq}
    (found : registry.get req.drive = some tenant) :
    let served := dispatchInner host world registry fromHex chain req
    ∃ after, served.registry.get req.drive = some after ∧
      Effect host world req.op tenant served.reply after := by
  have untouched : ∀ reply, silentCall host.core req.op = none →
      ∃ after, (Served.unchanged registry reply).registry.get req.drive = some after ∧
        Effect host world req.op tenant (Served.unchanged registry reply).reply after :=
    fun reply unspoken => ⟨tenant, found, .kept reply unspoken⟩
  cases records : recordingStretch host.core world req.op with
  | some stretch =>
    rw [dispatchInner_recording records]
    exact @locked_effect _ _ _ host world _ _ registry _ _ found _ (Except.map Prod.fst)
      (recordingStretch_effect records tenant)
  | none =>
    obtain ⟨drive, cap, op⟩ := req
    unfold dispatchInner
    cases op with
    | openDrive => exact opOpen_effect found chain
    | stat | list | read | share | poll | watch | metaOf | backlinks | versions =>
      exact untouched _ rfl
    | write path | mkdir path | move src path | copy src path =>
      simp only [recordingStretch, Option.map_eq_none_iff] at records
      simp only [records]
      exact untouched _ rfl
    | delete => cases records
    | setProp path key value =>
      cases value <;> exact @locked_effect _ _ _ host world _ _ registry _ _ found _ id
        (mutateOnly_effect rfl)
    | tag | link =>
      exact @locked_effect _ _ _ host world _ _ registry _ _ found _ id (mutateOnly_effect rfl)

theorem dispatchInner_get_of_ne (host : Host δ σ ε) (world : World ε) (registry : Registry δ)
    (fromHex : String) (chain : List SignedCapability) (req : DriveReq) {other : String}
    (apart : other ≠ req.drive) :
    (dispatchInner host world registry fromHex chain req).registry.get other =
      registry.get other := by
  obtain ⟨drive, cap, op⟩ := req
  have locked := fun {α : Type} (stretch : Tenant δ → Except DriveErr α × Tenant δ) =>
    registry.locked_get_of_ne apart stretch
  unfold dispatchInner
  cases op with
  | openDrive =>
    dsimp only [Served.silent]
    unfold opOpen
    dsimp only
    split
    · rfl
    · rfl
    · split
      · rfl
      · split
        · rfl
        · exact locked _
  | stat | list | read | share | poll | watch | metaOf | backlinks | versions => rfl
  | write | mkdir | move | copy =>
    dsimp only
    split
    · rfl
    · exact locked _
  | delete | setProp | tag | link => exact locked _

theorem opOpen_congr (host : Host δ σ ε) (world : World ε) {registry registry' : Registry δ}
    {driveId : String} (same : registry.get driveId = registry'.get driveId)
    (chain : List SignedCapability) :
    (opOpen host world registry driveId chain).1 =
      (opOpen host world registry' driveId chain).1 := by
  have fast := Registry.borrowed_congr same fun tenant =>
    .ok (openFast (grantedAbilities chain) tenant)
  have slow := Registry.borrowed_congr same (openState host)
  unfold opOpen
  simp only [fast, slow]
  cases registry'.borrowed driveId fun tenant =>
      .ok (openFast (grantedAbilities chain) tenant) with
  | error e => rfl
  | ok cached =>
    cases cached with
    | some reply => rfl
    | none =>
      cases registry'.borrowed driveId (openState host) with
      | error e => rfl
      | ok bytes =>
        dsimp only
        cases world.putObject bytes with
        | error e => rfl
        | ok cid =>
          dsimp only
          rw [Registry.locked_congr same]

/-- What an admitted request is answered depends on the tenant it names alone. -/
theorem dispatchInner_congr (host : Host δ σ ε) (world : World ε)
    {registry registry' : Registry δ} (fromHex : String) (chain : List SignedCapability)
    {req : DriveReq} (same : registry.get req.drive = registry'.get req.drive) :
    (dispatchInner host world registry fromHex chain req).reply =
      (dispatchInner host world registry' fromHex chain req).reply := by
  obtain ⟨drive, cap, op⟩ := req
  have locked := fun {α : Type} (stretch : Tenant δ → Except DriveErr α × Tenant δ) =>
    Registry.locked_congr same stretch
  have borrowed := fun {α : Type} (read : Tenant δ → Except DriveErr α) =>
    Registry.borrowed_congr same read
  unfold dispatchInner
  cases op with
  | openDrive => exact opOpen_congr host world same chain
  | stat | list | poll | watch | metaOf | backlinks | versions => exact borrowed _
  | read =>
    dsimp only [Served.unchanged]
    unfold opRead
    rw [borrowed]
  | share => rfl
  | write | mkdir | move | copy =>
    dsimp only
    split
    · rfl
    · dsimp only [Served.announced]
      rw [locked]
  | delete =>
    dsimp only [Served.announced]
    rw [locked]
  | setProp | tag | link => exact locked _

end DriveServe
