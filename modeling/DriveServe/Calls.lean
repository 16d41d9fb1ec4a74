import DriveServe.Effects

set_option autoImplicit false

/-! Which mutating call an op makes on the drive. A request changes its drive by that
call and by nothing else. -/

namespace DriveServe

variable {δ σ ε : Type}

structure Arrival (ε : Type) where
  fromHex : String
  req : DriveReq
  world : World ε

/-- The calls an op served at `nowMs` may make. -/
inductive Makes (core : SyncedDrive δ σ ε) (nowMs : Nat) : DriveOp → DriveCall → Prop
  | write {path parent name : String} (split : splitPath path = some (parent, name))
      (objectCid : String) (size : Nat) (baseEtag : Option String) :
      Makes core nowMs (.write path objectCid size baseEtag)
        (.addFile parent name (core.newContent (core.objectLocator objectCid) size 0o644 nowMs))
  | mkdir {path parent name : String} (split : splitPath path = some (parent, name)) :
      Makes core nowMs (.mkdir path) (.mkdir parent name)
  | move {dst parent name : String} (split : splitPath dst = some (parent, name)) (src : String) :
      Makes core nowMs (.move src dst) (.mv (normPath src) parent name)
  | copy {dst parent name : String} (split : splitPath dst = some (parent, name)) (src : String)
      (locator : Locator) (size mode : Nat) :
      Makes core nowMs (.copy src dst)
        (.addFile parent name (core.newContent locator size mode nowMs))
  | delete (path : String) (recursive : Bool) :
      Makes core nowMs (.delete path recursive) (.rm (normPath path))
  | silent {op : DriveOp} {call : DriveCall} (verb : silentCall core op = some call) :
      Makes core nowMs op call

/-- The drive after a request: as it was, or after one call of the op. -/
def ChangedBy (core : SyncedDrive δ σ ε) (world : World ε) (op : DriveOp) (before after : δ) :
    Prop :=
  after = before ∨
    ∃ call, Makes core world.nowMs op call ∧ after = (core.call world.env before call).2

theorem mutateRecord_drive (core : SyncedDrive δ σ ε) (env : ε) (call : DriveCall)
    (path : String) (kind : ChangeKind) (nodeOf : String → String) (etagOf : δ → String → String)
    (reply : (etag nodeId : String) → Nat → DriveOk) (tenant : Tenant δ) :
    (mutateRecord core env call path kind nodeOf etagOf reply tenant).2.drive =
      (core.call env tenant.drive call).2 := by
  unfold mutateRecord
  cases core.call env tenant.drive call with
  | mk answered drive => cases answered <;> rfl

theorem mutateOnly_drive (core : SyncedDrive δ σ ε) (env : ε) (call : DriveCall)
    (tenant : Tenant δ) :
    (mutateOnly core env call tenant).2.drive = (core.call env tenant.drive call).2 := by
  unfold mutateOnly
  cases core.call env tenant.drive call with
  | mk answered drive => cases answered <;> rfl

variable {core : SyncedDrive δ σ ε} {world : World ε} {op : DriveOp}

theorem recordingStretch_changed {stretch : Tenant δ → Except DriveErr (DriveOk × Nat) × Tenant δ}
    (records : recordingStretch core world op = some stretch) (tenant : Tenant δ) :
    ChangedBy core world op tenant.drive (stretch tenant).2.drive := by
  cases op with
  | write path objectCid size baseEtag =>
    simp only [recordingStretch, Option.map_eq_some_iff] at records
    obtain ⟨parts, split, shape⟩ := records
    rw [← shape]
    unfold opWrite
    split
    · exact Or.inl rfl
    · exact Or.inr ⟨_, .write split objectCid size baseEtag, mutateRecord_drive ..⟩
  | mkdir path =>
    simp only [recordingStretch, Option.map_eq_some_iff] at records
    obtain ⟨parts, split, shape⟩ := records
    rw [← shape]
    exact Or.inr ⟨_, .mkdir split, mutateRecord_drive ..⟩
  | move src dst =>
    simp only [recordingStretch, Option.map_eq_some_iff] at records
    obtain ⟨parts, split, shape⟩ := records
    rw [← shape]
    unfold opMove
    split
    · exact Or.inl rfl
    · exact Or.inr ⟨_, .move split src, mutateRecord_drive ..⟩
  | copy src dst =>
    simp only [recordingStretch, Option.map_eq_some_iff] at records
    obtain ⟨parts, split, shape⟩ := records
    rw [← shape]
    unfold opCopy
    split
    · exact Or.inl rfl
    · split
      · exact Or.inl rfl
      · exact Or.inr ⟨_, .copy split src .., mutateRecord_drive ..⟩
  | delete path recursive =>
    simp only [recordingStretch, Option.some_inj] at records
    rw [← records]
    unfold opDelete
    split
    · exact Or.inl rfl
    · exact Or.inr ⟨_, .delete path recursive, mutateRecord_drive ..⟩
  | _ => cases records

variable {host : Host δ σ ε} {registry : Registry δ} {tenant : Tenant δ}

theorem opOpen_drive {driveId : String} (found : registry.get driveId = some tenant)
    (chain : List SignedCapability) :
    ∃ after, (opOpen host world registry driveId chain).2.get driveId = some after ∧
      after.drive = tenant.drive ∧ after.feed = tenant.feed := by
  have ends : OpenEnds host world registry driveId (grantedAbilities chain) tenant
    (opOpen host world registry driveId chain) := opOpen_ends host world found chain
  generalize opOpen host world registry driveId chain = outcome at ends ⊢
  cases ends with
  | cached | unread | unpublished => exact ⟨tenant, found, rfl, rfl⟩
  | published => exact ⟨_, Registry.get_put_self found _, rfl, rfl⟩

theorem dispatchInner_changed {req : DriveReq} (found : registry.get req.drive = some tenant)
    (fromHex : String) (chain : List SignedCapability) :
    ∃ after, (dispatchInner host world registry fromHex chain req).registry.get req.drive =
        some after ∧
      ChangedBy host.core world req.op tenant.drive after.drive := by
  cases records : recordingStretch host.core world req.op with
  | some stretch =>
    rw [dispatchInner_recording records]
    dsimp only [Served.announced]
    rw [Registry.locked_of_found found]
    exact ⟨_, Registry.get_put_self found _, recordingStretch_changed records tenant⟩
  | none =>
    obtain ⟨drive, cap, op⟩ := req
    have silent : ∀ call, silentCall host.core op = some call →
        ∃ after, (registry.locked drive (mutateOnly host.core world.env call)).2.get drive =
            some after ∧
          ChangedBy host.core world op tenant.drive after.drive := by
      intro call verb
      rw [Registry.locked_of_found found]
      refine ⟨_, Registry.get_put_self found _, Or.inr ⟨call, .silent verb, ?_⟩⟩
      exact mutateOnly_drive ..
    cases op with
    | openDrive =>
      obtain ⟨after, stored, same, _⟩ := @opOpen_drive _ _ _ world host _ _ drive found chain
      exact ⟨after, stored, Or.inl same⟩
    | stat | list | read | share | poll | watch | metaOf | backlinks | versions =>
      exact ⟨tenant, found, Or.inl rfl⟩
    | write path | mkdir path | move src path | copy src path =>
      simp only [recordingStretch, Option.map_eq_none_iff] at records
      simp only [dispatchInner, records]
      exact ⟨tenant, found, Or.inl rfl⟩
    | delete => cases records
    | setProp path key value => cases value <;> exact silent _ rfl
    | tag | link => exact silent _ rfl

theorem dispatchInner_missing {req : DriveReq} (missing : registry.get req.drive = none)
    (fromHex : String) (chain : List SignedCapability) :
    (dispatchInner host world registry fromHex chain req).registry = registry := by
  have locked : ∀ {α : Type} (stretch : Tenant δ → Except DriveErr α × Tenant δ),
      (registry.locked req.drive stretch).2 = registry := by
    intro α stretch
    simp only [Registry.locked, missing]
  cases records : recordingStretch host.core world req.op with
  | some stretch =>
    rw [dispatchInner_recording records]
    exact locked stretch
  | none =>
    obtain ⟨drive, cap, op⟩ := req
    cases op with
    | openDrive =>
      dsimp only [dispatchInner, Served.silent]
      simp only [opOpen, Registry.borrowed, missing]
    | stat | list | read | share | poll | watch | metaOf | backlinks | versions => rfl
    | write path | mkdir path | move src path | copy src path =>
      simp only [recordingStretch, Option.map_eq_none_iff] at records
      simp only [dispatchInner, records]
      rfl
    | delete => cases records
    | setProp path key value => cases value <;> exact locked _
    | tag | link => exact locked _

theorem dispatch_get_of_ne (host : Host δ σ ε) (world : World ε) (registry : Registry δ)
    (fromHex : String) (req : DriveReq) {other : String} (apart : other ≠ req.drive) :
    (dispatch host world registry fromHex req).registry.get other = registry.get other := by
  cases gate : admission host world fromHex req with
  | error e =>
    rw [dispatch_refused gate]
    rfl
  | ok chain =>
    rw [dispatch_admitted gate]
    exact dispatchInner_get_of_ne _ _ _ _ _ _ apart

end DriveServe
