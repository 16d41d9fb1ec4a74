import DriveServe.Tenant
import DriveServe.World

set_option autoImplicit false

/-! The op handlers, each a sequence of stretches under the registry lock. What a
stretch does to one tenant is a function of its own. -/

namespace DriveServe

variable {δ σ ε : Type}

/-- Cheap optimistic-concurrency token of a node. -/
def etagFor (core : SyncedDrive δ σ ε) (drive : δ) (nodeId : String) : String :=
  match core.contentOf drive nodeId with
  | some c => core.cid c ++ ":" ++ toString c.mtimeMs
  | none => "dir:" ++ nodeId

/-- `str::trim_end_matches('/')`. -/
def trimEndSlashes (s : String) : String := String.ofList (s.toList.rdropWhile isSlash)

/-- A wire entry from a directory line under `parentPath`. -/
def entryOf (core : SyncedDrive δ σ ε) (drive : δ) (parentPath : String) (e : DirEntry) :
    Entry where
  path := if parentPath = "/" then "/" ++ e.name else trimEndSlashes parentPath ++ "/" ++ e.name
  kind := if e.isDir then .dir else .file
  size := (e.content.map FileContent.size).getD 0
  mtimeMs := (e.content.map FileContent.mtimeMs).getD 0
  etag := etagFor core drive e.nodeId
  nodeId := e.nodeId
  objectCid := e.content.map core.cid
  docId := e.content.bind FileContent.docId

def statEntry (core : SyncedDrive δ σ ε) (drive : δ) (path : String) : Option Entry :=
  let norm := normPath path
  if norm = "/" then
    some { path := "/", kind := .dir, size := 0, mtimeMs := 0, etag := "dir:" ++ core.root,
           nodeId := core.root, objectCid := none, docId := none }
  else do
    let node ← core.resolve drive norm
    let kind ← core.edgeKind drive node
    let content := core.contentOf drive node
    return { path := norm, kind := if kind = .dir then .dir else .file,
             size := (content.map FileContent.size).getD 0,
             mtimeMs := (content.map FileContent.mtimeMs).getD 0,
             etag := etagFor core drive node, nodeId := node,
             objectCid := content.map core.cid, docId := content.bind FileContent.docId }

/-- The chunks of a manifest that meet `[offset, stop)`, from position `pos` on. -/
def planChunks (manifest : Manifest) (offset stop : Nat) : Nat → List String → List ChunkRef
  | _, [] => []
  | pos, cid :: rest =>
    let remaining := manifest.totalSize - pos
    let thisLen := min manifest.chunkSize remaining
    let chunkEnd := pos + thisLen
    if offset < chunkEnd ∧ pos < stop then
      { cid, offset := pos, len := thisLen } :: planChunks manifest offset stop chunkEnd rest
    else planChunks manifest offset stop chunkEnd rest

/-- The read plan covering `[offset, offset + len)`; the sum saturates. -/
def readPlan (objectCid : String) (manifest : Manifest) (offset : Nat) (len : Option Nat) :
    ReadPlan :=
  let total := manifest.totalSize
  let stop := match len with
    | some l => min (min (offset + l) (2 ^ 64 - 1)) total
    | none => total
  { objectCid, totalSize := total, chunkSize := manifest.chunkSize,
    chunks := if stop ≤ offset then [] else planChunks manifest offset stop 0 manifest.chunks,
    encrypted := false, keyHint := none }

/-- The abilities an `Open` reports: the leaf's. -/
def grantedAbilities (chain : List SignedCapability) : List String :=
  (chain.getLast?.map (·.cap.abilities)).getD []

/-- First stretch of `Open`: the cached snapshot, when the feed has not moved. -/
def openFast (granted : List String) (tenant : Tenant δ) : Option DriveOk :=
  match tenant.snapshot with
  | none => none
  | some (cid, snapCursor) =>
    if snapCursor = tenant.feed.cursor then some (.opened cid snapCursor granted tenant.quota)
    else none

theorem openFast_some {granted : List String} {tenant : Tenant δ} {reply : DriveOk}
    (answered : openFast granted tenant = some reply) :
    ∃ cid, tenant.snapshot = some (cid, tenant.feed.cursor) ∧
      reply = .opened cid tenant.feed.cursor granted tenant.quota := by
  unfold openFast at answered
  split at answered
  · cases answered
  · rename_i cid snapCursor cached
    split at answered
    · rename_i tail
      refine ⟨cid, tail ▸ cached, ?_⟩
      rw [← tail]
      exact (Option.some.inj answered).symm
    · cases answered

/-- Second stretch of `Open`: the bytes of the whole state. -/
def openState (host : Host δ σ ε) (tenant : Tenant δ) : Except DriveErr Bytes :=
  (host.codec.encodeState (host.core.toState tenant.drive)).mapError .internal

/-- Third stretch of `Open`: cache the published cid with the cursor of now. -/
def openPublish (cid : String) (tenant : Tenant δ) : (Nat × Quota) × Tenant δ :=
  let cursor := tenant.feed.cursor
  ((cursor, tenant.quota), { tenant with snapshot := some (cid, cursor) })

def opOpen (host : Host δ σ ε) (world : World ε) (registry : Registry δ) (driveId : String)
    (chain : List SignedCapability) : Except DriveErr DriveOk × Registry δ :=
  let granted := grantedAbilities chain
  match registry.borrowed driveId fun tenant => .ok (openFast granted tenant) with
  | .error e => (.error e, registry)
  | .ok (some cached) => (.ok cached, registry)
  | .ok none =>
    match registry.borrowed driveId (openState host) with
    | .error e => (.error e, registry)
    | .ok stateBytes =>
      match world.putObject stateBytes with
      | .error e => (.error (.internal ("snapshot publish: " ++ e)), registry)
      | .ok cid =>
        let (published, after) := registry.locked driveId fun tenant =>
          (.ok (openPublish cid tenant).1, (openPublish cid tenant).2)
        (published.map fun (serverSeq, quota) => .opened cid serverSeq granted quota, after)

inductive OpenEnds (host : Host δ σ ε) (world : World ε) (registry : Registry δ)
    (driveId : String) (granted : List String) (tenant : Tenant δ) :
    Except DriveErr DriveOk × Registry δ → Prop
  | cached (reply : DriveOk) (answered : openFast granted tenant = some reply) :
      OpenEnds host world registry driveId granted tenant (.ok reply, registry)
  | unread (e : DriveErr) (missed : openFast granted tenant = none)
      (failed : openState host tenant = .error e) :
      OpenEnds host world registry driveId granted tenant (.error e, registry)
  | unpublished (bytes : Bytes) (e : String) (missed : openFast granted tenant = none)
      (copied : openState host tenant = .ok bytes) (failed : world.putObject bytes = .error e) :
      OpenEnds host world registry driveId granted tenant
        (.error (.internal ("snapshot publish: " ++ e)), registry)
  | published (bytes : Bytes) (cid : String) (missed : openFast granted tenant = none)
      (copied : openState host tenant = .ok bytes) (put : world.putObject bytes = .ok cid) :
      OpenEnds host world registry driveId granted tenant
        (.ok (.opened cid tenant.feed.cursor granted tenant.quota),
          registry.put driveId (openPublish cid tenant).2)

theorem opOpen_ends (host : Host δ σ ε) (world : World ε) {registry : Registry δ}
    {driveId : String} {tenant : Tenant δ} (found : registry.get driveId = some tenant)
    (chain : List SignedCapability) :
    OpenEnds host world registry driveId (grantedAbilities chain) tenant
      (opOpen host world registry driveId chain) := by
  rw [opOpen, Registry.borrowed_of_found found, Registry.borrowed_of_found found]
  cases cached : openFast (grantedAbilities chain) tenant with
  | some reply => exact .cached reply cached
  | none =>
    cases copied : openState host tenant with
    | error e => exact .unread e cached copied
    | ok bytes =>
      cases put : world.putObject bytes with
      | error e =>
        simp only [put]
        exact .unpublished bytes e cached copied put
      | ok cid =>
        simp only [put, Registry.locked_of_found found]
        exact .published bytes cid cached copied put

def opStat (core : SyncedDrive δ σ ε) (path : String) (tenant : Tenant δ) :
    Except DriveErr DriveOk :=
  match statEntry core tenant.drive path with
  | none => .error .notFound
  | some entry => .ok (.entry entry)

def opList (core : SyncedDrive δ σ ε) (path : String) (cursor : Option String) (limit : Nat)
    (tenant : Tenant δ) : Except DriveErr DriveOk :=
  match core.ls tenant.drive path with
  | .error _ => .error .notFound
  | .ok entries =>
    let parent := normPath path
    let limit := max limit 1
    -- the cursor is the last name returned; the page starts behind it
    let start := match cursor with
      | some c => entries.findIdx fun e => decide (c < e.name)
      | none => 0
    let page := ((entries.drop start).take limit).map (entryOf core tenant.drive parent)
    let nextCursor :=
      if start + page.length < entries.length then
        page.getLast?.map fun e => lastSegment e.path
      else none
    .ok (.listing page nextCursor)

/-- The stretch of `Read`: the object that holds the node's bytes. -/
def readObject (core : SyncedDrive δ σ ε) (path : String) (tenant : Tenant δ) :
    Except DriveErr String := do
  let node ← Outcome.okOr (core.resolve tenant.drive (normPath path)) .notFound
  let content ← Outcome.okOr (core.contentOf tenant.drive node) .notFound
  return core.cid content

def opRead (host : Host δ σ ε) (world : World ε) (registry : Registry δ) (driveId path : String)
    (offset : Nat) (len : Option Nat) : Except DriveErr DriveOk := do
  let objectCid ← registry.borrowed driveId (readObject host.core path)
  let manifestBytes ← (world.getBlob objectCid).mapError fun _ => .notFound
  let manifest ← (host.codec.decodeManifest manifestBytes).mapError
    fun e => .internal ("manifest decode: " ++ e)
  return .readPlan (readPlan objectCid manifest offset len)

/-- Make one mutating call and record the change it made: on which node, and with
which etag, is read off the call's answer and the drive afterwards. -/
def mutateRecord (core : SyncedDrive δ σ ε) (env : ε) (call : DriveCall) (path : String)
    (kind : ChangeKind) (nodeOf : String → String) (etagOf : δ → String → String)
    (reply : (etag nodeId : String) → Nat → DriveOk) (tenant : Tenant δ) :
    Except DriveErr (DriveOk × Nat) × Tenant δ :=
  match core.call env tenant.drive call with
  | (.error e, drive) => (.error (.internal e), { tenant with drive })
  | (.ok answer, drive) =>
    let nodeId := nodeOf answer
    let etag := etagOf drive nodeId
    let (seq, feed) := tenant.feed.record path nodeId kind etag
    (.ok (reply etag nodeId seq, seq), { tenant with drive, feed })

/-- Make one mutating call that is recorded nowhere. -/
def mutateOnly (core : SyncedDrive δ σ ε) (env : ε) (call : DriveCall) (tenant : Tenant δ) :
    Except DriveErr DriveOk × Tenant δ :=
  match core.call env tenant.drive call with
  | (.error e, drive) => (.error (.internal e), { tenant with drive })
  | (.ok _, drive) => (.ok .deleted, { tenant with drive })

def writeConflict (core : SyncedDrive δ σ ε) (drive : δ) (path : String)
    (baseEtag : Option String) : Option String :=
  match core.resolve drive (normPath path) with
  | none => none
  | some node =>
    let current := etagFor core drive node
    match baseEtag with
    | none => none
    | some base => if base ≠ current then some current else none

def opWrite (core : SyncedDrive δ σ ε) (world : World ε) (path parent name objectCid : String)
    (size : Nat) (baseEtag : Option String) (tenant : Tenant δ) :
    Except DriveErr (DriveOk × Nat) × Tenant δ :=
  match writeConflict core tenant.drive path baseEtag with
  | some currentEtag => (.error (.conflict currentEtag), tenant)
  | none =>
    let fc := core.newContent (core.objectLocator objectCid) size 0o644 world.nowMs
    mutateRecord core world.env (.addFile parent name fc) (normPath path) .modified id
      (etagFor core) (fun etag nodeId seq => .written etag nodeId seq) tenant

def opMkdir (core : SyncedDrive δ σ ε) (world : World ε) (path parent name : String)
    (tenant : Tenant δ) : Except DriveErr (DriveOk × Nat) × Tenant δ :=
  mutateRecord core world.env (.mkdir parent name) (normPath path) .created id (etagFor core)
    (fun _ nodeId _ => .made nodeId) tenant

def opMove (core : SyncedDrive δ σ ε) (world : World ε) (src dst toParent toName : String)
    (tenant : Tenant δ) : Except DriveErr (DriveOk × Nat) × Tenant δ :=
  match core.resolve tenant.drive (normPath src) with
  | none => (.error .notFound, tenant)
  | some node =>
    mutateRecord core world.env (.mv (normPath src) toParent toName) (normPath dst)
      (.moved (normPath src)) (fun _ => node) (etagFor core) (fun _ nodeId _ => .made nodeId) tenant

def opCopy (core : SyncedDrive δ σ ε) (world : World ε) (src dst toParent toName : String)
    (tenant : Tenant δ) : Except DriveErr (DriveOk × Nat) × Tenant δ :=
  match core.resolve tenant.drive (normPath src) with
  | none => (.error .notFound, tenant)
  | some node =>
    match core.contentOf tenant.drive node with
    | none => (.error .notFound, tenant)
    | some content =>
      let fc := core.newContent content.locator content.size content.mode world.nowMs
      mutateRecord core world.env (.addFile toParent toName fc) (normPath dst) .created id
        (etagFor core) (fun _ nodeId _ => .made nodeId) tenant

def opDelete (core : SyncedDrive δ σ ε) (world : World ε) (path : String) (tenant : Tenant δ) :
    Except DriveErr (DriveOk × Nat) × Tenant δ :=
  match core.resolve tenant.drive (normPath path) with
  | none => (.error .notFound, tenant)
  | some node =>
    mutateRecord core world.env (.rm (normPath path)) (normPath path) .deleted (fun _ => node)
      (fun _ _ => "") (fun _ _ _ => .deleted) tenant

def opPoll (cursor : Option Nat) (limit : Nat) (tenant : Tenant δ) : Except DriveErr DriveOk :=
  let (changes, newCursor) := tenant.feed.poll (cursor.getD 0) limit
  .ok (.changes changes newCursor)

def opWatch (driveId : String) (tenant : Tenant δ) : Except DriveErr DriveOk :=
  .ok (.watching (changesTopic driveId) tenant.feed.cursor)

def opMeta (core : SyncedDrive δ σ ε) (path : String) (tenant : Tenant δ) :
    Except DriveErr DriveOk :=
  match core.resolve tenant.drive (normPath path) with
  | none => .error .notFound
  | some node =>
    match core.metaOf tenant.drive node with
    | none => .ok (.metaOf node [] [] [])
    | some m =>
      .ok (.metaOf node m.props m.tags
        (m.links.map fun (rel, target) => { rel, target := core.targetKey target }))

def opSetProp (core : SyncedDrive δ σ ε) (world : World ε) (path key : String)
    (value : Option String) : Tenant δ → Except DriveErr DriveOk × Tenant δ :=
  mutateOnly core world.env <|
    match value with
    | some v => .setProp (normPath path) key v
    | none => .unsetProp (normPath path) key

def opTag (core : SyncedDrive δ σ ε) (world : World ε) (path tag : String) (remove : Bool) :
    Tenant δ → Except DriveErr DriveOk × Tenant δ :=
  mutateOnly core world.env <|
    if remove then .removeTag (normPath path) tag else .addTag (normPath path) tag

def opLink (core : SyncedDrive δ σ ε) (world : World ε) (path rel target : String)
    (remove : Bool) : Tenant δ → Except DriveErr DriveOk × Tenant δ :=
  mutateOnly core world.env <|
    if remove then .unlink (normPath path) rel (core.parseTarget target)
    else .link (normPath path) rel (core.parseTarget target)

def opBacklinks (core : SyncedDrive δ σ ε) (target : String) (tenant : Tenant δ) :
    Except DriveErr DriveOk :=
  .ok (.backlinks (core.backlinks tenant.drive (core.parseTarget target)))

def opVersions (core : SyncedDrive δ σ ε) (path : String) (tenant : Tenant δ) :
    Except DriveErr DriveOk :=
  match core.resolve tenant.drive (normPath path) with
  | none => .error .notFound
  | some node =>
    match core.contentOf tenant.drive node with
    | none => .error .notFound
    | some content =>
      .ok (.versions (content.versions.map fun v =>
        { setAtMs := v.setAtMs, locator := core.display v.locator, size := v.size,
          conflict := v.conflict }))

end DriveServe
