import DriveServe.Confinement
import DriveServe.Interference
import DriveServe.PathLaws
import DriveServe.Runs
import DriveServe.Uploads
import DriveServe.WriteGuard

set_option autoImplicit false

/-! From an upload to the bytes of a later read. The write files the object's address at
a path, requests that change other places leave it there, and the plan that a read is
answered with names chunks of that object. -/

namespace DriveServe

section

variable {δ σ ε : Type}

/-- In this state a file that is added can be read back where it was put. -/
def SyncedDrive.Files (core : SyncedDrive δ σ ε) (env : ε) (drive : δ) : Prop :=
  ∀ {path parent name : String} {content : FileContent} {answer : String} {after : δ},
    splitPath path = some (parent, name) →
      core.call env drive (.addFile parent name content) = (.ok answer, after) →
        ∃ view kept, nodeAt core after (normPath path) = some view ∧
          view.content = some kept ∧ core.cid kept = core.cid content

/-- The content a write makes is named by the object it was made for. -/
def SyncedDrive.NamesObjects (core : SyncedDrive δ σ ε) : Prop :=
  ∀ objectCid size mode mtimeMs,
    core.cid (core.newContent (core.objectLocator objectCid) size mode mtimeMs) = objectCid

/-- At the path there is a file whose bytes are the object's. -/
def Filed (core : SyncedDrive δ σ ε) (drive : δ) (path objectCid : String) : Prop :=
  ∃ view content, nodeAt core drive (normPath path) = some view ∧
    view.content = some content ∧ core.cid content = objectCid

/-- A request that changes nothing at or above the path, where a mutation changes what it
names. -/
structure Spares (host : Host δ σ ε) (driveId path : String) (registry : Registry δ)
    (arrival : Arrival ε) : Prop where
  apart : LetIn host driveId arrival →
    ∀ call, Makes host.core arrival.world.nowMs arrival.req.op call →
      ∀ place ∈ call.paths, ¬ pathNames place <+: pathNames (normPath path)
  frame : ∀ tenant, registry.get driveId = some tenant →
    host.core.ChangesNamed arrival.world.env tenant.drive

def servedOn (host : Host δ σ ε) (registry : Registry δ) (arrival : Arrival ε) :
    Option (Registry δ) :=
  some (respond host registry arrival).2

variable {host : Host δ σ ε} {registry : Registry δ} {driveId path objectCid : String}

theorem mkdir_paths {core : SyncedDrive δ σ ε} {nowMs : Nat} {call : DriveCall}
    (makes : Makes core nowMs (.mkdir path) call) : call.paths = [normPath path] := by
  cases makes with
  | @mkdir _ parent name split => exact congrArg (fun place => [place]) (splitPath_child split)
  | silent verb => cases verb

theorem readObject_filed {core : SyncedDrive δ σ ε} {tenant : Tenant δ}
    (filed : Filed core tenant.drive path objectCid) :
    readObject core path tenant = .ok objectCid := by
  obtain ⟨view, content, there, held, named⟩ := filed
  obtain ⟨node, resolved, rfl⟩ := Option.map_eq_some_iff.mp there
  simp only [readObject, Outcome.bind_eq_ok_iff, Outcome.okOr_eq_ok_iff]
  exact ⟨node, resolved, content, held, congrArg Except.ok named⟩

theorem write_files {arrival : Arrival ε} {size : Nat} {baseEtag : Option String}
    {before : Tenant δ} (found : registry.get arrival.req.drive = some before)
    (op : arrival.req.op = .write path objectCid size baseEtag)
    (files : host.core.Files arrival.world.env before.drive) (names : host.core.NamesObjects)
    {etag nodeId : String} {seq : Nat}
    (answered : (respond host registry arrival).1.1 = .ok (.written etag nodeId seq)) :
    ∃ tenant, (respond host registry arrival).2.get arrival.req.drive = some tenant ∧
      Filed host.core tenant.drive path objectCid := by
  have ends := dispatch_write_ends host op found
  dsimp only at ends
  obtain ⟨after, stored, ends, _⟩ := ends
  dsimp only [respond] at answered ⊢
  refine ⟨after, stored, ?_⟩
  rw [answered] at ends
  cases ends with
  | written parent name answer etag nodeId seq drive feed split passed made =>
    obtain ⟨view, content, there, held, named⟩ := files split made
    exact ⟨view, content, there, held, named.trans (names ..)⟩

theorem spares_filed {arrival : Arrival ε} (spares : Spares host driveId path registry arrival)
    {tenant : Tenant δ} (found : registry.get driveId = some tenant)
    (filed : Filed host.core tenant.drive path objectCid) :
    ∃ after, (respond host registry arrival).2.get driveId = some after ∧
      Filed host.core after.drive path objectCid := by
  by_cases admitted : LetIn host driveId arrival
  · obtain ⟨named, chain, gate⟩ := id admitted
    subst named
    have ⟨after, stored, changed⟩ := @dispatchInner_changed _ _ _ arrival.world host _ _ _ found
      arrival.fromHex chain
    refine ⟨after, ?_, ?_⟩
    · simp only [respond, dispatch_admitted gate]
      exact stored
    · rcases changed with kept | ⟨call, makes, made⟩
      · rwa [kept]
      · have still := spares.frame tenant found call (normPath path)
          (spares.apart admitted call makes)
        rw [made]
        unfold Filed at filed ⊢
        rwa [still]
  · rw [respond_get_of_not_letIn registry admitted]
    exact ⟨tenant, found, filed⟩

theorem run_filed {others : List (Arrival ε)} {later : Registry δ}
    (run : Runs.Run (servedOn host) (Spares host driveId path) registry others later)
    (filed : ∃ tenant, registry.get driveId = some tenant ∧
      Filed host.core tenant.drive path objectCid) :
    ∃ tenant, later.get driveId = some tenant ∧ Filed host.core tenant.drive path objectCid := by
  refine @Runs.Run.invariant _ _ _ _ (fun registry => ∃ tenant,
    registry.get driveId = some tenant ∧ Filed host.core tenant.drive path objectCid)
    _ _ _ run filed ?_
  rintro registry arrival next ⟨tenant, found, there⟩ spares taken
  unfold servedOn at taken
  rw [← Option.some.inj taken]
  exact spares_filed spares found there

/-- The plan a read of a filed object is answered with. -/
theorem read_plans {read : Arrival ε} {offset : Nat} {length : Option Nat} {manifestBytes : Bytes}
    {manifest : Manifest} (admitted : LetIn host driveId read)
    (op : read.req.op = .read path offset length) {tenant : Tenant δ}
    (found : registry.get driveId = some tenant)
    (filed : Filed host.core tenant.drive path objectCid)
    (fetched : read.world.getBlob objectCid = .ok manifestBytes)
    (decodes : host.codec.decodeManifest manifestBytes = .ok manifest) :
    (respond host registry read).1.1 =
      .ok (.readPlan (readPlan objectCid manifest offset length)) := by
  obtain ⟨named, chain, gate⟩ := admitted
  subst named
  simp only [respond, dispatch_admitted gate, dispatchInner, op, Served.unchanged, opRead,
    Outcome.bind_eq_ok_iff, Outcome.mapError_eq_ok_iff, Registry.borrowed_of_found found]
  exact ⟨objectCid, readObject_filed filed, manifestBytes, fetched, manifest, decodes, rfl⟩

/-- Bytes that either SDK uploaded and a write filed are what a later read of the path
returns, whatever range it asks for, whoever asks and whatever was done elsewhere in the
drive, or to other drives, in between. -/
theorem written_reads_back {ν : Type} {post : PostBlob ν} {held : ν → String → Option Bytes}
    {sha256 : Bytes → Bytes} (collisionFree : Function.Injective sha256)
    (stores : Stores sha256 post held) {data : Bytes} (fits : data.length < 2 ^ 64)
    {net kept : ν} (uploaded : Py.putObject post data net = (.ok objectCid, kept) ∨
      Js.putObject post data net = (.ok objectCid, kept))
    {write : Arrival ε} {size : Nat} {baseEtag : Option String} {tenant : Tenant δ}
    (found : registry.get write.req.drive = some tenant)
    (writes : write.req.op = .write path objectCid size baseEtag)
    (files : host.core.Files write.world.env tenant.drive) (names : host.core.NamesObjects)
    {etag nodeId : String} {seq : Nat}
    (answered : (respond host registry write).1.1 = .ok (.written etag nodeId seq))
    {others : List (Arrival ε)} {later : Registry δ}
    (run : Runs.Run (servedOn host) (Spares host write.req.drive path)
      (respond host registry write).2 others later)
    {read : Arrival ε} (admitted : LetIn host write.req.drive read) {asked : String}
    {offset : Nat} {length : Option Nat} (reads : read.req.op = .read asked offset length)
    (same : normPath asked = normPath path)
    (served : ∀ hash blob, held kept hash = some blob → read.world.getBlob hash = .ok blob)
    (decodes : host.codec.decodeManifest (manifestBlob sha256 data) =
      .ok (Sdk.putObject (address sha256) chunkSize data))
    {getBlob : Sdk.BlobStore} (serves : Serves (held kept) getBlob) :
    ∃ plan, (respond host later read).1.1 = .ok (.readPlan plan) ∧
      Py.read (address sha256) getBlob asked offset length plan =
        .ok (requested data offset length) ∧
      (totalLen plan.chunks < 2 ^ 53 →
        Js.read (address sha256) getBlob asked offset length plan =
          .ok (requested data offset length)) := by
  have posted : Py.putObject post data net = (.ok objectCid, kept) := by
    rcases uploaded with py | js
    · exact py
    · exact (putObject_alike stores data net).symm.trans js
  have ⟨_, there, _⟩ := putObject_stored stores posted
  have ⟨last, foundLast, filed⟩ := run_filed run (write_files found writes files names answered)
  have filedAsked : Filed host.core last.drive asked objectCid := by
    unfold Filed at filed ⊢
    rwa [same]
  refine ⟨_, read_plans admitted reads foundLast filedAsked (served _ _ there) decodes, ?_⟩
  exact read_stored collisionFree stores fits posted serves asked offset length

end

namespace Reference

variable {drive after : FileDrive} {path parent name fresh answer : String}

theorem find_joined (split : splitPath path = some (parent, name)) (drive : FileDrive) :
    find drive (joined parent name) = find drive (normPath path) := by
  apply find_congr
  rw [names_joined, splitPath_child split]

theorem Done.find_added {content : FileContent} (split : splitPath path = some (parent, name))
    (done : Done fresh drive (.addFile parent name content) answer after) :
    ∃ node, find after (normPath path) = some node ∧ node.content = some content := by
  cases done with
  | @filled _ _ _ node taken =>
    rw [find_joined split] at taken
    have here : node.path = pathOf (names (normPath path)) := by
      simpa using List.find?_some taken
    have place := names_of_kept here
    refine ⟨{ node with content := some content }, ?_, rfl⟩
    have test : ∀ other : FileNode, ((if other.path = pathOf (names node.path) then
        { other with content := some content } else other).path == pathOf (names (normPath path))) =
        (other.path == pathOf (names (normPath path))) := by
      intro other
      split <;> rfl
    have tests : (fun other : FileNode => other.path == pathOf (names (normPath path))) ∘
        (fun other : FileNode => if other.path = pathOf (names node.path) then
          { other with content := some content } else other) =
        fun other => other.path == pathOf (names (normPath path)) := funext test
    have found : drive.find? (fun other => other.path == pathOf (names (normPath path))) =
      some node := taken
    unfold find
    rw [List.find?_map, tests, found, Option.map_some, place, if_pos here]
  | added vacant there =>
    rw [find_joined split] at vacant
    have proper : Proper name := (splits_of_splitPath split).proper
    refine ⟨{ path := joined parent name, id := fresh, kind := .file, content := some content,
              info := noMeta }, ?_, rfl⟩
    unfold find at vacant ⊢
    rw [List.find?_append, vacant, Option.none_or, List.find?_cons_of_pos]
    have canonical := @joined_canonical parent name proper
    rw [names_joined, splitPath_child split] at canonical
    simpa using canonical
  | described change target other found => exact absurd rfl (other _ _ _)

theorem core_files (unshared : Unshared fresh drive) : core.Files (some fresh) drive := by
  intro path parent name content answer after split made
  obtain ⟨_, distinct⟩ := List.nodup_cons.mp unshared
  change call (some fresh) drive (.addFile parent name content) = _ at made
  simp only [call] at made
  cases attempted : attempt fresh drive (.addFile parent name content) with
  | error e =>
    rw [attempted] at made
    cases made
  | ok outcome =>
    rw [attempted] at made
    cases made
    have done := done_of_attempt attempted
    have unique : Unique outcome.2 := distinct.sublist done.ids
    obtain ⟨node, found, held⟩ := done.find_added split
    have deep : names (normPath path) ≠ [] := by
      intro top
      have proper : Proper name := (splits_of_splitPath split).proper
      rw [← splitPath_child split, names_childPath proper] at top
      simp at top
    refine ⟨{ nodeId := node.id, kind := some node.kind, content := node.content,
              info := some node.info }, content, ?_, held, rfl⟩
    rw [nodeAt_find unique deep, found, Option.map_some]

theorem core_namesObjects : core.NamesObjects := by
  intro objectCid size mode mtimeMs
  have marked : ("blob:" ++ objectCid).toList = 'b' :: 'l' :: 'o' :: 'b' :: ':' ::
      objectCid.toList := by
    rw [String.toList_append]
    rfl
  change String.ofList ((("blob:" ++ objectCid).toList.dropWhile (· != ':')).drop 1) = objectCid
  rw [marked]
  simp

def threeBytes : Bytes := [1, 2, 3]

/-- The host that granted the whole drive, with a parser that knows one manifest. -/
def manifestHost : Host FileDrive FileDrive (Option String) :=
  { writeHost with
    codec := { writeHost.codec with
      decodeManifest := fun blob =>
        if blob = manifestBlob id threeBytes then
          .ok (Sdk.putObject (address id) chunkSize threeBytes)
        else .error "not a manifest" } }

def threeKept : List Bytes := [manifestBlob id threeBytes, threeBytes]

def threeWrite : Arrival (Option String) :=
  arrival (.write "/a" (objectAddress id threeBytes) 3 none)

def storeWorld (kept : List Bytes) : World (Option String) :=
  { (world (some "n2")).toWorld with
    getBlob := fun hash => (keptBlob kept hash).elim (.error "not found") .ok }

theorem storeWorld_getBlob (kept : List Bytes) (hash : String) (blob : Bytes)
    (there : keptBlob kept hash = some blob) : (storeWorld kept).getBlob hash = .ok blob := by
  change (keptBlob kept hash).elim _ _ = _
  rw [there, Option.elim_some]

def threeRead : Arrival (Option String) :=
  { arrival (.read "/a/" 1 none) with world := storeWorld threeKept }

theorem mkdir_spares {registry : Registry FileDrive}
    (unshared : ∀ tenant, registry.get "team" = some tenant → Unshared "n2" tenant.drive) :
    Spares manifestHost "team" "/a" registry (arrival (.mkdir "/d")) where
  apart := by
    intro _ call makes place member
    rw [mkdir_paths makes, List.mem_singleton] at member
    rw [member]
    decide
  frame := fun tenant found => core_changesNamed (unshared tenant found)

end Reference

open Reference in
/-- Three bytes are filed at `/a`, a directory is made beside them, and all but the first
are read. -/
theorem threeBytes_read_from_drive :
    ∃ plan, (respond manifestHost (respond manifestHost (respond manifestHost teamRegistry
          threeWrite).2 (arrival (.mkdir "/d"))).2 threeRead).1.1 = .ok (.readPlan plan) ∧
      Py.read (address id) (fetchKept threeKept) "/a/" 1 none plan = .ok [2, 3] := by
  have uploaded : Py.putObject keepBlob threeBytes [] =
      (.ok (objectAddress id threeBytes), threeKept) := by decide +kernel
  have answered : (respond manifestHost teamRegistry threeWrite).1.1 =
      .ok (.written (objectAddress id threeBytes ++ ":10000") "n1" 1) := by decide +kernel
  have admitted : LetIn manifestHost "team" threeRead := by decide +kernel
  have decodes : manifestHost.codec.decodeManifest (manifestBlob id threeBytes) =
      .ok (Sdk.putObject (address id) chunkSize threeBytes) := by
    simp only [manifestHost, ↓reduceIte]
  have unshared : ((respond manifestHost teamRegistry threeWrite).2.get "team").all
      (fun tenant => decide (Unshared "n2" tenant.drive)) = true := by decide +kernel
  have spared : Spares manifestHost "team" "/a" (respond manifestHost teamRegistry threeWrite).2
      (arrival (.mkdir "/d")) := by
    apply mkdir_spares
    intro tenant found
    rw [found] at unshared
    exact of_decide_eq_true unshared
  have run : Runs.Run (servedOn manifestHost) (Spares manifestHost "team" "/a")
      (respond manifestHost teamRegistry threeWrite).2 [arrival (.mkdir "/d")]
      (respond manifestHost (respond manifestHost teamRegistry threeWrite).2
        (arrival (.mkdir "/d"))).2 := .single spared rfl
  have ⟨plan, planned, bytes, _⟩ := @written_reads_back _ _ _ manifestHost teamRegistry "/a"
    (objectAddress id threeBytes) _ keepBlob keptBlob id Function.injective_id keepBlob_stores
    threeBytes (by decide) [] threeKept (Or.inl uploaded) threeWrite 3 none _ rfl rfl
    (core_files (by decide)) core_namesObjects _ _ _ answered [arrival (.mkdir "/d")] _ run
    threeRead admitted "/a/" 1 none rfl (by decide) (storeWorld_getBlob threeKept) decodes _
    (fetchKept_serves threeKept)
  exact ⟨plan, planned, bytes.trans (by decide)⟩

end DriveServe
