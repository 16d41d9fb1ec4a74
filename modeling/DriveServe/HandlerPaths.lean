import DriveServe.Confinement
import DriveServe.PathGuards

set_option autoImplicit false

/-! The paths the handlers hand to the drive, against those the gate checked. A path is
handed over where what the drive answers to it shows in what the request comes to. -/

namespace DriveServe

section

variable {δ σ ε : Type}

/-- What a drive answers to the calls that take a path. -/
structure Answers (δ ε : Type) where
  resolve : δ → String → Option String
  ls : δ → String → Except String (List DirEntry)
  call : ε → δ → DriveCall → Except String String × δ

/-- A drive that answers otherwise. -/
def SyncedDrive.answering (core : SyncedDrive δ σ ε) (answers : Answers δ ε) :
    SyncedDrive δ σ ε :=
  { core with resolve := answers.resolve, ls := answers.ls, call := answers.call }

def Host.answering (host : Host δ σ ε) (answers : Answers δ ε) : Host δ σ ε :=
  { host with core := host.core.answering answers }

/-- Answers that differ from a drive's for one path string at most. -/
structure Answers.SameBut (answers : Answers δ ε) (core : SyncedDrive δ σ ε) (place : String) :
    Prop where
  resolve : ∀ drive path, path ≠ place → answers.resolve drive path = core.resolve drive path
  ls : ∀ drive path, path ≠ place → answers.ls drive path = core.ls drive path
  call : ∀ env drive call, place ∉ call.paths →
    answers.call env drive call = core.call env drive call

/-- The handler passes a path string to the drive: other answers to it alone make another
outcome. -/
def Passes (host : Host δ σ ε) (world : World ε) (registry : Registry δ) (fromHex : String)
    (chain : List SignedCapability) (req : DriveReq) (place : String) : Prop :=
  ∃ answers : Answers δ ε, answers.SameBut host.core place ∧
    dispatchInner (host.answering answers) world registry fromHex chain req ≠
      dispatchInner host world registry fromHex chain req

/-- The strings an op may pass: every handler but one normalizes its paths. -/
def handedPaths : DriveOp → List String
  | .list path _ _ => [path]
  | op => (opPaths op).map normPath

variable {core : SyncedDrive δ σ ε} {answers : Answers δ ε} {place : String}

theorem etagFor_answering : etagFor (core.answering answers) = etagFor core := rfl

theorem mutateRecord_answering {env : ε} {call : DriveCall} {tenant : Tenant δ}
    (same : answers.call env tenant.drive call = core.call env tenant.drive call) (path : String)
    (kind : ChangeKind) (nodeOf : String → String) (etagOf : δ → String → String)
    (reply : (etag nodeId : String) → Nat → DriveOk) :
    mutateRecord (core.answering answers) env call path kind nodeOf etagOf reply tenant =
      mutateRecord core env call path kind nodeOf etagOf reply tenant := by
  unfold mutateRecord
  dsimp only [SyncedDrive.answering]
  rw [same]

theorem mutateOnly_answering {env : ε} {call : DriveCall} {tenant : Tenant δ}
    (same : answers.call env tenant.drive call = core.call env tenant.drive call) :
    mutateOnly (core.answering answers) env call tenant = mutateOnly core env call tenant := by
  unfold mutateOnly
  dsimp only [SyncedDrive.answering]
  rw [same]

variable {world : World ε} {op : DriveOp}

theorem Makes.same (nowMs : Nat) {call : DriveCall} (makes : Makes core nowMs op call)
    (same : answers.SameBut core place) (apart : place ∉ (opPaths op).map normPath) (env : ε)
    (drive : δ) : answers.call env drive call = core.call env drive call := by
  apply same.call
  intro named
  obtain ⟨path, among, normal⟩ := makes.paths place named
  exact apart (List.mem_map.mpr ⟨path, among, normal.symm⟩)

theorem Answers.SameBut.resolves (same : answers.SameBut core place)
    (apart : place ∉ (opPaths op).map normPath) {path : String} (among : path ∈ opPaths op)
    (drive : δ) :
    (core.answering answers).resolve drive (normPath path) =
      core.resolve drive (normPath path) := by
  apply same.resolve
  rintro rfl
  exact apart (List.mem_map_of_mem among)

theorem recordingStretch_answering (same : answers.SameBut core place)
    (apart : place ∉ (opPaths op).map normPath) :
    recordingStretch (core.answering answers) world op = recordingStretch core world op := by
  cases op with
  | write path objectCid size baseEtag =>
    dsimp only [recordingStretch]
    refine Option.map_congr fun parts (split : splitPath path = some parts) => ?_
    funext tenant
    unfold opWrite writeConflict
    rw [same.resolves apart (mem_opPaths_of_target rfl), etagFor_answering]
    split
    · rfl
    · exact mutateRecord_answering ((Makes.write split ..).same world.nowMs same apart _ _) ..
  | mkdir path =>
    dsimp only [recordingStretch]
    refine Option.map_congr fun parts (split : splitPath path = some parts) => ?_
    funext tenant
    exact mutateRecord_answering ((Makes.mkdir split).same world.nowMs same apart _ _) ..
  | move src dst =>
    dsimp only [recordingStretch]
    refine Option.map_congr fun parts (split : splitPath dst = some parts) => ?_
    funext tenant
    unfold opMove
    rw [same.resolves apart (mem_opPaths_of_source rfl)]
    split
    · rfl
    · exact mutateRecord_answering ((Makes.move split src).same world.nowMs same apart _ _) ..
  | copy src dst =>
    dsimp only [recordingStretch]
    refine Option.map_congr fun parts (split : splitPath dst = some parts) => ?_
    funext tenant
    unfold opCopy
    rw [same.resolves apart (mem_opPaths_of_source rfl)]
    split
    · rfl
    · dsimp only [SyncedDrive.answering]
      split
      · rfl
      · exact mutateRecord_answering ((Makes.copy split src ..).same world.nowMs same apart _ _) ..
  | delete path recursive =>
    refine congrArg some (funext fun tenant => ?_)
    unfold opDelete
    rw [same.resolves apart (mem_opPaths_of_target rfl)]
    split
    · rfl
    · have makes : Makes core world.nowMs (.delete path recursive) _ := .delete path recursive
      exact mutateRecord_answering (makes.same world.nowMs same apart _ _) ..
  | _ => rfl

section

variable {path : String}
    (resolved : ∀ drive, (core.answering answers).resolve drive (normPath path) =
      core.resolve drive (normPath path))

include resolved

theorem statEntry_answering (drive : δ) :
    statEntry (core.answering answers) drive path = statEntry core drive path := by
  unfold statEntry
  dsimp only
  rw [resolved, etagFor_answering]
  rfl

theorem opStat_answering : opStat (core.answering answers) path = opStat core path := by
  funext tenant
  unfold opStat
  rw [statEntry_answering resolved]

theorem readObject_answering :
    readObject (core.answering answers) path = readObject core path := by
  funext tenant
  unfold readObject
  rw [resolved]
  rfl

theorem opMeta_answering : opMeta (core.answering answers) path = opMeta core path := by
  funext tenant
  unfold opMeta
  rw [resolved]
  rfl

theorem opVersions_answering :
    opVersions (core.answering answers) path = opVersions core path := by
  funext tenant
  unfold opVersions
  rw [resolved]
  rfl

end

theorem opList_answering {path : String} (same : answers.SameBut core place)
    (apart : place ≠ path) (cursor : Option String) (limit : Nat) :
    opList (core.answering answers) path cursor limit = opList core path cursor limit := by
  funext tenant
  unfold opList
  dsimp only [SyncedDrive.answering]
  rw [same.ls _ _ apart.symm]
  rfl

variable {host : Host δ σ ε} {registry : Registry δ}

/-- Every op but `List` comes to the same where the drive answers the same to its paths
in normal form. -/
theorem dispatchInner_answering_normal {req : DriveReq}
    (other : ∀ path cursor limit, req.op ≠ .list path cursor limit)
    (same : answers.SameBut host.core place) (apart : place ∉ (opPaths req.op).map normPath)
    (fromHex : String) (chain : List SignedCapability) :
    dispatchInner (host.answering answers) world registry fromHex chain req =
      dispatchInner host world registry fromHex chain req := by
  obtain ⟨drive, cap, op⟩ := req
  dsimp only at other apart
  cases records : recordingStretch host.core world op with
  | some stretch =>
    have recorded : recordingStretch (host.answering answers).core world op = some stretch :=
      (recordingStretch_answering same apart).trans records
    rw [dispatchInner_recording recorded, dispatchInner_recording records]
    rfl
  | none =>
    have target : ∀ path, opPath op = some path → ∀ drive,
        (host.core.answering answers).resolve drive (normPath path) =
          host.core.resolve drive (normPath path) := by
      intro path named
      exact same.resolves apart (mem_opPaths_of_target named)
    have spoken : ∀ call, silentCall host.core op = some call →
        mutateOnly (host.core.answering answers) world.env call =
          mutateOnly host.core world.env call := by
      intro call verb
      funext tenant
      exact mutateOnly_answering ((Makes.silent verb).same world.nowMs same apart _ _)
    cases op with
    | list path cursor limit => exact absurd rfl (other path cursor limit)
    | openDrive | share | poll | watch | backlinks => rfl
    | stat path =>
      dsimp only [dispatchInner, Host.answering]
      rw [opStat_answering (target path rfl)]
    | read path offset len =>
      dsimp only [dispatchInner, Host.answering, opRead]
      rw [readObject_answering (target path rfl)]
    | write path | mkdir path | move src path | copy src path =>
      simp only [recordingStretch, Option.map_eq_none_iff] at records
      simp only [dispatchInner, records]
    | delete => cases records
    | metaOf path =>
      dsimp only [dispatchInner, Host.answering]
      rw [opMeta_answering (target path rfl)]
    | setProp path key value =>
      dsimp only [dispatchInner, Host.answering, opSetProp]
      rw [spoken _ (by cases value <;> rfl)]
    | tag path tag remove =>
      dsimp only [dispatchInner, Host.answering, opTag]
      rw [spoken _ rfl]
    | link path rel target remove =>
      dsimp only [dispatchInner, Host.answering, opLink]
      exact congrArg _ (congrArg _ (spoken _ rfl))
    | versions path =>
      dsimp only [dispatchInner, Host.answering]
      rw [opVersions_answering (target path rfl)]

theorem Passes.handed {fromHex : String} {chain : List SignedCapability} {req : DriveReq}
    (passes : Passes host world registry fromHex chain req place) :
    place ∈ handedPaths req.op := by
  obtain ⟨answers, same, differ⟩ := passes
  by_contra apart
  apply differ
  by_cases listing : ∃ path cursor limit, req.op = .list path cursor limit
  · obtain ⟨path, cursor, limit, lists⟩ := listing
    obtain ⟨drive, cap, op⟩ := req
    obtain rfl : op = .list path cursor limit := lists
    have away : place ≠ path := fun here => apart (List.mem_singleton.mpr here)
    dsimp only [dispatchInner, Host.answering]
    rw [opList_answering same away]
  · have other : ∀ path cursor limit, req.op ≠ .list path cursor limit :=
      fun path cursor limit lists => listing ⟨path, cursor, limit, lists⟩
    have normal : handedPaths req.op = (opPaths req.op).map normPath := by
      unfold handedPaths
      split
      · rename_i lists
        exact (other _ _ _ lists).elim
      · rfl
    rw [normal] at apart
    exact dispatchInner_answering_normal other same apart fromHex chain

theorem opList_passes {drive : String} {tenant : Tenant δ}
    (found : registry.get drive = some tenant) (fromHex : String)
    (chain : List SignedCapability) (cap path : String) (cursor : Option String) (limit : Nat) :
    Passes host world registry fromHex chain { drive, cap, op := .list path cursor limit }
      path := by
  -- where the drive lists the path it now fails, and the other way around
  let turned : Except String (List DirEntry) :=
    match host.core.ls tenant.drive path with
    | .ok _ => .error ""
    | .error _ => .ok []
  let answers : Answers δ ε :=
    { resolve := host.core.resolve, call := host.core.call
      ls := fun drive asked => if asked = path then turned else host.core.ls drive asked }
  refine ⟨answers, ⟨fun _ _ _ => rfl, fun _ _ away => if_neg away, fun _ _ _ _ => rfl⟩, ?_⟩
  intro same
  have replies : opList (host.core.answering answers) path cursor limit tenant =
      opList host.core path cursor limit tenant := by
    have reply := congrArg Served.reply same
    dsimp only [dispatchInner, Served.unchanged, Host.answering] at reply
    rwa [Registry.borrowed_of_found found, Registry.borrowed_of_found found] at reply
  have answered : (host.core.answering answers).ls tenant.drive path = turned := if_pos rfl
  unfold opList at replies
  rw [answered] at replies
  cases listed : host.core.ls tenant.drive path with
  | error e => simp [turned, listed] at replies
  | ok entries => simp [turned, listed] at replies

/-- A path string that leads, as it stands, to where the gate checked it to lead: at or
under the scope, and to the place of a path of the op. -/
structure Checked (scope : String) (op : DriveOp) (place : String) : Prop where
  inScope : pathNames (normPath scope) <+: pathNames place
  named : ∃ path ∈ opPaths op, pathNames place = pathNames (normPath path)

/-- Every path that the handler of an accepted op passes to the drive is the one the gate
checked, unless it is a `List` of a path with white space at its ends. -/
theorem passes_checked_iff {acceptedRoots : List NodeId} {req : DriveReq} {fromNode : NodeId}
    {chain : List SignedCapability} {now : Nat} {revoked : RevokedSet} {granted : List String}
    (accepted : authorizeReq host.server.iam host.server.hostId acceptedRoots req.drive req.op
      fromNode chain now revoked = .ok granted)
    {leaf : SignedCapability} (last : chain.getLast? = some leaf) {scope : String}
    (binding : boundScope leaf = some (req.drive, scope)) {tenant : Tenant δ}
    (found : registry.get req.drive = some tenant) (fromHex : String) :
    (∀ place, Passes host world registry fromHex chain req place → Checked scope req.op place) ↔
      ∀ path cursor limit, req.op = .list path cursor limit → trim path = path := by
  have gate := admitted_of_accepted accepted last binding
  have checked : ∀ path ∈ opPaths req.op, ∀ place, pathNames place = pathNames (normPath path) →
      Checked scope req.op place := by
    intro path among place same
    refine ⟨?_, path, among, same⟩
    rw [same]
    exact pathNames_of_enforcePrefix (gate path among).inScope
  constructor
  · rintro all path cursor limit lists
    obtain ⟨drive, cap, op⟩ := req
    obtain rfl : op = .list path cursor limit := lists
    obtain ⟨_, other, among, same⟩ := all path (opList_passes found ..)
    obtain rfl : other = path := List.mem_singleton.mp among
    rw [pathNames_normPath] at same
    exact (pathNames_trim_iff other).mp same.symm
  · intro stable place passes
    have handed := passes.handed
    unfold handedPaths at handed
    split at handed
    · rename_i path cursor limit lists
      obtain rfl : place = path := List.mem_singleton.mp handed
      refine checked place ?_ place ?_
      · rw [lists]
        exact List.mem_singleton_self _
      · rw [pathNames_normPath, stable place cursor limit lists]
    · obtain ⟨path, among, rfl⟩ := List.mem_map.mp handed
      exact checked path among _ rfl

end

namespace Reference

def siblings : FileDrive :=
  [directory "/docs" "d1", directory "/ docs" "d2", file "/ docs/secret" "n1" "o1" 1000]

def docsRequest (op : DriveOp) : DriveReq := { drive := "team", cap := "", op }

def docsGranted (op : DriveOp) : Except DriveErr (List String) :=
  authorizeReq (iam []) (node 1) [] "team" op (node 2) [grant "/docs"] 0 []

def docsServed (op : DriveOp) : Served FileDrive :=
  dispatchInner (host [] []) (world none).toWorld (registry "team" siblings) "" [grant "/docs"]
    (docsRequest op)

def DocsPasses (op : DriveOp) (place : String) : Prop :=
  Passes (host [] []) (world none).toWorld (registry "team" siblings) "" [grant "/docs"]
    (docsRequest op) place

theorem paddedStat_checked :
    docsGranted (.stat " docs//a ") = .ok [Ability.read, Ability.write] ∧
      ∀ place, DocsPasses (.stat " docs//a ") place →
        Checked "/docs" (.stat " docs//a ") place :=
  ⟨by decide, (@passes_checked_iff _ _ _ (world none).toWorld (host [] [])
    (registry "team" siblings) [] (docsRequest (.stat " docs//a ")) (node 2) [grant "/docs"] 0 []
    [Ability.read, Ability.write] (by decide) (grant "/docs") rfl "/docs" (by decide)
    (Tenant.new siblings quota) rfl "").mpr fun _ _ _ lists => nomatch lists⟩

/-- The holder of a grant of `/docs` is listed the directory beside it. -/
theorem paddedList_escapes :
    docsGranted (.list " docs" none 10) = .ok [Ability.read, Ability.write] ∧
      boundScope (grant "/docs") = some ("team", "/docs") ∧
      (docsServed (.list " docs" none 10)).reply = .ok (.listing [entryOf core siblings "/docs"
        { name := "secret", nodeId := "n1", isDir := false,
          content := (file "/ docs/secret" "n1" "o1" 1000).content }] none) ∧
      DocsPasses (.list " docs" none 10) " docs" ∧
      ¬ Checked "/docs" (.list " docs" none 10) " docs" := by
  refine ⟨by decide, by decide, by decide, opList_passes rfl .., ?_⟩
  intro checked
  exact absurd checked.inScope (by decide)

end Reference

end DriveServe
