import DriveServe.Handlers

set_option autoImplicit false

/-! One decoded request, from the gate to the reply. -/

namespace DriveServe

variable {δ σ ε : Type}

/-- A beacon that was handed to the node, and the bytes of it that the node took. -/
structure Announcement where
  beacon : Beacon
  sent : Option Bytes
  deriving DecidableEq, Repr

/-- Publish a change beacon, best effort: a failure is dropped. -/
def publishBeacon (host : Host δ σ ε) (world : World ε) (driveId : String) (maxSeq : Nat) :
    Announcement :=
  let beacon := { drive := driveId, maxSeq }
  let sent : Except String Bytes := do
    let bytes ← host.codec.encodeBeacon beacon
    world.publish (changesTopic driveId) bytes
    return bytes
  { beacon, sent := sent.toOption }

structure Served (δ : Type) where
  reply : DriveReply
  registry : Registry δ
  beacon : Option Announcement

namespace Served

def unchanged (registry : Registry δ) (reply : DriveReply) : Served δ :=
  { reply, registry, beacon := none }

def silent (outcome : DriveReply × Registry δ) : Served δ :=
  { reply := outcome.1, registry := outcome.2, beacon := none }

def announced (publish : (seq : Nat) → Announcement)
    (outcome : Except DriveErr (DriveOk × Nat) × Registry δ) : Served δ where
  reply := outcome.1.map Prod.fst
  registry := outcome.2
  beacon := match outcome.1 with
    | .ok (_, seq) => some (publish seq)
    | .error _ => none

end Served

/-- The op handlers, authorization already passed. -/
def dispatchInner (host : Host δ σ ε) (world : World ε) (registry : Registry δ)
    (fromHex : String) (chain : List SignedCapability) (req : DriveReq) : Served δ :=
  let core := host.core
  let reading (read : Tenant δ → Except DriveErr DriveOk) : Served δ :=
    .unchanged registry (registry.borrowed req.drive read)
  let recording (stretch : Tenant δ → Except DriveErr (DriveOk × Nat) × Tenant δ) : Served δ :=
    .announced (publishBeacon host world req.drive) (registry.locked req.drive stretch)
  -- the path is split before the registry is asked for the drive
  let splitting (path : String)
      (stretch : String × String → Tenant δ → Except DriveErr (DriveOk × Nat) × Tenant δ) :
      Served δ :=
    match splitPath path with
    | none => .unchanged registry (.error .badPath)
    | some parts => recording (stretch parts)
  match req.op with
  | .openDrive => .silent (opOpen host world registry req.drive chain)
  | .stat path => reading (opStat core path)
  | .list path cursor limit => reading (opList core path cursor limit)
  | .read path offset len =>
    .unchanged registry (opRead host world registry req.drive path offset len)
  | .write path objectCid size baseEtag =>
    splitting path fun (parent, name) =>
      opWrite core world path parent name objectCid size baseEtag
  | .mkdir path => splitting path fun (parent, name) => opMkdir core world path parent name
  | .move src dst =>
    splitting dst fun (toParent, toName) => opMove core world src dst toParent toName
  | .copy src dst =>
    splitting dst fun (toParent, toName) => opCopy core world src dst toParent toName
  | .delete path _ => recording (opDelete core world path)
  | .share path audience abilities caveats =>
    .unchanged registry
      (opShare host.server req.drive fromHex chain path audience abilities caveats)
  | .poll cursor limit => reading (opPoll cursor limit)
  | .watch => reading (opWatch req.drive)
  | .metaOf path => reading (opMeta core path)
  | .setProp path key value =>
    .silent (registry.locked req.drive (opSetProp core world path key value))
  | .tag path tag remove => .silent (registry.locked req.drive (opTag core world path tag remove))
  | .link path rel target remove =>
    .silent (registry.locked req.drive (opLink core world path rel target remove))
  | .backlinks target => reading (opBacklinks core target)
  | .versions path => reading (opVersions core path)

/-- The one stretch of an op that records what it changes. -/
def recordingStretch (core : SyncedDrive δ σ ε) (world : World ε) :
    DriveOp → Option (Tenant δ → Except DriveErr (DriveOk × Nat) × Tenant δ)
  | .write path objectCid size baseEtag => (splitPath path).map fun (parent, name) =>
      opWrite core world path parent name objectCid size baseEtag
  | .mkdir path => (splitPath path).map fun (parent, name) => opMkdir core world path parent name
  | .move src dst => (splitPath dst).map fun (toParent, toName) =>
      opMove core world src dst toParent toName
  | .copy src dst => (splitPath dst).map fun (toParent, toName) =>
      opCopy core world src dst toParent toName
  | .delete path _ => some (opDelete core world path)
  | _ => none

theorem dispatchInner_recording {host : Host δ σ ε} {world : World ε} {req : DriveReq}
    {stretch : Tenant δ → Except DriveErr (DriveOk × Nat) × Tenant δ}
    (records : recordingStretch host.core world req.op = some stretch) (registry : Registry δ)
    (fromHex : String) (chain : List SignedCapability) :
    dispatchInner host world registry fromHex chain req =
      .announced (publishBeacon host world req.drive) (registry.locked req.drive stretch) := by
  obtain ⟨drive, cap, op⟩ := req
  cases op with
  | write path | mkdir path | move src path | copy src path =>
    simp only [recordingStretch, Option.map_eq_some_iff] at records
    obtain ⟨parts, split, shape⟩ := records
    simp only [dispatchInner, split, shape]
  | delete path recursive =>
    simp only [recordingStretch, Option.some_inj] at records
    simp only [dispatchInner, records]
  | _ => cases records

/-- The revoked pairs whose issuer decodes; none at all when the fetch fails. -/
def revokedSet (world : World ε) : RevokedSet :=
  match world.revoked with
  | .error _ => []
  | .ok list => list.filterMap fun (issuerHex, nonce) =>
      (parseNodeId issuerHex).map fun issuer => (issuer, nonce)

def dispatch (host : Host δ σ ε) (world : World ε) (registry : Registry δ) (fromHex : String)
    (req : DriveReq) : Served δ :=
  match parseNodeId fromHex with
  | none => .unchanged registry (.error .unauthorized)
  | some fromNode =>
    match host.server.iam.decodeChain req.cap with
    | .error _ => .unchanged registry (.error .unauthorized)
    | .ok chain =>
      match host.server.authorizeReq req.drive req.op fromNode chain world.nowSecs
          (revokedSet world) with
      | .error e => .unchanged registry (.error e)
      | .ok _ => dispatchInner host world registry fromHex chain req

/-- The way to the op handlers: the sender, the chain, then the gate. -/
def admission (host : Host δ σ ε) (world : World ε) (fromHex : String) (req : DriveReq) :
    Except DriveErr (List SignedCapability) := do
  let fromNode ← Outcome.okOr (parseNodeId fromHex) .unauthorized
  let chain ← (host.server.iam.decodeChain req.cap).mapError fun _ => .unauthorized
  let _ ← host.server.authorizeReq req.drive req.op fromNode chain world.nowSecs
    (revokedSet world)
  return chain

theorem admission_ok_iff (host : Host δ σ ε) (world : World ε) (fromHex : String) (req : DriveReq)
    (chain : List SignedCapability) :
    admission host world fromHex req = .ok chain ↔
      ∃ fromNode granted, parseNodeId fromHex = some fromNode ∧
        host.server.iam.decodeChain req.cap = .ok chain ∧
        host.server.authorizeReq req.drive req.op fromNode chain world.nowSecs
          (revokedSet world) = .ok granted := by
  unfold admission
  simp only [Outcome.bind_eq_ok_iff, Outcome.okOr_eq_ok_iff, Outcome.mapError_eq_ok_iff]
  constructor
  · rintro ⟨fromNode, sender, decoded, token, granted, accepted, same⟩
    cases same
    exact ⟨fromNode, granted, sender, token, accepted⟩
  · rintro ⟨fromNode, granted, sender, token, accepted⟩
    exact ⟨fromNode, sender, chain, token, granted, accepted, rfl⟩

/-- The registry has no say in who is admitted, and only the handlers touch it. -/
theorem dispatch_eq (host : Host δ σ ε) (world : World ε) (registry : Registry δ)
    (fromHex : String) (req : DriveReq) :
    dispatch host world registry fromHex req =
      match admission host world fromHex req with
      | .error e => .unchanged registry (.error e)
      | .ok chain => dispatchInner host world registry fromHex chain req := by
  unfold dispatch admission
  cases parseNodeId fromHex with
  | none => rfl
  | some fromNode =>
    cases decoded : host.server.iam.decodeChain req.cap with
    | error e => rfl
    | ok chain =>
      cases gate : host.server.authorizeReq req.drive req.op fromNode chain world.nowSecs
          (revokedSet world) with
      | error e => simp [Outcome.okOr, gate, bind, Except.bind]
      | ok granted =>
        simp [Outcome.okOr, gate, bind, Except.bind, pure, Except.pure]

theorem dispatch_admitted {host : Host δ σ ε} {world : World ε} {fromHex : String}
    {req : DriveReq} {chain : List SignedCapability}
    (admitted : admission host world fromHex req = .ok chain) (registry : Registry δ) :
    dispatch host world registry fromHex req =
      dispatchInner host world registry fromHex chain req := by
  rw [dispatch_eq, admitted]

theorem dispatch_refused {host : Host δ σ ε} {world : World ε} {fromHex : String}
    {req : DriveReq} {e : DriveErr} (refused : admission host world fromHex req = .error e)
    (registry : Registry δ) :
    dispatch host world registry fromHex req = .unchanged registry (.error e) := by
  rw [dispatch_eq, refused]

end DriveServe
