import DriveServe.Bincode
import DriveServe.Wire

set_option autoImplicit false

/-! The wire layout of requests and replies, as bincode derives it from the
declarations: fields and variants in their order. -/

namespace DriveServe

open Bincode (fields variant Text Seq Opt)
open Reader (Dec Decodes)

namespace ShareCaveats

def encode (caveats : ShareCaveats) : Bytes :=
  fields [Bincode.u64 caveats.notAfter, Bincode.opt Bincode.u64 caveats.maxBytesRead,
    Bincode.opt Bincode.u64 caveats.maxBytesWrite]

def decoder : Dec String ShareCaveats := do
  let notAfter ← Bincode.Decoder.u64
  let maxBytesRead ← Bincode.Decoder.opt Bincode.Decoder.u64
  let maxBytesWrite ← Bincode.Decoder.opt Bincode.Decoder.u64
  return { notAfter, maxBytesRead, maxBytesWrite }

end ShareCaveats

namespace DriveOp

def encode : DriveOp → Bytes
  | .openDrive => variant 0 []
  | .stat path => variant 1 [Bincode.str path]
  | .list path cursor limit =>
    variant 2 [Bincode.str path, Bincode.opt Bincode.str cursor, Bincode.u32 limit]
  | .read path offset len =>
    variant 3 [Bincode.str path, Bincode.u64 offset, Bincode.opt Bincode.u64 len]
  | .write path objectCid size baseEtag =>
    variant 4 [Bincode.str path, Bincode.str objectCid, Bincode.u64 size,
      Bincode.opt Bincode.str baseEtag]
  | .mkdir path => variant 5 [Bincode.str path]
  | .move src dst => variant 6 [Bincode.str src, Bincode.str dst]
  | .copy src dst => variant 7 [Bincode.str src, Bincode.str dst]
  | .delete path recursive => variant 8 [Bincode.str path, Bincode.bool recursive]
  | .share path audience abilities caveats =>
    variant 9 [Bincode.str path, Bincode.str audience, Bincode.seq Bincode.str abilities,
      caveats.encode]
  | .poll cursor limit => variant 10 [Bincode.opt Bincode.u64 cursor, Bincode.u32 limit]
  | .watch => variant 11 []
  | .metaOf path => variant 12 [Bincode.str path]
  | .setProp path key value =>
    variant 13 [Bincode.str path, Bincode.str key, Bincode.opt Bincode.str value]
  | .tag path label remove =>
    variant 14 [Bincode.str path, Bincode.str label, Bincode.bool remove]
  | .link path rel target remove =>
    variant 15 [Bincode.str path, Bincode.str rel, Bincode.str target, Bincode.bool remove]
  | .backlinks target => variant 16 [Bincode.str target]
  | .versions path => variant 17 [Bincode.str path]

open Bincode.Decoder in
def decoder : Dec String DriveOp := do
  match ← u32 with
  | 0 => return .openDrive
  | 1 => return .stat (← str)
  | 2 => return .list (← str) (← opt str) (← u32)
  | 3 => return .read (← str) (← u64) (← opt u64)
  | 4 => return .write (← str) (← str) (← u64) (← opt str)
  | 5 => return .mkdir (← str)
  | 6 => return .move (← str) (← str)
  | 7 => return .copy (← str) (← str)
  | 8 => return .delete (← str) (← bool)
  | 9 => return .share (← str) (← str) (← seq str) (← ShareCaveats.decoder)
  | 10 => return .poll (← opt u64) (← u32)
  | 11 => return .watch
  | 12 => return .metaOf (← str)
  | 13 => return .setProp (← str) (← str) (← opt str)
  | 14 => return .tag (← str) (← str) (← bool)
  | 15 => return .link (← str) (← str) (← str) (← bool)
  | 16 => return .backlinks (← str)
  | 17 => return .versions (← str)
  | _ => throw "invalid variant index"

/-- The values of the declared types: `u64`, `u32` and lengths that fit. -/
def InRange : DriveOp → Prop
  | .openDrive | .watch => True
  | .stat path | .mkdir path | .metaOf path | .versions path => Text path
  | .list path cursor limit => Text path ∧ Opt Text cursor ∧ limit < 2 ^ 32
  | .read path offset len => Text path ∧ offset < 2 ^ 64 ∧ Opt (· < 2 ^ 64) len
  | .write path objectCid size baseEtag =>
    Text path ∧ Text objectCid ∧ size < 2 ^ 64 ∧ Opt Text baseEtag
  | .move src dst | .copy src dst => Text src ∧ Text dst
  | .delete path _ => Text path
  | .share path audience abilities caveats =>
    Text path ∧ Text audience ∧ Seq Text abilities ∧ caveats.notAfter < 2 ^ 64 ∧
      Opt (· < 2 ^ 64) caveats.maxBytesRead ∧ Opt (· < 2 ^ 64) caveats.maxBytesWrite
  | .poll cursor limit => Opt (· < 2 ^ 64) cursor ∧ limit < 2 ^ 32
  | .setProp path key value => Text path ∧ Text key ∧ Opt Text value
  | .tag path label _ => Text path ∧ Text label
  | .link path rel target _ => Text path ∧ Text rel ∧ Text target
  | .backlinks target => Text target

end DriveOp

/-- `encode_req`. -/
def encodeReq (req : DriveReq) : Bytes :=
  fields [Bincode.str req.drive, Bincode.str req.cap, req.op.encode]

def DriveReq.decoder : Dec String DriveReq := do
  let drive ← Bincode.Decoder.str
  let cap ← Bincode.Decoder.str
  let op ← DriveOp.decoder
  return { drive, cap, op }

variable {fits : Nat → Prop} {strict : Prop}

theorem decodes_optU64 {o : Option Nat} (inRange : Opt (· < 2 ^ 64) o) :
    Decodes fits strict (Bincode.Decoder.opt Bincode.Decoder.u64) (Bincode.opt Bincode.u64 o) o :=
  Bincode.decodes_opt fun n member => Bincode.decodes_u64 (inRange n member)

theorem decodes_optStr {o : Option String} (inRange : Opt Text o) :
    Decodes fits strict (Bincode.Decoder.opt Bincode.Decoder.str) (Bincode.opt Bincode.str o) o :=
  Bincode.decodes_opt fun s member => Bincode.decodes_str (inRange s member)

theorem decodes_caveats {caveats : ShareCaveats} (notAfter : caveats.notAfter < 2 ^ 64)
    (read : Opt (· < 2 ^ 64) caveats.maxBytesRead)
    (write : Opt (· < 2 ^ 64) caveats.maxBytesWrite) :
    Decodes fits strict ShareCaveats.decoder caveats.encode caveats :=
  (Bincode.decodes_u64 notAfter).field <| (decodes_optU64 read).field <|
    (decodes_optU64 write).field (.pure caveats)

/-- Every op is read back from its encoding. -/
theorem decodes_op {op : DriveOp} (inRange : op.InRange) :
    Decodes fits strict DriveOp.decoder op.encode op := by
  open Bincode in
  cases op with
  | openDrive => exact decodes_variant (by decide) (.pure _)
  | stat path => exact decodes_variant (by decide) <| .field (decodes_str inRange) (.pure _)
  | list path cursor limit =>
    exact decodes_variant (by decide) <| .field (decodes_str inRange.1) <|
      .field (decodes_optStr inRange.2.1) <| .field (decodes_u32 inRange.2.2) (.pure _)
  | read path offset len =>
    exact decodes_variant (by decide) <| .field (decodes_str inRange.1) <|
      .field (decodes_u64 inRange.2.1) <| .field (decodes_optU64 inRange.2.2) (.pure _)
  | write path objectCid size baseEtag =>
    exact decodes_variant (by decide) <| .field (decodes_str inRange.1) <|
      .field (decodes_str inRange.2.1) <| .field (decodes_u64 inRange.2.2.1) <|
      .field (decodes_optStr inRange.2.2.2) (.pure _)
  | mkdir path => exact decodes_variant (by decide) <| .field (decodes_str inRange) (.pure _)
  | move src dst | copy src dst =>
    exact decodes_variant (by decide) <| .field (decodes_str inRange.1) <|
      .field (decodes_str inRange.2) (.pure _)
  | delete path recursive =>
    exact decodes_variant (by decide) <| .field (decodes_str inRange) <|
      .field (decodes_bool recursive) (.pure _)
  | share path audience abilities caveats =>
    obtain ⟨path, audience, abilities, notAfter, read, write⟩ := inRange
    exact decodes_variant (by decide) <| .field (decodes_str path) <|
      .field (decodes_str audience) <| .field (decodes_seq abilities fun _ => decodes_str) <|
      .field (decodes_caveats notAfter read write) (.pure _)
  | poll cursor limit =>
    exact decodes_variant (by decide) <| .field (decodes_optU64 inRange.1) <|
      .field (decodes_u32 inRange.2) (.pure _)
  | watch => exact decodes_variant (by decide) (.pure _)
  | metaOf path | versions path =>
    exact decodes_variant (by decide) <| .field (decodes_str inRange) (.pure _)
  | setProp path key value =>
    exact decodes_variant (by decide) <| .field (decodes_str inRange.1) <|
      .field (decodes_str inRange.2.1) <| .field (decodes_optStr inRange.2.2) (.pure _)
  | tag path label remove =>
    exact decodes_variant (by decide) <| .field (decodes_str inRange.1) <|
      .field (decodes_str inRange.2) <| .field (decodes_bool remove) (.pure _)
  | link path rel target remove =>
    exact decodes_variant (by decide) <| .field (decodes_str inRange.1) <|
      .field (decodes_str inRange.2.1) <| .field (decodes_str inRange.2.2) <|
      .field (decodes_bool remove) (.pure _)
  | backlinks target =>
    exact decodes_variant (by decide) <| .field (decodes_str inRange) (.pure _)

/-- `decode_req`, with the bytes behind the request. -/
def decodeReqRest (bytes : Bytes) : Except String (DriveReq × Bytes) :=
  Reader.runRest DriveReq.decoder bytes

/-- A request is read back, and what is behind it is left over. -/
theorem decodeReq_encodeReq {req : DriveReq} (drive : Text req.drive) (cap : Text req.cap)
    (inRange : req.op.InRange) (after : Bytes) :
    decodeReqRest (encodeReq req ++ after) = .ok (req, after) := by
  have read : Decodes (fun _ => True) True DriveReq.decoder (encodeReq req) req :=
    .field (Bincode.decodes_str drive) <| .field (Bincode.decodes_str cap) <|
      .field (decodes_op inRange) (.pure req)
  exact read.runRest_append trivial

def EntryKind.index : EntryKind → Nat
  | .file => 0
  | .dir => 1

def Entry.encode (e : Entry) : Bytes :=
  fields [Bincode.str e.path, variant e.kind.index [], Bincode.u64 e.size, Bincode.u64 e.mtimeMs,
    Bincode.str e.etag, Bincode.str e.nodeId, Bincode.opt Bincode.str e.objectCid,
    Bincode.opt Bincode.str e.docId]

def ChunkRef.encode (c : ChunkRef) : Bytes :=
  fields [Bincode.str c.cid, Bincode.u64 c.offset, Bincode.u64 c.len]

def ReadPlan.encode (plan : ReadPlan) : Bytes :=
  fields [Bincode.str plan.objectCid, Bincode.u64 plan.totalSize, Bincode.u64 plan.chunkSize,
    Bincode.seq ChunkRef.encode plan.chunks, Bincode.bool plan.encrypted,
    Bincode.opt Bincode.str plan.keyHint]

def ChangeKind.encode : ChangeKind → Bytes
  | .created => variant 0 []
  | .modified => variant 1 []
  | .deleted => variant 2 []
  | .moved src => variant 3 [Bincode.str src]

def Change.encode (c : Change) : Bytes :=
  fields [Bincode.u64 c.seq, Bincode.str c.path, Bincode.str c.nodeId, c.kind.encode,
    Bincode.str c.etag]

def MetaLink.encode (link : MetaLink) : Bytes :=
  fields [Bincode.str link.rel, Bincode.str link.target]

def VersionInfo.encode (v : VersionInfo) : Bytes :=
  fields [Bincode.u64 v.setAtMs, Bincode.str v.locator, Bincode.u64 v.size,
    Bincode.bool v.conflict]

def Quota.encode (quota : Quota) : Bytes :=
  fields [Bincode.str quota.pricePerGibMonth, Bincode.str quota.pricePerGibEgress,
    Bincode.u64 quota.freeTierBytes, Bincode.bool quota.channelRequired]

def encodePair (pair : String × String) : Bytes :=
  fields [Bincode.str pair.1, Bincode.str pair.2]

def DriveOk.encode : DriveOk → Bytes
  | .opened driveRootCid serverSeq grantedAbilities quota =>
    variant 0 [Bincode.str driveRootCid, Bincode.u64 serverSeq,
      Bincode.seq Bincode.str grantedAbilities, quota.encode]
  | .entry e => variant 1 [e.encode]
  | .listing entries nextCursor =>
    variant 2 [Bincode.seq Entry.encode entries, Bincode.opt Bincode.str nextCursor]
  | .readPlan plan => variant 3 [plan.encode]
  | .written etag nodeId versionSeq =>
    variant 4 [Bincode.str etag, Bincode.str nodeId, Bincode.u64 versionSeq]
  | .made nodeId => variant 5 [Bincode.str nodeId]
  | .deleted => variant 6 []
  | .shared chain => variant 7 [Bincode.str chain]
  | .changes deltas newCursor =>
    variant 8 [Bincode.seq Change.encode deltas, Bincode.u64 newCursor]
  | .watching topic cursor => variant 9 [Bincode.str topic, Bincode.u64 cursor]
  | .metaOf nodeId props tags links =>
    variant 10 [Bincode.str nodeId, Bincode.seq encodePair props, Bincode.seq Bincode.str tags,
      Bincode.seq MetaLink.encode links]
  | .backlinks links => variant 11 [Bincode.seq encodePair links]
  | .versions history => variant 12 [Bincode.seq VersionInfo.encode history]

def DriveErr.encode : DriveErr → Bytes
  | .unauthorized => variant 0 []
  | .revoked => variant 1 []
  | .expired => variant 2 []
  | .outOfScope => variant 3 []
  | .notFound => variant 4 []
  | .conflict currentEtag => variant 5 [Bincode.str currentEtag]
  | .quotaExceeded => variant 6 []
  | .paymentRequired => variant 7 []
  | .badPath => variant 8 []
  | .internal reason => variant 9 [Bincode.str reason]

/-- `encode_reply`. -/
def encodeReply : DriveReply → Bytes
  | .ok ok => variant 0 [ok.encode]
  | .error err => variant 1 [err.encode]

/-- A stable numeric code for clients that don't decode the variant. -/
def DriveErr.code : DriveErr → Nat
  | .unauthorized => 401
  | .revoked => 410
  | .expired => 419
  | .outOfScope => 403
  | .notFound => 404
  | .conflict _ => 409
  | .quotaExceeded => 429
  | .paymentRequired => 402
  | .badPath => 400
  | .internal _ => 500

def DriveErr.display : DriveErr → String
  | .unauthorized => "unauthorized"
  | .revoked => "capability revoked"
  | .expired => "capability expired"
  | .outOfScope => "path outside granted scope"
  | .notFound => "not found"
  | .conflict currentEtag => "conflict (current etag " ++ currentEtag ++ ")"
  | .quotaExceeded => "quota exceeded"
  | .paymentRequired => "payment required"
  | .badPath => "bad path"
  | .internal reason => "internal error: " ++ reason

/-! The values of the declared reply types: integers and lengths that a `u64` holds. -/

structure Entry.InRange (e : Entry) : Prop where
  path : Text e.path
  size : e.size < 2 ^ 64
  mtimeMs : e.mtimeMs < 2 ^ 64
  etag : Text e.etag
  nodeId : Text e.nodeId
  objectCid : Opt Text e.objectCid
  docId : Opt Text e.docId

structure ChunkRef.InRange (c : ChunkRef) : Prop where
  cid : Text c.cid
  offset : c.offset < 2 ^ 64
  len : c.len < 2 ^ 64

structure ReadPlan.InRange (plan : ReadPlan) : Prop where
  objectCid : Text plan.objectCid
  totalSize : plan.totalSize < 2 ^ 64
  chunkSize : plan.chunkSize < 2 ^ 64
  chunks : Seq ChunkRef.InRange plan.chunks
  keyHint : Opt Text plan.keyHint

def ChangeKind.InRange : ChangeKind → Prop
  | .created | .modified | .deleted => True
  | .moved src => Text src

structure Change.InRange (c : Change) : Prop where
  seq : c.seq < 2 ^ 64
  path : Text c.path
  nodeId : Text c.nodeId
  kind : c.kind.InRange
  etag : Text c.etag

structure MetaLink.InRange (link : MetaLink) : Prop where
  rel : Text link.rel
  target : Text link.target

structure VersionInfo.InRange (v : VersionInfo) : Prop where
  setAtMs : v.setAtMs < 2 ^ 64
  locator : Text v.locator
  size : v.size < 2 ^ 64

structure Quota.InRange (quota : Quota) : Prop where
  pricePerGibMonth : Text quota.pricePerGibMonth
  pricePerGibEgress : Text quota.pricePerGibEgress
  freeTierBytes : quota.freeTierBytes < 2 ^ 64

def PairInRange (pair : String × String) : Prop := Text pair.1 ∧ Text pair.2

def DriveOk.InRange : DriveOk → Prop
  | .opened driveRootCid serverSeq grantedAbilities quota =>
    Text driveRootCid ∧ serverSeq < 2 ^ 64 ∧ Seq Text grantedAbilities ∧ quota.InRange
  | .entry e => e.InRange
  | .listing entries nextCursor => Seq Entry.InRange entries ∧ Opt Text nextCursor
  | .readPlan plan => plan.InRange
  | .written etag nodeId versionSeq => Text etag ∧ Text nodeId ∧ versionSeq < 2 ^ 64
  | .made nodeId => Text nodeId
  | .deleted => True
  | .shared chain => Text chain
  | .changes deltas newCursor => Seq Change.InRange deltas ∧ newCursor < 2 ^ 64
  | .watching topic cursor => Text topic ∧ cursor < 2 ^ 64
  | .metaOf nodeId props tags links =>
    Text nodeId ∧ Seq PairInRange props ∧ Seq Text tags ∧ Seq MetaLink.InRange links
  | .backlinks links => Seq PairInRange links
  | .versions history => Seq VersionInfo.InRange history

def DriveErr.InRange : DriveErr → Prop
  | .conflict text | .internal text => Text text
  | .unauthorized | .revoked | .expired | .outOfScope | .notFound => True
  | .quotaExceeded | .paymentRequired | .badPath => True

def ReplyInRange : DriveReply → Prop
  | .ok ok => ok.InRange
  | .error err => err.InRange

end DriveServe
