import DriveServe.Chunks
import DriveServe.Doubles
import DriveServe.Handlers

set_option autoImplicit false

/-! What the two client SDKs share on their way to bytes: the error they raise, the
chunking of an object and the loop that fetches and checks the chunks of a plan. -/

namespace DriveServe

/-- A drive op was refused, or the transport failed; `code` is the host's. -/
structure DriveError where
  message : String
  code : Option Nat
  currentEtag : Option String
  deriving DecidableEq, Repr

def DriveError.plain (message : String) : DriveError :=
  { message, code := none, currentEtag := none }

namespace Sdk

/-- The manifest `_put_object` uploads beside the chunks; the SDKs cut at 1 MiB. -/
def putObject (cid : Bytes → String) (chunkSize : Nat) (data : Bytes) : Manifest where
  chunkSize := chunkSize
  totalSize := data.length
  chunks := (Chunks.chunks chunkSize data).map cid

/-- The answer to the `i`-th blob fetched in one read. -/
abbrev BlobStore := (i : Nat) → (cid : String) → Except DriveError Bytes

/-- Fetch the chunks one by one, refuse one that is not what it is named, and put
the others behind one another. -/
def fetchChunks (cid : Bytes → String) (mismatch : ChunkRef → DriveError) (getBlob : BlobStore) :
    Nat → List ChunkRef → Except DriveError Bytes
  | _, [] => .ok []
  | i, c :: rest => do
    let data ← getBlob i c.cid
    Outcome.ensure (cid data = c.cid) (mismatch c)
    let behind ← fetchChunks cid mismatch getBlob (i + 1) rest
    return data ++ behind

end Sdk

namespace Py

def chunkMismatch (path : String) (c : ChunkRef) : DriveError :=
  .plain ("chunk cid mismatch at offset " ++ toString c.offset ++ " of " ++ path ++
    " (claimed " ++ String.ofList (c.cid.toList.take 16) ++ "…) — refusing corrupt data")

/-- `Drive.read`, from the plan on. -/
def read (cid : Bytes → String) (getBlob : Sdk.BlobStore) (path : String) (offset : Nat)
    (length : Option Nat) (plan : ReadPlan) : Except DriveError Bytes :=
  match plan.chunks with
  | [] => .ok []
  | first :: _ => do
    let buf ← Sdk.fetchChunks cid (chunkMismatch path) getBlob 0 plan.chunks
    let start : Int := offset - first.offset
    let stop : Int := match length with
      | none => buf.length
      | some l => start + l
    return Chunks.slice buf start stop

end Py

namespace Js

def chunkMismatch (path : String) (c : ChunkRef) : DriveError :=
  .plain ("chunk cid mismatch at offset " ++ toString c.offset ++ " of " ++ path ++
    " — refusing corrupt data")

/-- `read`, from the plan on; positions in the buffer are doubles. -/
def read (cid : Bytes → String) (getBlob : Sdk.BlobStore) (path : String) (offset : Nat)
    (length : Option Nat) (plan : ReadPlan) : Except DriveError Bytes :=
  match plan.chunks with
  | [] => .ok []
  | first :: _ => do
    let buf ← Sdk.fetchChunks cid (chunkMismatch path) getBlob 0 plan.chunks
    let start := Doubles.number (offset - first.offset)
    let stop : Int := match length with
      | none => buf.length
      | some l => Doubles.number (start + Doubles.number l)
    return Chunks.slice buf start stop

end Js

end DriveServe
