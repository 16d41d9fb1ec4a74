import DriveServe.Sdk
import DriveServe.WireCodec

set_option autoImplicit false

/-! The reply decoder of the two client SDKs. They read the same fields in the same
order and differ in the primitives below, which a `Dialect` names. -/

namespace DriveServe

open Bincode (fields variant Text Seq Opt)
open Reader (Dec Decodes Exact Raises)

namespace Sdk

/-- How a decoder holds a number used as a length or a position, how it reads text,
when it takes a kind for a directory, and what it says of a short buffer. -/
structure Dialect where
  number : Nat → Nat
  text : Bytes → String
  isDir : Nat → Bool
  ended : (wanted pos have' : Nat) → String

structure EntryView where
  path : String
  kind : String
  size : Nat
  mtimeMs : Nat
  etag : String
  nodeId : String
  objectCid : Option String
  docId : Option String
  deriving DecidableEq, Repr

structure ChangeView where
  seq : Nat
  path : String
  nodeId : String
  kind : String
  etag : String
  movedFrom : Option String
  deriving DecidableEq, Repr

/-- What a reply is turned into for the caller. -/
inductive Value where
  | opened (driveRootCid : String) (serverSeq : Nat) (grantedAbilities : List String)
      (quota : Quota)
  | entry (entry : EntryView)
  | listing (entries : List EntryView) (nextCursor : Option String)
  | readPlan (plan : ReadPlan)
  | written (etag nodeId : String) (versionSeq : Nat)
  | made (nodeId : String)
  | deleted
  | shared (chain : String)
  | changes (changes : List ChangeView) (newCursor : Nat)
  | watching (topic : String) (cursor : Nat)
  | metaOf (nodeId : String) (props : List (String × String)) (tags : List String)
      (links : List MetaLink)
  | backlinks (links : List (String × String))
  | versions (versions : List VersionInfo)
  deriving DecidableEq, Repr

/-- Set one key: a value takes the place of the one that stands under the key. -/
def dictSet (held : List (String × String)) (pair : String × String) : List (String × String) :=
  if pair.1 ∈ held.map Prod.fst then
    held.map fun old => if old.1 = pair.1 then pair else old
  else held ++ [pair]

/-- A dict built from pairs: the last value of a key stands where the key came first.
A JavaScript object may enumerate its keys in another order, not hold others. -/
def dict (pairs : List (String × String)) : List (String × String) := pairs.foldl dictSet []

theorem foldl_dictSet {held pairs : List (String × String)}
    (distinct : ((held ++ pairs).map Prod.fst).Nodup) :
    pairs.foldl dictSet held = held ++ pairs := by
  induction pairs generalizing held with
  | nil => rw [List.append_nil, List.foldl_nil]
  | cons pair rest ih =>
    have apart : pair.1 ∉ held.map Prod.fst := by
      rw [List.map_append, List.nodup_append] at distinct
      intro member
      exact distinct.2.2 _ member pair.1 (by simp) rfl
    rw [List.foldl_cons, dictSet, if_neg apart, ih, List.append_assoc, List.singleton_append]
    rwa [List.append_assoc, List.singleton_append]

theorem dict_of_nodup {pairs : List (String × String)} (distinct : (pairs.map Prod.fst).Nodup) :
    dict pairs = pairs := foldl_dictSet distinct

theorem length_foldl_dictSet_le (held pairs : List (String × String)) :
    (pairs.foldl dictSet held).length ≤ held.length + pairs.length := by
  induction pairs generalizing held with
  | nil => exact Nat.le_refl _
  | cons pair rest ih =>
    have further := ih (dictSet held pair)
    have added : (dictSet held pair).length ≤ held.length + 1 := by
      rw [dictSet]
      split
      · rw [List.length_map]
        omega
      · simp
    rw [List.foldl_cons, List.length_cons]
    omega

/-- A dict that holds as many values as it was given had no key twice. -/
theorem nodup_of_length_foldl_dictSet {held pairs : List (String × String)}
    (distinct : (held.map Prod.fst).Nodup)
    (full : (pairs.foldl dictSet held).length = held.length + pairs.length) :
    ((held ++ pairs).map Prod.fst).Nodup := by
  induction pairs generalizing held with
  | nil => rwa [List.append_nil]
  | cons pair rest ih =>
    rw [List.foldl_cons, List.length_cons] at full
    have bounded := length_foldl_dictSet_le (dictSet held pair) rest
    by_cases member : pair.1 ∈ held.map Prod.fst
    · have replaced : (dictSet held pair).length = held.length := by
        rw [dictSet, if_pos member, List.length_map]
      omega
    · have added : dictSet held pair = held ++ [pair] := by rw [dictSet, if_neg member]
      have apart : ((held ++ [pair]).map Prod.fst).Nodup := by
        rw [List.map_append, List.nodup_append]
        refine ⟨distinct, by simp, ?_⟩
        intro key held' other here same
        rw [List.map_singleton, List.mem_singleton] at here
        exact member (here ▸ same ▸ held')
      have sum : (held ++ [pair]).length = held.length + 1 := by simp
      rw [added] at full
      have whole := ih apart (by omega)
      rwa [List.append_assoc, List.singleton_append] at whole

theorem nodup_of_length_dict {pairs : List (String × String)}
    (full : (dict pairs).length = pairs.length) : (pairs.map Prod.fst).Nodup := by
  have start : (([] : List (String × String)).map Prod.fst).Nodup := List.nodup_nil
  have sum : (pairs.foldl dictSet []).length = ([] : List (String × String)).length +
      pairs.length := by rw [List.length_nil, Nat.zero_add]; exact full
  have whole := nodup_of_length_foldl_dictSet start sum
  rwa [List.nil_append] at whole

namespace Dec

variable (dialect : Dialect)

def ended (wanted pos have' : Nat) : DriveError := .plain (dialect.ended wanted pos have')

def u8 : Dec DriveError Nat := Reader.int dialect.number (ended dialect) 1

def u32 : Dec DriveError Nat := Reader.int dialect.number (ended dialect) 4

def u64 : Dec DriveError Nat := Reader.int dialect.number (ended dialect) 8

def bool : Dec DriveError Bool := do
  let tag ← u8 dialect
  return tag != 0

def str : Dec DriveError String := do
  let n ← u64 dialect
  let raw ← Reader.take dialect.number (ended dialect) (dialect.number n)
  return dialect.text raw

def optStr : Dec DriveError (Option String) := do
  let tag ← u8 dialect
  if tag != 0 then do
    let s ← str dialect
    return some s
  else return none

def seq {α : Type} (readOne : Dec DriveError α) : Dec DriveError (List α) := do
  let n ← u64 dialect
  Reader.times readOne (dialect.number n)

def entry : Dec DriveError EntryView := do
  let path ← str dialect
  let kind ← u32 dialect
  let size ← u64 dialect
  let mtimeMs ← u64 dialect
  let etag ← str dialect
  let nodeId ← str dialect
  let objectCid ← optStr dialect
  let docId ← optStr dialect
  return { path, kind := if dialect.isDir kind then "dir" else "file", size, mtimeMs, etag,
           nodeId, objectCid, docId }

def chunkRef : Dec DriveError ChunkRef := do
  let cid ← str dialect
  let offset ← u64 dialect
  let len ← u64 dialect
  return { cid, offset, len }

def readPlan : Dec DriveError ReadPlan := do
  let objectCid ← str dialect
  let totalSize ← u64 dialect
  let chunkSize ← u64 dialect
  let chunks ← seq dialect (chunkRef dialect)
  let encrypted ← bool dialect
  let keyHint ← optStr dialect
  return { objectCid, totalSize, chunkSize, chunks, encrypted, keyHint }

def changeKind (v : Nat) : String :=
  (["created", "modified", "deleted", "moved"][v]?).getD "unknown"

/-- A change of kind `Moved` carries where its node was. -/
def movedFrom (v : Nat) : Dec DriveError (Option String) := do
  if v = 3 then do
    let src ← str dialect
    return some src
  else return none

def change : Dec DriveError ChangeView := do
  let seq ← u64 dialect
  let path ← str dialect
  let nodeId ← str dialect
  let v ← u32 dialect
  let movedFrom ← movedFrom dialect v
  let etag ← str dialect
  return { seq, path, nodeId, kind := changeKind v, etag, movedFrom }

def quota : Dec DriveError Quota := do
  let pricePerGibMonth ← str dialect
  let pricePerGibEgress ← str dialect
  let freeTierBytes ← u64 dialect
  let channelRequired ← bool dialect
  return { pricePerGibMonth, pricePerGibEgress, freeTierBytes, channelRequired }

def pair : Dec DriveError (String × String) := do
  let first ← str dialect
  let second ← str dialect
  return (first, second)

def metaLink : Dec DriveError MetaLink := do
  let rel ← str dialect
  let target ← str dialect
  return { rel, target }

def versionInfo : Dec DriveError VersionInfo := do
  let setAtMs ← u64 dialect
  let locator ← str dialect
  let size ← u64 dialect
  let conflict ← bool dialect
  return { setAtMs, locator, size, conflict }

def ok : Dec DriveError Value := do
  match ← u32 dialect with
  | 0 => do
    let driveRootCid ← str dialect
    let serverSeq ← u64 dialect
    let grantedAbilities ← seq dialect (str dialect)
    let quota ← quota dialect
    return .opened driveRootCid serverSeq grantedAbilities quota
  | 1 => do
    let entry ← entry dialect
    return .entry entry
  | 2 => do
    let entries ← seq dialect (entry dialect)
    let nextCursor ← optStr dialect
    return .listing entries nextCursor
  | 3 => do
    let plan ← readPlan dialect
    return .readPlan plan
  | 4 => do
    let etag ← str dialect
    let nodeId ← str dialect
    let versionSeq ← u64 dialect
    return .written etag nodeId versionSeq
  | 5 => do
    let nodeId ← str dialect
    return .made nodeId
  | 6 => return .deleted
  | 7 => do
    let chain ← str dialect
    return .shared chain
  | 8 => do
    let changes ← seq dialect (change dialect)
    let newCursor ← u64 dialect
    return .changes changes newCursor
  | 9 => do
    let topic ← str dialect
    let cursor ← u64 dialect
    return .watching topic cursor
  | 10 => do
    let nodeId ← str dialect
    let props ← seq dialect (pair dialect)
    let tags ← seq dialect (str dialect)
    let links ← seq dialect (metaLink dialect)
    return .metaOf nodeId (dict props) tags links
  | 11 => do
    let links ← seq dialect (pair dialect)
    return .backlinks links
  | 12 => do
    let versions ← seq dialect (versionInfo dialect)
    return .versions versions
  | v => throw (.plain ("unknown DriveOk variant " ++ toString v ++
      " (host is newer than this SDK)"))

/-- `DriveErr` variant index to code and message. -/
def errs (v : Nat) : Nat × String :=
  [(401, "unauthorized"), (410, "capability revoked"), (419, "capability expired"),
    (403, "path outside granted scope"), (404, "not found"), (409, "conflict"),
    (429, "quota exceeded"), (402, "payment required"), (400, "bad path"),
    (500, "internal error")][v]?.getD (500, "unknown error variant " ++ toString v)

def raiseErr {α : Type} : Dec DriveError α := do
  let v ← u32 dialect
  let (code, message) := errs v
  if v = 5 then do
    let etag ← str dialect
    throw { message := "conflict (current etag " ++ etag ++ ")", code := some code,
            currentEtag := some etag }
  else if v = 9 then do
    let reason ← str dialect
    throw { message := "internal error: " ++ reason, code := some code, currentEtag := none }
  else throw { message, code := some code, currentEtag := none }

def reply : Dec DriveError Value := do
  let result ← u32 dialect
  if result ≠ 0 then raiseErr dialect else ok dialect

end Dec

/-- `_dec_reply` and `decodeReply`. -/
def decReply (dialect : Dialect) (payload : Bytes) : Except DriveError Value :=
  if payload = [] then
    .error (.plain "empty reply from drive host (no provider, or it dropped the request)")
  else Reader.run (Dec.reply dialect) payload

/-! What a decoder hands over, when each text comes out as `read` says. -/

section

variable (read : String → String)

def EntryView.of (e : Entry) : EntryView where
  path := read e.path
  kind := if e.kind = .dir then "dir" else "file"
  size := e.size
  mtimeMs := e.mtimeMs
  etag := read e.etag
  nodeId := read e.nodeId
  objectCid := e.objectCid.map read
  docId := e.docId.map read

def ChunkRef.through (c : ChunkRef) : ChunkRef := { c with cid := read c.cid }

def ReadPlan.through (plan : ReadPlan) : ReadPlan :=
  { plan with
    objectCid := read plan.objectCid
    chunks := plan.chunks.map (ChunkRef.through read)
    keyHint := plan.keyHint.map read }

def ChangeView.kindOf : ChangeKind → String
  | .created => "created"
  | .modified => "modified"
  | .deleted => "deleted"
  | .moved _ => "moved"

def ChangeView.sourceOf : ChangeKind → Option String
  | .created | .modified | .deleted => none
  | .moved src => some (read src)

def ChangeView.of (c : Change) : ChangeView where
  seq := c.seq
  path := read c.path
  nodeId := read c.nodeId
  kind := ChangeView.kindOf c.kind
  etag := read c.etag
  movedFrom := ChangeView.sourceOf read c.kind

def Quota.through (quota : Quota) : Quota :=
  { quota with
    pricePerGibMonth := read quota.pricePerGibMonth
    pricePerGibEgress := read quota.pricePerGibEgress }

def pairThrough (pair : String × String) : String × String := (read pair.1, read pair.2)

def MetaLink.through (link : MetaLink) : MetaLink :=
  { rel := read link.rel, target := read link.target }

def VersionInfo.through (v : VersionInfo) : VersionInfo := { v with locator := read v.locator }

/-- The value that carries every field of a reply. -/
def Value.of : DriveOk → Value
  | .opened driveRootCid serverSeq grantedAbilities quota =>
    .opened (read driveRootCid) serverSeq (grantedAbilities.map read) (Quota.through read quota)
  | .entry e => .entry (EntryView.of read e)
  | .listing entries nextCursor => .listing (entries.map (EntryView.of read)) (nextCursor.map read)
  | .readPlan plan => .readPlan (ReadPlan.through read plan)
  | .written etag nodeId versionSeq => .written (read etag) (read nodeId) versionSeq
  | .made nodeId => .made (read nodeId)
  | .deleted => .deleted
  | .shared chain => .shared (read chain)
  | .changes deltas newCursor => .changes (deltas.map (ChangeView.of read)) newCursor
  | .watching topic cursor => .watching (read topic) cursor
  | .metaOf nodeId props tags links =>
    .metaOf (read nodeId) (props.map (pairThrough read)) (tags.map read)
      (links.map (MetaLink.through read))
  | .backlinks links => .backlinks (links.map (pairThrough read))
  | .versions history => .versions (history.map (VersionInfo.through read))

/-- The error a refusal is raised as. -/
def errorOf (err : DriveErr) : DriveError :=
  match err with
  | .conflict currentEtag =>
    { message := "conflict (current etag " ++ read currentEtag ++ ")", code := some err.code,
      currentEtag := some (read currentEtag) }
  | .internal reason =>
    { message := "internal error: " ++ read reason, code := some err.code, currentEtag := none }
  | _ => { message := err.display, code := some err.code, currentEtag := none }

end

/-- The value with its props read into a dict. -/
def Value.keyed : Value → Value
  | .metaOf nodeId props tags links => .metaOf nodeId (dict props) tags links
  | value => value

/-- What the proofs need of a dialect: numbers are held exactly where they fit, text
is read as `read` says, and a kind is what its index says. -/
structure Dialect.Sound (dialect : Dialect) (fits : Nat → Prop) (strict : Prop)
    (read : String → String) : Prop where
  exact : Exact dialect.number fits strict
  text : ∀ s, dialect.text (Utf8.encode s) = read s
  isDir : ∀ kind : EntryKind, dialect.isDir kind.index = decide (kind = .dir)

section

variable {dialect : Dialect} {fits : Nat → Prop} {strict : Prop} {read : String → String}
  (sound : dialect.Sound fits strict read)

namespace Dialect.Sound

include sound

theorem u8 {n : Nat} (bounded : n < 256) :
    Decodes fits strict (Dec.u8 dialect) [UInt8.ofNat n] n := by
  have decoded : Decodes fits strict (Dec.u8 dialect) (LittleEndian.encode 1 n) n :=
    Reader.decodes_int sound.exact _ (by omega)
  have low : n % 256 = n := by omega
  rwa [LittleEndian.encode, LittleEndian.encode, low] at decoded

theorem u32 {n : Nat} (bounded : n < 2 ^ 32) :
    Decodes fits strict (Dec.u32 dialect) (Bincode.u32 n) n :=
  Reader.decodes_int sound.exact _ (by omega : n < 256 ^ 4)

theorem u64 {n : Nat} (bounded : n < 2 ^ 64) :
    Decodes fits strict (Dec.u64 dialect) (Bincode.u64 n) n :=
  Reader.decodes_int sound.exact _ (by omega : n < 256 ^ 8)

theorem bool (b : Bool) : Decodes fits strict (Dec.bool dialect) (Bincode.bool b) b := by
  cases b with
  | false => exact (sound.u8 (n := 0) (by omega)).map (· != 0)
  | true => exact (sound.u8 (n := 1) (by omega)).map (· != 0)

theorem str {s : String} (inRange : Text s) :
    Decodes fits strict (Dec.str dialect) (Bincode.str s) (read s) := by
  have raw := Reader.decodes_take sound.exact (Dec.ended dialect) (Utf8.encode s)
  have counted := Decodes.counted sound.exact (Nat.le_refl _) raw
  have text := counted.map dialect.text
  rw [sound.text] at text
  exact (sound.u64 inRange).bind text

theorem optStr {o : Option String} (inRange : Opt Text o) :
    Decodes fits strict (Dec.optStr dialect) (Bincode.opt Bincode.str o) (o.map read) := by
  cases o with
  | none => exact (sound.u8 (n := 0) (by omega)).last (.pure none)
  | some s => exact (sound.u8 (n := 1) (by omega)).bind ((sound.str (inRange s rfl)).map some)

theorem seq {α β : Type} {readOne : Dec DriveError β} {encode : α → Bytes} {f : α → β}
    {ok : α → Prop} {l : List α} (inRange : Seq ok l) (nonempty : ∀ a, 0 < (encode a).length)
    (each : ∀ a, ok a → Decodes fits strict readOne (encode a) (f a)) :
    Decodes fits strict (Dec.seq dialect readOne) (Bincode.seq encode l) (l.map f) := by
  have elements := Decodes.times fun a member => each a (inRange.2 a member)
  have bounded := Reader.length_le_flatMap fun a (_ : a ∈ l) => nonempty a
  exact (sound.u64 inRange.1).bind (Decodes.counted sound.exact bounded elements)

end Dialect.Sound

end

end Sdk

end DriveServe
