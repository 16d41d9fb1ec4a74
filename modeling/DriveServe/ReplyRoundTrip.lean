import DriveServe.SdkReplies

set_option autoImplicit false

/-! Either reply decoder against the host's encoder: what is read off a reply, and
that a reply cut short is an error. -/

namespace DriveServe

open Bincode (fields variant Text Seq Opt)
open Reader (Dec Decodes Exact Raises)

namespace Sdk

variable {dialect : Dialect} {fits : Nat → Prop} {strict : Prop} {read : String → String}

theorem variant_nil (index : Nat) : variant index [] = Bincode.u32 index := by
  simp only [variant, fields, List.flatten_cons, List.flatten_nil, List.append_nil]

/-! No element of a sequence is encoded as nothing. -/

theorem length_u64 (n : Nat) : (Bincode.u64 n).length = 8 := LittleEndian.length_encode 8 n

theorem length_str_pos (s : String) : 0 < (Bincode.str s).length := by
  rw [Bincode.str, List.length_append, length_u64]
  omega

theorem length_fields_pos {first : Bytes} {rest : List Bytes} (nonempty : 0 < first.length) :
    0 < (fields (first :: rest)).length := by
  rw [fields, List.flatten_cons, List.length_append]
  omega

theorem length_u64_pos (n : Nat) : 0 < (Bincode.u64 n).length := by
  rw [length_u64]
  omega

theorem encodeReply_append_ne_nil (r : DriveReply) (after : Bytes) :
    encodeReply r ++ after ≠ [] := by
  cases r <;> exact fun empty => nomatch empty

namespace Dialect.Sound

variable (sound : dialect.Sound fits strict read)

include sound

theorem variant {β : Type} {next : Nat → Dec DriveError β} {index : Nat} {parts : List Bytes}
    {b : β} (bounded : index < 2 ^ 32)
    (others : Decodes fits strict (next index) parts.flatten b) :
    Decodes fits strict (Dec.u32 dialect >>= next) (Bincode.variant index parts) b :=
  (sound.u32 bounded).field others

theorem entry {e : Entry} (inRange : e.InRange) :
    Decodes fits strict (Dec.entry dialect) e.encode (EntryView.of read e) := by
  have kind : Decodes fits strict (Dec.u32 dialect) (Bincode.variant e.kind.index [])
      e.kind.index := by
    rw [variant_nil]
    apply sound.u32
    cases e.kind <;> decide
  have view : EntryView.of read e =
      { path := read e.path, kind := if dialect.isDir e.kind.index then "dir" else "file",
        size := e.size, mtimeMs := e.mtimeMs, etag := read e.etag, nodeId := read e.nodeId,
        objectCid := e.objectCid.map read, docId := e.docId.map read } := by
    simp only [EntryView.of, sound.isDir, decide_eq_true_eq]
  rw [view]
  exact (sound.str inRange.path).field <| kind.field <| (sound.u64 inRange.size).field <|
    (sound.u64 inRange.mtimeMs).field <| (sound.str inRange.etag).field <|
    (sound.str inRange.nodeId).field <| (sound.optStr inRange.objectCid).field <|
    (sound.optStr inRange.docId).field (.pure _)

theorem chunkRef {c : ChunkRef} (inRange : c.InRange) :
    Decodes fits strict (Dec.chunkRef dialect) c.encode (ChunkRef.through read c) :=
  (sound.str inRange.cid).field <| (sound.u64 inRange.offset).field <|
    (sound.u64 inRange.len).field (.pure _)

theorem readPlan {plan : ReadPlan} (inRange : plan.InRange) :
    Decodes fits strict (Dec.readPlan dialect) plan.encode (ReadPlan.through read plan) := by
  have chunks := sound.seq inRange.chunks (fun c => length_fields_pos (length_str_pos c.cid))
    fun _ => sound.chunkRef
  exact (sound.str inRange.objectCid).field <| (sound.u64 inRange.totalSize).field <|
    (sound.u64 inRange.chunkSize).field <| chunks.field <|
    (sound.bool plan.encrypted).field <| (sound.optStr inRange.keyHint).field (.pure _)

/-- The index of a change kind tells its name and whether a path stands behind it. -/
theorem changeKind {kind : ChangeKind} (inRange : kind.InRange) : ∃ v back, v < 2 ^ 32 ∧
    kind.encode = Bincode.u32 v ++ back ∧ Dec.changeKind v = ChangeView.kindOf kind ∧
      Decodes fits strict (Dec.movedFrom dialect v) back (ChangeView.sourceOf read kind) := by
  cases kind with
  | created => exact ⟨0, [], by decide, rfl, rfl, .pure none⟩
  | modified => exact ⟨1, [], by decide, rfl, rfl, .pure none⟩
  | deleted => exact ⟨2, [], by decide, rfl, rfl, .pure none⟩
  | moved src =>
    refine ⟨3, Bincode.str src, by decide, ?_, rfl, (sound.str inRange).map some⟩
    simp only [ChangeKind.encode, Bincode.variant, fields, List.flatten_cons, List.flatten_nil,
      List.append_nil]

theorem change {c : Change} (inRange : c.InRange) :
    Decodes fits strict (Dec.change dialect) c.encode (ChangeView.of read c) := by
  obtain ⟨v, back, small, layout, name, source⟩ := sound.changeKind inRange.kind
  have bytes : c.encode = fields [Bincode.u64 c.seq, Bincode.str c.path, Bincode.str c.nodeId,
      Bincode.u32 v, back, Bincode.str c.etag] := by
    simp only [Change.encode, layout, fields, List.flatten_cons, List.append_assoc]
  rw [bytes, ChangeView.of, ← name]
  exact (sound.u64 inRange.seq).field <| (sound.str inRange.path).field <|
    (sound.str inRange.nodeId).field <| (sound.u32 small).field <| source.field <|
    (sound.str inRange.etag).field (.pure _)

theorem quota {quota : Quota} (inRange : quota.InRange) :
    Decodes fits strict (Dec.quota dialect) quota.encode (Quota.through read quota) :=
  (sound.str inRange.pricePerGibMonth).field <| (sound.str inRange.pricePerGibEgress).field <|
    (sound.u64 inRange.freeTierBytes).field <| (sound.bool quota.channelRequired).field (.pure _)

theorem pair {pair : String × String} (inRange : PairInRange pair) :
    Decodes fits strict (Dec.pair dialect) (encodePair pair) (pairThrough read pair) :=
  (sound.str inRange.1).field <| (sound.str inRange.2).field (.pure _)

theorem metaLink {link : MetaLink} (inRange : link.InRange) :
    Decodes fits strict (Dec.metaLink dialect) link.encode (MetaLink.through read link) :=
  (sound.str inRange.rel).field <| (sound.str inRange.target).field (.pure _)

theorem versionInfo {v : VersionInfo} (inRange : v.InRange) :
    Decodes fits strict (Dec.versionInfo dialect) v.encode (VersionInfo.through read v) :=
  (sound.u64 inRange.setAtMs).field <| (sound.str inRange.locator).field <|
    (sound.u64 inRange.size).field <| (sound.bool v.conflict).field (.pure _)

theorem strs {l : List String} (inRange : Seq Text l) :
    Decodes fits strict (Dec.seq dialect (Dec.str dialect)) (Bincode.seq Bincode.str l)
      (l.map read) :=
  sound.seq inRange length_str_pos fun _ => sound.str

theorem pairs {l : List (String × String)} (inRange : Seq PairInRange l) :
    Decodes fits strict (Dec.seq dialect (Dec.pair dialect)) (Bincode.seq encodePair l)
      (l.map (pairThrough read)) :=
  sound.seq inRange (fun pair => length_fields_pos (length_str_pos pair.1)) fun _ => sound.pair

theorem ok {ok : DriveOk} (inRange : ok.InRange) :
    Decodes fits strict (Dec.ok dialect) ok.encode (Value.of read ok).keyed := by
  cases ok with
  | opened driveRootCid serverSeq grantedAbilities quota =>
    exact sound.variant (by decide) <| (sound.str inRange.1).field <|
      (sound.u64 inRange.2.1).field <| (sound.strs inRange.2.2.1).field <|
      (sound.quota inRange.2.2.2).field (.pure _)
  | entry e => exact sound.variant (by decide) <| (sound.entry inRange).field (.pure _)
  | listing entries nextCursor =>
    have list := sound.seq inRange.1 (fun e => length_fields_pos (length_str_pos e.path))
      fun _ => sound.entry
    exact sound.variant (by decide) <| list.field <| (sound.optStr inRange.2).field (.pure _)
  | readPlan plan => exact sound.variant (by decide) <| (sound.readPlan inRange).field (.pure _)
  | written etag nodeId versionSeq =>
    exact sound.variant (by decide) <| (sound.str inRange.1).field <|
      (sound.str inRange.2.1).field <| (sound.u64 inRange.2.2).field (.pure _)
  | made nodeId => exact sound.variant (by decide) <| (sound.str inRange).field (.pure _)
  | deleted => exact sound.variant (by decide) (.pure _)
  | shared chain => exact sound.variant (by decide) <| (sound.str inRange).field (.pure _)
  | changes deltas newCursor =>
    have list := sound.seq inRange.1 (fun c => length_fields_pos (length_u64_pos c.seq))
      fun _ => sound.change
    exact sound.variant (by decide) <| list.field <| (sound.u64 inRange.2).field (.pure _)
  | watching topic cursor =>
    exact sound.variant (by decide) <| (sound.str inRange.1).field <|
      (sound.u64 inRange.2).field (.pure _)
  | metaOf nodeId props tags links =>
    have list := sound.seq inRange.2.2.2 (fun link => length_fields_pos (length_str_pos link.rel))
      fun _ => sound.metaLink
    exact sound.variant (by decide) <| (sound.str inRange.1).field <|
      (sound.pairs inRange.2.1).field <| (sound.strs inRange.2.2.1).field <| list.field (.pure _)
  | backlinks links => exact sound.variant (by decide) <| (sound.pairs inRange).field (.pure _)
  | versions history =>
    have list := sound.seq inRange (fun v => length_fields_pos (length_u64_pos v.setAtMs))
      fun _ => sound.versionInfo
    exact sound.variant (by decide) <| list.field (.pure _)

theorem raised {β : Type} {next : Nat → Dec DriveError β} {index : Nat} {parts : List Bytes}
    {e : DriveError} (bounded : index < 2 ^ 32)
    (others : Raises fits strict (next index) parts.flatten e) :
    Raises fits strict (Dec.u32 dialect >>= next) (Bincode.variant index parts) e :=
  .after (sound.u32 bounded) others

theorem raiseErr {err : DriveErr} (inRange : err.InRange) :
    Raises fits strict (Dec.raiseErr dialect : Dec DriveError Value) err.encode
      (errorOf read err) := by
  cases err with
  | unauthorized | revoked | expired | outOfScope | notFound | quotaExceeded | paymentRequired
  | badPath => exact sound.raised (by decide) (.throw _)
  | conflict currentEtag => exact sound.raised (by decide) (.after (sound.str inRange) (.throw _))
  | internal reason => exact sound.raised (by decide) (.after (sound.str inRange) (.throw _))

theorem replyOk {ok : DriveOk} (inRange : ok.InRange) :
    Decodes fits strict (Dec.reply dialect) (encodeReply (.ok ok)) (Value.of read ok).keyed := by
  have body :
      Decodes fits strict (Dec.ok dialect) [ok.encode].flatten (Value.of read ok).keyed := by
    rw [List.flatten_singleton]
    exact sound.ok inRange
  exact sound.variant (by decide) body

theorem replyErr {err : DriveErr} (inRange : err.InRange) :
    Raises fits strict (Dec.reply dialect) (encodeReply (.error err)) (errorOf read err) := by
  have body : Raises fits strict (Dec.raiseErr dialect : Dec DriveError Value)
      [err.encode].flatten (errorOf read err) := by
    rw [List.flatten_singleton]
    exact sound.raiseErr inRange
  exact sound.raised (by decide) body

theorem decReply_ok {ok : DriveOk} (inRange : ok.InRange) (after : Bytes)
    (fit : fits (encodeReply (.ok ok) ++ after).length) :
    decReply dialect (encodeReply (.ok ok) ++ after) = .ok (Value.of read ok).keyed := by
  rw [decReply, if_neg (encodeReply_append_ne_nil _ after)]
  exact (sound.replyOk inRange).run_append fit

theorem decReply_error {err : DriveErr} (inRange : err.InRange) (after : Bytes)
    (fit : fits (encodeReply (.error err) ++ after).length) :
    decReply dialect (encodeReply (.error err) ++ after) = .error (errorOf read err) := by
  rw [decReply, if_neg (encodeReply_append_ne_nil _ after)]
  exact (sound.replyErr inRange).run_append fit

/-- A reply cut short is an error. -/
theorem decReply_cut (isStrict : strict) {r : DriveReply} (inRange : ReplyInRange r)
    {part : Bytes} (fit : fits part.length) (initial : part <+: encodeReply r)
    (proper : part ≠ encodeReply r) : ∃ e, decReply dialect part = .error e := by
  rw [decReply]
  split
  · exact ⟨_, rfl⟩
  · cases r with
    | ok ok => exact Reader.run_cut ((sound.replyOk inRange).cut isStrict) fit initial proper
    | error err => exact Reader.run_cut ((sound.replyErr inRange).cut isStrict) fit initial proper

end Dialect.Sound

end Sdk

/-- The etag an error hands the caller. -/
def DriveErr.currentEtag : DriveErr → Option String
  | .conflict currentEtag => some currentEtag
  | _ => none

/-- A dict keeps every prop of a reply. -/
def DistinctPropKeys : DriveReply → Prop
  | .ok (.metaOf _ props _ _) => (props.map Prod.fst).Nodup
  | _ => True

theorem Sdk.keyed_of_distinct {ok : DriveOk} (distinct : DistinctPropKeys (.ok ok)) :
    (Value.of id ok).keyed = Value.of id ok := by
  cases ok with
  | metaOf nodeId props tags links =>
    have same : props.map (pairThrough id) = props := List.map_id props
    simp only [Value.of, Value.keyed, same]
    rw [dict_of_nodup distinct]
  | _ => rfl

theorem Sdk.errorOf_id (err : DriveErr) : errorOf id err =
    { message := err.display, code := some err.code, currentEtag := err.currentEtag } := by
  cases err <;> rfl

namespace Py

def dialect : Sdk.Dialect where
  number := id
  text := Utf8.decode
  isDir kind := kind != 0
  ended wanted pos have' := "truncated reply: wanted " ++ toString wanted ++ " bytes at offset " ++
    toString pos ++ ", have " ++ toString have'

def decReply (payload : Bytes) : Except DriveError Sdk.Value := Sdk.decReply dialect payload

theorem dialect_sound : dialect.Sound (fun _ => True) True id where
  exact := Bincode.exact_id
  text := Utf8.decode_encode
  isDir kind := by cases kind <;> rfl

/-- A reply is read for what it is, whatever stands behind it, and never when it is
cut short. -/
structure ReadsReply (r : DriveReply) : Prop where
  value : ∀ ok, r = .ok ok → ∀ after,
    decReply (encodeReply r ++ after) = .ok (Sdk.Value.of id ok)
  raised : ∀ err, r = .error err → ∀ after, decReply (encodeReply r ++ after) =
    .error { message := err.display, code := some err.code, currentEtag := err.currentEtag }
  cut : ∀ part, part <+: encodeReply r → part ≠ encodeReply r → ∃ e, decReply part = .error e

/-- The Python decoder inverts the host's encoder. -/
theorem readsReply {r : DriveReply} (inRange : ReplyInRange r) (distinct : DistinctPropKeys r) :
    ReadsReply r where
  value ok is after := by
    subst is
    have decoded := dialect_sound.decReply_ok inRange after trivial
    rwa [Sdk.keyed_of_distinct distinct] at decoded
  raised err is after := by
    subst is
    have decoded := dialect_sound.decReply_error inRange after trivial
    rwa [Sdk.errorOf_id] at decoded
  cut part initial proper := dialect_sound.decReply_cut trivial inRange trivial initial proper

theorem taggedMeta_read :
    ReadsReply (.ok (.metaOf "n1" [("k", "v")] ["t"] [⟨"cites", "/b"⟩])) := by
  have pair : PairInRange ("k", "v") := ⟨by decide, by decide⟩
  have link : MetaLink.InRange ⟨"cites", "/b"⟩ := ⟨by decide, by decide⟩
  apply readsReply
  · exact ⟨by decide, ⟨by decide, by simpa using pair⟩, by decide, by decide, by simpa using link⟩
  · exact List.nodup_singleton "k"

end Py

end DriveServe
