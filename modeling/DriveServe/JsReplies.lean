import DriveServe.ReplyRoundTrip
import DriveServe.SdkRequests
import Mathlib.Data.List.Basic

set_option autoImplicit false

/-! What the JavaScript reply decoder makes of a reply: the byte order mark its text
primitive takes off, and which replies come through as they are. -/

namespace DriveServe

open Bincode (Text Seq Opt)

/-! The texts a reply carries. -/

def Entry.texts (e : Entry) : List String :=
  [e.path, e.etag, e.nodeId] ++ e.objectCid.toList ++ e.docId.toList

def ReadPlan.texts (plan : ReadPlan) : List String :=
  plan.objectCid :: plan.chunks.map ChunkRef.cid ++ plan.keyHint.toList

def ChangeKind.texts : ChangeKind → List String
  | .created | .modified | .deleted => []
  | .moved src => [src]

def Change.texts (c : Change) : List String := [c.path, c.nodeId, c.etag] ++ c.kind.texts

def MetaLink.texts (link : MetaLink) : List String := [link.rel, link.target]

def Quota.texts (quota : Quota) : List String :=
  [quota.pricePerGibMonth, quota.pricePerGibEgress]

def pairTexts (pair : String × String) : List String := [pair.1, pair.2]

def DriveOk.texts : DriveOk → List String
  | .opened driveRootCid _ grantedAbilities quota =>
    driveRootCid :: grantedAbilities ++ quota.texts
  | .entry e => e.texts
  | .listing entries nextCursor => entries.flatMap Entry.texts ++ nextCursor.toList
  | .readPlan plan => plan.texts
  | .written etag nodeId _ => [etag, nodeId]
  | .made nodeId => [nodeId]
  | .deleted => []
  | .shared chain => [chain]
  | .changes deltas _ => deltas.flatMap Change.texts
  | .watching topic _ => [topic]
  | .metaOf nodeId props tags links =>
    nodeId :: props.flatMap pairTexts ++ tags ++ links.flatMap MetaLink.texts
  | .backlinks links => links.flatMap pairTexts
  | .versions history => history.map VersionInfo.locator

def DriveErr.texts : DriveErr → List String
  | .conflict text | .internal text => [text]
  | .unauthorized | .revoked | .expired | .outOfScope | .notFound => []
  | .quotaExceeded | .paymentRequired | .badPath => []

def replyTexts : DriveReply → List String
  | .ok ok => ok.texts
  | .error err => err.texts

namespace Sdk

/-! A value read through `read` is the value itself exactly where `read` leaves every
text of the reply. -/

variable {read : String → String}

/-- `read` leaves each of the texts. -/
def Fixes (read : String → String) (texts : List String) : Prop := ∀ s ∈ texts, read s = s

theorem fixes_cons {s : String} {rest : List String} :
    Fixes read (s :: rest) ↔ read s = s ∧ Fixes read rest := List.forall_mem_cons

theorem fixes_nil : Fixes read [] := List.forall_mem_nil _

theorem fixes_append {front back : List String} :
    Fixes read (front ++ back) ↔ Fixes read front ∧ Fixes read back := List.forall_mem_append

theorem fixes_flatMap {α : Type} {texts : α → List String} {l : List α} :
    Fixes read (l.flatMap texts) ↔ ∀ a ∈ l, Fixes read (texts a) := List.forall_mem_flatMap

theorem fixes_map {α : Type} {text : α → String} {l : List α} :
    Fixes read (l.map text) ↔ ∀ a ∈ l, read (text a) = text a := List.forall_mem_map

theorem map_opt_iff {o : Option String} : o.map read = o.map id ↔ Fixes read o.toList := by
  cases o with
  | none => simp [fixes_nil]
  | some s => simp [fixes_cons, fixes_nil]

theorem map_texts_iff {l : List String} : l.map read = l.map id ↔ Fixes read l := List.map_inj_left

/-- Elements that are told apart by their texts make up lists that are. -/
theorem map_iff {α β : Type} {f g : α → β} {texts : α → List String}
    (each : ∀ a, f a = g a ↔ Fixes read (texts a)) {l : List α} :
    l.map f = l.map g ↔ Fixes read (l.flatMap texts) := by
  rw [List.map_inj_left, fixes_flatMap]
  exact forall₂_congr fun a _ => each a

theorem entry_iff (e : Entry) : EntryView.of read e = EntryView.of id e ↔ Fixes read e.texts := by
  simp only [EntryView.of, EntryView.mk.injEq, id, map_opt_iff, Entry.texts, fixes_append,
    fixes_cons, fixes_nil, and_true, true_and]
  tauto

theorem chunk_iff (c : ChunkRef) :
    ChunkRef.through read c = ChunkRef.through id c ↔ read c.cid = c.cid := by
  simp only [ChunkRef.through, ChunkRef.mk.injEq, id, and_true]

theorem readPlan_iff (plan : ReadPlan) :
    ReadPlan.through read plan = ReadPlan.through id plan ↔ Fixes read plan.texts := by
  have chunks : plan.chunks.map (ChunkRef.through read) = plan.chunks.map (ChunkRef.through id) ↔
      Fixes read (plan.chunks.map ChunkRef.cid) := by
    rw [List.map_inj_left, fixes_map]
    exact forall₂_congr fun c _ => chunk_iff c
  simp only [ReadPlan.through, ReadPlan.mk.injEq, chunks, id, map_opt_iff, ReadPlan.texts,
    fixes_append, fixes_cons, true_and, List.cons_append]

theorem kind_iff (kind : ChangeKind) :
    ChangeView.sourceOf read kind = ChangeView.sourceOf id kind ↔ Fixes read kind.texts := by
  cases kind <;> simp [ChangeView.sourceOf, ChangeKind.texts, fixes_cons, fixes_nil]

theorem change_iff (c : Change) :
    ChangeView.of read c = ChangeView.of id c ↔ Fixes read c.texts := by
  simp only [ChangeView.of, ChangeView.mk.injEq, id, kind_iff, Change.texts, fixes_append,
    fixes_cons, fixes_nil, and_true, true_and]
  tauto

theorem quota_iff (quota : Quota) :
    Quota.through read quota = Quota.through id quota ↔ Fixes read quota.texts := by
  simp only [Quota.through, Quota.mk.injEq, id, Quota.texts, fixes_cons, fixes_nil, and_true]

theorem pair_iff (pair : String × String) :
    pairThrough read pair = pairThrough id pair ↔ Fixes read (pairTexts pair) := by
  simp only [pairThrough, Prod.mk.injEq, id, pairTexts, fixes_cons, fixes_nil, and_true]

theorem metaLink_iff (link : MetaLink) :
    MetaLink.through read link = MetaLink.through id link ↔ Fixes read link.texts := by
  simp only [MetaLink.through, MetaLink.mk.injEq, id, MetaLink.texts, fixes_cons, fixes_nil,
    and_true]

theorem version_iff (v : VersionInfo) :
    VersionInfo.through read v = VersionInfo.through id v ↔ read v.locator = v.locator := by
  simp only [VersionInfo.through, VersionInfo.mk.injEq, id, true_and, and_true]

/-- A dict of altered pairs is the pairs as they were only if none was altered and no
key came twice. -/
theorem dict_iff {props : List (String × String)} :
    dict (props.map (pairThrough read)) = props.map (pairThrough id) ↔
      Fixes read (props.flatMap pairTexts) ∧ (props.map Prod.fst).Nodup := by
  have plain : props.map (pairThrough id) = props := List.map_id props
  rw [← map_iff pair_iff, plain]
  constructor
  · intro same
    have full : (dict (props.map (pairThrough read))).length =
        (props.map (pairThrough read)).length := by rw [same, List.length_map]
    have distinct := nodup_of_length_dict full
    rw [dict_of_nodup distinct] at same
    rw [same] at distinct
    exact ⟨same, distinct⟩
  · intro ⟨same, distinct⟩
    rw [same, dict_of_nodup distinct]

/-- What a success reply is read as is its own value exactly where no text of it is
altered and no prop stands under a key twice. -/
theorem value_iff (ok : DriveOk) : (Value.of read ok).keyed = Value.of id ok ↔
    Fixes read ok.texts ∧ DistinctPropKeys (.ok ok) := by
  cases ok with
  | metaOf nodeId props tags links =>
    simp only [Value.of, Value.keyed, Value.metaOf.injEq, id, dict_iff, map_texts_iff,
      map_iff metaLink_iff, DriveOk.texts, DistinctPropKeys, fixes_append, fixes_cons,
      List.cons_append]
    tauto
  | opened driveRootCid serverSeq grantedAbilities quota =>
    simp only [Value.of, Value.keyed, Value.opened.injEq, id, map_texts_iff, quota_iff,
      DriveOk.texts, DistinctPropKeys, fixes_append, fixes_cons, List.cons_append, and_true,
      true_and]
  | entry e =>
    simp only [Value.of, Value.keyed, Value.entry.injEq, entry_iff, DriveOk.texts,
      DistinctPropKeys, and_true]
  | listing entries nextCursor =>
    simp only [Value.of, Value.keyed, Value.listing.injEq, map_iff entry_iff, map_opt_iff,
      DriveOk.texts, DistinctPropKeys, fixes_append, and_true]
  | readPlan plan =>
    simp only [Value.of, Value.keyed, Value.readPlan.injEq, readPlan_iff, DriveOk.texts,
      DistinctPropKeys, and_true]
  | written etag nodeId versionSeq =>
    simp only [Value.of, Value.keyed, Value.written.injEq, id, DriveOk.texts, DistinctPropKeys,
      fixes_cons, fixes_nil, and_true]
  | made text | shared text =>
    simp only [Value.of, Value.keyed, Value.made.injEq, Value.shared.injEq, id, DriveOk.texts,
      DistinctPropKeys, fixes_cons, fixes_nil, and_true]
  | deleted =>
    simp only [Value.of, Value.keyed, DriveOk.texts, DistinctPropKeys, fixes_nil, and_true]
  | changes deltas newCursor =>
    simp only [Value.of, Value.keyed, Value.changes.injEq, map_iff change_iff, DriveOk.texts,
      DistinctPropKeys, and_true]
  | watching topic cursor =>
    simp only [Value.of, Value.keyed, Value.watching.injEq, id, DriveOk.texts, DistinctPropKeys,
      fixes_cons, fixes_nil, and_true]
  | backlinks links =>
    simp only [Value.of, Value.keyed, Value.backlinks.injEq, map_iff pair_iff, DriveOk.texts,
      DistinctPropKeys, and_true]
  | versions history =>
    simp only [Value.of, Value.keyed, Value.versions.injEq, List.map_inj_left, version_iff,
      DriveOk.texts, DistinctPropKeys, fixes_map, and_true]

theorem error_iff (err : DriveErr) : errorOf read err = errorOf id err ↔ Fixes read err.texts := by
  cases err with
  | conflict currentEtag =>
    rw [DriveErr.texts, fixes_cons]
    constructor
    · intro same
      have etag : some (read currentEtag) = some currentEtag :=
        congrArg DriveError.currentEtag same
      exact ⟨Option.some.inj etag, fixes_nil⟩
    · intro ⟨same, _⟩
      exact congrArg (fun etag => errorOf id (.conflict etag)) same
  | internal reason =>
    rw [DriveErr.texts, fixes_cons]
    constructor
    · intro same
      have message : "internal error: " ++ read reason = "internal error: " ++ reason :=
        congrArg DriveError.message same
      exact ⟨(String.append_right_inj _).mp message, fixes_nil⟩
    · intro ⟨same, _⟩
      exact congrArg (fun reason => errorOf id (.internal reason)) same
  | _ => exact iff_of_true rfl fixes_nil

end Sdk

namespace Js

def byteOrderMark : Char := '\uFEFF'

/-- The text begins with the character that also serves as a byte order mark. -/
def Marked (s : String) : Prop := s.toList.head? = some byteOrderMark

instance (s : String) : Decidable (Marked s) := inferInstanceAs (Decidable (_ = _))

def stripMark (s : String) : String := if Marked s then String.ofList s.toList.tail else s

/-- `new TextDecoder().decode`: `ignoreBOM` is false by default, so a mark in front is
taken off. -/
def textDecode (bytes : Bytes) : String := stripMark (Utf8.decode bytes)

/-- `digits` is how a number is written into a text. -/
def dialect (digits : Nat → String) : Sdk.Dialect where
  number := Doubles.nearest
  text := textDecode
  isDir kind := kind == 1
  ended wanted pos have' := "truncated reply: wanted " ++ digits wanted ++ " bytes at " ++
    digits pos ++ ", have " ++ digits have'

def decodeReply (digits : Nat → String) (payload : Bytes) : Except DriveError Sdk.Value :=
  Sdk.decReply (dialect digits) payload

theorem stripMark_eq_iff {s : String} : stripMark s = s ↔ ¬ Marked s := by
  by_cases marked : Marked s
  · have shorter : String.ofList s.toList.tail ≠ s := by
      intro same
      have length := congrArg (fun text => text.toList.length) same
      have nonempty : s.toList ≠ [] := by
        intro empty
        rw [Marked, empty] at marked
        cases marked
      have positive := List.length_pos_iff.mpr nonempty
      simp only [String.toList_ofList, List.length_tail] at length
      omega
    rw [stripMark, if_pos marked]
    exact iff_of_false shorter (not_not_intro marked)
  · rw [stripMark, if_neg marked]
    exact iff_of_true rfl marked

theorem fixes_stripMark_iff {texts : List String} :
    Sdk.Fixes stripMark texts ↔ ∀ s ∈ texts, ¬ Marked s :=
  forall₂_congr fun _ _ => stripMark_eq_iff

theorem textDecode_encode (s : String) : textDecode (Utf8.encode s) = stripMark s := by
  rw [textDecode, Utf8.decode_encode]

theorem dialect_sound (digits : Nat → String) :
    (dialect digits).Sound (· < 2 ^ 53) False stripMark where
  exact := by
    refine ⟨fun m n smaller small => Doubles.nearest_of_lt ?_, fun impossible => impossible.elim⟩
    exact Nat.lt_of_le_of_lt smaller small
  text s := by
    dsimp only [dialect]
    exact textDecode_encode s
  isDir kind := by cases kind <;> rfl

/-- A reply is read with every field as it is, and what text of it the caller sends
back is the bytes it came as. -/
structure ReadsReply (digits : Nat → String) (r : DriveReply) : Prop where
  value : ∀ ok, r = .ok ok →
    decodeReply digits (encodeReply r) = .ok (Sdk.Value.of id ok)
  raised : ∀ err, r = .error err → decodeReply digits (encodeReply r) =
    .error { message := err.display, code := some err.code, currentEtag := err.currentEtag }
  sentBack : ∀ s ∈ replyTexts r, Enc.str (textDecode (Utf8.encode s)) = Bincode.str s

/-- What the JavaScript decoder makes of an encoded reply. -/
theorem decodeReply_ok (digits : Nat → String) {ok : DriveOk} (inRange : ok.InRange)
    (fit : (encodeReply (.ok ok)).length < 2 ^ 53) :
    decodeReply digits (encodeReply (.ok ok)) = .ok (Sdk.Value.of stripMark ok).keyed := by
  have decoded := (dialect_sound digits).decReply_ok inRange []
  rw [List.append_nil] at decoded
  exact decoded fit

theorem decodeReply_error (digits : Nat → String) {err : DriveErr} (inRange : err.InRange)
    (fit : (encodeReply (.error err)).length < 2 ^ 53) :
    decodeReply digits (encodeReply (.error err)) = .error (Sdk.errorOf stripMark err) := by
  have decoded := (dialect_sound digits).decReply_error inRange []
  rw [List.append_nil] at decoded
  exact decoded fit

theorem sentBack_of_fixes {texts : List String} (fixed : Sdk.Fixes stripMark texts) :
    ∀ s ∈ texts, Enc.str (textDecode (Utf8.encode s)) = Bincode.str s := by
  intro s member
  rw [textDecode_encode, fixed s member, Enc.str_eq]

/-- The JavaScript decoder inverts the host's encoder exactly on the replies no text of
which begins with a byte order mark and whose props stand under distinct keys. -/
theorem readsReply_iff (digits : Nat → String) {r : DriveReply} (inRange : ReplyInRange r)
    (fit : (encodeReply r).length < 2 ^ 53) : ReadsReply digits r ↔
      (∀ s ∈ replyTexts r, ¬ Marked s) ∧ DistinctPropKeys r := by
  rw [← fixes_stripMark_iff]
  cases r with
  | ok ok =>
    have decoded := decodeReply_ok digits inRange fit
    constructor
    · intro reads
      have same := reads.value ok rfl
      rw [decoded, Except.ok.injEq] at same
      exact (Sdk.value_iff ok).mp same
    · intro condition
      constructor
      case value =>
        rintro _ ⟨⟩
        rw [decoded, (Sdk.value_iff ok).mpr condition]
      case raised => exact fun err is => nomatch is
      case sentBack => exact sentBack_of_fixes condition.1
  | error err =>
    have decoded := decodeReply_error digits inRange fit
    constructor
    · intro reads
      have same := reads.raised err rfl
      rw [decoded, Except.error.injEq, ← Sdk.errorOf_id] at same
      exact ⟨(Sdk.error_iff err).mp same, trivial⟩
    · intro condition
      constructor
      case value => exact fun ok is => nomatch is
      case raised =>
        rintro _ ⟨⟩
        rw [decoded, (Sdk.error_iff err).mpr condition.1, Sdk.errorOf_id]
      case sentBack => exact sentBack_of_fixes condition.1

/-- The metadata of a node that bears one tag. -/
def taggedMeta (label : String) : DriveOk := .metaOf "n1" [] [label] []

theorem taggedMeta_inRange {label : String} (text : Text label) : (taggedMeta label).InRange :=
  ⟨by decide, ⟨by decide, by simp⟩, ⟨by simp, by simpa using text⟩, ⟨by decide, by simp⟩⟩

theorem plainTag_readsReply_iff : ReadsReply toString (.ok (taggedMeta "draft")) ↔
    (∀ s ∈ replyTexts (.ok (taggedMeta "draft")), ¬ Marked s) ∧
      DistinctPropKeys (.ok (taggedMeta "draft")) :=
  readsReply_iff toString (taggedMeta_inRange (by decide)) (by decide)

/-- A tag that begins with a byte order mark comes back without it. -/
theorem markedTag_lost : ReplyInRange (.ok (taggedMeta "\uFEFFdraft")) ∧
    (encodeReply (.ok (taggedMeta "\uFEFFdraft"))).length < 2 ^ 53 ∧
    decodeReply toString (encodeReply (.ok (taggedMeta "\uFEFFdraft"))) =
      .ok (.metaOf "n1" [] ["draft"] []) ∧
    ¬ ReadsReply toString (.ok (taggedMeta "\uFEFFdraft")) := by
  have inRange : (taggedMeta "\uFEFFdraft").InRange := taggedMeta_inRange (by decide)
  have fit : (encodeReply (.ok (taggedMeta "\uFEFFdraft"))).length < 2 ^ 53 := by decide
  have decoded := decodeReply_ok toString inRange fit
  have lost : (Sdk.Value.of stripMark (taggedMeta "\uFEFFdraft")).keyed =
      .metaOf "n1" [] ["draft"] [] := by decide
  rw [lost] at decoded
  refine ⟨inRange, fit, decoded, ?_⟩
  intro reads
  have claimed := reads.value _ rfl
  rw [decoded] at claimed
  exact absurd (Except.ok.inj claimed) (by decide)

end Js

end DriveServe
