import DriveServe.HexText
import DriveServe.ReadRange
import DriveServe.Segments
import DriveServe.Utf8

set_option autoImplicit false

/-! Uploading an object: the chunks, each a blob of its own, then the manifest that names
them, which gives the object its address. The two client SDKs write the manifest each with
its own JSON printer. -/

namespace DriveServe

/-- What a request to the node came to, and the world it left. -/
abbrev Answered (ν α : Type) := Except DriveError α × ν

/-- Go on in the world that was left; an error is the last word. -/
def Answered.andThen {ν α β : Type} (answered : Answered ν α) (next : α → ν → Answered ν β) :
    Answered ν β :=
  match answered with
  | (.error e, net) => (.error e, net)
  | (.ok a, net) => next a net

theorem Answered.andThen_assoc {ν α β γ : Type} (answered : Answered ν α)
    (next : α → ν → Answered ν β) (last : β → ν → Answered ν γ) :
    (answered.andThen next).andThen last =
      answered.andThen fun a net => (next a net).andThen last := by
  obtain ⟨result, net⟩ := answered
  cases result <;> rfl

theorem Answered.andThen_eq_ok_iff {ν α β : Type} {answered : Answered ν α}
    {next : α → ν → Answered ν β} {b : β} {net : ν} :
    answered.andThen next = (.ok b, net) ↔
      ∃ a between, answered = (.ok a, between) ∧ next a between = (.ok b, net) := by
  obtain ⟨result, between⟩ := answered
  cases result with
  | error e => simp [Answered.andThen]
  | ok a => simp [Answered.andThen]

theorem Answered.andThen_congr {ν α β : Type} {answered : Answered ν α}
    {next other : α → ν → Answered ν β}
    (same : ∀ a net, answered = (.ok a, net) → next a net = other a net) :
    answered.andThen next = answered.andThen other := by
  obtain ⟨result, net⟩ := answered
  cases result with
  | error e => rfl
  | ok a => exact same a net rfl

/-- `POST /blobs`: the hash the node answers with. -/
abbrev PostBlob (ν : Type) := Bytes → ν → Answered ν String

def unicodeEscape (n : Nat) : List Char :=
  ['\\', 'u', hexDigit (n / 4096 % 16), hexDigit (n / 256 % 16), hexDigit (n / 16 % 16),
    hexDigit (n % 16)]

def letterEscape (c : Char) : Option Char :=
  match c with
  | '"' => some '"'
  | '\\' => some '\\'
  | '\n' => some 'n'
  | '\r' => some 'r'
  | '\t' => some 't'
  | '\x08' => some 'b'
  | '\x0c' => some 'f'
  | _ => none

/-- A string between quotation marks, its characters written by `other` where JSON has no
letter for them. -/
def jsonString (other : Char → List Char) (s : String) : List Char :=
  let char (c : Char) : List Char :=
    match letterEscape c with
    | some letter => ['\\', letter]
    | none => other c
  '"' :: s.toList.flatMap char ++ ['"']

/-- The manifest as JSON, the chunks' hashes printed by `print`. -/
def manifestText (print : String → List Char) (manifest : Manifest) : String :=
  "\x7b\"kind\":\"ce-object-v1\",\"chunk_size\":" ++ toString manifest.chunkSize ++
    ",\"total_size\":" ++ toString manifest.totalSize ++ ",\"chunks\":[" ++
    String.ofList ([','].intercalate (manifest.chunks.map print)) ++ "]\x7d"

/-- `CHUNK`, 1 MiB. -/
def chunkSize : Nat := 2 ^ 20

namespace Py

/-- How `json.dumps` prints a character: what is no printable ASCII is escaped, as two
surrogates beyond the first plane. -/
def jsonChar (c : Char) : List Char :=
  let n := c.toNat
  if 32 ≤ n ∧ n ≤ 126 then [c]
  else if n < 2 ^ 16 then unicodeEscape n
  else unicodeEscape (0xD800 + (n - 2 ^ 16) / 1024) ++ unicodeEscape (0xDC00 + (n - 2 ^ 16) % 1024)

def putBlobs {ν : Type} (post : PostBlob ν) : List Bytes → ν → Answered ν (List String)
  | [], net => (.ok [], net)
  | chunk :: rest, net =>
    (post chunk net).andThen fun hash net =>
      (putBlobs post rest net).andThen fun hashes net => (.ok (hash :: hashes), net)

/-- `_put_object`. -/
def putObject {ν : Type} (post : PostBlob ν) (data : Bytes) (net : ν) : Answered ν String :=
  (putBlobs post (Chunks.chunks chunkSize data) net).andThen fun hashes net =>
    post (Utf8.encode (manifestText (jsonString jsonChar)
      { chunkSize, totalSize := data.length, chunks := hashes })) net

end Py

namespace Js

/-- How `JSON.stringify` prints a character. -/
def jsonChar (c : Char) : List Char := if c.toNat < 32 then unicodeEscape c.toNat else [c]

/-- The loop of `_putObject` over the chunks, from an offset on. -/
def putChunks {ν : Type} (post : PostBlob ν) (data : Bytes) (off : Nat) (chunks : List String)
    (net : ν) : Answered ν (List String) :=
  if off < data.length then
    (post ((data.drop off).take chunkSize) net).andThen fun hash net =>
      putChunks post data (off + chunkSize) (chunks ++ [hash]) net
  else (.ok chunks, net)
termination_by data.length - off
decreasing_by
  have positive : 0 < chunkSize := by decide
  omega

/-- `_putObject`. -/
def putObject {ν : Type} (post : PostBlob ν) (data : Bytes) (net : ν) : Answered ν String :=
  (putChunks post data 0 [] net).andThen fun hashes net =>
    post (Utf8.encode (manifestText (jsonString jsonChar)
      { chunkSize, totalSize := data.length, chunks := hashes })) net

end Js

/-! The two loops do the same. -/

section

variable {ν : Type} {post : PostBlob ν}

theorem putChunks_eq (data : Bytes) (off : Nat) (chunks : List String) (net : ν) :
    Js.putChunks post data off chunks net =
      (Py.putBlobs post (Chunks.chunks chunkSize (data.drop off)) net).andThen fun hashes net =>
        (.ok (chunks ++ hashes), net) := by
  induction measure : data.length - off using Nat.strong_induction_on
    generalizing off chunks net with
  | _ left ih =>
  have positive : 0 < chunkSize := by decide
  rw [Js.putChunks]
  by_cases more : off < data.length
  · have some : data.drop off ≠ [] := by
      rw [ne_eq, List.drop_eq_nil_iff]
      omega
    have behind := fun hashes net => ih _ (by omega) (off + chunkSize) hashes net rfl
    rw [if_pos more, Chunks.chunks_cons positive some, List.drop_drop, Py.putBlobs,
      Answered.andThen_assoc]
    simp only [behind, Answered.andThen_assoc, List.append_assoc, List.singleton_append]
    rfl
  · rw [if_neg more, List.drop_of_length_le (by omega), Chunks.chunks_nil, Py.putBlobs]
    simp [Answered.andThen]

end

/-! Hashes in hex stand in a manifest as they are. -/

theorem mem_hexDigits {bytes : Bytes} {c : Char} (member : c ∈ hexDigits bytes) :
    ∃ n < 16, c = hexDigit n := by
  induction bytes with
  | nil => cases member
  | cons byte rest ih =>
    have size : byte.toNat < 256 := byte.toNat_lt
    rw [hexDigits, List.mem_cons, List.mem_cons] at member
    rcases member with high | low | later
    · exact ⟨byte.toNat / 16, by omega, high⟩
    · exact ⟨byte.toNat % 16, by omega, low⟩
    · exact ih later

theorem hexEncode_injective : Function.Injective hexEncode := by
  intro first second same
  have decoded := hexDecode_hexEncode first
  rw [same, hexDecode_hexEncode] at decoded
  exact (Option.some.inj decoded).symm

/-- A printer that leaves the hex digits alone. -/
def LeavesHex (other : Char → List Char) : Prop :=
  ∀ n < 16, letterEscape (hexDigit n) = none ∧ other (hexDigit n) = [hexDigit n]

theorem py_leavesHex : LeavesHex Py.jsonChar := by
  unfold LeavesHex
  decide

theorem js_leavesHex : LeavesHex Js.jsonChar := by
  unfold LeavesHex
  decide

theorem jsonString_hexEncode {other : Char → List Char} (leaves : LeavesHex other)
    (bytes : Bytes) : jsonString other (hexEncode bytes) = '"' :: hexDigits bytes ++ ['"'] := by
  have plain : ∀ l : List Char, (∀ c ∈ l, ∃ n < 16, c = hexDigit n) →
      l.flatMap (fun c => match letterEscape c with
        | some letter => ['\\', letter]
        | none => other c) = l := by
    intro l all
    induction l with
    | nil => rfl
    | cons c rest ih =>
      obtain ⟨n, small, rfl⟩ := all c List.mem_cons_self
      rw [List.flatMap_cons, ih fun d member => all d (List.mem_cons_of_mem _ member),
        (leaves n small).1, (leaves n small).2]
      rfl
  unfold jsonString
  rw [hexEncode, String.toList_ofList]
  exact congrArg (fun l => '"' :: l ++ ['"']) (plain _ fun _ => mem_hexDigits)

def manifestHead (size : Nat) : String :=
  "\x7b\"kind\":\"ce-object-v1\",\"chunk_size\":" ++ toString size ++ ",\"total_size\":"

theorem manifestText_toList (print : String → List Char) (manifest : Manifest) :
    (manifestText print manifest).toList = (manifestHead manifest.chunkSize).toList ++
      ((toString manifest.totalSize).toList ++ ',' :: ("\"chunks\":[".toList ++
        ([','].intercalate (manifest.chunks.map print) ++ "]\x7d".toList))) := by
  have behind : ",\"chunks\":[".toList = ',' :: "\"chunks\":[".toList := by decide +kernel
  unfold manifestText manifestHead
  simp only [String.toList_append, String.toList_ofList, List.append_assoc]
  rw [behind, List.cons_append]

theorem comma_notMem_toString (n : Nat) : ',' ∉ (toString n).toList := by
  intro member
  have digit : Char.isDigit ',' = true := by
    refine Nat.isDigit_of_mem_toDigits (b := 10) (n := n) (by decide) (by decide) ?_
    simpa using member
  exact absurd digit (by decide)

def quoted (s : String) : List Char := '"' :: s.toList ++ ['"']

/-- Where the chunks go by hashes in hex, both printers write this manifest. -/
theorem manifestText_quoted {other : Char → List Char} (leaves : LeavesHex other)
    {manifest : Manifest} (hex : ∀ hash ∈ manifest.chunks, ∃ bytes, hash = hexEncode bytes) :
    manifestText (jsonString other) manifest = manifestText quoted manifest := by
  have same : manifest.chunks.map (jsonString other) = manifest.chunks.map quoted := by
    apply List.map_congr_left
    intro hash member
    obtain ⟨bytes, rfl⟩ := hex hash member
    rw [jsonString_hexEncode leaves, quoted, hexEncode, String.toList_ofList]
  unfold manifestText
  rw [same]

theorem quoted_injective : Function.Injective quoted := by
  intro first second same
  have inside := List.append_cancel_right (List.cons.inj same).2
  exact String.toList_inj.mp inside

/-- A hash without a comma, which in a list of hashes can be told from the next. -/
def Plain (hash : String) : Prop := ',' ∉ hash.toList

theorem plain_hexEncode (bytes : Bytes) : Plain (hexEncode bytes) := by
  have digits : ∀ n < 16, hexDigit n ≠ ',' := by decide
  intro member
  rw [hexEncode, String.toList_ofList] at member
  obtain ⟨n, small, same⟩ := mem_hexDigits member
  exact digits n small same.symm

theorem manifestText_inj {first second : Manifest} (size : first.chunkSize = second.chunkSize)
    (plain : ∀ hash ∈ first.chunks, Plain hash) (clean : ∀ hash ∈ second.chunks, Plain hash)
    (same : manifestText quoted first = manifestText quoted second) :
    first.chunks = second.chunks := by
  have segments : ∀ chunks : List String, (∀ hash ∈ chunks, Plain hash) →
      ∀ printed ∈ chunks.map quoted, printed ≠ [] ∧ ',' ∉ printed := by
    intro chunks all printed member
    obtain ⟨hash, among, rfl⟩ := List.mem_map.mp member
    refine ⟨List.cons_ne_nil _ _, ?_⟩
    have clear : ',' ∉ hash.toList := all hash among
    simpa [quoted] using clear
  have texts := congrArg String.toList same
  rw [manifestText_toList, manifestText_toList, size] at texts
  have ⟨_, behind⟩ := Segments.cut_first_unique (comma_notMem_toString _)
    (comma_notMem_toString _) (List.append_cancel_left texts)
  have lists := List.append_cancel_right (List.append_cancel_left behind)
  exact List.map_injective_iff.mpr quoted_injective
    (Segments.intercalate_inj (segments _ plain) (segments _ clean) lists)

/-! What an upload leaves in the store. -/

def address (sha256 : Bytes → Bytes) (blob : Bytes) : String := hexEncode (sha256 blob)

def manifestBlob (sha256 : Bytes → Bytes) (data : Bytes) : Bytes :=
  Utf8.encode (manifestText quoted (Sdk.putObject (address sha256) chunkSize data))

/-- The address of an object: that of its manifest. -/
def objectAddress (sha256 : Bytes → Bytes) (data : Bytes) : String :=
  address sha256 (manifestBlob sha256 data)

/-- A content-addressed store: what it took in is there under its address, and what is
there stays. -/
structure Stores {ν : Type} (sha256 : Bytes → Bytes) (post : PostBlob ν)
    (held : ν → String → Option Bytes) : Prop where
  takes : ∀ {blob : Bytes} {net net' : ν} {hash : String}, post blob net = (.ok hash, net') →
    hash = address sha256 blob ∧ held net' hash = some blob
  keeps : ∀ (blob : Bytes) {net : ν} {hash : String} {there : Bytes},
    held net hash = some there → held (post blob net).2 hash = some there

theorem address_injective {sha256 : Bytes → Bytes} (collisionFree : Function.Injective sha256) :
    Function.Injective (address sha256) := hexEncode_injective.comp collisionFree

theorem objectAddress_injective {sha256 : Bytes → Bytes}
    (collisionFree : Function.Injective sha256) :
    Function.Injective (objectAddress sha256) := by
  intro first second same
  have hex : ∀ data, ∀ hash ∈ (Sdk.putObject (address sha256) chunkSize data).chunks,
      Plain hash := by
    intro data hash member
    obtain ⟨chunk, _, rfl⟩ := List.mem_map.mp member
    exact plain_hexEncode _
  have texts : manifestText quoted (Sdk.putObject (address sha256) chunkSize first) =
      manifestText quoted (Sdk.putObject (address sha256) chunkSize second) := by
    have bytes := congrArg Utf8.decode (address_injective collisionFree same)
    rwa [manifestBlob, manifestBlob, Utf8.decode_encode, Utf8.decode_encode] at bytes
  have hashes : (Chunks.chunks chunkSize first).map (address sha256) =
      (Chunks.chunks chunkSize second).map (address sha256) :=
    manifestText_inj (by rfl) (hex first) (hex second) texts
  have pieces : Chunks.chunks chunkSize first = Chunks.chunks chunkSize second :=
    List.map_injective_iff.mpr (address_injective collisionFree) hashes
  have positive : 0 < chunkSize := by decide
  rw [← Chunks.flatten_chunks positive first, pieces, Chunks.flatten_chunks positive second]

section

variable {ν : Type} {post : PostBlob ν} {held : ν → String → Option Bytes}
  {sha256 : Bytes → Bytes}

theorem putBlobs_stored (stores : Stores sha256 post held) {pieces : List Bytes} {net later : ν}
    {hashes : List String} (posted : Py.putBlobs post pieces net = (.ok hashes, later)) :
    hashes = pieces.map (address sha256) ∧
      (∀ piece ∈ pieces, held later (address sha256 piece) = some piece) ∧
      ∀ hash there, held net hash = some there → held later hash = some there := by
  induction pieces generalizing net hashes with
  | nil =>
    cases posted
    exact ⟨rfl, by simp, fun _ _ there => there⟩
  | cons piece rest ih =>
    rw [Py.putBlobs, Answered.andThen_eq_ok_iff] at posted
    obtain ⟨hash, next, answered, posted⟩ := posted
    obtain ⟨others, last, behind, posted⟩ := Answered.andThen_eq_ok_iff.mp posted
    cases posted
    have ⟨named, there⟩ := stores.takes answered
    have ⟨same, stored, kept⟩ := ih behind
    refine ⟨by rw [List.map_cons, named, same], ?_, ?_⟩
    · intro blob member
      rcases List.mem_cons.mp member with rfl | later
      · exact kept _ _ (named ▸ there)
      · exact stored blob later
    · intro hash blob before
      have after := stores.keeps piece before
      rw [answered] at after
      exact kept _ _ after

theorem encode_manifestText {other : Char → List Char} (leaves : LeavesHex other)
    (data : Bytes) :
    Utf8.encode (manifestText (jsonString other)
      { chunkSize, totalSize := data.length,
        chunks := (Chunks.chunks chunkSize data).map (address sha256) }) =
      manifestBlob sha256 data := by
  refine congrArg Utf8.encode (manifestText_quoted leaves ?_)
  intro hash member
  obtain ⟨chunk, _, rfl⟩ := List.mem_map.mp member
  exact ⟨sha256 chunk, rfl⟩

theorem putObject_alike (stores : Stores sha256 post held) (data : Bytes) (net : ν) :
    Js.putObject post data net = Py.putObject post data net := by
  unfold Js.putObject Py.putObject
  rw [putChunks_eq, List.drop_zero, Answered.andThen_assoc]
  refine Answered.andThen_congr fun hashes later posted => ?_
  have ⟨named, _, _⟩ := putBlobs_stored stores posted
  rw [List.nil_append, named]
  exact (congrArg (post · later) (encode_manifestText js_leavesHex data)).trans
    (congrArg (post · later) (encode_manifestText py_leavesHex data)).symm

/-- A finished upload is in the store, chunk by chunk, and its manifest with it. -/
theorem putObject_stored (stores : Stores sha256 post held) {data : Bytes} {net later : ν}
    {object : String} (posted : Py.putObject post data net = (.ok object, later)) :
    object = objectAddress sha256 data ∧ held later object = some (manifestBlob sha256 data) ∧
      ∀ chunk ∈ Chunks.chunks chunkSize data,
        held later (address sha256 chunk) = some chunk := by
  obtain ⟨hashes, between, uploaded, last⟩ := Answered.andThen_eq_ok_iff.mp posted
  have ⟨same, stored, _⟩ := putBlobs_stored stores uploaded
  rw [same, encode_manifestText py_leavesHex] at last
  have ⟨named, there⟩ := stores.takes last
  refine ⟨named, there, ?_⟩
  intro chunk member
  have kept := stores.keeps (manifestBlob sha256 data) (stored chunk member)
  rwa [last] at kept

end

/-! Reading an upload back. -/

/-- Whatever moment a blob is fetched at, the store has what was there. -/
def Serves (there : String → Option Bytes) (getBlob : Sdk.BlobStore) : Prop :=
  ∀ i hash blob, there hash = some blob → getBlob i hash = .ok blob

theorem exact_of_returns {result : Except DriveError Bytes} {bytes : Bytes}
    (safe : RaisesOrReturns result bytes) (returns : ∃ got, result = .ok got) :
    result = .ok bytes := by
  obtain ⟨got, returned⟩ := returns
  rcases safe with ⟨e, raised⟩ | exact
  · rw [raised] at returned
    cases returned
  · exact exact

theorem read_stored {ν : Type} {post : PostBlob ν} {held : ν → String → Option Bytes}
    {sha256 : Bytes → Bytes} (collisionFree : Function.Injective sha256)
    (stores : Stores sha256 post held) {data : Bytes} (fits : data.length < 2 ^ 64) {net later : ν}
    {object : String} (posted : Py.putObject post data net = (.ok object, later))
    {getBlob : Sdk.BlobStore} (serves : Serves (held later) getBlob) (path : String)
    (offset : Nat) (length : Option Nat) :
    let plan := readPlan object (Sdk.putObject (address sha256) chunkSize data) offset length
    Py.read (address sha256) getBlob path offset length plan =
        .ok (requested data offset length) ∧
      (totalLen plan.chunks < 2 ^ 53 →
        Js.read (address sha256) getBlob path offset length plan =
          .ok (requested data offset length)) := by
  have ⟨_, _, chunks⟩ := putObject_stored stores posted
  have distinct := address_injective collisionFree
  have positive : 0 < chunkSize := by decide
  have honest : ∀ i, ∀ chunk ∈ Chunks.chunks chunkSize data,
      getBlob i (address sha256 chunk) = .ok chunk := fun i chunk member =>
    serves i _ chunk (chunks chunk member)
  exact ⟨exact_of_returns (pyRead_exact distinct positive fits object path offset length getBlob)
      (pyRead_honest object path offset length honest),
    fun holdable => exact_of_returns
      (jsRead_exact distinct positive fits object path offset length getBlob holdable)
      (jsRead_honest object path offset length honest)⟩

/-- Both SDKs upload an object by the same posts, under an address no other bytes have;
once it is up, the store has its manifest and every chunk, and either SDK reads every range
of it back, whatever else the store takes in. -/
theorem uploads_read_back {ν : Type} {post : PostBlob ν} {held : ν → String → Option Bytes}
    {sha256 : Bytes → Bytes} (collisionFree : Function.Injective sha256)
    (stores : Stores sha256 post held) {data : Bytes} (fits : data.length < 2 ^ 64) (net : ν) :
    Js.putObject post data net = Py.putObject post data net ∧
      ∀ object later, Py.putObject post data net = (.ok object, later) →
        (∀ other, objectAddress sha256 other = object ↔ other = data) ∧
        held later object = some (manifestBlob sha256 data) ∧
        (∀ chunk ∈ Chunks.chunks chunkSize data,
          held later (address sha256 chunk) = some chunk) ∧
        ∀ getBlob, Serves (held later) getBlob → ∀ path offset length,
          let plan := readPlan object (Sdk.putObject (address sha256) chunkSize data) offset length
          Py.read (address sha256) getBlob path offset length plan =
              .ok (requested data offset length) ∧
            (totalLen plan.chunks < 2 ^ 53 →
              Js.read (address sha256) getBlob path offset length plan =
                .ok (requested data offset length)) := by
  refine ⟨putObject_alike stores data net, fun object later posted => ?_⟩
  have ⟨named, there, chunks⟩ := putObject_stored stores posted
  refine ⟨fun other => ?_, there, chunks, fun getBlob serves path offset length => ?_⟩
  · rw [named, (objectAddress_injective collisionFree).eq_iff]
  · exact read_stored collisionFree stores fits posted serves path offset length

namespace Reference

def keepBlob : PostBlob (List Bytes) := fun blob kept => (.ok (address id blob), blob :: kept)

def keptBlob (kept : List Bytes) (hash : String) : Option Bytes :=
  kept.find? fun blob => address id blob = hash

theorem keepBlob_stores : Stores id keepBlob keptBlob where
  takes := by
    intro blob net net' hash posted
    cases posted
    exact ⟨rfl, by simp [keptBlob]⟩
  keeps := by
    intro blob net hash there before
    change (blob :: net).find? _ = _
    have found : net.find? (fun blob => address id blob = hash) = some there := before
    have named : address id there = hash := by simpa using List.find?_some found
    by_cases same : address id blob = hash
    · have one := address_injective Function.injective_id (same.trans named.symm)
      rw [List.find?_cons_of_pos (by simpa using same), one]
    · rw [List.find?_cons_of_neg (by simpa using same), found]

def fetchKept (kept : List Bytes) : Sdk.BlobStore := fun _ hash =>
  (keptBlob kept hash).elim (.error (.plain "GET /blobs -> HTTP 404")) .ok

theorem fetchKept_serves (kept : List Bytes) : Serves (keptBlob kept) (fetchKept kept) := by
  intro i hash blob there
  rw [fetchKept, there, Option.elim_some]

end Reference

/-- Three bytes go up and come down again, the first one left out. -/
theorem threeBytes_read_back :
    ∃ object later, Py.putObject Reference.keepBlob [1, 2, 3] [] = (.ok object, later) ∧
      Py.read (address id) (Reference.fetchKept later) "/f" 1 none
        (readPlan object (Sdk.putObject (address id) chunkSize [1, 2, 3]) 1 none) =
          .ok [2, 3] := by
  have finished : (Py.putObject Reference.keepBlob [1, 2, 3] []).1.isOk = true := by
    decide +kernel
  have read := (uploads_read_back Function.injective_id Reference.keepBlob_stores
    (by decide : ([1, 2, 3] : Bytes).length < 2 ^ 64) []).2
  cases posted : Py.putObject Reference.keepBlob [1, 2, 3] [] with
  | mk result later =>
    cases result with
    | error e =>
      rw [posted] at finished
      cases finished
    | ok object =>
      have back := ((read object later posted).2.2.2 (Reference.fetchKept later)
        (Reference.fetchKept_serves later) "/f" 1 none).1
      exact ⟨object, later, rfl, back.trans (by decide)⟩

end DriveServe
