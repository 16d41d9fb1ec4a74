import DriveServe.WireCodec
import Mathlib.Data.List.Forall2

set_option autoImplicit false

/-! The request encoders of the two client SDKs, each written from its own
primitives, against the layout the host derives from the declarations. -/

namespace DriveServe

open Bincode (Text Seq Opt)

namespace Py

/-- What `struct.pack` raises for a value its format does not hold. -/
def packError : String := "struct.error: argument out of range"

/-! The methods of `_Enc`. -/

namespace Enc

def u8 (v : Nat) : Bytes := [UInt8.ofNat (v &&& 0xFF)]

def u32 (v : Nat) : Except String Bytes :=
  if v < 2 ^ 32 then .ok (LittleEndian.encode 4 v) else .error packError

def u64 (v : Nat) : Except String Bytes :=
  if v < 2 ^ 64 then .ok (LittleEndian.encode 8 v) else .error packError

def bool (v : Bool) : Bytes := u8 (if v then 1 else 0)

def str (s : String) : Except String Bytes := do
  let raw := Utf8.encode s
  let len ← u64 raw.length
  return len ++ raw

def variant (index : Nat) : Except String Bytes := u32 index

def optStr : Option String → Except String Bytes
  | none => .ok (u8 0)
  | some s => do
    let raw ← str s
    return u8 1 ++ raw

def optU64 : Option Nat → Except String Bytes
  | none => .ok (u8 0)
  | some v => do
    let raw ← u64 v
    return u8 1 ++ raw

/-- What a chain of encoder calls leaves in the buffer. -/
def chain : List (Except String Bytes) → Except String Bytes
  | [] => .ok []
  | part :: rest => do
    let front ← part
    let back ← chain rest
    return front ++ back

def seqStr (items : List String) : Except String Bytes :=
  chain (u64 items.length :: items.map str)

end Enc

/-- The method calls that send a request, `write` after its upload. -/
inductive Call where
  | openDrive
  | stat (path : String)
  | ls (path : String) (cursor : Option String) (limit : Nat)
  | read (path : String) (offset : Nat) (length : Option Nat)
  | write (path objectCid : String) (size : Nat) (baseEtag : Option String)
  | mkdir (path : String)
  | mv (src dst : String)
  | cp (src dst : String)
  | rm (path : String) (recursive : Bool)
  | share (path audience : String) (abilities : List String) (notAfter : Nat)
      (maxBytesRead maxBytesWrite : Option Nat)
  | poll (cursor : Option Nat) (limit : Nat)
  | watch
  | metaOf (path : String)
  | setProp (path key : String) (value : Option String)
  | tag (path tag : String) (remove : Bool)
  | link (path target rel : String) (remove : Bool)
  | backlinks (target : String)
  | versions (path : String)
  deriving DecidableEq, Repr

namespace Call

/-- `OP_OPEN` to `OP_VERSIONS`. -/
def opIndex : Call → Nat
  | openDrive => 0
  | stat .. => 1
  | ls .. => 2
  | read .. => 3
  | write .. => 4
  | mkdir .. => 5
  | mv .. => 6
  | cp .. => 7
  | rm .. => 8
  | share .. => 9
  | poll .. => 10
  | watch => 11
  | metaOf .. => 12
  | setProp .. => 13
  | tag .. => 14
  | link .. => 15
  | backlinks .. => 16
  | versions .. => 17

/-- A page limit, brought into the range of a `u32`. -/
def clamped (limit : Nat) : Nat := max 0 (min limit (2 ^ 32 - 1))

open Enc in
def writeFields : Call → Except String Bytes
  | openDrive | watch => .ok []
  | stat path | mkdir path | metaOf path | versions path => chain [str path]
  | ls path cursor limit => chain [str path, optStr cursor, u32 (clamped limit)]
  | read path offset length => chain [str path, u64 offset, optU64 length]
  | write path objectCid size baseEtag => chain [str path, str objectCid, u64 size, optStr baseEtag]
  | mv src dst | cp src dst => chain [str src, str dst]
  | rm path recursive => chain [str path, .ok (bool recursive)]
  | share path audience abilities notAfter maxBytesRead maxBytesWrite =>
    chain [str path, str audience, seqStr abilities, u64 notAfter, optU64 maxBytesRead,
      optU64 maxBytesWrite]
  | poll cursor limit => chain [optU64 cursor, u32 (clamped limit)]
  | setProp path key value => chain [str path, str key, optStr value]
  | tag path label remove => chain [str path, str label, .ok (bool remove)]
  | link path target rel remove => chain [str path, str rel, str target, .ok (bool remove)]
  | backlinks target => chain [str target]

def intended : Call → DriveOp
  | openDrive => .openDrive
  | stat path => .stat path
  | ls path cursor limit => .list path cursor limit
  | read path offset length => .read path offset length
  | write path objectCid size baseEtag => .write path objectCid size baseEtag
  | mkdir path => .mkdir path
  | mv src dst => .move src dst
  | cp src dst => .copy src dst
  | rm path recursive => .delete path recursive
  | share path audience abilities notAfter maxBytesRead maxBytesWrite =>
    .share path audience abilities { notAfter, maxBytesRead, maxBytesWrite }
  | poll cursor limit => .poll cursor limit
  | watch => .watch
  | metaOf path => .metaOf path
  | setProp path key value => .setProp path key value
  | tag path label remove => .tag path label remove
  | link path target rel remove => .link path rel target remove
  | backlinks target => .backlinks target
  | versions path => .versions path

end Call

/-- `_enc_req`. -/
def encReq (drive cap : String) (call : Call) : Except String Bytes :=
  Enc.chain [Enc.str drive, Enc.str cap, Enc.variant call.opIndex, call.writeFields]

namespace Enc

theorem u32_ok {v : Nat} (bounded : v < 2 ^ 32) : u32 v = .ok (Bincode.u32 v) := if_pos bounded

theorem u64_ok {v : Nat} (bounded : v < 2 ^ 64) : u64 v = .ok (Bincode.u64 v) := if_pos bounded

theorem bool_ok (b : Bool) : (.ok (bool b) : Except String Bytes) = .ok (Bincode.bool b) := by
  cases b <;> rfl

theorem str_ok {s : String} (text : Text s) : str s = .ok (Bincode.str s) := by
  rw [str, u64_ok text]
  rfl

theorem optStr_ok {o : Option String} (inRange : Opt Text o) :
    optStr o = .ok (Bincode.opt Bincode.str o) := by
  cases o with
  | none => rfl
  | some s =>
    rw [optStr, str_ok (inRange s rfl)]
    rfl

theorem optU64_ok {o : Option Nat} (inRange : Opt (· < 2 ^ 64) o) :
    optU64 o = .ok (Bincode.opt Bincode.u64 o) := by
  cases o with
  | none => rfl
  | some v =>
    rw [optU64, u64_ok (inRange v rfl)]
    rfl

theorem chain_ok {parts : List (Except String Bytes)} {bytes : List Bytes}
    (each : List.Forall₂ (fun part raw => part = .ok raw) parts bytes) :
    chain parts = .ok bytes.flatten := by
  induction each with
  | nil => rfl
  | cons head _ ih =>
    rw [chain, head, ih]
    rfl

theorem seqStr_ok {items : List String} (inRange : Seq Text items) :
    seqStr items = .ok (Bincode.seq Bincode.str items) := by
  have each : List.Forall₂ (fun part raw => part = .ok raw) (items.map str)
      (items.map Bincode.str) := by
    rw [List.forall₂_map_left_iff, List.forall₂_map_right_iff, List.forall₂_same]
    exact fun s member => str_ok (inRange.2 s member)
  exact chain_ok (.cons (u64_ok inRange.1) each)

end Enc

theorem u32_clamped_ok {limit : Nat} (bounded : limit < 2 ^ 32) :
    Enc.u32 (Call.clamped limit) = .ok (Bincode.u32 limit) := by
  have same : Call.clamped limit = limit := by
    unfold Call.clamped
    omega
  rw [same]
  exact Enc.u32_ok bounded

/-- The fields a method writes are those of the op it intends, in their order. -/
theorem writeFields_ok {call : Call} (inRange : call.intended.InRange) :
    ∃ rest, call.writeFields = .ok rest ∧
      call.intended.encode = Bincode.u32 call.opIndex ++ rest := by
  open Enc in
  cases call with
  | openDrive | watch => exact ⟨_, rfl, rfl⟩
  | stat path | mkdir path | metaOf path | versions path | backlinks target =>
    exact ⟨_, chain_ok (.cons (str_ok inRange) .nil), rfl⟩
  | ls path cursor limit =>
    exact ⟨_, chain_ok (.cons (str_ok inRange.1) <| .cons (optStr_ok inRange.2.1) <|
      .cons (u32_clamped_ok inRange.2.2) .nil), rfl⟩
  | read path offset length =>
    exact ⟨_, chain_ok (.cons (str_ok inRange.1) <| .cons (u64_ok inRange.2.1) <|
      .cons (optU64_ok inRange.2.2) .nil), rfl⟩
  | write path objectCid size baseEtag =>
    exact ⟨_, chain_ok (.cons (str_ok inRange.1) <| .cons (str_ok inRange.2.1) <|
      .cons (u64_ok inRange.2.2.1) <| .cons (optStr_ok inRange.2.2.2) .nil), rfl⟩
  | mv src dst | cp src dst =>
    exact ⟨_, chain_ok (.cons (str_ok inRange.1) <| .cons (str_ok inRange.2) .nil), rfl⟩
  | rm path recursive =>
    exact ⟨_, chain_ok (.cons (str_ok inRange) <| .cons (bool_ok recursive) .nil), rfl⟩
  | share path audience abilities notAfter maxBytesRead maxBytesWrite =>
    obtain ⟨path, audience, abilities, notAfter, read, write⟩ := inRange
    refine ⟨_, chain_ok (.cons (str_ok path) <| .cons (str_ok audience) <|
      .cons (seqStr_ok abilities) <| .cons (u64_ok notAfter) <| .cons (optU64_ok read) <|
      .cons (optU64_ok write) .nil), ?_⟩
    -- the caveats are a struct of their own on the host's side
    simp only [Call.intended, DriveOp.encode, ShareCaveats.encode, Bincode.variant,
      Bincode.fields, List.flatten_cons, List.flatten_nil, List.append_nil, Call.opIndex]
  | poll cursor limit =>
    exact ⟨_, chain_ok (.cons (optU64_ok inRange.1) <|
      .cons (u32_clamped_ok inRange.2) .nil), rfl⟩
  | setProp path key value =>
    exact ⟨_, chain_ok (.cons (str_ok inRange.1) <| .cons (str_ok inRange.2.1) <|
      .cons (optStr_ok inRange.2.2) .nil), rfl⟩
  | tag path label remove =>
    exact ⟨_, chain_ok (.cons (str_ok inRange.1) <| .cons (str_ok inRange.2) <|
      .cons (bool_ok remove) .nil), rfl⟩
  | link path target rel remove =>
    exact ⟨_, chain_ok (.cons (str_ok inRange.1) <| .cons (str_ok inRange.2.1) <|
      .cons (str_ok inRange.2.2) <| .cons (bool_ok remove) .nil), rfl⟩

theorem opIndex_lt (call : Call) : call.opIndex < 2 ^ 32 := by
  have small : call.opIndex ≤ 17 := by cases call <;> simp [Call.opIndex]
  omega

/-- The Python encoder writes the host's layout. -/
theorem encReq_ok {drive cap : String} (driveText : Text drive) (capText : Text cap) {call : Call}
    (inRange : call.intended.InRange) :
    encReq drive cap call = .ok (encodeReq { drive, cap, op := call.intended }) := by
  have ⟨rest, written, layout⟩ := writeFields_ok inRange
  have parts := Enc.chain_ok (.cons (Enc.str_ok driveText) <| .cons (Enc.str_ok capText) <|
    .cons (Enc.u32_ok (opIndex_lt call)) <| .cons written .nil)
  rw [encReq, Enc.variant, parts, encodeReq, layout]
  simp only [Bincode.fields, List.flatten_cons, List.flatten_nil, List.append_nil]

end Py

namespace Js

/-! The methods of `Enc`. Text is a string without lone surrogates. -/

namespace Enc

def u8 (v : Nat) : Bytes := [UInt8.ofNat (v &&& 0xFF)]

/-- `v >>> 0`, then four bytes. -/
def u32 (v : Nat) : Bytes := LittleEndian.encode 4 (v % 2 ^ 32)

/-- `setBigUint64`. -/
def u64 (v : Nat) : Bytes := LittleEndian.encode 8 (v % 2 ^ 64)

def bool (v : Bool) : Bytes := u8 (if v then 1 else 0)

def str (s : String) : Bytes :=
  let raw := Utf8.encode s
  u64 raw.length ++ raw

def variant (i : Nat) : Bytes := u32 i

def optStr : Option String → Bytes
  | none => u8 0
  | some s => u8 1 ++ str s

def optU64 : Option Nat → Bytes
  | none => u8 0
  | some v => u8 1 ++ u64 v

end Enc

/-- The method calls that send a request, `write` after its upload; there is no
`share`. -/
inductive Call where
  | openDrive
  | stat (path : String)
  | ls (path : String) (cursor : Option String) (limit : Nat)
  | read (path : String) (offset : Nat) (length : Option Nat)
  | write (path objectCid : String) (size : Nat) (baseEtag : Option String)
  | mkdir (path : String)
  | mv (src dst : String)
  | cp (src dst : String)
  | rm (path : String) (recursive : Bool)
  | poll (cursor : Option Nat) (limit : Nat)
  | watch
  | metaOf (path : String)
  | setProp (path key : String) (value : Option String)
  | tag (path tag : String) (remove : Bool)
  | link (path target rel : String) (remove : Bool)
  | backlinks (target : String)
  | versions (path : String)
  deriving DecidableEq, Repr

namespace Call

/-- The indices of `OP`. -/
def opIndex : Call → Nat
  | openDrive => 0
  | stat .. => 1
  | ls .. => 2
  | read .. => 3
  | write .. => 4
  | mkdir .. => 5
  | mv .. => 6
  | cp .. => 7
  | rm .. => 8
  | poll .. => 10
  | watch => 11
  | metaOf .. => 12
  | setProp .. => 13
  | tag .. => 14
  | link .. => 15
  | backlinks .. => 16
  | versions .. => 17

open Enc in
def writeFields : Call → Bytes
  | openDrive | watch => []
  | stat path | mkdir path | metaOf path | versions path => str path
  | ls path cursor limit => str path ++ optStr cursor ++ u32 limit
  | read path offset length => str path ++ u64 offset ++ optU64 length
  | write path objectCid size baseEtag => str path ++ str objectCid ++ u64 size ++ optStr baseEtag
  | mv src dst | cp src dst => str src ++ str dst
  | rm path recursive => str path ++ bool recursive
  | poll cursor limit => optU64 cursor ++ u32 limit
  | setProp path key value => str path ++ str key ++ optStr value
  | tag path label remove => str path ++ str label ++ bool remove
  | link path target rel remove => str path ++ str rel ++ str target ++ bool remove
  | backlinks target => str target

def intended : Call → DriveOp
  | openDrive => .openDrive
  | stat path => .stat path
  | ls path cursor limit => .list path cursor limit
  | read path offset length => .read path offset length
  | write path objectCid size baseEtag => .write path objectCid size baseEtag
  | mkdir path => .mkdir path
  | mv src dst => .move src dst
  | cp src dst => .copy src dst
  | rm path recursive => .delete path recursive
  | poll cursor limit => .poll cursor limit
  | watch => .watch
  | metaOf path => .metaOf path
  | setProp path key value => .setProp path key value
  | tag path label remove => .tag path label remove
  | link path target rel remove => .link path rel target remove
  | backlinks target => .backlinks target
  | versions path => .versions path

end Call

def encodeReq (drive cap : String) (call : Call) : Bytes :=
  Enc.str drive ++ Enc.str cap ++ Enc.variant call.opIndex ++ call.writeFields

namespace Enc

theorem u32_eq (v : Nat) : u32 v = Bincode.u32 v := LittleEndian.encode_mod 4 v

theorem u64_eq (v : Nat) : u64 v = Bincode.u64 v := LittleEndian.encode_mod 8 v

theorem bool_eq (b : Bool) : bool b = Bincode.bool b := by
  cases b <;> rfl

theorem str_eq (s : String) : str s = Bincode.str s := by
  rw [str, u64_eq]
  rfl

theorem optStr_eq (o : Option String) : optStr o = Bincode.opt Bincode.str o := by
  cases o with
  | none => rfl
  | some s =>
    rw [optStr, str_eq]
    rfl

theorem optU64_eq (o : Option Nat) : optU64 o = Bincode.opt Bincode.u64 o := by
  cases o with
  | none => rfl
  | some v =>
    rw [optU64, u64_eq]
    rfl

end Enc

/-- The fields a method writes are those of the op it intends, in their order. -/
theorem writeFields_eq (call : Call) :
    call.intended.encode = Bincode.u32 call.opIndex ++ call.writeFields := by
  cases call <;>
    simp only [Call.intended, DriveOp.encode, Call.opIndex, Call.writeFields, Bincode.variant,
      Bincode.fields, List.flatten_cons, List.flatten_nil, List.append_nil, List.append_assoc,
      Enc.str_eq, Enc.u32_eq, Enc.u64_eq, Enc.bool_eq, Enc.optStr_eq, Enc.optU64_eq]

/-- The JavaScript encoder writes the host's layout. -/
theorem encodeReq_eq (drive cap : String) (call : Call) :
    encodeReq drive cap call = DriveServe.encodeReq { drive, cap, op := call.intended } := by
  simp only [encodeReq, DriveServe.encodeReq, writeFields_eq, Enc.variant, Enc.str_eq, Enc.u32_eq,
    Bincode.fields, List.flatten_cons, List.flatten_nil, List.append_nil, List.append_assoc]

end Js

/-- What either SDK sends for a drive and a capability is read by the host as the
request meant, to the last byte, and one call is the same bytes from both. -/
structure SpeakWire (drive cap : String) : Prop where
  python : ∀ call : Py.Call, call.intended.InRange → ∃ bytes,
    Py.encReq drive cap call = .ok bytes ∧
      decodeReqRest bytes = .ok ({ drive, cap, op := call.intended }, [])
  javascript : ∀ call : Js.Call, call.intended.InRange →
    decodeReqRest (Js.encodeReq drive cap call) = .ok ({ drive, cap, op := call.intended }, [])
  alike : ∀ (py : Py.Call) (js : Js.Call), py.intended = js.intended → py.intended.InRange →
    Py.encReq drive cap py = .ok (Js.encodeReq drive cap js)

/-- Both SDKs speak the host's wire. -/
theorem speakWire {drive cap : String} (driveText : Text drive) (capText : Text cap) :
    SpeakWire drive cap := by
  have read (op : DriveOp) (inRange : op.InRange) :
      decodeReqRest (encodeReq { drive, cap, op }) = .ok ({ drive, cap, op }, []) := by
    have whole := @decodeReq_encodeReq { drive, cap, op } driveText capText inRange []
    rwa [List.append_nil] at whole
  refine ⟨?_, ?_, ?_⟩
  · intro call inRange
    exact ⟨_, Py.encReq_ok driveText capText inRange, read call.intended inRange⟩
  · intro call inRange
    rw [Js.encodeReq_eq]
    exact read call.intended inRange
  · intro py js same inRange
    rw [Py.encReq_ok driveText capText inRange, Js.encodeReq_eq, same]

theorem teamDrive_speakWire : SpeakWire "team" "00ff" := speakWire (by decide) (by decide)

example : Js.encodeReq "d" "" (.poll none 2) =
    [1, 0, 0, 0, 0, 0, 0, 0, 100, 0, 0, 0, 0, 0, 0, 0, 0, 10, 0, 0, 0, 0, 2, 0, 0, 0] := by decide

end DriveServe
