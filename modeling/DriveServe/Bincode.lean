import DriveServe.Reader
import DriveServe.Utf8

set_option autoImplicit false

/-! The legacy configuration of bincode 1.x, as the crate documents it: fixed-width
little-endian integers, `u64` lengths, `u32` variant indices and one-byte tags. The decoders
read this layout; they take a tag for what it is and text only when it is well formed. -/

namespace Bincode

open Reader (Dec Decodes Exact)

abbrev Bytes := List UInt8

variable {α β : Type}

def bool (b : Bool) : Bytes := [if b then 1 else 0]

def u32 (n : Nat) : Bytes := LittleEndian.encode 4 n

def u64 (n : Nat) : Bytes := LittleEndian.encode 8 n

def str (s : String) : Bytes := u64 (Utf8.encode s).length ++ Utf8.encode s

def opt (enc : α → Bytes) : Option α → Bytes
  | none => [0]
  | some a => 1 :: enc a

def seq (enc : α → Bytes) (l : List α) : Bytes := u64 l.length ++ l.flatMap enc

/-- The fields of a struct, in the order of their declaration. -/
def fields (parts : List Bytes) : Bytes := parts.flatten

/-- A variant of an enum: its index, then its fields. -/
def variant (index : Nat) (parts : List Bytes) : Bytes := fields (u32 index :: parts)

/-- Text whose length a `u64` holds. -/
def Text (s : String) : Prop := (Utf8.encode s).length < 2 ^ 64

instance (s : String) : Decidable (Text s) := inferInstanceAs (Decidable (_ < _))

/-- A sequence whose length a `u64` holds and whose elements are in range. -/
def Seq (ok : α → Prop) (l : List α) : Prop := l.length < 2 ^ 64 ∧ ∀ a ∈ l, ok a

instance (ok : α → Prop) [DecidablePred ok] (l : List α) : Decidable (Seq ok l) :=
  inferInstanceAs (Decidable (_ ∧ _))

def Opt (ok : α → Prop) (o : Option α) : Prop := ∀ a ∈ o, ok a

instance (ok : α → Prop) [DecidablePred ok] (o : Option α) : Decidable (Opt ok o) :=
  match o with
  | none => isTrue fun _ member => by cases member
  | some a => decidable_of_iff (ok a) ⟨fun holds _ member => Option.some.inj member ▸ holds,
      fun all => all a rfl⟩

namespace Decoder

def ended (wanted pos have' : Nat) : String :=
  "unexpected end of input: " ++ toString wanted ++ " bytes at " ++ toString pos ++ " of " ++
    toString have'

def u8 : Dec String Nat := Reader.int id ended 1

def u32 : Dec String Nat := Reader.int id ended 4

def u64 : Dec String Nat := Reader.int id ended 8

def bool : Dec String Bool := do
  match ← u8 with
  | 0 => return false
  | 1 => return true
  | _ => throw "invalid value for a bool"

def str : Dec String String := do
  let n ← u64
  let raw ← Reader.take id ended n
  match Utf8.decode? raw with
  | some s => return s
  | none => throw "string is not valid utf8"

def opt (m : Dec String α) : Dec String (Option α) := do
  match ← u8 with
  | 0 => return none
  | 1 => do
    let a ← m
    return some a
  | _ => throw "tag for an option is not 0 or 1"

def seq (m : Dec String α) : Dec String (List α) := do
  let n ← u64
  Reader.times m n

end Decoder

variable {fits : Nat → Prop} {strict : Prop}

theorem exact_id : Exact id fits strict := ⟨fun _ _ _ _ => rfl, fun _ _ => rfl⟩

theorem decodes_u8 {n : Nat} (bounded : n < 256) :
    Decodes fits strict Decoder.u8 [UInt8.ofNat n] n := by
  have read : Decodes fits strict Decoder.u8 (LittleEndian.encode 1 n) n :=
    Reader.decodes_int exact_id Decoder.ended (by omega)
  have low : n % 256 = n := by omega
  rwa [LittleEndian.encode, LittleEndian.encode, low] at read

theorem decodes_u32 {n : Nat} (bounded : n < 2 ^ 32) :
    Decodes fits strict Decoder.u32 (u32 n) n :=
  Reader.decodes_int exact_id Decoder.ended (by omega : n < 256 ^ 4)

theorem decodes_u64 {n : Nat} (bounded : n < 2 ^ 64) :
    Decodes fits strict Decoder.u64 (u64 n) n :=
  Reader.decodes_int exact_id Decoder.ended (by omega : n < 256 ^ 8)

theorem decodes_variant {next : Nat → Dec String β} {index : Nat} {parts : List Bytes} {b : β}
    (bounded : index < 2 ^ 32) (others : Decodes fits strict (next index) parts.flatten b) :
    Decodes fits strict (Decoder.u32 >>= next) (variant index parts) b :=
  (decodes_u32 bounded).field others

theorem decodes_bool (b : Bool) : Decodes fits strict Decoder.bool (bool b) b := by
  cases b with
  | false => exact (decodes_u8 (n := 0) (by omega)).last (.pure false)
  | true => exact (decodes_u8 (n := 1) (by omega)).last (.pure true)

theorem decodes_str {s : String} (text : Text s) : Decodes fits strict Decoder.str (str s) s := by
  have known : Decodes fits strict (match Utf8.decode? (Utf8.encode s) with
      | some s => pure s
      | none => throw "string is not valid utf8" : Dec String String) [] s := by
    rw [Utf8.decode?_encode]
    exact .pure s
  exact (decodes_u64 text).bind
    ((Reader.decodes_take exact_id Decoder.ended (Utf8.encode s)).last known)

theorem decodes_opt {m : Dec String α} {enc : α → Bytes} {o : Option α}
    (each : ∀ a ∈ o, Decodes fits strict m (enc a) a) :
    Decodes fits strict (Decoder.opt m) (opt enc o) o := by
  cases o with
  | none => exact (decodes_u8 (n := 0) (by omega)).last (.pure none)
  | some a => exact (decodes_u8 (n := 1) (by omega)).bind ((each a rfl).map some)

theorem decodes_seq {m : Dec String α} {enc : α → Bytes} {ok : α → Prop} {l : List α}
    (inRange : Seq ok l) (each : ∀ a, ok a → Decodes fits strict m (enc a) a) :
    Decodes fits strict (Decoder.seq m) (seq enc l) l := by
  have elements := Decodes.times (f := id) fun a member => each a (inRange.2 a member)
  rw [List.map_id] at elements
  exact (decodes_u64 inRange.1).bind elements

end Bincode
