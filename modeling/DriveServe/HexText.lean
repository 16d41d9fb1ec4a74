import DriveServe.Share

set_option autoImplicit false

/-! Bytes as hex digits, and the three readers of them. -/

namespace DriveServe

def hexDigit (n : Nat) : Char := Char.ofNat (if n < 10 then 48 + n else 87 + n)

/-- The digits of bytes, two each: `hex::encode`, `bytes.hex` and the `hex` of the
JavaScript SDK. -/
def hexDigits : Bytes → List Char
  | [] => []
  | byte :: rest => hexDigit (byte.toNat / 16) :: hexDigit (byte.toNat % 16) :: hexDigits rest

def hexEncode (bytes : Bytes) : String := String.ofList (hexDigits bytes)

theorem hexValue_hexDigit {n : Nat} (small : n < 16) : hexValue (hexDigit n) = some n := by
  have all : ∀ n < 16, hexValue (hexDigit n) = some n := by decide
  exact all n small

theorem byte_halves (byte : UInt8) :
    UInt8.ofNat (16 * (byte.toNat / 16) + byte.toNat % 16) = byte := by
  rw [Nat.div_add_mod]
  exact UInt8.ofNat_toNat

theorem hexDecode_hexDigits (bytes : Bytes) : hexDecode (hexDigits bytes) = some bytes := by
  induction bytes with
  | nil => rfl
  | cons byte rest ih =>
    have size : byte.toNat < 256 := byte.toNat_lt
    simp only [hexDigits, hexDecode, hexValue_hexDigit (by omega : byte.toNat / 16 < 16),
      hexValue_hexDigit (by omega : byte.toNat % 16 < 16), ih, Option.bind_eq_bind,
      Option.bind_some, Option.pure_def, byte_halves]

theorem hexDecode_hexEncode (bytes : Bytes) : hexDecode (hexEncode bytes).toList = some bytes := by
  rw [hexEncode, String.toList_ofList, hexDecode_hexDigits]

namespace Py

/-- ASCII white space, which `bytes.fromhex` skips between bytes. -/
def isAsciiSpace (c : Char) : Bool := c == ' ' || decide (9 ≤ c.toNat ∧ c.toNat ≤ 13)

def hexPairs : List Char → Option Bytes
  | [] => some []
  | high :: rest =>
    if isAsciiSpace high then hexPairs rest
    else
      match rest with
      | [] => none
      | low :: rest => do
        let h ← hexValue high
        let l ← hexValue low
        let bytes ← hexPairs rest
        return UInt8.ofNat (16 * h + l) :: bytes

/-- `bytes.fromhex`. -/
def fromHex (text : String) : Except String Bytes :=
  Outcome.okOr (hexPairs text.toList) "ValueError: non-hexadecimal number found in fromhex() arg"

theorem isAsciiSpace_hexDigit {n : Nat} (small : n < 16) : isAsciiSpace (hexDigit n) = false := by
  have all : ∀ n < 16, isAsciiSpace (hexDigit n) = false := by decide
  exact all n small

theorem fromHex_hexEncode (bytes : Bytes) : fromHex (hexEncode bytes) = .ok bytes := by
  have pairs : hexPairs (hexDigits bytes) = some bytes := by
    induction bytes with
    | nil => rfl
    | cons byte rest ih =>
      have size : byte.toNat < 256 := byte.toNat_lt
      have high : byte.toNat / 16 < 16 := by omega
      have low : byte.toNat % 16 < 16 := by omega
      rw [hexDigits, hexPairs, if_neg (by simp [isAsciiSpace_hexDigit high])]
      simp only [hexValue_hexDigit high, hexValue_hexDigit low, ih, Option.bind_eq_bind,
        Option.bind_some, Option.pure_def, byte_halves]
  rw [fromHex, hexEncode, String.toList_ofList, pairs]
  rfl

end Py

namespace Js

/-- White space as JavaScript has it: the byte order mark counts, `NEL` does not. -/
def isJsWhite (c : Char) : Bool := c == '\uFEFF' || (isWhite c && c != '\u0085')

/-- The number digits stand for. -/
def digitsValue (digits : List Char) : Nat :=
  digits.foldl (fun value c => 16 * value + (hexValue c).getD 0) 0

def withoutMark : List Char → List Char
  | '0' :: 'x' :: rest | '0' :: 'X' :: rest => rest
  | text => text

/-- `parseInt(text, 16)`, as a `Uint8Array` takes it: what is no number is 0. -/
def parseByte (text : List Char) : UInt8 :=
  let magnitude (text : List Char) : Nat :=
    digitsValue ((withoutMark text).takeWhile fun c => (hexValue c).isSome)
  match text.dropWhile isJsWhite with
  | '-' :: rest => UInt8.ofInt (-(magnitude rest : Int))
  | '+' :: rest => UInt8.ofNat (magnitude rest)
  | rest => UInt8.ofNat (magnitude rest)

/-- `unhex`: a digit left over at the end is dropped. -/
def unhexDigits : List Char → Bytes
  | high :: low :: rest => parseByte [high, low] :: unhexDigits rest
  | _ => []

def unhex (text : String) : Bytes := unhexDigits text.toList

theorem parseByte_hexDigits {h l : Nat} (high : h < 16) (low : l < 16) :
    parseByte [hexDigit h, hexDigit l] = UInt8.ofNat (16 * h + l) := by
  have all : ∀ h < 16, ∀ l < 16,
      parseByte [hexDigit h, hexDigit l] = UInt8.ofNat (16 * h + l) := by decide
  exact all h high l low

theorem unhex_hexEncode (bytes : Bytes) : unhex (hexEncode bytes) = bytes := by
  rw [unhex, hexEncode, String.toList_ofList]
  induction bytes with
  | nil => rfl
  | cons byte rest ih =>
    have size : byte.toNat < 256 := byte.toNat_lt
    rw [hexDigits, unhexDigits, ih, parseByte_hexDigits (by omega) (by omega), byte_halves]

end Js

end DriveServe
