import Mathlib.Init

set_option autoImplicit false

/-! UTF-8 text: the encoding of a string and the decoding that replaces what is
malformed, one replacement character for each maximal part that could have begun a
character. -/

namespace Utf8

def encode (s : String) : List UInt8 := s.toList.flatMap String.utf8EncodeChar

/-- How many bytes follow a leading byte, and between which two the first of them
lies; none where the byte leads nothing. -/
def leads (b : UInt8) : Nat × UInt8 × UInt8 :=
  if 0xC2 ≤ b ∧ b ≤ 0xDF then (1, 0x80, 0xBF)
  else if b = 0xE0 then (2, 0xA0, 0xBF)
  else if b = 0xED then (2, 0x80, 0x9F)
  else if 0xE1 ≤ b ∧ b ≤ 0xEF then (2, 0x80, 0xBF)
  else if b = 0xF0 then (3, 0x90, 0xBF)
  else if b = 0xF4 then (3, 0x80, 0x8F)
  else if 0xF1 ≤ b ∧ b ≤ 0xF3 then (3, 0x80, 0xBF)
  else (0, 0, 0)

/-- How many of the bytes at the front one replacement character stands for. -/
def malformed : List UInt8 → Nat
  | [] => 0
  | b :: rest =>
    let (count, low, high) := leads b
    match rest with
    | [] => 1
    | first :: more =>
      if 0 < count ∧ low ≤ first ∧ first ≤ high then
        2 + ((more.take (count - 1)).takeWhile fun c => 0x80 ≤ c && c ≤ 0xBF).length
      else 1

/-- The character at the front, if the bytes there are one. -/
def front (bytes : List UInt8) : Option Char := bytes.toByteArray.utf8DecodeChar? 0

/-- Decode at most `fuel` characters and replacements. -/
def decodeChars : (fuel : Nat) → List UInt8 → List Char
  | 0, _ => []
  | fuel + 1, bytes =>
    if bytes = [] then []
    else
      match front bytes with
      | some c => c :: decodeChars fuel (bytes.drop c.utf8Size)
      | none => '\uFFFD' :: decodeChars fuel (bytes.drop (malformed bytes))

/-- Each character and each replacement takes a byte at least. -/
def decode (bytes : List UInt8) : String := String.ofList (decodeChars bytes.length bytes)

theorem front_encodeChar (c : Char) (rest : List UInt8) :
    front (String.utf8EncodeChar c ++ rest) = some c := by
  rw [front, List.toByteArray_append]
  exact ByteArray.utf8DecodeChar?_utf8EncodeChar_append

theorem decodeChars_encode (chars : List Char) (fuel : Nat)
    (enough : (chars.flatMap String.utf8EncodeChar).length ≤ fuel) :
    decodeChars fuel (chars.flatMap String.utf8EncodeChar) = chars := by
  induction chars generalizing fuel with
  | nil =>
    cases fuel <;> rfl
  | cons c rest ih =>
    have size := String.length_utf8EncodeChar c
    have some := c.utf8Size_pos
    rw [List.flatMap_cons, List.length_append, size] at enough
    cases fuel with
    | zero => omega
    | succ fuel =>
      have nonempty : String.utf8EncodeChar c ++ rest.flatMap String.utf8EncodeChar ≠ [] := by
        simp
      rw [List.flatMap_cons, decodeChars, if_neg nonempty, front_encodeChar]
      dsimp only
      rw [← size, List.drop_left, ih fuel (by omega)]

/-- Text is read back from its encoding. -/
theorem decode_encode (s : String) : decode (encode s) = s := by
  rw [decode, encode, decodeChars_encode _ _ (Nat.le_refl _), String.ofList_toList]

/-- Decoding that accepts well-formed text only. -/
def decode? (bytes : List UInt8) : Option String :=
  if encode (decode bytes) = bytes then some (decode bytes) else none

theorem decode?_encode (s : String) : decode? (encode s) = some s := by
  rw [decode?, decode_encode, if_pos rfl]

example : decode [0x61, 0xE2, 0x82, 0x62] = "a\uFFFDb" := by decide +kernel

end Utf8
