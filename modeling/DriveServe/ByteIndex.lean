import Mathlib.Algebra.GroupWithZero.Nat

set_option autoImplicit false

/-! Text indexed by bytes. A slice at a byte that is out of range, or inside of a
character, does not exist. -/

namespace ByteIndex

def size (l : List Char) : Nat := (l.map Char.utf8Size).sum

/-- Cut at a byte. -/
def cutAt : (l : List Char) → (index : Nat) → Option (List Char × List Char)
  | l, 0 => some ([], l)
  | [], _ + 1 => none
  | c :: rest, index + 1 =>
    if c.utf8Size ≤ index + 1 then
      (cutAt rest (index + 1 - c.utf8Size)).map fun (front, back) => (c :: front, back)
    else none

/-- The byte at which the last character of a kind begins. -/
def rfind (p : Char → Bool) : List Char → Option Nat
  | [] => none
  | c :: rest =>
    match rfind p rest with
    | some index => some (c.utf8Size + index)
    | none => if p c = true then some 0 else none

theorem size_cons (c : Char) (rest : List Char) : size (c :: rest) = c.utf8Size + size rest := rfl

theorem size_append (front back : List Char) : size (front ++ back) = size front + size back := by
  rw [size, List.map_append, List.sum_append]
  rfl

theorem size_eq_zero_iff (l : List Char) : size l = 0 ↔ l = [] := by
  cases l with
  | nil => exact iff_of_true rfl rfl
  | cons c rest =>
    have positive := c.utf8Size_pos
    rw [size_cons]
    exact iff_of_false (by omega) (List.cons_ne_nil c rest)

theorem cutAt_size (front back : List Char) :
    cutAt (front ++ back) (size front) = some (front, back) := by
  induction front with
  | nil => cases back <;> rfl
  | cons c rest ih =>
    obtain ⟨index, whole⟩ : ∃ index, size (c :: rest) = index + 1 := by
      have positive := c.utf8Size_pos
      rw [size_cons]
      exact ⟨c.utf8Size + size rest - 1, by omega⟩
    have behind : index + 1 - c.utf8Size = size rest := by
      rw [size_cons] at whole
      omega
    have fits : c.utf8Size ≤ index + 1 := by
      rw [size_cons] at whole
      omega
    rw [whole, List.cons_append, cutAt, if_pos fits, behind, ih]
    rfl

theorem rfind_eq_none_iff {p : Char → Bool} {l : List Char} :
    rfind p l = none ↔ ∀ c ∈ l, p c = false := by
  induction l with
  | nil => simp [rfind]
  | cons c rest ih =>
    rw [rfind, List.forall_mem_cons, ← ih]
    cases rfind p rest with
    | none => simp
    | some index => simp

/-- The last character of a kind is the one with none of the kind behind it. -/
theorem rfind_append_cons {p : Char → Bool} {c : Char} (found : p c = true) (front : List Char)
    {back : List Char} (clean : ∀ d ∈ back, p d = false) :
    rfind p (front ++ c :: back) = some (size front) := by
  induction front with
  | nil =>
    rw [List.nil_append, rfind, rfind_eq_none_iff.mpr clean]
    exact if_pos found
  | cons d rest ih =>
    rw [List.cons_append, rfind, ih, size_cons]

end ByteIndex
