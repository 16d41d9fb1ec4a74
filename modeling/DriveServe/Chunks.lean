import Mathlib.Data.List.Basic

set_option autoImplicit false

/-! Lists cut into pieces of one size, and pieces cut out of lists by positions that
may count from the end. -/

namespace Chunks

variable {α : Type}

/-- The pieces of `l` at the multiples of `size`; the last one may be short. -/
def chunks (size : Nat) (l : List α) : List (List α) :=
  (List.range ((l.length + (size - 1)) / size)).map fun i => (l.drop (i * size)).take size

@[simp]
theorem chunks_nil (size : Nat) : chunks size ([] : List α) = [] := by
  unfold chunks
  rcases Nat.eq_zero_or_pos size with rfl | positive
  · simp
  · rw [List.length_nil, Nat.zero_add, Nat.div_eq_of_lt (by omega)]
    rfl

theorem chunks_cons {size : Nat} (positive : 0 < size) {l : List α} (nonempty : l ≠ []) :
    chunks size l = l.take size :: chunks size (l.drop size) := by
  have some : 0 < l.length := List.length_pos_iff.mpr nonempty
  have count : (l.length + (size - 1)) / size =
      ((l.drop size).length + (size - 1)) / size + 1 := by
    rw [List.length_drop]
    by_cases short : l.length ≤ size
    · have rest : l.length - size = 0 := by omega
      have upper : l.length + (size - 1) = (l.length - 1) + size := by omega
      rw [rest, upper, Nat.add_div_right _ positive, Nat.div_eq_of_lt (by omega),
        Nat.div_eq_of_lt (by omega)]
    · have split : l.length + (size - 1) = (l.length - size + (size - 1)) + size := by omega
      rw [split, Nat.add_div_right _ positive]
  unfold chunks
  rw [count, List.range_succ_eq_map, List.map_cons, List.map_map, Nat.zero_mul, List.drop_zero]
  congr 1
  apply List.map_congr_left
  intro i _
  rw [Function.comp, List.drop_drop, Nat.succ_mul, Nat.add_comm]

theorem flatten_chunks {size : Nat} (positive : 0 < size) (l : List α) :
    (chunks size l).flatten = l := by
  induction measure : l.length using Nat.strongRecOn generalizing l with
  | _ n ih =>
  by_cases nonempty : l = []
  · rw [nonempty, chunks_nil, List.flatten_nil]
  · have some : 0 < l.length := List.length_pos_iff.mpr nonempty
    have shorter : (l.drop size).length < n := by
      rw [List.length_drop]
      omega
    rw [chunks_cons positive nonempty, List.flatten_cons, ih _ shorter _ rfl,
      List.take_append_drop]

/-- A position in a list of `n` elements, counted from the end when it is negative. -/
def position (n : Nat) (i : Int) : Nat :=
  if i < 0 then (n + i).toNat else min i.toNat n

/-- The elements from one position up to another one. -/
def slice (l : List α) (start stop : Int) : List α :=
  (l.take (position l.length stop)).drop (position l.length start)

@[simp]
theorem position_natCast (n i : Nat) : position n (i : Int) = min i n := by
  have positive : ¬ (i : Int) < 0 := by omega
  rw [position, if_neg positive, Int.toNat_natCast]

theorem slice_of_count (l : List α) (start count : Nat) :
    slice l start (start + count : Nat) = (l.drop start).take count := by
  unfold slice
  rw [position_natCast, position_natCast, ← List.take_eq_take_min]
  by_cases inside : start ≤ l.length
  · rw [Nat.min_eq_left inside, List.drop_take, Nat.add_sub_cancel_left]
  · rw [Nat.min_eq_right (by omega), List.drop_of_length_le (i := start) (by omega),
      List.take_nil, List.drop_eq_nil_iff, List.length_take]
    omega

theorem slice_to_end (l : List α) (start : Nat) {stop : Int} (behind : (l.length : Int) ≤ stop) :
    slice l start stop = l.drop start := by
  have last : position l.length stop = l.length := by
    have positive : ¬ stop < 0 := by omega
    rw [position, if_neg positive]
    omega
  unfold slice
  rw [last, List.take_length, position_natCast]
  by_cases inside : start ≤ l.length
  · rw [Nat.min_eq_left inside]
  · rw [Nat.min_eq_right (by omega), List.drop_length, List.drop_of_length_le (by omega)]

/-- Positions at or behind the end are all alike. -/
theorem slice_clamped (l : List α) (start : Nat) {stop stop' : Int}
    (behind : (l.length : Int) ≤ stop) (behind' : (l.length : Int) ≤ stop') :
    slice l start stop = slice l start stop' := by
  rw [slice_to_end l start behind, slice_to_end l start behind']

end Chunks
