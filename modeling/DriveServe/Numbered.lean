import Mathlib.Data.List.Range

set_option autoImplicit false

/-! Append-only logs whose entries carry the numbers 1, 2, 3 and so on, and the
pages a reader takes from such a log with a cursor. -/

namespace Numbered

variable {α : Type} {seq : α → Nat}

/-- The entries carry their own position, counted from one. -/
def Log (seq : α → Nat) (log : List α) : Prop :=
  log.map seq = List.range' 1 log.length

theorem Log.nil : Log seq [] := rfl

theorem Log.getElem {log : List α} (numbered : Log seq log) {index : Nat}
    (inside : index < log.length) : seq log[index] = index + 1 := by
  have same : (log.map seq)[index]? = (List.range' 1 log.length)[index]? :=
    congrArg (fun numbers => numbers[index]?) numbered
  simp only [List.getElem?_map, List.getElem?_eq_getElem inside, Option.map_some,
    List.getElem?_range' inside, Option.some_inj] at same
  omega

theorem Log.concat {log : List α} (numbered : Log seq log) {entry : α}
    (next : seq entry = log.length + 1) : Log seq (log ++ [entry]) := by
  unfold Log at numbered ⊢
  rw [List.map_append, numbered, List.length_append, List.length_singleton,
    List.range'_concat, List.map_singleton, next, Nat.one_mul, Nat.add_comm 1]

/-- The number of the last entry, zero for an empty log. -/
def last (seq : α → Nat) (log : List α) : Nat := (log.getLast?.map seq).getD 0

theorem Log.last_eq_length {log : List α} (numbered : Log seq log) :
    last seq log = log.length := by
  rcases List.eq_nil_or_concat' log with rfl | ⟨front, entry, rfl⟩
  · rfl
  · have inside : front.length < (front ++ [entry]).length := by simp
    have number := numbered.getElem inside
    simpa [last] using number

theorem Log.filter_eq_drop {log : List α} (numbered : Log seq log) (cursor : Nat) :
    log.filter (fun entry => decide (cursor < seq entry)) = log.drop cursor := by
  induction log using List.reverseRecOn with
  | nil => simp
  | append_singleton front entry ih =>
    have whole : front.length < (front ++ [entry]).length := by simp
    have number : seq entry = front.length + 1 := by
      simpa using numbered.getElem whole
    have before : Log seq front := by
      have numbers : (front ++ [entry]).map seq = List.range' 1 (front ++ [entry]).length :=
        numbered
      rw [List.map_append, List.length_append, List.length_singleton, List.range'_concat] at numbers
      exact (List.append_inj numbers (by simp)).1
    rw [List.filter_append, ih before, List.drop_append]
    by_cases behind : cursor ≤ front.length
    · have kept : cursor < seq entry := by omega
      have none : cursor - front.length = 0 := by omega
      simp [kept, none]
    · have cut : ¬ cursor < seq entry := by omega
      have some : 1 ≤ cursor - front.length := by omega
      have empty : List.drop (cursor - front.length) [entry] = [] := by
        apply List.drop_eq_nil_of_le
        simpa using some
      simp [cut, empty]

def page (log : List α) (cursor limit : Nat) : List α := (log.drop cursor).take limit

/-- The entries with numbers above `low` up to `high`. -/
def between (log : List α) (low high : Nat) : List α := (log.take high).drop low

theorem between_self (log : List α) (cursor : Nat) : between log cursor cursor = [] := by
  apply List.drop_eq_nil_of_le
  rw [List.length_take]
  omega

theorem between_append {log : List α} (more : List α) {low high : Nat}
    (inside : high ≤ log.length ∨ high = low) :
    between (log ++ more) low high = between log low high := by
  rcases inside with inside | rfl
  · rw [between, List.take_append_of_le_length inside]
    rfl
  · rw [between_self, between_self]

/-- Reading on: what lies up to the cursor and the page behind it are one run. -/
theorem between_page (log : List α) {low cursor limit : Nat} (started : low ≤ cursor) :
    between log low cursor ++ page log cursor limit =
      between log low (cursor + (page log cursor limit).length) := by
  have split : log.take (cursor + (page log cursor limit).length) =
      log.take cursor ++ page log cursor limit := by
    rw [List.take_add]
    congr 1
    rw [page, List.length_take, List.take_eq_take_iff]
    omega
  unfold between
  rw [split]
  by_cases room : low ≤ (log.take cursor).length
  · rw [List.drop_append_of_le_length room]
  · have short : log.length < low := by
      rw [List.length_take] at room
      omega
    have none : page log cursor limit = [] := by
      rw [page, List.drop_eq_nil_of_le (by omega), List.take_nil]
    rw [none, List.append_nil, List.append_nil]

/-- The number of a page's last entry, or the cursor itself for an empty page, is
the cursor moved by the page's length. -/
theorem Log.page_last {log : List α} (numbered : Log seq log) (cursor limit : Nat) :
    ((page log cursor limit).getLast?.map seq).getD cursor =
      cursor + (page log cursor limit).length := by
  rcases List.eq_nil_or_concat' (page log cursor limit) with empty | ⟨front, entry, shape⟩
  · rw [empty]
    rfl
  · have inside : front.length < (page log cursor limit).length := by simp [shape]
    have found : (page log cursor limit)[front.length] = entry := by simp [shape]
    have bound : cursor + front.length < log.length := by
      rw [page, List.length_take, List.length_drop] at inside
      omega
    have place : (page log cursor limit)[front.length] = log[cursor + front.length] := by
      simp only [page, List.getElem_take, List.getElem_drop]
    have number := numbered.getElem bound
    rw [← place, found] at number
    rw [shape]
    simp only [List.getLast?_append, List.getLast?_singleton, Option.some_or, Option.map_some,
      Option.getD_some, List.length_append, List.length_singleton, number]
    omega

/-- What lies between two cursors carries the numbers between them. -/
theorem Log.between_numbers {log : List α} (numbered : Log seq log) {low high : Nat}
    (inside : high ≤ log.length) :
    (between log low high).map seq = List.range' (low + 1) (high - low) := by
  unfold Log at numbered
  rw [between, List.map_drop, List.map_take, numbered, List.take_range'_of_length_ge inside,
    List.drop_range', Nat.mul_one, Nat.add_comm 1]

theorem Log.mem_between {log : List α} (numbered : Log seq log) {low high : Nat} {entry : α} :
    entry ∈ between log low high ↔ entry ∈ log ∧ low < seq entry ∧ seq entry ≤ high := by
  unfold between
  rw [List.mem_iff_getElem, List.mem_iff_getElem]
  constructor
  · rintro ⟨index, inside, rfl⟩
    rw [List.length_drop, List.length_take] at inside
    have bound : low + index < log.length := by omega
    have number := numbered.getElem bound
    simp only [List.getElem_drop, List.getElem_take]
    exact ⟨⟨low + index, bound, rfl⟩, by omega, by omega⟩
  · rintro ⟨⟨index, bound, rfl⟩, above, below⟩
    rw [numbered.getElem bound] at above below
    refine ⟨index - low, ?_, ?_⟩
    · rw [List.length_drop, List.length_take]
      omega
    · have place : low + (index - low) = index := by omega
      simp only [List.getElem_drop, List.getElem_take, place]

theorem page_eq_nil_iff (log : List α) (cursor : Nat) {limit : Nat} (positive : 0 < limit) :
    page log cursor limit = [] ↔ log.length ≤ cursor := by
  rw [page, List.take_eq_nil_iff, List.drop_eq_nil_iff]
  omega

end Numbered
