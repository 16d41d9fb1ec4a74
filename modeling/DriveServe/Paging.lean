import Mathlib.Order.Lattice

set_option autoImplicit false

/-! Paging through a changing set in the order of its keys. A page starts behind a
key, not at a position, so what comes and goes between two pages moves nothing. -/

namespace Paging

variable {κ : Type} [LinearOrder κ]

/-- The keys behind a cursor. -/
def behind (cursor : Option κ) (keys : List κ) : List κ :=
  match cursor with
  | none => keys
  | some c => keys.filter fun key => c < key

def page (cursor : Option κ) (limit : Nat) (keys : List κ) : List κ :=
  (behind cursor keys).take limit

/-- The last key of the page, if any key is left behind it. -/
def next (cursor : Option κ) (limit : Nat) (keys : List κ) : Option κ :=
  if (page cursor limit keys).length < (behind cursor keys).length then
    (page cursor limit keys).getLast?
  else none

theorem mem_behind {cursor : Option κ} {keys : List κ} {key : κ} :
    key ∈ behind cursor keys ↔ key ∈ keys ∧ ∀ c ∈ cursor, c < key := by
  cases cursor with
  | none => simp [behind]
  | some c => simp [behind]

theorem behind_ascending {keys : List κ} (sorted : keys.Pairwise (· < ·)) (cursor : Option κ) :
    (behind cursor keys).Pairwise (· < ·) := by
  cases cursor with
  | none => exact sorted
  | some c => exact sorted.filter _

theorem page_ascending {keys : List κ} (sorted : keys.Pairwise (· < ·)) (cursor : Option κ)
    (limit : Nat) : (page cursor limit keys).Pairwise (· < ·) :=
  (behind_ascending sorted cursor).sublist (List.take_sublist _ _)

theorem mem_behind_of_page {cursor : Option κ} {limit : Nat} {keys : List κ} {key : κ}
    (member : key ∈ page cursor limit keys) : key ∈ behind cursor keys :=
  List.mem_of_mem_take member

theorem next_eq_none_iff {cursor : Option κ} {limit : Nat} (positive : 0 < limit)
    {keys : List κ} :
    next cursor limit keys = none ↔ page cursor limit keys = behind cursor keys := by
  have bounded : (page cursor limit keys).length ≤ (behind cursor keys).length := by
    rw [page, List.length_take]
    exact Nat.min_le_right ..
  unfold next
  constructor
  · intro ended
    split at ended
    · rename_i more
      rw [List.getLast?_eq_none_iff] at ended
      rw [ended, List.length_nil] at more
      rw [page, List.take_eq_nil_iff] at ended
      rcases ended with zero | empty
      · omega
      · simp [empty] at more
    · rename_i all
      apply List.take_of_length_le
      rw [page, List.length_take] at all
      omega
  · intro whole
    rw [whole, if_neg (Nat.lt_irrefl _)]

/-- The next cursor stands on the page and no key of the page is behind it. -/
theorem next_eq_some {cursor : Option κ} {limit : Nat} {keys : List κ} {c : κ}
    (sorted : keys.Pairwise (· < ·)) (more : next cursor limit keys = some c) :
    c ∈ page cursor limit keys ∧ (∀ key ∈ page cursor limit keys, key ≤ c) ∧
      ∀ key ∈ (behind cursor keys).drop limit, c < key := by
  rw [next, Option.ite_none_right_eq_some] at more
  obtain ⟨_, more⟩ := more
  have onPage := List.mem_of_getLast? more
  obtain ⟨front, shape⟩ := List.getLast?_eq_some_iff.mp more
  refine ⟨onPage, ?_, ?_⟩
  · intro key member
    have ascending := page_ascending sorted cursor limit
    rw [shape, List.pairwise_append] at ascending
    rw [shape, List.mem_append, List.mem_singleton] at member
    rcases member with before | same
    · exact le_of_lt (ascending.2.2 key before c (List.mem_singleton_self c))
    · exact le_of_eq same
  · have whole := behind_ascending sorted cursor
    rw [← List.take_append_drop limit (behind cursor keys), List.pairwise_append] at whole
    exact whole.2.2 c onPage

theorem next_eq_none_iff_forall {cursor : Option κ} {limit : Nat} (positive : 0 < limit)
    {keys : List κ} (sorted : keys.Pairwise (· < ·)) :
    next cursor limit keys = none ↔
      ∀ key ∈ keys, (∀ c ∈ cursor, c < key) → key ∈ page cursor limit keys := by
  constructor
  · intro ended key present after
    rw [(next_eq_none_iff positive).mp ended]
    exact mem_behind.mpr ⟨present, after⟩
  · intro all
    rw [next_eq_none_iff positive]
    apply List.take_of_length_le
    by_contra longer
    obtain ⟨key, left⟩ := List.exists_mem_of_ne_nil ((behind cursor keys).drop limit) (by
      rw [ne_eq, List.drop_eq_nil_iff]
      exact longer)
    have ⟨present, after⟩ := mem_behind.mp (List.mem_of_mem_drop left)
    have whole := behind_ascending sorted cursor
    rw [← List.take_append_drop limit (behind cursor keys), List.pairwise_append] at whole
    exact absurd (whole.2.2 key (all key present after) key left) (lt_irrefl key)

/-- The page after the next cursor starts where this one stops. -/
theorem behind_next {cursor : Option κ} {limit : Nat} {keys : List κ} {c : κ}
    (sorted : keys.Pairwise (· < ·)) (more : next cursor limit keys = some c) :
    behind (some c) keys = (behind cursor keys).drop limit := by
  have ⟨onPage, upTo, beyond⟩ := next_eq_some sorted more
  have later : behind (some c) keys = (behind cursor keys).filter fun key => c < key := by
    cases cursor with
    | none => rfl
    | some old =>
      have advanced : old < c := (mem_behind.mp (mem_behind_of_page onPage)).2 old rfl
      simp only [behind, List.filter_filter]
      apply List.filter_congr
      intro key _
      have implied : c < key → old < key := advanced.trans
      by_cases after : c < key <;> simp [after, implied]
  have cut : (behind cursor keys).filter (fun key => c < key) =
      ((page cursor limit keys) ++ (behind cursor keys).drop limit).filter fun key => c < key := by
    rw [page, List.take_append_drop]
  have none : (page cursor limit keys).filter (fun key => c < key) = [] := by
    rw [List.filter_eq_nil_iff]
    intro key member
    simpa using upTo key member
  have all : ((behind cursor keys).drop limit).filter (fun key => c < key) =
      (behind cursor keys).drop limit := by
    rw [List.filter_eq_self]
    intro key member
    simpa using beyond key member
  rw [later, cut, List.filter_append, none, all, List.nil_append]

/-- A client that pages: its cursor, the keys it was handed, and the sets of keys
its requests were answered from. -/
structure Scan (κ : Type) where
  cursor : Option κ
  listed : List κ
  finished : Bool
  met : List (List κ)

namespace Scan

def start : Scan κ := { cursor := none, listed := [], finished := false, met := [] }

def turn (scan : Scan κ) (limit : Nat) (keys : List κ) : Scan κ where
  cursor := next scan.cursor limit keys
  listed := scan.listed ++ page scan.cursor limit keys
  finished := (next scan.cursor limit keys).isNone
  met := scan.met ++ [keys]

/-- The scans that requests lead to, each answered from a set of its own. -/
inductive Reached : Scan κ → Prop
  | start : Reached start
  | turn {scan : Scan κ} (before : Reached scan) (unfinished : scan.finished = false)
      {limit : Nat} (positive : 0 < limit) {keys : List κ} (sorted : keys.Pairwise (· < ·)) :
      Reached (scan.turn limit keys)

def Passed (scan : Scan κ) (key : κ) : Prop := scan.finished = true ∨ ∃ c ∈ scan.cursor, key ≤ c

structure Inv (scan : Scan κ) : Prop where
  ascending : scan.listed.Pairwise (· < ·)
  passed : ∀ key ∈ scan.listed, scan.Passed key
  covered : ∀ key, (∀ keys ∈ scan.met, key ∈ keys) → scan.Passed key → key ∈ scan.listed
  known : ∀ key ∈ scan.listed, ∃ keys ∈ scan.met, key ∈ keys

theorem start_inv : (start : Scan κ).Inv where
  ascending := List.Pairwise.nil
  passed _ member := by cases member
  covered _ _ passed := by
    rcases passed with finished | ⟨c, held, _⟩
    · cases finished
    · cases held
  known _ member := by cases member

theorem turn_inv {scan : Scan κ} (inv : scan.Inv) (unfinished : scan.finished = false)
    {limit : Nat} (positive : 0 < limit) {keys : List κ} (sorted : keys.Pairwise (· < ·)) :
    (scan.turn limit keys).Inv := by
  have old : ∀ key ∈ scan.listed, ∃ c ∈ scan.cursor, key ≤ c := fun key member =>
    (inv.passed key member).resolve_left (by simp [unfinished])
  have apart : ∀ a ∈ scan.listed, ∀ b ∈ page scan.cursor limit keys, a < b := by
    intro a listed b paged
    have ⟨c, held, upTo⟩ := old a listed
    exact lt_of_le_of_lt upTo ((mem_behind.mp (mem_behind_of_page paged)).2 c held)
  refine ⟨?_, ?_, ?_, ?_⟩
  · exact List.pairwise_append.mpr ⟨inv.ascending, page_ascending sorted scan.cursor limit, apart⟩
  · intro key member
    cases more : next scan.cursor limit keys with
    | none => exact Or.inl (by simp [turn, more])
    | some c =>
      have ⟨onPage, upTo, _⟩ := next_eq_some sorted more
      refine Or.inr ⟨c, more, ?_⟩
      rcases List.mem_append.mp member with earlier | now
      · exact le_of_lt (apart key earlier c onPage)
      · exact upTo key now
  · intro key present gone
    have here : key ∈ keys := present keys (by simp [turn])
    have before : ∀ keys ∈ scan.met, key ∈ keys := fun keys member =>
      present keys (List.mem_append_left _ member)
    by_cases reached : scan.Passed key
    · exact List.mem_append_left _ (inv.covered key before reached)
    · -- not passed before, so the key is behind the old cursor and up to the new one
      apply List.mem_append_right
      have ahead : key ∈ behind scan.cursor keys := by
        refine mem_behind.mpr ⟨here, fun c held => ?_⟩
        exact not_le.mp fun upTo => reached (Or.inr ⟨c, held, upTo⟩)
      cases more : next scan.cursor limit keys with
      | none => rwa [(next_eq_none_iff positive).mp more]
      | some c =>
        have ⟨_, _, beyond⟩ := next_eq_some sorted more
        have upTo : key ≤ c := by
          rcases gone with finished | ⟨c', held, upTo⟩
          · simp [turn, more] at finished
          · obtain rfl : c = c' := Option.some.inj (more.symm.trans held)
            exact upTo
        rw [← List.take_append_drop limit (behind scan.cursor keys), List.mem_append] at ahead
        rcases ahead with paged | left
        · exact paged
        · exact absurd (beyond key left) (not_lt.mpr upTo)
  · intro key member
    rcases List.mem_append.mp member with earlier | now
    · have ⟨known, among, holds⟩ := inv.known key earlier
      exact ⟨known, List.mem_append_left _ among, holds⟩
    · exact ⟨keys, by simp [turn], (mem_behind.mp (mem_behind_of_page now)).1⟩

theorem Reached.inv {scan : Scan κ} (reached : Reached scan) : scan.Inv := by
  induction reached with
  | start => exact start_inv
  | turn _ unfinished positive sorted ih => exact turn_inv ih unfinished positive sorted

/-- Between turns over one and the same set, what was listed and what is behind the
cursor make up the set. -/
structure Steady (keys : List κ) (scan : Scan κ) : Prop where
  splits : scan.finished = false → scan.listed ++ behind scan.cursor keys = keys
  ended : scan.finished = true → scan.listed = keys

theorem start_steady (keys : List κ) : Steady keys start where
  splits _ := rfl
  ended finished := by cases finished

theorem turn_steady {keys : List κ} (sorted : keys.Pairwise (· < ·)) {scan : Scan κ}
    (steady : Steady keys scan) (unfinished : scan.finished = false) {limit : Nat}
    (positive : 0 < limit) : Steady keys (scan.turn limit keys) := by
  have whole := steady.splits unfinished
  cases more : next scan.cursor limit keys with
  | none =>
    have last := (next_eq_none_iff positive).mp more
    refine ⟨fun open' => by simp [turn, more] at open', fun _ => ?_⟩
    rw [turn, last, whole]
  | some c =>
    refine ⟨fun _ => ?_, fun closed => by simp [turn, more] at closed⟩
    rw [turn, more, behind_next sorted more, List.append_assoc, page, List.take_append_drop, whole]

theorem Steady.left {keys : List κ} {scan : Scan κ} (steady : Steady keys scan)
    (unfinished : scan.finished = false) :
    (behind scan.cursor keys).length = keys.length - scan.listed.length := by
  have whole := congrArg List.length (steady.splits unfinished)
  rw [List.length_append] at whole
  omega

/-- A turn that does not finish lists something and leaves something. -/
theorem Steady.turn_left {keys : List κ} {scan : Scan κ} (steady : Steady keys scan)
    (unfinished : scan.finished = false) {limit : Nat}
    (open' : (scan.turn limit keys).finished = false) :
    scan.listed.length < (scan.turn limit keys).listed.length ∧
      (scan.turn limit keys).listed.length < keys.length := by
  have left := steady.left unfinished
  have more : (next scan.cursor limit keys).isSome = true := by
    simpa [turn] using open'
  obtain ⟨c, stands⟩ := Option.isSome_iff_exists.mp more
  rw [next, Option.ite_none_right_eq_some] at stands
  have some := List.length_pos_of_mem (List.mem_of_getLast? stands.2)
  simp only [turn, List.length_append]
  omega

end Scan

end Paging
