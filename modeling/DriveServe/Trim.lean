import Mathlib.Data.List.DropRight

set_option autoImplicit false

/-! Trimming a list at both ends, first by one class of elements and then by a
second one. The two passes do not in general commute with themselves: a second
run of both may cut the right end again, and never the left one. -/

namespace Trim

variable {α : Type} (p q : α → Bool)

/-- Cut back both ends while `p` holds. -/
def ends (l : List α) : List α := (l.dropWhile p).rdropWhile p

/-- Cut both ends by `p`, then both ends of what is left by `q`. -/
def twice (l : List α) : List α := ends q (ends p l)

/-- The two cuts of `twice` at the left end only. -/
def left (l : List α) : List α := (l.dropWhile p).dropWhile q

/-- The two cuts of `twice` at the right end only. -/
def right (l : List α) : List α := (l.rdropWhile p).rdropWhile q

variable {p q}

/-- The head of what `dropWhile` leaves fails the predicate. -/
theorem head_dropWhile {l : List α} {x : α} {rest : List α}
    (shape : l.dropWhile p = x :: rest) : p x = false := by
  have nonempty : l.dropWhile p ≠ [] := by simp [shape]
  have failed := List.head_dropWhile_not p nonempty
  simpa only [shape, List.head_cons] using failed

theorem dropWhile_of_head {x : α} {rest : List α} (failed : p x = false) :
    (x :: rest).dropWhile p = x :: rest := by
  simp [List.dropWhile, failed]

/-- Dropping from the left either consumes all of the first part or none of the second. -/
theorem dropWhile_append_cases (front back : List α) :
    (front.dropWhile p = [] ∧ (front ++ back).dropWhile p = back.dropWhile p) ∨
      (front.dropWhile p ≠ [] ∧ (front ++ back).dropWhile p = front.dropWhile p ++ back) := by
  rw [List.dropWhile_append]
  by_cases empty : front.dropWhile p = []
  · exact Or.inl ⟨empty, by simp [empty]⟩
  · exact Or.inr ⟨empty, by simp [empty]⟩

/-- A right end that fails the predicate protects everything before it. -/
theorem rdropWhile_append_of_last {front : List α} {x : α} (failed : p x = false)
    (back : List α) :
    (front ++ [x] ++ back).rdropWhile p = front ++ [x] ++ back.rdropWhile p := by
  induction back using List.reverseRecOn with
  | nil => simp [failed]
  | append_singleton back y ih =>
    rw [← List.append_assoc, List.rdropWhile_concat, List.rdropWhile_concat, ih]
    split <;> simp [List.append_assoc]

theorem rdropWhile_cons_of_head {x : α} (failed : p x = false) (back : List α) :
    (x :: back).rdropWhile p = x :: back.rdropWhile p := by
  have general := @rdropWhile_append_of_last _ p [] x failed back
  simpa using general

/-- Cutting the right end respects the order of lists by initial part. -/
theorem rdropWhile_mono {short long : List α} (initial : short <+: long) :
    short.rdropWhile p <+: long.rdropWhile p := by
  rcases List.eq_nil_or_concat' (short.rdropWhile p) with empty | ⟨kept, x, shape⟩
  · rw [empty]
    exact List.nil_prefix
  · have failed : p x = false := by
      have nonempty : short.rdropWhile p ≠ [] := by simp [shape]
      simpa [shape] using List.rdropWhile_last_not p short nonempty
    obtain ⟨cut, same⟩ := List.rdropWhile_prefix p short
    obtain ⟨rest, rfl⟩ := initial
    rw [shape] at same ⊢
    rw [← same, List.append_assoc (kept ++ [x]), rdropWhile_append_of_last failed]
    exact List.prefix_append _ _

/-- The two ends are cut independently, whichever is cut first. -/
theorem dropWhile_rdropWhile_comm (l : List α) :
    (l.rdropWhile p).dropWhile q = (l.dropWhile q).rdropWhile p := by
  induction l using List.reverseRecOn with
  | nil => simp
  | append_singleton l x ih =>
    by_cases cut : p x = true
    · rw [List.rdropWhile_concat_pos _ _ _ cut, ih]
      rcases dropWhile_append_cases (p := q) l [x] with ⟨empty, whole⟩ | ⟨_, whole⟩
      · rw [whole, empty]
        by_cases also : q x = true
        · simp [List.dropWhile, also]
        · simp [List.dropWhile, also, List.rdropWhile_singleton, cut]
      · rw [whole, List.rdropWhile_concat_pos _ _ _ cut]
    · rw [List.rdropWhile_concat_neg _ _ _ cut]
      rcases dropWhile_append_cases (p := q) l [x] with ⟨_, whole⟩ | ⟨_, whole⟩
      · rw [whole]
        by_cases also : q x = true
        · simp [List.dropWhile, also]
        · simp [List.dropWhile, also, List.rdropWhile_singleton, cut]
      · rw [whole, List.rdropWhile_concat_neg _ _ _ cut]

theorem twice_eq_right_left (l : List α) : twice p q l = right p q (left p q l) := by
  unfold twice ends right left
  rw [dropWhile_rdropWhile_comm]

theorem right_concat {y : α} (cut : p y = true) (l : List α) :
    right p q (l ++ [y]) = right p q l := by
  rw [right, List.rdropWhile_concat_pos _ _ _ cut]
  rfl

theorem left_cons {x : α} (cut : p x = true) (l : List α) : left p q (x :: l) = left p q l := by
  simp [left, List.dropWhile, cut]

theorem left_of_head {x : α} {rest : List α} (first : p x = false) (second : q x = false) :
    left p q (x :: rest) = x :: rest := by
  rw [left, dropWhile_of_head first, dropWhile_of_head second]

theorem right_mono {short long : List α} (initial : short <+: long) :
    right p q short <+: right p q long :=
  rdropWhile_mono (rdropWhile_mono initial)

theorem right_initial (l : List α) : right p q l <+: l :=
  List.IsPrefix.trans ( List.rdropWhile_prefix q _) ( List.rdropWhile_prefix p l)

theorem left_suffix (l : List α) : left p q l <:+ l :=
  (List.dropWhile_suffix q).trans (List.dropWhile_suffix p)

theorem twice_infix (l : List α) : twice p q l <:+: l := by
  rw [twice_eq_right_left]
  exact (right_initial _).isInfix.trans (left_suffix l).isInfix

theorem left_mono {short long : List α} (initial : short <+: long) :
    left p q short = [] ∨ left p q short <+: left p q long := by
  obtain ⟨rest, rfl⟩ := initial
  rcases dropWhile_append_cases (p := p) short rest with ⟨empty, _⟩ | ⟨_, whole⟩
  · exact Or.inl (by simp [left, empty])
  · rcases dropWhile_append_cases (p := q) (short.dropWhile p) rest with ⟨empty, _⟩ | ⟨_, inner⟩
    · exact Or.inl empty
    · refine Or.inr ⟨rest, ?_⟩
      unfold left
      rw [whole, inner]

/-- Unless nothing is left of the shorter list, trimming respects initial parts. -/
theorem twice_mono {short long : List α} (initial : short <+: long) :
    twice p q short = [] ∨ twice p q short <+: twice p q long := by
  rw [twice_eq_right_left, twice_eq_right_left]
  rcases left_mono (p := p) (q := q) initial with empty | kept
  · exact Or.inl (by simp [empty, right])
  · exact Or.inr (right_mono kept)

/-- What `twice` leaves never starts with an element of the second class. -/
theorem head_twice {l : List α} {x : α} {rest : List α}
    (shape : twice p q l = x :: rest) : q x = false := by
  rw [twice_eq_right_left] at shape
  obtain ⟨cut, whole⟩ := right_initial (p := p) (q := q) (left p q l)
  rw [shape, List.cons_append] at whole
  exact head_dropWhile whole.symm

theorem last_twice {l front : List α} {x : α} (shape : twice p q l = front ++ [x]) :
    q x = false := by
  have nonempty : twice p q l ≠ [] := by simp [shape]
  have failed : ¬ q ((twice p q l).getLast nonempty) = true :=
    List.rdropWhile_last_not q ((ends p l).dropWhile q) nonempty
  simpa [shape] using failed

/-- Behind a guard of the second class alone, a second run of both passes cuts
the right end only, provided the guarded list does not start in that class. -/
theorem twice_cons_guard {x : α} (guard : q x = true) (kept : p x = false) {l : List α}
    (head : ∀ y rest, l = y :: rest → q y = false) :
    twice p q (x :: l) = right p q l := by
  unfold twice ends
  rw [dropWhile_of_head kept, rdropWhile_cons_of_head kept]
  simp only [List.dropWhile, guard]
  unfold right
  congr 1
  obtain ⟨cut, whole⟩ := List.rdropWhile_prefix p l
  cases shape : l.rdropWhile p with
  | nil => rfl
  | cons y rest =>
    rw [shape, List.cons_append] at whole
    exact dropWhile_of_head (head y _ whole.symm)

theorem ends_inside (l : List α) : ends p l <:+: l :=
  (List.rdropWhile_prefix p (l.dropWhile p)).isInfix.trans (List.dropWhile_suffix p).isInfix

theorem exists_ends (p : α → Bool) (l : List α) :
    ∃ front back, l = front ++ (ends p l ++ back) ∧ (∀ x ∈ front, p x = true) ∧
      ∀ x ∈ back, p x = true := by
  refine ⟨l.takeWhile p, (l.dropWhile p).rtakeWhile p, ?_, ?_, ?_⟩
  · rw [ends, List.rdropWhile_append_rtakeWhile, List.takeWhile_append_dropWhile]
  · exact fun x => List.mem_takeWhile_imp
  · exact fun x => List.mem_rtakeWhile_imp

theorem ends_idem (l : List α) : ends p (ends p l) = ends p l := by
  unfold ends
  rw [dropWhile_rdropWhile_comm, List.dropWhile_idempotent, List.rdropWhile_idempotent]

theorem eq_of_infix_of_infix {short mid long : List α} (inner : short <:+: mid)
    (outer : mid <:+: long) (whole : short = long) : mid = long :=
  outer.eq_of_length_le (whole ▸ inner.length_le)

/-- What both passes leave is stable under both exactly when it is stable under the
first one. -/
theorem twice_twice_iff (l : List α) :
    twice p q (twice p q l) = twice p q l ↔ ends p (twice p q l) = twice p q l := by
  constructor
  · exact eq_of_infix_of_infix (ends_inside _) (ends_inside _)
  · intro stable
    rw [twice, stable]
    exact ends_idem _

theorem right_of_twice {l : List α} (stable : twice p q l = l) : right p q l = l := by
  have cut : left p q l = l := by
    rw [twice_eq_right_left] at stable
    exact eq_of_infix_of_infix (right_initial _).isInfix (left_suffix l).isInfix stable
  rw [twice_eq_right_left, cut] at stable
  exact stable

/-- The right end stays as it is exactly where neither class holds of the last element. -/
theorem right_eq_self_iff (l : List α) :
    right p q l = l ↔ ∀ x ∈ l.getLast?, p x = false ∧ q x = false := by
  rcases List.eq_nil_or_concat' l with rfl | ⟨front, y, rfl⟩
  · simp [right]
  · rw [List.getLast?_concat]
    have shorter : right p q (front ++ [y]) <+: front →
        ¬ right p q (front ++ [y]) = front ++ [y] := by
      intro initial same
      have fewer := initial.length_le
      rw [same, List.length_append, List.length_singleton] at fewer
      omega
    by_cases first : p y = true
    · simp only [Option.mem_def, Option.some_inj, forall_eq', first, Bool.true_eq_false, false_and,
        iff_false]
      apply shorter
      rw [right_concat first]
      exact right_initial front
    · by_cases second : q y = true
      · simp only [Option.mem_def, Option.some_inj, forall_eq', second, Bool.true_eq_false,
          and_false, iff_false]
        apply shorter
        rw [right, List.rdropWhile_concat_neg _ _ _ first, List.rdropWhile_concat_pos _ _ _ second]
        exact List.rdropWhile_prefix q front
      · rw [right, List.rdropWhile_concat_neg _ _ _ first, List.rdropWhile_concat_neg _ _ _ second]
        rw [Bool.not_eq_true] at first second
        simp [first, second]

theorem getLast?_ends_iff {l : List α} {x : α} (kept : p x = false) :
    (ends p l).getLast? = some x ↔
      ∃ front back, l = front ++ x :: back ∧ ∀ y ∈ back, p y = true := by
  constructor
  · intro last
    obtain ⟨before, after, whole, _, cut⟩ := exists_ends p l
    obtain ⟨front, shape⟩ := List.getLast?_eq_some_iff.mp last
    refine ⟨before ++ front, after, ?_, cut⟩
    rw [shape] at whole
    simpa using whole
  · rintro ⟨front, back, rfl, cut⟩
    have stripped : back.rdropWhile p = [] := List.rdropWhile_eq_nil_iff.mpr cut
    obtain ⟨rest, left⟩ : ∃ rest, (front ++ x :: back).dropWhile p = rest ++ [x] ++ back := by
      rcases dropWhile_append_cases (p := p) front (x :: back) with ⟨_, whole⟩ | ⟨_, whole⟩
      · exact ⟨[], by rw [whole, dropWhile_of_head kept]; rfl⟩
      · exact ⟨front.dropWhile p, by rw [whole]; simp⟩
    rw [ends, left, rdropWhile_append_of_last kept, stripped, List.append_nil,
      List.getLast?_concat]

end Trim
