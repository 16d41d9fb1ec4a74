import Mathlib.Data.List.DropRight

set_option autoImplicit false

/-! Lists cut into segments at a separator. Being at or beneath another list by
whole segments is an initial-part relation on the segment lists, so it is a
partial order and any two lists above a third are comparable. -/

namespace Segments

variable {α : Type} [DecidableEq α] {sep : α}

/-- Putting the separator before every segment gives the guarded list back. -/
theorem cons_eq_flatMap_splitOn (l : List α) :
    sep :: l = (l.splitOn sep).flatMap (sep :: ·) := by
  induction l with
  | nil => simp [List.splitOn_nil]
  | cons x rest ih =>
    rw [List.splitOn_cons_eq_if_modifyHead]
    by_cases same : x = sep
    · simp only [same, beq_self_eq_true, ↓reduceIte, List.flatMap_cons, List.cons_append,
        List.nil_append, ← ih]
    · obtain ⟨head, tail, shape⟩ := List.exists_cons_of_ne_nil (List.splitOn_ne_nil sep rest)
      rw [shape] at ih ⊢
      simp only [List.flatMap_cons, List.cons_append, List.cons.injEq, true_and] at ih
      simp [same, ih]

theorem splitOn_inj {left right : List α} (same : left.splitOn sep = right.splitOn sep) :
    left = right := by
  simpa only [List.intercalate_splitOn] using congrArg [sep].intercalate same

/-- The segments of `top` start those of `low` exactly when `low` is `top` or
continues it behind a separator. -/
theorem splitOn_prefix_iff (top low : List α) :
    top.splitOn sep <+: low.splitOn sep ↔ top = low ∨ top ++ [sep] <+: low := by
  constructor
  · rintro ⟨rest, whole⟩
    cases rest with
    | nil => exact Or.inl (splitOn_inj (by simpa using whole))
    | cons head tail =>
      have guarded : sep :: low = sep :: (top ++ (sep :: head ++ tail.flatMap (sep :: ·))) := by
        rw [cons_eq_flatMap_splitOn low, ← whole, List.flatMap_append, ← cons_eq_flatMap_splitOn]
        simp
      refine Or.inr ⟨head ++ tail.flatMap (sep :: ·), ?_⟩
      rw [List.tail_eq_of_cons_eq guarded]
      simp
  · rintro (rfl | ⟨rest, rfl⟩)
    · exact List.prefix_rfl
    · rw [List.append_assoc, List.singleton_append, List.splitOn_append_cons_self]
      exact List.prefix_append _ _

theorem sep_notMem_of_mem_splitOn {l segment : List α} (member : segment ∈ l.splitOn sep) :
    sep ∉ segment := by
  induction l generalizing segment with
  | nil =>
    rw [List.splitOn_nil, List.mem_singleton] at member
    simp [member]
  | cons x rest ih =>
    rw [List.splitOn_cons_eq_if_modifyHead] at member
    by_cases same : x = sep
    · simp only [same, beq_self_eq_true, ↓reduceIte, List.mem_cons] at member
      rcases member with rfl | member
      · simp
      · exact ih member
    · obtain ⟨head, tail, shape⟩ := List.exists_cons_of_ne_nil (List.splitOn_ne_nil sep rest)
      have heads : sep ∉ head := ih (by simp [shape])
      simp only [beq_iff_eq, same, ↓reduceIte, shape, List.modifyHead_cons, List.mem_cons] at member
      rcases member with rfl | member
      · exact List.not_mem_cons_of_ne_of_not_mem (Ne.symm same) heads
      · exact ih (by simp [shape, member])

/-- A separator-free list is a segment exactly when it stands between two
separators of the list guarded on both sides. -/
theorem mem_splitOn_iff {l segment : List α} (clean : sep ∉ segment) :
    segment ∈ l.splitOn sep ↔ sep :: (segment ++ [sep]) <:+: sep :: (l ++ [sep]) := by
  have alone : segment.splitOn sep = [segment] := List.splitOn_eq_singleton clean
  constructor
  · intro member
    obtain ⟨before, after, whole⟩ := List.append_of_mem member
    have guarded := @cons_eq_flatMap_splitOn _ _ sep l
    rw [whole, List.flatMap_append, List.flatMap_cons] at guarded
    obtain ⟨rest, close⟩ : ∃ rest, after.flatMap (sep :: ·) ++ [sep] = sep :: rest := by
      cases after with
      | nil => exact ⟨[], rfl⟩
      | cons head tail => exact ⟨_, rfl⟩
    refine ⟨before.flatMap (sep :: ·), rest, ?_⟩
    change _ = (sep :: l) ++ [sep]
    rw [guarded]
    simp only [List.append_assoc, List.cons_append, List.nil_append, close]
  · rintro ⟨before, after, whole⟩
    -- the guard after the list is either the segment's own or lies further right
    have close : (∃ kept, after = kept ++ [sep] ∧
        sep :: l = before ++ (sep :: segment) ++ sep :: kept) ∨
        sep :: l = before ++ (sep :: segment) := by
      rcases List.eq_nil_or_concat' after with rfl | ⟨kept, last, rfl⟩
      · right
        have ended : (sep :: l) ++ [sep] = (before ++ (sep :: segment)) ++ [sep] := by
          simpa using whole.symm
        exact List.append_cancel_right ended
      · left
        have ended : (sep :: l) ++ [sep] =
            (before ++ (sep :: segment) ++ sep :: kept) ++ [last] := by
          simpa using whole.symm
        obtain ⟨front, back⟩ := List.append_inj' ended rfl
        cases back
        exact ⟨kept, by simp, front⟩
    have start : ∀ back, sep :: l = before ++ (sep :: segment) ++ back →
        segment ++ back = l ∨ ∃ front, l = front ++ sep :: (segment ++ back) := by
      intro back shape
      cases before with
      | nil => exact Or.inl (by simpa using (List.tail_eq_of_cons_eq shape).symm)
      | cons head front =>
        exact Or.inr ⟨front, by simpa using List.tail_eq_of_cons_eq shape⟩
    rcases close with ⟨kept, _, shape⟩ | shape
    · rcases start (sep :: kept) shape with rfl | ⟨front, rfl⟩
      · simp [List.splitOn_append_cons_self, alone]
      · simp [List.splitOn_append_cons_self, alone]
    · rcases start [] (by simpa using shape) with rfl | ⟨front, rfl⟩
      · simp [alone]
      · simp [List.splitOn_append_cons_self, alone]

/-- A segment that is neither the first nor the last stands between two separators of
the list itself. -/
theorem infix_of_mem_splitOn {l segment : List α} (member : segment ∈ l.splitOn sep)
    (first : (l.splitOn sep).head? ≠ some segment)
    (last : (l.splitOn sep).getLast? ≠ some segment) : sep :: (segment ++ [sep]) <:+: l := by
  obtain ⟨before, after, whole⟩ := List.append_of_mem member
  have guarded := @cons_eq_flatMap_splitOn _ _ sep l
  rw [whole] at first last guarded
  cases before with
  | nil => exact absurd rfl first
  | cons head front =>
    cases after with
    | nil => exact absurd List.getLast?_concat last
    | cons next rest =>
      refine ⟨head ++ front.flatMap (sep :: ·), next ++ rest.flatMap (sep :: ·), ?_⟩
      simp only [List.flatMap_append, List.flatMap_cons, List.cons_append, List.append_assoc,
        List.cons.injEq, true_and, List.nil_append] at guarded ⊢
      exact guarded.symm

omit [DecidableEq α] in
/-- A list is cut at its first separator in one way. -/
theorem cut_first_unique {front other back rest : List α} (plain : sep ∉ front)
    (clean : sep ∉ other) (same : front ++ sep :: back = other ++ sep :: rest) :
    front = other ∧ back = rest := by
  induction front generalizing other with
  | nil =>
    cases other with
    | nil => exact ⟨rfl, (List.cons.inj same).2⟩
    | cons c more =>
      have head : sep = c := (List.cons.inj same).1
      exact absurd (head ▸ List.mem_cons_self) clean
  | cons c more ih =>
    cases other with
    | nil =>
      have head : c = sep := (List.cons.inj same).1
      exact absurd (head ▸ List.mem_cons_self) plain
    | cons d further =>
      obtain ⟨rfl, tails⟩ := List.cons.inj same
      obtain ⟨rfl, behind⟩ := ih (fun member => plain (List.mem_cons_of_mem c member))
        (fun member => clean (List.mem_cons_of_mem c member)) tails
      exact ⟨rfl, behind⟩

omit [DecidableEq α] in
theorem cut_last_unique {front other back rest : List α} (plain : sep ∉ back)
    (clean : sep ∉ rest) (same : front ++ sep :: back = other ++ sep :: rest) :
    front = other ∧ back = rest := by
  have turned := congrArg List.reverse same
  simp only [List.reverse_append, List.reverse_cons, List.append_assoc,
    List.singleton_append] at turned
  have ⟨backs, fronts⟩ := cut_first_unique (by simpa using plain) (by simpa using clean) turned
  exact ⟨List.reverse_inj.mp fronts, List.reverse_inj.mp backs⟩

/-- Nonempty segments without the separator can be told from what joins them. -/
theorem intercalate_inj {left right : List (List α)} (plain : ∀ l ∈ left, l ≠ [] ∧ sep ∉ l)
    (clean : ∀ l ∈ right, l ≠ [] ∧ sep ∉ l)
    (same : [sep].intercalate left = [sep].intercalate right) : left = right := by
  have empty : ∀ segments : List (List α), (∀ l ∈ segments, l ≠ [] ∧ sep ∉ l) →
      [sep].intercalate segments = [] → segments = [] := by
    intro segments nonempty joined
    cases segments with
    | nil => rfl
    | cons head tail =>
      have first := (nonempty head List.mem_cons_self).1
      cases tail with
      | nil => exact absurd (by simpa using joined) first
      | cons next rest =>
        rw [List.intercalate_cons_cons] at joined
        simp at joined
  by_cases none : left = []
  · subst none
    exact (empty right clean same.symm).symm
  · have some : right ≠ [] := by
      rintro rfl
      exact none (empty left plain same)
    have cut := congrArg (List.splitOn sep) same
    rwa [List.splitOn_intercalate sep (fun l member => (plain l member).2) none,
      List.splitOn_intercalate sep (fun l member => (clean l member).2) some] at cut

end Segments
