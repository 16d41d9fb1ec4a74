import DriveServe.Numbered
import DriveServe.Wire

set_option autoImplicit false

/-! The change feed of one drive. -/

namespace DriveServe

/-- An append-only change log, numbered from 1. -/
structure Feed where
  changes : List Change
  numbered : Numbered.Log Change.seq changes

namespace Feed

def new : Feed := { changes := [], numbered := Numbered.Log.nil }

/-- The highest seq recorded, 0 if empty. -/
def cursor (feed : Feed) : Nat := (feed.changes.getLast?.map Change.seq).getD 0

theorem cursor_eq_length (feed : Feed) : feed.cursor = feed.changes.length :=
  feed.numbered.last_eq_length

def next (feed : Feed) (path nodeId : String) (kind : ChangeKind) (etag : String) : Change :=
  { seq := feed.cursor + 1, path, nodeId, kind, etag }

/-- Record a change, assigning it the next seq. Answers the new cursor. -/
def record (feed : Feed) (path nodeId : String) (kind : ChangeKind) (etag : String) :
    Nat × Feed :=
  (feed.cursor + 1,
    { changes := feed.changes ++ [feed.next path nodeId kind etag]
      numbered := feed.numbered.concat (by rw [next, cursor_eq_length]) })

/-- The page of changes with `seq > cursor`, at most `limit` of them, and the seq
of the last one (or `cursor` unchanged if there is none). -/
def poll (feed : Feed) (cursor limit : Nat) : List Change × Nat :=
  let page := (feed.changes.filter fun c => decide (cursor < c.seq)).take (max limit 1)
  (page, (page.getLast?.map Change.seq).getD cursor)

@[simp]
theorem record_fst (feed : Feed) (path nodeId : String) (kind : ChangeKind) (etag : String) :
    (feed.record path nodeId kind etag).1 = feed.cursor + 1 := rfl

@[simp]
theorem record_changes (feed : Feed) (path nodeId : String) (kind : ChangeKind) (etag : String) :
    (feed.record path nodeId kind etag).2.changes =
      feed.changes ++ [feed.next path nodeId kind etag] := rfl

theorem record_cursor (feed : Feed) (path nodeId : String) (kind : ChangeKind) (etag : String) :
    (feed.record path nodeId kind etag).2.cursor = feed.cursor + 1 := by
  rw [cursor_eq_length, cursor_eq_length, record_changes, List.length_append,
    List.length_singleton]

theorem poll_page (feed : Feed) (cursor limit : Nat) :
    (feed.poll cursor limit).1 = Numbered.page feed.changes cursor (max limit 1) := by
  unfold poll Numbered.page
  rw [feed.numbered.filter_eq_drop cursor]

theorem poll_cursor (feed : Feed) (cursor limit : Nat) :
    (feed.poll cursor limit).2 = cursor + (feed.poll cursor limit).1.length := by
  have last : (feed.poll cursor limit).2 =
      ((feed.poll cursor limit).1.getLast?.map Change.seq).getD cursor := rfl
  rw [last, poll_page]
  exact feed.numbered.page_last cursor (max limit 1)

/-- A page is empty exactly at or beyond the tail. -/
theorem poll_empty_iff (feed : Feed) (cursor limit : Nat) :
    (feed.poll cursor limit).1 = [] ↔ feed.cursor ≤ cursor := by
  rw [poll_page, cursor_eq_length]
  exact Numbered.page_eq_nil_iff feed.changes cursor (by omega)

/-- A large enough page is all there is beyond the cursor. -/
theorem poll_rest (feed : Feed) {cursor limit : Nat} (inside : cursor ≤ feed.cursor)
    (enough : feed.cursor - cursor ≤ limit) :
    feed.poll cursor limit = (feed.changes.drop cursor, feed.cursor) := by
  rw [cursor_eq_length] at inside enough
  have page : (feed.poll cursor limit).1 = feed.changes.drop cursor := by
    rw [poll_page, Numbered.page]
    exact List.take_of_length_le (by rw [List.length_drop]; omega)
  have reached : (feed.poll cursor limit).2 = feed.cursor := by
    rw [poll_cursor, page, List.length_drop, cursor_eq_length]
    omega
  exact Prod.ext page reached

theorem poll_within (feed : Feed) {cursor : Nat} (limit : Nat) (inside : cursor ≤ feed.cursor) :
    (feed.poll cursor limit).2 ≤ feed.cursor := by
  rw [poll_cursor, poll_page, Numbered.page, List.length_take, List.length_drop]
  rw [cursor_eq_length] at inside ⊢
  omega

theorem poll_advances (feed : Feed) {cursor : Nat} (limit : Nat) (behind : cursor < feed.cursor) :
    cursor < (feed.poll cursor limit).2 := by
  have nonempty : (feed.poll cursor limit).1 ≠ [] := by
    rw [ne_eq, poll_empty_iff]
    omega
  have positive := List.length_pos_iff.mpr nonempty
  rw [poll_cursor]
  omega

end Feed

end DriveServe
