import Mathlib.Data.List.Basic

set_option autoImplicit false

/-! An index that holds entries by a key. Putting in what is recent brings it up to date
exactly where it has what is not recent already. -/

namespace Refresh

variable {κ α : Type} [DecidableEq κ]

def put (key : α → κ) (index : κ → Option α) (a : α) : κ → Option α :=
  fun k => if k = key a then some a else index k

def upsert (key : α → κ) (index : κ → Option α) (entries : List α) : κ → Option α :=
  entries.foldl (put key) index

/-- The index has every entry under its key. -/
def Holds (key : α → κ) (index : κ → Option α) (entries : List α) : Prop :=
  ∀ a ∈ entries, index (key a) = some a

instance [DecidableEq α] (key : α → κ) (index : κ → Option α) (entries : List α) :
    Decidable (Holds key index entries) := inferInstanceAs (Decidable (∀ a ∈ entries, _ = _))

variable {key : α → κ} {index : κ → Option α} {entries : List α}

theorem upsert_of_absent {k : κ} (absent : ∀ a ∈ entries, key a ≠ k) :
    upsert key index entries k = index k := by
  induction entries generalizing index with
  | nil => rfl
  | cons first rest ih =>
    have apart : k ≠ key first := (absent first List.mem_cons_self).symm
    have later := @ih (put key index first) fun a member =>
      absent a (List.mem_cons_of_mem _ member)
    rw [upsert, List.foldl_cons, ← upsert, later, put, if_neg apart]

theorem upsert_of_unique {a : α} (present : a ∈ entries)
    (only : ∀ b ∈ entries, key b = key a → b = a) :
    upsert key index entries (key a) = some a := by
  induction entries generalizing index with
  | nil => cases present
  | cons first rest ih =>
    have onlyRest : ∀ b ∈ rest, key b = key a → b = a := fun b member =>
      only b (List.mem_cons_of_mem _ member)
    rw [upsert, List.foldl_cons, ← upsert]
    by_cases again : ∃ b ∈ rest, key b = key a
    · obtain ⟨b, member, same⟩ := again
      exact ih (onlyRest b member same ▸ member) onlyRest
    · have absent : ∀ b ∈ rest, key b ≠ key a := fun b member same => again ⟨b, member, same⟩
      have here : first = a := by
        rcases List.mem_cons.mp present with same | later
        · exact same.symm
        · exact absurd rfl (absent a later)
      rw [upsert_of_absent absent, put, here, if_pos rfl]

/-- An index brought up to date by what is recent holds everything exactly where it
held what is not recent. -/
theorem holds_upsert_iff {now : List α} (distinct : ∀ a ∈ now, ∀ b ∈ now, key a = key b → a = b)
    (recent : α → Bool) :
    Holds key (upsert key index (now.filter recent)) now ↔
      ∀ a ∈ now, recent a = false → index (key a) = some a := by
  have old : ∀ a ∈ now, recent a = false →
      upsert key index (now.filter recent) (key a) = index (key a) := by
    intro a member stale
    apply upsert_of_absent
    intro b among same
    have ⟨present, fresh⟩ := List.mem_filter.mp among
    rw [distinct b present a member same, stale] at fresh
    cases fresh
  constructor
  · intro holds a member stale
    rw [← old a member stale]
    exact holds a member
  · intro held a member
    cases fresh : recent a with
    | false => rw [old a member fresh, held a member fresh]
    | true =>
      apply upsert_of_unique (List.mem_filter.mpr ⟨member, fresh⟩)
      intro b among same
      exact distinct b (List.mem_of_mem_filter among) a member same

end Refresh
