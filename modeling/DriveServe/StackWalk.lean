import Mathlib.Data.List.Basic

set_option autoImplicit false

/-! A walk over an explicit stack against the recursion it stands for. A place has
further places below it and something that is noted there; the loop pops a place,
notes what is there and pushes what is below, the recursion notes the place, then
everything below it, then what is left. -/

namespace StackWalk

variable {α β : Type} {look : α → List α × List β}

/-- What the recursion notes over these places, in order; there is such a list where
every descent ends. -/
inductive Collects (look : α → List α × List β) : List α → List β → Prop
  | nil : Collects look [] []
  | cons {place : α} {rest : List α} {below after : List β}
      (inside : Collects look (look place).1 below) (behind : Collects look rest after) :
      Collects look (place :: rest) ((look place).2 ++ below ++ after)

/-- One round of the loop, whatever the loop answers in the end. -/
def Loops {γ : Type} (look : α → List α × List β) (loop : List α → List β → γ) : Prop :=
  ∀ place stack out,
    loop (place :: stack) out = loop ((look place).1 ++ stack) (out ++ (look place).2)

/-- The loop notes what the recursion notes and then goes on with the rest of its
stack. The induction is on the recursion, inner places first. -/
theorem Loops.collects {γ : Type} {loop : List α → List β → γ} (loops : Loops look loop)
    {places : List α} {noted : List β} (collects : Collects look places noted) (stack : List α)
    (out : List β) : loop (places ++ stack) out = loop stack (out ++ noted) := by
  induction collects generalizing stack out with
  | nil => rw [List.nil_append, List.append_nil]
  | @cons place rest below after _ _ inside behind =>
    calc loop (place :: (rest ++ stack)) out
        = loop ((look place).1 ++ (rest ++ stack)) (out ++ (look place).2) := loops _ _ _
      _ = loop (rest ++ stack) (out ++ (look place).2 ++ below) := inside _ _
      _ = loop stack (out ++ (look place).2 ++ below ++ after) := behind _ _
      _ = loop stack (out ++ ((look place).2 ++ below ++ after)) := by simp only [List.append_assoc]

namespace Collects

theorem append {places more : List α} {noted after : List β}
    (first : Collects look places noted) (second : Collects look more after) :
    Collects look (places ++ more) (noted ++ after) := by
  induction first with
  | nil => exact second
  | cons inside _ _ behind =>
    rw [List.cons_append, List.append_assoc]
    exact .cons inside behind

/-- In whatever order the places come, the same is noted. -/
theorem perm {places others : List α} {noted : List β} (collects : Collects look places noted)
    (same : places.Perm others) : ∃ again, Collects look others again ∧ noted.Perm again := by
  induction same generalizing noted with
  | nil => exact ⟨noted, collects, .rfl⟩
  | cons place _ ih =>
    cases collects with
    | cons inside behind =>
      obtain ⟨again, further, swapped⟩ := ih behind
      exact ⟨_, .cons inside further, swapped.append_left _⟩
  | swap first second rest =>
    cases collects with
    | @cons _ _ below _ inside behind =>
      cases behind with
      | @cons _ _ beneath after inner further =>
        refine ⟨_, .cons inner (.cons inside further), ?_⟩
        have swapped := (@List.perm_append_comm _ ((look second).2 ++ below)
          ((look first).2 ++ beneath)).append_right after
        simpa only [List.append_assoc] using swapped
  | trans _ _ ih ih' =>
    obtain ⟨again, further, swapped⟩ := ih collects
    obtain ⟨last, found, moved⟩ := ih' further
    exact ⟨last, found, swapped.trans moved⟩

/-- Something is collected of places whose descents end. -/
theorem exists_of_acc {places : List α}
    (ends : ∀ place ∈ places, Acc (fun below place => below ∈ (look place).1) place) :
    ∃ noted, Collects look places noted := by
  have single : ∀ place, Acc (fun below place => below ∈ (look place).1) place →
      ∃ noted, Collects look [place] noted := by
    intro place end'
    induction end' with
    | intro place _ ih =>
      have all : ∀ inner : List α, (∀ below ∈ inner, below ∈ (look place).1) →
          ∃ noted, Collects look inner noted := by
        intro inner
        induction inner with
        | nil => exact fun _ => ⟨[], .nil⟩
        | cons head rest further =>
          intro inside
          obtain ⟨first, found⟩ := ih head (inside head List.mem_cons_self)
          obtain ⟨after, later⟩ := further fun below member =>
            inside below (List.mem_cons_of_mem head member)
          exact ⟨_, found.append later⟩
      obtain ⟨noted, inside⟩ := all (look place).1 fun _ member => member
      exact ⟨_, .cons inside .nil⟩
  induction places with
  | nil => exact ⟨[], .nil⟩
  | cons place rest ih =>
    obtain ⟨first, found⟩ := single place (ends place List.mem_cons_self)
    obtain ⟨after, later⟩ := ih fun other member => ends other (List.mem_cons_of_mem place member)
    exact ⟨_, found.append later⟩

theorem acc {places : List α} {noted : List β} (collects : Collects look places noted) :
    ∀ place ∈ places, Acc (fun below place => below ∈ (look place).1) place := by
  induction collects with
  | nil => exact fun place member => absurd member List.not_mem_nil
  | @cons place rest below after _ _ inside behind =>
    intro other member
    rcases List.mem_cons.mp member with rfl | later
    · exact ⟨_, inside⟩
    · exact behind other later

end Collects

end StackWalk
