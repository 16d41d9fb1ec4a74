import DriveServe.LittleEndian
import Mathlib.Data.List.Basic

set_option autoImplicit false

/-! Positional decoding with a cursor. A decoder `Decodes` bytes to a value when it
reads the value off them wherever they stand, and, where it is strict, fails on any
part of them that ends too soon. Decoders that run one after the other decode what
they decode put together. -/

namespace Reader

variable {ε α β : Type}

structure Cursor where
  data : List UInt8
  pos : Nat
  deriving DecidableEq, Repr

abbrev Dec (ε α : Type) := StateT Cursor (Except ε) α

/-- Take `n` bytes, if there are so many; `number` is how the implementation holds
the position behind them. -/
def take (number : Nat → Nat) (short : (wanted pos have' : Nat) → ε) (n : Nat) :
    Dec ε (List UInt8) := fun cursor =>
  if cursor.data.length < number (cursor.pos + n) then
    .error (short n cursor.pos cursor.data.length)
  else
    .ok ((cursor.data.drop cursor.pos).take n, { cursor with pos := cursor.pos + n })

def times (m : Dec ε α) : Nat → Dec ε (List α)
  | 0 => pure []
  | n + 1 => do
    let head ← m
    let tail ← times m n
    return head :: tail

/-- `m` reads `a` off `bytes`, in any context whose size `fits`. -/
structure Decodes (fits : Nat → Prop) (strict : Prop) (m : Dec ε α) (bytes : List UInt8) (a : α) :
    Prop where
  whole : ∀ before after : List UInt8, fits (before ++ (bytes ++ after)).length →
    m { data := before ++ (bytes ++ after), pos := before.length } =
      .ok (a, { data := before ++ (bytes ++ after), pos := before.length + bytes.length })
  cut : strict → ∀ before part : List UInt8, fits (before ++ part).length → part <+: bytes →
    part ≠ bytes → ∃ e, m { data := before ++ part, pos := before.length } = .error e

variable {fits : Nat → Prop} {strict : Prop}

namespace Decodes

theorem pure (a : α) : Decodes fits strict (Pure.pure a : Dec ε α) [] a where
  whole _ _ _ := rfl
  cut _ _ _ _ initial proper := absurd (List.prefix_nil.mp initial) proper

/-- A part that ends too soon ends so for one of two decoders in a row. -/
theorem cut_bind {m : Dec ε α} {next : α → Dec ε β} {front back : List UInt8} {a : α}
    (first : Decodes fits strict m front a)
    (second : ∀ before part : List UInt8, fits (before ++ part).length → part <+: back →
      part ≠ back → ∃ e, next a { data := before ++ part, pos := before.length } = .error e)
    (isStrict : strict) (before part : List UInt8) (fit : fits (before ++ part).length)
    (initial : part <+: front ++ back) (proper : part ≠ front ++ back) :
    ∃ e, (m >>= next) { data := before ++ part, pos := before.length } = .error e := by
  change ∃ e, (m _).bind _ = .error e
  by_cases complete : front <+: part
  · -- the first decoder has all it needs, so the second one ends too soon
    obtain ⟨rest, rfl⟩ := complete
    have read := first.whole before rest fit
    have differs : rest ≠ back := fun same => proper (by rw [same])
    rw [← List.append_assoc] at fit
    obtain ⟨e, failed⟩ := second (before ++ front) rest fit
      ((List.prefix_append_right_inj front).mp initial) differs
    rw [List.append_assoc, List.length_append] at failed
    exact ⟨e, by rw [read]; exact failed⟩
  · have inside : part <+: front :=
      (List.prefix_or_prefix_of_prefix initial (List.prefix_append front back)).resolve_right
        complete
    have differs : part ≠ front := fun same => complete (same ▸ List.prefix_rfl)
    obtain ⟨e, failed⟩ := first.cut isStrict before part fit inside differs
    exact ⟨e, by rw [failed]; rfl⟩

theorem bind {m : Dec ε α} {next : α → Dec ε β} {front back : List UInt8} {a : α} {b : β}
    (first : Decodes fits strict m front a) (second : Decodes fits strict (next a) back b) :
    Decodes fits strict (m >>= next) (front ++ back) b where
  whole before after fit := by
    have read := first.whole before (back ++ after)
    have further := second.whole (before ++ front) after
    simp only [List.append_assoc, List.length_append] at read further fit ⊢
    change (m _).bind _ = _
    rw [read fit]
    change next a _ = _
    rw [further fit, Nat.add_assoc]
  cut isStrict := cut_bind first (second.cut isStrict) isStrict

theorem last {m : Dec ε α} {next : α → Dec ε β} {bytes : List UInt8} {a : α} {b : β}
    (first : Decodes fits strict m bytes a) (second : Decodes fits strict (next a) [] b) :
    Decodes fits strict (m >>= next) bytes b := by
  have both := first.bind second
  rwa [List.append_nil] at both

theorem map {m : Dec ε α} {bytes : List UInt8} {a : α} (f : α → β)
    (read : Decodes fits strict m bytes a) :
    Decodes fits strict (do let value ← m; return f value) bytes (f a) :=
  read.last (.pure (f a))

theorem field {m : Dec ε α} {next : α → Dec ε β} {bytes : List UInt8} {a : α} {b : β}
    {rest : List (List UInt8)} (first : Decodes fits strict m bytes a)
    (others : Decodes fits strict (next a) rest.flatten b) :
    Decodes fits strict (m >>= next) (bytes :: rest).flatten b := first.bind others

theorem times {m : Dec ε β} {encode : α → List UInt8} {f : α → β} {l : List α}
    (each : ∀ a ∈ l, Decodes fits strict m (encode a) (f a)) :
    Decodes fits strict (Reader.times m l.length) (l.flatMap encode) (l.map f) := by
  induction l with
  | nil => exact .pure []
  | cons a rest ih =>
    have tail := ih fun a member => each a (List.mem_cons_of_mem _ member)
    exact (each a List.mem_cons_self).bind (tail.map (f a :: ·))

end Decodes

/-- `m` raises `e` on `bytes`, and some error on any part of them that ends too soon. -/
structure Raises (fits : Nat → Prop) (strict : Prop) (m : Dec ε α) (bytes : List UInt8) (e : ε) :
    Prop where
  whole : ∀ before after : List UInt8, fits (before ++ (bytes ++ after)).length →
    m { data := before ++ (bytes ++ after), pos := before.length } = .error e
  cut : strict → ∀ before part : List UInt8, fits (before ++ part).length → part <+: bytes →
    part ≠ bytes → ∃ e, m { data := before ++ part, pos := before.length } = .error e

namespace Raises

theorem throw (e : ε) : Raises fits strict (throw e : Dec ε α) [] e where
  whole _ _ _ := rfl
  cut _ _ _ _ initial proper := absurd (List.prefix_nil.mp initial) proper

theorem after {m : Dec ε α} {next : α → Dec ε β} {front back : List UInt8} {a : α} {e : ε}
    (first : Decodes fits strict m front a) (second : Raises fits strict (next a) back e) :
    Raises fits strict (m >>= next) (front ++ back) e where
  whole before after fit := by
    have read := first.whole before (back ++ after)
    have failed := second.whole (before ++ front) after
    simp only [List.append_assoc, List.length_append] at read failed fit ⊢
    change (m _).bind _ = _
    rw [read fit]
    exact failed fit
  cut isStrict := Decodes.cut_bind first (second.cut isStrict) isStrict

end Raises

/-- How positions are held does not matter where they fit, nor anywhere for a
decoder that is strict. -/
structure Exact (number : Nat → Nat) (fits : Nat → Prop) (strict : Prop) : Prop where
  inside : ∀ m n, m ≤ n → fits n → number m = m
  everywhere : strict → ∀ n, number n = n

theorem decodes_take {number : Nat → Nat} (exact : Exact number fits strict)
    (short : (wanted pos have' : Nat) → ε) (bytes : List UInt8) :
    Decodes fits strict (take number short bytes.length) bytes bytes where
  whole before after fit := by
    have same : number (before.length + bytes.length) = before.length + bytes.length := by
      apply exact.inside _ _ ?_ fit
      simp only [List.length_append]
      omega
    have enough : ¬ (before ++ (bytes ++ after)).length < before.length + bytes.length := by
      simp only [List.length_append]
      omega
    rw [take]
    dsimp only
    rw [same, if_neg enough, List.drop_left, List.take_left]
  cut isStrict before part _ initial proper := by
    have shorter : part.length < bytes.length := by
      have bounded := initial.length_le
      have differs : part.length ≠ bytes.length := fun same => proper (initial.eq_of_length same)
      omega
    refine ⟨short bytes.length before.length (before ++ part).length, ?_⟩
    rw [take]
    dsimp only
    rw [exact.everywhere isStrict, if_pos]
    rw [List.length_append]
    omega

/-- A count that is read off the bytes and held like a position: no larger than what
it counts, so it is held exactly. -/
theorem Decodes.counted {number : Nat → Nat} (exact : Exact number fits strict)
    {m : Nat → Dec ε α} {n : Nat} {bytes : List UInt8} {a : α} (bounded : n ≤ bytes.length)
    (read : Decodes fits strict (m n) bytes a) :
    Decodes fits strict (m (number n)) bytes a where
  whole before after fit := by
    have same : number n = n := by
      apply exact.inside n _ ?_ fit
      simp only [List.length_append]
      omega
    rw [same]
    exact read.whole before after fit
  cut isStrict := by
    rw [exact.everywhere isStrict]
    exact read.cut isStrict

theorem length_le_flatMap {encode : α → List UInt8} {l : List α}
    (nonempty : ∀ a ∈ l, 0 < (encode a).length) : l.length ≤ (l.flatMap encode).length := by
  induction l with
  | nil => exact Nat.zero_le _
  | cons a rest ih =>
    have first := nonempty a List.mem_cons_self
    have others := ih fun a member => nonempty a (List.mem_cons_of_mem _ member)
    rw [List.flatMap_cons, List.length_append, List.length_cons]
    omega

def int (number : Nat → Nat) (short : (wanted pos have' : Nat) → ε) (width : Nat) :
    Dec ε Nat := do
  let bytes ← take number short width
  return LittleEndian.decode bytes

theorem decodes_int {number : Nat → Nat} (exact : Exact number fits strict)
    (short : (wanted pos have' : Nat) → ε) {width n : Nat} (bounded : n < 256 ^ width) :
    Decodes fits strict (int number short width) (LittleEndian.encode width n) n := by
  have read := (decodes_take exact short (LittleEndian.encode width n)).map LittleEndian.decode
  rw [LittleEndian.length_encode, LittleEndian.decode_encode bounded] at read
  exact read

def run (m : Dec ε α) (data : List UInt8) : Except ε α := (m { data, pos := 0 }).map (·.1)

/-- Decode from the front; what is left over is answered too. -/
def runRest (m : Dec ε α) (data : List UInt8) : Except ε (α × List UInt8) :=
  (m { data, pos := 0 }).map fun (a, cursor) => (a, cursor.data.drop cursor.pos)

theorem Decodes.runRest_append {m : Dec ε α} {bytes : List UInt8} {a : α}
    (read : Decodes fits strict m bytes a) {after : List UInt8}
    (fit : fits (bytes ++ after).length) : runRest m (bytes ++ after) = .ok (a, after) := by
  have whole := read.whole [] after fit
  rw [List.nil_append, List.length_nil, Nat.zero_add] at whole
  rw [runRest, whole]
  simp [Except.map]

theorem Decodes.run_append {m : Dec ε α} {bytes : List UInt8} {a : α}
    (read : Decodes fits strict m bytes a) {after : List UInt8}
    (fit : fits (bytes ++ after).length) : run m (bytes ++ after) = .ok a := by
  have whole := read.whole [] after fit
  rw [List.nil_append, List.length_nil] at whole
  rw [run, whole]
  rfl

theorem Raises.run_append {m : Dec ε α} {bytes : List UInt8} {e : ε}
    (raised : Raises fits strict m bytes e) {after : List UInt8}
    (fit : fits (bytes ++ after).length) : run m (bytes ++ after) = .error e := by
  have whole := raised.whole [] after fit
  rw [List.nil_append, List.length_nil] at whole
  rw [run, whole]
  rfl

/-- A part that ends too soon is an error, whatever the whole would have been. -/
theorem run_cut {m : Dec ε α} {bytes : List UInt8}
    (cut : ∀ before part : List UInt8, fits (before ++ part).length → part <+: bytes →
      part ≠ bytes → ∃ e, m { data := before ++ part, pos := before.length } = .error e)
    {part : List UInt8} (fit : fits part.length) (initial : part <+: bytes)
    (proper : part ≠ bytes) : ∃ e, run m part = .error e := by
  obtain ⟨e, failed⟩ := cut [] part fit initial proper
  rw [List.nil_append, List.length_nil] at failed
  exact ⟨e, by rw [run, failed]; rfl⟩

end Reader
