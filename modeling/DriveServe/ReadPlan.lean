import DriveServe.Handlers

set_option autoImplicit false

/-! The read plan over any manifest, well formed or not: the manifest is fetched by
the object's cid, so it is whatever the writer of the object put there. -/

namespace DriveServe

variable {objectCid : String} {manifest : Manifest} {offset stop : Nat} {len : Option Nat}

namespace Manifest

def chunkStart (manifest : Manifest) (i : Nat) : Nat := i * manifest.chunkSize

/-- Where chunk `i` stops: full-sized, or cut off at the end of the object. -/
def chunkStop (manifest : Manifest) (i : Nat) : Nat :=
  min ((i + 1) * manifest.chunkSize) manifest.totalSize

def Meets (manifest : Manifest) (offset stop i : Nat) : Prop :=
  max (manifest.chunkStart i) offset < min (manifest.chunkStop i) stop

instance (manifest : Manifest) (offset stop i : Nat) : Decidable (manifest.Meets offset stop i) :=
  inferInstanceAs (Decidable (_ < _))

/-- The chunks that meet `[offset, stop)`, each with the interval it covers. -/
def meeting (manifest : Manifest) (offset stop : Nat) (chunks : List (String × Nat)) :
    List ChunkRef :=
  (chunks.filter fun chunk => manifest.Meets offset stop chunk.2).map fun (cid, i) =>
    { cid, offset := manifest.chunkStart i, len := manifest.chunkStop i - manifest.chunkStart i }

theorem meets_iff (i : Nat) :
    manifest.Meets offset stop i ↔
      ∃ byte, (manifest.chunkStart i ≤ byte ∧ byte < manifest.chunkStop i) ∧
        offset ≤ byte ∧ byte < stop := by
  unfold Meets
  constructor
  · intro meets
    exact ⟨max (manifest.chunkStart i) offset, by omega, by omega⟩
  · intro ⟨byte, inside, wanted⟩
    omega

theorem chunkStart_succ (manifest : Manifest) (i : Nat) :
    manifest.chunkStart (i + 1) = manifest.chunkStart i + manifest.chunkSize :=
  Nat.succ_mul i manifest.chunkSize

theorem chunkStart_of_empty (empty : manifest.chunkSize = 0) (i : Nat) :
    manifest.chunkStart i = 0 := by
  rw [chunkStart, empty, Nat.mul_zero]

theorem chunkStop_eq (manifest : Manifest) (i : Nat) :
    manifest.chunkStop i = min (manifest.chunkStart i + manifest.chunkSize) manifest.totalSize := by
  rw [← chunkStart_succ]
  rfl

theorem chunkStop_le_chunkStart (manifest : Manifest) {i j : Nat} (before : i < j) :
    manifest.chunkStop i ≤ manifest.chunkStart j :=
  Nat.le_trans (Nat.min_le_left _ _) (Nat.mul_le_mul_right _ before)

theorem mem_meeting {chunks : List (String × Nat)} {ref : ChunkRef} :
    ref ∈ manifest.meeting offset stop chunks ↔
      ∃ cid i, (cid, i) ∈ chunks ∧ manifest.Meets offset stop i ∧
        ref = { cid, offset := manifest.chunkStart i,
                len := manifest.chunkStop i - manifest.chunkStart i } := by
  simp only [meeting, List.mem_map, List.mem_filter, decide_eq_true_eq, Prod.exists, and_assoc,
    eq_comm (a := ref)]

end Manifest

/-- The sum of two `u64`s, which a checked build refuses to let overflow. -/
def checkedAdd (a b : Nat) : Option Nat := if a + b < 2 ^ 64 then some (a + b) else none

/-- The loop of the plan with its one plain addition checked. -/
def planChunksChecked (manifest : Manifest) (offset stop : Nat) :
    Nat → List String → Option (List ChunkRef)
  | _, [] => some []
  | pos, cid :: rest => do
    let thisLen := min manifest.chunkSize (manifest.totalSize - pos)
    let chunkEnd ← checkedAdd pos thisLen
    let later ← planChunksChecked manifest offset stop chunkEnd rest
    if offset < chunkEnd ∧ pos < stop then
      return { cid, offset := pos, len := thisLen } :: later
    else return later

def readEnd (total offset : Nat) (len : Option Nat) : Nat :=
  match len with
  | some l => min (offset + l) total
  | none => total

theorem readEnd_le (total offset : Nat) (len : Option Nat) : readEnd total offset len ≤ total := by
  cases len with
  | none => exact Nat.le_refl total
  | some l => exact Nat.min_le_right (offset + l) total

def readPlanChecked (manifest : Manifest) (offset : Nat) (len : Option Nat) :
    Option (List ChunkRef) :=
  let stop := match len with
    | some l => min (min (offset + l) (2 ^ 64 - 1)) manifest.totalSize
    | none => manifest.totalSize
  if stop ≤ offset then some [] else planChunksChecked manifest offset stop 0 manifest.chunks

/-- The loop never moves past the end of the object. -/
theorem planChunksChecked_eq (fits : manifest.totalSize < 2 ^ 64) (offset stop : Nat)
    (cids : List String) {pos : Nat} (inside : pos ≤ manifest.totalSize) :
    planChunksChecked manifest offset stop pos cids =
      some (planChunks manifest offset stop pos cids) := by
  induction cids generalizing pos with
  | nil => rfl
  | cons cid rest ih =>
    have reached :
        pos + min manifest.chunkSize (manifest.totalSize - pos) ≤ manifest.totalSize := by
      omega
    have added : checkedAdd pos (min manifest.chunkSize (manifest.totalSize - pos)) =
        some (pos + min manifest.chunkSize (manifest.totalSize - pos)) :=
      if_pos (by omega)
    rw [planChunksChecked, planChunks, added, Option.bind_eq_bind, Option.bind_some, ih reached]
    dsimp only [Option.bind_eq_bind, Option.bind_some]
    split <;> rfl

/-- The plan from one chunk boundary on: nothing behind the end of the range. -/
theorem planChunks_behind (manifest : Manifest) {offset stop pos : Nat} (behind : stop ≤ pos)
    (cids : List String) : planChunks manifest offset stop pos cids = [] := by
  induction cids generalizing pos with
  | nil => rfl
  | cons cid rest ih =>
    rw [planChunks, if_neg (by omega)]
    exact ih (by omega)

/-- At chunk `i` the running position is the start of the chunk, or the end of the
object where the chunks before have used it up. -/
theorem planChunks_meeting (nonempty : offset < stop) (bounded : stop ≤ manifest.totalSize)
    (cids : List String) (i : Nat) :
    planChunks manifest offset stop (min (manifest.chunkStart i) manifest.totalSize) cids =
      manifest.meeting offset stop (cids.zipIdx i) := by
  induction cids generalizing i with
  | nil => rfl
  | cons cid rest ih =>
    have start := manifest.chunkStart_succ i
    have stops := manifest.chunkStop_eq i
    have empty : manifest.chunkSize = 0 → manifest.chunkStart i = 0 :=
      fun empty => Manifest.chunkStart_of_empty empty i
    have next : min (manifest.chunkStart i) manifest.totalSize +
        min manifest.chunkSize
          (manifest.totalSize - min (manifest.chunkStart i) manifest.totalSize) =
        min (manifest.chunkStart (i + 1)) manifest.totalSize := by
      omega
    rw [planChunks, next, ih (i + 1), Manifest.meeting, Manifest.meeting, List.zipIdx_cons]
    by_cases meets : manifest.Meets offset stop i
    · have here : offset < min (manifest.chunkStart (i + 1)) manifest.totalSize ∧
          min (manifest.chunkStart i) manifest.totalSize < stop := by
        unfold Manifest.Meets at meets
        omega
      rw [if_pos here, List.filter_cons_of_pos (by exact decide_eq_true meets), List.map_cons]
      unfold Manifest.Meets at meets
      congr 2 <;> omega
    · have elsewhere : ¬ (offset < min (manifest.chunkStart (i + 1)) manifest.totalSize ∧
          min (manifest.chunkStart i) manifest.totalSize < stop) := by
        unfold Manifest.Meets at meets
        omega
      rw [if_neg elsewhere, List.filter_cons_of_neg (by simpa only [decide_eq_true_eq] using meets)]

/-- References of the plan lie behind one another without a gap: behind one that
meets the range only the chunk at its end can be the next. -/
theorem planChunks_contiguous (manifest : Manifest) (offset stop : Nat) (cids : List String)
    (pos : Nat) :
    (planChunks manifest offset stop pos cids).IsChain (fun a b => a.offset + a.len = b.offset) ∧
      (offset < pos → ∀ first ∈ (planChunks manifest offset stop pos cids).head?,
        first.offset = pos) := by
  induction cids generalizing pos with
  | nil => exact ⟨.nil, fun _ first found => absurd found (Option.not_mem_none first)⟩
  | cons cid rest ih =>
    have ⟨chained, follows⟩ := ih (pos + min manifest.chunkSize (manifest.totalSize - pos))
    rw [planChunks]
    by_cases meets : offset < pos + min manifest.chunkSize (manifest.totalSize - pos) ∧ pos < stop
    · rw [if_pos meets]
      refine ⟨List.isChain_cons.mpr ⟨?_, chained⟩, ?_⟩
      · intro next found
        exact (follows meets.1 next found).symm
      · intro _ first found
        cases found
        rfl
    · rw [if_neg meets]
      refine ⟨chained, ?_⟩
      intro past first found
      rw [planChunks_behind manifest (by omega)] at found
      cases found

structure ExactPlan (manifest : Manifest) (offset stop : Nat) (refs : List ChunkRef) : Prop where
  exact : refs = manifest.meeting offset stop manifest.chunks.zipIdx
  disjoint : refs.Pairwise fun a b => a.offset + a.len ≤ b.offset
  sized : ∀ ref ∈ refs, 1 ≤ ref.len ∧ ref.len ≤ manifest.chunkSize
  inside : ∀ ref ∈ refs, ref.offset + ref.len ≤ manifest.totalSize
  contiguous : manifest.totalSize ≤ manifest.chunkSize * manifest.chunks.length →
    refs.IsChain fun a b => a.offset + a.len = b.offset
  covers : manifest.totalSize ≤ manifest.chunkSize * manifest.chunks.length →
    ∀ byte, offset ≤ byte → byte < stop →
      ∃ ref ∈ refs, ref.offset ≤ byte ∧ byte < ref.offset + ref.len

theorem pairwise_zipIdx {α : Type} (xs : List α) (i : Nat) :
    (xs.zipIdx i).Pairwise fun a b => a.2 < b.2 := by
  induction xs generalizing i with
  | nil => exact .nil
  | cons x rest ih =>
    refine List.pairwise_cons.mpr ⟨?_, ih (i + 1)⟩
    intro later found
    exact List.le_snd_of_mem_zipIdx found

theorem Manifest.meeting_disjoint (manifest : Manifest) (offset stop : Nat) (cids : List String) :
    (manifest.meeting offset stop cids.zipIdx).Pairwise fun a b => a.offset + a.len ≤ b.offset := by
  rw [Manifest.meeting, List.pairwise_map]
  refine List.Pairwise.imp_of_mem ?_ ((pairwise_zipIdx cids 0).filter _)
  intro a b found _ before
  have meets : manifest.Meets offset stop a.2 := of_decide_eq_true (List.mem_filter.mp found).2
  have ordered := manifest.chunkStop_le_chunkStart before
  unfold Manifest.Meets at meets
  dsimp only
  omega

theorem Manifest.meeting_covers {byte : Nat} (inside : byte < manifest.totalSize)
    (whole : manifest.totalSize ≤ manifest.chunkSize * manifest.chunks.length)
    (wanted : offset ≤ byte ∧ byte < stop) :
    ∃ ref ∈ manifest.meeting offset stop manifest.chunks.zipIdx,
      ref.offset ≤ byte ∧ byte < ref.offset + ref.len := by
  have positive : 0 < manifest.chunkSize := by
    by_contra empty
    rw [Nat.eq_zero_of_not_pos empty, Nat.zero_mul] at whole
    omega
  have held : byte / manifest.chunkSize < manifest.chunks.length :=
    Nat.div_lt_of_lt_mul (by omega)
  have starts : manifest.chunkStart (byte / manifest.chunkSize) ≤ byte :=
    Nat.div_mul_le_self byte manifest.chunkSize
  have stops : byte < manifest.chunkStop (byte / manifest.chunkSize) := by
    rw [Manifest.chunkStop_eq, Manifest.chunkStart]
    have := Nat.lt_div_mul_add positive (a := byte)
    omega
  refine ⟨_, Manifest.mem_meeting.mpr ⟨_, _, List.mem_zipIdx_iff_getElem?.mpr
    (List.getElem?_eq_getElem held), Manifest.meets_iff _ |>.mpr ⟨byte, ⟨starts, stops⟩, wanted⟩,
    rfl⟩, starts, ?_⟩
  dsimp only
  omega

theorem Manifest.meeting_fits {chunks : List (String × Nat)} {ref : ChunkRef}
    (found : ref ∈ manifest.meeting offset stop chunks) :
    (1 ≤ ref.len ∧ ref.len ≤ manifest.chunkSize) ∧ ref.offset + ref.len ≤ manifest.totalSize := by
  obtain ⟨cid, i, _, meets, rfl⟩ := Manifest.mem_meeting.mp found
  have stops := manifest.chunkStop_eq i
  unfold Manifest.Meets at meets
  dsimp only
  omega

theorem planChunks_exact (nonempty : offset < stop) (bounded : stop ≤ manifest.totalSize) :
    ExactPlan manifest offset stop (planChunks manifest offset stop 0 manifest.chunks) := by
  have exact : planChunks manifest offset stop 0 manifest.chunks =
      manifest.meeting offset stop manifest.chunks.zipIdx := by
    have fromStart := planChunks_meeting nonempty bounded manifest.chunks 0
    rwa [Manifest.chunkStart, Nat.zero_mul, Nat.zero_min] at fromStart
  have chained := (planChunks_contiguous manifest offset stop manifest.chunks 0).1
  rw [exact] at chained ⊢
  refine ⟨rfl, manifest.meeting_disjoint offset stop _, ?_, ?_, fun _ => chained, ?_⟩
  · intro ref found
    exact (Manifest.meeting_fits found).1
  · intro ref found
    exact (Manifest.meeting_fits found).2
  · intro whole byte lower upper
    exact Manifest.meeting_covers (by omega) whole ⟨lower, upper⟩

theorem noChunks_exact (manifest : Manifest) (empty : stop ≤ offset) :
    ExactPlan manifest offset stop [] := by
  have nothing : manifest.meeting offset stop manifest.chunks.zipIdx = [] := by
    rw [Manifest.meeting, List.map_eq_nil_iff, List.filter_eq_nil_iff]
    intro chunk _ decided
    have meets : manifest.Meets offset stop chunk.2 := of_decide_eq_true decided
    unfold Manifest.Meets at meets
    omega
  refine ⟨nothing.symm, .nil, ?_, ?_, fun _ => .nil, ?_⟩
  · exact fun ref found => absurd found List.not_mem_nil
  · exact fun ref found => absurd found List.not_mem_nil
  · intro _ byte lower upper
    omega

/-- `read_plan` is exact on every manifest, and none of its sums overflows. -/
theorem readPlan_exact (objectCid : String) (fits : manifest.totalSize < 2 ^ 64) (offset : Nat)
    (len : Option Nat) :
    readPlanChecked manifest offset len = some (readPlan objectCid manifest offset len).chunks ∧
      ExactPlan manifest offset (readEnd manifest.totalSize offset len)
        (readPlan objectCid manifest offset len).chunks := by
  have stop : (match len with
      | some l => min (min (offset + l) (2 ^ 64 - 1)) manifest.totalSize
      | none => manifest.totalSize) = readEnd manifest.totalSize offset len := by
    cases len with
    | none => rfl
    | some l =>
      dsimp only [readEnd]
      omega
  have bounded := readEnd_le manifest.totalSize offset len
  have planned : (readPlan objectCid manifest offset len).chunks =
      if readEnd manifest.totalSize offset len ≤ offset then []
      else planChunks manifest offset (readEnd manifest.totalSize offset len) 0
        manifest.chunks := by
    rw [← stop]
    rfl
  have checked : readPlanChecked manifest offset len =
      if readEnd manifest.totalSize offset len ≤ offset then some []
      else planChunksChecked manifest offset (readEnd manifest.totalSize offset len) 0
        manifest.chunks := by
    rw [← stop]
    rfl
  rw [planned, checked]
  by_cases empty : readEnd manifest.totalSize offset len ≤ offset
  · rw [if_pos empty, if_pos empty]
    exact ⟨rfl, noChunks_exact manifest empty⟩
  · rw [if_neg empty, if_neg empty]
    exact ⟨planChunksChecked_eq fits _ _ _ (Nat.zero_le _),
      planChunks_exact (by omega) bounded⟩

/-- A manifest that names one chunk too many, read inside its second chunk. -/
theorem overlong_exact :
    (readPlan "object" { chunkSize := 2, totalSize := 5, chunks := ["a", "b", "c", "d"] } 3
        (some 1)).chunks = [{ cid := "b", offset := 2, len := 2 }] ∧
      ExactPlan { chunkSize := 2, totalSize := 5, chunks := ["a", "b", "c", "d"] } 3 4
        (readPlan "object" { chunkSize := 2, totalSize := 5, chunks := ["a", "b", "c", "d"] } 3
          (some 1)).chunks :=
  ⟨by decide, (readPlan_exact "object" (by decide) 3 (some 1)).2⟩

end DriveServe
