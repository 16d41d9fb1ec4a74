import DriveServe.ReadPlan
import DriveServe.ReferenceDrive
import DriveServe.Sdk
import Mathlib.Algebra.GroupWithZero.Nat

set_option autoImplicit false

/-! A ranged read, from the chunking of the object over the host's plan to the
client's trimming: what comes back is the range that was asked for. -/

namespace DriveServe

def rangeEnd (data : Bytes) (offset : Nat) (length : Option Nat) : Nat :=
  match length with
  | none => data.length
  | some l => min (offset + l) data.length

/-- `data[offset .. min(offset + length, len(data))]`. -/
def requested (data : Bytes) (offset : Nat) (length : Option Nat) : Bytes :=
  (data.take (rangeEnd data offset length)).drop offset

/-- Chunk references that lie behind one another from `start` on and name the bytes
of `data` they cover. -/
inductive Tiles (cid : Bytes → String) (data : Bytes) : Nat → List ChunkRef → Prop
  | nil (start : Nat) : Tiles cid data start []
  | cons {start : Nat} {ref : ChunkRef} {rest : List ChunkRef} (begins : ref.offset = start)
      (names : ref.cid = cid ((data.drop start).take ref.len))
      (inside : start + ref.len ≤ data.length)
      (behind : Tiles cid data (start + ref.len) rest) : Tiles cid data start (ref :: rest)

def totalLen (refs : List ChunkRef) : Nat := (refs.map (·.len)).sum

theorem totalLen_cons (ref : ChunkRef) (rest : List ChunkRef) :
    totalLen (ref :: rest) = ref.len + totalLen rest := by
  simp only [totalLen, List.map_cons, List.sum_cons]

/-- A chunk that passes the check is the one the plan names, so what is fetched for
tiling references is the stretch they cover. -/
theorem fetchChunks_tiles {cid : Bytes → String} (collisionFree : Function.Injective cid)
    {mismatch : ChunkRef → DriveError} {getBlob : Sdk.BlobStore} {data : Bytes} {start : Nat}
    {refs : List ChunkRef} (tiles : Tiles cid data start refs) (i : Nat) (buf : Bytes)
    (fetched : Sdk.fetchChunks cid mismatch getBlob i refs = .ok buf) :
    buf = (data.drop start).take (totalLen refs) := by
  induction tiles generalizing i buf with
  | nil start =>
    cases fetched
    rfl
  | @cons start ref rest begins names inside behind ih =>
    simp only [Sdk.fetchChunks, Outcome.bind_eq_ok_iff, Outcome.ensure_eq_ok_iff] at fetched
    obtain ⟨chunk, _, _, same, tail, later, whole⟩ := fetched
    have content : chunk = (data.drop start).take ref.len := collisionFree (same.trans names)
    have further := ih (i + 1) tail later
    have joined : chunk ++ tail = buf := Except.ok.inj whole
    rw [← joined, content, further, totalLen_cons, List.take_add, List.drop_drop]

theorem planChunks_step (cid : Bytes → String) {size : Nat} (positive : 0 < size) {data : Bytes}
    {offset stop pos len : Nat} {rest : Bytes} (some : rest ≠ [])
    (fits : len = min size (data.length - pos)) :
    planChunks (Sdk.putObject cid size data) offset stop pos ((Chunks.chunks size rest).map cid) =
      if offset < pos + len ∧ pos < stop then
        { cid := cid (rest.take size), offset := pos, len } ::
          planChunks (Sdk.putObject cid size data) offset stop (pos + len)
            ((Chunks.chunks size (rest.drop size)).map cid)
      else planChunks (Sdk.putObject cid size data) offset stop (pos + len)
        ((Chunks.chunks size (rest.drop size)).map cid) := by
  rw [Chunks.chunks_cons positive some, List.map_cons, planChunks, fits]
  rfl

/-- The plan from a chunk boundary before the end of the range: references that
tile a stretch which starts no later than the range and reaches its end. -/
theorem planChunks_tiles (cid : Bytes → String) {size : Nat} (positive : 0 < size) (data : Bytes)
    {offset stop : Nat} (nonempty : offset < stop) (bounded : stop ≤ data.length) (rest : Bytes)
    (pos : Nat) (here : rest = data.drop pos) (before : pos < stop) :
    ∃ start refs, planChunks (Sdk.putObject cid size data) offset stop pos
        ((Chunks.chunks size rest).map cid) = refs ∧ Tiles cid data start refs ∧
      (∃ first more, refs = first :: more) ∧ pos ≤ start ∧ start ≤ max pos offset ∧
      stop ≤ start + totalLen refs := by
  induction measure : rest.length using Nat.strong_induction_on generalizing rest pos with
  | _ n ih =>
  have left : rest.length = data.length - pos := by rw [here, List.length_drop]
  have some : rest ≠ [] := List.ne_nil_of_length_pos (by omega)
  obtain ⟨len, fits⟩ : ∃ len, len = min size (data.length - pos) := ⟨_, rfl⟩
  have cut : rest.drop size = data.drop (pos + len) := by
    rw [here, List.drop_drop]
    by_cases short : data.length - pos < size
    · rw [List.drop_of_length_le (by omega), List.drop_of_length_le (by omega)]
    · rw [show len = size by omega]
  have piece : rest.take size = (data.drop pos).take len := by
    rw [List.take_eq_take_min, left, here, fits]
  have shorter : (rest.drop size).length < n := by
    rw [List.length_drop]
    omega
  have onTop {refs : List ChunkRef} (tiles : Tiles cid data (pos + len) refs) :
      Tiles cid data pos ({ cid := cid (rest.take size), offset := pos, len } :: refs) :=
    .cons rfl (by rw [piece]) (by dsimp only; omega) tiles
  rw [planChunks_step cid positive some fits]
  by_cases meets : offset < pos + len
  · rw [if_pos ⟨meets, before⟩]
    by_cases more : pos + len < stop
    · obtain ⟨start, refs, planned, tiles, _, lower, upper, reached⟩ :=
        ih _ shorter (rest.drop size) (pos + len) cut more rfl
      have next : start = pos + len := by omega
      rw [planned]
      refine ⟨pos, _, rfl, onTop (next ▸ tiles), ⟨_, _, rfl⟩, Nat.le_refl _, ?_, ?_⟩
      · omega
      · rw [totalLen_cons]
        dsimp only
        omega
    · rw [planChunks_behind _ (by omega)]
      refine ⟨pos, _, rfl, onTop (.nil _), ⟨_, _, rfl⟩, Nat.le_refl _, ?_, ?_⟩
      · omega
      · rw [totalLen_cons]
        dsimp only
        omega
  · rw [if_neg fun both => meets both.1]
    obtain ⟨start, refs, planned, tiles, some, lower, upper, reached⟩ :=
      ih _ shorter (rest.drop size) (pos + len) cut (by omega) rfl
    refine ⟨start, refs, planned, tiles, some, ?_, ?_, reached⟩ <;> omega

/-- What the plan for a range covers: nothing when the range is empty, and otherwise
a stretch that starts no later than the range and reaches its end. -/
theorem readPlan_tiles (cid : Bytes → String) {size : Nat} (positive : 0 < size) {data : Bytes}
    (fits : data.length < 2 ^ 64) (objectCid : String) (offset : Nat) (length : Option Nat) :
    (rangeEnd data offset length ≤ offset ∧
        (readPlan objectCid (Sdk.putObject cid size data) offset length).chunks = []) ∨
      (offset < rangeEnd data offset length ∧ ∃ first more,
        (readPlan objectCid (Sdk.putObject cid size data) offset length).chunks = first :: more ∧
        Tiles cid data first.offset (first :: more) ∧ first.offset ≤ offset ∧
        rangeEnd data offset length ≤ first.offset + totalLen (first :: more)) := by
  have bounded : rangeEnd data offset length ≤ data.length := by
    unfold rangeEnd
    split <;> omega
  have planned : (readPlan objectCid (Sdk.putObject cid size data) offset length).chunks =
      if rangeEnd data offset length ≤ offset then []
      else planChunks (Sdk.putObject cid size data) offset (rangeEnd data offset length) 0
        ((Chunks.chunks size data).map cid) := by
    cases length with
    | none => rfl
    | some l =>
      have stop : min (min (offset + l) (2 ^ 64 - 1)) data.length =
          rangeEnd data offset (some l) := by
        unfold rangeEnd
        dsimp only
        omega
      rw [← stop]
      rfl
  by_cases empty : rangeEnd data offset length ≤ offset
  · exact Or.inl ⟨empty, by rw [planned, if_pos empty]⟩
  · have nonempty : offset < rangeEnd data offset length := by omega
    have before : 0 < rangeEnd data offset length := by omega
    obtain ⟨start, refs, tiled, tiles, ⟨first, more, shape⟩, _, early, reached⟩ :=
      planChunks_tiles cid positive data nonempty bounded data 0 rfl before
    rw [if_neg empty, tiled, shape] at planned
    rw [shape] at tiles reached
    have begins : first.offset = start := by
      cases tiles
      assumption
    rw [← begins] at tiles reached early
    exact Or.inr ⟨nonempty, first, more, planned, tiles, by omega, reached⟩

/-- The position behind the last byte wanted, in a buffer that starts at `start`. -/
def trimEnd (buf : Bytes) (start : Nat) (length : Option Nat) : Nat :=
  match length with
  | none => buf.length
  | some l => start + l

/-- Trimming the stretch a plan covers gives the range that was asked for. -/
theorem trim_covered {data : Bytes} {offset start total : Nat} {length : Option Nat}
    (early : start ≤ offset) (reached : rangeEnd data offset length ≤ start + total) :
    Chunks.slice ((data.drop start).take total) ((offset - start : Nat) : Int)
        (trimEnd ((data.drop start).take total) (offset - start) length) =
      requested data offset length := by
  have drop : (data.drop start).drop (offset - start) = data.drop offset := by
    rw [List.drop_drop]
    congr 1
    omega
  cases length with
  | none =>
    simp only [rangeEnd] at reached
    have whole : (data.drop start).take total = data.drop start := by
      apply List.take_of_length_le
      rw [List.length_drop]
      omega
    rw [trimEnd, Chunks.slice_to_end _ _ (Int.le_refl _), whole, drop, requested, rangeEnd,
      List.take_length]
  | some l =>
    simp only [rangeEnd] at reached
    rw [trimEnd, Chunks.slice_of_count, List.drop_take, drop, List.take_take, requested, rangeEnd,
      List.drop_take, List.take_eq_take_iff, List.length_drop]
    omega

theorem fetched_trimmed {cid : Bytes → String} (collisionFree : Function.Injective cid)
    {mismatch : ChunkRef → DriveError} {getBlob : Sdk.BlobStore} {data : Bytes}
    {offset : Nat} {length : Option Nat} {first : ChunkRef} {more : List ChunkRef} {buf : Bytes}
    (tiles : Tiles cid data first.offset (first :: more)) (early : first.offset ≤ offset)
    (reached : rangeEnd data offset length ≤ first.offset + totalLen (first :: more))
    (fetched : Sdk.fetchChunks cid mismatch getBlob 0 (first :: more) = .ok buf) :
    Chunks.slice buf ((offset - first.offset : Nat) : Int)
        (trimEnd buf (offset - first.offset) length) = requested data offset length := by
  rw [fetchChunks_tiles collisionFree tiles 0 buf fetched]
  exact trim_covered early reached

/-- A read raised an error of the SDK or returned just these bytes. -/
def RaisesOrReturns (result : Except DriveError Bytes) (bytes : Bytes) : Prop :=
  (∃ e, result = .error e) ∨ result = .ok bytes

theorem requested_of_empty {data : Bytes} {offset : Nat} {length : Option Nat}
    (empty : rangeEnd data offset length ≤ offset) : requested data offset length = [] := by
  rw [requested, List.drop_eq_nil_iff, List.length_take]
  omega

/-- Doubles add up to the exact sum, or to something no buffer reaches, as it does. -/
theorem number_add (start l : Nat) (small : start < 2 ^ 53) :
    Doubles.number (start + Doubles.number l) = (start + l : Nat) ∨
      ((2 ^ 53 : Nat) : Int) ≤ Doubles.number (start + Doubles.number l) ∧ 2 ^ 53 ≤ start + l := by
  rw [Doubles.number_natCast, ← Int.natCast_add, Doubles.number_natCast]
  by_cases exact : l < 2 ^ 53
  · rw [Doubles.nearest_of_lt exact]
    by_cases sum : start + l < 2 ^ 53
    · exact Or.inl (by rw [Doubles.nearest_of_lt sum])
    · have large := Doubles.le_nearest (Nat.le_of_not_lt sum)
      exact Or.inr ⟨by omega, by omega⟩
  · have large := Doubles.le_nearest (Nat.le_of_not_lt exact)
    have sum := Doubles.le_nearest (n := start + Doubles.nearest l) (by omega)
    exact Or.inr ⟨by omega, by omega⟩

theorem pyRead_exact {cid : Bytes → String} (collisionFree : Function.Injective cid) {size : Nat}
    (positive : 0 < size) {data : Bytes} (fits : data.length < 2 ^ 64) (objectCid path : String)
    (offset : Nat) (length : Option Nat) (getBlob : Sdk.BlobStore) :
    RaisesOrReturns (Py.read cid getBlob path offset length
        (readPlan objectCid (Sdk.putObject cid size data) offset length))
      (requested data offset length) := by
  unfold Py.read
  rcases readPlan_tiles cid positive fits objectCid offset length with
    ⟨empty, planned⟩ | ⟨_, first, more, planned, tiles, early, reached⟩
  · rw [planned, requested_of_empty empty]
    exact Or.inr rfl
  · rw [planned]
    dsimp only
    cases fetched : Sdk.fetchChunks cid (Py.chunkMismatch path) getBlob 0 (first :: more) with
    | error e => exact Or.inl ⟨e, rfl⟩
    | ok buf =>
      have exact := fetched_trimmed collisionFree tiles early reached fetched
      have start : (offset : Int) - first.offset = ((offset - first.offset : Nat) : Int) := by omega
      right
      rw [← exact, start]
      cases length with
      | none => rfl
      | some l => rfl

theorem jsRead_exact {cid : Bytes → String} (collisionFree : Function.Injective cid) {size : Nat}
    (positive : 0 < size) {data : Bytes} (fits : data.length < 2 ^ 64) (objectCid path : String)
    (offset : Nat) (length : Option Nat) (getBlob : Sdk.BlobStore)
    (holdable : totalLen (readPlan objectCid (Sdk.putObject cid size data) offset length).chunks <
      2 ^ 53) :
    RaisesOrReturns (Js.read cid getBlob path offset length
        (readPlan objectCid (Sdk.putObject cid size data) offset length))
      (requested data offset length) := by
  unfold Js.read
  rcases readPlan_tiles cid positive fits objectCid offset length with
    ⟨empty, planned⟩ | ⟨there, first, more, planned, tiles, early, reached⟩
  · rw [planned, requested_of_empty empty]
    exact Or.inr rfl
  · rw [planned] at holdable ⊢
    dsimp only
    cases fetched : Sdk.fetchChunks cid (Js.chunkMismatch path) getBlob 0 (first :: more) with
    | error e => exact Or.inl ⟨e, rfl⟩
    | ok buf =>
      have exact := fetched_trimmed collisionFree tiles early reached fetched
      have small : offset - first.offset < 2 ^ 53 := by omega
      have start : Doubles.number (offset - first.offset) =
          ((offset - first.offset : Nat) : Int) := by
        rw [← Int.natCast_sub early, Doubles.number_natCast, Doubles.nearest_of_lt small]
      have held : buf.length < 2 ^ 53 := by
        rw [fetchChunks_tiles collisionFree tiles 0 buf fetched, List.length_take]
        omega
      right
      rw [← exact]
      cases length with
      | none =>
        change Except.ok (Chunks.slice buf (Doubles.number _) _) = _
        rw [start]
        rfl
      | some l =>
        change Except.ok (Chunks.slice buf (Doubles.number _) (Doubles.number (_ + _))) = _
        rw [start]
        rcases number_add (offset - first.offset) l small with same | ⟨left, right⟩
        · rw [same]
          rfl
        · have clamped : (buf.length : Int) ≤ trimEnd buf (offset - first.offset) (some l) := by
            simp only [trimEnd]
            omega
          rw [Chunks.slice_clamped buf _ (by omega) clamped]

/-- A read by either SDK raises its error or returns the range asked for, whatever
the blob store answers; a JavaScript buffer holds fewer than `2 ^ 53` bytes. -/
theorem read_requested {cid : Bytes → String} (collisionFree : Function.Injective cid)
    {size : Nat} (positive : 0 < size) {data : Bytes} (fits : data.length < 2 ^ 64)
    (objectCid path : String) (offset : Nat) (length : Option Nat) (getBlob : Sdk.BlobStore) :
    let plan := readPlan objectCid (Sdk.putObject cid size data) offset length
    RaisesOrReturns (Py.read cid getBlob path offset length plan)
        (requested data offset length) ∧
      (totalLen plan.chunks < 2 ^ 53 →
        RaisesOrReturns (Js.read cid getBlob path offset length plan)
          (requested data offset length)) :=
  ⟨pyRead_exact collisionFree positive fits objectCid path offset length getBlob,
    jsRead_exact collisionFree positive fits objectCid path offset length getBlob⟩

namespace Reference

def blobs : Sdk.BlobStore := fun _ cid => .ok (cid.toList.map fun c => UInt8.ofNat c.toNat)

theorem cidOf_injective : Function.Injective cidOf := by
  have letter : Function.Injective fun b : UInt8 => Char.ofNat b.toNat := by
    intro a b same
    have codes := congrArg Char.toNat same
    have small (c : UInt8) : (Char.ofNat c.toNat).toNat = c.toNat := by
      have valid : c.toNat.isValidChar := Or.inl (by have := c.toNat_lt; omega)
      rw [Char.ofNat, dif_pos valid]
      rfl
    rw [small, small] at codes
    exact UInt8.toNat_inj.mp codes
  intro first second same
  exact List.map_injective_iff.mpr letter (String.ofList_inj.mp same)

end Reference

/-- Five bytes in chunks of two, of which three are read across a boundary. -/
theorem fiveBytes_requested :
    let plan := readPlan "" (Sdk.putObject Reference.cidOf 2 [1, 2, 3, 4, 5]) 1 (some 3)
    RaisesOrReturns (Py.read Reference.cidOf Reference.blobs "/f" 1 (some 3) plan)
        (requested [1, 2, 3, 4, 5] 1 (some 3)) ∧
      RaisesOrReturns (Js.read Reference.cidOf Reference.blobs "/f" 1 (some 3) plan)
        (requested [1, 2, 3, 4, 5] 1 (some 3)) :=
  have both := read_requested Reference.cidOf_injective (by decide : 0 < 2)
    (by decide : [1, 2, 3, 4, 5].length < 2 ^ 64) "" "/f" 1 (some 3) Reference.blobs
  ⟨both.1, both.2 (by decide)⟩

example : Py.read Reference.cidOf Reference.blobs "/f" 1 (some 3)
    (readPlan "" (Sdk.putObject Reference.cidOf 2 [1, 2, 3, 4, 5]) 1 (some 3)) =
      .ok [2, 3, 4] := by decide

theorem planChunks_cid {manifest : Manifest} {offset stop pos : Nat} {cids : List String}
    {ref : ChunkRef} (planned : ref ∈ planChunks manifest offset stop pos cids) :
    ref.cid ∈ cids := by
  induction cids generalizing pos with
  | nil => cases planned
  | cons cid rest ih =>
    rw [planChunks] at planned
    split at planned
    · cases planned with
      | head => exact List.mem_cons_self
      | tail _ later => exact List.mem_cons_of_mem _ (ih later)
    · exact List.mem_cons_of_mem _ (ih planned)

theorem fetchChunks_honest {cid : Bytes → String} {mismatch : ChunkRef → DriveError}
    {getBlob : Sdk.BlobStore} {refs : List ChunkRef}
    (honest : ∀ i, ∀ ref ∈ refs, ∃ chunk, ref.cid = cid chunk ∧ getBlob i ref.cid = .ok chunk)
    (i : Nat) : ∃ buf, Sdk.fetchChunks cid mismatch getBlob i refs = .ok buf := by
  induction refs generalizing i with
  | nil => exact ⟨[], rfl⟩
  | cons ref rest ih =>
    have ⟨chunk, named, answer⟩ := honest i ref List.mem_cons_self
    have ⟨buf, later⟩ :=
      ih (fun i ref member => honest i ref (List.mem_cons_of_mem _ member)) (i + 1)
    refine ⟨chunk ++ buf, ?_⟩
    simp only [Sdk.fetchChunks, Outcome.bind_eq_ok_iff, Outcome.ensure_eq_ok_iff]
    exact ⟨chunk, answer, (), named.symm, buf, later, rfl⟩

section

variable {cid : Bytes → String} {size : Nat} {data : Bytes} {getBlob : Sdk.BlobStore}

theorem readPlan_held (objectCid : String) (offset : Nat) (length : Option Nat)
    (honest : ∀ i, ∀ chunk ∈ Chunks.chunks size data, getBlob i (cid chunk) = .ok chunk) :
    ∀ i, ∀ ref ∈ (readPlan objectCid (Sdk.putObject cid size data) offset length).chunks,
      ∃ chunk, ref.cid = cid chunk ∧ getBlob i ref.cid = .ok chunk := by
  intro i ref member
  have named : ref.cid ∈ (Chunks.chunks size data).map cid := by
    unfold readPlan at member
    dsimp only at member
    split at member <;> split at member <;>
      first | exact planChunks_cid member | cases member
  have ⟨chunk, among, same⟩ := List.mem_map.mp named
  exact ⟨chunk, same.symm, same ▸ honest i chunk among⟩

theorem pyRead_honest (objectCid path : String) (offset : Nat) (length : Option Nat)
    (honest : ∀ i, ∀ chunk ∈ Chunks.chunks size data, getBlob i (cid chunk) = .ok chunk) :
    ∃ bytes, Py.read cid getBlob path offset length
      (readPlan objectCid (Sdk.putObject cid size data) offset length) = .ok bytes := by
  have held := readPlan_held objectCid offset length honest
  have ⟨buf, fetched⟩ := @fetchChunks_honest _ (Py.chunkMismatch path) _ _ held 0
  unfold Py.read
  split
  · exact ⟨[], rfl⟩
  · rw [fetched]
    exact ⟨_, rfl⟩

theorem jsRead_honest (objectCid path : String) (offset : Nat) (length : Option Nat)
    (honest : ∀ i, ∀ chunk ∈ Chunks.chunks size data, getBlob i (cid chunk) = .ok chunk) :
    ∃ bytes, Js.read cid getBlob path offset length
      (readPlan objectCid (Sdk.putObject cid size data) offset length) = .ok bytes := by
  have held := readPlan_held objectCid offset length honest
  have ⟨buf, fetched⟩ := @fetchChunks_honest _ (Js.chunkMismatch path) _ _ held 0
  unfold Js.read
  split
  · exact ⟨[], rfl⟩
  · rw [fetched]
    exact ⟨_, rfl⟩

end

end DriveServe
