import DriveServe.Runs
import Mathlib.Data.List.Basic

set_option autoImplicit false

/-! The write-ahead journal and the snapshot that resets it. A mutating op journals,
applies and releases under the registry lock and is acknowledged afterwards; a
snapshot copies the state under the lock, saves the file without it, and takes the
lock again to empty the journal. Ops stand for their effect: the drive's state is
the collection of ops applied to it, and applying one again changes nothing. -/

namespace DriveServe

variable {Op : Type}

/-- How far the op that holds the registry lock has come. -/
inductive WritePhase where
  | locked
  | journalled
  | applied
  deriving DecidableEq, Repr

structure LockHolder (Op : Type) where
  op : Op
  phase : WritePhase
  deriving DecidableEq, Repr

inductive SnapshotRun (Op : Type) where
  | copied (state : List Op)
  | saved
  | ended
  deriving DecidableEq, Repr

structure DurableDrive (Op : Type) where
  /-- The registry lock: free, or held by a mutating op. -/
  holder : Option (LockHolder Op)
  live : List Op
  journal : List Op
  file : List Op
  /-- Applied and released, the reply still to be sent. -/
  pending : List Op
  acked : List Op
  snapshots : List (SnapshotRun Op)
  deriving DecidableEq, Repr

inductive DurableEvent (Op : Type) where
  | lock (op : Op)
  | append
  | apply
  | refuse
  | release
  | ack (op : Op)
  | copy
  | save (run : Nat) (ok : Bool)
  | reset (run : Nat) (ok : Bool)
  | crash
  deriving DecidableEq, Repr

variable [DecidableEq Op]

/-- Replay a journal over a snapshot; an op already there is a no-op. -/
def replay (snapshot journal : List Op) : List Op :=
  journal.foldl (fun state op => if op ∈ state then state else state ++ [op]) snapshot

theorem mem_replay (snapshot journal : List Op) (op : Op) :
    op ∈ replay snapshot journal ↔ op ∈ snapshot ∨ op ∈ journal := by
  induction journal generalizing snapshot with
  | nil => simp [replay]
  | cons head rest ih =>
    have first : replay snapshot (head :: rest) =
        replay (if head ∈ snapshot then snapshot else snapshot ++ [head]) rest := rfl
    rw [first, ih]
    split
    · rename_i present
      constructor
      · rintro (old | new)
        · exact Or.inl old
        · exact Or.inr (List.mem_cons_of_mem _ new)
      · rintro (old | new)
        · exact Or.inl old
        · rcases List.mem_cons.mp new with rfl | new
          · exact Or.inl present
          · exact Or.inr new
    · simp [or_assoc]

namespace DurableDrive

/-- What a boot makes of the disk: the snapshot file, then the journal over it. -/
def recovered (drive : DurableDrive Op) : List Op := replay drive.file drive.journal

def boot (file journal : List Op) : DurableDrive Op where
  holder := none
  live := replay file journal
  journal := journal
  file := file
  pending := []
  acked := []
  snapshots := []

def step (drive : DurableDrive Op) : DurableEvent Op → Option (DurableDrive Op)
  | .lock op =>
    if drive.holder = none then some { drive with holder := some { op, phase := .locked } }
    else none
  | .append =>
    match drive.holder with
    | some { op, phase := .locked } =>
      some { drive with
        holder := some { op, phase := .journalled }
        journal := drive.journal ++ [op] }
    | _ => none
  | .apply =>
    match drive.holder with
    | some { op, phase := .journalled } =>
      some { drive with
        holder := some { op, phase := .applied }
        live := replay drive.live [op] }
    | _ => none
  -- the append failed, or the drive refused the op
  | .refuse =>
    match drive.holder with
    | some { phase := .locked, .. } | some { phase := .journalled, .. } =>
      some { drive with holder := none }
    | _ => none
  | .release =>
    match drive.holder with
    | some { op, phase := .applied } =>
      some { drive with holder := none, pending := op :: drive.pending }
    | _ => none
  | .ack op =>
    if op ∈ drive.pending then
      some { drive with pending := drive.pending.erase op, acked := op :: drive.acked }
    else none
  | .copy =>
    if drive.holder = none then
      some { drive with snapshots := drive.snapshots ++ [.copied drive.live] }
    else none
  | .save run ok =>
    match drive.snapshots[run]? with
    | some (.copied state) =>
      if ok then
        some { drive with file := state, snapshots := drive.snapshots.set run .saved }
      else some { drive with snapshots := drive.snapshots.set run .ended }
    | _ => none
  | .reset run ok =>
    if drive.holder = none then
      match drive.snapshots[run]? with
      | some .saved =>
        some { drive with
          journal := if ok then [] else drive.journal
          snapshots := drive.snapshots.set run .ended }
      | _ => none
    else none
  | .crash => some { boot drive.file drive.journal with acked := drive.acked }

inductive Stepped (drive : DurableDrive Op) : DurableEvent Op → DurableDrive Op → Prop
  | lock (op : Op) (free : drive.holder = none) :
      Stepped drive (.lock op) { drive with holder := some { op, phase := .locked } }
  | append (op : Op) (held : drive.holder = some { op, phase := .locked }) :
      Stepped drive .append { drive with
        holder := some { op, phase := .journalled }
        journal := drive.journal ++ [op] }
  | apply (op : Op) (held : drive.holder = some { op, phase := .journalled }) :
      Stepped drive .apply { drive with
        holder := some { op, phase := .applied }
        live := replay drive.live [op] }
  | refuse (op : Op) (held : drive.holder = some { op, phase := .locked } ∨
      drive.holder = some { op, phase := .journalled }) :
      Stepped drive .refuse { drive with holder := none }
  | release (op : Op) (held : drive.holder = some { op, phase := .applied }) :
      Stepped drive .release { drive with holder := none, pending := op :: drive.pending }
  | ack (op : Op) (awaiting : op ∈ drive.pending) :
      Stepped drive (.ack op)
        { drive with pending := drive.pending.erase op, acked := op :: drive.acked }
  | copy (free : drive.holder = none) :
      Stepped drive .copy { drive with snapshots := drive.snapshots ++ [.copied drive.live] }
  | saved (run : Nat) (state : List Op) (copied : drive.snapshots[run]? = some (.copied state)) :
      Stepped drive (.save run true)
        { drive with file := state, snapshots := drive.snapshots.set run .saved }
  | unsaved (run : Nat) (state : List Op) (copied : drive.snapshots[run]? = some (.copied state)) :
      Stepped drive (.save run false) { drive with snapshots := drive.snapshots.set run .ended }
  | emptied (run : Nat) (free : drive.holder = none) (saved : drive.snapshots[run]? = some .saved) :
      Stepped drive (.reset run true)
        { drive with journal := [], snapshots := drive.snapshots.set run .ended }
  | unemptied (run : Nat) (free : drive.holder = none)
      (saved : drive.snapshots[run]? = some .saved) :
      Stepped drive (.reset run false) { drive with snapshots := drive.snapshots.set run .ended }
  | crash : Stepped drive .crash { boot drive.file drive.journal with acked := drive.acked }

theorem step_cases {drive next : DurableDrive Op} {event : DurableEvent Op}
    (taken : step drive event = some next) : Stepped drive event next := by
  cases event with
  | lock op =>
    simp only [step] at taken
    split at taken
    · rename_i free
      cases taken
      exact .lock op free
    · cases taken
  | append =>
    simp only [step] at taken
    split at taken
    · rename_i op held
      cases taken
      exact .append op held
    · cases taken
  | apply =>
    simp only [step] at taken
    split at taken
    · rename_i op held
      cases taken
      exact .apply op held
    · cases taken
  | refuse =>
    simp only [step] at taken
    split at taken
    · rename_i op held
      cases taken
      exact .refuse op (Or.inl held)
    · rename_i op held
      cases taken
      exact .refuse op (Or.inr held)
    · cases taken
  | release =>
    simp only [step] at taken
    split at taken
    · rename_i op held
      cases taken
      exact .release op held
    · cases taken
  | ack op =>
    simp only [step] at taken
    split at taken
    · rename_i awaiting
      cases taken
      exact .ack op awaiting
    · cases taken
  | copy =>
    simp only [step] at taken
    split at taken
    · rename_i free
      cases taken
      exact .copy free
    · cases taken
  | save run ok =>
    simp only [step] at taken
    split at taken
    · rename_i state copied
      cases ok with
      | true =>
        cases taken
        exact .saved run state copied
      | false =>
        cases taken
        exact .unsaved run state copied
    · cases taken
  | reset run ok =>
    simp only [step] at taken
    split at taken
    · rename_i free
      split at taken
      · rename_i saved
        cases ok with
        | true =>
          cases taken
          exact .emptied run free saved
        | false =>
          cases taken
          exact .unemptied run free saved
      · cases taken
    · cases taken
  | crash =>
    cases taken
    exact .crash

/-- The ops that were acknowledged or may still be. -/
def promised (drive : DurableDrive Op) : List Op :=
  drive.acked ++ drive.pending ++
    match drive.holder with
    | some { op, phase := .journalled } | some { op, phase := .applied } => [op]
    | _ => []

/-- A reset drops no promised op that the file lacks, and a save replaces no file
that holds a promised op which is neither in the copy nor in the journal. -/
def Safe (drive : DurableDrive Op) : DurableEvent Op → Prop
  | .reset _ true => ∀ op ∈ drive.promised, op ∈ drive.journal → op ∈ drive.file
  | .save run true =>
    ∀ state, drive.snapshots[run]? = some (.copied state) →
      ∀ op ∈ drive.promised, op ∈ drive.file → op ∈ state ∨ op ∈ drive.journal
  | _ => True

/-- Every promised op is in the snapshot file or in the journal. -/
def Kept (drive : DurableDrive Op) : Prop :=
  ∀ op ∈ drive.promised, op ∈ drive.file ∨ op ∈ drive.journal

theorem mem_recovered (drive : DurableDrive Op) (op : Op) :
    op ∈ drive.recovered ↔ op ∈ drive.file ∨ op ∈ drive.journal := mem_replay _ _ op

/-- Steps that write neither the file nor the journal. -/
def Calm (_ : DurableDrive Op) : DurableEvent Op → Prop
  | .append | .save .. | .reset .. | .crash => False
  | .lock _ | .apply | .refuse | .release | .ack _ | .copy => True

/-- What calm steps leave alone; they promise nothing new. -/
structure Unwritten (drive next : DurableDrive Op) : Prop where
  file : next.file = drive.file
  journal : next.journal = drive.journal
  promised : ∀ op ∈ next.promised, op ∈ drive.promised

theorem calm_step {drive next : DurableDrive Op} {event : DurableEvent Op}
    (calm : Calm drive event) (taken : step drive event = some next) : Unwritten drive next := by
  cases step_cases taken with
  | append | saved | unsaved | emptied | unemptied | crash => exact absurd calm id
  | lock op free =>
    refine ⟨rfl, rfl, ?_⟩
    intro other member
    simpa [promised, free] using member
  | apply op held =>
    refine ⟨rfl, rfl, ?_⟩
    intro other member
    simpa [promised, held] using member
  | refuse =>
    refine ⟨rfl, rfl, ?_⟩
    intro other member
    simp only [promised, List.append_nil] at member ⊢
    exact List.mem_append_left _ member
  | release op held =>
    refine ⟨rfl, rfl, ?_⟩
    intro other member
    simp only [promised, held, List.mem_append, List.mem_cons, List.not_mem_nil,
      or_false] at member ⊢
    tauto
  | ack op awaiting =>
    refine ⟨rfl, rfl, ?_⟩
    intro other member
    have erased := @List.mem_of_mem_erase _ _ other op drive.pending
    simp only [promised, List.mem_append, List.mem_cons] at member ⊢
    rcases member with ((rfl | old) | waiting) | held
    · exact Or.inl (Or.inr awaiting)
    · exact Or.inl (Or.inl old)
    · exact Or.inl (Or.inr (erased waiting))
    · exact Or.inr held
  | copy free => exact ⟨rfl, rfl, fun _ member => member⟩

omit [DecidableEq Op] in
/-- A save keeps every promised op recoverable exactly when it is safe. -/
theorem kept_saved_iff {drive : DurableDrive Op} (kept : Kept drive) {run : Nat}
    {state : List Op} (copied : drive.snapshots[run]? = some (.copied state)) :
    Kept { drive with file := state, snapshots := drive.snapshots.set run .saved } ↔
      Safe drive (.save run true) := by
  constructor
  · intro after other same op member _
    obtain rfl : state = other :=
      SnapshotRun.copied.inj (Option.some.inj (copied.symm.trans same))
    exact after op member
  · intro safe op member
    rcases kept op member with inFile | inJournal
    · exact safe state copied op member inFile
    · exact Or.inr inJournal

omit [DecidableEq Op] in
theorem kept_emptied_iff {drive : DurableDrive Op} (kept : Kept drive) (run : Nat) :
    Kept { drive with journal := [], snapshots := drive.snapshots.set run .ended } ↔
      Safe drive (.reset run true) := by
  constructor
  · intro after op member _
    rcases after op member with inFile | inJournal
    · exact inFile
    · cases inJournal
  · intro safe op member
    rcases kept op member with inFile | inJournal
    · exact Or.inl inFile
    · exact Or.inl (safe op member inJournal)

/-- A step keeps every promised op recoverable exactly when it is safe. -/
theorem kept_step_iff {drive next : DurableDrive Op} (kept : Kept drive)
    {event : DurableEvent Op} (taken : step drive event = some next) :
    Kept next ↔ Safe drive event := by
  have calmly (calm : Calm drive event) : Kept next := by
    have unwritten := calm_step calm taken
    intro op member
    rw [unwritten.file, unwritten.journal]
    exact kept op (unwritten.promised op member)
  cases step_cases taken with
  | saved run state copied => exact kept_saved_iff kept copied
  | emptied run => exact kept_emptied_iff kept run
  | unsaved | unemptied => exact iff_of_true kept trivial
  | append op held =>
    apply iff_of_true ?_ trivial
    intro other member
    simp only [promised, List.mem_append, List.mem_singleton] at member ⊢
    rcases member with old | rfl
    · have before := kept other (List.mem_append_left _ (List.mem_append.mpr old))
      exact before.imp id Or.inl
    · exact Or.inr (Or.inr rfl)
  | crash =>
    apply iff_of_true ?_ trivial
    intro op member
    simp only [promised, boot, List.append_nil] at member ⊢
    exact kept op (List.mem_append_left _ (List.mem_append_left _ member))
  | lock | apply | refuse | release | ack | copy => exact iff_of_true (calmly trivial) trivial

/-- What was answered, or is about to be, has been applied. -/
structure Applied (drive : DurableDrive Op) : Prop where
  answered : ∀ op ∈ drive.acked ++ drive.pending, op ∈ drive.live
  held : ∀ op, drive.holder = some { op, phase := .applied } → op ∈ drive.live

theorem applied_step {drive next : DurableDrive Op} {event : DurableEvent Op} (kept : Kept drive)
    (applied : Applied drive) (taken : step drive event = some next) : Applied next := by
  have answered := applied.answered
  cases step_cases taken with
  | lock | append | refuse => exact ⟨answered, nofun⟩
  | copy | saved | unsaved | emptied | unemptied => exact ⟨answered, applied.held⟩
  | apply op held =>
    refine ⟨?_, ?_⟩
    · intro other member
      exact (mem_replay _ _ other).mpr (Or.inl (answered other member))
    · intro other same
      obtain rfl : op = other := congrArg LockHolder.op (Option.some.inj same)
      exact (mem_replay _ _ op).mpr (Or.inr (List.mem_singleton.mpr rfl))
  | release op held =>
    refine ⟨?_, nofun⟩
    intro other member
    simp only [List.mem_append, List.mem_cons] at member
    rcases member with old | rfl | waiting
    · exact answered other (List.mem_append_left _ old)
    · exact applied.held other held
    · exact answered other (List.mem_append_right _ waiting)
  | ack op awaiting =>
    refine ⟨?_, applied.held⟩
    intro other member
    simp only [List.mem_append, List.mem_cons] at member
    rcases member with (rfl | old) | waiting
    · exact answered other (List.mem_append_right _ awaiting)
    · exact answered other (List.mem_append_left _ old)
    · exact answered other (List.mem_append_right _ (List.mem_of_mem_erase waiting))
  | crash =>
    refine ⟨?_, nofun⟩
    intro op member
    simp only [boot, List.append_nil] at member
    exact (mem_replay _ _ op).mpr
      (kept op (List.mem_append_left _ (List.mem_append_left _ member)))

theorem safe_run {file journal : List Op} {events : List (DurableEvent Op)}
    {drive : DurableDrive Op} (run : Runs.Run step Safe (boot file journal) events drive) :
    Kept drive ∧ Applied drive := by
  apply @Runs.Run.invariant _ _ _ _ (fun drive => Kept drive ∧ Applied drive) _ _ _ run
  · refine ⟨?_, ⟨?_, nofun⟩⟩
    · intro op member
      cases member
    · intro op member
      cases member
  · intro state event next before safe taken
    obtain ⟨kept, applied⟩ := before
    exact ⟨(kept_step_iff kept taken).mpr safe, applied_step kept applied taken⟩

omit [DecidableEq Op] in
theorem Applied.promised_live {drive : DurableDrive Op} (applied : Applied drive)
    (free : drive.holder = none) : ∀ op ∈ drive.promised, op ∈ drive.live := by
  intro op member
  simp only [promised, free, List.append_nil] at member
  exact applied.answered op member

/-- No op is journalled between the copy of a snapshot run and its reset. -/
def Orderly (drive : DurableDrive Op) : DurableEvent Op → Prop
  | .append => ∀ run ∈ drive.snapshots, run = .ended
  | _ => True

/-- Every promised op is in a copy that is still to be saved, and in a file whose journal is
still to be emptied. -/
structure Covered (drive : DurableDrive Op) : Prop where
  copied : ∀ state, .copied state ∈ drive.snapshots → ∀ op ∈ drive.promised, op ∈ state
  saved : .saved ∈ drive.snapshots → ∀ op ∈ drive.promised, op ∈ drive.file

omit [DecidableEq Op] in
theorem mem_of_mem_set {runs : List (SnapshotRun Op)} {index : Nat} {run other : SnapshotRun Op}
    (member : run ∈ runs.set index other) (differ : run ≠ other) : run ∈ runs :=
  (List.mem_or_eq_of_mem_set member).resolve_right differ

omit [DecidableEq Op] in
theorem Covered.of_unwritten {drive next : DurableDrive Op} (covered : Covered drive)
    (unwritten : Unwritten drive next) (same : next.snapshots = drive.snapshots) :
    Covered next where
  copied state member op told :=
    covered.copied state (same ▸ member) op (unwritten.promised op told)
  saved member op told :=
    unwritten.file ▸ covered.saved (same ▸ member) op (unwritten.promised op told)

omit [DecidableEq Op] in
theorem Covered.ended {drive next : DurableDrive Op} (covered : Covered drive) {run : Nat}
    (snapshots : next.snapshots = drive.snapshots.set run .ended) (file : next.file = drive.file)
    (promised : next.promised = drive.promised) : Covered next where
  copied state member := by
    rw [promised]
    exact covered.copied state (mem_of_mem_set (snapshots ▸ member) (by simp))
  saved member := by
    rw [promised, file]
    exact covered.saved (mem_of_mem_set (snapshots ▸ member) (by simp))

/-- Orderly steps are safe, whatever runs overlap. -/
theorem orderly_step {drive next : DurableDrive Op} {event : DurableEvent Op}
    (applied : Applied drive) (covered : Covered drive) (orderly : Orderly drive event)
    (taken : step drive event = some next) : Safe drive event ∧ Covered next := by
  have calmly (calm : Calm drive event) : Unwritten drive next := calm_step calm taken
  cases step_cases taken with
  | lock | apply | refuse | release | ack =>
    exact ⟨trivial, covered.of_unwritten (calmly trivial) rfl⟩
  | append op held =>
    refine ⟨trivial, fun state member => ?_, fun member => ?_⟩
    · cases orderly _ member
    · cases orderly _ member
  | copy free =>
    refine ⟨trivial, fun state member => ?_, fun member => ?_⟩
    · rcases List.mem_append.mp member with before | now
      · exact covered.copied state before
      · cases List.mem_singleton.mp now
        exact applied.promised_live free
    · rcases List.mem_append.mp member with before | now
      · exact covered.saved before
      · cases List.mem_singleton.mp now
  | saved run state copied =>
    have inCopy := covered.copied state (List.mem_of_getElem? copied)
    refine ⟨fun other same op told _ => ?_, fun other member => ?_, fun _ => inCopy⟩
    · cases copied.symm.trans same
      exact Or.inl (inCopy op told)
    · exact covered.copied other (mem_of_mem_set member (by simp))
  | emptied run free saved =>
    exact ⟨fun op told _ => covered.saved (List.mem_of_getElem? saved) op told,
      covered.ended rfl rfl rfl⟩
  | unsaved run | unemptied run => exact ⟨trivial, covered.ended rfl rfl rfl⟩
  | crash =>
    refine ⟨trivial, fun state member => ?_, fun member => ?_⟩
    · cases member
    · cases member

/-- So a run of orderly steps is one of safe steps. -/
theorem orderly_run {file journal : List Op} {events : List (DurableEvent Op)}
    {drive : DurableDrive Op} (run : Runs.Run step Orderly (boot file journal) events drive) :
    Runs.Run step Safe (boot file journal) events drive := by
  have start : Kept (boot file journal) ∧ Applied (boot file journal) ∧
      Covered (boot file journal) := ⟨nofun, ⟨nofun, nofun⟩, ⟨nofun, nofun⟩⟩
  apply (@Runs.Run.meets _ _ _ _ (fun drive => Kept drive ∧ Applied drive ∧ Covered drive) _ _ _ _
    run start ?_).1
  rintro state event next ⟨kept, applied, covered⟩ orderly taken
  obtain ⟨safe, after⟩ := orderly_step applied covered orderly taken
  exact ⟨safe, (kept_step_iff kept taken).mpr safe, applied_step kept applied taken, after⟩

/-- In a run of safe steps every acknowledged op survives a crash at any point, and a run in
which no op is journalled between the copy of a snapshot run and its reset is one. -/
theorem acked_survives_crash {file journal : List Op} {events : List (DurableEvent Op)}
    {drive : DurableDrive Op} :
    (Runs.Run step Safe (boot file journal) events drive →
      ∀ op ∈ drive.acked, op ∈ drive.recovered) ∧
    (Runs.Run step Orderly (boot file journal) events drive →
      Runs.Run step Safe (boot file journal) events drive ∧
        ∀ op ∈ drive.acked, op ∈ drive.recovered) := by
  have survives : Runs.Run step Safe (boot file journal) events drive →
      ∀ op ∈ drive.acked, op ∈ drive.recovered := by
    intro run op acknowledged
    rw [mem_recovered]
    apply (safe_run run).1
    exact List.mem_append_left _ (List.mem_append_left _ acknowledged)
  exact ⟨survives, fun run => ⟨orderly_run run, survives (orderly_run run)⟩⟩

instance (drive : DurableDrive Op) (event : DurableEvent Op) : Decidable (Safe drive event) :=
  match event with
  | .reset _ true =>
    inferInstanceAs (Decidable (∀ op ∈ drive.promised, op ∈ drive.journal → op ∈ drive.file))
  | .save run true =>
    match found : drive.snapshots[run]? with
    | some (.copied state) =>
      decidable_of_iff (∀ op ∈ drive.promised, op ∈ drive.file → op ∈ state ∨ op ∈ drive.journal)
        ⟨fun safe _ same => SnapshotRun.copied.inj (Option.some.inj (found.symm.trans same)) ▸ safe,
          fun safe => safe state found⟩
    | none | some .saved | some .ended =>
      isTrue fun _ same => nomatch found.symm.trans same
  | .reset _ false | .save _ false | .lock _ | .append | .apply | .refuse | .release | .ack _
  | .copy | .crash => isTrue trivial

instance (drive : DurableDrive Op) (event : DurableEvent Op) : Decidable (Orderly drive event) :=
  match event with
  | .append => inferInstanceAs (Decidable (∀ run ∈ drive.snapshots, run = .ended))
  | .lock _ | .apply | .refuse | .release | .ack _ | .copy | .save .. | .reset .. | .crash =>
    isTrue trivial

def orderlyEvents : List (DurableEvent Nat) :=
  [.lock 1, .append, .apply, .release, .ack 1, .copy, .save 0 true, .reset 0 true,
    .lock 2, .append, .apply, .release, .ack 2, .crash]

def orderlyDrive : DurableDrive Nat :=
  (Runs.exec (Runs.guarded step Orderly) (boot [] []) orderlyEvents).getD (boot [] [])

theorem orderlyDrive_survives : 1 ∈ orderlyDrive.acked ∧ 2 ∈ orderlyDrive.acked ∧
    1 ∈ orderlyDrive.recovered ∧ 2 ∈ orderlyDrive.recovered := by
  have executed : Runs.exec (Runs.guarded step Orderly) (boot [] []) orderlyEvents =
      some orderlyDrive := by decide
  have survives := acked_survives_crash.2 (Runs.exec_guarded_run executed)
  have again := acked_survives_crash.1 survives.1
  exact ⟨by decide, by decide, survives.2 1 (by decide), again 2 (by decide)⟩

/-- An op is journalled, applied and acknowledged after the snapshot copied the
state and before it emptied the journal. -/
def overtakenEvents : List (DurableEvent Nat) :=
  [.copy, .lock 1, .append, .apply, .release, .ack 1, .save 0 true, .reset 0 true, .crash]

theorem overtaken_op_lost :
    ∃ drive, Runs.exec step (boot [] []) overtakenEvents = some drive ∧
      1 ∈ drive.acked ∧ 1 ∉ drive.recovered ∧ 1 ∉ drive.live := by
  refine ⟨(Runs.exec step (boot [] []) overtakenEvents).getD (boot [] []), ?_⟩
  decide

end DurableDrive

end DriveServe
