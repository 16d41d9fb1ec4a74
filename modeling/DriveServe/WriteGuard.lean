import DriveServe.Calls
import DriveServe.ReferenceDrive
import DriveServe.Runs

set_option autoImplicit false

/-! Optimistic concurrency on `Write`: the version a write names as its base, and the
version it finds when its turn under the registry lock comes. -/

namespace DriveServe

section

variable {δ σ ε : Type}

def currentEtag (core : SyncedDrive δ σ ε) (drive : δ) (path : String) : Option String :=
  (core.resolve drive (normPath path)).map (etagFor core drive)

/-- A `Write` that was answered, with the tenant before and after it. -/
structure WriteAnswer (δ : Type) where
  path : String
  baseEtag : Option String
  before : Tenant δ
  reply : DriveReply
  after : Tenant δ

structure WriteSystem (δ : Type) where
  registry : Registry δ
  answers : List (WriteAnswer δ)

namespace WriteSystem

def boot (registry : Registry δ) : WriteSystem δ := { registry, answers := [] }

def answered (registry : Registry δ) (req : DriveReq) (served : Served δ) :
    Option (WriteAnswer δ) :=
  match req.op with
  | .write path _ _ baseEtag => do
    let before ← registry.get req.drive
    let after ← served.registry.get req.drive
    return { path, baseEtag, before, reply := served.reply, after }
  | _ => none

def step (host : Host δ σ ε) (system : WriteSystem δ) (arrival : Arrival ε) :
    Option (WriteSystem δ) :=
  let served := dispatch host arrival.world system.registry arrival.fromHex arrival.req
  some {
    registry := served.registry
    answers := system.answers ++ (answered system.registry arrival.req served).toList }

end WriteSystem

/-- A write with a base is done only over the version it names; one that is not done is an
error and has changed nothing. -/
structure CompareAndSet (core : SyncedDrive δ σ ε) (answer : WriteAnswer δ) : Prop where
  written : ∀ base etag nodeId seq, answer.baseEtag = some base →
    answer.reply = .ok (.written etag nodeId seq) →
      currentEtag core answer.before.drive answer.path = some base
  refused : (∀ etag nodeId seq, answer.reply ≠ .ok (.written etag nodeId seq)) →
    ∃ e, answer.reply = .error e ∧ answer.after = answer.before

/-- An accepted write with a base that finds nothing at its path and puts the file there. -/
structure Unguarded (host : Host δ σ ε) (registry : Registry δ) (arrival : Arrival ε)
    (path objectCid : String) (size : Nat) (base : String) : Prop where
  op : arrival.req.op = .write path objectCid size (some base)
  admitted : ∃ chain, admission host arrival.world arrival.fromHex arrival.req = .ok chain
  vacant : ∃ tenant, registry.get arrival.req.drive = some tenant ∧
    host.core.resolve tenant.drive (normPath path) = none ∧
    ∃ parent name answer after, splitPath path = some (parent, name) ∧
      host.core.call arrival.world.env tenant.drive (.addFile parent name
        (host.core.newContent (host.core.objectLocator objectCid) size 0o644
          arrival.world.nowMs)) = (.ok answer, after)

/-- Every base a write carries is compared with something. -/
def Compared (host : Host δ σ ε) (system : WriteSystem δ) (arrival : Arrival ε) : Prop :=
  ∀ path objectCid size base,
    ¬ Unguarded host system.registry arrival path objectCid size base

theorem writeConflict_none_iff (core : SyncedDrive δ σ ε) (drive : δ) (path : String)
    (baseEtag : Option String) :
    writeConflict core drive path baseEtag = none ↔
      ∀ current base, currentEtag core drive path = some current → baseEtag = some base →
        base = current := by
  unfold writeConflict currentEtag
  cases core.resolve drive (normPath path) with
  | none => simp
  | some node =>
    cases baseEtag with
    | none => simp
    | some base => simp

inductive WriteEnds (core : SyncedDrive δ σ ε) (world : World ε) (path objectCid : String)
    (size : Nat) (baseEtag : Option String) (before : Tenant δ) :
    DriveReply → Tenant δ → Prop
  | refused (e : DriveErr) :
      WriteEnds core world path objectCid size baseEtag before (.error e) before
  | failed (parent name e : String) (after : δ)
      (made : core.call world.env before.drive (.addFile parent name
        (core.newContent (core.objectLocator objectCid) size 0o644 world.nowMs)) =
          (.error e, after)) :
      WriteEnds core world path objectCid size baseEtag before (.error (.internal e))
        { before with drive := after }
  | written (parent name answer etag nodeId : String) (seq : Nat) (after : δ) (feed : Feed)
      (split : splitPath path = some (parent, name))
      (passed : writeConflict core before.drive path baseEtag = none)
      (made : core.call world.env before.drive (.addFile parent name
        (core.newContent (core.objectLocator objectCid) size 0o644 world.nowMs)) =
          (.ok answer, after)) :
      WriteEnds core world path objectCid size baseEtag before
        (.ok (.written etag nodeId seq)) { before with drive := after, feed }

theorem opWrite_ends (core : SyncedDrive δ σ ε) (world : World ε) {path parent name : String}
    (split : splitPath path = some (parent, name)) (objectCid : String) (size : Nat)
    (baseEtag : Option String) (before : Tenant δ) :
    let outcome := opWrite core world path parent name objectCid size baseEtag before
    WriteEnds core world path objectCid size baseEtag before (outcome.1.map Prod.fst)
      outcome.2 := by
  dsimp only
  unfold opWrite
  cases passed : writeConflict core before.drive path baseEtag with
  | some current => exact .refused _
  | none =>
    dsimp only
    unfold mutateRecord
    cases made : core.call world.env before.drive (.addFile parent name
        (core.newContent (core.objectLocator objectCid) size 0o644 world.nowMs)) with
    | mk answered drive =>
      cases answered with
      | error e => exact .failed parent name e drive made
      | ok answer => exact .written parent name answer _ _ _ drive _ split passed made

variable {host : Host δ σ ε} {registry : Registry δ} {before : Tenant δ}

theorem dispatch_write_ends (host : Host δ σ ε) {arrival : Arrival ε} {path objectCid : String}
    {size : Nat} {baseEtag : Option String}
    (op : arrival.req.op = .write path objectCid size baseEtag)
    (found : registry.get arrival.req.drive = some before) :
    let served := dispatch host arrival.world registry arrival.fromHex arrival.req
    ∃ after, served.registry.get arrival.req.drive = some after ∧
      WriteEnds host.core arrival.world path objectCid size baseEtag before served.reply after ∧
      ((∃ ok, served.reply = .ok ok) →
        ∃ chain, admission host arrival.world arrival.fromHex arrival.req = .ok chain) := by
  dsimp only
  cases gate : admission host arrival.world arrival.fromHex arrival.req with
  | error e =>
    rw [dispatch_refused gate]
    refine ⟨before, found, .refused e, ?_⟩
    rintro ⟨ok, impossible⟩
    cases impossible
  | ok chain =>
    rw [dispatch_admitted gate]
    cases split : splitPath path with
    | none =>
      simp only [dispatchInner, op, split]
      exact ⟨before, found, .refused _, fun _ => ⟨chain, rfl⟩⟩
    | some parts =>
      have records : recordingStretch host.core arrival.world arrival.req.op =
          some (opWrite host.core arrival.world path parts.1 parts.2 objectCid size baseEtag) := by
        simp only [op, recordingStretch, split, Option.map_some]
      rw [dispatchInner_recording records]
      dsimp only [Served.announced]
      rw [Registry.locked_of_found found]
      exact ⟨_, Registry.get_put_self found _, opWrite_ends _ _ split _ _ _ _,
        fun _ => ⟨chain, rfl⟩⟩

/-- A write that finds nothing at its path is done whatever its base. -/
theorem Unguarded.written {arrival : Arrival ε} {path objectCid : String} {size : Nat}
    {base : String} (unguarded : Unguarded host registry arrival path objectCid size base) :
    ∃ before etag nodeId seq, registry.get arrival.req.drive = some before ∧
      currentEtag host.core before.drive path = none ∧
      (dispatch host arrival.world registry arrival.fromHex arrival.req).reply =
        .ok (.written etag nodeId seq) := by
  obtain ⟨chain, admitted⟩ := unguarded.admitted
  obtain ⟨before, found, nothing, parent, name, answer, after, split, made⟩ := unguarded.vacant
  have vacant : currentEtag host.core before.drive path = none := by
    rw [currentEtag, nothing, Option.map_none]
  have passed : writeConflict host.core before.drive path (some base) = none := by
    rw [writeConflict_none_iff, vacant]
    simp
  have records : recordingStretch host.core arrival.world arrival.req.op =
      some (opWrite host.core arrival.world path parent name objectCid size (some base)) := by
    simp only [unguarded.op, recordingStretch, split, Option.map_some]
  refine ⟨before, etagFor host.core after answer, answer, before.feed.cursor + 1, found, vacant, ?_⟩
  rw [dispatch_admitted admitted, dispatchInner_recording records]
  dsimp only [Served.announced]
  rw [Registry.locked_of_found found]
  simp only [opWrite, passed, mutateRecord, made, Except.map, Feed.record_fst, id]

theorem Unguarded.not_compareAndSet {arrival : Arrival ε} {path objectCid : String} {size : Nat}
    {base : String} (unguarded : Unguarded host registry arrival path objectCid size base)
    (found : registry.get arrival.req.drive = some before) (after : Tenant δ) :
    ¬ CompareAndSet host.core
        { path, baseEtag := some base, before
          reply := (dispatch host arrival.world registry arrival.fromHex arrival.req).reply
          after } := by
  intro ⟨done, _⟩
  dsimp only at done
  obtain ⟨tenant, etag, nodeId, seq, held, vacant, replied⟩ := unguarded.written
  have current := done base etag nodeId seq rfl replied
  have one : before = tenant := Option.some.inj (found.symm.trans held)
  rw [one, vacant] at current
  cases current

/-- However a write ends, it is a compare-and-set if a base it carries is compared. -/
theorem WriteEnds.compareAndSet {core : SyncedDrive δ σ ε} (clean : core.FailsUnchanged)
    {world : World ε} {path objectCid : String} {size : Nat} {baseEtag : Option String}
    {reply : DriveReply} {after : Tenant δ}
    (ends : WriteEnds core world path objectCid size baseEtag before reply after)
    (compared : ∀ base, baseEtag = some base → core.resolve before.drive (normPath path) = none →
      ∀ ok parent name answer drive, reply = .ok ok → splitPath path = some (parent, name) →
        core.call world.env before.drive (.addFile parent name
          (core.newContent (core.objectLocator objectCid) size 0o644 world.nowMs)) ≠
            (.ok answer, drive)) :
    CompareAndSet core { path, baseEtag, before, reply, after } := by
  cases ends with
  | refused e =>
    exact ⟨fun _ _ _ _ _ impossible => (nomatch impossible), fun _ => ⟨e, rfl, rfl⟩⟩
  | failed parent name e drive made =>
    have same : drive = before.drive := clean _ _ _ _ _ made
    refine ⟨fun _ _ _ _ _ impossible => (nomatch impossible), fun _ => ⟨_, rfl, ?_⟩⟩
    rw [same]
  | written parent name answer etag nodeId seq drive feed split passed made =>
    refine ⟨?_, fun other => absurd rfl (other etag nodeId seq)⟩
    intro base _ _ _ named _
    dsimp only at named ⊢
    cases current : currentEtag core before.drive path with
    | none =>
      have nothing := Option.map_eq_none_iff.mp current
      exact absurd made (compared base named nothing _ parent name answer drive rfl split)
    | some etag =>
      rw [(writeConflict_none_iff ..).mp passed etag base current named]

/-- A write is a compare-and-set exactly when its base is compared with something. -/
theorem compareAndSet_iff (clean : host.core.FailsUnchanged) {arrival : Arrival ε}
    {path objectCid : String} {size : Nat} {baseEtag : Option String} {after : Tenant δ}
    (op : arrival.req.op = .write path objectCid size baseEtag)
    (found : registry.get arrival.req.drive = some before)
    (stored : (dispatch host arrival.world registry arrival.fromHex arrival.req).registry.get
      arrival.req.drive = some after) :
    CompareAndSet host.core
        { path, baseEtag, before
          reply := (dispatch host arrival.world registry arrival.fromHex arrival.req).reply
          after } ↔
      ∀ path objectCid size base, ¬ Unguarded host registry arrival path objectCid size base := by
  constructor
  · intro answer other cid length base unguarded
    have same := unguarded.op
    rw [op] at same
    cases same
    exact unguarded.not_compareAndSet found after answer
  · intro guarded
    obtain ⟨last, kept, ends, admitted⟩ := dispatch_write_ends host op found
    have one : after = last := Option.some.inj (stored.symm.trans kept)
    rw [one]
    apply ends.compareAndSet clean
    intro base named nothing ok parent name answer drive replied split made
    rw [named] at op
    exact guarded path objectCid size base ⟨op, admitted ⟨ok, replied⟩, before, found, nothing,
      parent, name, answer, drive, split, made⟩

namespace WriteSystem

theorem step_answers {system next : WriteSystem δ} {arrival : Arrival ε}
    (taken : step host system arrival = some next) : next.answers = system.answers ++
      (answered system.registry arrival.req
        (dispatch host arrival.world system.registry arrival.fromHex arrival.req)).toList := by
  unfold step at taken
  rw [← Option.some.inj taken]

/-- Along requests whose bases are compared with something, every write answered is a
compare-and-set. -/
theorem write_compare_and_set (clean : host.core.FailsUnchanged) {first : Registry δ}
    {arrivals : List (Arrival ε)} {system : WriteSystem δ}
    (run : Runs.Run (step host) (Compared host) (boot first) arrivals system) :
    ∀ answer ∈ system.answers, CompareAndSet host.core answer := by
  apply run.invariant
  · intro answer member
    cases member
  · intro state arrival next before compared taken answer member
    rw [step_answers taken] at member
    rcases List.mem_append.mp member with earlier | now
    · exact before answer earlier
    · have made := Option.mem_toList.mp now
      unfold answered at made
      split at made
      · rename_i path objectCid size baseEtag op
        simp only [Option.bind_eq_bind, Option.bind_eq_some_iff] at made
        obtain ⟨held, found, after, stored, shape⟩ := made
        cases shape
        exact (compareAndSet_iff clean op found stored).mpr compared
      · cases made

end WriteSystem

end

namespace Reference

def writeHost : Host FileDrive FileDrive (Option String) := host [("grant", [grant "/"])] []

def arrival (op : DriveOp) : Arrival (Option String) where
  fromHex := sender
  req := { drive := "team", cap := "grant", op }
  world := (world (some "n2")).toWorld

def after (system : WriteSystem FileDrive) (op : DriveOp) : WriteSystem FileDrive :=
  let served := dispatch writeHost (arrival op).world system.registry sender (arrival op).req
  { registry := served.registry
    answers := system.answers ++
      (WriteSystem.answered system.registry (arrival op).req served).toList }

def booted : WriteSystem FileDrive := .boot teamRegistry

theorem compared_of_found {system : WriteSystem FileDrive} {path : String}
    (found : ((system.registry.get "team").bind fun tenant =>
      core.resolve tenant.drive (normPath path)).isSome)
    (objectCid : String) (size : Nat) (baseEtag : Option String) :
    Compared writeHost system (arrival (.write path objectCid size baseEtag)) := by
  intro _ _ _ _ unguarded
  have same : DriveOp.write path objectCid size baseEtag = .write _ _ _ (some _) := unguarded.op
  cases same
  obtain ⟨tenant, held, nothing, _⟩ := unguarded.vacant
  change system.registry.get "team" = some tenant at held
  change core.resolve tenant.drive (normPath path) = none at nothing
  rw [held, Option.bind_some, nothing] at found
  cases found

end Reference

open Reference in
theorem rivalWrites_compare_and_set :
    ∃ system, Runs.Run (WriteSystem.step writeHost) (Compared writeHost) booted
        [arrival (.write "/a" "o2" 1 (some "o1:1000")),
          arrival (.write "/a" "o3" 1 (some "o1:1000"))] system ∧
      system.answers.map WriteAnswer.reply =
        [.ok (.written "o2:10000" "n1" 1), .error (.conflict "o2:10000")] ∧
      ∀ answer ∈ system.answers, CompareAndSet core answer := by
  have early : Compared writeHost booted (arrival (.write "/a" "o2" 1 (some "o1:1000"))) :=
    compared_of_found (by decide) _ _ _
  have late : Compared writeHost (after booted (.write "/a" "o2" 1 (some "o1:1000")))
      (arrival (.write "/a" "o3" 1 (some "o1:1000"))) :=
    compared_of_found (by decide) _ _ _
  have run : Runs.Run (WriteSystem.step writeHost) (Compared writeHost) booted
      [arrival (.write "/a" "o2" 1 (some "o1:1000")),
        arrival (.write "/a" "o3" 1 (some "o1:1000"))]
      (after (after booted (.write "/a" "o2" 1 (some "o1:1000")))
        (.write "/a" "o3" 1 (some "o1:1000"))) :=
    .append (.single early rfl) (.single late rfl)
  refine ⟨_, run, by decide, ?_⟩
  exact WriteSystem.write_compare_and_set core_failsUnchanged run

open Reference in
/-- A write over a version that was deleted in the meantime is done. -/
theorem deletedBase_written :
    core.FailsUnchanged ∧
      Runs.Free (WriteSystem.step writeHost) booted
        [arrival (.delete "/a" false), arrival (.write "/a" "o2" 1 (some "o1:1000"))]
        (after (after booted (.delete "/a" false)) (.write "/a" "o2" 1 (some "o1:1000"))) ∧
      ∃ answer ∈ (after (after booted (.delete "/a" false))
          (.write "/a" "o2" 1 (some "o1:1000"))).answers,
        answer.baseEtag = some "o1:1000" ∧ answer.reply = .ok (.written "o2:10000" "n2" 2) ∧
        currentEtag core answer.before.drive answer.path = none :=
  ⟨core_failsUnchanged, .append (.single trivial rfl) (.single trivial rfl),
    _, List.mem_singleton.mpr rfl, rfl, by decide, by decide⟩

end DriveServe
