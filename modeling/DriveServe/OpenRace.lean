import DriveServe.FeedComplete

set_option autoImplicit false

/-! Opens and recorded changes on one drive, interleaved wherever a handler lets go
of the registry lock. An Open takes the lock up to three times around its upload. -/

namespace DriveServe

section

variable {δ σ ε : Type} {cidOf : Bytes → String}

/-- How far an Open has come that its cache did not answer. -/
inductive OpenStage where
  | missed
  | copied (bytes : Bytes)
  | uploaded (bytes : Bytes) (cid : String)
  deriving DecidableEq, Repr

def OpenStage.bytes : OpenStage → Option Bytes
  | .missed => none
  | .copied bytes | .uploaded bytes _ => some bytes

structure OpenFlight where
  granted : List String
  stage : OpenStage
  deriving DecidableEq, Repr

/-- One drive under concurrent requests. `states` is kept for the proof: what the
drive serialized to at the start and after each recorded change. -/
structure OpenSystem (δ σ : Type) where
  tenant : Tenant δ
  states : List σ
  flights : List OpenFlight
  replies : List DriveOk

inductive OpenEvent (ε : Type) (cidOf : Bytes → String) where
  | arrive (granted : List String)
  | copy (index : Nat)
  | upload (index : Nat) (world : AddressedWorld ε cidOf)
  | publish (index : Nat)
  | mutate (op : DriveOp) (world : AddressedWorld ε cidOf)

namespace OpenSystem

def boot (core : SyncedDrive δ σ ε) (drive : δ) (quota : Quota) : OpenSystem δ σ where
  tenant := Tenant.new drive quota
  states := [core.toState drive]
  flights := []
  replies := []

def arrive (system : OpenSystem δ σ) (granted : List String) : OpenSystem δ σ :=
  match openFast granted system.tenant with
  | some reply => { system with replies := system.replies ++ [reply] }
  | none => { system with flights := system.flights ++ [{ granted, stage := .missed }] }

def advance (system : OpenSystem δ σ) (index : Nat) (granted : List String)
    (stage : Except DriveErr OpenStage) : OpenSystem δ σ :=
  match stage with
  | .error _ => { system with flights := system.flights.eraseIdx index }
  | .ok stage => { system with flights := system.flights.set index { granted, stage } }

/-- The last stretch of an Open, and its reply. -/
def publish (system : OpenSystem δ σ) (index : Nat) (granted : List String) (cid : String) :
    OpenSystem δ σ :=
  let ((serverSeq, quota), tenant) := openPublish cid system.tenant
  { system with
    tenant
    flights := system.flights.eraseIdx index
    replies := system.replies ++ [.opened cid serverSeq granted quota] }

def mutate (core : SyncedDrive δ σ ε) (system : OpenSystem δ σ)
    (stretch : Tenant δ → Except DriveErr (DriveOk × Nat) × Tenant δ) : OpenSystem δ σ :=
  let tenant := (stretch system.tenant).2
  { system with
    tenant
    states := if tenant.feed.cursor = system.tenant.feed.cursor then system.states
      else system.states ++ [core.toState tenant.drive] }

def step (host : Host δ σ ε) (system : OpenSystem δ σ) :
    OpenEvent ε cidOf → Option (OpenSystem δ σ)
  | .arrive granted => some (system.arrive granted)
  | .copy index =>
    match system.flights[index]? with
    | some { granted, stage := .missed } =>
      some (system.advance index granted ((openState host system.tenant).map .copied))
    | _ => none
  | .upload index world =>
    match system.flights[index]? with
    | some { granted, stage := .copied bytes } =>
      some (system.advance index granted
        (((world.putObject bytes).mapError .internal).map (.uploaded bytes)))
    | _ => none
  | .publish index =>
    match system.flights[index]? with
    | some { granted, stage := .uploaded _ cid } => some (system.publish index granted cid)
    | _ => none
  | .mutate op world => (recordingStretch host.core world.toWorld op).map (system.mutate host.core)

inductive Stepped (host : Host δ σ ε) (system : OpenSystem δ σ) :
    OpenEvent ε cidOf → OpenSystem δ σ → Prop
  | arrive (granted : List String) : Stepped host system (.arrive granted) (system.arrive granted)
  | copy (index : Nat) (granted : List String)
      (found : system.flights[index]? = some { granted, stage := .missed }) :
      Stepped host system (.copy index)
        (system.advance index granted ((openState host system.tenant).map .copied))
  | upload (index : Nat) (world : AddressedWorld ε cidOf) (granted : List String) (bytes : Bytes)
      (found : system.flights[index]? = some { granted, stage := .copied bytes }) :
      Stepped host system (.upload index world) (system.advance index granted
        (((world.putObject bytes).mapError .internal).map (.uploaded bytes)))
  | publish (index : Nat) (granted : List String) (bytes : Bytes) (cid : String)
      (found : system.flights[index]? = some { granted, stage := .uploaded bytes cid }) :
      Stepped host system (.publish index) (system.publish index granted cid)
  | mutate (op : DriveOp) (world : AddressedWorld ε cidOf)
      (stretch : Tenant δ → Except DriveErr (DriveOk × Nat) × Tenant δ)
      (records : recordingStretch host.core world.toWorld op = some stretch) :
      Stepped host system (.mutate op world) (system.mutate host.core stretch)

theorem step_cases {host : Host δ σ ε} {system next : OpenSystem δ σ} {event : OpenEvent ε cidOf}
    (taken : step host system event = some next) : Stepped host system event next := by
  cases event with
  | arrive granted =>
    cases taken
    exact .arrive granted
  | copy index =>
    simp only [step] at taken
    split at taken
    · rename_i granted found
      cases taken
      exact .copy index granted found
    · cases taken
  | upload index world =>
    simp only [step] at taken
    split at taken
    · rename_i granted bytes found
      cases taken
      exact .upload index world granted bytes found
    · cases taken
  | publish index =>
    simp only [step] at taken
    split at taken
    · rename_i granted bytes cid found
      cases taken
      exact .publish index granted bytes cid found
    · cases taken
  | mutate op world =>
    obtain ⟨stretch, records, rfl⟩ := Option.map_eq_some_iff.mp taken
    exact .mutate op world stretch records

/-- An Open publishes while the drive still serializes to the bytes it copied. -/
def Still (host : Host δ σ ε) (system : OpenSystem δ σ) : OpenEvent ε cidOf → Prop
  | .publish index => ∀ granted bytes cid,
      system.flights[index]? = some { granted, stage := .uploaded bytes cid } →
        openState host system.tenant = .ok bytes
  | _ => True

/-- The object `cid` is the drive after exactly the first `seq` recorded changes. -/
def Names (host : Host δ σ ε) (cidOf : Bytes → String) (states : List σ) (cid : String)
    (seq : Nat) : Prop :=
  ∃ state bytes, states[seq]? = some state ∧ host.codec.encodeState state = .ok bytes ∧
    cid = cidOf bytes

structure Inv (host : Host δ σ ε) (cidOf : Bytes → String) (system : OpenSystem δ σ) : Prop where
  counted : system.states.length = system.tenant.feed.cursor + 1
  present : system.states[system.tenant.feed.cursor]? =
    some (host.core.toState system.tenant.drive)
  uploaded : ∀ granted bytes cid,
    { granted, stage := .uploaded bytes cid } ∈ system.flights → cid = cidOf bytes
  cached : ∀ cid seq, system.tenant.snapshot = some (cid, seq) →
    Names host cidOf system.states cid seq
  replied : ∀ cid seq granted quota, .opened cid seq granted quota ∈ system.replies →
    Names host cidOf system.states cid seq

variable {host : Host δ σ ε} {system : OpenSystem δ σ}

theorem Names.append {states : List σ} {cid : String} {seq : Nat}
    (names : Names host cidOf states cid seq) (more : List σ) :
    Names host cidOf (states ++ more) cid seq := by
  obtain ⟨state, bytes, stored, encoded, named⟩ := names
  have within := (List.getElem?_eq_some_iff.mp stored).1
  refine ⟨state, bytes, ?_, encoded, named⟩
  rw [List.getElem?_append_left within]
  exact stored

theorem Names.within {states : List σ} {cid : String} {seq : Nat}
    (names : Names host cidOf states cid seq) : seq < states.length := by
  obtain ⟨state, bytes, stored, _, _⟩ := names
  exact (List.getElem?_eq_some_iff.mp stored).1

theorem inv_boot (drive : δ) (quota : Quota) :
    Inv host cidOf (boot host.core drive quota) where
  counted := rfl
  present := rfl
  uploaded _ _ _ member := nomatch member
  cached _ _ cached := nomatch cached
  replied _ _ _ _ member := nomatch member

theorem inv_arrive (inv : Inv host cidOf system) (granted : List String) :
    Inv host cidOf (system.arrive granted) := by
  unfold arrive
  split
  · rename_i reply answered
    obtain ⟨cid, cached, shape⟩ := openFast_some answered
    refine { inv with replied := fun other seq abilities quota member => ?_ }
    rcases List.mem_append.mp member with earlier | now
    · exact inv.replied _ _ _ _ earlier
    · have same := List.mem_singleton.mp now
      rw [shape] at same
      injection same with sameCid sameSeq
      rw [sameCid, sameSeq]
      exact inv.cached cid _ cached
  · refine { inv with uploaded := fun abilities bytes cid member => ?_ }
    rcases List.mem_append.mp member with earlier | now
    · exact inv.uploaded _ _ _ earlier
    · have fresh := List.mem_singleton.mp now
      injection fresh with _ stage
      cases stage

theorem inv_advance (inv : Inv host cidOf system) {index : Nat} {granted : List String}
    {stage : Except DriveErr OpenStage}
    (addressed : ∀ bytes cid, stage = .ok (.uploaded bytes cid) → cid = cidOf bytes) :
    Inv host cidOf (system.advance index granted stage) := by
  unfold advance
  cases stage with
  | error e =>
    refine { inv with uploaded := fun abilities bytes cid member => ?_ }
    exact inv.uploaded _ _ _ (List.mem_of_mem_eraseIdx member)
  | ok stage =>
    refine { inv with uploaded := fun abilities bytes cid member => ?_ }
    rcases List.mem_or_eq_of_mem_set member with earlier | now
    · exact inv.uploaded _ _ _ earlier
    · injection now with _ same
      exact addressed bytes cid (congrArg Except.ok same.symm)

/-- What the host would publish now is the drive at the present cursor. -/
theorem names_present (inv : Inv host cidOf system) {bytes : Bytes} {cid : String}
    (copied : openState host system.tenant = .ok bytes) (addressed : cid = cidOf bytes) :
    Names host cidOf system.states cid system.tenant.feed.cursor := by
  refine ⟨_, bytes, inv.present, ?_, addressed⟩
  simpa [openState] using copied

theorem inv_publish (inv : Inv host cidOf system) {index : Nat} {granted : List String}
    {cid : String} (names : Names host cidOf system.states cid system.tenant.feed.cursor) :
    Inv host cidOf (system.publish index granted cid) where
  counted := inv.counted
  present := inv.present
  uploaded _ _ _ member := inv.uploaded _ _ _ (List.mem_of_mem_eraseIdx member)
  cached other seq stored := by
    obtain ⟨rfl, rfl⟩ := Prod.mk.inj (Option.some.inj stored)
    exact names
  replied other seq abilities quota member := by
    rcases List.mem_append.mp member with earlier | now
    · exact inv.replied _ _ _ _ earlier
    · have same := List.mem_singleton.mp now
      injection same with sameCid sameSeq
      rw [sameCid, sameSeq]
      exact names

/-- A stretch that may record keeps the cached snapshot, and moves the cursor by one or
leaves what the drive serializes to. -/
theorem recording_moves (clean : host.core.FailsClean) {world : World ε} {op : DriveOp}
    {stretch : Tenant δ → Except DriveErr (DriveOk × Nat) × Tenant δ}
    (records : recordingStretch host.core world op = some stretch) (tenant : Tenant δ) :
    (stretch tenant).2.snapshot = tenant.snapshot ∧
      ((stretch tenant).2.feed.cursor = tenant.feed.cursor + 1 ∨
        (stretch tenant).2.feed.cursor = tenant.feed.cursor ∧
          host.core.toState (stretch tenant).2.drive = host.core.toState tenant.drive) := by
  have unspoken := unspoken_of_records records
  have effect := recordingStretch_effect records tenant
  generalize (stretch tenant).2 = after at effect
  generalize (stretch tenant).1.map Prod.fst = reply at effect
  cases effect with
  | kept => exact ⟨rfl, Or.inr ⟨rfl, rfl⟩⟩
  | failed call e drive _ made => exact ⟨rfl, Or.inr ⟨rfl, clean _ _ _ _ _ made⟩⟩
  | recorded call answer drive path nodeId kind etag =>
    exact ⟨rfl, Or.inl (tenant.feed.record_cursor path nodeId kind etag)⟩
  | silent call answer drive verb =>
    rw [unspoken] at verb
    cases verb
  | published bytes cid abilities opened =>
    subst opened
    cases records

theorem inv_mutate (clean : host.core.FailsClean) (inv : Inv host cidOf system)
    {world : World ε} {op : DriveOp}
    {stretch : Tenant δ → Except DriveErr (DriveOk × Nat) × Tenant δ}
    (records : recordingStretch host.core world op = some stretch) :
    Inv host cidOf (system.mutate host.core stretch) := by
  obtain ⟨snapshot, ends⟩ := recording_moves clean records system.tenant
  have counted := inv.counted
  unfold mutate
  rcases ends with moved | ⟨unmoved, same⟩
  · have ahead : ¬ (stretch system.tenant).2.feed.cursor = system.tenant.feed.cursor := by omega
    have last : (stretch system.tenant).2.feed.cursor = system.states.length := by omega
    simp only [ahead, ↓reduceIte]
    refine ⟨?_, ?_, inv.uploaded, ?_, ?_⟩
    · simp only [List.length_append, List.length_singleton]
      omega
    · simp only [last, List.getElem?_concat_length]
    · exact fun cid seq stored => (inv.cached cid seq (snapshot ▸ stored)).append _
    · exact fun cid seq abilities quota member => (inv.replied _ _ _ _ member).append _
  · simp only [unmoved, ↓reduceIte]
    refine ⟨?_, ?_, inv.uploaded, ?_, inv.replied⟩
    · dsimp only
      omega
    · dsimp only
      rw [unmoved, same]
      exact inv.present
    · exact fun cid seq stored => inv.cached cid seq (snapshot ▸ stored)

theorem inv_step (clean : host.core.FailsClean) (inv : Inv host cidOf system)
    {event : OpenEvent ε cidOf} (still : Still host system event) {next : OpenSystem δ σ}
    (taken : step host system event = some next) : Inv host cidOf next := by
  cases step_cases taken with
  | arrive granted => exact inv_arrive inv granted
  | copy index granted found =>
    apply inv_advance inv
    intro bytes cid copied
    obtain ⟨_, _, impossible⟩ := (Outcome.map_eq_ok_iff ..).mp copied
    cases impossible
  | upload index world granted bytes found =>
    apply inv_advance inv
    intro other cid stored
    obtain ⟨answer, put, shape⟩ := (Outcome.map_eq_ok_iff ..).mp stored
    injection shape with sameBytes sameCid
    rw [← sameBytes, ← sameCid]
    exact world.addressed bytes answer ((Outcome.mapError_eq_ok_iff ..).mp put)
  | publish index granted bytes cid found =>
    have copied := still granted bytes cid found
    have addressed := inv.uploaded granted bytes cid (List.mem_of_getElem? found)
    exact inv_publish inv (names_present inv copied addressed)
  | mutate op world stretch records => exact inv_mutate clean inv records

/-- With collision-free content ids, a publish is right exactly when the drive still
serializes to the bytes that were copied. -/
theorem publish_names_iff (inv : Inv host cidOf system) (injective : Function.Injective cidOf)
    {index : Nat} {granted : List String} {bytes : Bytes} {cid : String}
    (found : system.flights[index]? = some { granted, stage := .uploaded bytes cid }) :
    Names host cidOf system.states cid system.tenant.feed.cursor ↔
      Still host system (.publish index : OpenEvent ε cidOf) := by
  have addressed := inv.uploaded granted bytes cid (List.mem_of_getElem? found)
  constructor
  · rintro ⟨state, other, stored, encoded, named⟩ granted' bytes' cid' found'
    cases found.symm.trans found'
    obtain rfl := Option.some.inj (stored.symm.trans inv.present)
    obtain rfl := injective (addressed.symm.trans named)
    simp only [openState, encoded, Outcome.mapError_ok]
  · exact fun still => names_present inv (still granted bytes cid found) addressed

/-- A change is recorded only while no Open stands between its copy and its publish. -/
def Undisturbed (host : Host δ σ ε) (system : OpenSystem δ σ) : OpenEvent ε cidOf → Prop
  | .mutate op world => ∀ stretch, recordingStretch host.core world.toWorld op = some stretch →
      (stretch system.tenant).2.feed.cursor ≠ system.tenant.feed.cursor →
        ∀ flight ∈ system.flights, flight.stage.bytes = none
  | _ => True

/-- The drive still serializes to what any Open has copied of it. -/
def Fresh (host : Host δ σ ε) (system : OpenSystem δ σ) : Prop :=
  ∀ flight ∈ system.flights, ∀ bytes, flight.stage.bytes = some bytes →
    openState host system.tenant = .ok bytes

theorem fresh_advance (fresh : Fresh host system) {index : Nat} {granted : List String}
    {stage : Except DriveErr OpenStage}
    (holds : ∀ next, stage = .ok next → ∀ bytes, next.bytes = some bytes →
      openState host system.tenant = .ok bytes) :
    Fresh host (system.advance index granted stage) := by
  unfold advance
  cases stage with
  | error e => exact fun flight member => fresh flight (List.mem_of_mem_eraseIdx member)
  | ok next =>
    intro flight member bytes copied
    rcases List.mem_or_eq_of_mem_set member with earlier | now
    · exact fresh flight earlier bytes copied
    · subst now
      exact holds next rfl bytes copied

/-- Undisturbed, an Open publishes while the drive still serializes to the bytes it copied. -/
theorem fresh_step (clean : host.core.FailsClean) (fresh : Fresh host system)
    {event : OpenEvent ε cidOf} (undisturbed : Undisturbed host system event)
    {next : OpenSystem δ σ} (taken : step host system event = some next) :
    Still host system event ∧ Fresh host next := by
  cases step_cases taken with
  | arrive granted =>
    refine ⟨trivial, ?_⟩
    unfold arrive
    split
    · exact fresh
    · intro flight member bytes copied
      rcases List.mem_append.mp member with earlier | now
      · exact fresh flight earlier bytes copied
      · cases List.mem_singleton.mp now
        cases copied
  | copy index granted found =>
    refine ⟨trivial, fresh_advance fresh ?_⟩
    intro stage reached bytes copied
    obtain ⟨serialized, read, rfl⟩ := (Outcome.map_eq_ok_iff ..).mp reached
    cases copied
    exact read
  | upload index world granted bytes found =>
    refine ⟨trivial, fresh_advance fresh ?_⟩
    intro stage reached other copied
    obtain ⟨cid, _, rfl⟩ := (Outcome.map_eq_ok_iff ..).mp reached
    exact fresh _ (List.mem_of_getElem? found) other copied
  | publish index granted bytes cid found =>
    refine ⟨?_, fun flight member => fresh flight (List.mem_of_mem_eraseIdx member)⟩
    intro granted' bytes' cid' found'
    exact fresh _ (List.mem_of_getElem? found') bytes' rfl
  | mutate op world stretch records =>
    refine ⟨trivial, fun flight member bytes copied => ?_⟩
    by_cases unmoved : (stretch system.tenant).2.feed.cursor = system.tenant.feed.cursor
    · obtain moved | ⟨_, same⟩ := (recording_moves clean records system.tenant).2
      · omega
      · have held := fresh flight member bytes copied
        rw [openState] at held ⊢
        exact same ▸ held
    · rw [undisturbed stretch records unmoved flight member] at copied
      cases copied

/-- So where no change is recorded across an Open, every publish is in time. -/
theorem undisturbed_run (clean : host.core.FailsClean) {drive : δ} {quota : Quota}
    {events : List (OpenEvent ε cidOf)}
    (run : Runs.Run (step host) (Undisturbed host) (boot host.core drive quota) events system) :
    Runs.Run (step host) (Still host) (boot host.core drive quota) events system :=
  (@Runs.Run.meets _ _ _ _ (Fresh host) _ _ _ _ run nofun fun _ _ _ fresh undisturbed taken =>
    fresh_step clean fresh undisturbed taken).1

def InOneGo (host : Host δ σ ε) (cidOf : Bytes → String) : Prop :=
  ∀ (registry : Registry δ) (driveId : String) (tenant : Tenant δ),
    registry.get driveId = some tenant → ∀ (world : AddressedWorld ε cidOf)
      (chain : List SignedCapability) (states : List σ),
    let outcome := opOpen host world.toWorld registry driveId chain
    ∃ events after, Runs.exec (step host)
        { tenant, states, flights := [], replies := [] } (events : List (OpenEvent ε cidOf)) =
          some after ∧
      outcome.2.get driveId = some after.tenant ∧ after.states = states ∧
      ∀ reply, outcome.1 = .ok reply ↔ after.replies = [reply]

theorem exec_opOpen : InOneGo host cidOf := by
  intro registry driveId tenant found world chain states outcome
  have ends : OpenEnds host world.toWorld registry driveId (grantedAbilities chain) tenant
      outcome :=
    opOpen_ends host world.toWorld found chain
  clear_value outcome
  cases ends with
  | cached reply answered =>
    refine ⟨[.arrive (grantedAbilities chain)],
      { tenant, states, flights := [], replies := [reply] }, ?_, found, rfl, ?_⟩
    · simp [Runs.exec, step, arrive, answered]
    · simp
  | unread e missed failed =>
    refine ⟨[.arrive (grantedAbilities chain), .copy 0],
      { tenant, states, flights := [], replies := [] }, ?_, found, rfl, ?_⟩
    · simp [Runs.exec, step, arrive, advance, missed, failed, Except.map]
    · simp
  | unpublished bytes e missed copied failed =>
    refine ⟨[.arrive (grantedAbilities chain), .copy 0, .upload 0 world],
      { tenant, states, flights := [], replies := [] }, ?_, found, rfl, ?_⟩
    · simp [Runs.exec, step, arrive, advance, missed, copied, failed, Except.map, Except.mapError]
    · simp
  | published bytes cid missed copied put =>
    refine ⟨[.arrive (grantedAbilities chain), .copy 0, .upload 0 world, .publish 0],
      { tenant := (openPublish cid tenant).2, states, flights := [],
        replies := [.opened cid tenant.feed.cursor (grantedAbilities chain) tenant.quota] },
      ?_, Registry.get_put_self found _, rfl, ?_⟩
    · simp [Runs.exec, step, arrive, advance, publish, missed, copied, put, Except.map,
        Except.mapError, openPublish]
    · simp

/-- The Opens of a drive against the changes recorded on it. -/
structure OpensAtCursor (host : Host δ σ ε) (cidOf : Bytes → String) (drive : δ) (quota : Quota) :
    Prop where
  named : ∀ (events : List (OpenEvent ε cidOf)) (system : OpenSystem δ σ),
    Runs.Run (step host) (Still host) (boot host.core drive quota) events system →
      ∀ cid seq granted terms, .opened cid seq granted terms ∈ system.replies →
        Names host cidOf system.states cid seq ∧
          ∀ limit, system.tenant.feed.cursor - seq ≤ limit →
            system.tenant.feed.poll seq limit =
              (system.tenant.feed.changes.drop seq, system.tenant.feed.cursor)
  undisturbed : ∀ (events : List (OpenEvent ε cidOf)) (system : OpenSystem δ σ),
    Runs.Run (step host) (Undisturbed host) (boot host.core drive quota) events system →
      Runs.Run (step host) (Still host) (boot host.core drive quota) events system
  publishes : ∀ (events : List (OpenEvent ε cidOf)) (system : OpenSystem δ σ),
    Runs.Run (step host) (Still host) (boot host.core drive quota) events system →
      Function.Injective cidOf → ∀ index granted bytes cid,
        system.flights[index]? = some { granted, stage := .uploaded bytes cid } →
          (Names host cidOf system.states cid system.tenant.feed.cursor ↔
            Still host system (.publish index : OpenEvent ε cidOf))
  inOneGo : InOneGo host cidOf

/-- Where Opens publish what the drive still is, as they do when no change is recorded across
them, every reply of one names the drive as it was after exactly the changes up to the cursor
that comes with it, and a poll from there brings all the others. -/
theorem opened_at_cursor (clean : host.core.FailsClean) (drive : δ) (quota : Quota) :
    OpensAtCursor host cidOf drive quota := by
  have keeps : ∀ (events : List (OpenEvent ε cidOf)) (system : OpenSystem δ σ),
      Runs.Run (step host) (Still host) (boot host.core drive quota) events system →
        Inv host cidOf system := fun _ _ run =>
    run.invariant (inv_boot drive quota) fun _ _ _ inv still taken => inv_step clean inv still taken
  refine ⟨?_, fun _ _ run => undisturbed_run clean run, ?_, exec_opOpen⟩
  · intro events system run cid seq granted terms answered
    have inv := keeps events system run
    have names := inv.replied cid seq granted terms answered
    refine ⟨names, fun limit enough => ?_⟩
    have within := names.within
    have counted := inv.counted
    exact system.tenant.feed.poll_rest (by omega) enough
  · intro events system run injective index granted bytes cid found
    exact publish_names_iff (keeps events system run) injective found

end OpenSystem

end

namespace OpenSystem

open Reference

abbrev FileSystem := OpenSystem FileDrive FileDrive

def teamSystem : FileSystem := boot core teamDrive quota

def reached (events : List (OpenEvent (Option String) cidOf)) : FileSystem :=
  (Runs.exec (step teamHost) teamSystem events).getD teamSystem

/-- A directory is made, then an Open goes through its stretches up to the upload. -/
def openAfterMkdir : List (OpenEvent (Option String) cidOf) :=
  [.mutate (.mkdir "/d") (world (some "n2")), .arrive [], .copy 0, .upload 0 (world none)]

/-- The directory is made between an Open's copy and its upload. -/
def openAcrossMkdir : List (OpenEvent (Option String) cidOf) :=
  [.arrive [], .copy 0, .mutate (.mkdir "/d") (world (some "n2")), .upload 0 (world none),
    .publish 0]

theorem openAfterMkdir_named :
    let system := reached (openAfterMkdir ++ [.publish 0])
    ∃ cid, .opened cid 1 [] quota ∈ system.replies ∧
      Names teamHost cidOf system.states cid 1 ∧
      ∀ limit, system.tenant.feed.cursor - 1 ≤ limit →
        system.tenant.feed.poll 1 limit =
          (system.tenant.feed.changes.drop 1, system.tenant.feed.cursor) := by
  intro system
  have mutated : Runs.Run (step teamHost) (Undisturbed teamHost) teamSystem
      [.mutate (.mkdir "/d") (world (some "n2"))] (reached (openAfterMkdir.take 1)) :=
    .single (fun _ _ _ flight member => nomatch member) rfl
  have opened : Runs.Run (step teamHost) (Undisturbed teamHost) (reached (openAfterMkdir.take 1))
      (openAfterMkdir.drop 1 ++ [.publish 0]) system := by
    refine Runs.exec_run rfl fun state event member => ?_
    simp only [openAfterMkdir, List.drop_succ_cons, List.drop_zero, List.cons_append,
      List.nil_append, List.mem_cons, List.not_mem_nil, or_false] at member
    rcases member with rfl | rfl | rfl | rfl <;> trivial
  have answered : .opened "/a\x00blob:o1\x01/d\x00\x01" 1 [] quota ∈ system.replies := by decide
  have opens : OpensAtCursor teamHost cidOf teamDrive quota :=
    opened_at_cursor core_failsClean teamDrive quota
  have run := opens.undisturbed _ _ (mutated.append opened)
  exact ⟨_, answered, opens.named _ _ run _ _ _ _ answered⟩

/-- A client that opens while a directory is made gets the drive without it under a
cursor beyond it, and polls nothing. -/
theorem openAcrossMkdir_stale :
    let system := reached openAcrossMkdir
    teamHost.core.FailsClean ∧
      Runs.Free (step teamHost) teamSystem openAcrossMkdir system ∧
      ∃ cid, .opened cid 1 [] quota ∈ system.replies ∧
        ¬ Names teamHost cidOf system.states cid 1 ∧
        ∀ limit, (system.tenant.feed.poll 1 limit).1 = [] := by
  intro system
  refine ⟨core_failsClean, Runs.exec_run rfl fun _ _ _ => trivial,
    "/a\x00blob:o1\x01", by decide, ?_, fun limit => ?_⟩
  · rintro ⟨state, bytes, stored, encoded, named⟩
    have present : system.states[1]? = some (teamDrive ++ [directory "/d" "n2"]) := by decide
    obtain rfl := Option.some.inj (stored.symm.trans present)
    cases encoded
    revert named
    decide
  · rw [Feed.poll_empty_iff]
    decide

end OpenSystem

end DriveServe
