import DriveServe.Outcome
import DriveServe.Runs
import DriveServe.Tenant

set_option autoImplicit false

/-! The background task that looks for the rest of the replica set, over the drives that
the host took up at boot. -/

namespace DriveServe

variable {δ σ ρ γ : Type}

/-- What `#[derive(Default)]` makes of a quota. -/
def Quota.default : Quota :=
  { pricePerGibMonth := "", pricePerGibEgress := "", freeTierBytes := 0, channelRequired := false }

/-- Make a drive durable through its journal, which is replayed on top of it and then opened
to be written on. -/
def Registry.attachJournal (registry : Registry δ) (driveId : String) (replayed : Except String ρ)
    (restoreJournal : δ → ρ → Except String δ) (opened : Except String γ) (attach : δ → γ → δ) :
    Except String (Registry δ) := do
  let records ← replayed
  let tenant ← Outcome.okOr (registry.get driveId) ("no such drive '" ++ driveId ++ "'")
  let drive ← restoreJournal tenant.drive records
  let journal ← opened
  return registry.withDrive driveId (attach drive journal)

/-- What the disk, the key dir and the replicated logs answer at boot, drive by drive. -/
structure BootAnswers (δ σ ρ γ : Type) where
  load : String → Except String (Option σ)
  identityHandle : String → Except String Unit
  openLog : String → Except String δ
  restoreState : δ → σ → Except String δ
  replay : String → Except String ρ
  restoreJournal : δ → ρ → Except String δ
  openJournal : String → Except String γ
  attach : δ → γ → δ

/-- Take up one of the drives the operator named, out of its state file if it has one. -/
def serveDrive (answers : BootAnswers δ σ ρ γ) (registry : Registry δ) (driveId : String) :
    Except String (Registry δ) := do
  let state ← answers.load driveId
  let registry ← match state with
    | some state =>
      registry.restore driveId (answers.identityHandle driveId) (answers.openLog driveId)
        answers.restoreState state Quota.default
    | none =>
      registry.create driveId (answers.identityHandle driveId) (answers.openLog driveId)
        Quota.default
  -- `main` puts the journal's path before an error of this; the error here is its cause
  registry.attachJournal driveId (answers.replay driveId) answers.restoreJournal
    (answers.openJournal driveId) answers.attach

def serveDrives (answers : BootAnswers δ σ ρ γ) (drives : List String) :
    Except String (Registry δ) :=
  drives.foldlM (serveDrive answers) Registry.new

theorem register_driveIds {registry after : Registry δ} {driveId : String}
    {opened : Except String δ} {quota : Quota}
    (accepted : registry.register driveId opened quota = .ok after) :
    after.driveIds = driveId :: registry.driveIds := by
  obtain ⟨_, drive, _, drives⟩ := (Registry.register_ok_iff ..).mp accepted
  rw [Registry.driveIds, drives]
  rfl

theorem attachJournal_driveIds {registry after : Registry δ} {driveId : String}
    {replayed : Except String ρ} {restoreJournal : δ → ρ → Except String δ}
    {opened : Except String γ} {attach : δ → γ → δ}
    (attached : registry.attachJournal driveId replayed restoreJournal opened attach = .ok after) :
    after.driveIds = registry.driveIds := by
  unfold Registry.attachJournal at attached
  simp only [Outcome.bind_eq_ok_iff] at attached
  obtain ⟨_, _, _, _, drive, _, journal, _, same⟩ := attached
  cases same
  exact registry.driveIds_withDrive driveId (attach drive journal)

theorem serveDrive_driveIds {answers : BootAnswers δ σ ρ γ} {registry after : Registry δ}
    {driveId : String} (served : serveDrive answers registry driveId = .ok after) :
    after.driveIds = driveId :: registry.driveIds := by
  unfold serveDrive at served
  rw [Outcome.bind_eq_ok_iff] at served
  obtain ⟨state, _, served⟩ := served
  cases state with
  | none | some =>
    obtain ⟨taken, accepted, attached⟩ := (Outcome.bind_eq_ok_iff ..).mp served
    rw [attachJournal_driveIds attached]
    exact register_driveIds accepted

theorem serveRest_driveIds {answers : BootAnswers δ σ ρ γ} {rest : List String}
    {before registry : Registry δ}
    (served : rest.foldlM (serveDrive answers) before = .ok registry) :
    registry.driveIds = rest.reverse ++ before.driveIds := by
  induction rest generalizing before with
  | nil =>
    cases served
    rfl
  | cons driveId rest ih =>
    rw [List.foldlM_cons, Outcome.bind_eq_ok_iff] at served
    obtain ⟨middle, first, later⟩ := served
    rw [ih later, serveDrive_driveIds first, List.reverse_cons, List.append_assoc]
    rfl

theorem serveDrives_driveIds {answers : BootAnswers δ σ ρ γ} {drives : List String}
    {registry : Registry δ} (booted : serveDrives answers drives = .ok registry) :
    registry.driveIds = drives.reverse := by
  have all := serveRest_driveIds booted
  rwa [show (Registry.new : Registry δ).driveIds = [] from rfl, List.append_nil] at all

/-- A host that boots was named no drive twice. -/
theorem serveDrives_nodup {answers : BootAnswers δ σ ρ γ} {drives : List String}
    {registry : Registry δ} (booted : serveDrives answers drives = .ok registry) :
    drives.Nodup := by
  have distinct := registry.distinct
  rw [← Registry.driveIds, serveDrives_driveIds booted, List.nodup_reverse] at distinct
  exact distinct

structure WriterCall where
  drive : String
  peer : String
  answer : Except String Unit

/-- What one tick meets: what `find_service` answers, the drives that the registry holds
when a peer's turn comes, and what `add_writer` answers on each. -/
structure DiscoveryTick where
  found : Except String (List String)
  registered : (peer driveId : String) → Bool
  addWriter : (peer driveId : String) → Except String Unit

def followPeer (drives : List String) (tick : DiscoveryTick) (peer : String) : List WriterCall :=
  (drives.filter (tick.registered peer)).map fun drive =>
    { drive, peer, answer := tick.addWriter peer drive }

/-- One peer of a result: the node itself and what is known already is passed over. A
peer is known from here on, whatever its calls answer. -/
def visitPeer (me : String) (drives : List String) (tick : DiscoveryTick)
    (visited : List String × List WriterCall) (peer : String) : List String × List WriterCall :=
  if peer = me ∨ peer ∈ visited.1 then visited
  else (peer :: visited.1, visited.2 ++ followPeer drives tick peer)

def DiscoveryTick.peers (tick : DiscoveryTick) : List String :=
  match tick.found with
  | .error _ => []
  | .ok found => found

/-- One tick of `spawn_peer_discovery`: the peers that are known after it, and its calls. -/
def discoverPeers (me : String) (drives : List String) (tick : DiscoveryTick)
    (known : List String) : List String × List WriterCall :=
  match tick.found with
  | .error _ => (known, [])
  | .ok found => found.foldl (visitPeer me drives tick) (known, [])

/-- What the node takes for itself: its id, or nothing when its status cannot be read. -/
def discoveryMe (status : Except String String) : String :=
  match status with
  | .ok nodeId => nodeId
  | .error _ => ""

/-- A tick on record, with the peers of the results before it, the calls before it and
its own calls. -/
structure TickRecord where
  tick : DiscoveryTick
  heard : List String
  asked : List WriterCall
  calls : List WriterCall

/-- The task between two ticks, with its history. -/
structure PeerDiscovery where
  known : List String
  heard : List String
  asked : List WriterCall
  ticks : List TickRecord

namespace PeerDiscovery

def start : PeerDiscovery := { known := [], heard := [], asked := [], ticks := [] }

def step (me : String) (drives : List String) (task : PeerDiscovery) (tick : DiscoveryTick) :
    Option PeerDiscovery :=
  let (known, calls) := discoverPeers me drives tick task.known
  some
    { known, heard := task.heard ++ tick.peers, asked := task.asked ++ calls,
      ticks := task.ticks ++ [{ tick, heard := task.heard, asked := task.asked, calls }] }

end PeerDiscovery

/-- The drive has had a successful `add_writer` for the peer. -/
def Follows (calls : List WriterCall) (drive peer : String) : Prop :=
  ∃ call ∈ calls, call.drive = drive ∧ call.peer = peer ∧ call.answer = .ok ()

/-- The tick calls `add_writer` for every other node it finds, on every listed drive that
is registered and does not follow it yet. -/
def TickRecord.Tries (record : TickRecord) (thisNode : String) (drives : List String) : Prop :=
  ∀ peer ∈ record.tick.peers, peer ≠ thisNode → ∀ drive ∈ drives,
    record.tick.registered peer drive = true → ¬ Follows record.asked drive peer →
      ∃ call ∈ record.calls, call.drive = drive ∧ call.peer = peer

/-- No other node that the tick finds was found before and is missing at a registered
drive since, and none is taken for the node itself. -/
def TickRecord.Spared (record : TickRecord) (status : Except String String) (thisNode : String)
    (drives : List String) : Prop :=
  ∀ peer ∈ record.tick.peers, peer ≠ thisNode → ∀ drive ∈ drives,
    record.tick.registered peer drive = true → ¬ Follows record.asked drive peer →
      peer ∉ record.heard ∧ (peer = "" → ∃ nodeId, status = .ok nodeId)

def Apart (one other : WriterCall) : Prop := one.drive = other.drive → one.peer ≠ other.peer

section

variable {me : String} {drives : List String} {tick : DiscoveryTick}

theorem mem_followPeer {peer : String} {call : WriterCall} :
    call ∈ followPeer drives tick peer ↔ ∃ drive ∈ drives, tick.registered peer drive = true ∧
      call = { drive, peer, answer := tick.addWriter peer drive } := by
  simp only [followPeer, List.mem_map, List.mem_filter, and_assoc, eq_comm (a := call)]

theorem followPeer_peer {peer : String} {call : WriterCall}
    (member : call ∈ followPeer drives tick peer) : call.peer = peer := by
  obtain ⟨_, _, _, rfl⟩ := mem_followPeer.mp member
  rfl

theorem followPeer_apart (distinct : drives.Nodup) (peer : String) :
    (followPeer drives tick peer).Pairwise Apart := by
  rw [followPeer, List.pairwise_map]
  apply List.Pairwise.imp _ (distinct.filter _)
  intro one other differ same
  exact absurd same differ

theorem mem_visitPeer (visited : List String × List WriterCall) (peer other : String) :
    other ∈ (visitPeer me drives tick visited peer).1 ↔
      other ∈ visited.1 ∨ other = peer ∧ other ≠ me := by
  unfold visitPeer
  by_cases skipped : peer = me ∨ peer ∈ visited.1
  · rw [if_pos skipped]
    grind
  · rw [if_neg skipped]
    grind

theorem mem_visits_known (found : List String) (visited : List String × List WriterCall)
    (peer : String) :
    peer ∈ (found.foldl (visitPeer me drives tick) visited).1 ↔
      peer ∈ visited.1 ∨ peer ∈ found ∧ peer ≠ me := by
  induction found generalizing visited with
  | nil => simp
  | cons first rest ih =>
    rw [List.foldl_cons, ih, mem_visitPeer, List.mem_cons]
    grind

theorem mem_visits_calls (found : List String) (visited : List String × List WriterCall)
    (call : WriterCall) :
    call ∈ (found.foldl (visitPeer me drives tick) visited).2 ↔
      call ∈ visited.2 ∨ (call.peer ∈ found ∧ call.peer ≠ me ∧ call.peer ∉ visited.1) ∧
        call ∈ followPeer drives tick call.peer := by
  induction found generalizing visited with
  | nil => simp
  | cons first rest ih =>
    have own : call ∈ followPeer drives tick first → call.peer = first := followPeer_peer
    rw [List.foldl_cons, ih, mem_visitPeer, List.mem_cons]
    by_cases skipped : first = me ∨ first ∈ visited.1
    · rw [visitPeer, if_pos skipped]
      grind
    · rw [visitPeer, if_neg skipped]
      dsimp only
      rw [List.mem_append]
      grind

/-- No peer has two turns, so no drive is asked for one twice. -/
theorem visits_apart (distinct : drives.Nodup) (found : List String)
    {visited : List String × List WriterCall} (apart : visited.2.Pairwise Apart)
    (turns : ∀ call ∈ visited.2, call.peer ∈ visited.1) :
    (found.foldl (visitPeer me drives tick) visited).2.Pairwise Apart := by
  induction found generalizing visited with
  | nil => exact apart
  | cons peer rest ih =>
    rw [List.foldl_cons, visitPeer]
    by_cases skipped : peer = me ∨ peer ∈ visited.1
    · rw [if_pos skipped]
      exact ih apart turns
    · rw [if_neg skipped]
      apply ih
      · rw [List.pairwise_append]
        refine ⟨apart, followPeer_apart distinct peer, ?_⟩
        intro earlier before later now _ same
        rw [followPeer_peer now] at same
        exact skipped (Or.inr (same ▸ turns earlier before))
      · intro call member
        rcases List.mem_append.mp member with before | now
        · exact List.mem_cons_of_mem _ (turns call before)
        · rw [followPeer_peer now]
          exact List.mem_cons_self

theorem mem_discoverPeers_known {known : List String} {peer : String} :
    peer ∈ (discoverPeers me drives tick known).1 ↔
      peer ∈ known ∨ peer ∈ tick.peers ∧ peer ≠ me := by
  unfold discoverPeers DiscoveryTick.peers
  cases tick.found with
  | error e => simp
  | ok found => exact mem_visits_known found (known, []) peer

theorem mem_discoverPeers_calls {known : List String} {call : WriterCall} :
    call ∈ (discoverPeers me drives tick known).2 ↔
      (call.peer ∈ tick.peers ∧ call.peer ≠ me ∧ call.peer ∉ known) ∧
        call ∈ followPeer drives tick call.peer := by
  unfold discoverPeers DiscoveryTick.peers
  cases tick.found with
  | error e => simp
  | ok found => simpa using mem_visits_calls found (known, []) call

theorem discoverPeers_apart (distinct : drives.Nodup) (known : List String) :
    (discoverPeers me drives tick known).2.Pairwise Apart := by
  unfold discoverPeers
  cases tick.found with
  | error e => exact .nil
  | ok found => exact visits_apart distinct found .nil fun _ member => nomatch member

/-- A drive is asked for a peer exactly where the peer is new and not the node itself. -/
theorem discoverPeers_asks_iff {known : List String} {drive peer : String} :
    (∃ call ∈ (discoverPeers me drives tick known).2, call.drive = drive ∧ call.peer = peer) ↔
      (peer ∈ tick.peers ∧ peer ≠ me ∧ peer ∉ known) ∧ drive ∈ drives ∧
        tick.registered peer drive = true := by
  constructor
  · rintro ⟨call, member, rfl, rfl⟩
    obtain ⟨new, follows⟩ := mem_discoverPeers_calls.mp member
    obtain ⟨drive, listed, registered, shape⟩ := mem_followPeer.mp follows
    rw [shape]
    exact ⟨shape ▸ new, listed, registered⟩
  · rintro ⟨new, listed, registered⟩
    refine ⟨{ drive, peer, answer := tick.addWriter peer drive }, ?_, rfl, rfl⟩
    exact mem_discoverPeers_calls.mpr ⟨new, mem_followPeer.mpr ⟨drive, listed, registered, rfl⟩⟩

end

/-- What is known is what was found, but for the node itself; what was called was known,
and no two calls are for one peer on one drive. -/
structure PeerDiscovery.Inv (me : String) (task : PeerDiscovery) : Prop where
  known : ∀ peer, peer ∈ task.known ↔ peer ∈ task.heard ∧ peer ≠ me
  turns : ∀ call ∈ task.asked, call.peer ∈ task.known
  apart : task.asked.Pairwise Apart

namespace PeerDiscovery

variable {me : String} {drives : List String} {task next : PeerDiscovery} {tick : DiscoveryTick}

theorem start_inv : start.Inv me := by
  refine ⟨?_, ?_, List.Pairwise.nil⟩
  · intro peer
    simp [start]
  · intro call member
    exact absurd member List.not_mem_nil

theorem step_eq_some (taken : task.step me drives tick = some next) :
    next = { known := (discoverPeers me drives tick task.known).1
             heard := task.heard ++ tick.peers
             asked := task.asked ++ (discoverPeers me drives tick task.known).2
             ticks := task.ticks ++ [{ tick, heard := task.heard, asked := task.asked,
                                       calls := (discoverPeers me drives tick task.known).2 }] } :=
  (Option.some.inj taken).symm

theorem step_inv (distinct : drives.Nodup) (inv : task.Inv me)
    (taken : task.step me drives tick = some next) : next.Inv me := by
  rw [step_eq_some taken]
  refine ⟨?_, ?_, ?_⟩
  · intro peer
    rw [mem_discoverPeers_known, inv.known, List.mem_append]
    exact or_and_right.symm
  · intro call member
    rw [mem_discoverPeers_known]
    rcases List.mem_append.mp member with before | now
    · exact Or.inl (inv.turns call before)
    · obtain ⟨⟨found, other, _⟩, _⟩ := mem_discoverPeers_calls.mp now
      exact Or.inr ⟨found, other⟩
  · rw [List.pairwise_append]
    refine ⟨inv.apart, discoverPeers_apart distinct task.known, ?_⟩
    intro earlier before later now _ same
    have new := (mem_discoverPeers_calls.mp now).1.2.2
    exact new (same ▸ inv.turns earlier before)

/-- A tick tries every other node exactly where it is spared the ones found before. -/
theorem tries_iff_spared {status : Except String String} {thisNode : String}
    (honest : ∀ nodeId, status = .ok nodeId → nodeId = thisNode)
    (inv : task.Inv (discoveryMe status)) :
    let record : TickRecord :=
      { tick, heard := task.heard, asked := task.asked,
        calls := (discoverPeers (discoveryMe status) drives tick task.known).2 }
    record.Tries thisNode drives ↔ record.Spared status thisNode drives := by
  intro record
  have mistaken : ∀ peer, peer ≠ thisNode →
      (peer ≠ discoveryMe status ↔ (peer = "" → ∃ nodeId, status = .ok nodeId)) := by
    intro peer other
    cases status with
    | ok nodeId =>
      obtain rfl := honest nodeId rfl
      exact iff_of_true other fun _ => ⟨nodeId, rfl⟩
    | error e => simp [discoveryMe]
  unfold TickRecord.Tries TickRecord.Spared
  refine forall₃_congr fun peer found other => forall₃_congr fun drive listed registered => ?_
  apply forall_congr'
  intro _
  rw [discoverPeers_asks_iff, inv.known, ← mistaken peer other]
  constructor
  · rintro ⟨⟨_, notMe, unknown⟩, _⟩
    exact ⟨fun heard => unknown ⟨heard, notMe⟩, notMe⟩
  · rintro ⟨unheard, notMe⟩
    exact ⟨⟨found, notMe, fun known => unheard known.1⟩, listed, registered⟩

end PeerDiscovery

/-- In every run of the task, no drive is asked again for a peer that it follows, and a
tick tries all that it should exactly where no peer of its result was found before and
missed by a registered drive. -/
theorem discovery_tries_iff {status : Except String String} {thisNode : String}
    (honest : ∀ nodeId, status = .ok nodeId → nodeId = thisNode)
    {answers : BootAnswers δ σ ρ γ} {drives : List String} {registry : Registry δ}
    (booted : serveDrives answers drives = .ok registry) {ticks : List DiscoveryTick}
    {last : PeerDiscovery}
    (run : Runs.Free (PeerDiscovery.step (discoveryMe status) drives) .start ticks last) :
    last.asked.Pairwise (fun earlier later => earlier.answer = .ok () →
        ¬ (later.drive = earlier.drive ∧ later.peer = earlier.peer)) ∧
      ∀ record ∈ last.ticks, record.Tries thisNode drives ↔
        record.Spared status thisNode drives := by
  have kept : last.Inv (discoveryMe status) ∧ ∀ record ∈ last.ticks,
      record.Tries thisNode drives ↔ record.Spared status thisNode drives := by
    apply run.invariant
    · exact ⟨PeerDiscovery.start_inv, fun _ member => nomatch member⟩
    · intro task tick next ⟨inv, before⟩ _ taken
      refine ⟨PeerDiscovery.step_inv (serveDrives_nodup booted) inv taken, ?_⟩
      rw [PeerDiscovery.step_eq_some taken]
      intro record member
      rcases List.mem_append.mp member with earlier | now
      · exact before record earlier
      · rw [List.mem_singleton.mp now]
        exact PeerDiscovery.tries_iff_spared honest inv
  refine ⟨?_, kept.2⟩
  apply kept.1.apart.imp
  intro earlier later apart _ ⟨drive, peer⟩
  exact apart drive.symm peer.symm

def BootAnswers.fresh : BootAnswers Unit Unit Unit Unit :=
  { load := fun _ => .ok none
    identityHandle := fun _ => .ok ()
    openLog := fun _ => .ok ()
    restoreState := fun _ _ => .ok ()
    replay := fun _ => .ok ()
    restoreJournal := fun _ _ => .ok ()
    openJournal := fun _ => .ok ()
    attach := fun _ _ => () }

def DiscoveryTick.finds (peer : String) (answer : Except String Unit) : DiscoveryTick :=
  { found := .ok [peer], registered := fun _ _ => true, addWriter := fun _ _ => answer }

theorem freshPeers_tried :
    ∃ last, Runs.exec (PeerDiscovery.step (discoveryMe (.ok "n1")) ["team"]) .start
        [.finds "n2" (.ok ()), .finds "n3" (.error "timeout")] = some last ∧
      last.asked.length = 2 ∧
      last.asked.Pairwise (fun earlier later => earlier.answer = .ok () →
        ¬ (later.drive = earlier.drive ∧ later.peer = earlier.peer)) ∧
      ∀ record ∈ last.ticks, record.Tries "n1" ["team"] ↔
        record.Spared (.ok "n1") "n1" ["team"] := by
  have honest : ∀ nodeId, (Except.ok "n1" : Except String String) = .ok nodeId → nodeId = "n1" :=
    fun _ same => (Except.ok.inj same).symm
  obtain ⟨registry, booted⟩ : ∃ registry, serveDrives BootAnswers.fresh ["team"] = .ok registry :=
    ⟨_, rfl⟩
  obtain ⟨last, executed, both⟩ :
      ∃ last, Runs.exec (PeerDiscovery.step (discoveryMe (.ok "n1")) ["team"]) .start
          [.finds "n2" (.ok ()), .finds "n3" (.error "timeout")] = some last ∧
        last.asked.length = 2 := ⟨_, rfl, rfl⟩
  exact ⟨last, executed, both,
    discovery_tries_iff honest booted (Runs.exec_run executed fun _ _ _ => trivial)⟩

/-- A peer whose `add_writer` failed when it was found first is not tried again. -/
theorem failedAdd_forgotten :
    (∃ registry, serveDrives BootAnswers.fresh ["team"] = .ok registry) ∧
    ∃ last, Runs.Free (PeerDiscovery.step (discoveryMe (.ok "n1")) ["team"]) .start
        [.finds "n2" (.error "timeout"), .finds "n2" (.ok ())] last ∧
      ¬ ∀ record ∈ last.ticks, record.Tries "n1" ["team"] := by
  refine ⟨⟨_, rfl⟩, _, Runs.exec_run rfl fun _ _ _ => trivial, ?_⟩
  intro tries
  have unfollowed : ¬ Follows [⟨"team", "n2", .error "timeout"⟩] "team" "n2" := by
    rintro ⟨call, member, _, _, answer⟩
    rw [List.mem_singleton.mp member] at answer
    cases answer
  obtain ⟨call, member, _⟩ := tries _ (List.mem_of_getLast? rfl) "n2" List.mem_cons_self
    (by decide) "team" List.mem_cons_self rfl unfollowed
  exact absurd member List.not_mem_nil

end DriveServe
