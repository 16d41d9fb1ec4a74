import DriveServe.PeerDiscovery

set_option autoImplicit false

/-! The loop over the drives at boot: each is its own state file with its own journal on top,
and the host takes up all of them or none. -/

namespace DriveServe

variable {δ σ ρ γ : Type} {answers : BootAnswers δ σ ρ γ}

/-- A drive's log, opened once there is a handle to the host's key, with its state file
restored on it where there is one. -/
def BootAnswers.opened (answers : BootAnswers δ σ ρ γ) (driveId : String) (state : Option σ) :
    Except String δ := do
  answers.identityHandle driveId
  match state with
  | some state => (answers.openLog driveId).bind fun drive => answers.restoreState drive state
  | none => answers.openLog driveId

/-- A drive with its journal replayed on top of it and attached. -/
def BootAnswers.journaled (answers : BootAnswers δ σ ρ γ) (driveId : String) (drive : δ) :
    Except String δ := do
  let records ← answers.replay driveId
  let drive ← answers.restoreJournal drive records
  let journal ← answers.openJournal driveId
  return answers.attach drive journal

/-- A drive by itself: as its state file has it, with its journal on top. -/
def BootAnswers.drive (answers : BootAnswers δ σ ρ γ) (driveId : String) : Except String δ := do
  let state ← answers.load driveId
  let opened ← answers.opened driveId state
  answers.journaled driveId opened

def alreadyExists (driveId : String) : String := "drive '" ++ driveId ++ "' already exists"

inductive ServeEnds (answers : BootAnswers δ σ ρ γ) (registry : Registry δ) (driveId : String) :
    Except String (Registry δ) → Prop
  | failed (e : String) (broken : answers.drive driveId = .error e) :
      ServeEnds answers registry driveId (.error e)
  | taken (there : driveId ∈ registry.driveIds) :
      ServeEnds answers registry driveId (.error (alreadyExists driveId))
  | served (drive : δ) (after : Registry δ) (fresh : driveId ∉ registry.driveIds)
      (booted : answers.drive driveId = .ok drive)
      (here : after.get driveId = some (Tenant.new drive Quota.default))
      (others : ∀ other, other ≠ driveId → after.get other = registry.get other) :
      ServeEnds answers registry driveId (.ok after)

theorem attachJournal_registered {registry taken : Registry δ} {driveId : String} {drive : δ}
    (answers : BootAnswers δ σ ρ γ)
    (drives : taken.drives = (driveId, Tenant.new drive Quota.default) :: registry.drives) :
    taken.attachJournal driveId (answers.replay driveId) answers.restoreJournal
        (answers.openJournal driveId) answers.attach =
      (answers.journaled driveId drive).map (taken.withDrive driveId) := by
  have found : taken.get driveId = some (Tenant.new drive Quota.default) := by
    rw [Registry.get, drives, List.lookup_cons, beq_self_eq_true]
  unfold Registry.attachJournal BootAnswers.journaled
  cases answers.replay driveId with
  | error e => rfl
  | ok records =>
    simp only [found, Outcome.okOr, bind, Except.bind, Tenant.new]
    cases answers.restoreJournal drive records with
    | error e => rfl
    | ok restored => cases answers.openJournal driveId <;> rfl

theorem serveDrive_eq (answers : BootAnswers δ σ ρ γ) (registry : Registry δ)
    (driveId : String) :
    serveDrive answers registry driveId = (answers.load driveId).bind fun state =>
      (registry.register driveId (answers.opened driveId state) Quota.default).bind fun taken =>
        taken.attachJournal driveId (answers.replay driveId) answers.restoreJournal
          (answers.openJournal driveId) answers.attach := by
  unfold serveDrive
  cases answers.load driveId with
  | error e => rfl
  | ok state => cases state <;> rfl

theorem serveDrive_ends (answers : BootAnswers δ σ ρ γ) (registry : Registry δ)
    (driveId : String) :
    ServeEnds answers registry driveId (serveDrive answers registry driveId) := by
  rw [serveDrive_eq]
  cases loaded : answers.load driveId with
  | error e => exact .failed e (by rw [BootAnswers.drive, loaded]; rfl)
  | ok state =>
    have whole : answers.drive driveId =
        (answers.opened driveId state).bind (answers.journaled driveId) := by
      rw [BootAnswers.drive, loaded]
      rfl
    simp only [Except.bind, Registry.register]
    by_cases there : driveId ∈ registry.driveIds
    · rw [dif_pos there]
      exact .taken there
    · rw [dif_neg there]
      cases opened : answers.opened driveId state with
      | error e => exact .failed e (by rw [whole, opened]; rfl)
      | ok drive =>
        rw [opened] at whole
        simp only [Except.map]
        rw [@attachJournal_registered _ _ _ _ registry _ driveId drive answers rfl]
        cases journaled : answers.journaled driveId drive with
        | error e => exact .failed e (whole.trans journaled)
        | ok booted =>
          refine .served booted _ there (whole.trans journaled) ?_ fun other apart => ?_
          · have found : ({ drives := (driveId, Tenant.new drive Quota.default) :: registry.drives,
                            distinct := List.nodup_cons.mpr ⟨there, registry.distinct⟩ } :
                Registry δ).get driveId = some (Tenant.new drive Quota.default) := by
              rw [Registry.get, List.lookup_cons, beq_self_eq_true]
            exact Registry.get_withDrive found booted
          · rw [Registry.get_withDrive_of_ne _ apart, Registry.get, List.lookup_cons,
              beq_false_of_ne apart]
            rfl

/-- The drives that are still to be taken up, on top of those that are there. -/
theorem serveRest_ok {rest : List String} {before registry : Registry δ}
    (served : rest.foldlM (serveDrive answers) before = .ok registry) :
    rest.Nodup ∧ ∀ driveId,
      (driveId ∈ rest → driveId ∉ before.driveIds ∧ ∃ drive, answers.drive driveId = .ok drive ∧
        registry.get driveId = some (Tenant.new drive Quota.default)) ∧
      (driveId ∉ rest → registry.get driveId = before.get driveId) := by
  induction rest generalizing before with
  | nil =>
    cases served
    exact ⟨List.nodup_nil, fun _ => ⟨fun member => (nomatch member), fun _ => rfl⟩⟩
  | cons first rest ih =>
    rw [List.foldlM_cons, Outcome.bind_eq_ok_iff] at served
    obtain ⟨middle, head, later⟩ := served
    have ids := serveDrive_driveIds head
    have ends := serveDrive_ends answers before first
    rw [head] at ends
    cases ends with
    | served drive _ fresh booted here others =>
      obtain ⟨distinct, tenants⟩ := ih later
      have apart : first ∉ rest := by
        intro again
        have absent := ((tenants first).1 again).1
        rw [ids] at absent
        exact absent List.mem_cons_self
      refine ⟨List.nodup_cons.mpr ⟨apart, distinct⟩, fun driveId => ⟨?_, ?_⟩⟩
      · intro member
        rcases List.mem_cons.mp member with rfl | member
        · exact ⟨fresh, drive, booted, ((tenants driveId).2 apart).trans here⟩
        · obtain ⟨absent, booted⟩ := (tenants driveId).1 member
          rw [ids] at absent
          exact ⟨fun there => absent (List.mem_cons_of_mem _ there), booted⟩
      · intro missing
        obtain ⟨other, missing⟩ := not_or.mp (List.mem_cons.not.mp missing)
        rw [(tenants driveId).2 missing, others driveId other]

/-- They all come up where each does by itself, and no name comes up twice. -/
theorem serveRest_exists {rest : List String} {before : Registry δ} (distinct : rest.Nodup)
    (fresh : ∀ driveId ∈ rest, driveId ∉ before.driveIds)
    (boots : ∀ driveId ∈ rest, ∃ drive, answers.drive driveId = .ok drive) :
    ∃ registry, rest.foldlM (serveDrive answers) before = .ok registry := by
  induction rest generalizing before with
  | nil => exact ⟨before, rfl⟩
  | cons first rest ih =>
    obtain ⟨apart, distinct⟩ := List.nodup_cons.mp distinct
    obtain ⟨drive, booted⟩ := boots first List.mem_cons_self
    have ends := serveDrive_ends answers before first
    cases head : serveDrive answers before first with
    | error e =>
      rw [head] at ends
      cases ends with
      | failed _ broken =>
        rw [booted] at broken
        cases broken
      | taken there => exact absurd there (fresh first List.mem_cons_self)
    | ok middle =>
      have ids := serveDrive_driveIds head
      obtain ⟨registry, later⟩ := @ih middle distinct
        (by
          intro driveId member there
          rw [ids] at there
          rcases List.mem_cons.mp there with rfl | there
          · exact apart member
          · exact fresh driveId (List.mem_cons_of_mem _ member) there)
        fun driveId member => boots driveId (List.mem_cons_of_mem _ member)
      exact ⟨registry, by rw [List.foldlM_cons, head]; exact later⟩

/-- Where they do not, it is for one of them, and those before it had come up. -/
theorem serveRest_error {rest : List String} {before : Registry δ} {e : String}
    (failed : rest.foldlM (serveDrive answers) before = .error e) :
    ∃ front driveId back registry, rest = front ++ driveId :: back ∧
      front.foldlM (serveDrive answers) before = .ok registry ∧
      (answers.drive driveId = .error e ∨
        driveId ∈ registry.driveIds ∧ e = alreadyExists driveId) := by
  induction rest generalizing before with
  | nil => cases failed
  | cons first rest ih =>
    have ends := serveDrive_ends answers before first
    rw [List.foldlM_cons] at failed
    cases head : serveDrive answers before first with
    | error e' =>
      rw [head] at failed ends
      cases failed
      refine ⟨[], first, rest, before, rfl, rfl, ?_⟩
      cases ends with
      | failed _ broken => exact Or.inl broken
      | taken there => exact Or.inr ⟨there, rfl⟩
    | ok middle =>
      rw [head] at failed
      obtain ⟨front, driveId, back, registry, rfl, came, why⟩ := ih failed
      exact ⟨first :: front, driveId, back, registry, rfl,
        by rw [List.foldlM_cons, head]; exact came, why⟩

/-- The boot loop gets through exactly when no drive is named twice and each comes up by
itself, in whatever order they are named; then these drives and no others are served, each as
its state file and its journal have it, with a feed from 0 and no snapshot kept. Where it does
not get through, the first drive that stands in its way says why. -/
theorem serveDrives_boots (answers : BootAnswers δ σ ρ γ) (drives : List String) :
    ((∃ registry, serveDrives answers drives = .ok registry) ↔
      drives.Nodup ∧ ∀ driveId ∈ drives, ∃ drive, answers.drive driveId = .ok drive) ∧
    (∀ registry, serveDrives answers drives = .ok registry → ∀ driveId,
      registry.get driveId = if driveId ∈ drives then
        (answers.drive driveId).toOption.map (Tenant.new · Quota.default) else none) ∧
    ∀ e, serveDrives answers drives = .error e →
      ∃ front driveId back, drives = front ++ driveId :: back ∧
        (∃ registry, serveDrives answers front = .ok registry) ∧
        (answers.drive driveId = .error e ∨ driveId ∈ front ∧ e = alreadyExists driveId) := by
  refine ⟨⟨?_, ?_⟩, ?_, ?_⟩
  · rintro ⟨registry, served⟩
    obtain ⟨distinct, tenants⟩ := serveRest_ok served
    refine ⟨distinct, fun driveId member => ?_⟩
    obtain ⟨_, drive, booted, _⟩ := (tenants driveId).1 member
    exact ⟨drive, booted⟩
  · rintro ⟨distinct, boots⟩
    exact serveRest_exists distinct (fun _ _ there => nomatch there) boots
  · intro registry served driveId
    obtain ⟨_, tenants⟩ := serveRest_ok served
    split
    · rename_i member
      obtain ⟨_, drive, booted, there⟩ := (tenants driveId).1 member
      rw [there, booted]
      rfl
    · rename_i missing
      rw [(tenants driveId).2 missing]
      rfl
  · intro e failed
    obtain ⟨front, driveId, back, registry, whole, came, why⟩ := serveRest_error failed
    refine ⟨front, driveId, back, whole, ⟨registry, came⟩, ?_⟩
    rcases why with broken | ⟨there, said⟩
    · exact Or.inl broken
    · rw [serveDrives_driveIds came, List.mem_reverse] at there
      exact Or.inr ⟨there, said⟩

end DriveServe
