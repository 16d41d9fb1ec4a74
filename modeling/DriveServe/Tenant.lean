import DriveServe.Drive
import DriveServe.Feed
import Mathlib.Data.List.Nodup

set_option autoImplicit false

/-! The drives one host serves, each with its feed, its terms and the snapshot last
published for it. A handler takes the registry's lock for one stretch at a time. -/

namespace DriveServe

variable {δ α : Type}

structure Tenant (δ : Type) where
  drive : δ
  feed : Feed
  quota : Quota
  /-- The cid of the last published snapshot, and the feed cursor kept with it. -/
  snapshot : Option (String × Nat)

namespace Tenant

/-- A tenant on a drive just opened or restored: the feed restarts at 0. -/
def new (drive : δ) (quota : Quota) : Tenant δ :=
  { drive, feed := Feed.new, quota, snapshot := none }

end Tenant

/-- The registry of all drives a host serves. The order of the list is the one in
which the underlying map happens to iterate. -/
structure Registry (δ : Type) where
  drives : List (String × Tenant δ)
  distinct : (drives.map Prod.fst).Nodup

namespace Registry

def driveIds (registry : Registry δ) : List String := registry.drives.map Prod.fst

def get (registry : Registry δ) (driveId : String) : Option (Tenant δ) :=
  registry.drives.lookup driveId

def new : Registry δ := { drives := [], distinct := List.nodup_nil }

/-- Take a drive up under an id that is not taken yet. What `opened` stands for is
tried after the id. -/
def register (registry : Registry δ) (driveId : String) (opened : Except String δ)
    (quota : Quota) : Except String (Registry δ) :=
  if taken : driveId ∈ registry.driveIds then
    .error ("drive '" ++ driveId ++ "' already exists")
  else
    opened.map fun drive =>
      { drives := (driveId, Tenant.new drive quota) :: registry.drives
        distinct := List.nodup_cons.mpr ⟨taken, registry.distinct⟩ }

/-- Create a new empty drive, with what `identity_handle` answers and what opening the
drive's replicated log does. -/
def create (registry : Registry δ) (driveId : String) (identityHandle : Except String Unit)
    (opened : Except String δ) (quota : Quota) : Except String (Registry δ) :=
  registry.register driveId (identityHandle.bind fun _ => opened) quota

/-- Register a drive rebuilt from persisted state. -/
def restore {σ : Type} (registry : Registry δ) (driveId : String)
    (identityHandle : Except String Unit) (opened : Except String δ)
    (restoreState : δ → σ → Except String δ) (state : σ) (quota : Quota) :
    Except String (Registry δ) :=
  registry.register driveId
    (identityHandle.bind fun _ => opened.bind fun drive => restoreState drive state) quota

theorem register_ok_iff (registry : Registry δ) (driveId : String) (opened : Except String δ)
    (quota : Quota) (after : Registry δ) :
    registry.register driveId opened quota = .ok after ↔
      driveId ∉ registry.driveIds ∧ ∃ drive, opened = .ok drive ∧
        after.drives = (driveId, Tenant.new drive quota) :: registry.drives := by
  unfold register
  split
  · rename_i taken
    simp [taken]
  · rename_i free
    cases opened with
    | error e => simp [Except.map]
    | ok drive =>
      simp only [Except.map, Except.ok.injEq, exists_eq_left', free, not_false_eq_true, true_and]
      constructor
      · intro same
        rw [← same]
      · intro same
        cases after
        simp only [Registry.mk.injEq]
        exact same.symm

private def replaced (driveId : String) (tenant : Tenant δ) (entry : String × Tenant δ) :
    String × Tenant δ :=
  if entry.1 = driveId then (entry.1, tenant) else entry

private theorem replaced_ids (driveId : String) (tenant : Tenant δ)
    (entries : List (String × Tenant δ)) :
    (entries.map (replaced driveId tenant)).map Prod.fst = entries.map Prod.fst := by
  rw [List.map_map]
  apply List.map_congr_left
  intro entry _
  simp only [Function.comp, replaced]
  split <;> rfl

/-- Store what a handler made of a tenant it had borrowed. -/
def put (registry : Registry δ) (driveId : String) (tenant : Tenant δ) : Registry δ where
  drives := registry.drives.map (replaced driveId tenant)
  distinct := by
    rw [replaced_ids]
    exact registry.distinct

@[simp]
theorem driveIds_put (registry : Registry δ) (driveId : String) (tenant : Tenant δ) :
    (registry.put driveId tenant).driveIds = registry.driveIds := replaced_ids ..

private theorem lookup_replaced (driveId other : String) (tenant : Tenant δ)
    (entries : List (String × Tenant δ)) :
    (entries.map (replaced driveId tenant)).lookup other =
      if other = driveId then (entries.lookup other).map fun _ => tenant
      else entries.lookup other := by
  induction entries with
  | nil => simp
  | cons entry rest ih =>
    obtain ⟨key, held⟩ := entry
    rw [List.map_cons, replaced]
    by_cases same : key = driveId
    · subst same
      by_cases here : other = key
      · simp [here]
      · have apart : (other == key) = false := by simpa using here
        simp only [↓reduceIte, List.lookup_cons, apart, ih, here]
    · simp only [same, ↓reduceIte, List.lookup_cons]
      by_cases here : other = key
      · subst here
        simp [same]
      · have apart : (other == key) = false := by simpa using here
        simp only [apart, ih]

theorem get_put_self {registry : Registry δ} {driveId : String} {old : Tenant δ}
    (found : registry.get driveId = some old) (tenant : Tenant δ) :
    (registry.put driveId tenant).get driveId = some tenant := by
  have looked := lookup_replaced driveId driveId tenant registry.drives
  rw [if_pos rfl] at looked
  have stored : registry.drives.lookup driveId = some old := found
  rw [stored] at looked
  exact looked

theorem get_put_of_ne (registry : Registry δ) {driveId other : String} (apart : other ≠ driveId)
    (tenant : Tenant δ) : (registry.put driveId tenant).get other = registry.get other := by
  have looked := lookup_replaced driveId other tenant registry.drives
  rwa [if_neg apart] at looked

/-- One stretch under the registry lock on a drive that must be there. -/
def locked (registry : Registry δ) (driveId : String)
    (stretch : Tenant δ → Except DriveErr α × Tenant δ) : Except DriveErr α × Registry δ :=
  match registry.get driveId with
  | none => (.error .notFound, registry)
  | some tenant => ((stretch tenant).1, registry.put driveId (stretch tenant).2)

/-- The same for a handler that only reads. -/
def borrowed (registry : Registry δ) (driveId : String) (read : Tenant δ → Except DriveErr α) :
    Except DriveErr α :=
  match registry.get driveId with
  | none => .error .notFound
  | some tenant => read tenant

theorem locked_of_found {registry : Registry δ} {driveId : String} {tenant : Tenant δ}
    (found : registry.get driveId = some tenant)
    (stretch : Tenant δ → Except DriveErr α × Tenant δ) :
    registry.locked driveId stretch =
      ((stretch tenant).1, registry.put driveId (stretch tenant).2) := by
  simp only [locked, found]

theorem borrowed_of_found {registry : Registry δ} {driveId : String} {tenant : Tenant δ}
    (found : registry.get driveId = some tenant) (read : Tenant δ → Except DriveErr α) :
    registry.borrowed driveId read = read tenant := by
  simp only [borrowed, found]

theorem locked_get_of_ne (registry : Registry δ) {driveId other : String}
    (apart : other ≠ driveId) (stretch : Tenant δ → Except DriveErr α × Tenant δ) :
    (registry.locked driveId stretch).2.get other = registry.get other := by
  unfold locked
  split
  · rfl
  · exact registry.get_put_of_ne apart _

/-- What a stretch answers depends on the tenant it was made on alone. -/
theorem locked_congr {registry registry' : Registry δ} {driveId : String}
    (same : registry.get driveId = registry'.get driveId)
    (stretch : Tenant δ → Except DriveErr α × Tenant δ) :
    (registry.locked driveId stretch).1 = (registry'.locked driveId stretch).1 := by
  unfold locked
  rw [same]
  split <;> rfl

theorem borrowed_congr {registry registry' : Registry δ} {driveId : String}
    (same : registry.get driveId = registry'.get driveId)
    (read : Tenant δ → Except DriveErr α) :
    registry.borrowed driveId read = registry'.borrowed driveId read := by
  simp only [borrowed, same]

def withDrive (registry : Registry δ) (driveId : String) (drive : δ) : Registry δ :=
  match registry.get driveId with
  | none => registry
  | some tenant => registry.put driveId { tenant with drive }

theorem get_withDrive {registry : Registry δ} {driveId : String} {tenant : Tenant δ}
    (found : registry.get driveId = some tenant) (drive : δ) :
    (registry.withDrive driveId drive).get driveId = some { tenant with drive } := by
  simp only [withDrive, found]
  exact get_put_self found _

theorem get_withDrive_of_ne (registry : Registry δ) {driveId other : String}
    (apart : other ≠ driveId) (drive : δ) :
    (registry.withDrive driveId drive).get other = registry.get other := by
  unfold withDrive
  split
  · rfl
  · exact registry.get_put_of_ne apart _

@[simp]
theorem driveIds_withDrive (registry : Registry δ) (driveId : String) (drive : δ) :
    (registry.withDrive driveId drive).driveIds = registry.driveIds := by
  unfold withDrive
  split
  · rfl
  · exact driveIds_put ..

end Registry

end DriveServe
