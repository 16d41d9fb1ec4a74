import DriveServe.Handlers
import DriveServe.Paging
import DriveServe.ReferenceDrive
import DriveServe.Runs
import Mathlib.Data.String.Basic

set_option autoImplicit false

/-! Listing a directory page by page while it changes. The cursor is cut out of the
path of the last entry rendered; read back as a name it pages the names in order. -/

namespace DriveServe

variable {δ σ ε : Type}

/-- A directory's lines strictly ascending by name, each name a proper segment. -/
structure InOrder (entries : List DirEntry) : Prop where
  ascending : (entries.map (·.name)).Pairwise (· < ·)
  proper : ∀ e ∈ entries, e.name ≠ "" ∧ '/' ∉ e.name.toList

/-- What is relied on of `SyncedDrive::ls`. -/
def SyncedDrive.ListsInOrder (core : SyncedDrive δ σ ε) : Prop :=
  ∀ drive path entries, core.ls drive path = .ok entries → InOrder entries

def entryName (entry : Entry) : String := lastSegment entry.path

/-- The last segment of a rendered path is the name it was rendered from. -/
theorem entryName_entryOf (core : SyncedDrive δ σ ε) (drive : δ) (parent : String) {e : DirEntry}
    (slashFree : '/' ∉ e.name.toList) : entryName (entryOf core drive parent e) = e.name := by
  have cut (front : List Char) :
      String.ofList ((front ++ '/' :: e.name.toList).rtakeWhile (· != '/')) = e.name := by
    have kept : ∀ c ∈ e.name.toList.reverse, (c != '/') = true := by
      intro c member
      have differs : c ≠ '/' := fun same => slashFree (same ▸ List.mem_reverse.mp member)
      simpa using differs
    rw [List.rtakeWhile, List.reverse_append, List.reverse_cons, List.append_assoc,
      List.takeWhile_append_of_pos kept, List.singleton_append, List.takeWhile_cons]
    simp
  unfold entryName lastSegment entryOf
  dsimp only
  split
  · rw [String.toList_append]
    exact cut []
  · rw [String.toList_append, String.toList_append, List.append_assoc]
    exact cut _

theorem drop_findIdx_behind {entries : List DirEntry}
    (ascending : (entries.map (·.name)).Pairwise (· < ·)) (c : String) :
    (entries.drop (entries.findIdx fun e => decide (c < e.name))).map (·.name) =
      Paging.behind (some c) (entries.map (·.name)) := by
  induction entries with
  | nil => rfl
  | cons e rest ih =>
    rw [List.map_cons, List.pairwise_cons] at ascending
    rw [List.findIdx_cons, List.map_cons]
    by_cases later : c < e.name
    · have all : (rest.map (·.name)).filter (fun key => decide (c < key)) =
          rest.map (·.name) := by
        rw [List.filter_eq_self]
        intro key member
        exact decide_eq_true (later.trans (ascending.1 key member))
      simp only [later, decide_true, cond_true, List.drop_zero, List.map_cons, Paging.behind,
        List.filter_cons, ↓reduceIte, all]
    · have behind := ih ascending.2
      simp only [later, decide_false, cond_false, List.drop_succ_cons, Paging.behind,
        List.filter_cons, Bool.false_eq_true, ↓reduceIte] at behind ⊢
      exact behind

def pageStart (cursor : Option String) (entries : List DirEntry) : Nat :=
  match cursor with
  | some c => entries.findIdx fun e => decide (c < e.name)
  | none => 0

theorem drop_pageStart {entries : List DirEntry}
    (ascending : (entries.map (·.name)).Pairwise (· < ·)) (cursor : Option String) :
    (entries.drop (pageStart cursor entries)).map (·.name) =
      Paging.behind cursor (entries.map (·.name)) := by
  cases cursor with
  | none => rfl
  | some c => exact drop_findIdx_behind ascending c

theorem pageStart_le (cursor : Option String) (entries : List DirEntry) :
    pageStart cursor entries ≤ entries.length := by
  cases cursor with
  | none => exact Nat.zero_le _
  | some c => exact List.findIdx_le_length

def listPage (core : SyncedDrive δ σ ε) (drive : δ) (path : String) (cursor : Option String)
    (limit : Nat) (entries : List DirEntry) : List Entry :=
  ((entries.drop (pageStart cursor entries)).take (max limit 1)).map
    (entryOf core drive (normPath path))

theorem listPage_names (core : SyncedDrive δ σ ε) (drive : δ) (path : String)
    {entries : List DirEntry} (ordered : InOrder entries) (cursor : Option String) (limit : Nat) :
    (listPage core drive path cursor limit entries).map entryName =
      Paging.page cursor (max limit 1) (entries.map (·.name)) := by
  have named : ∀ e ∈ (entries.drop (pageStart cursor entries)).take (max limit 1),
      (entryName ∘ entryOf core drive (normPath path)) e = e.name := fun e member =>
    entryName_entryOf core drive (normPath path)
      (ordered.proper e (List.mem_of_mem_drop (List.mem_of_mem_take member))).2
  rw [listPage, List.map_map, List.map_congr_left named, List.map_take,
    drop_pageStart ordered.ascending, Paging.page]

theorem opList_answers (core : SyncedDrive δ σ ε) (path : String) (cursor : Option String)
    (limit : Nat) (tenant : Tenant δ) {entries : List DirEntry}
    (found : core.ls tenant.drive path = .ok entries) (ordered : InOrder entries) :
    opList core path cursor limit tenant = .ok (.listing
      (listPage core tenant.drive path cursor limit entries)
      (Paging.next cursor (max limit 1) (entries.map (·.name)))) := by
  have names := listPage_names core tenant.drive path ordered cursor limit
  have count : (listPage core tenant.drive path cursor limit entries).length =
      (Paging.page cursor (max limit 1) (entries.map (·.name))).length := by
    rw [← names, List.length_map]
  have left : (Paging.behind cursor (entries.map (·.name))).length =
      entries.length - pageStart cursor entries := by
    rw [← drop_pageStart ordered.ascending, List.length_map, List.length_drop]
  have inside := pageStart_le cursor entries
  have more : (pageStart cursor entries +
        (listPage core tenant.drive path cursor limit entries).length < entries.length) =
      ((Paging.page cursor (max limit 1) (entries.map (·.name))).length <
        (Paging.behind cursor (entries.map (·.name))).length) := by
    rw [left, count]
    apply propext
    omega
  have last : (listPage core tenant.drive path cursor limit entries).getLast?.map entryName =
      (Paging.page cursor (max limit 1) (entries.map (·.name))).getLast? := by
    rw [← names, List.getLast?_map]
  have next : (if pageStart cursor entries +
        (listPage core tenant.drive path cursor limit entries).length < entries.length then
      (listPage core tenant.drive path cursor limit entries).getLast?.map entryName else none) =
      Paging.next cursor (max limit 1) (entries.map (·.name)) := by
    rw [last, Paging.next]
    simp only [more]
  rw [← next]
  unfold opList
  rw [found]
  rfl

/-- What the SDKs' paging loops stop at: no cursor, or an empty one. -/
def falsy : Option String → Bool
  | none => true
  | some c => c == ""

/-- A directory and one client that pages through it. `met` keeps the listings the
client's requests were answered from. -/
structure ListSystem (δ : Type) where
  tenant : Tenant δ
  cursor : Option String
  received : List Entry
  finished : Bool
  met : List (List DirEntry)

inductive ListEvent (δ : Type) where
  /-- Anything else that happens to the drive. -/
  | change (tenant : Tenant δ)
  | request (limit : Nat)

namespace ListSystem

def start (tenant : Tenant δ) : ListSystem δ :=
  { tenant, cursor := none, received := [], finished := false, met := [] }

def take (core : SyncedDrive δ σ ε) (path : String) (system : ListSystem δ) :
    Except DriveErr DriveOk → ListSystem δ
  | .ok (.listing page next) =>
    { system with
      cursor := next
      received := system.received ++ page
      finished := falsy next
      met := system.met ++ (core.ls system.tenant.drive path).toOption.toList }
  | _ => system

def step (core : SyncedDrive δ σ ε) (path : String) (system : ListSystem δ) :
    ListEvent δ → Option (ListSystem δ)
  | .change tenant => some { system with tenant }
  | .request limit =>
    if system.finished then none
    else some (system.take core path (opList core path system.cursor limit system.tenant))

/-- The client as the names show it. -/
def scan (system : ListSystem δ) : Paging.Scan String where
  cursor := system.cursor
  listed := system.received.map entryName
  finished := system.finished
  met := system.met.map fun entries => entries.map (·.name)

variable {core : SyncedDrive δ σ ε} {path : String}

/-- A next cursor is a name of the directory, so the loops do not stop at one. -/
theorem falsy_next {entries : List DirEntry} (ordered : InOrder entries) (cursor : Option String)
    (limit : Nat) : falsy (Paging.next cursor limit (entries.map (·.name))) =
      (Paging.next cursor limit (entries.map (·.name))).isNone := by
  cases more : Paging.next cursor limit (entries.map (·.name)) with
  | none => rfl
  | some c =>
    have ⟨onPage, _⟩ := Paging.next_eq_some ordered.ascending more
    have ⟨present, _⟩ := Paging.mem_behind.mp (Paging.mem_behind_of_page onPage)
    have ⟨e, among, named⟩ := List.mem_map.mp present
    have proper := (ordered.proper e among).1
    rw [named] at proper
    simp [falsy, proper]

theorem take_answer {system : ListSystem δ} {entries : List DirEntry}
    (found : core.ls system.tenant.drive path = .ok entries) (ordered : InOrder entries)
    (limit : Nat) :
    system.take core path (opList core path system.cursor limit system.tenant) =
      { system with
        cursor := Paging.next system.cursor (max limit 1) (entries.map (·.name))
        received := system.received ++
          listPage core system.tenant.drive path system.cursor limit entries
        finished := (Paging.next system.cursor (max limit 1) (entries.map (·.name))).isNone
        met := system.met ++ [entries] } := by
  rw [opList_answers core path system.cursor limit system.tenant found ordered, take, found,
    falsy_next ordered]
  rfl

theorem scan_answer {system : ListSystem δ} {entries : List DirEntry}
    (found : core.ls system.tenant.drive path = .ok entries) (ordered : InOrder entries)
    (limit : Nat) :
    (system.take core path (opList core path system.cursor limit system.tenant)).scan =
      system.scan.turn (max limit 1) (entries.map (·.name)) := by
  rw [take_answer found ordered limit]
  simp only [scan, Paging.Scan.turn, List.map_append, List.map_cons, List.map_nil,
    listPage_names core system.tenant.drive path ordered]

theorem take_missing {system : ListSystem δ} {e : String}
    (missing : core.ls system.tenant.drive path = .error e) (limit : Nat) :
    system.take core path (opList core path system.cursor limit system.tenant) = system := by
  unfold opList
  rw [missing]
  rfl

/-- Each step of the client is a turn of a scan over names, or no move at all. -/
theorem step_reached (ordered : core.ListsInOrder) {system next : ListSystem δ}
    {event : ListEvent δ} (reached : system.scan.Reached)
    (taken : step core path system event = some next) : next.scan.Reached := by
  cases event with
  | change tenant =>
    cases taken
    exact reached
  | request limit =>
    simp only [step, Option.ite_none_left_eq_some, Bool.not_eq_true, Option.some_inj] at taken
    have ⟨unfinished, moved⟩ := taken
    rw [← moved]
    cases found : core.ls system.tenant.drive path with
    | error e =>
      rw [take_missing found]
      exact reached
    | ok entries =>
      have inOrder := ordered _ _ _ found
      rw [scan_answer found inOrder]
      exact .turn reached unfinished (by omega) inOrder.ascending

theorem run_reached (ordered : core.ListsInOrder) {tenant : Tenant δ}
    {events : List (ListEvent δ)} {last : ListSystem δ}
    (run : Runs.Free (step core path) (start tenant) events last) : last.scan.Reached :=
  @Runs.Run.invariant _ _ _ _ (fun system => system.scan.Reached) _ _ _ run .start
    fun _ _ _ reached _ taken => step_reached ordered reached taken

/-- What a client can rely on at any moment of its paging. -/
structure PagedRight (system : ListSystem δ) : Prop where
  ascending : (system.received.map entryName).Pairwise (· < ·)
  once : system.finished = true → ∀ name,
    (∀ entries ∈ system.met, name ∈ entries.map (·.name)) →
      (system.received.map entryName).count name = 1
  known : ∀ name ∈ system.received.map entryName,
    ∃ entries ∈ system.met, name ∈ entries.map (·.name)

theorem pagedRight_of_reached {system : ListSystem δ} (reached : system.scan.Reached) :
    system.PagedRight := by
  have inv := reached.inv
  refine ⟨inv.ascending, ?_, ?_⟩
  · intro finished name present
    have all : ∀ keys ∈ system.scan.met, name ∈ keys := by
      intro keys member
      obtain ⟨entries, among, rfl⟩ := List.mem_map.mp member
      exact present entries among
    have listed := inv.covered name all (Or.inl finished)
    exact List.count_eq_one_of_mem (inv.ascending.imp fun less => ne_of_lt less) listed
  · intro name listed
    have ⟨keys, member, holds⟩ := inv.known name listed
    obtain ⟨entries, among, rfl⟩ := List.mem_map.mp member
    exact ⟨entries, among, holds⟩

structure Unchanging (core : SyncedDrive δ σ ε) (path : String) (tenant : Tenant δ)
    (entries : List DirEntry) (system : ListSystem δ) : Prop where
  same : system.tenant = tenant
  steady : system.scan.Steady (entries.map (·.name))
  rendered : system.received =
    (entries.take system.received.length).map (entryOf core tenant.drive (normPath path))

theorem start_unchanging (tenant : Tenant δ) (entries : List DirEntry) :
    Unchanging core path tenant entries (start tenant) :=
  ⟨rfl, Paging.Scan.start_steady _, rfl⟩

theorem take_unchanging {tenant : Tenant δ} {entries : List DirEntry}
    (found : core.ls tenant.drive path = .ok entries) (ordered : InOrder entries)
    {system : ListSystem δ} (unchanging : Unchanging core path tenant entries system)
    (unfinished : system.finished = false) (limit : Nat) :
    Unchanging core path tenant entries
      (system.take core path (opList core path system.cursor limit system.tenant)) := by
  obtain ⟨rfl, steady, rendered⟩ := unchanging
  have turned := Paging.Scan.turn_steady ordered.ascending steady unfinished
    (by omega : 0 < max limit 1)
  refine ⟨?_, ?_, ?_⟩
  · rw [take_answer found ordered]
  · rw [scan_answer found ordered]
    exact turned
  · -- the page starts where the received entries stop
    have left := steady.left unfinished
    have here : pageStart system.cursor entries = system.received.length := by
      have behind := congrArg List.length (drop_pageStart ordered.ascending system.cursor)
      have inside := pageStart_le system.cursor entries
      have whole := congrArg List.length (steady.splits unfinished)
      simp only [scan, List.length_map, List.length_drop, List.length_append] at behind whole
      omega
    rw [take_answer found ordered]
    dsimp only
    rw [rendered, listPage, here, ← List.map_append, ← List.take_add, List.length_map,
      List.length_take, ← List.take_eq_take_min]

/-- An unfinished client of such a directory has fewer names left after its page. -/
theorem take_left {tenant : Tenant δ} {entries : List DirEntry}
    (found : core.ls tenant.drive path = .ok entries) (ordered : InOrder entries)
    {system : ListSystem δ} (unchanging : Unchanging core path tenant entries system)
    (before : system.finished = false) (limit : Nat) {next : ListSystem δ}
    (moved : system.take core path (opList core path system.cursor limit system.tenant) = next)
    (unfinished : next.finished = false) :
    system.received.length < next.received.length ∧ next.received.length < entries.length := by
  obtain ⟨rfl, steady, _⟩ := unchanging
  rw [← moved] at unfinished ⊢
  have turned := scan_answer found ordered limit
  have open' : (system.scan.turn (max limit 1) (entries.map (·.name))).finished = false := by
    rw [← turned]
    exact unfinished
  have lengths := steady.turn_left before open'
  rw [← turned] at lengths
  simpa only [scan, List.length_map] using lengths

/-- Whatever the limits, the requests come to an end, with every entry received. -/
theorem requests_end {tenant : Tenant δ} {entries : List DirEntry}
    (found : core.ls tenant.drive path = .ok entries) (ordered : InOrder entries)
    {system : ListSystem δ} (unchanging : Unchanging core path tenant entries system)
    (unfinished : system.finished = false) (limits : Nat → Nat) :
    ∃ n ≤ max 1 (entries.length - system.received.length), ∃ last,
      Runs.Free (step core path) system ((List.range n).map fun i => .request (limits i)) last ∧
        last.finished = true ∧
        last.received = entries.map (entryOf core tenant.drive (normPath path)) := by
  induction measure : entries.length - system.received.length using Nat.strong_induction_on
    generalizing system limits with
  | _ left ih =>
  obtain ⟨next, moved⟩ : ∃ next, system.take core path
      (opList core path system.cursor (limits 0) system.tenant) = next := ⟨_, rfl⟩
  have kept : Unchanging core path tenant entries next :=
    moved ▸ take_unchanging found ordered unchanging unfinished (limits 0)
  have taken : step core path system (.request (limits 0)) = some next := by
    simp only [step, unfinished, Bool.false_eq_true, ↓reduceIte, moved]
  have first : Runs.Free (step core path) system [.request (limits 0)] next := .single trivial taken
  cases done : next.finished with
  | true =>
    refine ⟨1, by omega, next, first, done, ?_⟩
    have all := congrArg List.length (kept.steady.ended done)
    simp only [scan, List.length_map] at all
    rw [kept.rendered, all, List.take_length]
  | false =>
    have ⟨further, short⟩ := take_left found ordered unchanging unfinished (limits 0) moved done
    obtain ⟨n, bounded, last, rest, finished, received⟩ :=
      ih _ (by omega) kept done (fun i => limits (i + 1)) rfl
    refine ⟨n + 1, by omega, last, ?_, finished, received⟩
    have joined := first.append rest
    rw [List.range_succ_eq_map, List.map_cons, List.map_map]
    exact joined

/-- Listing by pages, whatever happens to the directory between them: what a client
holds at any moment, what an answer without a cursor says, and that a directory left
alone is listed to its end. -/
structure ListsByPages (core : SyncedDrive δ σ ε) (path : String) (tenant : Tenant δ) : Prop where
  held : ∀ events last, Runs.Free (step core path) (start tenant) events last → last.PagedRight
  ended : ∀ tenant cursor limit page next entries, core.ls tenant.drive path = .ok entries →
    opList core path cursor limit tenant = .ok (.listing page next) →
      (next = none ↔ ∀ e ∈ entries, (∀ c ∈ cursor, c < e.name) → e.name ∈ page.map entryName)
  finishes : ∀ entries, core.ls tenant.drive path = .ok entries → ∀ limits : Nat → Nat,
    ∃ n ≤ max 1 entries.length, ∃ last,
      Runs.Free (step core path) (start tenant)
        ((List.range n).map fun i => .request (limits i)) last ∧
      last.finished = true ∧
      last.received = entries.map (entryOf core tenant.drive (normPath path))

/-- Over a drive that lists in order, paging is complete, free of duplicates and ends. -/
theorem lists_by_pages (ordered : core.ListsInOrder) (path : String) (tenant : Tenant δ) :
    ListsByPages core path tenant := by
  refine ⟨?_, ?_, ?_⟩
  · intro events last run
    exact pagedRight_of_reached (run_reached ordered run)
  · intro tenant cursor limit page next entries found answered
    have inOrder := ordered _ _ _ found
    rw [opList_answers core path cursor limit tenant found inOrder] at answered
    obtain ⟨rfl, rfl⟩ := DriveOk.listing.inj (Except.ok.inj answered)
    rw [Paging.next_eq_none_iff_forall (by omega) inOrder.ascending,
      listPage_names core tenant.drive path inOrder]
    simp only [List.mem_map, forall_exists_index, and_imp, forall_apply_eq_imp_iff₂]
  · intro entries found limits
    exact requests_end found (ordered _ _ _ found) (start_unchanging tenant entries) rfl limits

end ListSystem

instance (entries : List DirEntry) : Decidable (InOrder entries) :=
  decidable_of_iff
    ((entries.map (·.name)).Pairwise (· < ·) ∧
      ∀ e ∈ entries, e.name ≠ "" ∧ '/' ∉ e.name.toList)
    ⟨fun ⟨ascending, proper⟩ => ⟨ascending, proper⟩,
      fun ordered => ⟨ordered.ascending, ordered.proper⟩⟩

/-- The reference drive, kept from listing what is out of order. -/
def orderedCore : SyncedDrive Reference.FileDrive Reference.FileDrive (Option String) :=
  { Reference.core with
    ls := fun drive path => (Reference.ls drive path).bind fun entries =>
      if InOrder entries then .ok entries else .error "out of order" }

theorem orderedCore_listsInOrder : orderedCore.ListsInOrder := by
  intro drive path entries listed
  simp only [orderedCore] at listed
  cases found : Reference.ls drive path with
  | error e =>
    rw [found] at listed
    cases listed
  | ok shown =>
    simp only [found, Except.bind] at listed
    split at listed
    · rename_i ordered
      exact Except.ok.inj listed ▸ ordered
    · cases listed

theorem twoFiles_by_pages : ListSystem.ListsByPages orderedCore "/"
    (Tenant.new [Reference.file "/a" "n1" "o1" 1000, Reference.file "/b" "n2" "o2" 1000]
      Reference.quota) :=
  ListSystem.lists_by_pages orderedCore_listsInOrder "/" _

end DriveServe
