import DriveServe.ListPages
import DriveServe.ListStat
import DriveServe.PathLaws
import DriveServe.Session
import DriveServe.WalkTree
import Mathlib.Data.List.Perm.Basic

set_option autoImplicit false

/-! The Python client's walk over a drive: directories from a stack, each listed page by page
through the gate, against recursion over the tree the drive shows. -/

namespace DriveServe

namespace Sdk

/-- What asking for the page behind a cursor comes to. -/
abbrev Pages := Option String → Except Raised Value

/-- The paging loop of `ls`, from a cursor on. There is no result where it goes on for
ever. -/
def Pages.lsFrom (page : Pages) (cursor : Option String)
    (out : List EntryView) : Option (Except Raised (List EntryView)) :=
  match page cursor with
  | .error e => some (.error e)
  | .ok (.listing entries next) =>
    if falsy next then some (.ok (out ++ entries))
    else page |>.lsFrom next (out ++ entries)
  | .ok _ => some (.error (.other "TypeError: cannot unpack the reply"))
partial_fixpoint

end Sdk

open Sdk (Value EntryView)

namespace Py

/-- What the client's calls come to. -/
abbrev Asks := Call → Except Raised Value

def ls (ask : Asks) (path : String) (limit : Nat) :
    Option (Except Raised (List EntryView)) :=
  Sdk.Pages.lsFrom (fun cursor => ask (.ls path cursor limit)) none []

/-- `LIST_PAGE`. -/
def pageLimit : Nat := 500

def visitEntry : List String × List EntryView → EntryView → List String × List EntryView
  | (stack, out), e => (if e.kind = "dir" then e.path :: stack else stack, out ++ [e])

/-- The walk over a stack of directories: what it has yielded when it ends, and the error it
ends with, if any. -/
def Asks.walkFrom (ask : Asks) :
    (stack : List String) → (out : List EntryView) → Option (List EntryView × Option Raised)
  | [], out => some (out, none)
  | here :: stack, out =>
    match ls ask here pageLimit with
    | none => none
    | some (.error e) => some (out, some e)
    | some (.ok entries) =>
      let next := entries.foldl visitEntry (stack, out)
      ask |>.walkFrom next.1 next.2
partial_fixpoint

def walk (ask : Asks) (path : String) :
    Option (List EntryView × Option Raised) :=
  Asks.walkFrom ask [path] []

variable {ask : Asks}

/-- What listing a directory comes to: the directories pushed, the last on top, and the
entries; an error is noted among them. -/
def look (ask : Asks) (dir : String) :
    List String × List (Except Raised EntryView) :=
  match ls ask dir pageLimit with
  | none => ([], [])
  | some (.error e) => ([], [.error e])
  | some (.ok entries) =>
    (((entries.filter (·.kind = "dir")).map (·.path)).reverse, entries.map .ok)

/-- What is yielded of such notes: the entries before the first error, and the error. -/
def cutOff : List (Except Raised EntryView) → List EntryView × Option Raised
  | [] => ([], none)
  | .ok e :: rest => (e :: (cutOff rest).1, (cutOff rest).2)
  | .error e :: _ => ([], some e)

theorem cutOff_append_of_none {first : List (Except Raised EntryView)}
    (clean : (cutOff first).2 = none) (second : List (Except Raised EntryView)) :
    cutOff (first ++ second) = ((cutOff first).1 ++ (cutOff second).1, (cutOff second).2) := by
  induction first with
  | nil => rfl
  | cons note rest ih =>
    cases note with
    | error e => cases clean
    | ok e => simp only [List.cons_append, cutOff, ih clean]

theorem cutOff_append_of_some {first : List (Except Raised EntryView)} {e : Raised}
    (broken : (cutOff first).2 = some e) (second : List (Except Raised EntryView)) :
    cutOff (first ++ second) = cutOff first := by
  induction first with
  | nil => cases broken
  | cons note rest ih =>
    cases note with
    | error e => rfl
    | ok e => simp only [List.cons_append, cutOff, ih broken]

theorem cutOff_ok (entries : List EntryView) : cutOff (entries.map .ok) = (entries, none) := by
  induction entries with
  | nil => rfl
  | cons e rest ih => simp only [List.map_cons, cutOff, ih]

/-- Notes that are entries, in some order, are yielded in that order. -/
theorem cutOff_of_perm {notes : List (Except Raised EntryView)} {entries : List EntryView}
    (same : notes.Perm (entries.map .ok)) :
    (cutOff notes).2 = none ∧ (cutOff notes).1.Perm entries := by
  have shape : ∀ note ∈ notes, ∃ e, note = .ok e := by
    intro note member
    obtain ⟨e, _, rfl⟩ := List.mem_map.mp (same.mem_iff.mp member)
    exact ⟨e, rfl⟩
  obtain ⟨yielded, rfl⟩ : ∃ yielded : List EntryView, notes = yielded.map .ok := by
    clear same
    induction notes with
    | nil => exact ⟨[], rfl⟩
    | cons note rest ih =>
      obtain ⟨e, rfl⟩ := shape note List.mem_cons_self
      obtain ⟨more, rfl⟩ := ih fun other member => shape other (List.mem_cons_of_mem _ member)
      exact ⟨e :: more, rfl⟩
  rw [cutOff_ok]
  exact ⟨rfl, (List.map_perm_map_iff fun _ _ => Except.ok.inj).mp same⟩

def resume (ask : Asks) (stack : List String)
    (notes : List (Except Raised EntryView)) : Option (List EntryView × Option Raised) :=
  match (cutOff notes).2 with
  | some _ => some (cutOff notes)
  | none => Asks.walkFrom ask stack (cutOff notes).1

theorem visitEntries_eq (entries : List EntryView) (stack : List String) (out : List EntryView) :
    entries.foldl visitEntry (stack, out) =
      (((entries.filter (·.kind = "dir")).map (·.path)).reverse ++ stack, out ++ entries) := by
  induction entries generalizing stack out with
  | nil => simp
  | cons e rest ih =>
    rw [List.foldl_cons, visitEntry, ih]
    by_cases isDir : e.kind = "dir" <;> simp [isDir]

theorem walk_loops (ends : ∀ dir, (ls ask dir pageLimit).isSome) :
    StackWalk.Loops (look ask) (resume ask) := by
  intro dir stack notes
  unfold resume
  cases earlier : (cutOff notes).2 with
  | some e =>
    rw [cutOff_append_of_some earlier, earlier]
  | none =>
    obtain ⟨listed, shape⟩ := Option.isSome_iff_exists.mp (ends dir)
    dsimp only
    rw [Asks.walkFrom, shape, cutOff_append_of_none earlier]
    unfold look
    rw [shape]
    cases listed with
    | error e => simp [cutOff]
    | ok entries => simp only [visitEntries_eq, cutOff_ok]

/-- The walk yields what the recursion notes, up to the first error. -/
theorem walk_collects (ends : ∀ dir, (ls ask dir pageLimit).isSome) {path : String}
    {noted : List (Except Raised EntryView)}
    (collects : StackWalk.Collects (look ask) [path] noted) :
    walk ask path = some (cutOff noted) := by
  have walked := (walk_loops ends).collects collects [] []
  rw [List.append_nil, List.nil_append] at walked
  have whole : resume ask [] noted = some (cutOff noted) := by
    unfold resume
    cases broken : (cutOff noted).2 with
    | some e => rfl
    | none =>
      dsimp only
      rw [Asks.walkFrom, ← broken]
  exact walked.trans whole

end Py

/-! The pages are the host's. -/

section

variable {δ σ ε : Type} {core : SyncedDrive δ σ ε} {tenant : Tenant δ} {path : String}

def pageOf (core : SyncedDrive δ σ ε) (path : String) (limit : Nat) (tenant : Tenant δ)
    (cursor : Option String) : Except Raised Value :=
  readReply id (opList core path cursor limit tenant)

/-- The loop taken up where a client stands in its paging. -/
def followPages (core : SyncedDrive δ σ ε) (path : String) (limit : Nat) (tenant : Tenant δ)
    (system : ListSystem δ) : Option (Except Raised (List EntryView)) :=
  if system.finished then some (.ok (system.received.map (EntryView.of id)))
  else Sdk.Pages.lsFrom (pageOf core path limit tenant) system.cursor
    (system.received.map (EntryView.of id))

theorem follow_request {system next : ListSystem δ} {limit : Nat} (same : system.tenant = tenant)
    (taken : ListSystem.step core path system (.request limit) = some next) :
    next.tenant = tenant ∧
      followPages core path limit tenant next = followPages core path limit tenant system := by
  simp only [ListSystem.step, Option.ite_none_left_eq_some, Bool.not_eq_true,
    Option.some_inj] at taken
  obtain ⟨unfinished, moved⟩ := taken
  subst same
  have round : followPages core path limit system.tenant system = Sdk.Pages.lsFrom
      (pageOf core path limit system.tenant) system.cursor
        (system.received.map (EntryView.of id)) := by
    simp [followPages, unfinished]
  rw [round, ← moved]
  cases answered : opList core path system.cursor limit system.tenant with
  | error e => exact ⟨rfl, round⟩
  | ok ok =>
    cases ok with
    | listing page cursor =>
      refine ⟨rfl, ?_⟩
      rw [Sdk.Pages.lsFrom, pageOf, answered]
      simp only [readReply, Value.of, Value.keyed, Option.map_id, id_eq]
      unfold followPages ListSystem.take
      dsimp only
      split <;> simp [*]
    | _ => exact ⟨rfl, round⟩

/-- Over a drive that stays, `ls` ends with all that stands in the directory. -/
theorem ls_listed (ordered : core.ListsInOrder) {entries : List DirEntry}
    (found : core.ls tenant.drive path = .ok entries) (limit : Nat) :
    Sdk.Pages.lsFrom (pageOf core path limit tenant) none [] =
      some (.ok (entries.map fun e =>
        EntryView.of id (entryOf core tenant.drive (normPath path) e))) := by
  obtain ⟨n, _, last, run, finished, received⟩ := ListSystem.requests_end found
    (ordered _ _ _ found) (ListSystem.start_unchanging tenant entries) rfl (fun _ => limit)
  have requests : ∀ event ∈ (List.range n).map fun _ => ListEvent.request limit,
      event = ListEvent.request (δ := δ) limit := by
    intro event member
    obtain ⟨_, _, rfl⟩ := List.mem_map.mp member
    rfl
  have followed : last.tenant = tenant ∧ followPages core path limit tenant last =
      followPages core path limit tenant (ListSystem.start tenant) := by
    refine @Runs.Run.invariant _ _ _ _ (fun system => system.tenant = tenant ∧
      followPages core path limit tenant system =
        followPages core path limit tenant (ListSystem.start tenant)) _ _ _ (run.restrict requests)
        ⟨rfl, rfl⟩ ?_
    rintro system _ next ⟨same, before⟩ ⟨_, rfl⟩ taken
    obtain ⟨kept, round⟩ := follow_request same taken
    exact ⟨kept, round.trans before⟩
  have whole := followed.2
  unfold followPages at whole
  rw [if_pos finished, received, List.map_map] at whole
  exact whole.symm

theorem ls_missing {e : String} (missing : core.ls tenant.drive path = .error e) (limit : Nat) :
    Sdk.Pages.lsFrom (pageOf core path limit tenant) none [] =
      some (.error (.drive (Sdk.errorOf id .notFound))) := by
  rw [Sdk.Pages.lsFrom, pageOf]
  unfold opList
  rw [missing]
  rfl

end

/-! Through the gate. -/

section

variable {δ σ ε : Type}

/-- What a call comes to that the host is asked and answers. -/
def asked (host : Host δ σ ε) (world : World ε) (registry : Registry δ) (client : Client)
    (made : Py.Call) : Except Raised Value :=
  readReply id (dispatch host world registry client.nodeHex (client.request made.intended)).reply

variable {host : Host δ σ ε} {world : World ε} {registry : Registry δ} {client : Client}
  {tenant : Tenant δ} {chain : List SignedCapability}

theorem list_guarded {start : String} {cursor : Option String} {limit : Nat}
    (admitted : admission host world client.nodeHex (client.request (.list start cursor limit)) =
      .ok chain) : noDotdot start = .ok () := by
  obtain ⟨_, _, _, _, accepted⟩ := (admission_ok_iff ..).mp admitted
  obtain ⟨_, _, _, _, bound, _⟩ := (authorizeReq_ok_iff ..).mp accepted
  exact (bound.admitted start (List.mem_singleton_self start)).straight

/-- Who may list a directory may list what lies below it. -/
theorem list_admitted {start path : String} {cursor : Option String} {limit : Nat}
    (cursor' : Option String) (limit' : Nat)
    (admitted : admission host world client.nodeHex (client.request (.list start cursor limit)) =
      .ok chain)
    (straight : noDotdot path = .ok ()) (below : enforcePrefix start path = .ok ()) :
    admission host world client.nodeHex (client.request (.list path cursor' limit')) =
      .ok chain := by
  rw [admission_ok_iff] at admitted ⊢
  obtain ⟨fromNode, granted, sender, decoded, accepted⟩ := admitted
  refine ⟨fromNode, granted, sender, decoded, ?_⟩
  obtain ⟨verified, leaf, scope, last, ⟨binding, paths⟩, same⟩ :=
    (authorizeReq_ok_iff ..).mp accepted
  refine (authorizeReq_ok_iff ..).mpr ⟨verified, leaf, scope, last, ⟨binding, ?_⟩, same⟩
  intro other member
  obtain rfl : other = path := List.mem_singleton.mp member
  have outer := (paths start (List.mem_singleton_self start)).inScope
  exact ⟨straight, enforcePrefix_trans outer below⟩

theorem asked_ls (found : registry.get client.drive = some tenant) {path : String}
    {cursor : Option String} {limit : Nat}
    (admitted : admission host world client.nodeHex (client.request (.list path cursor limit)) =
      .ok chain) :
    asked host world registry client (.ls path cursor limit) =
      pageOf host.core path limit tenant cursor := by
  have meant : (Py.Call.ls path cursor limit).intended = .list path cursor limit := rfl
  rw [asked, meant, dispatch_admitted admitted]
  simp only [dispatchInner, Served.unchanged, Client.request]
  rw [Registry.borrowed_of_found found]
  rfl

theorem list_admission (host : Host δ σ ε) (world : World ε) (client : Client) (path : String)
    (cursor : Option String) (limit : Nat) :
    admission host world client.nodeHex (client.request (.list path cursor limit)) =
      admission host world client.nodeHex (client.request (.list path none limit)) := rfl

theorem ls_asked (found : registry.get client.drive = some tenant) {path : String}
    {limit : Nat}
    (admitted : admission host world client.nodeHex (client.request (.list path none limit)) =
      .ok chain) :
    Py.ls (asked host world registry client) path limit =
      Sdk.Pages.lsFrom (pageOf host.core path limit tenant) none [] := by
  have pages : (fun cursor => asked host world registry client (.ls path cursor limit)) =
      pageOf host.core path limit tenant := by
    funext cursor
    exact asked_ls found ((list_admission host world client path cursor limit).trans admitted)
  rw [Py.ls, pages]

theorem ls_ends (ordered : host.core.ListsInOrder) (found : registry.get client.drive = some tenant)
    (path : String) (limit : Nat) :
    (Py.ls (asked host world registry client) path limit).isSome := by
  cases gate : admission host world client.nodeHex (client.request (.list path none limit)) with
  | error e =>
    have refused : asked host world registry client (.ls path none limit) =
        .error (.drive (Sdk.errorOf id e)) := by
      have meant : (Py.Call.ls path none limit).intended = .list path none limit := rfl
      rw [asked, meant, dispatch_refused gate]
      rfl
    rw [Py.ls, Sdk.Pages.lsFrom, refused]
    rfl
  | ok chain =>
    rw [ls_asked found gate]
    cases listed : host.core.ls tenant.drive path with
    | error e =>
      rw [ls_missing listed]
      rfl
    | ok entries =>
      rw [ls_listed ordered listed]
      rfl

end

/-! Over a tree. -/

/-- A directory that who may list `start` may list too, its path being in normal form. -/
structure Listable (start : String) (names : List String) : Prop where
  normal : normPath (pathText names) = pathText names
  straight : noDotdot (pathText names) = .ok ()
  below : enforcePrefix start (pathText names) = .ok ()

theorem noDotdot_iff_names (path : String) : noDotdot path = .ok () ↔ ".." ∉ pathNames path := by
  rw [← mem_splitSlash_iff]
  unfold noDotdot
  split <;> simp_all

theorem enforcePrefix_child {parent name : String} (normal : normPath parent = parent)
    (normal' : normPath (childPath parent name) = childPath parent name) :
    enforcePrefix parent (childPath parent name) = .ok () := by
  unfold enforcePrefix
  dsimp only
  rw [normal, normal']
  by_cases root : parent = "/"
  · simp [root]
  · have deeper : startsWith (childPath parent name) (parent ++ "/") = true := by
      rw [startsWith_iff, childPath, if_neg root, String.toList_append, String.toList_append,
        String.toList_append]
      exact List.prefix_append ..
    simp [deeper]

theorem Listable.child {start : String} {names : List String} (listable : Listable start names)
    {name : String} (proper : Proper name) (level : name ≠ "..") (solid : ¬ EndsBlank name) :
    Listable start (names ++ [name]) := by
  obtain ⟨normal, straight, below⟩ := listable
  have normal' : normPath (childPath (pathText names) name) =
      childPath (pathText names) name := by
    have kept := (normPath_childPath_iff proper (pathText names)).mpr solid
    rwa [normal] at kept
  constructor
  case normal => rwa [pathText_concat]
  case straight =>
    rw [noDotdot_iff_names] at straight ⊢
    rw [pathText_concat, pathNames_childPath, pathNames_proper proper]
    simp [straight, level.symm]
  case below =>
    rw [pathText_concat]
    exact enforcePrefix_trans below (enforcePrefix_child normal normal')

namespace Corpus.Forest

/-- No directory climbs, and none has a name that ends in white space. -/
def Plain : Forest → Prop
  | nil => True
  | file _ _ _ rest => rest.Plain
  | dir name _ _ children rest =>
    (name ≠ ".." ∧ ¬ EndsBlank name) ∧ children.Plain ∧ rest.Plain

def nodes (names : List String) : Forest → List (List String × DirEntry)
  | nil => []
  | file name nodeId content rest =>
    (names, { name, nodeId, isDir := false, content }) :: rest.nodes names
  | dir name nodeId content children rest =>
    (names, { name, nodeId, isDir := true, content }) ::
      (children.nodes (names ++ [name]) ++ rest.nodes names)

end Corpus.Forest

section

variable {δ σ ε : Type} {host : Host δ σ ε} {world : World ε} {registry : Registry δ}
  {client : Client} {tenant : Tenant δ} {chain : List SignedCapability} {start : String}

def viewAt (core : SyncedDrive δ σ ε) (drive : δ) (place : List String × DirEntry) : EntryView :=
  EntryView.of id (entryOf core drive (pathText place.1) place.2)

def noteAt (core : SyncedDrive δ σ ε) (drive : δ) (place : List String × DirEntry) :
    Except Raised EntryView :=
  .ok (viewAt core drive place)

theorem viewAt_isDir (core : SyncedDrive δ σ ε) (drive : δ) (names : List String) (e : DirEntry) :
    (viewAt core drive (names, e)).kind = "dir" ↔ e.isDir = true := by
  cases isDir : e.isDir <;> simp [viewAt, EntryView.of, entryOf, isDir]

theorem pushed_dirs (core : SyncedDrive δ σ ε) (drive : δ) {names : List String}
    (normal : normPath (pathText names) = pathText names) (entries : List DirEntry) :
    ((entries.map fun e => viewAt core drive (names, e)).filter (·.kind = "dir")).map (·.path) =
      Corpus.dirsOf (pathText names) entries := by
  have path (e : DirEntry) :
      (viewAt core drive (names, e)).path = childPath (pathText names) e.name := by
    have shown := @entryOf_path _ _ _ core drive (pathText names) e
    rwa [normal] at shown
  unfold Corpus.dirsOf
  induction entries with
  | nil => rfl
  | cons e rest ih =>
    by_cases isDir : e.isDir = true
    · have here := (viewAt_isDir core drive names e).mpr isDir
      simp only [List.map_cons, List.filter_cons, isDir, here, decide_true, ↓reduceIte, path, ih]
    · have here := mt (viewAt_isDir core drive names e).mp isDir
      simp only [List.map_cons, List.filter_cons, isDir, here, decide_false, Bool.false_eq_true,
        ↓reduceIte, ih]

theorem look_listed (ordered : host.core.ListsInOrder)
    (found : registry.get client.drive = some tenant)
    (admitted : admission host world client.nodeHex
      (client.request (.list start none Py.pageLimit)) = .ok chain)
    {names : List String} (listable : Listable start names) {entries : List DirEntry}
    (listed : host.core.ls tenant.drive (pathText names) = .ok entries) :
    Py.look (asked host world registry client) (pathText names) =
      ((Corpus.dirsOf (pathText names) entries).reverse,
        entries.map fun e => noteAt host.core tenant.drive (names, e)) := by
  have here := list_admitted none Py.pageLimit admitted listable.straight listable.below
  have pushed := pushed_dirs host.core tenant.drive listable.normal entries
  unfold Py.look
  rw [ls_asked found here, ls_listed ordered listed, listable.normal]
  dsimp only [viewAt] at pushed ⊢
  rw [pushed, List.map_map]
  rfl

/-- A directory is recursed into: its own entries first, then the directories in it. -/
theorem walk_dir (ordered : host.core.ListsInOrder)
    (found : registry.get client.drive = some tenant)
    (admitted : admission host world client.nodeHex
      (client.request (.list start none Py.pageLimit)) = .ok chain)
    {names : List String} (listable : Listable start names) {forest : Corpus.Forest}
    (listed : forest.Listed host.core tenant.drive names)
    {noted : List (Except Raised EntryView)}
    (inside : StackWalk.Collects (Py.look (asked host world registry client))
      (Corpus.dirsOf (pathText names) forest.lines) noted) :
    ∃ all, StackWalk.Collects (Py.look (asked host world registry client)) [pathText names] all ∧
      all.Perm ((forest.lines.map fun e => noteAt host.core tenant.drive (names, e)) ++
        noted) := by
  obtain ⟨entries, read, same⟩ := listed
  have looked := look_listed ordered found admitted listable read
  have pushed : (Corpus.dirsOf (pathText names) forest.lines).Perm
      (Py.look (asked host world registry client) (pathText names)).1 := by
    rw [looked]
    exact ((same.symm.filter _).map _).trans (List.reverse_perm _).symm
  have own : (Py.look (asked host world registry client) (pathText names)).2.Perm
      (forest.lines.map fun e => noteAt host.core tenant.drive (names, e)) := by
    rw [looked]
    exact same.map _
  obtain ⟨again, beneath, moved⟩ := inside.perm pushed
  refine ⟨_, .cons beneath .nil, ?_⟩
  rw [List.append_nil]
  exact own.append moved.symm

/-- The recursion over the tree: every node is noted once. -/
theorem walk_forest (ordered : host.core.ListsInOrder)
    (found : registry.get client.drive = some tenant)
    (admitted : admission host world client.nodeHex
      (client.request (.list start none Py.pageLimit)) = .ok chain)
    (forest : Corpus.Forest) (plain : forest.Plain) {names : List String}
    (listable : Listable start names) (proper : ∀ e ∈ forest.lines, Proper e.name)
    (beneath : forest.Beneath host.core tenant.drive names) :
    ∃ noted, StackWalk.Collects (Py.look (asked host world registry client))
        (Corpus.dirsOf (pathText names) forest.lines) noted ∧
      ((forest.lines.map fun e => noteAt host.core tenant.drive (names, e)) ++ noted).Perm
        ((forest.nodes names).map (noteAt host.core tenant.drive)) := by
  induction forest generalizing names with
  | nil => exact ⟨[], .nil, .rfl⟩
  | file name nodeId content rest ih =>
    obtain ⟨noted, collects, same⟩ := ih plain listable
      (fun e member => proper e (List.mem_cons_of_mem _ member)) beneath
    exact ⟨noted, collects, same.cons _⟩
  | dir name nodeId content children rest ihChildren ihRest =>
    obtain ⟨⟨level, solid⟩, plainChildren, plainRest⟩ := plain
    obtain ⟨⟨listed, deeper⟩, further⟩ := beneath
    have child := listable.child (proper _ List.mem_cons_self) level solid
    have properChildren : ∀ e ∈ children.lines, Proper e.name := by
      obtain ⟨entries, read, same⟩ := listed
      intro e member
      exact (ordered _ _ _ read).proper e (same.mem_iff.mpr member)
    obtain ⟨inner, collects, same⟩ := ihChildren plainChildren child properChildren deeper
    obtain ⟨noted, collects', same'⟩ := ihRest plainRest listable
      (fun e member => proper e (List.mem_cons_of_mem _ member)) further
    obtain ⟨all, inside, whole⟩ := walk_dir ordered found admitted child listed collects
    rw [pathText_concat] at inside
    refine ⟨all ++ noted, inside.append collects', ?_⟩
    rw [Corpus.Forest.lines, Corpus.Forest.nodes, List.map_cons, List.map_cons, List.map_append,
      List.cons_append]
    have swapped := (@List.perm_append_comm _
      (rest.lines.map fun e => noteAt host.core tenant.drive (names, e)) all).append_right noted
    simp only [List.append_assoc] at swapped
    exact (swapped.trans ((whole.trans same).append same')).cons _

/-- The walk over the tree that the drive shows below a directory, by a client that may list
that directory: it ends without an error, and yields every node once, as it is listed. -/
theorem walk_tree (ordered : host.core.ListsInOrder)
    (found : registry.get client.drive = some tenant) {names : List String}
    (normal : normPath (pathText names) = pathText names)
    (admitted : admission host world client.nodeHex
      (client.request (.list (pathText names) none Py.pageLimit)) = .ok chain)
    {forest : Corpus.Forest} (plain : forest.Plain)
    (shown : forest.Shown host.core tenant.drive names) :
    ∃ yielded, Py.walk (asked host world registry client) (pathText names) =
        some (yielded, none) ∧
      yielded.Perm ((forest.nodes names).map (viewAt host.core tenant.drive)) := by
  have listable : Listable (pathText names) names :=
    ⟨normal, list_guarded admitted, enforcePrefix_refl _⟩
  have proper : ∀ e ∈ forest.lines, Proper e.name := by
    obtain ⟨entries, read, same⟩ := shown.listed
    intro e member
    exact (ordered _ _ _ read).proper e (same.mem_iff.mpr member)
  obtain ⟨noted, inside, same⟩ :=
    walk_forest ordered found admitted forest plain listable proper shown.beneath
  obtain ⟨all, collects, whole⟩ := walk_dir ordered found admitted listable shown.listed inside
  have walked := Py.walk_collects (fun dir => ls_ends ordered found dir _) collects
  have entries : all.Perm
      (((forest.nodes names).map (viewAt host.core tenant.drive)).map .ok) := by
    rw [List.map_map]
    exact whole.trans same
  obtain ⟨clean, yielded⟩ := Py.cutOff_of_perm entries
  exact ⟨_, by rw [walked, ← clean], yielded⟩

end

def orderedHost : Host Reference.FileDrive Reference.FileDrive (Option String) :=
  { wiredHost with core := orderedCore }

def shelvedDrive : Reference.FileDrive :=
  [Reference.file "/b" "n2" "o2" 5000, Reference.directory "/docs" "d1",
    Reference.file "/docs/a" "n1" "o1" 1000]

theorem shelvedDrive_shown : Corpus.nestedForest.Shown orderedCore shelvedDrive [] :=
  ⟨⟨Corpus.nestedForest.lines.reverse, by decide, List.reverse_perm _⟩,
    ⟨⟨_, by decide, .rfl⟩, trivial⟩, trivial⟩

theorem shelvedDrive_walked :
    ∃ yielded, Py.walk (asked orderedHost (Reference.world none).toWorld
        (Reference.registry "team" shelvedDrive) teamClient) (pathText []) =
          some (yielded, none) ∧
      yielded.Perm ((Corpus.nestedForest.nodes []).map (viewAt orderedCore shelvedDrive)) := by
  have admitted : admission orderedHost (Reference.world none).toWorld teamClient.nodeHex
      (teamClient.request (.list (pathText []) none Py.pageLimit)) =
        .ok [Reference.grant "/"] := by
    decide +kernel
  have solid : ¬ EndsBlank "docs" := by
    rintro ⟨c, last, white⟩
    have letter : "docs".toList.getLast? = some 's' := by decide
    rw [← Option.some.inj (letter.symm.trans last)] at white
    exact absurd white (by decide)
  have plain : Corpus.nestedForest.Plain := ⟨⟨by decide, solid⟩, trivial, trivial⟩
  have found : (Reference.registry "team" shelvedDrive).get teamClient.drive =
      some (Tenant.new shelvedDrive Reference.quota) := rfl
  exact walk_tree orderedCore_listsInOrder found (by decide) admitted plain shelvedDrive_shown

end DriveServe
