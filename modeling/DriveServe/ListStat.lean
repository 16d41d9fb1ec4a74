import DriveServe.CorpusTree
import DriveServe.PathGuards
import DriveServe.ReferenceTree

set_option autoImplicit false

/-! A listing against the stat of what it lists. -/

namespace DriveServe

variable {δ σ ε : Type} {core : SyncedDrive δ σ ε} {drive : δ}

def EndsBlank (name : String) : Prop := ∃ c ∈ name.toList.getLast?, isWhite c = true

theorem trimEndSlashes_normPath {path : String} (deep : normPath path ≠ "/") :
    trimEndSlashes (normPath path) = normPath path := by
  rw [trimEndSlashes, ← String.toList_inj, String.toList_ofList, normPath_toList]
  obtain ⟨front, last, shape, solid⟩ := normTail_last deep
  rw [shape, ← List.cons_append,
    List.rdropWhile_concat_neg _ _ _ (by rw [solid]; exact Bool.false_ne_true)]

theorem entryOf_path (path : String) (e : DirEntry) :
    (entryOf core drive (normPath path) e).path = childPath (normPath path) e.name := by
  unfold entryOf childPath
  dsimp only
  split
  · rfl
  · rename_i deep
    rw [trimEndSlashes_normPath deep]

theorem entryOf_eq (parentPath : String) (e : DirEntry) :
    entryOf core drive parentPath e =
      { path := (entryOf core drive parentPath e).path, kind := if e.isDir then .dir else .file,
        size := (e.content.map FileContent.size).getD 0,
        mtimeMs := (e.content.map FileContent.mtimeMs).getD 0,
        etag := etagFor core drive e.nodeId, nodeId := e.nodeId,
        objectCid := e.content.map core.cid, docId := e.content.bind FileContent.docId } :=
  rfl

/-- The path of a listed line is in normal form where its name does not end in white
space. -/
theorem normPath_childPath_iff {name : String} (proper : Proper name) (path : String) :
    normPath (childPath (normPath path) name) = childPath (normPath path) name ↔
      ¬ EndsBlank name := by
  obtain ⟨front, c, shape⟩ : ∃ front c, name.toList = front ++ [c] := by
    rcases List.eq_nil_or_concat' name.toList with empty | found
    · exact absurd (String.toList_eq_nil_iff.mp empty) proper.1
    · exact found
  have ends : EndsBlank name ↔ isWhite c = true := by
    simp [EndsBlank, shape]
  have word : isSlash c = false := by
    have other : c ≠ '/' := fun slash => proper.2 (by simp [shape, slash])
    simpa [isSlash] using other
  obtain ⟨before, letters, solid⟩ : ∃ before, (childPath (normPath path) name).toList =
      '/' :: (before ++ [c]) ∧ ∀ y rest, before ++ [c] = y :: rest → isSlash y = false := by
    unfold childPath
    split
    · refine ⟨front, by rw [String.toList_append, shape]; rfl, ?_⟩
      intro y rest whole
      have other : y ≠ '/' := fun slash => proper.2 (by simp [shape, whole, slash])
      simpa [isSlash] using other
    · rename_i deep
      refine ⟨normTail path ++ '/' :: front, ?_, ?_⟩
      · simp [String.toList_append, normPath_toList, shape]
      · intro y rest whole
        cases tail : normTail path with
        | nil => exact absurd ((normPath_root_iff path).mpr tail) deep
        | cons first more =>
          rw [tail, List.cons_append, List.cons_append, List.cons.injEq] at whole
          exact whole.1 ▸ normTail_head tail
  rw [normPath_eq_self_iff letters solid, List.getLast?_concat, ends]
  simp [word]

/-- Below the directory that a path is listed as, names lead where they lead below the
path, unless white space stands at the path's ends. -/
theorem pathNames_listed_iff (path name : String) :
    pathNames (childPath (normPath path) name) = pathNames (childPath path name) ↔
      trim path = path := by
  rw [pathNames_childPath, pathNames_childPath, List.append_left_inj, pathNames_normPath,
    pathNames_trim_iff]

theorem listed_ne_root {name : String} (proper : Proper name) (path : String) :
    childPath (normPath path) name ≠ "/" := by
  intro root
  have names := congrArg pathNames root
  rw [pathNames_childPath, pathNames_proper proper, pathNames_root] at names
  exact absurd names (by simp)

/-- What a stat answers has the path in normal form. -/
theorem statEntry_path {path : String} {e : Entry} (found : statEntry core drive path = some e) :
    e.path = normPath path := by
  unfold statEntry at found
  dsimp only at found
  split at found
  · rename_i root
    rw [root, ← Option.some.inj found]
  · obtain ⟨node, _, found⟩ := Option.bind_eq_some_iff.mp found
    obtain ⟨kind, _, found⟩ := Option.bind_eq_some_iff.mp found
    rw [← Option.some.inj found]

/-- Beneath the root, it is of the node that the path leads to. -/
theorem statEntry_node {path : String} {e : Entry} (deep : normPath path ≠ "/")
    (found : statEntry core drive path = some e) :
    core.resolve drive (normPath path) = some e.nodeId := by
  unfold statEntry at found
  dsimp only at found
  rw [if_neg deep] at found
  obtain ⟨node, led, found⟩ := Option.bind_eq_some_iff.mp found
  obtain ⟨kind, _, found⟩ := Option.bind_eq_some_iff.mp found
  rw [led, ← Option.some.inj found]

theorem statEntry_of_node {path node : String} {kind : NodeKind} (normal : normPath path = path)
    (deep : path ≠ "/") (led : core.resolve drive path = some node)
    (found : core.edgeKind drive node = some kind) :
    statEntry core drive path =
      some { path, kind := if kind = .dir then .dir else .file,
             size := ((core.contentOf drive node).map FileContent.size).getD 0,
             mtimeMs := ((core.contentOf drive node).map FileContent.mtimeMs).getD 0,
             etag := etagFor core drive node, nodeId := node,
             objectCid := (core.contentOf drive node).map core.cid,
             docId := (core.contentOf drive node).bind FileContent.docId } := by
  unfold statEntry
  dsimp only
  rw [normal, if_neg deep, led, Option.bind_eq_bind, Option.bind_some, found]
  rfl

theorem statEntry_entryOf_iff (tree : core.Tree) {path : String} {entries : List DirEntry}
    (listed : core.ls drive path = .ok entries) {d : DirEntry} (member : d ∈ entries) :
    statEntry core drive (entryOf core drive (normPath path) d).path =
        some (entryOf core drive (normPath path) d) ↔
      trim path = path ∧ ¬ EndsBlank d.name := by
  obtain ⟨proper, here⟩ := tree.listed drive path entries d listed member
  have deep := listed_ne_root proper path
  have shown := @entryOf_path _ _ _ core drive path d
  obtain ⟨node, led, view⟩ := Option.map_eq_some_iff.mp here
  obtain ⟨same, kind, content, _⟩ := NodeView.mk.inj view
  rw [same] at led kind content
  constructor
  · intro stat
    have text := statEntry_path stat
    rw [shown] at text stat
    have plain := (normPath_childPath_iff proper path).mp text.symm
    have resolved := statEntry_node (text ▸ deep) stat
    rw [← text] at resolved
    -- the listing and the stat are of one node, and a node has one place
    have found : nodeAt core drive (childPath (normPath path) d.name) =
        some { nodeId := d.nodeId, kind := core.edgeKind drive d.nodeId,
               content := core.contentOf drive d.nodeId, info := core.metaOf drive d.nodeId } := by
      rw [nodeAt, resolved]
      rfl
    have placed := tree.placed drive _ _ _ _ found here rfl
    exact ⟨(pathNames_listed_iff path d.name).mp placed, plain⟩
  · rintro ⟨straight, plain⟩
    have normal := (normPath_childPath_iff proper path).mpr plain
    have names := (pathNames_listed_iff path d.name).mpr straight
    have resolved := (tree.names drive _ _ names).trans led
    rw [shown, statEntry_of_node normal deep resolved kind, content, entryOf_eq, shown]
    cases d.isDir <;> simp only [Bool.false_eq_true, ↓reduceIte, reduceCtorEq]

theorem opStat_entry_iff (path : String) (tenant : Tenant δ) (e : Entry) :
    opStat core path tenant = .ok (.entry e) ↔ statEntry core tenant.drive path = some e := by
  unfold opStat
  cases statEntry core tenant.drive path <;> simp

theorem opList_lines {path : String} {cursor : Option String} {limit : Nat} {tenant : Tenant δ}
    {page : List Entry} {next : Option String}
    (answered : opList core path cursor limit tenant = .ok (.listing page next)) :
    ∃ entries, core.ls tenant.drive path = .ok entries ∧
      ∀ e ∈ page, ∃ d ∈ entries, e = entryOf core tenant.drive (normPath path) d := by
  unfold opList at answered
  cases listed : core.ls tenant.drive path with
  | error e =>
    rw [listed] at answered
    cases answered
  | ok entries =>
    rw [listed] at answered
    obtain ⟨lines, _⟩ := DriveOk.listing.inj (Except.ok.inj answered)
    refine ⟨entries, rfl, ?_⟩
    intro e member
    rw [← lines] at member
    obtain ⟨d, among, rfl⟩ := List.mem_map.mp member
    exact ⟨d, List.mem_of_mem_drop (List.mem_of_mem_take among), rfl⟩

/-- List and Stat agree on a line exactly where neither the path of the listing nor the
line's name has white space that normalization cuts. -/
theorem list_stat_iff (tree : core.Tree) {path : String} {cursor : Option String} {limit : Nat}
    {tenant : Tenant δ} {page : List Entry} {next : Option String}
    (answered : opList core path cursor limit tenant = .ok (.listing page next)) :
    ∃ entries, core.ls tenant.drive path = .ok entries ∧
      ∀ e ∈ page, ∃ d ∈ entries, e = entryOf core tenant.drive (normPath path) d ∧
        (opStat core e.path tenant = .ok (.entry e) ↔ trim path = path ∧ ¬ EndsBlank d.name) := by
  obtain ⟨entries, listed, lines⟩ := opList_lines answered
  refine ⟨entries, listed, ?_⟩
  intro e member
  obtain ⟨d, among, rfl⟩ := lines e member
  exact ⟨d, among, rfl, (opStat_entry_iff _ tenant _).trans
    (statEntry_entryOf_iff tree listed among)⟩

def oneDirectory (path : String) (sound : Reference.WellFormed [Reference.directory path "d1"]) :
    Tenant Reference.TreeDrive :=
  Tenant.new ⟨[Reference.directory path "d1"], sound⟩ Reference.quota

def directoryEntry (path : String) : Entry where
  path := path
  kind := .dir
  size := 0
  mtimeMs := 0
  etag := "dir:d1"
  nodeId := "d1"
  objectCid := none
  docId := none

theorem docs_listed :
    ∃ entries, Reference.treeCore.ls (oneDirectory "/docs" (by decide)).drive "/" = .ok entries ∧
      ∀ e ∈ [directoryEntry "/docs"], ∃ d ∈ entries,
        e = entryOf Reference.treeCore (oneDirectory "/docs" (by decide)).drive (normPath "/") d ∧
        (opStat Reference.treeCore e.path (oneDirectory "/docs" (by decide)) = .ok (.entry e) ↔
          trim "/" = "/" ∧ ¬ EndsBlank d.name) :=
  list_stat_iff Reference.treeCore_tree (show opList Reference.treeCore "/" none 10
    (oneDirectory "/docs" (by decide)) = .ok (.listing [directoryEntry "/docs"] none) by decide)

/-- `Mkdir` on `/a /` makes a directory that is listed, and that no stat finds. -/
theorem blankDirectory_lost :
    Reference.treeCore.Tree ∧ splitPath "/a /" = some ("/", "a ") ∧
      opList Reference.treeCore "/" none 10 (oneDirectory "/a " (by decide)) =
        .ok (.listing [directoryEntry "/a "] none) ∧
      opStat Reference.treeCore "/a " (oneDirectory "/a " (by decide)) = .error .notFound :=
  ⟨Reference.treeCore_tree, by decide, by decide, by decide⟩

end DriveServe
