import DriveServe.Confinement
import DriveServe.CorpusTree

set_option autoImplicit false

/-! The reference drive kept to trees: ids and paths of their own, paths in canonical
form, every node under a directory. A call that would leave the trees is refused. -/

namespace DriveServe.Reference

open DriveServe

structure WellFormed (drive : FileDrive) : Prop where
  ids : ("root" :: drive.map FileNode.id).Nodup
  paths : (drive.map FileNode.path).Nodup
  canonical : ∀ node ∈ drive, node.path = pathOf (names node.path) ∧ names node.path ≠ []
  rooted : ∀ node ∈ drive, isDirectory drive (pathOf (names node.path).dropLast) = true

instance (drive : FileDrive) : Decidable (WellFormed drive) :=
  decidable_of_iff
    (("root" :: drive.map FileNode.id).Nodup ∧ (drive.map FileNode.path).Nodup ∧
      (∀ node ∈ drive, node.path = pathOf (names node.path) ∧ names node.path ≠ []) ∧
      ∀ node ∈ drive, isDirectory drive (pathOf (names node.path).dropLast) = true)
    ⟨fun ⟨ids, paths, canonical, rooted⟩ => ⟨ids, paths, canonical, rooted⟩,
      fun sound => ⟨sound.ids, sound.paths, sound.canonical, sound.rooted⟩⟩

abbrev TreeDrive := { drive : FileDrive // WellFormed drive }

def treeCall (log : Option String) (drive : TreeDrive) (made : DriveCall) :
    Except String String × TreeDrive :=
  if sound : WellFormed (call log drive.1 made).2 then
    ((call log drive.1 made).1, ⟨(call log drive.1 made).2, sound⟩)
  else (.error "not a tree", drive)

def treeCore : SyncedDrive TreeDrive FileDrive (Option String) where
  fresh := ⟨[], by decide⟩
  root := core.root
  resolve drive := core.resolve drive.1
  contentOf drive := core.contentOf drive.1
  edgeKind drive := core.edgeKind drive.1
  ls drive := core.ls drive.1
  metaOf drive := core.metaOf drive.1
  backlinks drive := core.backlinks drive.1
  toState drive := drive.1
  call := treeCall
  newContent := core.newContent
  objectLocator := core.objectLocator
  cid := core.cid
  display := core.display
  parseTarget := core.parseTarget
  targetKey := core.targetKey

variable {drive : FileDrive} {path fresh : String}

def viewOf (node : FileNode) : NodeView :=
  { nodeId := node.id, kind := some node.kind, content := node.content, info := some node.info }

theorem names_of_find {node : FileNode} (found : find drive path = some node) :
    names node.path = names path := by
  have here : node.path = pathOf (names path) := by simpa using List.find?_some found
  exact names_of_kept here

namespace WellFormed

variable (sound : WellFormed drive)

include sound

theorem unique : Unique drive := (List.nodup_cons.mp sound.ids).2

theorem find_of_mem {node : FileNode} (member : node ∈ drive)
    (here : names path = names node.path) : find drive path = some node := by
  have canonical := (sound.canonical node member).1
  rw [find_congr here, find, ← canonical]
  exact find?_of_mem sound.paths member

theorem nodeAt_of_mem {node : FileNode} (member : node ∈ drive)
    (here : names path = names node.path) : nodeAt core drive path = some (viewOf node) := by
  have deep : names path ≠ [] := here ▸ (sound.canonical node member).2
  rw [nodeAt_find sound.unique deep, sound.find_of_mem member here]
  rfl

/-- What a path leads to is the root or a node that is kept under the path. -/
theorem nodeAt_cases {view : NodeView} (led : nodeAt core drive path = some view) :
    (names path = [] ∧ view = { nodeId := "root", kind := none, content := none, info := none }) ∨
      ∃ node ∈ drive, names node.path = names path ∧ view = viewOf node := by
  by_cases top : names path = []
  · rw [nodeAt_root (List.nodup_cons.mp sound.ids).1 top] at led
    exact Or.inl ⟨top, (Option.some.inj led).symm⟩
  · rw [nodeAt_find sound.unique top] at led
    obtain ⟨node, found, rfl⟩ := Option.map_eq_some_iff.mp led
    exact Or.inr ⟨node, List.mem_of_find?_eq_some found, names_of_find found, rfl⟩

theorem nodeAt_child {dir name : String} {view : NodeView} (proper : Proper name)
    (led : nodeAt core drive (childPath dir name) = some view) :
    ∃ node ∈ drive, names node.path = names dir ++ [name] := by
  rcases sound.nodeAt_cases led with ⟨top, _⟩ | ⟨node, member, place, _⟩
  · rw [names_childPath proper] at top
    exact absurd top (by simp)
  · rw [names_childPath proper] at place
    exact ⟨node, member, place⟩

/-- The directory a node hangs under. -/
theorem isDirectory_above {dir name : String} {node : FileNode} (member : node ∈ drive)
    (here : names node.path = names dir ++ [name]) : isDirectory drive dir = true := by
  have above := sound.rooted node member
  have cut : (names node.path).dropLast = names dir := by
    rw [here, List.dropLast_concat]
  rw [cut] at above
  simpa only [isDirectory, names_canonical, find_congr (names_canonical dir)] using above

end WellFormed

theorem mem_ls {dir : String} {entries : List DirEntry} (listed : ls drive dir = .ok entries)
    (e : DirEntry) : e ∈ entries ↔ ∃ node ∈ drive, (names node.path).dropLast = names dir ∧
      e = { name := ls.lastName node, nodeId := node.id, isDir := node.kind == .dir,
            content := node.content } := by
  unfold ls at listed
  split at listed
  · cases listed
    simp only [List.mem_map, List.mem_filter, beq_iff_eq, and_assoc]
    exact exists_congr fun node => and_congr_right fun _ => and_congr_right fun _ => eq_comm
  · cases listed

theorem names_lastName {node : FileNode} (deep : names node.path ≠ []) :
    names node.path = (names node.path).dropLast ++ [ls.lastName node] := by
  rw [ls.lastName, List.getLast?_eq_some_getLast deep, Option.getD_some,
    List.dropLast_append_getLast]

theorem treeCore_tree : treeCore.Tree where
  names drive path path' same := by
    have both : names path = names path' := same
    change resolve drive.1 path = resolve drive.1 path'
    rw [resolve, resolve, both, find_congr both]
  listed drive dir entries e listed member := by
    obtain ⟨node, present, beneath, rfl⟩ := (mem_ls listed e).mp member
    have deep := (drive.2.canonical node present).2
    have own := names_lastName deep
    rw [beneath] at own
    have proper : Proper (ls.lastName node) := by
      apply @proper_of_mem_names node.path
      rw [own]
      exact List.mem_append_right _ (List.mem_singleton_self _)
    refine ⟨proper, ?_⟩
    have here : names (childPath dir (ls.lastName node)) = names node.path := by
      rw [names_childPath proper, ← own]
    change nodeAt core drive.1 _ = _
    rw [drive.2.nodeAt_of_mem present here, viewOf]
    have info : core.metaOf drive.1 node.id = some node.info := by
      change (byId drive.1 node.id).map _ = _
      rw [byId_of_mem drive.2.unique present, Option.map_some]
    have kind : (if (node.kind == .dir) = true then NodeKind.dir else .file) = node.kind := by
      cases node.kind <;> rfl
    change _ = some (NodeView.mk node.id (some _) node.content (core.metaOf drive.1 node.id))
    rw [info, kind]
  lists drive dir name view proper led := by
    obtain ⟨node, member, place⟩ := drive.2.nodeAt_child proper led
    have directory := drive.2.isDirectory_above member place
    have listed : ls drive.1 dir = .ok _ := if_pos directory
    have beneath : (names node.path).dropLast = names dir := by
      rw [place, List.dropLast_concat]
    refine ⟨_, listed, _, (mem_ls listed _).mpr ⟨node, member, beneath, rfl⟩, ?_⟩
    have own := names_lastName (drive.2.canonical node member).2
    rw [beneath, place] at own
    exact (List.cons.inj (List.append_cancel_left own)).1.symm
  root drive view led := by
    have shown : nodeAt core drive.1 "/" = some view := led
    rcases drive.2.nodeAt_cases shown with ⟨_, rfl⟩ | ⟨node, member, place, _⟩
    · simp
    · have deep := (drive.2.canonical node member).2
      rw [place] at deep
      exact absurd pathNames_root deep
  parent drive dir name view proper deep led := by
    obtain ⟨node, member, place⟩ := drive.2.nodeAt_child proper led
    have directory := drive.2.isDirectory_above member place
    have below : names dir ≠ [] := deep
    rw [isDirectory, beq_false_of_ne below, Bool.false_or, Option.any_eq_true] at directory
    obtain ⟨above, found, kind⟩ := directory
    have led' :=
      drive.2.nodeAt_of_mem (List.mem_of_find?_eq_some found) (names_of_find found).symm
    exact ⟨viewOf above, led', congrArg some (by simpa using kind)⟩
  placed drive path path' view view' led led' same := by
    have apart : ∀ node ∈ drive.1, node.id ≠ "root" := by
      intro node member here
      exact (List.nodup_cons.mp drive.2.ids).1 (here ▸ List.mem_map_of_mem member)
    rcases drive.2.nodeAt_cases led with ⟨top, rfl⟩ | ⟨node, member, place, rfl⟩
    · rcases drive.2.nodeAt_cases led' with ⟨top', _⟩ | ⟨node', member', _, rfl⟩
      · exact top.trans top'.symm
      · exact absurd same.symm (apart node' member')
    · rcases drive.2.nodeAt_cases led' with ⟨_, rfl⟩ | ⟨node', member', place', rfl⟩
      · exact absurd same (apart node member)
      · have ids : node.id = node'.id := same
        have one := byId_of_mem drive.2.unique member
        rw [ids, byId_of_mem drive.2.unique member'] at one
        rw [Option.some.inj one] at place'
        exact place.symm.trans place'

variable {after : FileDrive} {answer : String}

/-- Only adding a file gives a node content. -/
theorem Done.origin {call : DriveCall} (done : Done fresh drive call answer after)
    (other : ∀ parent name content, call ≠ .addFile parent name content) {node : FileNode}
    (member : node ∈ after) {content : FileContent} (filled : node.content = some content) :
    ∃ origin ∈ drive, origin.id = node.id ∧ origin.content = some content := by
  cases done with
  | @filled parent name given => exact absurd rfl (other parent name given)
  | @added parent name given => exact absurd rfl (other parent name given)
  | made vacant there =>
    rcases List.mem_append.mp member with before | new
    · exact ⟨node, before, rfl, filled⟩
    · rw [List.mem_singleton.mp new] at filled
      cases filled
  | moved | described =>
    obtain ⟨origin, before, rfl⟩ := List.mem_map.mp member
    refine ⟨origin, before, ?_, ?_⟩
    · split <;> rfl
    · rw [← filled]
      split <;> rfl
  | removed found => exact ⟨node, List.mem_of_mem_filter member, rfl, filled⟩

/-- A file just added has the content given; the other nodes are found as they were. -/
theorem addFile_found_or {parent name : String} {content : FileContent}
    (done : Done fresh drive (.addFile parent name content) answer after)
    {node : FileNode} (found : find after path = some node) :
    node.content = some content ∨ find drive path = some node := by
  cases done with
  | @filled _ _ _ target taken =>
    rw [find_map] at found
    · obtain ⟨origin, before, rfl⟩ := Option.map_eq_some_iff.mp found
      split
      · exact Or.inl rfl
      · exact Or.inr before
    · intro other
      split <;> rfl
  | added vacant there =>
    unfold find at found ⊢
    rw [List.find?_append] at found
    rcases Option.or_eq_some_iff.mp found with before | ⟨_, new⟩
    · exact Or.inr before
    · rw [List.mem_singleton.mp (List.mem_of_find?_eq_some new)]
      exact Or.inl rfl
  | described change target other => exact absurd rfl (other parent name content)

/-- A call on a tree does nothing, or what it does on the drive it is. -/
theorem treeCall_cases (log : Option String) (drive : TreeDrive) (made : DriveCall) :
    (treeCall log drive made).2 = drive ∨
      ∃ fresh answer, attempt fresh drive.1 made = .ok (answer, (treeCall log drive made).2.1) := by
  unfold treeCall
  split
  · rename_i sound
    unfold call at sound ⊢
    cases log with
    | none => exact Or.inl rfl
    | some fresh =>
      cases attempted : attempt fresh drive.1 made with
      | error e =>
        left
        apply Subtype.ext
        simp only [attempted]
      | ok outcome =>
        right
        refine ⟨fresh, outcome.1, ?_⟩
        simp only [attempted]
  · exact Or.inl rfl

theorem treeCore_keepsTimes : treeCore.KeepsTimes where
  stamped _ _ _ _ := rfl
  fresh path view led := by
    have empty : nodeAt core [] path = some view := led
    rcases (by decide : WellFormed []).nodeAt_cases empty with ⟨_, rfl⟩ | ⟨node, member, _⟩
    · rfl
    · cases member
  added log drive parent name content path view held led filled := by
    change nodeAt core (treeCall log drive _).2.1 path = _ at led
    rcases treeCall_cases log drive (.addFile parent name content) with same |
        ⟨fresh, answer, made⟩
    · rw [same] at led
      exact Or.inr led
    · have sound := (treeCall log drive (.addFile parent name content)).2.2
      rcases sound.nodeAt_cases led with ⟨_, rfl⟩ | ⟨node, member, here, rfl⟩
      · cases filled
      · rcases addFile_found_or (done_of_attempt made)
          (sound.find_of_mem member here.symm) with new | before
        · exact Or.inl (congrArg FileContent.mtimeMs (Option.some.inj (filled.symm.trans new)))
        · exact Or.inr (drive.2.nodeAt_of_mem (List.mem_of_find?_eq_some before) here.symm)
  kept log drive call path view held other led filled := by
    change nodeAt core (treeCall log drive _).2.1 path = _ at led
    rcases treeCall_cases log drive call with same | ⟨fresh, answer, made⟩
    · rw [same] at led
      exact ⟨path, view, held, led, rfl, filled, rfl⟩
    · rcases (treeCall log drive call).2.2.nodeAt_cases led with ⟨_, rfl⟩ | ⟨node, member, _, rfl⟩
      · cases filled
      · obtain ⟨origin, before, id, content⟩ := (done_of_attempt made).origin other member filled
        exact ⟨origin.path, viewOf origin, held, drive.2.nodeAt_of_mem before rfl, id, content, rfl⟩

end DriveServe.Reference
