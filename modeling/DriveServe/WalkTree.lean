import DriveServe.CorpusTree
import DriveServe.ReferenceDrive
import DriveServe.StackWalk
import Mathlib.Data.String.Basic

set_option autoImplicit false

/-! The walk over a drive against recursion over the tree the drive shows. -/

namespace DriveServe

namespace Corpus

variable {δ σ ε : Type} {core : SyncedDrive δ σ ε} {drive : δ}

/-- What stands in a directory, one node after the other: files, with or without
content, and directories with what stands in them. -/
inductive Forest where
  | nil
  | file (name nodeId : String) (content : Option FileContent) (rest : Forest)
  | dir (name nodeId : String) (content : Option FileContent) (children rest : Forest)

namespace Forest

def lines : Forest → List DirEntry
  | nil => []
  | file name nodeId content rest => { name, nodeId, isDir := false, content } :: rest.lines
  | dir name nodeId content _ rest => { name, nodeId, isDir := true, content } :: rest.lines

/-- The files with content among the nodes of the directory that goes by `names` and
below them: the names from the root down to the file, its id, its content. -/
def files (names : List String) : Forest → List (List String × String × FileContent)
  | nil => []
  | file name nodeId content rest =>
    (content.map fun c => (names ++ [name], nodeId, c)).toList ++ rest.files names
  | dir name _ _ children rest => children.files (names ++ [name]) ++ rest.files names

/-- The drive lists this, in some order, in the directory that goes by `names`. -/
def Listed (core : SyncedDrive δ σ ε) (drive : δ) (names : List String) (forest : Forest) : Prop :=
  ∃ entries, core.ls drive (pathText names) = .ok entries ∧ entries.Perm forest.lines

/-- Every directory among the nodes, and below them, lists what stands in it. -/
def Beneath (core : SyncedDrive δ σ ε) (drive : δ) (names : List String) : Forest → Prop
  | nil => True
  | file _ _ _ rest => rest.Beneath core drive names
  | dir name _ _ children rest =>
    (children.Listed core drive (names ++ [name]) ∧
      children.Beneath core drive (names ++ [name])) ∧ rest.Beneath core drive names

structure Shown (core : SyncedDrive δ σ ε) (drive : δ) (names : List String) (forest : Forest) :
    Prop where
  listed : forest.Listed core drive names
  beneath : forest.Beneath core drive names

end Forest

def notesOf (core : SyncedDrive δ σ ε) (drive : δ) (dir : String) (e : DirEntry) :
    List NodeFacts :=
  if e.isDir then []
  else (e.content.map (factsOf core drive (childPath dir e.name) e.nodeId)).toList

def dirsOf (dir : String) (entries : List DirEntry) : List String :=
  (entries.filter (·.isDir)).map fun e => childPath dir e.name

/-- What the walk finds in a directory: the directories it pushes, the last on top, and
the facts it notes. -/
def look (core : SyncedDrive δ σ ε) (drive : δ) (dir : String) : List String × List NodeFacts :=
  match core.ls drive dir with
  | .error _ => ([], [])
  | .ok entries => ((dirsOf dir entries).reverse, entries.flatMap (notesOf core drive dir))

theorem visits_eq (dir : String) (entries : List DirEntry) (stack : List String)
    (out : List NodeFacts) :
    entries.foldl (visit core drive dir) (stack, out) =
      ((dirsOf dir entries).reverse ++ stack, out ++ entries.flatMap (notesOf core drive dir)) := by
  induction entries generalizing stack out with
  | nil => simp [dirsOf]
  | cons e rest ih =>
    rw [List.foldl_cons, visit_eq]
    by_cases isDir : e.isDir = true
    · rw [if_pos isDir, ih]
      simp [dirsOf, notesOf, isDir]
    · rw [if_neg isDir, ih]
      simp [dirsOf, notesOf, isDir]

theorem walk_loops : StackWalk.Loops (look core drive) (core.walk drive) := by
  intro dir stack out
  unfold look
  cases listed : core.ls drive dir with
  | error e =>
    rw [walk_error listed]
    simp
  | ok entries =>
    rw [walk_ok listed, visits_eq]

/-- The walk ends, with what the recursion notes. -/
theorem walk_collects {dir : String} {noted : List NodeFacts}
    (collects : StackWalk.Collects (look core drive) [dir] noted) :
    core.walk drive [dir] [] = some noted := by
  have walked := walk_loops.collects collects [] []
  rwa [List.append_nil, List.nil_append, walk_nil] at walked

/-- What is to be said of a file with content: its names, its id and its content as the
tree has them, and what the drive holds about the node, where it holds anything. -/
def factsAt (core : SyncedDrive δ σ ε) (drive : δ) :
    List String × String × FileContent → NodeFacts
  | (names, nodeId, content) =>
    match core.metaOf drive nodeId with
    | none =>
      { nodeId, path := pathText names, size := content.size, mtimeMs := content.mtimeMs,
        kind := none, locator := core.display content.locator, tags := [], links := [],
        props := [] }
    | some info =>
      { nodeId, path := pathText names, size := content.size, mtimeMs := content.mtimeMs,
        kind := info.props.lookup "kind", locator := core.display content.locator,
        tags := info.tags,
        links := info.links.map fun link => (link.1, core.targetKey link.2),
        props := info.props }

theorem factsOf_at (names : List String) (nodeId : String) (content : FileContent) :
    factsOf core drive (pathText names) nodeId content =
      factsAt core drive (names, nodeId, content) := by
  unfold factsOf
  dsimp only [factsAt]
  cases core.metaOf drive nodeId <;> rfl

theorem collects_dir {names : List String} {forest : Forest}
    (listed : forest.Listed core drive names) {noted : List NodeFacts}
    (inside : StackWalk.Collects (look core drive) (dirsOf (pathText names) forest.lines) noted) :
    ∃ all, StackWalk.Collects (look core drive) [pathText names] all ∧
      all.Perm (forest.lines.flatMap (notesOf core drive (pathText names)) ++ noted) := by
  obtain ⟨entries, read, same⟩ := listed
  have found : look core drive (pathText names) = ((dirsOf (pathText names) entries).reverse,
      entries.flatMap (notesOf core drive (pathText names))) := by
    rw [look, read]
  have pushed :
      (dirsOf (pathText names) forest.lines).Perm (look core drive (pathText names)).1 := by
    rw [found]
    exact (((same.symm.filter _).map _).trans (List.reverse_perm _).symm)
  have own : (look core drive (pathText names)).2.Perm
      (forest.lines.flatMap (notesOf core drive (pathText names))) := by
    rw [found]
    exact same.flatMap_right _
  obtain ⟨again, beneath, moved⟩ := inside.perm pushed
  refine ⟨_, .cons beneath .nil, ?_⟩
  rw [List.append_nil]
  exact own.append moved.symm

/-- The recursion over the tree: a file notes itself, a directory what stands in it. -/
theorem collects_forest (forest : Forest) {names : List String}
    (beneath : forest.Beneath core drive names) :
    ∃ noted, StackWalk.Collects (look core drive) (dirsOf (pathText names) forest.lines) noted ∧
      (forest.lines.flatMap (notesOf core drive (pathText names)) ++ noted).Perm
        ((forest.files names).map (factsAt core drive)) := by
  induction forest generalizing names with
  | nil => exact ⟨[], .nil, .rfl⟩
  | file name nodeId content rest ih =>
    obtain ⟨noted, collects, same⟩ := ih beneath
    refine ⟨noted, collects, ?_⟩
    have here : notesOf core drive (pathText names) { name, nodeId, isDir := false, content } =
        ((content.map fun c => (names ++ [name], nodeId, c)).toList).map (factsAt core drive) := by
      cases content <;> simp [notesOf, ← factsOf_at, pathText_concat]
    rw [Forest.lines, Forest.files, List.flatMap_cons, here, List.map_append, List.append_assoc]
    exact same.append_left _
  | dir name nodeId content children rest ihChildren ihRest =>
    obtain ⟨⟨listed, deeper⟩, further⟩ := beneath
    obtain ⟨inner, collects, same⟩ := ihChildren deeper
    obtain ⟨noted, collects', same'⟩ := ihRest further
    obtain ⟨all, inside, whole⟩ := collects_dir listed collects
    rw [pathText_concat] at inside
    refine ⟨all ++ noted, inside.append collects', ?_⟩
    rw [Forest.lines, Forest.files, List.flatMap_cons, List.map_append]
    have swapped := (@List.perm_append_comm _
      (rest.lines.flatMap (notesOf core drive (pathText names))) all).append_right noted
    simp only [List.append_assoc] at swapped
    exact swapped.trans ((whole.trans same).append same')

theorem walkFacts_sorted {path : String} {facts : List NodeFacts}
    (walked : walkFacts core drive path = some facts) :
    facts.Pairwise fun a b => a.path ≤ b.path := by
  have total : Std.Total fun a b : NodeFacts => ¬ b.path < a.path :=
    ⟨fun a b => by
      rw [not_lt, not_lt]
      exact le_total a.path b.path⟩
  have trans : IsTrans NodeFacts fun a b => ¬ b.path < a.path :=
    ⟨fun a b c first second => by
      rw [not_lt] at first second ⊢
      exact first.trans second⟩
  obtain ⟨out, _, rfl⟩ := Option.map_eq_some_iff.mp walked
  exact (List.pairwise_insertionSort _ out).imp fun ordered => not_lt.mp ordered

/-- Every descent from a directory ends, as it does in a finite tree. -/
def Ends (core : SyncedDrive δ σ ε) (drive : δ) (dir : String) : Prop :=
  Acc (fun below dir => below ∈ (look core drive dir).1) dir

theorem walkFacts_of_ends {dir : String} (ends : Ends core drive dir) :
    ∃ facts, walkFacts core drive dir = some facts := by
  have all : ∀ place ∈ [dir], Ends core drive place := by
    intro place member
    rwa [List.mem_singleton.mp member]
  have ⟨noted, collects⟩ := StackWalk.Collects.exists_of_acc all
  exact ⟨_, by rw [walkFacts, walk_collects collects, Option.map_some]⟩

theorem Forest.Shown.ends {names : List String} {forest : Forest}
    (shown : forest.Shown core drive names) : Ends core drive (pathText names) := by
  obtain ⟨noted, inside, _⟩ := collects_forest forest shown.beneath
  obtain ⟨all, collects, _⟩ := collects_dir shown.listed inside
  exact collects.acc _ (List.mem_singleton_self _)

/-- The walk from a directory against the tree the drive shows there: it ends, and its
result is the recursion's, each file once, in the order of the paths. -/
theorem walkFacts_tree {names : List String} {forest : Forest}
    (shown : forest.Shown core drive names) :
    ∃ facts, walkFacts core drive (pathText names) = some facts ∧
      facts.Perm ((forest.files names).map (factsAt core drive)) ∧
      facts.Pairwise fun a b => a.path ≤ b.path := by
  obtain ⟨noted, inside, same⟩ := collects_forest forest shown.beneath
  obtain ⟨all, collects, whole⟩ := collects_dir shown.listed inside
  have walked : walkFacts core drive (pathText names) =
      some (all.insertionSort fun a b => ¬ b.path < a.path) := by
    rw [walkFacts, walk_collects collects, Option.map_some]
  refine ⟨_, walked, ?_, walkFacts_sorted walked⟩
  exact (List.perm_insertionSort _ all).trans (whole.trans same)

def nestedDrive : Reference.FileDrive :=
  [Reference.directory "/docs" "d1",
    { Reference.file "/docs/a" "n1" "o1" 1000 with
      info := { props := [("kind", "notes")], tags := ["draft"], links := [("cites", ⟨"/b"⟩)] } },
    Reference.file "/b" "n2" "o2" 5000]

def contentOf (objectCid : String) (mtimeMs : Nat) : FileContent :=
  Reference.newContent { text := "blob:" ++ objectCid } 1 0o644 mtimeMs

def nestedForest : Forest :=
  .dir "docs" "d1" none (.file "a" "n1" (some (contentOf "o1" 1000)) .nil)
    (.file "b" "n2" (some (contentOf "o2" 5000)) .nil)

theorem nestedDrive_shown : nestedForest.Shown Reference.core nestedDrive [] :=
  ⟨⟨_, by decide, .rfl⟩, ⟨⟨_, by decide, .rfl⟩, trivial⟩, trivial⟩

def nestedFacts : List NodeFacts :=
  [{ nodeId := "n1", path := "/docs/a", size := 1, mtimeMs := 1000, kind := some "notes",
     locator := "blob:o1", tags := ["draft"], links := [("cites", "/b")],
     props := [("kind", "notes")] },
    { nodeId := "n2", path := "/b", size := 1, mtimeMs := 5000, kind := none,
      locator := "blob:o2", tags := [], links := [], props := [] }]

theorem nestedDrive_walked :
    ∃ facts, walkFacts Reference.core nestedDrive "/" = some facts ∧
      facts.Perm nestedFacts ∧ facts.Pairwise fun a b => a.path ≤ b.path :=
  walkFacts_tree nestedDrive_shown

end Corpus

end DriveServe
