import DriveServe.Corpus
import DriveServe.PathNames

set_option autoImplicit false

/-! What the walk over a drive notes: the files that paths lead to. -/

namespace DriveServe

open Corpus

variable {δ σ ε : Type}

namespace Corpus

/-- A file that the walk meets at or under a directory. -/
inductive Noted (core : SyncedDrive δ σ ε) (drive : δ) : (dir : String) → NodeFacts → Prop
  | file {dir : String} {entries : List DirEntry} {e : DirEntry} {content : FileContent}
      (listed : core.ls drive dir = .ok entries) (member : e ∈ entries) (plain : e.isDir = false)
      (filled : e.content = some content) :
      Noted core drive dir (factsOf core drive (childPath dir e.name) e.nodeId content)
  | beneath {dir : String} {entries : List DirEntry} {e : DirEntry} {f : NodeFacts}
      (listed : core.ls drive dir = .ok entries) (member : e ∈ entries) (isDir : e.isDir = true)
      (noted : Noted core drive (childPath dir e.name) f) : Noted core drive dir f

variable {core : SyncedDrive δ σ ε} {drive : δ}

theorem noted_iff {dir : String} {entries : List DirEntry}
    (listed : core.ls drive dir = .ok entries) (f : NodeFacts) :
    Noted core drive dir f ↔
      (∃ e ∈ entries, e.isDir = false ∧ ∃ content, e.content = some content ∧
        f = factsOf core drive (childPath dir e.name) e.nodeId content) ∨
      ∃ e ∈ entries, e.isDir = true ∧ Noted core drive (childPath dir e.name) f := by
  constructor
  · intro noted
    cases noted with
    | file listed' member plain filled =>
      cases listed.symm.trans listed'
      exact Or.inl ⟨_, member, plain, _, filled, rfl⟩
    | beneath listed' member isDir noted =>
      cases listed.symm.trans listed'
      exact Or.inr ⟨_, member, isDir, noted⟩
  · rintro (⟨e, member, plain, content, filled, rfl⟩ | ⟨e, member, isDir, noted⟩)
    · exact .file listed member plain filled
    · exact .beneath listed member isDir noted

theorem visit_eq (dir : String) (walk : List String × List NodeFacts) (e : DirEntry) :
    visit core drive dir walk e =
      if e.isDir then (childPath dir e.name :: walk.1, walk.2)
      else
        (walk.1, walk.2 ++ (e.content.map
          (factsOf core drive (childPath dir e.name) e.nodeId)).toList) := by
  unfold visit
  change (if e.isDir then (childPath dir e.name :: walk.1, walk.2) else _) = _
  split
  · rfl
  · cases e.content with
    | none => simp
    | some content => rfl

theorem mem_visits (dir : String) (entries : List DirEntry) (stack : List String)
    (out : List NodeFacts) :
    (∀ d, d ∈ (entries.foldl (visit core drive dir) (stack, out)).1 ↔
      d ∈ stack ∨ ∃ e ∈ entries, e.isDir = true ∧ d = childPath dir e.name) ∧
    (∀ f, f ∈ (entries.foldl (visit core drive dir) (stack, out)).2 ↔
      f ∈ out ∨ ∃ e ∈ entries, e.isDir = false ∧ ∃ content, e.content = some content ∧
        f = factsOf core drive (childPath dir e.name) e.nodeId content) := by
  induction entries generalizing stack out with
  | nil => simp
  | cons e rest ih =>
    rw [List.foldl_cons, visit_eq]
    cases kind : e.isDir with
    | true =>
      simp only [↓reduceIte, ih, List.mem_cons, exists_eq_or_imp, kind, true_and,
        Bool.true_eq_false, false_and, false_or, implies_true, and_true]
      intro d
      rw [or_assoc, or_left_comm]
    | false =>
      have noted : ∀ f,
          f ∈ (e.content.map (factsOf core drive (childPath dir e.name) e.nodeId)).toList ↔
          ∃ content, e.content = some content ∧
            f = factsOf core drive (childPath dir e.name) e.nodeId content := by
        intro f
        rw [Option.mem_toList, Option.map_eq_some_iff]
        exact exists_congr fun content => and_congr_right fun _ => eq_comm
      simp only [Bool.false_eq_true, ↓reduceIte, ih, List.mem_append, noted, List.mem_cons,
        exists_eq_or_imp, kind, true_and, false_and, false_or, or_assoc, implies_true, and_self]

/-- The walk notes what stands there and the files it meets under its stack. -/
theorem mem_walk {stack : List String} {out result : List NodeFacts}
    (walked : core.walk drive stack out = some result) (f : NodeFacts) :
    f ∈ result ↔ f ∈ out ∨ ∃ dir ∈ stack, Noted core drive dir f := by
  revert f
  apply SyncedDrive.walk.partial_correctness core drive
    (fun stack out result => ∀ f, f ∈ result ↔ f ∈ out ∨ ∃ dir ∈ stack, Noted core drive dir f)
    ?_ stack out result walked
  intro walk ih stack out result walked f
  cases stack with
  | nil =>
    cases walked
    simp
  | cons dir stack =>
    dsimp only at walked
    cases listed : core.ls drive dir with
    | error e =>
      rw [listed] at walked
      have nothing : ¬ Noted core drive dir f := by
        intro noted
        cases noted with
        | file found | beneath found =>
          rw [listed] at found
          cases found
      simp only [ih _ _ _ walked f, List.mem_cons, exists_eq_or_imp, nothing, false_or]
    | ok entries =>
      rw [listed] at walked
      have ⟨pushed, added⟩ := @mem_visits _ _ _ core drive dir entries stack out
      rw [ih _ _ _ walked f, added f]
      simp only [pushed, List.mem_cons, exists_eq_or_imp, noted_iff listed]
      constructor
      · rintro ((before | here) | ⟨d, among | ⟨e, member, isDir, rfl⟩, noted⟩)
        · exact Or.inl before
        · exact Or.inr (Or.inl (Or.inl here))
        · exact Or.inr (Or.inr ⟨d, among, noted⟩)
        · exact Or.inr (Or.inl (Or.inr ⟨e, member, isDir, noted⟩))
      · rintro (before | (here | ⟨e, member, isDir, noted⟩) | ⟨d, among, noted⟩)
        · exact Or.inl (Or.inl before)
        · exact Or.inl (Or.inr here)
        · exact Or.inr ⟨_, Or.inr ⟨e, member, isDir, rfl⟩, noted⟩
        · exact Or.inr ⟨d, Or.inl among, noted⟩

theorem mem_walkFacts {path : String} {facts : List NodeFacts}
    (walked : walkFacts core drive path = some facts) (f : NodeFacts) :
    f ∈ facts ↔ Noted core drive path f := by
  obtain ⟨out, found, rfl⟩ := Option.map_eq_some_iff.mp walked
  rw [List.mem_insertionSort, mem_walk found]
  simp

end Corpus

/-- What is relied on of the drive as a tree: paths are resolved by their names, a
directory lists what its names lead to, a node hangs under directories and in one place. -/
structure SyncedDrive.Tree (core : SyncedDrive δ σ ε) : Prop where
  names : ∀ drive path path', pathNames path = pathNames path' →
    core.resolve drive path = core.resolve drive path'
  listed : ∀ drive dir entries e, core.ls drive dir = .ok entries → e ∈ entries →
    Proper e.name ∧ nodeAt core drive (childPath dir e.name) =
      some { nodeId := e.nodeId, kind := some (if e.isDir then .dir else .file),
             content := e.content, info := core.metaOf drive e.nodeId }
  lists : ∀ drive dir name view, Proper name →
    nodeAt core drive (childPath dir name) = some view →
      ∃ entries, core.ls drive dir = .ok entries ∧ ∃ e ∈ entries, e.name = name
  root : ∀ drive view, nodeAt core drive "/" = some view → view.kind ≠ some .file
  parent : ∀ drive dir name view, Proper name → pathNames dir ≠ [] →
    nodeAt core drive (childPath dir name) = some view →
      ∃ above, nodeAt core drive dir = some above ∧ above.kind = some .dir
  placed : ∀ drive path path' view view', nodeAt core drive path = some view →
    nodeAt core drive path' = some view' → view.nodeId = view'.nodeId →
      pathNames path = pathNames path'

/-- What is relied on of the mutations: only adding a file sets a time, that of the
content it is given, and it leaves the other files; any other call leaves a node its id
and its content's time. -/
structure SyncedDrive.KeepsTimes (core : SyncedDrive δ σ ε) : Prop where
  stamped : ∀ locator size mode mtimeMs,
    (core.newContent locator size mode mtimeMs).mtimeMs = mtimeMs
  fresh : ∀ path view, nodeAt core core.fresh path = some view → view.content = none
  added : ∀ env drive parent name content path view held,
    nodeAt core (core.call env drive (.addFile parent name content)).2 path = some view →
      view.content = some held →
        held.mtimeMs = content.mtimeMs ∨ nodeAt core drive path = some view
  kept : ∀ env drive call path view held,
    (∀ parent name content, call ≠ .addFile parent name content) →
      nodeAt core (core.call env drive call).2 path = some view → view.content = some held →
        ∃ path' view' held', nodeAt core drive path' = some view' ∧ view'.nodeId = view.nodeId ∧
          view'.content = some held' ∧ held'.mtimeMs = held.mtimeMs

def pathText (names : List String) : String := names.foldl childPath "/"

theorem pathText_concat (front : List String) (last : String) :
    pathText (front ++ [last]) = childPath (pathText front) last := by
  rw [pathText, List.foldl_concat, ← pathText]

theorem pathNames_pathText {names : List String} (proper : ∀ name ∈ names, Proper name) :
    pathNames (pathText names) = names := by
  induction names using List.reverseRecOn with
  | nil => exact pathNames_root
  | append_singleton front last ih =>
    have before := ih fun name member => proper name (List.mem_append_left _ member)
    have here := pathNames_proper (proper last (by simp))
    rw [pathText_concat, pathNames_childPath, before, here]

variable {core : SyncedDrive δ σ ε} {drive : δ}

theorem nodeAt_names (tree : core.Tree) {path path' : String}
    (same : pathNames path = pathNames path') :
    nodeAt core drive path = nodeAt core drive path' := by
  rw [nodeAt, nodeAt, tree.names drive path path' same]

theorem nodeAt_info {path : String} {view : NodeView} (found : nodeAt core drive path = some view) :
    core.metaOf drive view.nodeId = view.info := by
  obtain ⟨_, _, rfl⟩ := Option.map_eq_some_iff.mp found
  rfl

namespace Corpus

/-- The facts of a file that a path leads to. -/
structure FileAt (core : SyncedDrive δ σ ε) (drive : δ) (names : List String) (view : NodeView)
    (content : FileContent) (f : NodeFacts) : Prop where
  proper : ∀ name ∈ names, Proper name
  found : nodeAt core drive (pathText names) = some view
  file : view.kind = some .file
  filled : view.content = some content
  facts : f = factsOf core drive (pathText names) view.nodeId content

theorem noted_fileAt (tree : core.Tree) {dir : String} {f : NodeFacts}
    (noted : Noted core drive dir f) {names : List String} (proper : ∀ name ∈ names, Proper name)
    (here : dir = pathText names) :
    ∃ names view content, FileAt core drive names view content f := by
  induction noted generalizing names with
  | @file dir entries e content listed member plain filled =>
    have ⟨properName, found⟩ := tree.listed _ _ _ _ listed member
    rw [plain] at found
    have path : childPath dir e.name = pathText (names ++ [e.name]) := by
      rw [here, pathText_concat]
    rw [path] at found
    refine ⟨names ++ [e.name], _, content, ?_, found, rfl, filled, by rw [path]⟩
    intro name among
    rcases List.mem_append.mp among with before | last
    · exact proper name before
    · exact List.mem_singleton.mp last ▸ properName
  | @beneath dir entries e f listed member isDir noted ih =>
    have ⟨properName, _⟩ := tree.listed _ _ _ _ listed member
    apply @ih (names ++ [e.name])
    · intro name among
      rcases List.mem_append.mp among with before | last
      · exact proper name before
      · exact List.mem_singleton.mp last ▸ properName
    · rw [here, pathText_concat]

theorem noted_from_root (tree : core.Tree) {names : List String}
    (proper : ∀ name ∈ names, Proper name) {f : NodeFacts}
    (present : names ≠ [] → ∃ view, nodeAt core drive (pathText names) = some view ∧
      view.kind = some .dir)
    (noted : Noted core drive (pathText names) f) : Noted core drive "/" f := by
  induction names using List.reverseRecOn with
  | nil => exact noted
  | append_singleton front last ih =>
    have before : ∀ name ∈ front, Proper name := fun name member =>
      proper name (List.mem_append_left _ member)
    have properLast : Proper last := proper last (by simp)
    have ⟨view, found, isDir⟩ := present (by simp)
    rw [pathText_concat] at found noted
    obtain ⟨entries, listed, e, member, rfl⟩ := tree.lists _ _ _ _ properLast found
    have ⟨_, same⟩ := tree.listed _ _ _ _ listed member
    rw [found] at same
    have kind : e.isDir = true := by
      rw [Option.some.inj same] at isDir
      cases plain : e.isDir with
      | true => rfl
      | false => simp [plain] at isDir
    apply ih before
    · intro deep
      have deeper : pathNames (pathText front) ≠ [] := by rwa [pathNames_pathText before]
      exact tree.parent _ _ _ _ properLast deeper found
    · exact .beneath listed member kind noted

theorem fileAt_noted (tree : core.Tree) {names : List String} {view : NodeView}
    {content : FileContent} {f : NodeFacts} (at' : FileAt core drive names view content f) :
    Noted core drive "/" f := by
  obtain ⟨proper, found, file, filled, rfl⟩ := at'
  cases names using List.reverseRecOn with
  | nil => exact absurd file (tree.root _ _ found)
  | append_singleton front last =>
    have before : ∀ name ∈ front, Proper name := fun name member =>
      proper name (List.mem_append_left _ member)
    have properLast : Proper last := proper last (by simp)
    rw [pathText_concat] at found ⊢
    obtain ⟨entries, listed, e, member, rfl⟩ := tree.lists _ _ _ _ properLast found
    have ⟨_, same⟩ := tree.listed _ _ _ _ listed member
    rw [found] at same
    have view' := Option.some.inj same
    rw [view'] at file filled ⊢
    have plain : e.isDir = false := by
      cases isDir : e.isDir with
      | true => simp [isDir] at file
      | false => rfl
    apply noted_from_root tree before
    · intro deep
      have deeper : pathNames (pathText front) ≠ [] := by rwa [pathNames_pathText before]
      exact tree.parent _ _ _ _ properLast deeper found
    · exact .file listed member plain filled

theorem mem_walkFacts_root (tree : core.Tree) {facts : List NodeFacts}
    (walked : walkFacts core drive "/" = some facts) (f : NodeFacts) :
    f ∈ facts ↔ ∃ names view content, FileAt core drive names view content f := by
  rw [mem_walkFacts walked]
  constructor
  · intro noted
    exact @noted_fileAt _ _ _ core drive tree "/" f noted [] (by simp) rfl
  · intro ⟨names, view, content, at'⟩
    exact fileAt_noted tree at'

/-- No two notes are about one node. -/
theorem walkFacts_distinct (tree : core.Tree) {facts : List NodeFacts}
    (walked : walkFacts core drive "/" = some facts) :
    ∀ f ∈ facts, ∀ g ∈ facts, f.nodeId = g.nodeId → f = g := by
  intro f noted g noted' same
  obtain ⟨names, view, content, at'⟩ := (mem_walkFacts_root tree walked f).mp noted
  obtain ⟨names', view', content', other⟩ := (mem_walkFacts_root tree walked g).mp noted'
  have ids : view.nodeId = view'.nodeId := by
    rw [at'.facts, other.facts] at same
    exact same
  have path := tree.placed _ _ _ _ _ at'.found other.found ids
  rw [pathNames_pathText at'.proper, pathNames_pathText other.proper] at path
  subst path
  have views := Option.some.inj (at'.found.symm.trans other.found)
  subst views
  have contents := Option.some.inj (at'.filled.symm.trans other.filled)
  subst contents
  exact at'.facts.trans other.facts.symm

end Corpus

end DriveServe
