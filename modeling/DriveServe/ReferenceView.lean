import DriveServe.PathNames
import DriveServe.ReferenceDrive

set_option autoImplicit false

/-! What the reference drive shows at and under a scope. The nodes kept elsewhere are
not seen there and have no say in what a mutation does there. -/

namespace DriveServe.Reference

open DriveServe

/-- A name as paths are made of. -/
def Proper (name : String) : Prop := name ≠ "" ∧ '/' ∉ name.toList

theorem proper_of_mem_names {path name : String} (member : name ∈ names path) : Proper name :=
  proper_of_mem_pathNames member

theorem names_append (front back : String) :
    names (front ++ "/" ++ back) = names front ++ names back := pathNames_append front back

theorem names_proper {name : String} (proper : Proper name) : names name = [name] :=
  pathNames_proper proper

theorem pathOf_concat (front : List String) (last : String) :
    pathOf (front ++ [last]) = pathOf front ++ "/" ++ last := by
  simp [pathOf, List.foldl_append]

theorem names_pathOf (segments : List String) :
    names (pathOf segments) = segments.flatMap names := by
  induction segments using List.reverseRecOn with
  | nil => decide
  | append_singleton front last ih =>
    rw [pathOf_concat, names_append, ih, List.flatMap_append, List.flatMap_singleton]

theorem flatMap_names {segments : List String} (proper : ∀ name ∈ segments, Proper name) :
    segments.flatMap names = segments := by
  induction segments with
  | nil => rfl
  | cons first rest ih =>
    rw [List.flatMap_cons, names_proper (proper first List.mem_cons_self),
      ih fun name member => proper name (List.mem_cons_of_mem _ member)]
    rfl

theorem names_canonical (path : String) : names (pathOf (names path)) = names path := by
  rw [names_pathOf, flatMap_names fun _ member => proper_of_mem_names member]

theorem childPath_cut (parent name : String) :
    ∃ dir, childPath parent name = dir ++ "/" ++ name ∧ names dir = names parent := by
  unfold childPath
  by_cases root : parent = "/"
  · refine ⟨"", ?_, ?_⟩
    · simp [root]
    · rw [root]
      decide
  · exact ⟨parent, by simp [root], rfl⟩

theorem names_childPath {parent name : String} (proper : Proper name) :
    names (childPath parent name) = names parent ++ [name] := by
  have split : names (childPath parent name) = names parent ++ names name :=
    pathNames_childPath parent name
  rw [split, names_proper proper]

theorem names_joined (parent name : String) :
    names (joined parent name) = names (childPath parent name) := by
  have split : names (childPath parent name) = names parent ++ names name :=
    pathNames_childPath parent name
  rw [split, joined, pathOf_concat, names_append, names_canonical]

theorem joined_canonical {parent name : String} (proper : Proper name) :
    joined parent name = pathOf (names (joined parent name)) := by
  rw [names_joined, names_childPath proper]
  rfl

theorem find_congr {path path' : String} (same : names path = names path') (drive : FileDrive) :
    find drive path = find drive path' := by
  simp only [find, same]

theorem pathOf_initial {short long : List String} (initial : short <+: long) :
    (pathOf short).toList <+: (pathOf long).toList := by
  obtain ⟨rest, rfl⟩ := initial
  induction rest using List.reverseRecOn with
  | nil => simp
  | append_singleton rest last ih =>
    rw [← List.append_assoc, pathOf_concat, String.toList_append, String.toList_append]
    exact ih.trans ((List.prefix_append _ _).trans (List.prefix_append _ _))

theorem names_initial {scope path : String} (inside : Under scope path) :
    names scope <+: names path := pathNames_initial inside

/-- What is put strictly beneath a scope goes into a directory at or under it. -/
theorem parent_initial {scope parent name : String} (proper : Proper name)
    (deeper : startsWith (childPath parent name) (scope ++ "/") = true) :
    names scope <+: names parent := by
  obtain ⟨dir, cut, same⟩ := childPath_cut parent name
  rw [← same]
  have whole : scope.toList ++ ['/'] <+: dir.toList ++ ['/'] ++ name.toList := by
    have starts := (startsWith_iff ..).mp deeper
    rw [cut] at starts
    simpa [String.toList_append] using starts
  have below : scope.toList = dir.toList ∨ scope.toList ++ ['/'] <+: dir.toList := by
    rcases List.prefix_or_prefix_of_prefix whole (List.prefix_append _ _) with short | long
    · rcases List.prefix_concat_iff.mp short with equal | shorter
      · exact Or.inl (List.append_cancel_right equal)
      · exact Or.inr shorter
    · rcases List.prefix_concat_iff.mp long with equal | ⟨more, extended⟩
      · exact Or.inl (List.append_cancel_right equal).symm
      · -- the slash behind the scope would lie inside the name
        rw [← extended, List.append_assoc, List.prefix_append_right_inj] at whole
        exact absurd (whole.subset (by simp)) proper.2
  have segments := (@Segments.splitOn_prefix_iff _ _ '/' scope.toList dir.toList).mpr below
  exact (segments.map String.ofList).filter _

/-- A node that some path at or under the scope leads to or lists. -/
def shown (scope : String) (node : FileNode) : Bool :=
  decide ((pathOf (names scope)).toList <+: node.path.toList ∨ names scope <+: names node.path)

/-- What a drive shows at and under the scope. -/
def view (scope : String) (drive : FileDrive) : FileDrive := drive.filter (shown scope)

variable {scope path parent name fresh : String} {drive : FileDrive}

theorem shown_at {node : FileNode} (inside : names scope <+: names path)
    (place : node.path = pathOf (names path)) : shown scope node = true := by
  apply decide_eq_true
  rw [place]
  exact Or.inl (pathOf_initial inside)

theorem find_view (inside : names scope <+: names path) :
    find (view scope drive) path = find drive path := by
  unfold find view
  rw [List.find?_filter]
  apply congrArg (fun test => drive.find? test)
  funext node
  by_cases place : node.path = pathOf (names path)
  · simp [shown_at inside place, place]
  · simp [place]

theorem isDirectory_view (inside : names scope <+: names path) :
    isDirectory (view scope drive) path = isDirectory drive path := by
  simp only [isDirectory, find_view inside]

theorem ls_view (inside : names scope <+: names path) :
    ls (view scope drive) path = ls drive path := by
  have lines : (view scope drive).filter (fun node => (names node.path).dropLast == names path) =
      drive.filter fun node => (names node.path).dropLast == names path := by
    unfold view
    rw [List.filter_filter]
    apply congrArg (fun test => drive.filter test)
    funext node
    by_cases listed : (names node.path).dropLast = names path
    · have below : names scope <+: names node.path :=
        (listed ▸ inside).trans (List.dropLast_prefix _)
      simp [listed, shown, below]
    · simp [listed]
  simp only [ls, isDirectory_view inside, lines]

/-- Every node has an id of its own. -/
def Unique (drive : FileDrive) : Prop := (drive.map FileNode.id).Nodup

instance (drive : FileDrive) : Decidable (Unique drive) :=
  inferInstanceAs (Decidable (List.Nodup _))

theorem unique_view (unique : Unique drive) : Unique (view scope drive) :=
  unique.sublist (List.filter_sublist.map _)

theorem find?_of_mem {α : Type} {key : α → String} {l : List α} (distinct : (l.map key).Nodup)
    {a : α} (member : a ∈ l) : l.find? (fun b => key b == key a) = some a := by
  induction l with
  | nil => cases member
  | cons head rest ih =>
    obtain ⟨apart, distinct⟩ := List.nodup_cons.mp distinct
    rw [List.find?_cons]
    rcases List.mem_cons.mp member with rfl | later
    · simp
    · have differ : (key head == key a) = false := by
        rw [beq_eq_false_iff_ne]
        intro same
        exact apart (same ▸ List.mem_map_of_mem later)
      rw [differ]
      exact ih distinct later

theorem byId_of_mem (unique : Unique drive) {node : FileNode} (member : node ∈ drive) :
    byId drive node.id = some node := find?_of_mem unique member

theorem byId_view (unique : Unique drive) {node : FileNode} (member : node ∈ view scope drive) :
    byId (view scope drive) node.id = byId drive node.id := by
  rw [byId_of_mem unique (List.mem_of_mem_filter member),
    byId_of_mem (unique_view unique) member]

/-- At and under the scope a drive shows no more than its view. -/
theorem agree_view (named : names scope ≠ []) (unique : Unique drive) :
    AgreeUnder core scope (view scope drive) drive := by
  have initial : ∀ {path}, Under scope path → names scope <+: names path :=
    fun inside => names_initial inside
  have deep : ∀ {path}, Under scope path → names path ≠ [] := by
    intro path inside empty
    have shorter := initial inside
    rw [empty, List.prefix_nil] at shorter
    exact named shorter
  have resolved : ∀ path node, Under scope path → resolve (view scope drive) path = some node →
      byId (view scope drive) node = byId drive node := by
    intro path node inside found
    rw [resolve, if_neg (deep inside)] at found
    obtain ⟨entry, present, rfl⟩ := Option.map_eq_some_iff.mp found
    exact byId_view unique (List.mem_of_find?_eq_some present)
  constructor
  case resolve =>
    intro path inside
    change resolve (view scope drive) path = resolve drive path
    rw [resolve, resolve, find_view (initial inside)]
  case contentOf =>
    intro path node inside found
    change (byId (view scope drive) node).bind _ = (byId drive node).bind _
    rw [resolved path node inside found]
  case edgeKind =>
    intro path node inside found
    change (byId (view scope drive) node).map _ = (byId drive node).map _
    rw [resolved path node inside found]
  case metaOf =>
    intro path node inside found
    change (byId (view scope drive) node).map _ = (byId drive node).map _
    rw [resolved path node inside found]
  case ls =>
    intro path inside
    exact congrArg Except.toOption (ls_view (initial inside))
  case listed =>
    intro path entries inside listed e member
    change (byId (view scope drive) e.nodeId).bind _ = (byId drive e.nodeId).bind _
    have listed : ls (view scope drive) path = .ok entries := listed
    unfold ls at listed
    split at listed
    · cases listed
      obtain ⟨node, present, rfl⟩ := List.mem_map.mp member
      rw [byId_view unique (List.mem_of_mem_filter present)]
    · cases listed

/-- The outcome of a mutation, seen through the scope. -/
def seen (scope : String) (outcome : Except String (String × FileDrive)) :
    Except String (String × FileDrive) :=
  outcome.map fun (answer, after) => (answer, view scope after)

theorem view_map {change : FileNode → FileNode}
    (kept : ∀ node, shown scope (change node) = shown scope node) :
    view scope (drive.map change) = (view scope drive).map change := by
  unfold view
  rw [List.filter_map]
  apply congrArg (List.map change)
  apply List.filter_congr
  intro node _
  simp only [Function.comp, kept]

theorem updated_view (inside : names scope <+: names path) {change : FileNode → FileNode}
    (keeps : ∀ node, (change node).path = node.path) :
    updated (view scope drive) path change = seen scope (updated drive path change) := by
  unfold updated
  rw [find_view inside]
  split
  · simp only [seen, Except.map]
    rw [view_map]
    intro node
    split
    · simp only [shown, keeps]
    · rfl
  · rfl

/-- A place a mutation puts a node at, as the drive has it. -/
structure Place (scope : String) (drive : FileDrive) (parent name : String) : Prop where
  proper : Proper name
  inside : Under scope (childPath parent name)
  rooted : childPath parent name ≠ scope ∨ (find drive scope).isSome

theorem Place.initial (place : Place scope drive parent name) :
    names scope <+: names (joined parent name) := by
  rw [names_joined ..]
  exact names_initial place.inside

/-- Where a place in the scope is free, the directory it is in is shown as it is. -/
theorem Place.directory (top : scope ≠ "/") (place : Place scope drive parent name)
    (free : find drive (joined parent name) = none) :
    isDirectory (view scope drive) parent = isDirectory drive parent := by
  rcases place.inside with root | same | deeper
  · exact absurd root top
  · rw [find_congr (names_joined ..), same] at free
    rcases place.rooted with apart | present
    · exact absurd same apart
    · rw [free] at present
      cases present
  · exact isDirectory_view (parent_initial place.proper deeper)

theorem created_view (top : scope ≠ "/") (place : Place scope drive parent name) (kind : NodeKind)
    (content : Option FileContent) :
    created (view scope drive) parent name fresh kind content =
      seen scope (created drive parent name fresh kind content) := by
  have beneath := place.initial
  unfold created
  rw [find_view beneath]
  cases free : find drive (joined parent name) with
  | some node => rfl
  | none =>
    dsimp only
    rw [place.directory top free]
    split
    · have put : ∀ node : FileNode, node.path = joined parent name →
          view scope (drive ++ [node]) = view scope drive ++ [node] := by
        intro node here
        have visible : shown scope node = true :=
          shown_at beneath (here.trans (joined_canonical place.proper))
        simp [view, List.filter_append, visible]
      simp only [seen, Except.map, put]
    · rfl

theorem addFile_view (top : scope ≠ "/") (place : Place scope drive parent name)
    (content : FileContent) :
    attempt fresh (view scope drive) (.addFile parent name content) =
      seen scope (attempt fresh drive (.addFile parent name content)) := by
  have beneath := place.initial
  simp only [attempt, find_view beneath]
  cases taken : find drive (joined parent name) with
  | none => exact created_view top place _ _
  | some node =>
    have canonical : node.path = pathOf (names (joined parent name)) := by
      simpa using List.find?_some taken
    have under : names scope <+: names node.path := by
      rw [canonical, names_canonical]
      exact beneath
    have same := @updated_view scope node.path drive under
      (fun found => { found with content := some content }) fun _ => rfl
    dsimp only
    rw [same]
    cases updated drive node.path fun found => { found with content := some content } <;> rfl

theorem mv_view (top : scope ≠ "/") (source : names scope <+: names path)
    (place : Place scope drive parent name) :
    attempt fresh (view scope drive) (.mv path parent name) =
      seen scope (attempt fresh drive (.mv path parent name)) := by
  have target : names scope <+: names parent ++ [name] := by
    rw [← names_childPath place.proper]
    exact names_initial place.inside
  have kept : ∀ node, shown scope (if within path node then
      { node with path := pathOf (names parent ++ name :: below path node) } else node) =
        shown scope node := by
    intro node
    split
    · rename_i moved
      have before : names scope <+: names node.path :=
        source.trans (List.isPrefixOf_iff_prefix.mp moved)
      have after : (pathOf (names scope)).toList <+:
          (pathOf (names parent ++ name :: below path node)).toList := by
        apply pathOf_initial
        have longer := target.trans (List.prefix_append _ (below path node))
        simpa using longer
      simp [shown, before, after]
    · rfl
  simp only [attempt, find_view source, find_view (place.initial)]
  cases taken : find drive (joined parent name) with
  | some node => simp [seen, Except.map]
  | none =>
    rw [place.directory top taken]
    split
    · simp only [seen, Except.map, view_map kept]
    · rfl

/-- Seen through the scope, a mutation inside it does what it does on the view. -/
theorem attempt_view (top : scope ≠ "/") (named : names scope ≠ []) {call : DriveCall}
    (inside : call.Inside core scope (view scope drive)) :
    attempt fresh (view scope drive) call = seen scope (attempt fresh drive call) := by
  have initial : ∀ {path}, path ∈ call.paths → names scope <+: names path :=
    fun member => names_initial (inside.paths _ member)
  have place : ∀ {parent name}, call.puts = some (parent, name) →
      childPath parent name ∈ call.paths → Place scope drive parent name := by
    intro parent name put member
    refine ⟨inside.proper parent name put, inside.paths _ member, ?_⟩
    rcases inside.rooted parent name put with apart | present
    · exact Or.inl apart
    · change (resolve (view scope drive) scope).isSome = true at present
      rw [resolve, if_neg named, find_view List.prefix_rfl, Option.isSome_map] at present
      exact Or.inr present
  cases call with
  | addFile parent name content => exact addFile_view top (place rfl (by simp [DriveCall.paths])) _
  | mkdir parent name => exact created_view top (place rfl (by simp [DriveCall.paths])) _ _
  | mv path toParent toName =>
    have source : names scope <+: names path := initial (by simp [DriveCall.paths])
    exact mv_view top source (place rfl (by simp [DriveCall.paths]))
  | rm path =>
    have source : names scope <+: names path := initial (by simp [DriveCall.paths])
    simp only [attempt, find_view source]
    split
    · simp only [seen, Except.map, view, List.filter_filter, Bool.and_comm]
    · rfl
  | setProp | unsetProp | addTag | removeTag | link | unlink =>
    exact updated_view (initial (by simp [DriveCall.paths])) fun _ => rfl

/-- What a mutation that is done makes of the drive. -/
inductive Done (fresh : String) (drive : FileDrive) : DriveCall → String → FileDrive → Prop
  | filled {parent name : String} {content : FileContent} {node : FileNode}
      (taken : find drive (joined parent name) = some node) :
      Done fresh drive (.addFile parent name content) node.id
        (drive.map fun other => if other.path = pathOf (names node.path) then
          { other with content := some content } else other)
  | added {parent name : String} {content : FileContent}
      (vacant : find drive (joined parent name) = none) (there : isDirectory drive parent) :
      Done fresh drive (.addFile parent name content) fresh (drive ++
        [{ path := joined parent name, id := fresh, kind := .file, content := some content,
           info := noMeta }])
  | made {parent name : String} (vacant : find drive (joined parent name) = none)
      (there : isDirectory drive parent) :
      Done fresh drive (.mkdir parent name) fresh (drive ++
        [{ path := joined parent name, id := fresh, kind := .dir, content := none,
           info := noMeta }])
  | moved {path toParent toName : String} (found : (find drive path).isSome)
      (there : isDirectory drive toParent) (vacant : find drive (joined toParent toName) = none) :
      Done fresh drive (.mv path toParent toName) "" (drive.map fun node =>
        if within path node then
          { node with path := pathOf (names toParent ++ toName :: below path node) }
        else node)
  | removed {path : String} (found : (find drive path).isSome) :
      Done fresh drive (.rm path) "" (drive.filter fun node => !within path node)
  | described {call : DriveCall} {path : String} (change : FileNode → NodeMeta)
      (target : call.paths = [path])
      (other : ∀ parent name content, call ≠ .addFile parent name content)
      (found : (find drive path).isSome) :
      Done fresh drive call "" (drive.map fun node => if node.path = pathOf (names path) then
        { node with info := change node } else node)

theorem updated_eq_ok {change : FileNode → FileNode} {answer : String} {after : FileDrive}
    (made : updated drive path change = .ok (answer, after)) :
    (find drive path).isSome ∧ answer = "" ∧ after = drive.map fun node =>
      if node.path = pathOf (names path) then change node else node := by
  unfold updated at made
  split at made
  · rename_i found
    obtain ⟨rfl, rfl⟩ := Prod.mk.inj (Except.ok.inj made)
    exact ⟨found, rfl, rfl⟩
  · cases made

theorem created_eq_ok {kind : NodeKind} {content : Option FileContent} {answer : String}
    {after : FileDrive}
    (made : created drive parent name fresh kind content = .ok (answer, after)) :
    find drive (joined parent name) = none ∧ isDirectory drive parent ∧ answer = fresh ∧
      after = drive ++
        [{ path := joined parent name, id := fresh, kind, content, info := noMeta }] := by
  unfold created at made
  split at made
  · cases made
  · rename_i vacant
    split at made
    · rename_i there
      obtain ⟨rfl, rfl⟩ := Prod.mk.inj (Except.ok.inj made)
      exact ⟨vacant, there, rfl, rfl⟩
    · cases made

theorem done_of_attempt {call : DriveCall} {answer : String} {after : FileDrive}
    (made : attempt fresh drive call = .ok (answer, after)) :
    Done fresh drive call answer after := by
  cases call with
  | addFile parent name content =>
    simp only [attempt] at made
    split at made
    · rename_i node taken
      obtain ⟨⟨_, done⟩, wrote, shape⟩ := (Outcome.map_eq_ok_iff ..).mp made
      obtain ⟨rfl, rfl⟩ := Prod.mk.inj shape
      obtain ⟨_, _, rfl⟩ := updated_eq_ok wrote
      exact .filled taken
    · obtain ⟨vacant, there, rfl, rfl⟩ := created_eq_ok made
      exact .added vacant there
  | mkdir parent name =>
    obtain ⟨vacant, there, rfl, rfl⟩ := created_eq_ok made
    exact .made vacant there
  | mv path toParent toName =>
    simp only [attempt] at made
    split at made
    · rename_i able
      obtain ⟨rfl, rfl⟩ := Prod.mk.inj (Except.ok.inj made)
      exact .moved able.1 able.2.1 (Option.isNone_iff_eq_none.mp able.2.2)
    · cases made
  | rm path =>
    simp only [attempt] at made
    split at made
    · rename_i found
      obtain ⟨rfl, rfl⟩ := Prod.mk.inj (Except.ok.inj made)
      exact .removed found
    · cases made
  | setProp | unsetProp | addTag | removeTag | link | unlink =>
    obtain ⟨found, rfl, rfl⟩ := updated_eq_ok made
    exact .described _ rfl (fun _ _ _ => nofun) found

theorem map_ids {change : FileNode → FileNode} (keeps : ∀ node, (change node).id = node.id) :
    (drive.map change).map FileNode.id = drive.map FileNode.id := by
  rw [List.map_map]
  apply List.map_congr_left
  intro node _
  exact keeps node

/-- A mutation brings at most the fresh id with it. -/
theorem Done.ids {call : DriveCall} {answer : String} {after : FileDrive}
    (done : Done fresh drive call answer after) :
    (after.map FileNode.id).Sublist (drive.map FileNode.id ++ [fresh]) := by
  cases done with
  | filled | moved | described =>
    rw [map_ids]
    · exact List.sublist_append_left _ _
    · intro node
      split <;> rfl
  | added | made => rw [List.map_append, List.map_singleton]
  | removed => exact (List.filter_sublist.map _).trans (List.sublist_append_left _ _)

theorem find_map {change : FileNode → FileNode} (keeps : ∀ node, (change node).path = node.path) :
    find (drive.map change) path = (find drive path).map change := by
  unfold find
  rw [List.find?_map]
  congr 2
  funext node
  simp only [Function.comp, keeps]

/-- A file just put is found under the id that was answered. -/
theorem addFile_found (proper : Proper name) {content : FileContent} {answer : String}
    {after : FileDrive} (done : Done fresh drive (.addFile parent name content) answer after) :
    resolve after (childPath parent name) = some answer := by
  have deep : names (childPath parent name) ≠ [] := by simp [names_childPath proper]
  have canonical := @joined_canonical parent name proper
  rw [resolve, if_neg deep, ← find_congr (names_joined ..) after]
  cases done with
  | filled taken =>
    rw [find_map, taken, Option.map_some, Option.map_some]
    · split <;> rfl
    · intro other
      split <;> rfl
  | added vacant there =>
    unfold find at vacant ⊢
    rw [List.find?_append, vacant, Option.none_or]
    simp [← canonical]
  | described change target other found => exact absurd rfl (other parent name content)

theorem core_localAt (top : scope ≠ "/") (named : names scope ≠ [])
    (unique : (drive.map FileNode.id ++ [fresh]).Nodup) :
    core.LocalAt (some fresh) scope (view scope drive) drive where
  answer made inside := by
    change (call (some fresh) (view scope drive) made).1 = (call (some fresh) drive made).1
    simp only [call, attempt_view top named inside]
    cases attempt fresh drive made <;> rfl
  agree made inside := by
    change AgreeUnder core scope (call (some fresh) (view scope drive) made).2
      (call (some fresh) drive made).2
    simp only [call, attempt_view top named inside]
    cases done : attempt fresh drive made with
    | error e => exact agree_view named (List.nodup_append.mp unique).1
    | ok outcome => exact agree_view named (unique.sublist ((done_of_attempt done).ids))
  found parent name content answer after inside made := by
    change call (some fresh) (view scope drive) (.addFile parent name content) = _ at made
    simp only [call] at made
    split at made
    · cases made
    · rename_i done
      obtain ⟨same, rfl⟩ := Prod.mk.inj made
      cases same
      exact addFile_found (inside.proper parent name rfl) (done_of_attempt done)

end DriveServe.Reference
