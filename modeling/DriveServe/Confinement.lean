import DriveServe.Calls
import DriveServe.ReferenceView

set_option autoImplicit false

/-! Mutations stay inside the granted subtree: what the gate compared as text is where
the handlers act, and what a handler does not name it leaves. -/

namespace DriveServe

section

variable {δ σ ε : Type}

/-- In this state a mutation changes what is at the paths it names, or beneath them, and
nothing else. -/
def SyncedDrive.ChangesNamed (core : SyncedDrive δ σ ε) (env : ε) (drive : δ) : Prop :=
  ∀ (call : DriveCall) (path : String),
    (∀ place ∈ call.paths, ¬ pathNames place <+: pathNames path) →
      nodeAt core (core.call env drive call).2 path = nodeAt core drive path

variable {core : SyncedDrive δ σ ε}

theorem Makes.paths {nowMs : Nat} {op : DriveOp} {call : DriveCall}
    (makes : Makes core nowMs op call) :
    ∀ place ∈ call.paths, ∃ path ∈ opPaths op, place = normPath path := by
  cases makes with
  | write split objectCid size baseEtag | mkdir split =>
    intro place member
    rw [List.mem_singleton.mp member]
    exact ⟨_, List.mem_singleton_self _, splitPath_child split⟩
  | move split src =>
    intro place member
    rcases List.mem_cons.mp member with source | target
    · exact ⟨src, mem_opPaths_of_source rfl, source⟩
    · rw [List.mem_singleton.mp target]
      exact ⟨_, mem_opPaths_of_target rfl, splitPath_child split⟩
  | copy split src =>
    intro place member
    rw [List.mem_singleton.mp member]
    exact ⟨_, mem_opPaths_of_target rfl, splitPath_child split⟩
  | delete path recursive =>
    intro place member
    exact ⟨path, List.mem_singleton_self _, List.mem_singleton.mp member⟩
  | silent verb =>
    have at' : ∀ {path : String} {call : DriveCall}, call.paths = [normPath path] →
        ∀ place ∈ call.paths, ∃ named ∈ [path], place = normPath named := by
      intro path call only place member
      rw [only] at member
      exact ⟨path, List.mem_singleton_self _, List.mem_singleton.mp member⟩
    cases op with
    | setProp path key value => cases value <;> cases verb <;> exact at' rfl
    | tag path label remove => cases verb; cases remove <;> exact at' rfl
    | link path rel target remove => cases verb; cases remove <;> exact at' rfl
    | _ => cases verb

variable {host : Host δ σ ε} {world : World ε} {registry : Registry δ} {tenant : Tenant δ}

/-- A request accepted under a capability leaves every path that is not at or under the
capability's scope: the node there, its content and its metadata. -/
theorem mutations_confined {acceptedRoots : List NodeId} {req : DriveReq} {fromNode : NodeId}
    {chain : List SignedCapability} {now : Nat} {revoked : RevokedSet} {granted : List String}
    (accepted : authorizeReq host.server.iam host.server.hostId acceptedRoots req.drive req.op
      fromNode chain now revoked = .ok granted)
    {leaf : SignedCapability} (last : chain.getLast? = some leaf) {scope : String}
    (binding : boundScope leaf = some (req.drive, scope))
    (found : registry.get req.drive = some tenant)
    (frame : host.core.ChangesNamed world.env tenant.drive) (fromHex : String) :
    ∃ after, (dispatchInner host world registry fromHex chain req).registry.get req.drive =
        some after ∧
      ∀ path, ¬ pathNames (normPath scope) <+: pathNames path →
        nodeAt host.core after.drive path = nodeAt host.core tenant.drive path := by
  have gate := admitted_of_accepted accepted last binding
  have ⟨after, stored, changed⟩ := @dispatchInner_changed _ _ _ world host _ _ _ found fromHex chain
  refine ⟨after, stored, fun path outside => ?_⟩
  rcases changed with kept | ⟨call, makes, made⟩
  · rw [kept]
  · rw [made]
    apply frame
    intro place member inside
    have ⟨named, among, normal⟩ := makes.paths place member
    have initial := pathNames_of_enforcePrefix (gate named among).inScope
    rw [← normal] at initial
    exact outside (initial.trans inside)

end

namespace Reference

variable {drive after : FileDrive} {path fresh answer : String}

/-- No two nodes share an id with each other, the root or the next node. -/
def Unshared (fresh : String) (drive : FileDrive) : Prop :=
  ("root" :: (drive.map FileNode.id ++ [fresh])).Nodup

instance (fresh : String) (drive : FileDrive) : Decidable (Unshared fresh drive) :=
  inferInstanceAs (Decidable (List.Nodup _))

theorem nodeAt_find (unique : Unique drive) (deep : names path ≠ []) :
    nodeAt core drive path = (find drive path).map fun node =>
      { nodeId := node.id, kind := some node.kind, content := node.content,
        info := some node.info } := by
  change (resolve drive path).map _ = _
  rw [resolve, if_neg deep]
  cases found : find drive path with
  | none => rfl
  | some node =>
    have own := byId_of_mem unique (List.mem_of_find?_eq_some found)
    simp only [Option.map_some, core, own, Option.bind_some]

theorem nodeAt_root (apart : "root" ∉ drive.map FileNode.id) (top : names path = []) :
    nodeAt core drive path =
      some { nodeId := "root", kind := none, content := none, info := none } := by
  have missing : byId drive "root" = none := by
    apply List.find?_eq_none.mpr
    intro node member same
    exact apart (List.mem_map.mpr ⟨node, member, by simpa using same⟩)
  change (resolve drive path).map _ = _
  rw [resolve, if_pos top]
  simp only [Option.map_some, core, missing, Option.bind_none, Option.map_none]

/-- Changing nodes that a path does not lead to, neither before nor after, leaves what it
leads to. -/
theorem find_map_apart {change : FileNode → FileNode}
    (apart : ∀ node : FileNode, change node = node ∨
      node.path ≠ pathOf (names path) ∧ (change node).path ≠ pathOf (names path)) :
    find (drive.map change) path = find drive path := by
  have test : ∀ node : FileNode, ((change node).path == pathOf (names path)) =
      (node.path == pathOf (names path)) := by
    intro node
    rcases apart node with same | ⟨before, behind⟩
    · rw [same]
    · rw [beq_false_of_ne before, beq_false_of_ne behind]
  have tests : (fun node : FileNode => node.path == pathOf (names path)) ∘ change =
      fun node => node.path == pathOf (names path) := funext test
  unfold find
  rw [List.find?_map, tests]
  cases found : drive.find? fun node => node.path == pathOf (names path) with
  | none => rfl
  | some node =>
    have here : node.path = pathOf (names path) := by simpa using List.find?_some found
    have kept := (apart node).resolve_right fun ⟨away, _⟩ => away here
    rw [Option.map_some, kept]

theorem names_of_kept {node : FileNode} (here : node.path = pathOf (names path)) :
    names node.path = names path := by
  rw [here, names_canonical]

theorem find_change_apart {place : String} {change : FileNode → FileNode}
    (keeps : ∀ node, (change node).path = node.path) (apart : ¬ names place <+: names path) :
    find (drive.map fun node => if node.path = pathOf (names place) then change node else node)
      path = find drive path := by
  apply find_map_apart
  intro node
  split
  · rename_i target
    have away : node.path ≠ pathOf (names path) := by
      intro here
      have same := names_of_kept here
      rw [names_of_kept target] at same
      exact apart (same ▸ List.prefix_rfl)
    exact Or.inr ⟨away, by rwa [keeps]⟩
  · exact Or.inl rfl

theorem find_append_apart {parent name : String} {node : FileNode}
    (here : node.path = joined parent name)
    (apart : ¬ names (childPath parent name) <+: names path) :
    find (drive ++ [node]) path = find drive path := by
  have away : node.path ≠ pathOf (names path) := by
    rw [here]
    intro there
    have same := names_canonical path
    rw [← there, names_joined] at same
    exact apart (same ▸ List.prefix_rfl)
  unfold find
  rw [List.find?_append, List.find?_cons_of_neg (by simpa using away), List.find?_nil,
    Option.or_none]

theorem names_below (parent name place : String) (node : FileNode) :
    names (childPath parent name) <+:
      names (pathOf (names parent ++ name :: below place node)) := by
  have split : names (childPath parent name) = names parent ++ names name :=
    pathNames_childPath parent name
  rw [names_pathOf, List.flatMap_append, List.flatMap_cons,
    flatMap_names fun _ member => proper_of_mem_names member, split, ← List.append_assoc]
  exact List.prefix_append _ _

/-- A mutation leaves what is at the paths apart from those it names. -/
theorem Done.find_apart {call : DriveCall} (done : Done fresh drive call answer after)
    (apart : ∀ place ∈ call.paths, ¬ names place <+: names path) :
    find after path = find drive path := by
  cases done with
  | @filled parent name content node taken =>
    have here : node.path = pathOf (names (joined parent name)) := by
      simpa using List.find?_some taken
    have place := names_of_kept here
    rw [names_joined] at place
    exact find_change_apart (fun _ => rfl) (place ▸ apart _ (List.mem_singleton_self _))
  | added vacant there => exact find_append_apart rfl (apart _ (List.mem_singleton_self _))
  | made vacant there => exact find_append_apart rfl (apart _ (List.mem_singleton_self _))
  | @moved source toParent toName found there vacant =>
    have left : ¬ names source <+: names path := apart _ List.mem_cons_self
    have entered : ¬ names (childPath toParent toName) <+: names path :=
      apart _ (List.mem_cons_of_mem _ (List.mem_singleton_self _))
    apply find_map_apart
    intro node
    split
    · rename_i moved
      refine Or.inr ⟨fun here => ?_, fun there => ?_⟩
      · have beneath := List.isPrefixOf_iff_prefix.mp moved
        rw [names_of_kept here] at beneath
        exact left beneath
      · have beneath := names_below toParent toName source node
        have same := congrArg names there
        rw [names_canonical] at same
        rw [same] at beneath
        exact entered beneath
    · exact Or.inl rfl
  | @removed place found =>
    unfold find
    rw [List.find?_filter]
    apply congrArg (fun test => drive.find? test)
    funext node
    by_cases here : node.path = pathOf (names path)
    · have outside : within place node = false := by
        rw [within, names_of_kept here, ← Bool.not_eq_true, List.isPrefixOf_iff_prefix]
        exact apart place (List.mem_singleton_self _)
      simp [outside, here]
    · simp [here]
  | described change target other found =>
    rw [target] at apart
    exact find_change_apart (fun _ => rfl) (apart _ (List.mem_singleton_self _))

theorem core_changesNamed (unshared : Unshared fresh drive) :
    core.ChangesNamed (some fresh) drive := by
  intro call path apart
  change nodeAt core (Reference.call (some fresh) drive call).2 path = _
  obtain ⟨rootApart, distinct⟩ := List.nodup_cons.mp unshared
  simp only [Reference.call]
  cases made : attempt fresh drive call with
  | error e => rfl
  | ok outcome =>
    obtain ⟨answer, after⟩ := outcome
    have done := done_of_attempt made
    have ids := done.ids
    have before : Unique drive := (List.nodup_append.mp distinct).1
    by_cases top : names path = []
    · have absent : "root" ∉ after.map FileNode.id := fun member => rootApart (ids.subset member)
      have missing : "root" ∉ drive.map FileNode.id := fun member =>
        rootApart (List.mem_append_left _ member)
      rw [nodeAt_root absent top, nodeAt_root missing top]
    · rw [nodeAt_find (distinct.sublist ids) top, nodeAt_find before top, done.find_apart apart]

end Reference

open Reference in
/-- A grant of `/docs` lets its holder write `/docs/b` and leaves what is elsewhere. -/
theorem docsGrant_confined :
    ∃ after, (dispatchInner (host [] []) (world (some "n9")).toWorld
        (registry "team" [directory "/docs" "d1", file "/x" "n1" "o1" 1000]) "" [grant "/docs"]
        { drive := "team", cap := "", op := .write "/docs//b" "o9" 1 none }).registry.get "team" =
          some after ∧
      ∀ path, ¬ pathNames (normPath "/docs") <+: pathNames path →
        nodeAt core after.drive path =
          nodeAt core [directory "/docs" "d1", file "/x" "n1" "o1" 1000] path :=
  @mutations_confined _ _ _ (host [] []) (world (some "n9")).toWorld _
    (Tenant.new [directory "/docs" "d1", file "/x" "n1" "o1" 1000] quota) []
    { drive := "team", cap := "", op := .write "/docs//b" "o9" 1 none } (node 2) [grant "/docs"]
    0 [] [Ability.read, Ability.write] (by decide) (grant "/docs") rfl "/docs" (by decide) rfl
    (core_changesNamed (by decide)) ""

end DriveServe
