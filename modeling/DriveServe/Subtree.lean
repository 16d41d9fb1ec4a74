import DriveServe.Effects
import DriveServe.ReferenceView

set_option autoImplicit false

/-! What a capability for a subtree lets its holder see: the replies that two hosts
give to one accepted request when they differ outside its scope only. -/

namespace DriveServe

section

variable {δ σ ε : Type}

def opPuts : DriveOp → Option String
  | .write path .. | .mkdir path => some path
  | .move _ dst | .copy _ dst => some dst
  | _ => none

theorem opPuts_mem {op : DriveOp} {path : String} (puts : opPuts op = some path) :
    path ∈ opPaths op := by
  cases op with
  | write | mkdir | move | copy =>
    cases puts
    exact mem_opPaths_of_target rfl
  | _ => cases puts

/-- An op whose reply the scope confines: it is not about the drive as a whole, what it
puts is inside the scope, and a listed path is one the drive reads as its normal form. -/
structure Confined (core : SyncedDrive δ σ ε) (scope : String) (left right : δ)
    (op : DriveOp) : Prop where
  pathwise : opPath op ≠ none ∨ op = .watch
  puts : ∀ path ∈ opPuts op, normPath path ≠ scope ∨ (core.resolve left scope).isSome
  plain : ∀ path cursor limit, op = .list path cursor limit →
    core.ls left path = core.ls left (normPath path) ∧
      core.ls right path = core.ls right (normPath path)

variable {host : Host δ σ ε} {world : World ε} {scope : String} {left right : Tenant δ}

/-- A recorded mutation inside the scope, when its reply sees the same etag. -/
theorem mutateRecord_agree {core : SyncedDrive δ σ ε} {env : ε}
    (locality : core.LocalAt env scope left.drive right.drive)
    (cursors : left.feed.cursor = right.feed.cursor) {call : DriveCall}
    (inside : call.Inside core scope left.drive) (path : String) (kind : ChangeKind)
    (nodeOf : String → String) (etagOf : δ → String → String)
    (reply : (etag nodeId : String) → Nat → DriveOk)
    (etags : ∀ answer here there, core.call env left.drive call = (.ok answer, here) →
      AgreeUnder core scope here there → ∀ seq,
        reply (etagOf here (nodeOf answer)) (nodeOf answer) seq =
          reply (etagOf there (nodeOf answer)) (nodeOf answer) seq) :
    (mutateRecord core env call path kind nodeOf etagOf reply left).1.map Prod.fst =
      (mutateRecord core env call path kind nodeOf etagOf reply right).1.map Prod.fst := by
  have answers := locality.answer call inside
  have after := locality.agree call inside
  unfold mutateRecord
  cases here : core.call env left.drive call with
  | mk answered drive =>
    cases there : core.call env right.drive call with
    | mk answered' drive' =>
      rw [here, there] at answers after
      obtain rfl : answered = answered' := answers
      cases answered with
      | error e => rfl
      | ok answer =>
        have same := etags answer drive drive' here after (left.feed.cursor + 1)
        simp only [Feed.record_fst, Except.map, ← cursors, same]

theorem mutateOnly_agree {core : SyncedDrive δ σ ε} {env : ε}
    (locality : core.LocalAt env scope left.drive right.drive) {call : DriveCall}
    (inside : call.Inside core scope left.drive) :
    (mutateOnly core env call left).1 = (mutateOnly core env call right).1 := by
  have answers := locality.answer call inside
  unfold mutateOnly
  cases here : core.call env left.drive call with
  | mk answered drive =>
    cases there : core.call env right.drive call with
    | mk answered' drive' =>
      rw [here, there] at answers
      obtain rfl : answered = answered' := answers
      cases answered <;> rfl

theorem inside_of_path {core : SyncedDrive δ σ ε} {drive : δ} {call : DriveCall} {path : String}
    (names : call.paths = [path]) (still : call.puts = none) (inside : Under scope path) :
    call.Inside core scope drive where
  paths other member := by
    rw [names, List.mem_singleton] at member
    rw [member]
    exact inside
  proper parent name put := by
    rw [still] at put
    cases put
  rooted parent name put := by
    rw [still] at put
    cases put

/-- A path an op puts a node at: inside the scope, which must be there already to be
itself put anew. -/
structure PutsInside (core : SyncedDrive δ σ ε) (scope : String) (drive : δ)
    (path parent name : String) : Prop where
  split : splitPath path = some (parent, name)
  inside : Under scope (normPath path)
  rooted : normPath path ≠ scope ∨ (core.resolve drive scope).isSome

theorem PutsInside.call {core : SyncedDrive δ σ ε} {drive : δ} {path parent name : String}
    (put : PutsInside core scope drive path parent name) {call : DriveCall}
    (puts : call.puts = some (parent, name))
    (paths : ∀ other ∈ call.paths, other = childPath parent name ∨ Under scope other) :
    call.Inside core scope drive where
  paths other member := by
    rcases paths other member with same | named
    · rw [same, splitPath_child put.split]
      exact put.inside
    · exact named
  proper dir leaf placed := by
    rw [puts] at placed
    obtain ⟨rfl, rfl⟩ := Prod.mk.inj (Option.some.inj placed)
    exact splitPath_name put.split
  rooted dir leaf placed := by
    rw [puts] at placed
    obtain ⟨rfl, rfl⟩ := Prod.mk.inj (Option.some.inj placed)
    rw [splitPath_child put.split]
    exact put.rooted

theorem PutsInside.only {core : SyncedDrive δ σ ε} {drive : δ} {path parent name : String}
    (put : PutsInside core scope drive path parent name) {call : DriveCall}
    (puts : call.puts = some (parent, name)) (names : call.paths = [childPath parent name]) :
    call.Inside core scope drive := by
  apply put.call puts
  intro other member
  rw [names] at member
  exact Or.inl (List.mem_singleton.mp member)

section

variable {path parent name : String}
  (locality : host.core.LocalAt world.env scope left.drive right.drive)
  (alike : Alike host.core scope left right)

include locality alike

theorem opWrite_agree (put : PutsInside host.core scope left.drive path parent name)
    (objectCid : String) (size : Nat) (baseEtag : Option String) :
    (opWrite host.core world path parent name objectCid size baseEtag left).1.map Prod.fst =
      (opWrite host.core world path parent name objectCid size baseEtag right).1.map Prod.fst := by
  unfold opWrite
  rw [writeConflict_agree alike.drives put.inside]
  split
  · rfl
  · have inside : (DriveCall.addFile parent name (host.core.newContent
        (host.core.objectLocator objectCid) size 0o644 world.nowMs)).Inside host.core scope
        left.drive := put.only rfl rfl
    apply mutateRecord_agree locality (cursor_agree alike.feeds) inside
    intro answer before after made same seq
    have placed := locality.found _ _ _ _ _ inside made
    rw [splitPath_child put.split] at placed
    have content := same.contentOf _ _ put.inside placed
    simp only [id, etagFor_agree content]

theorem opMkdir_agree (put : PutsInside host.core scope left.drive path parent name) :
    (opMkdir host.core world path parent name left).1.map Prod.fst =
      (opMkdir host.core world path parent name right).1.map Prod.fst := by
  unfold opMkdir
  apply mutateRecord_agree locality (cursor_agree alike.feeds) (put.only rfl rfl)
  intro _ _ _ _ _ _
  rfl

theorem opMove_agree {src : String} (source : Under scope (normPath src))
    (put : PutsInside host.core scope left.drive path parent name) :
    (opMove host.core world src path parent name left).1.map Prod.fst =
      (opMove host.core world src path parent name right).1.map Prod.fst := by
  have inside : (DriveCall.mv (normPath src) parent name).Inside host.core scope left.drive := by
    apply put.call rfl
    intro other member
    rcases List.mem_cons.mp member with same | last
    · exact Or.inr (same ▸ source)
    · exact Or.inl (List.mem_singleton.mp last)
  unfold opMove
  rw [← alike.drives.resolve _ source]
  split
  · rfl
  · apply mutateRecord_agree locality (cursor_agree alike.feeds) inside
    intro _ _ _ _ _ _
    rfl

theorem opCopy_agree {src : String} (source : Under scope (normPath src))
    (put : PutsInside host.core scope left.drive path parent name) :
    (opCopy host.core world src path parent name left).1.map Prod.fst =
      (opCopy host.core world src path parent name right).1.map Prod.fst := by
  unfold opCopy
  rw [← alike.drives.resolve _ source]
  cases node : host.core.resolve left.drive (normPath src) with
  | none => rfl
  | some node' =>
    dsimp only
    rw [← alike.drives.contentOf _ _ source node]
    split
    · rfl
    · apply mutateRecord_agree locality (cursor_agree alike.feeds) (put.only rfl rfl)
      intro _ _ _ _ _ _
      rfl

theorem opDelete_agree (here : Under scope (normPath path)) :
    (opDelete host.core world path left).1.map Prod.fst =
      (opDelete host.core world path right).1.map Prod.fst := by
  unfold opDelete
  rw [← alike.drives.resolve _ here]
  split
  · rfl
  · apply mutateRecord_agree locality (cursor_agree alike.feeds) (inside_of_path rfl rfl here)
    intro _ _ _ _ _ _
    rfl

theorem recordingStretch_agree {op : DriveOp}
    (inside : ∀ path ∈ opPaths op, Under scope (normPath path))
    (confined : Confined host.core scope left.drive right.drive op)
    {stretch : Tenant δ → Except DriveErr (DriveOk × Nat) × Tenant δ}
    (records : recordingStretch host.core world op = some stretch) :
    (stretch left).1.map Prod.fst = (stretch right).1.map Prod.fst := by
  have places : ∀ path parent name, opPuts op = some path →
      splitPath path = some (parent, name) →
        PutsInside host.core scope left.drive path parent name := by
    intro path parent name puts split
    exact ⟨split, inside path (opPuts_mem puts), confined.puts path puts⟩
  cases op with
  | write path objectCid size baseEtag =>
    simp only [recordingStretch, Option.map_eq_some_iff] at records
    obtain ⟨⟨parent, name⟩, split, rfl⟩ := records
    exact opWrite_agree locality alike (places path parent name rfl split) ..
  | mkdir path =>
    simp only [recordingStretch, Option.map_eq_some_iff] at records
    obtain ⟨⟨parent, name⟩, split, rfl⟩ := records
    exact opMkdir_agree locality alike (places path parent name rfl split)
  | move src dst =>
    simp only [recordingStretch, Option.map_eq_some_iff] at records
    obtain ⟨⟨parent, name⟩, split, rfl⟩ := records
    have source : Under scope (normPath src) := inside src (mem_opPaths_of_source rfl)
    exact opMove_agree locality alike source (places dst parent name rfl split)
  | copy src dst =>
    simp only [recordingStretch, Option.map_eq_some_iff] at records
    obtain ⟨⟨parent, name⟩, split, rfl⟩ := records
    have source : Under scope (normPath src) := inside src (mem_opPaths_of_source rfl)
    exact opCopy_agree locality alike source (places dst parent name rfl split)
  | delete path recursive =>
    cases records
    exact opDelete_agree locality alike (inside path (mem_opPaths_of_target rfl))
  | _ => cases records

end

theorem silentCall_inside {core : SyncedDrive δ σ ε} {drive : δ} {op : DriveOp} {call : DriveCall}
    (inside : ∀ path ∈ opPaths op, Under scope (normPath path))
    (verb : silentCall core op = some call) : call.Inside core scope drive := by
  cases op with
  | setProp path key value =>
    have here : Under scope (normPath path) := inside path (mem_opPaths_of_target rfl)
    cases value <;> cases verb <;> exact inside_of_path rfl rfl here
  | tag path tag remove =>
    have here : Under scope (normPath path) := inside path (mem_opPaths_of_target rfl)
    cases verb
    cases remove <;> exact inside_of_path rfl rfl here
  | link path rel target remove =>
    have here : Under scope (normPath path) := inside path (mem_opPaths_of_target rfl)
    cases verb
    cases remove <;> exact inside_of_path rfl rfl here
  | _ => cases verb

theorem dispatchInner_agree
    (locality : host.core.LocalAt world.env scope left.drive right.drive)
    (alike : Alike host.core scope left right) {here there : Registry δ} {req : DriveReq}
    (found : here.get req.drive = some left) (found' : there.get req.drive = some right)
    (inside : ∀ path ∈ opPaths req.op, Under scope (normPath path))
    (confined : Confined host.core scope left.drive right.drive req.op) (fromHex : String)
    (chain : List SignedCapability) :
    (dispatchInner host world here fromHex chain req).reply =
      (dispatchInner host world there fromHex chain req).reply := by
  have agree := alike.drives
  cases records : recordingStretch host.core world req.op with
  | some stretch =>
    rw [dispatchInner_recording records, dispatchInner_recording records,
      Registry.locked_of_found found, Registry.locked_of_found found']
    exact recordingStretch_agree locality alike inside confined records
  | none =>
    obtain ⟨drive, cap, op⟩ := req
    have reads : ∀ read : Tenant δ → Except DriveErr DriveOk, read left = read right →
        here.borrowed drive read = there.borrowed drive read := by
      intro read same
      rw [Registry.borrowed_of_found found, Registry.borrowed_of_found found']
      exact same
    have writes : ∀ call, silentCall host.core op = some call →
        (here.locked drive (mutateOnly host.core world.env call)).1 =
          (there.locked drive (mutateOnly host.core world.env call)).1 := by
      intro call verb
      rw [Registry.locked_of_found found, Registry.locked_of_found found']
      exact mutateOnly_agree locality (silentCall_inside inside verb)
    have pathed : ∀ path, opPath op = some path → Under scope (normPath path) := by
      intro path named
      exact inside path (mem_opPaths_of_target named)
    cases op with
    | openDrive | poll | backlinks => exact absurd confined.pathwise (by simp [opPath])
    | stat path => exact reads _ (opStat_agree agree (pathed path rfl))
    | list path cursor limit =>
      have plain := confined.plain path cursor limit rfl
      exact reads _ (opList_agree agree (pathed path rfl) plain.1 plain.2 cursor limit)
    | read path offset len =>
      have object : here.borrowed drive (readObject host.core path) =
          there.borrowed drive (readObject host.core path) := by
        rw [Registry.borrowed_of_found found, Registry.borrowed_of_found found']
        exact readObject_agree agree (pathed path rfl)
      simp only [dispatchInner, Served.unchanged, opRead, object]
    | share => rfl
    | watch =>
      refine reads _ ?_
      simp only [opWatch, cursor_agree alike.feeds]
    | metaOf path => exact reads _ (opMeta_agree agree (pathed path rfl))
    | versions path => exact reads _ (opVersions_agree agree (pathed path rfl))
    | setProp path key value => cases value <;> exact writes _ rfl
    | tag path tag remove => exact writes _ rfl
    | link path rel target remove => exact writes _ rfl
    | write path | mkdir path | move src path | copy src path =>
      simp only [recordingStretch, Option.map_eq_none_iff] at records
      simp only [dispatchInner, records, Served.unchanged]
    | delete => cases records

/-- Two states of a drive that differ outside the scope of the presented capability
answer every confined request alike. -/
theorem subtree_reply_same {fromHex : String} {req : DriveReq} {chain : List SignedCapability}
    {leaf : SignedCapability} {bound : String}
    (admitted : admission host world fromHex req = .ok chain) (last : chain.getLast? = some leaf)
    (binding : boundScope leaf = some (req.drive, bound)) {here there : Registry δ}
    (found : here.get req.drive = some left) (found' : there.get req.drive = some right)
    (alike : Alike host.core (normPath bound) left right)
    (locality : host.core.LocalAt world.env (normPath bound) left.drive right.drive)
    (confined : Confined host.core (normPath bound) left.drive right.drive req.op) :
    (dispatch host world here fromHex req).reply =
      (dispatch host world there fromHex req).reply := by
  obtain ⟨fromNode, granted, _, _, accepted⟩ := (admission_ok_iff ..).mp admitted
  have gate := admitted_of_accepted accepted last binding
  have inside : ∀ path ∈ opPaths req.op, Under (normPath bound) (normPath path) := by
    intro path named
    exact (enforcePrefix_under_iff bound path).mp (gate path named).inScope
  rw [dispatch_admitted admitted, dispatch_admitted admitted]
  exact dispatchInner_agree locality alike found found' inside confined fromHex chain

end

namespace Reference

def scopedHost (scope : String) : Host FileDrive FileDrive (Option String) :=
  host [("grant", [grant scope])] []

def hosting (tenant : Tenant FileDrive) : Registry FileDrive :=
  { drives := [("team", tenant)], distinct := List.nodup_singleton _ }

def answer (scope : String) (log : Option String) (op : DriveOp) (tenant : Tenant FileDrive) :
    DriveReply :=
  (dispatch (scopedHost scope) (world log).toWorld (hosting tenant) sender
    { drive := "team", cap := "grant", op }).reply

/-- A request accepted under a scope tells two states apart that differ outside it. -/
structure Leaks (scope : String) (log : Option String) (op : DriveOp)
    (left right : Tenant FileDrive) : Prop where
  admitted : admission (scopedHost scope) (world log).toWorld sender
    { drive := "team", cap := "grant", op } = .ok [grant scope]
  binding : boundScope (grant scope) = some ("team", scope)
  normal : normPath scope = scope ∧ scope ≠ "/"
  alike : Alike core scope left right
  served : left.quota = right.quota ∧ left.snapshot = right.snapshot
  differ : answer scope log op left ≠ answer scope log op right

/-- A drive and what it shows at and under a scope. -/
theorem alike_of_view {scope : String} {base drive : FileDrive} (named : names scope ≠ [])
    (unique : Unique drive) (seen : view scope drive = base) :
    Alike core scope (Tenant.new base quota) (Tenant.new drive quota) :=
  ⟨seen ▸ agree_view named unique, .refl _ _⟩

def docsDrive : FileDrive := [directory "/docs" "d1", file "/docs/a" "n1" "o1" 1000]

/-- A file outside `/docs` that links to the one inside. -/
def linkedFile : FileNode :=
  { file "/x" "n2" "o2" 1000 with
    info := { noMeta with links := [("about", { text := "node:n1" })] } }

def changedAt (path : String) : Tenant FileDrive :=
  { Tenant.new docsDrive quota with feed := (Feed.new.record path "n2" .created "").2 }

theorem changedAt_alike : Alike core "/docs" (changedAt "/x") (changedAt "/y") := by
  refine ⟨.refl _ _ _, ⟨rfl, fun index change inside => ?_⟩⟩
  have outside : ∀ path, ¬ Under "/docs" path → ∀ change : Change, Under "/docs" change.path →
      (changedAt path).feed.changes[index]? ≠ some change := by
    intro path apart change inside found
    have member := List.mem_of_getElem? found
    obtain rfl := List.mem_singleton.mp member
    exact apart inside
  exact iff_of_false (outside "/x" (by decide) change inside)
    (outside "/y" (by decide) change inside)

end Reference

open Reference in
theorem docsDrive_reply_same :
    answer "/docs" (some "n9") (.write "/docs/b" "o9" 1 none) (Tenant.new docsDrive quota) =
      answer "/docs" (some "n9") (.write "/docs/b" "o9" 1 none)
        (Tenant.new (docsDrive ++ [linkedFile]) quota) := by
  have admitted : admission (scopedHost "/docs") (world (some "n9")).toWorld sender
      { drive := "team", cap := "grant", op := .write "/docs/b" "o9" 1 none } =
        .ok [grant "/docs"] := by decide
  have binding : boundScope (grant "/docs") = some ("team", "/docs") := by decide
  have normal : normPath "/docs" = "/docs" := by decide
  have seen : view "/docs" (docsDrive ++ [linkedFile]) = docsDrive := by decide
  have alike : Alike core (normPath "/docs") (Tenant.new docsDrive quota)
      (Tenant.new (docsDrive ++ [linkedFile]) quota) := by
    rw [normal]
    exact alike_of_view (by decide) (by decide) seen
  have locality : core.LocalAt (some "n9") (normPath "/docs") docsDrive
      (docsDrive ++ [linkedFile]) := by
    rw [normal]
    have general := @core_localAt "/docs" "n9" (docsDrive ++ [linkedFile]) (by decide) (by decide)
      (by decide)
    rwa [seen] at general
  exact subtree_reply_same admitted rfl binding rfl rfl alike locality
    { pathwise := Or.inl (by decide)
      puts := by
        intro path member
        cases member
        exact Or.inl (by decide)
      plain := by simp }

open Reference in
/-- The ops about the whole drive leave the scope; so does making the scope's own root
where it is missing, and listing a path that only its normal form puts in the scope. -/
theorem subtree_leaks :
    Leaks "/docs" none .openDrive (Tenant.new docsDrive quota)
        (Tenant.new (docsDrive ++ [linkedFile]) quota) ∧
      Leaks "/docs" none (.poll none 10) (changedAt "/x") (changedAt "/y") ∧
      Leaks "/docs" none (.backlinks "node:n1") (Tenant.new docsDrive quota)
        (Tenant.new (docsDrive ++ [linkedFile]) quota) ∧
      Leaks "/p/docs" (some "n9") (.mkdir "/p/docs") (Tenant.new [] quota)
        (Tenant.new [directory "/p" "d2"] quota) ∧
      Leaks "/docs" none (.list " /docs" none 10) (Tenant.new docsDrive quota)
        (Tenant.new (docsDrive ++ [directory "/ " "d2", directory "/ /docs" "d3"]) quota) := by
  have linked : Alike core "/docs" (Tenant.new docsDrive quota)
      (Tenant.new (docsDrive ++ [linkedFile]) quota) :=
    alike_of_view (by decide) (by decide) (by decide)
  have parent : Alike core "/p/docs" (Tenant.new [] quota)
      (Tenant.new [directory "/p" "d2"] quota) :=
    alike_of_view (by decide) (by decide) (by decide)
  have blank : Alike core "/docs" (Tenant.new docsDrive quota)
      (Tenant.new (docsDrive ++ [directory "/ " "d2", directory "/ /docs" "d3"]) quota) :=
    alike_of_view (by decide) (by decide) (by decide)
  exact ⟨⟨by decide, by decide, by decide, linked, ⟨rfl, rfl⟩, by decide⟩,
    ⟨by decide, by decide, by decide, changedAt_alike, ⟨rfl, rfl⟩, by decide⟩,
    ⟨by decide, by decide, by decide, linked, ⟨rfl, rfl⟩, by decide⟩,
    ⟨by decide, by decide, by decide, parent, ⟨rfl, rfl⟩, by decide⟩,
    ⟨by decide, by decide, by decide, blank, ⟨rfl, rfl⟩, by decide⟩⟩

end DriveServe
