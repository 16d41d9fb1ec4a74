import DriveServe.Handlers

set_option autoImplicit false

/-! Two drives that are the same at and under a scope, seen through the handlers that
only read. -/

namespace DriveServe

/-- A path at or under a scope, both in normal form, as the gate compares them. -/
def Under (scope path : String) : Prop :=
  scope = "/" ∨ path = scope ∨ startsWith path (scope ++ "/") = true

instance (scope path : String) : Decidable (Under scope path) :=
  inferInstanceAs (Decidable (_ ∨ _ ∨ _))

theorem enforcePrefix_under_iff (scope path : String) :
    enforcePrefix scope path = .ok () ↔ Under (normPath scope) (normPath path) := by
  unfold enforcePrefix Under
  dsimp only
  split <;> simp_all

section

variable {δ σ ε : Type}

/-- Two drives show the same nodes, with the same contents, at and under a scope. -/
structure AgreeUnder (core : SyncedDrive δ σ ε) (scope : String) (left right : δ) : Prop where
  resolve : ∀ path, Under scope path → core.resolve left path = core.resolve right path
  contentOf : ∀ path node, Under scope path → core.resolve left path = some node →
    core.contentOf left node = core.contentOf right node
  edgeKind : ∀ path node, Under scope path → core.resolve left path = some node →
    core.edgeKind left node = core.edgeKind right node
  metaOf : ∀ path node, Under scope path → core.resolve left path = some node →
    core.metaOf left node = core.metaOf right node
  ls : ∀ path, Under scope path → (core.ls left path).toOption = (core.ls right path).toOption
  listed : ∀ path entries, Under scope path → core.ls left path = .ok entries →
    ∀ e ∈ entries, core.contentOf left e.nodeId = core.contentOf right e.nodeId

theorem AgreeUnder.refl (core : SyncedDrive δ σ ε) (scope : String) (drive : δ) :
    AgreeUnder core scope drive drive where
  resolve _ _ := rfl
  contentOf _ _ _ _ := rfl
  edgeKind _ _ _ _ := rfl
  metaOf _ _ _ _ := rfl
  ls _ _ := rfl
  listed _ _ _ _ _ _ := rfl

def DriveCall.paths : DriveCall → List String
  | .addFile parent name _ | .mkdir parent name => [childPath parent name]
  | .mv path toParent toName => [path, childPath toParent toName]
  | .rm path | .setProp path .. | .unsetProp path .. | .addTag path .. | .removeTag path ..
  | .link path .. | .unlink path .. => [path]

/-- The directory and the name a mutation puts a node at. -/
def DriveCall.puts : DriveCall → Option (String × String)
  | .addFile parent name _ | .mkdir parent name | .mv _ parent name => some (parent, name)
  | _ => none

/-- A mutation inside a scope: what it puts goes by one proper name, and the scope must
be there already to be itself put anew. -/
structure DriveCall.Inside (core : SyncedDrive δ σ ε) (scope : String) (drive : δ)
    (call : DriveCall) : Prop where
  paths : ∀ path ∈ call.paths, Under scope path
  proper : ∀ parent name, call.puts = some (parent, name) → name ≠ "" ∧ '/' ∉ name.toList
  rooted : ∀ parent name, call.puts = some (parent, name) →
    childPath parent name ≠ scope ∨ (core.resolve drive scope).isSome

/-- In these two states the mutations inside the scope depend on nothing outside it, and
a file put at a path is found there. -/
structure SyncedDrive.LocalAt (core : SyncedDrive δ σ ε) (env : ε) (scope : String)
    (left right : δ) : Prop where
  answer : ∀ call : DriveCall, call.Inside core scope left →
    (core.call env left call).1 = (core.call env right call).1
  agree : ∀ call : DriveCall, call.Inside core scope left →
    AgreeUnder core scope (core.call env left call).2 (core.call env right call).2
  found : ∀ parent name content answer after,
    (DriveCall.addFile parent name content).Inside core scope left →
    core.call env left (.addFile parent name content) = (.ok answer, after) →
      core.resolve after (childPath parent name) = some answer

/-- Two feeds of one length that tell the same of the paths at and under a scope. -/
structure FeedsAgree (scope : String) (left right : Feed) : Prop where
  length : left.changes.length = right.changes.length
  entries : ∀ (index : Nat) (change : Change), Under scope change.path →
    (left.changes[index]? = some change ↔ right.changes[index]? = some change)

theorem FeedsAgree.refl (scope : String) (feed : Feed) : FeedsAgree scope feed feed :=
  ⟨rfl, fun _ _ _ => Iff.rfl⟩

/-- Two states of one hosted drive that show the same inside a scope. -/
structure Alike (core : SyncedDrive δ σ ε) (scope : String) (left right : Tenant δ) : Prop where
  drives : AgreeUnder core scope left.drive right.drive
  feeds : FeedsAgree scope left.feed right.feed

variable {scope : String} {left right : Tenant δ}

theorem etagFor_agree {core : SyncedDrive δ σ ε} {left right : δ} {node : String}
    (same : core.contentOf left node = core.contentOf right node) :
    etagFor core left node = etagFor core right node := by
  simp only [etagFor, same]

theorem opStat_agree {core : SyncedDrive δ σ ε}
    (agree : AgreeUnder core scope left.drive right.drive) {path : String}
    (inside : Under scope (normPath path)) :
    opStat core path left = opStat core path right := by
  have entry : statEntry core left.drive path = statEntry core right.drive path := by
    unfold statEntry
    dsimp only
    rw [← agree.resolve _ inside]
    cases node : core.resolve left.drive (normPath path) with
    | none => rfl
    | some node' =>
      have content := agree.contentOf _ _ inside node
      have kind := agree.edgeKind _ _ inside node
      simp only [bind, Option.bind, kind, content, etagFor_agree content]
  simp only [opStat, entry]

theorem opList_agree {core : SyncedDrive δ σ ε}
    (agree : AgreeUnder core scope left.drive right.drive) {path : String}
    (inside : Under scope (normPath path))
    (plainLeft : core.ls left.drive path = core.ls left.drive (normPath path))
    (plainRight : core.ls right.drive path = core.ls right.drive (normPath path))
    (cursor : Option String) (limit : Nat) :
    opList core path cursor limit left = opList core path cursor limit right := by
  have lists := agree.ls _ inside
  unfold opList
  rw [plainLeft, plainRight]
  cases listed : core.ls left.drive (normPath path) with
  | error e =>
    cases other : core.ls right.drive (normPath path) with
    | error e' => rfl
    | ok entries =>
      rw [listed, other] at lists
      cases lists
  | ok entries =>
    have other : core.ls right.drive (normPath path) = .ok entries := by
      cases there : core.ls right.drive (normPath path) with
      | error e =>
        rw [listed, there] at lists
        cases lists
      | ok entries' =>
        rw [listed, there] at lists
        exact congrArg Except.ok (Option.some.inj lists).symm
    rw [other]
    have lines : ∀ start, ((entries.drop start).take (max limit 1)).map
          (entryOf core left.drive (normPath path)) =
        ((entries.drop start).take (max limit 1)).map
          (entryOf core right.drive (normPath path)) := by
      intro start
      refine List.map_congr_left fun e member => ?_
      have present := List.mem_of_mem_drop (List.mem_of_mem_take member)
      have content := agree.listed _ entries inside listed e present
      simp only [entryOf, etagFor_agree content]
    simp only [lines]

theorem readObject_agree {core : SyncedDrive δ σ ε}
    (agree : AgreeUnder core scope left.drive right.drive) {path : String}
    (inside : Under scope (normPath path)) :
    readObject core path left = readObject core path right := by
  unfold readObject
  rw [← agree.resolve _ inside]
  cases node : core.resolve left.drive (normPath path) with
  | none => rfl
  | some node' =>
    have content := agree.contentOf _ _ inside node
    simp only [Outcome.okOr, bind, Except.bind, content]

theorem opMeta_agree {core : SyncedDrive δ σ ε}
    (agree : AgreeUnder core scope left.drive right.drive) {path : String}
    (inside : Under scope (normPath path)) :
    opMeta core path left = opMeta core path right := by
  unfold opMeta
  rw [← agree.resolve _ inside]
  cases node : core.resolve left.drive (normPath path) with
  | none => rfl
  | some node' =>
    have info := agree.metaOf _ _ inside node
    simp only [info]

theorem opVersions_agree {core : SyncedDrive δ σ ε}
    (agree : AgreeUnder core scope left.drive right.drive) {path : String}
    (inside : Under scope (normPath path)) :
    opVersions core path left = opVersions core path right := by
  unfold opVersions
  rw [← agree.resolve _ inside]
  cases node : core.resolve left.drive (normPath path) with
  | none => rfl
  | some node' =>
    have content := agree.contentOf _ _ inside node
    simp only [content]

theorem writeConflict_agree {core : SyncedDrive δ σ ε} {left right : δ}
    (agree : AgreeUnder core scope left right) {path : String}
    (inside : Under scope (normPath path)) (baseEtag : Option String) :
    writeConflict core left path baseEtag = writeConflict core right path baseEtag := by
  unfold writeConflict
  rw [← agree.resolve _ inside]
  cases node : core.resolve left (normPath path) with
  | none => rfl
  | some node' =>
    have content := agree.contentOf _ _ inside node
    simp only [etagFor_agree content]

theorem cursor_agree (feeds : FeedsAgree scope left.feed right.feed) :
    left.feed.cursor = right.feed.cursor := by
  rw [Feed.cursor_eq_length, Feed.cursor_eq_length]
  exact feeds.length

end

end DriveServe
