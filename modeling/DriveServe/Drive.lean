import DriveServe.Wire

set_option autoImplicit false

/-! The replicated drive the host serves from, as far as the host calls it. `δ` is
the drive, `σ` the state it serializes and `ε` what comes from outside with one
mutation: the fresh node id, the clock, the answer of the replicated log. -/

namespace DriveServe

/-- Which content app holds the bytes, and under which id. -/
structure Locator where
  text : String
  deriving DecidableEq, Repr

structure LinkTarget where
  text : String
  deriving DecidableEq, Repr

structure ContentVersion where
  setAtMs : Nat
  locator : Locator
  size : Nat
  conflict : Bool
  deriving DecidableEq, Repr

structure FileContent where
  locator : Locator
  size : Nat
  mode : Nat
  mtimeMs : Nat
  docId : Option String
  versions : List ContentVersion
  deriving DecidableEq, Repr

inductive NodeKind where
  | file
  | dir
  deriving DecidableEq, Repr

structure DirEntry where
  name : String
  nodeId : String
  isDir : Bool
  content : Option FileContent
  deriving DecidableEq, Repr

structure NodeMeta where
  props : List (String × String)
  tags : List String
  links : List (String × LinkTarget)
  deriving DecidableEq, Repr

inductive DriveCall where
  | addFile (parent name : String) (content : FileContent)
  | mkdir (parent name : String)
  | mv (path toParent toName : String)
  | rm (path : String)
  | setProp (path key value : String)
  | unsetProp (path key : String)
  | addTag (path tag : String)
  | removeTag (path tag : String)
  | link (path rel : String) (target : LinkTarget)
  | unlink (path rel : String) (target : LinkTarget)
  deriving DecidableEq, Repr

structure SyncedDrive (δ σ ε : Type) where
  fresh : δ
  /-- The id of the root directory. -/
  root : String
  resolve : δ → (path : String) → Option String
  contentOf : δ → (nodeId : String) → Option FileContent
  edgeKind : δ → (nodeId : String) → Option NodeKind
  ls : δ → (path : String) → Except String (List DirEntry)
  metaOf : δ → (nodeId : String) → Option NodeMeta
  backlinks : δ → LinkTarget → List (String × String)
  toState : δ → σ
  /-- A mutation: the new node's id (empty where the call answers nothing) or an
  error, and the drive afterwards. -/
  call : ε → δ → DriveCall → Except String String × δ
  newContent : Locator → (size mode mtimeMs : Nat) → FileContent
  objectLocator : (objectCid : String) → Locator
  cid : FileContent → String
  display : Locator → String
  parseTarget : String → LinkTarget
  targetKey : LinkTarget → String

/-- A mutation that answers an error has changed nothing that is serialized. -/
def SyncedDrive.FailsClean {δ σ ε : Type} (core : SyncedDrive δ σ ε) : Prop :=
  ∀ env drive call e after, core.call env drive call = (.error e, after) →
    core.toState after = core.toState drive

/-- A mutation that answers an error leaves the drive as it was. -/
def SyncedDrive.FailsUnchanged {δ σ ε : Type} (core : SyncedDrive δ σ ε) : Prop :=
  ∀ env drive call e after, core.call env drive call = (.error e, after) → after = drive

end DriveServe
