import Mathlib.Algebra.Group.Nat.Defs

set_option autoImplicit false

/-! The `ce-drive/v1` envelope: requests, replies and errors as the host declares
them. Unsigned machine integers are natural numbers; where the host saturates at the
top of their range, so does the handler below. -/

namespace DriveServe

abbrev Bytes := List UInt8

/-- The mesh request topic every Drive host listens on. -/
def driveTopic : String := "ce-drive/v1"

/-- The pubsub change-beacon topic for one drive. -/
def changesTopic (driveId : String) : String := "ce-drive/" ++ driveId ++ "/changes"

/-- The change beacon that is published on it. -/
structure Beacon where
  drive : String
  maxSeq : Nat
  deriving DecidableEq, Repr

structure ShareCaveats where
  notAfter : Nat
  maxBytesRead : Option Nat
  maxBytesWrite : Option Nat
  deriving DecidableEq, Repr

inductive DriveOp where
  | openDrive
  | stat (path : String)
  | list (path : String) (cursor : Option String) (limit : Nat)
  | read (path : String) (offset : Nat) (len : Option Nat)
  | write (path objectCid : String) (size : Nat) (baseEtag : Option String)
  | mkdir (path : String)
  | move (src dst : String)
  | copy (src dst : String)
  | delete (path : String) (recursive : Bool)
  | share (path audience : String) (abilities : List String) (caveats : ShareCaveats)
  | poll (cursor : Option Nat) (limit : Nat)
  | watch
  | metaOf (path : String)
  | setProp (path key : String) (value : Option String)
  | tag (path tag : String) (remove : Bool)
  | link (path rel target : String) (remove : Bool)
  | backlinks (target : String)
  | versions (path : String)
  deriving DecidableEq, Repr

structure DriveReq where
  drive : String
  cap : String
  op : DriveOp
  deriving DecidableEq, Repr

inductive EntryKind where
  | file
  | dir
  deriving DecidableEq, Repr

structure Entry where
  path : String
  kind : EntryKind
  size : Nat
  mtimeMs : Nat
  etag : String
  nodeId : String
  objectCid : Option String
  docId : Option String
  deriving DecidableEq, Repr

structure ChunkRef where
  cid : String
  offset : Nat
  len : Nat
  deriving DecidableEq, Repr

structure ReadPlan where
  objectCid : String
  totalSize : Nat
  chunkSize : Nat
  chunks : List ChunkRef
  encrypted : Bool
  keyHint : Option String
  deriving DecidableEq, Repr

inductive ChangeKind where
  | created
  | modified
  | deleted
  | moved (src : String)
  deriving DecidableEq, Repr

structure Change where
  seq : Nat
  path : String
  nodeId : String
  kind : ChangeKind
  etag : String
  deriving DecidableEq, Repr

structure MetaLink where
  rel : String
  target : String
  deriving DecidableEq, Repr

structure VersionInfo where
  setAtMs : Nat
  locator : String
  size : Nat
  conflict : Bool
  deriving DecidableEq, Repr

structure Quota where
  pricePerGibMonth : String
  pricePerGibEgress : String
  freeTierBytes : Nat
  channelRequired : Bool
  deriving DecidableEq, Repr

inductive DriveOk where
  | opened (driveRootCid : String) (serverSeq : Nat) (grantedAbilities : List String)
      (quota : Quota)
  | entry (entry : Entry)
  | listing (entries : List Entry) (nextCursor : Option String)
  | readPlan (plan : ReadPlan)
  | written (etag nodeId : String) (versionSeq : Nat)
  | made (nodeId : String)
  | deleted
  | shared (chain : String)
  | changes (changes : List Change) (newCursor : Nat)
  | watching (topic : String) (cursor : Nat)
  | metaOf (nodeId : String) (props : List (String × String)) (tags : List String)
      (links : List MetaLink)
  | backlinks (links : List (String × String))
  | versions (versions : List VersionInfo)
  deriving DecidableEq, Repr

inductive DriveErr where
  | unauthorized
  | revoked
  | expired
  | outOfScope
  | notFound
  | conflict (currentEtag : String)
  | quotaExceeded
  | paymentRequired
  | badPath
  | internal (reason : String)
  deriving DecidableEq, Repr

/-- The reply is the handler's result itself. -/
abbrev DriveReply := Except DriveErr DriveOk

end DriveServe
