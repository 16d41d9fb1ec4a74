import DriveServe.Path
import DriveServe.Tenant
import DriveServe.World

set_option autoImplicit false

/-! A drive small enough to run: a list of nodes, each kept under its full path. Its
log either is closed, and every mutation fails, or hands out one fresh node id. -/

namespace DriveServe.Reference

open DriveServe

structure FileNode where
  path : String
  id : String
  kind : NodeKind
  content : Option FileContent
  info : NodeMeta
  deriving DecidableEq, Repr

abbrev FileDrive := List FileNode

def noMeta : NodeMeta := { props := [], tags := [], links := [] }

/-- The names a path is resolved by. -/
def names (path : String) : List String := (splitSlash path).filter (· != "")

def pathOf (names : List String) : String := names.foldl (fun path name => path ++ "/" ++ name) ""

def joined (parent name : String) : String := pathOf (names parent ++ [name])

def find (drive : FileDrive) (path : String) : Option FileNode :=
  drive.find? fun node => node.path == pathOf (names path)

def resolve (drive : FileDrive) (path : String) : Option String :=
  if names path = [] then some "root" else (find drive path).map (·.id)

def byId (drive : FileDrive) (nodeId : String) : Option FileNode :=
  drive.find? fun node => node.id == nodeId

def isDirectory (drive : FileDrive) (path : String) : Bool :=
  names path == [] || (find drive path).any (·.kind == .dir)

def ls (drive : FileDrive) (path : String) : Except String (List DirEntry) :=
  if isDirectory drive path then
    .ok ((drive.filter fun node => (names node.path).dropLast == names path).map fun node =>
      { name := lastName node, nodeId := node.id, isDir := node.kind == .dir,
        content := node.content })
  else .error "not a directory"
where
  lastName (node : FileNode) : String := (names node.path).getLast?.getD ""

def newContent (locator : Locator) (size mode mtimeMs : Nat) : FileContent :=
  { locator, size, mode, mtimeMs, docId := none,
    versions := [{ setAtMs := mtimeMs, locator, size, conflict := false }] }

def updated (drive : FileDrive) (path : String) (change : FileNode → FileNode) :
    Except String (String × FileDrive) :=
  if (find drive path).isSome then
    .ok ("", drive.map fun node => if node.path = pathOf (names path) then change node else node)
  else .error "no such path"

/-- Put a node under a directory, unless the path is taken. -/
def created (drive : FileDrive) (parent name fresh : String) (kind : NodeKind)
    (content : Option FileContent) : Except String (String × FileDrive) :=
  match find drive (joined parent name) with
  | some _ => .error "exists"
  | none =>
    if isDirectory drive parent then
      .ok (fresh, drive ++
        [{ path := joined parent name, id := fresh, kind, content, info := noMeta }])
    else .error "no such directory"

/-- A node and what lies beneath it. -/
def within (path : String) (node : FileNode) : Bool := (names path).isPrefixOf (names node.path)

def below (path : String) (node : FileNode) : List String :=
  (names node.path).drop (names path).length

def attempt (fresh : String) (drive : FileDrive) : DriveCall → Except String (String × FileDrive)
  | .addFile parent name content =>
    match find drive (joined parent name) with
    | some node => (updated drive node.path fun found => { found with content := some content }).map
        fun (_, after) => (node.id, after)
    | none => created drive parent name fresh .file (some content)
  | .mkdir parent name => created drive parent name fresh .dir none
  | .mv path toParent toName =>
    if (find drive path).isSome ∧ isDirectory drive toParent ∧
        (find drive (joined toParent toName)).isNone then
      .ok ("", drive.map fun node =>
        if within path node then
          { node with path := pathOf (names toParent ++ toName :: below path node) }
        else node)
    else .error "cannot move"
  | .rm path =>
    if (find drive path).isSome then .ok ("", drive.filter fun node => !within path node)
    else .error "no such path"
  | .setProp path key value => updated drive path fun node =>
      { node with info := { node.info with
          props := node.info.props.filter (·.1 != key) ++ [(key, value)] } }
  | .unsetProp path key => updated drive path fun node =>
      { node with info := { node.info with props := node.info.props.filter (·.1 != key) } }
  | .addTag path tag => updated drive path fun node =>
      { node with info := { node.info with tags := node.info.tags.filter (· != tag) ++ [tag] } }
  | .removeTag path tag => updated drive path fun node =>
      { node with info := { node.info with tags := node.info.tags.filter (· != tag) } }
  | .link path rel target => updated drive path fun node =>
      { node with info := { node.info with
          links := node.info.links.filter (· != (rel, target)) ++ [(rel, target)] } }
  | .unlink path rel target => updated drive path fun node =>
      { node with info := { node.info with
          links := node.info.links.filter (· != (rel, target)) } }

/-- A mutation that fails leaves the drive as it was. -/
def call (log : Option String) (drive : FileDrive) (made : DriveCall) :
    Except String String × FileDrive :=
  match log with
  | none => (.error "log closed", drive)
  | some fresh =>
    match attempt fresh drive made with
    | .error e => (.error e, drive)
    | .ok (answer, after) => (.ok answer, after)

def core : SyncedDrive FileDrive FileDrive (Option String) where
  fresh := []
  root := "root"
  resolve := resolve
  contentOf drive nodeId := (byId drive nodeId).bind (·.content)
  edgeKind drive nodeId := (byId drive nodeId).map (·.kind)
  ls := ls
  metaOf drive nodeId := (byId drive nodeId).map (·.info)
  backlinks drive target := drive.flatMap fun node =>
    (node.info.links.filter (·.2 == target)).map fun link => (node.id, link.1)
  toState := id
  call := call
  newContent := newContent
  objectLocator objectCid := { text := "blob:" ++ objectCid }
  cid content := String.ofList ((content.locator.text.toList.dropWhile (· != ':')).drop 1)
  display := Locator.text
  parseTarget text := { text }
  targetKey := LinkTarget.text

theorem core_failsUnchanged : core.FailsUnchanged := by
  intro log drive made e after failed
  change call log drive made = (.error e, after) at failed
  unfold call at failed
  split at failed
  · exact (Prod.mk.inj failed).2.symm
  · split at failed
    · exact (Prod.mk.inj failed).2.symm
    · exact nomatch (Prod.mk.inj failed).1

theorem core_failsClean : core.FailsClean := by
  intro log drive made e after failed
  rw [core_failsUnchanged log drive made e after failed]

def file (path nodeId objectCid : String) (mtimeMs : Nat) : FileNode :=
  { path, id := nodeId, kind := .file,
    content := some (newContent { text := "blob:" ++ objectCid } 1 0o644 mtimeMs), info := noMeta }

def directory (path nodeId : String) : FileNode :=
  { path, id := nodeId, kind := .dir, content := none, info := noMeta }

def textBytes (text : String) : Bytes := text.toList.map fun c => UInt8.ofNat c.toNat

/-- The state in bytes: the paths, the objects and the properties, closed by marks. -/
def encodeState (drive : FileDrive) : Bytes :=
  drive.flatMap fun node =>
    textBytes node.path ++ [0] ++
      (node.content.map fun content => textBytes content.locator.text).getD [] ++ [1] ++
      node.info.props.flatMap fun prop => textBytes prop.1 ++ [2] ++ textBytes prop.2 ++ [3]

/-- The content address of the reference store: the bytes themselves. -/
def cidOf (bytes : Bytes) : String := String.ofList (bytes.map fun byte => Char.ofNat byte.toNat)

/-- A codec with a table of the JSON texts that parse. -/
def codec (texts : List (Bytes × Json)) : Codec FileDrive where
  encodeState drive := .ok (encodeState drive)
  decodeManifest _ := .error "no manifest"
  decodeReq _ := .error "no request"
  encodeBeacon beacon := .ok (textBytes beacon.drive ++ [0] ++ textBytes (toString beacon.maxSeq))
  parseJson bytes := Outcome.okOr (texts.lookup bytes) "not JSON"
  encodeJson _ := .error "not encoded"
  base64Encode _ := ""
  base64Decode _ := none
  decodeExtracted _ := none

/-- A world where the log answers as given and no app does. -/
def world (log : Option String) : AddressedWorld (Option String) cidOf where
  nowSecs := 10
  nowMs := 10000
  revoked := .ok []
  putObject bytes := .ok (cidOf bytes)
  getBlob _ := .error "not found"
  getObject _ := .error "not found"
  findService _ := .error "not found"
  request _ _ _ := .error "not found"
  publish _ _ := .ok ()
  env := log
  addressed _ _ answered := (Except.ok.inj answered).symm

def quota : Quota :=
  { pricePerGibMonth := "0", pricePerGibEgress := "0", freeTierBytes := 0,
    channelRequired := false }

/-- A host whose key is node 1, with the chains its tokens decode to. -/
def host (tokens : List (String × List SignedCapability)) (texts : List (Bytes × Json)) :
    Host FileDrive FileDrive (Option String) where
  server := {
    iam := iam tokens
    hostId := node 1
    acceptedRoots := []
    loadIdentity := .ok (identity 1)
    sha256 := id }
  core := core
  codec := codec texts

/-- The host's grant of a subtree of drive `team` to node 2. -/
def grant (path : String) : SignedCapability :=
  issue (identity 1) (node 2) [Ability.read, Ability.write] .any
    { Caveats.default with pathPrefix := some (driveCaveatPrefix "team" path) } 1 none

def sender : String := "0202020202020202020202020202020202020202020202020202020202020202"

def registry (driveId : String) (drive : FileDrive) : Registry FileDrive :=
  { drives := [(driveId, Tenant.new drive quota)], distinct := List.nodup_singleton _ }

def teamDrive : FileDrive := [file "/a" "n1" "o1" 1000]

def teamRegistry : Registry FileDrive := registry "team" teamDrive

end DriveServe.Reference
