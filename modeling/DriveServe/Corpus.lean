import DriveServe.Drive
import DriveServe.Path
import Mathlib.Data.List.Sort

set_option autoImplicit false

/-! The corpus surface: a drive's files as items an index can hold. -/

namespace DriveServe

/-- `serde_json::Value`; a number is kept as what `as_u64` reads of it. -/
inductive Json where
  | null
  | bool (value : Bool)
  | number (asU64 : Option Nat)
  | string (value : String)
  | array (values : List Json)
  | object (fields : List (String × Json))

namespace Json

def get (value : Json) (key : String) : Option Json :=
  match value with
  | .object fields => fields.lookup key
  | _ => none

def asStr : Json → Option String
  | .string value => some value
  | _ => none

def asU64 : Json → Option Nat
  | .number value => value
  | _ => none

end Json

/-- What a kind app returns from `extract`. -/
structure Extracted where
  title : Option String
  text : String
  links : List (String × String)
  props : List (String × String)
  tags : List String
  unextracted : Bool
  deriving DecidableEq, Repr

def Extracted.missing : Extracted :=
  { title := none, text := "", links := [], props := [], tags := [], unextracted := true }

namespace Corpus

/-- A map ordered by key, `BTreeMap`. -/
abbrev Props := List (String × String)

namespace Props

def insert (key value : String) : Props → Props
  | [] => [(key, value)]
  | (k, v) :: rest =>
    if key = k then (key, value) :: rest
    else if key < k then (key, value) :: (k, v) :: rest
    else (k, v) :: insert key value rest

/-- `entry(key).or_insert(value)`. -/
def orInsert (props : Props) (entry : String × String) : Props :=
  if (props.lookup entry.1).isSome then props else insert entry.1 entry.2 props

end Props

structure NodeFacts where
  nodeId : String
  path : String
  size : Nat
  mtimeMs : Nat
  kind : Option String
  locator : String
  tags : List String
  links : List (String × String)
  props : Props
  deriving DecidableEq, Repr

structure Item where
  id : String
  kind : String
  title : String
  text : String
  reference : String
  updated : Nat
  tags : List String
  links : List (String × String)
  info : Props
  deriving DecidableEq, Repr

/-- Push what is not there yet, one after the other. -/
def pushNew {α : Type} [DecidableEq α] (held more : List α) : List α :=
  more.foldl (fun held x => if x ∈ held then held else held ++ [x]) held

def dirOf (path : String) : String :=
  let dir := (path.toList.rdropWhile (· != '/')).dropLast
  if dir = [] then "/" else String.ofList dir

/-- One corpus item from what the drive knows and what the kind app extracted. -/
def itemFrom (facts : NodeFacts) (extracted : Extracted) : Item :=
  let name := lastSegment facts.path
  let title := ((extracted.title.map trim).filter (· != "")).getD name
  let info := extracted.props.foldl Props.orInsert facts.props
  let info := Props.insert "path" facts.path info
  let info := Props.insert "dir" (dirOf facts.path) info
  let info := Props.insert "size" (toString facts.size) info
  let info := Props.insert "locator" facts.locator info
  let info := if extracted.unextracted then
      let info := Props.insert "unextracted" "true" info
      match facts.kind with
      | some kind => Props.insert "unextracted_kind" kind info
      | none => info
    else info
  { id := facts.nodeId, kind := facts.kind.getD "file", title, text := extracted.text,
    reference := facts.path, updated := facts.mtimeMs / 1000,
    tags := pushNew facts.tags extracted.tags, links := pushNew facts.links extracted.links, info }

def kindProp : String := "kind"

def itemsTopic : String := "ce-drive/items"

def itemsService : String := "ce-drive.corpus"

/-- Larger files are indexed without their content. -/
def extractMaxBytes : Nat := 8 * 1024 * 1024

section

variable {δ σ ε : Type}

/-- What the drive knows of a file with content. -/
def factsOf (core : SyncedDrive δ σ ε) (drive : δ) (path nodeId : String)
    (content : FileContent) : NodeFacts :=
  let info := core.metaOf drive nodeId
  let props := (info.map NodeMeta.props).getD []
  { nodeId, path, size := content.size, mtimeMs := content.mtimeMs, kind := props.lookup kindProp,
    locator := core.display content.locator, tags := (info.map NodeMeta.tags).getD [],
    links := ((info.map NodeMeta.links).getD []).map fun (rel, target) =>
      (rel, core.targetKey target),
    props }

/-- One line of a listing: a directory is stacked, a file with content is noted. -/
def visit (core : SyncedDrive δ σ ε) (drive : δ) (dir : String)
    (walk : List String × List NodeFacts) (e : DirEntry) : List String × List NodeFacts :=
  let child := if dir = "/" then "/" ++ e.name else dir ++ "/" ++ e.name
  if e.isDir then (child :: walk.1, walk.2)
  else
    match e.content with
    | none => walk
    | some content => (walk.1, walk.2 ++ [factsOf core drive child e.nodeId content])

end

end Corpus

/-- The walk over a stack of directories, last pushed first. It has no result where
it goes on for ever. -/
def SyncedDrive.walk {δ σ ε : Type} (core : SyncedDrive δ σ ε) (drive : δ) :
    (stack : List String) → (out : List Corpus.NodeFacts) → Option (List Corpus.NodeFacts)
  | [], out => some out
  | dir :: stack, out =>
    match core.ls drive dir with
    | .error _ => core |>.walk drive stack out
    | .ok entries =>
      let next := entries.foldl (Corpus.visit core drive dir) (stack, out)
      core |>.walk drive next.1 next.2
partial_fixpoint

namespace Corpus

section

variable {δ σ ε : Type}

@[simp]
theorem walk_nil (core : SyncedDrive δ σ ε) (drive : δ) (out : List NodeFacts) :
    core.walk drive [] out = some out := by
  rw [SyncedDrive.walk]

theorem walk_ok {core : SyncedDrive δ σ ε} {drive : δ} {dir : String} {entries : List DirEntry}
    (listed : core.ls drive dir = .ok entries) (stack : List String) (out : List NodeFacts) :
    core.walk drive (dir :: stack) out =
      core.walk drive (entries.foldl (visit core drive dir) (stack, out)).1
        (entries.foldl (visit core drive dir) (stack, out)).2 := by
  rw [SyncedDrive.walk, listed]

theorem walk_error {core : SyncedDrive δ σ ε} {drive : δ} {dir e : String}
    (refused : core.ls drive dir = .error e) (stack : List String) (out : List NodeFacts) :
    core.walk drive (dir :: stack) out = core.walk drive stack out := by
  rw [SyncedDrive.walk, refused]

/-- Every file under `path`, ordered by path. -/
def walkFacts (core : SyncedDrive δ σ ε) (drive : δ) (path : String) : Option (List NodeFacts) :=
  (core.walk drive [path] []).map fun out => out.insertionSort fun a b => ¬ b.path < a.path

end

/-- What changed at or after `since`; everything for 0. -/
def changedSince (facts : List NodeFacts) (since : Nat) : List NodeFacts :=
  if since = 0 then facts else facts.filter fun f => decide (since ≤ f.mtimeMs / 1000)

structure ItemsPage where
  drive : String
  items : List Item
  cursor : Option Nat
  more : Bool
  returned : Nat
  deriving DecidableEq, Repr

structure ItemsArgs where
  drive : Option String
  path : String
  offset : Nat
  limit : Nat
  since : Nat
  deriving DecidableEq, Repr

namespace ItemsArgs

def maxLimit : Nat := 200

def parse (request : Json) : ItemsArgs :=
  let args := (request.get "args").getD .null
  let number := fun key => (args.get key).bind Json.asU64
  { drive := (args.get "drive").bind Json.asStr
    path := ((args.get "path").bind Json.asStr).getD "/"
    offset := (number "offset").getD 0
    limit := min (max ((number "limit").getD 50) 1) maxLimit
    since := (number "since").getD 0 }

theorem parse_limit (request : Json) : 1 ≤ (parse request).limit := by
  simp only [parse, maxLimit]
  omega

end ItemsArgs

end Corpus

end DriveServe
