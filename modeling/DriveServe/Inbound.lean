import DriveServe.Effects

set_option autoImplicit false

/-! One message off the mesh: the filter, the two envelopes and their replies. -/

namespace DriveServe

open Corpus

section

variable {δ σ ε : Type}

/-- `str::split_once(':')`. -/
def splitOnceColon (s : String) : Option (String × String) :=
  if ':' ∈ s.toList then
    some (String.ofList (s.toList.takeWhile (· != ':')),
      String.ofList ((s.toList.dropWhile (· != ':')).drop 1))
  else none

def extractRequest (codec : Codec σ) (bytes : Bytes) (name : String) : Json :=
  .object [("args", .object [("base64", .string (codec.base64Encode bytes)),
    ("name", .string name)]), ("op", .string "extract")]

/-- A kind app's reply; whatever is wrong with it leaves the file unextracted. -/
def extractReply (codec : Codec σ) (raw : Bytes) : Extracted :=
  match codec.parseJson raw with
  | .error _ => .missing
  | .ok value =>
    match value.get "result" with
    | some result => (codec.decodeExtracted result).getD .missing
    | none => .missing

def decodeContentReply (codec : Codec σ) (raw : Bytes) : Option Bytes := do
  let value ← (codec.parseJson raw).toOption
  let result ← value.get "result"
  let base64 ← result.get "base64"
  let text ← base64.asStr
  codec.base64Decode text

def callApp (world : World ε) (service : String) (body : Bytes) : Option Bytes := do
  let providers ← (world.findService service).toOption
  let peer ← providers.head?
  (world.request peer (service ++ "/ctl") body).toOption

/-- A file's bytes, from the content app its locator names. -/
def fetchContent (codec : Codec σ) (world : World ε) (facts : NodeFacts) : Option Bytes :=
  match splitOnceColon facts.locator with
  | none => none
  | some (app, id) =>
    if app = "" ∨ id = "" then none
    else
      let request : Json := .object [("args", .object [("id", .string id)]), ("op", .string "get")]
      let asked := do
        let body ← (codec.encodeJson request).toOption
        let raw ← callApp world app body
        decodeContentReply codec raw
      match asked with
      | some bytes => some bytes
      | none => if app = "blob" then (world.getObject id).toOption else none

/-- Fetch a file's bytes and route them to its kind app. -/
def extractNode (codec : Codec σ) (world : World ε) (facts : NodeFacts) : Extracted :=
  match facts.kind.filter (· != "") with
  | none => .missing
  | some kind =>
    if extractMaxBytes < facts.size then .missing
    else
      let extracted := do
        let bytes ← fetchContent codec world facts
        let body ← (codec.encodeJson
          (extractRequest codec bytes (lastSegment facts.path))).toOption
        let raw ← callApp world kind body
        return extractReply codec raw
      extracted.getD .missing

/-- What the corpus topic is answered; the fixed `ops` help of `describe` is left out. -/
inductive ItemsReply where
  | error (message : String)
  | describe (service topic summary : String) (drives : List String)
  | page (page : ItemsPage)
  deriving DecidableEq, Repr

def itemsPage (codec : Codec σ) (world : World ε) (args : ItemsArgs) (driveId : String)
    (facts : List NodeFacts) : ItemsPage :=
  let facts := changedSince facts args.since
  let items := ((facts.drop args.offset).take args.limit).map fun f =>
    itemFrom f (extractNode codec world f)
  let next := args.offset + items.length
  let more := decide (next < facts.length)
  { drive := driveId, returned := items.length, items,
    cursor := if more then some next else none, more }

/-- The drive an items request is about: the named one, or the first there is. -/
def itemsDrive (args : ItemsArgs) (registry : Registry δ) : Option String :=
  match args.drive with
  | some driveId => some driveId
  | none => registry.driveIds.head?

def opItems (host : Host δ σ ε) (world : World ε) (registry : Registry δ) (args : ItemsArgs) :
    Option ItemsReply :=
  match itemsDrive args registry with
  | none => some (.error "this host serves no drives")
  | some driveId =>
    match registry.get driveId with
    | none => some (.error ("no such drive: " ++ driveId))
    | some tenant =>
      (walkFacts host.core tenant.drive (normPath args.path)).map fun facts =>
        .page (itemsPage host.codec world args driveId facts)

def itemsSummary : String :=
  "ce-drive's corpus surface: every node as an indexable item, keyed by stable node id, with " ++
  "content extracted by the kind app named in props.kind. ce-drive routes; it does not read " ++
  "formats or search."

def itemsOp (value : Json) : String := ((value.get "op").bind Json.asStr).getD ""

def answerItems (host : Host δ σ ε) (world : World ε) (registry : Registry δ) (payload : Bytes) :
    Option ItemsReply :=
  match host.codec.parseJson payload with
  | .error e => some (.error ("request is not JSON: " ++ e))
  | .ok value =>
    let op := itemsOp value
    if op = "describe" ∨ op = "ping" then
      some (.describe itemsService itemsTopic itemsSummary registry.driveIds)
    else if op = "items" then opItems host world registry (ItemsArgs.parse value)
    else some (.error ("unknown op: " ++ op ++ " (see describe)"))

def answerMessage (host : Host δ σ ε) (world : World ε) (registry : Registry δ)
    (fromHex : String) (payload : Bytes) : Served δ :=
  match host.codec.decodeReq payload with
  | .ok req => dispatch host world registry fromHex req
  | .error e => .unchanged registry (.error (.internal ("decode: " ++ e)))

structure AppMessage where
  fromHex : String
  topic : String
  payloadHex : String
  replyToken : Option Nat
  deriving DecidableEq, Repr

inductive InboundReply where
  | drive (reply : DriveReply)
  | items (reply : ItemsReply)

/-- What the serve loop is left with after one message. -/
structure Inbound (δ : Type) where
  registry : Registry δ
  seen : List Nat
  reply : Option (Nat × InboundReply)
  beacon : Option Announcement

/-- A token just handled; the set starts over when it grows past its bound. -/
def remember (seen : List Nat) (token : Nat) : List Nat :=
  let seen := token :: seen
  if 8192 < seen.length then [token] else seen

/-- Filter, dedup and dispatch one message. There is no result where serving it never
ends. -/
def handleInbound (host : Host δ σ ε) (world : World ε) (registry : Registry δ) (seen : List Nat)
    (m : AppMessage) : Option (Inbound δ) :=
  let ignored : Inbound δ := { registry, seen, reply := none, beacon := none }
  match m.replyToken with
  | none => some ignored
  | some token =>
    if m.topic ≠ driveTopic ∧ m.topic ≠ itemsTopic then some ignored
    else if token ∈ seen then some ignored
    else
      let seen := remember seen token
      match hexDecode m.payloadHex.toList with
      | none => some { registry, seen, reply := none, beacon := none }
      | some payload =>
        if m.topic = itemsTopic then
          (answerItems host world registry payload).map fun reply =>
            { registry, seen, reply := some (token, .items reply), beacon := none }
        else
          let served := answerMessage host world registry m.fromHex payload
          some { registry := served.registry, seen, reply := some (token, .drive served.reply),
                 beacon := served.beacon }

inductive Route where
  | ignored (seen : List Nat)
  | items (token : Nat) (payload : Bytes) (seen : List Nat)
  | drive (token : Nat) (payload : Bytes) (seen : List Nat)

def Route.seen : Route → List Nat
  | .ignored seen | .items _ _ seen | .drive _ _ seen => seen

/-- The filter, the dedup and the decoding of the payload. -/
def route (seen : List Nat) (m : AppMessage) : Route :=
  match m.replyToken with
  | none => .ignored seen
  | some token =>
    if m.topic ≠ driveTopic ∧ m.topic ≠ itemsTopic then .ignored seen
    else if token ∈ seen then .ignored seen
    else
      match hexDecode m.payloadHex.toList with
      | none => .ignored (remember seen token)
      | some payload =>
        if m.topic = itemsTopic then .items token payload (remember seen token)
        else .drive token payload (remember seen token)

/-- The registry has no say in where a message goes. -/
theorem handleInbound_eq (host : Host δ σ ε) (world : World ε) (registry : Registry δ)
    (seen : List Nat) (m : AppMessage) :
    handleInbound host world registry seen m =
      match route seen m with
      | .ignored seen => some { registry, seen, reply := none, beacon := none }
      | .items token payload seen =>
        (answerItems host world registry payload).map fun reply =>
          { registry, seen, reply := some (token, .items reply), beacon := none }
      | .drive token payload seen =>
        let served := answerMessage host world registry m.fromHex payload
        some { registry := served.registry, seen, reply := some (token, .drive served.reply),
               beacon := served.beacon } := by
  unfold handleInbound route
  cases m.replyToken with
  | none => rfl
  | some token =>
    dsimp only
    split
    · rfl
    · split
      · rfl
      · cases hexDecode m.payloadHex.toList with
        | none => rfl
        | some payload =>
          dsimp only
          split <;> rfl

theorem route_items_iff (seen after : List Nat) (m : AppMessage) (token : Nat) (payload : Bytes) :
    route seen m = .items token payload after ↔
      m.replyToken = some token ∧ m.topic = itemsTopic ∧ token ∉ seen ∧
        hexDecode m.payloadHex.toList = some payload ∧ remember seen token = after := by
  unfold route
  cases m.replyToken with
  | none => simp
  | some other =>
    cases hexDecode m.payloadHex.toList with
    | none => simp only; split <;> grind
    | some bytes => simp only; split <;> grind

theorem topic_of_route_drive {seen after : List Nat} {m : AppMessage} {token : Nat}
    {payload : Bytes} (routed : route seen m = .drive token payload after) :
    m.topic = driveTopic ∧ hexDecode m.payloadHex.toList = some payload := by
  unfold route at routed
  cases asked : m.replyToken with
  | none => simp [asked] at routed
  | some other =>
    cases decoded : hexDecode m.payloadHex.toList with
    | none => simp only [asked, decoded] at routed; grind
    | some bytes => simp only [asked, decoded] at routed; grind

end

end DriveServe
