import DriveServe.HexText
import DriveServe.Inbound
import DriveServe.Interference
import DriveServe.JsReplies
import DriveServe.Refinement
import DriveServe.SdkRequests

set_option autoImplicit false

/-! A client's calls, from the method to what it returns: the provider it asks, the request
in bytes and in hex, the node between, the host's filter and gate, and the reply on its way
back. -/

namespace DriveServe

open Bincode (Text)

/-- What a call raises: an error of the SDK's own, or some other exception. -/
inductive Raised where
  | drive (e : DriveError)
  | other (text : String)

/-- A client SDK, as a call passes through it. -/
structure Speaker (κ : Type) where
  intended : κ → DriveOp
  encode : (drive cap : String) → κ → Except String Bytes
  unhex : String → Except String Bytes
  decode : Bytes → Except DriveError Sdk.Value

def Py.speaker : Speaker Py.Call where
  intended := Call.intended
  encode := encReq
  unhex := fromHex
  decode := decReply

def Js.speaker (digits : Nat → String) : Speaker Js.Call where
  intended := Call.intended
  encode drive cap call := .ok (encodeReq drive cap call)
  unhex text := .ok (Js.unhex text)
  decode := decodeReply digits

/-- The client's node, in the course of one call: what discovery answers, which node it is,
and what becomes of a request. -/
structure Node (ν : Type) where
  find : Except DriveError (List String)
  status : Except DriveError String
  request : (target topic payloadHex : String) → ν → Option (Except DriveError String × ν)

/-- The node hosting the drive, and the provider that is known from then on. -/
def resolveProvider {ν : Type} (node : Node ν) (provider : Option String) :
    Except DriveError String × Option String :=
  match provider.filter (· != "") with
  | some known => (.ok known, provider)
  | none =>
    match node.find with
    | .ok (first :: _) => (.ok first, some first)
    | .ok [] | .error _ =>
      match node.status with
      | .ok nodeId => (.ok nodeId, some nodeId)
      | .error e => (.error e, provider)

namespace Speaker

variable {κ ν : Type}

/-- `_call`: the result, the provider known after it, and what is left of the world. -/
def call (speaker : Speaker κ) (node : Node ν) (drive cap : String) (made : κ)
    (provider : Option String) (net : ν) :
    Option (Except Raised Sdk.Value × Option String × ν) :=
  match resolveProvider node provider with
  | (.error e, provider) => some (.error (.drive e), provider, net)
  | (.ok target, provider) =>
    match speaker.encode drive cap made with
    | .error e => some (.error (.other e), provider, net)
    | .ok payload =>
      (node.request target driveTopic (hexEncode payload) net).map fun
        | (.error e, net) => (.error (.drive e), none, net)  -- re-discover next call
        | (.ok answer, net) =>
          match speaker.unhex answer with
          | .error e => (.error (.other e), provider, net)
          | .ok bytes => ((speaker.decode bytes).mapError .drive, provider, net)

/-- What the proofs need of an SDK: it writes the host's layout, and reads hex and replies
back, text as `read` says. -/
structure Sound (speaker : Speaker κ) (read : String → String) (fits : Bytes → Prop) : Prop where
  encode : ∀ drive cap made, Text drive → Text cap → (speaker.intended made).InRange →
    speaker.encode drive cap made = .ok (encodeReq { drive, cap, op := speaker.intended made })
  unhex : ∀ bytes, speaker.unhex (hexEncode bytes) = .ok bytes
  value : ∀ ok, DriveOk.InRange ok → fits (encodeReply (.ok ok)) →
    speaker.decode (encodeReply (.ok ok)) = .ok (Sdk.Value.of read ok).keyed
  raised : ∀ err, DriveErr.InRange err → fits (encodeReply (.error err)) →
    speaker.decode (encodeReply (.error err)) = .error (Sdk.errorOf read err)
  empty : speaker.decode [] =
    .error (.plain "empty reply from drive host (no provider, or it dropped the request)")

end Speaker

theorem Py.speaker_sound : Py.speaker.Sound id fun _ => True where
  encode _ _ _ driveText capText inRange := Py.encReq_ok driveText capText inRange
  unhex := Py.fromHex_hexEncode
  value ok inRange fit := by
    have decoded := Py.dialect_sound.decReply_ok inRange [] fit
    rwa [List.append_nil] at decoded
  raised err inRange fit := by
    have decoded := Py.dialect_sound.decReply_error inRange [] fit
    rwa [List.append_nil] at decoded
  empty := rfl

theorem Js.speaker_sound (digits : Nat → String) :
    (Js.speaker digits).Sound stripMark fun bytes => bytes.length < 2 ^ 53 where
  encode drive cap made _ _ _ := congrArg Except.ok (Js.encodeReq_eq drive cap made)
  unhex bytes := congrArg Except.ok (Js.unhex_hexEncode bytes)
  value _ inRange fit := Js.decodeReply_ok digits inRange fit
  raised _ inRange fit := Js.decodeReply_error digits inRange fit
  empty := rfl

variable {δ σ ε κ : Type}

/-- How a request fares between the client's node and the host. -/
inductive Journey where
  | answered
  /-- It gets to the host, but no answer comes back in time. -/
  | unanswered (e : DriveError)
  | lost (e : DriveError)
  /-- Nobody takes it, and the node answers without a payload. -/
  | blank

structure Passage where
  find : Except DriveError (List String)
  status : Except DriveError String
  journey : Journey
  token : Nat

structure Mesh (δ : Type) where
  registry : Registry δ
  seen : List Nat

structure Client where
  nodeHex : String
  drive : String
  cap : String

def Host.nodeHex (host : Host δ σ ε) : String := hexEncode host.server.hostId.bytes

def Inbound.payloadHex (inbound : Inbound δ) : String :=
  match inbound.reply with
  | some (_, .drive reply) => hexEncode (encodeReply reply)
  | some (_, .items _) | none => ""

def Client.request (client : Client) (op : DriveOp) : DriveReq :=
  { drive := client.drive, cap := client.cap, op }

def Client.message (client : Client) (token : Nat) (topic payloadHex : String) : AppMessage :=
  { fromHex := client.nodeHex, topic, payloadHex, replyToken := some token }

/-- A request is handed to the host, under a token the host has not seen. -/
def hand (host : Host δ σ ε) (world : World ε) (client : Client) (token : Nat)
    (target topic payloadHex : String) (mesh : Mesh δ) : Option (String × Mesh δ) :=
  if target = host.nodeHex ∧ token ∉ mesh.seen then
    (handleInbound host world mesh.registry mesh.seen
      (client.message token topic payloadHex)).map fun inbound =>
        (inbound.payloadHex, { registry := inbound.registry, seen := inbound.seen })
  else none

def Passage.node (passage : Passage) (host : Host δ σ ε) (world : World ε) (client : Client) :
    Node (Mesh δ) where
  find := passage.find
  status := passage.status
  request target topic payloadHex mesh :=
    match passage.journey with
    | .lost e => some (.error e, mesh)
    | .blank => some (.ok "", mesh)
    | .answered =>
      (hand host world client passage.token target topic payloadHex mesh).map fun (answer, mesh) =>
        (.ok answer, mesh)
    | .unanswered e =>
      (hand host world client passage.token target topic payloadHex mesh).map fun (_, mesh) =>
        (.error e, mesh)

/-- What happens while a client is at work: a call of its own, or a message of anybody's. -/
inductive SessionEvent (κ ε : Type) where
  | call (made : κ) (passage : Passage) (world : World ε)
  | message (m : AppMessage) (world : World ε)

structure Session (δ : Type) where
  provider : Option String
  mesh : Mesh δ
  /-- What the calls have come to, in the order they were made. -/
  results : List (Except Raised Sdk.Value)

def Session.step (speaker : Speaker κ) (host : Host δ σ ε) (client : Client)
    (session : Session δ) : SessionEvent κ ε → Option (Session δ)
  | .call made passage world =>
    (speaker.call (passage.node host world client) client.drive client.cap made session.provider
      session.mesh).map fun (result, provider, mesh) =>
        { provider, mesh, results := session.results ++ [result] }
  | .message m world =>
    (handleInbound host world session.mesh.registry session.mesh.seen m).map fun inbound =>
      { session with mesh := { registry := inbound.registry, seen := inbound.seen } }

/-! The same without bytes: requests are dispatched as they are meant. -/

def readReply (read : String → String) : DriveReply → Except Raised Sdk.Value
  | .ok ok => .ok (Sdk.Value.of read ok).keyed
  | .error err => .error (.drive (Sdk.errorOf read err))

structure Direct (δ : Type) where
  provider : Option String
  registry : Registry δ
  /-- The tokens by which the host knows a message that it has had before. -/
  seen : List Nat
  results : List (Except Raised Sdk.Value)

/-- A turn of the direct system: a client's op, or somebody's message. -/
inductive DirectTurn (ε : Type) where
  | call (op : DriveOp) (passage : Passage) (world : World ε)
  | message (m : AppMessage) (world : World ε)

/-- What a message asks for, past the filter and the dedup. -/
def asks (host : Host δ σ ε) (world : World ε) (seen : List Nat) (m : AppMessage) :
    Option (Arrival ε) :=
  match route seen m with
  | .drive _ payload _ =>
    match host.codec.decodeReq payload with
    | .ok req => some { fromHex := m.fromHex, req, world }
    | .error _ => none
  | .ignored _ | .items .. => none

def emptyReply : DriveError :=
  .plain "empty reply from drive host (no provider, or it dropped the request)"

namespace Direct

def returned (direct : Direct δ) (provider : Option String)
    (result : Except Raised Sdk.Value) : Direct δ :=
  { direct with provider, results := direct.results ++ [result] }

def served (direct : Direct δ) (registry : Registry δ) (token : Nat) : Direct δ :=
  { direct with registry, seen := remember direct.seen token }

def step (host : Host δ σ ε) (read : String → String) (client : Client) (direct : Direct δ) :
    DirectTurn ε → Option (Direct δ)
  | .call op passage world =>
    let outcome := dispatch host world direct.registry client.nodeHex (client.request op)
    let served := direct.served outcome.registry passage.token
    match resolveProvider (passage.node host world client) direct.provider with
    | (.error e, provider) => some (direct.returned provider (.error (.drive e)))
    | (.ok target, provider) =>
      match passage.journey with
      | .lost e => some (direct.returned none (.error (.drive e)))
      | .blank => some (direct.returned provider (.error (.drive emptyReply)))
      | .answered =>
        if target = host.nodeHex then
          some (served.returned provider (readReply read outcome.reply))
        else none
      | .unanswered e =>
        if target = host.nodeHex then some (served.returned none (.error (.drive e))) else none
  | .message m world =>
    let seen := (route direct.seen m).seen
    match asks host world direct.seen m with
    | none => some { direct with seen }
    | some arrival =>
      some { direct with registry := (respond host direct.registry arrival).2, seen }

end Direct

/-- The host's decoder reads what is laid out as the declarations say, whatever follows. -/
def Codec.ReadsLayout {σ : Type} (codec : Codec σ) : Prop :=
  ∀ bytes req rest, decodeReqRest bytes = .ok (req, rest) → codec.decodeReq bytes = .ok req

/-- A message leaves the registry as dispatching what it asks for does. -/
theorem handleInbound_registry {host : Host δ σ ε} {world : World ε} {mesh : Mesh δ}
    {m : AppMessage} {inbound : Inbound δ}
    (handled : handleInbound host world mesh.registry mesh.seen m = some inbound) :
    inbound.registry = (match asks host world mesh.seen m with
      | none => mesh.registry
      | some arrival => (respond host mesh.registry arrival).2) ∧
      inbound.seen = (route mesh.seen m).seen := by
  rw [handleInbound_eq] at handled
  unfold asks
  cases routed : route mesh.seen m with
  | ignored seen =>
    simp only [routed, Option.some.injEq] at handled
    rw [← handled]
    exact ⟨rfl, rfl⟩
  | items token payload seen =>
    simp only [routed, Option.map_eq_some_iff] at handled
    obtain ⟨reply, _, rfl⟩ := handled
    exact ⟨rfl, rfl⟩
  | drive token payload seen =>
    simp only [routed, Option.some.injEq] at handled
    rw [← handled]
    dsimp only
    unfold answerMessage respond Route.seen
    cases host.codec.decodeReq payload with
    | error e =>
      dsimp only [Served.unchanged]
      exact ⟨rfl, rfl⟩
    | ok req =>
      dsimp only
      exact ⟨rfl, rfl⟩

theorem hand_encodeReq {host : Host δ σ ε} (layout : host.codec.ReadsLayout) {world : World ε}
    {client : Client} {token : Nat} {target : String} {mesh after : Mesh δ} {answer : String}
    (req : DriveReq) (driveText : Text req.drive) (capText : Text req.cap)
    (inRange : req.op.InRange)
    (handed : hand host world client token target driveTopic (hexEncode (encodeReq req)) mesh =
      some (answer, after)) :
    target = host.nodeHex ∧
      answer = hexEncode (encodeReply
        (dispatch host world mesh.registry client.nodeHex req).reply) ∧
      after.registry = (dispatch host world mesh.registry client.nodeHex req).registry ∧
      after.seen = remember mesh.seen token := by
  unfold hand at handed
  split at handed
  case isFalse => cases handed
  case isTrue fresh =>
    have routed : route mesh.seen (client.message token driveTopic (hexEncode (encodeReq req))) =
        .drive token (encodeReq req) (remember mesh.seen token) := by
      unfold route Client.message
      simp only [hexDecode_hexEncode]
      rw [if_neg (fun foreign => foreign.1 rfl), if_neg fresh.2, if_neg (by decide)]
    have read := decodeReq_encodeReq driveText capText inRange []
    rw [List.append_nil] at read
    rw [handleInbound_eq, routed] at handed
    simp only [answerMessage, Client.message, layout _ _ _ read, Option.map_some, Option.some.injEq,
      Prod.mk.injEq] at handed
    obtain ⟨rfl, rfl⟩ := handed
    dsimp only
    exact ⟨fresh.1, rfl, rfl, rfl⟩

/-- What the client holds, and what the host serves. -/
def Session.direct (session : Session δ) : Direct δ where
  provider := session.provider
  registry := session.mesh.registry
  seen := session.mesh.seen
  results := session.results

/-- The bounds that the types of the source put on a call and on its reply. -/
def Ranged (speaker : Speaker κ) (fits : Bytes → Prop) (host : Host δ σ ε) (client : Client)
    (session : Session δ) : SessionEvent κ ε → Prop
  | .call made _ world =>
    let served := dispatch host world session.mesh.registry client.nodeHex
      (client.request (speaker.intended made))
    (speaker.intended made).InRange ∧ ReplyInRange served.reply ∧
      fits (encodeReply served.reply)
  | .message .. => True

/-- A call is meant as the op it stands for, a message as it is. -/
def SessionEvent.meant (speaker : Speaker κ) : SessionEvent κ ε → DirectTurn ε
  | .call made passage world => .call (speaker.intended made) passage world
  | .message m world => .message m world

section

variable {speaker : Speaker κ} {read : String → String} {fits : Bytes → Prop}
  {host : Host δ σ ε} {client : Client}

/-- An answer that came back is read as the reply it is. -/
theorem Speaker.Sound.decode (sound : speaker.Sound read fits) {reply : DriveReply}
    (inRange : ReplyInRange reply) (fit : fits (encodeReply reply)) :
    (speaker.decode (encodeReply reply)).mapError Raised.drive = readReply read reply := by
  cases reply with
  | ok ok =>
    rw [sound.value ok inRange fit]
    rfl
  | error err =>
    rw [sound.raised err inRange fit]
    rfl

theorem call_direct (layout : host.codec.ReadsLayout) (sound : speaker.Sound read fits)
    (driveText : Text client.drive) (capText : Text client.cap) {session next : Session δ}
    {made : κ} {passage : Passage} {world : World ε}
    (ranged : Ranged speaker fits host client session (.call made passage world))
    (stepped : session.step speaker host client (.call made passage world) = some next) :
    Direct.step host read client session.direct
      (.call (speaker.intended made) passage world) = some next.direct := by
  dsimp only [Ranged] at ranged
  obtain ⟨inRange, replied, fit⟩ := ranged
  have answerRead := sound.decode replied fit
  obtain ⟨⟨result, provider, mesh⟩, called, rfl⟩ := Option.map_eq_some_iff.mp stepped
  unfold Speaker.call at called
  unfold Direct.step
  dsimp only [Session.direct]
  cases resolved : resolveProvider (passage.node host world client) session.provider with
  | mk found known =>
    rw [resolved] at called
    cases found with
    | error e =>
      obtain ⟨rfl, rfl, rfl⟩ := Option.some.inj called
      rfl
    | ok target =>
      have written := sound.encode client.drive client.cap made driveText capText inRange
      dsimp only at called ⊢
      rw [written] at called
      dsimp only [Passage.node] at called
      cases fares : passage.journey with
      | lost e =>
        rw [fares] at called
        obtain ⟨rfl, rfl, rfl⟩ := Option.some.inj called
        rfl
      | blank =>
        have nothing : speaker.unhex "" = .ok [] := sound.unhex []
        rw [fares, Option.map_some] at called
        dsimp only at called
        rw [nothing] at called
        dsimp only at called
        rw [sound.empty] at called
        obtain ⟨rfl, rfl, rfl⟩ := Option.some.inj called
        rfl
      | answered =>
        rw [fares] at called
        dsimp only at called
        rw [Option.map_map, Option.map_eq_some_iff] at called
        obtain ⟨⟨answer, after⟩, handed, returned⟩ := called
        obtain ⟨here, rfl, left, kept⟩ :=
          hand_encodeReq layout (client.request (speaker.intended made)) driveText capText inRange
            handed
        simp only [Function.comp, sound.unhex, answerRead, Prod.mk.injEq] at returned
        obtain ⟨rfl, rfl, rfl⟩ := returned
        dsimp only
        rw [if_pos here, left, kept, Direct.returned, Direct.served]
      | unanswered e =>
        rw [fares] at called
        dsimp only at called
        rw [Option.map_map, Option.map_eq_some_iff] at called
        obtain ⟨⟨answer, after⟩, handed, returned⟩ := called
        obtain ⟨here, _, left, kept⟩ :=
          hand_encodeReq layout (client.request (speaker.intended made)) driveText capText inRange
            handed
        simp only [Function.comp, Prod.mk.injEq] at returned
        obtain ⟨rfl, rfl, rfl⟩ := returned
        dsimp only
        rw [if_pos here, left, kept, Direct.returned, Direct.served]

theorem session_refines (layout : host.codec.ReadsLayout) (sound : speaker.Sound read fits)
    (driveText : Text client.drive) (capText : Text client.cap) :
    Refinement.Refines (Session.step speaker host client) (Ranged speaker fits host client)
      (Direct.step host read client) Session.direct (SessionEvent.meant speaker) := by
  intro session event next ranged stepped
  cases event with
  | call made passage world => exact call_direct layout sound driveText capText ranged stepped
  | message m world =>
    obtain ⟨inbound, handled, rfl⟩ := Option.map_eq_some_iff.mp stepped
    obtain ⟨left, kept⟩ := handleInbound_registry handled
    dsimp only [SessionEvent.meant, Direct.step, Session.direct]
    rw [left, kept]
    cases asks host world session.mesh.seen m <;> rfl

end

def DirectlyServed (speaker : Speaker κ) (read : String → String) (fits : Bytes → Prop)
    (host : Host δ σ ε) (client : Client) : Prop :=
  ∀ (first last : Session δ) (events : List (SessionEvent κ ε)),
    Runs.Run (Session.step speaker host client) (Ranged speaker fits host client) first events
        last →
      Runs.Free (Direct.step host read client) first.direct
        (events.map (SessionEvent.meant speaker)) last.direct

structure SessionsDirect (host : Host δ σ ε) (client : Client) : Prop where
  python : DirectlyServed Py.speaker id (fun _ => True) host client
  /-- JavaScript drops a byte order mark, and its positions are doubles. -/
  javascript : ∀ digits : Nat → String,
    DirectlyServed (Js.speaker digits) Js.stripMark (fun bytes => bytes.length < 2 ^ 53) host client

/-- Whole sessions of either SDK, with anybody's messages in between: the results, in their
order, are read off what the host dispatched for the ops the calls mean, each over the registry
as the requests before it have left it. -/
theorem sessions_direct {host : Host δ σ ε} (layout : host.codec.ReadsLayout) {client : Client}
    (driveText : Text client.drive) (capText : Text client.cap) : SessionsDirect host client where
  python _ _ _ run := (session_refines layout Py.speaker_sound driveText capText).run run
  javascript digits _ _ _ run :=
    (session_refines layout (Js.speaker_sound digits) driveText capText).run run

def wiredHost : Host Reference.FileDrive Reference.FileDrive (Option String) :=
  let host := Reference.host [("grant", [Reference.grant "/"])] []
  { host with codec := { host.codec with
      decodeReq := fun bytes => (decodeReqRest bytes).map Prod.fst } }

theorem wiredHost_readsLayout : wiredHost.codec.ReadsLayout := by
  intro bytes req rest read
  exact congrArg (Except.map Prod.fst) read

def teamClient : Client := { nodeHex := Reference.sender, drive := "team", cap := "grant" }

def passing (journey : Journey) (token : Nat) : Passage :=
  { find := .ok [wiredHost.nodeHex], status := .ok "", journey, token }

def timedOut : DriveError := .plain "POST /mesh/request -> timed out"

/-- A directory is made, the answer gets lost, and a stat finds the directory. -/
def retriedMkdir : List (SessionEvent Py.Call (Option String)) :=
  [.call (.mkdir "/d") (passing (.unanswered timedOut) 1) (Reference.world (some "n2")).toWorld,
    .call (.stat "/d") (passing .answered 2) (Reference.world none).toWorld]

def teamSession : Session Reference.FileDrive :=
  { provider := none, mesh := { registry := Reference.teamRegistry, seen := [] }, results := [] }

def madeDirectory : Entry where
  path := "/d"
  kind := .dir
  size := 0
  mtimeMs := 0
  etag := "dir:n2"
  nodeId := "n2"
  objectCid := none
  docId := none

theorem ranged_of_reply (session : Session Reference.FileDrive) (made : Py.Call)
    (passage : Passage) (world : World (Option String)) {reply : DriveReply}
    (inRange : (Py.speaker.intended made).InRange)
    (answered : (dispatch wiredHost world session.mesh.registry teamClient.nodeHex
      (teamClient.request (Py.speaker.intended made))).reply = reply)
    (replied : ReplyInRange reply) :
    Ranged Py.speaker (fun _ => True) wiredHost teamClient session (.call made passage world) :=
  ⟨inRange, answered ▸ replied, trivial⟩

theorem unanswered_direct (direct : Direct Reference.FileDrive) (unknown : direct.provider = none)
    (op : DriveOp) (world : World (Option String)) (token : Nat) :
    Direct.step wiredHost id teamClient direct
        (.call op (passing (.unanswered timedOut) token) world) =
      some ((direct.served (dispatch wiredHost world direct.registry teamClient.nodeHex
        (teamClient.request op)).registry token).returned none (.error (.drive timedOut))) := by
  unfold Direct.step
  dsimp only
  rw [unknown]
  exact if_pos rfl

theorem retriedMkdir_direct : ∃ last : Direct Reference.FileDrive, last.results.length = 2 ∧
    Runs.Free (Direct.step wiredHost id teamClient) teamSession.direct
      (retriedMkdir.map (SessionEvent.meant Py.speaker)) last := by
  have runs : (Runs.exec (Session.step Py.speaker wiredHost teamClient) teamSession
      retriedMkdir).map (·.results.length) = some 2 := by decide +kernel
  obtain ⟨last, executed, both⟩ := Option.map_eq_some_iff.mp runs
  obtain ⟨middle, made, executed⟩ := Option.bind_eq_some_iff.mp executed
  obtain ⟨_, found, ended⟩ := Option.bind_eq_some_iff.mp executed
  cases ended
  have first := ranged_of_reply teamSession (.mkdir "/d") (passing (.unanswered timedOut) 1)
    (Reference.world (some "n2")).toWorld (show Text "/d" by decide)
    (show _ = .ok (.made "n2") by decide +kernel) (show Text "n2" by decide)
  have left := (unanswered_direct teamSession.direct rfl (.mkdir "/d")
    (Reference.world (some "n2")).toWorld 1).symm.trans
      (call_direct wiredHost_readsLayout Py.speaker_sound (by decide) (by decide) first made)
  have registry : (dispatch wiredHost (Reference.world (some "n2")).toWorld Reference.teamRegistry
      teamClient.nodeHex (teamClient.request (.mkdir "/d"))).registry = middle.mesh.registry :=
    congrArg Direct.registry (Option.some.inj left)
  have second := ranged_of_reply middle (.stat "/d") (passing .answered 2)
    (Reference.world none).toWorld (show Text "/d" by decide)
    (show _ = .ok (.entry madeDirectory) by rw [← registry]; decide +kernel)
    (show madeDirectory.InRange by constructor <;> decide)
  have direct : SessionsDirect wiredHost teamClient :=
    sessions_direct wiredHost_readsLayout (by decide) (by decide)
  exact ⟨last.direct, both, direct.python _ _ _ ((Runs.Run.single first made).snoc second found)⟩

end DriveServe
