import DriveServe.Inbound
import DriveServe.ReferenceDrive

set_option autoImplicit false

/-! What a message learns and changes of a drive that it carries no accepted request
for: two hosts that differ in the contents of that drive alone, side by side. -/

namespace DriveServe

open Corpus

section

variable {δ σ ε : Type}

def SyncedDrive.StartsEmpty (core : SyncedDrive δ σ ε) : Prop :=
  ∀ path entries, core.ls core.fresh path = .ok entries → entries = []

/-- The message carries a request on the drive that the gate accepts. -/
def Carries (host : Host δ σ ε) (world : World ε) (m : AppMessage) (driveId : String) : Prop :=
  ∃ payload req chain, m.topic = driveTopic ∧ hexDecode m.payloadHex.toList = some payload ∧
    host.codec.decodeReq payload = .ok req ∧ req.drive = driveId ∧
    admission host world m.fromHex req = .ok chain

/-- Whatever the drive holds, the message is answered alike and the drive is kept. -/
structure Confidential (host : Host δ σ ε) (world : World ε) (registry : Registry δ)
    (seen : List Nat) (m : AppMessage) (driveId : String) : Prop where
  same : ∀ left right,
    (handleInbound host world (registry.withDrive driveId left) seen m).map Inbound.reply =
      (handleInbound host world (registry.withDrive driveId right) seen m).map Inbound.reply
  kept : ∀ drive outcome,
    handleInbound host world (registry.withDrive driveId drive) seen m = some outcome →
      outcome.registry.get driveId = (registry.withDrive driveId drive).get driveId

/-- Some contents of a drive hold more changed files under the path than the request
skips. -/
def Fruitful (core : SyncedDrive δ σ ε) (args : ItemsArgs) : Prop :=
  ∃ drive, ∀ facts, walkFacts core drive (normPath args.path) = some facts →
    args.offset < (changedSince facts args.since).length

/-- A new crawl of the drive that can come back with something. -/
def Crawls (host : Host δ σ ε) (registry : Registry δ) (seen : List Nat) (m : AppMessage)
    (driveId : String) : Prop :=
  ∃ token payload value, m.replyToken = some token ∧ m.topic = itemsTopic ∧ token ∉ seen ∧
    hexDecode m.payloadHex.toList = some payload ∧ host.codec.parseJson payload = .ok value ∧
    itemsOp value = "items" ∧ itemsDrive (ItemsArgs.parse value) registry = some driveId ∧
    Fruitful host.core (ItemsArgs.parse value)

theorem changedSince_nil (since : Nat) : changedSince [] since = [] := by
  simp [changedSince]

theorem itemsPage_returned (codec : Codec σ) (world : World ε) (args : ItemsArgs)
    (driveId : String) (facts : List NodeFacts) :
    (itemsPage codec world args driveId facts).returned =
      min args.limit ((changedSince facts args.since).length - args.offset) := by
  simp [itemsPage]

theorem itemsPage_exhausted (codec : Codec σ) (world : World ε) {args : ItemsArgs}
    (driveId : String) {facts : List NodeFacts}
    (beyond : (changedSince facts args.since).length ≤ args.offset) :
    itemsPage codec world args driveId facts =
      { drive := driveId, items := [], cursor := none, more := false, returned := 0 } := by
  have rest : (changedSince facts args.since).drop args.offset = [] :=
    List.drop_eq_nil_of_le beyond
  have done : ¬ args.offset < (changedSince facts args.since).length := by omega
  simp [itemsPage, rest, done]

theorem walkFacts_fresh {core : SyncedDrive δ σ ε} (empty : core.StartsEmpty) (path : String) :
    walkFacts core core.fresh path = some [] := by
  unfold walkFacts
  cases listed : core.ls core.fresh path with
  | error e =>
    rw [walk_error listed, walk_nil]
    rfl
  | ok entries =>
    obtain rfl := empty path entries listed
    rw [walk_ok listed, List.foldl_nil, walk_nil]
    rfl

variable {host : Host δ σ ε} {world : World ε} {registry : Registry δ} {tenant : Tenant δ}
  {driveId : String}

theorem opItems_barren {args : ItemsArgs} (found : registry.get driveId = some tenant)
    (target : itemsDrive args registry = some driveId) (barren : ¬ Fruitful host.core args)
    (drive : δ) :
    opItems host world (registry.withDrive driveId drive) args =
      some (.page { drive := driveId, items := [], cursor := none, more := false,
                    returned := 0 }) := by
  have named : itemsDrive args (registry.withDrive driveId drive) = some driveId := by
    simpa [itemsDrive] using target
  simp only [Fruitful, not_exists, not_forall, Nat.not_lt] at barren
  obtain ⟨facts, walked, beyond⟩ := barren drive
  simp only [opItems, named, Registry.get_withDrive found, walked, Option.map_some,
    itemsPage_exhausted host.codec world driveId beyond]

theorem opItems_apart {args : ItemsArgs} (apart : itemsDrive args registry ≠ some driveId)
    (drive : δ) :
    opItems host world (registry.withDrive driveId drive) args =
      opItems host world registry args := by
  have named : itemsDrive args (registry.withDrive driveId drive) = itemsDrive args registry := by
    simp [itemsDrive]
  unfold opItems
  rw [named]
  cases target : itemsDrive args registry with
  | none => rfl
  | some other =>
    have differ : other ≠ driveId := fun same => apart (same ▸ target)
    dsimp only
    rw [registry.get_withDrive_of_ne differ]

theorem opItems_fruitful {args : ItemsArgs} (empty : host.core.StartsEmpty)
    (found : registry.get driveId = some tenant)
    (target : itemsDrive args registry = some driveId) (page : 1 ≤ args.limit)
    (fruitful : Fruitful host.core args) :
    ∃ drive, opItems host world (registry.withDrive driveId drive) args ≠
      opItems host world (registry.withDrive driveId host.core.fresh) args := by
  obtain ⟨drive, more⟩ := fruitful
  have named : ∀ contents,
      itemsDrive args (registry.withDrive driveId contents) = some driveId := by
    intro contents
    simpa [itemsDrive] using target
  refine ⟨drive, fun same => ?_⟩
  simp only [opItems, named, Registry.get_withDrive found, walkFacts_fresh empty,
    Option.map_some, Option.map_eq_some_iff] at same
  obtain ⟨facts, walked, shape⟩ := same
  have counts := congrArg ItemsPage.returned (ItemsReply.page.inj shape)
  have beyond := more facts walked
  rw [itemsPage_returned, itemsPage_returned, changedSince_nil, List.length_nil] at counts
  omega

theorem answerMessage_confidential {m : AppMessage} {payload : Bytes}
    (onDrive : m.topic = driveTopic) (decoded : hexDecode m.payloadHex.toList = some payload)
    (uncarried : ¬ Carries host world m driveId) (drive : δ) :
    (answerMessage host world (registry.withDrive driveId drive) m.fromHex payload).reply =
        (answerMessage host world registry m.fromHex payload).reply ∧
      (answerMessage host world (registry.withDrive driveId drive) m.fromHex payload).registry.get
        driveId = (registry.withDrive driveId drive).get driveId := by
  unfold answerMessage
  cases read : host.codec.decodeReq payload with
  | error e => exact ⟨rfl, rfl⟩
  | ok req =>
    dsimp only
    cases gate : admission host world m.fromHex req with
    | error e =>
      rw [dispatch_refused gate, dispatch_refused gate]
      exact ⟨rfl, rfl⟩
    | ok chain =>
      have apart : req.drive ≠ driveId := fun same =>
        uncarried ⟨payload, req, chain, onDrive, decoded, read, same, gate⟩
      rw [dispatch_admitted gate, dispatch_admitted gate]
      exact ⟨dispatchInner_congr _ _ _ _ (registry.get_withDrive_of_ne apart drive),
        dispatchInner_get_of_ne _ _ _ _ _ _ apart.symm⟩

/-- On the corpus topic only a fruitful crawl of the drive depends on it. -/
theorem answerItems_confidential {payload : Bytes} (found : registry.get driveId = some tenant)
    (barren : ∀ value, host.codec.parseJson payload = .ok value → itemsOp value = "items" →
      itemsDrive (ItemsArgs.parse value) registry = some driveId →
      ¬ Fruitful host.core (ItemsArgs.parse value)) (left right : δ) :
    answerItems host world (registry.withDrive driveId left) payload =
      answerItems host world (registry.withDrive driveId right) payload := by
  unfold answerItems
  cases parsed : host.codec.parseJson payload with
  | error e => rfl
  | ok value =>
    simp only [Registry.driveIds_withDrive]
    split
    · rfl
    · split
      · rename_i named
        by_cases target : itemsDrive (ItemsArgs.parse value) registry = some driveId
        · have nothing := barren value parsed named target
          rw [opItems_barren found target nothing, opItems_barren found target nothing]
        · rw [opItems_apart target, opItems_apart target]
      · rfl

theorem confidential_of_not_crawls (found : registry.get driveId = some tenant) {seen : List Nat}
    {m : AppMessage} (uncarried : ¬ Carries host world m driveId)
    (aloof : ¬ Crawls host registry seen m driveId) :
    Confidential host world registry seen m driveId := by
  cases routed : route seen m with
  | ignored after =>
    refine ⟨fun left right => ?_, fun drive outcome served => ?_⟩
    · rw [handleInbound_eq, handleInbound_eq, routed]
      rfl
    · rw [handleInbound_eq, routed] at served
      cases served
      rfl
  | items token payload after =>
    obtain ⟨asked, corpus, fresh, decoded, _⟩ := (route_items_iff ..).mp routed
    have alike := @answerItems_confidential _ _ _ host world _ _ _ _ found
      fun value parsed named target fruitful => aloof
        ⟨token, payload, value, asked, corpus, fresh, decoded, parsed, named, target, fruitful⟩
    refine ⟨fun left right => ?_, fun drive outcome served => ?_⟩
    · rw [handleInbound_eq, handleInbound_eq, routed]
      simp only [Option.map_map]
      rw [alike left right]
      rfl
    · rw [handleInbound_eq, routed] at served
      obtain ⟨reply, _, shape⟩ := Option.map_eq_some_iff.mp served
      rw [← shape]
  | drive token payload after =>
    obtain ⟨onDrive, decoded⟩ := topic_of_route_drive routed
    have alike :=
      @answerMessage_confidential _ _ _ host world registry _ _ _ onDrive decoded uncarried
    refine ⟨fun left right => ?_, fun drive outcome served => ?_⟩
    · rw [handleInbound_eq, handleInbound_eq, routed]
      simp only [Option.map_some, (alike left).1, (alike right).1]
    · rw [handleInbound_eq, routed] at served
      cases served
      exact (alike drive).2

/-- A message without an accepted request on the drive neither learns of the drive nor
changes it, exactly when it is no fruitful crawl of it. -/
theorem inbound_confidential_iff (empty : host.core.StartsEmpty)
    (found : registry.get driveId = some tenant) {seen : List Nat} {m : AppMessage}
    (uncarried : ¬ Carries host world m driveId) :
    Confidential host world registry seen m driveId ↔ ¬ Crawls host registry seen m driveId := by
  refine ⟨?_, confidential_of_not_crawls found uncarried⟩
  rintro confidential ⟨token, payload, value, asked, corpus, fresh, decoded, parsed, named, target,
    fruitful⟩
  obtain ⟨drive, differ⟩ := @opItems_fruitful _ _ _ host world _ _ _ _ empty found target
    (ItemsArgs.parse_limit value) fruitful
  have routed := (route_items_iff seen _ m token payload).mpr ⟨asked, corpus, fresh, decoded, rfl⟩
  have plain : ¬ ("items" = "describe" ∨ "items" = "ping") := by decide
  have answered : ∀ contents, answerItems host world (registry.withDrive driveId contents) payload =
      opItems host world (registry.withDrive driveId contents) (ItemsArgs.parse value) := by
    intro contents
    simp only [answerItems, parsed, plain, named, ↓reduceIte]
  have same := confidential.same drive host.core.fresh
  rw [handleInbound_eq, handleInbound_eq, routed] at same
  simp only [answered, Option.map_map] at same
  apply differ
  -- the token and the topic go with every reply, so the pages are the same
  refine Option.map_injective (fun left right tagged => ?_) same
  exact InboundReply.items.inj (Prod.mk.inj (Option.some.inj tagged)).2

end

namespace Reference

theorem core_startsEmpty : core.StartsEmpty := by
  intro path entries listed
  have nothing : ls [] path = .ok entries := listed
  unfold ls at nothing
  split at nothing
  · exact (Except.ok.inj nothing).symm
  · cases nothing

/-- A host that grants nothing to anyone, and the text of `{"op":"items"}`. -/
def crawledHost : Host FileDrive FileDrive (Option String) :=
  host [] [([0x7b], .object [("op", .string "items")])]

def crawlMessage : AppMessage :=
  { fromHex := "", topic := itemsTopic, payloadHex := "7b", replyToken := some 1 }

theorem crawlMessage_uncarried :
    ¬ Carries crawledHost (world none).toWorld crawlMessage "team" := by
  rintro ⟨_, _, _, onDrive, _⟩
  exact absurd onDrive (by decide)

theorem teamDrive_walked : walkFacts core teamDrive "/" = some
    [{ nodeId := "n1", path := "/a", size := 1, mtimeMs := 1000, kind := none,
       locator := "blob:o1", tags := [], links := [], props := [] }] := by
  have listed : core.ls teamDrive "/" = .ok
      [{ name := "a", nodeId := "n1", isDir := false,
         content := some (newContent { text := "blob:o1" } 1 0o644 1000) }] := by decide
  have visited : core.walk teamDrive ["/"] [] = some _ := (walk_ok listed [] []).trans (walk_nil ..)
  rw [walkFacts, visited]
  decide

end Reference

namespace Reference

/-- The same host, to which every payload is a `Stat` under a capability of nobody's. -/
def askedForStat : Host FileDrive FileDrive (Option String) :=
  { crawledHost with codec := { crawledHost.codec with
      decodeReq := fun _ => .ok { drive := "team", cap := "grant", op := .stat "/a" } } }

def statMessage : AppMessage :=
  { fromHex := sender, topic := driveTopic, payloadHex := "7b", replyToken := some 1 }

theorem statMessage_uncarried :
    ¬ Carries askedForStat (world none).toWorld statMessage "team" := by
  rintro ⟨payload, req, chain, _, _, read, _, admitted⟩
  cases read
  cases admitted

end Reference

open Reference in
/-- A new message that the gate refuses: it is answered, and without a look at the drive. -/
theorem statMessage_confidential_iff :
    (∃ after, handleInbound askedForStat (world none).toWorld teamRegistry [] statMessage =
        some after ∧ after.reply = some (1, .drive (.error .unauthorized))) ∧
      (Confidential askedForStat (world none).toWorld teamRegistry [] statMessage "team" ↔
        ¬ Crawls askedForStat teamRegistry [] statMessage "team") :=
  ⟨⟨_, rfl, rfl⟩, inbound_confidential_iff core_startsEmpty rfl statMessage_uncarried⟩

open Reference in
/-- Anyone who asks on the corpus topic is told what the drive holds. -/
theorem crawlMessage_reveals :
    crawledHost.core.StartsEmpty ∧ ¬ Carries crawledHost (world none).toWorld crawlMessage "team" ∧
      (∃ after page, handleInbound crawledHost (world none).toWorld teamRegistry []
          crawlMessage = some after ∧
        after.reply = some (1, .items (.page page)) ∧
        page.items.map (fun item => (item.id, item.reference)) = [("n1", "/a")]) ∧
      ¬ Confidential crawledHost (world none).toWorld teamRegistry [] crawlMessage "team" := by
  have routed : route [] crawlMessage = .items 1 [0x7b] [1] := by
    rw [route_items_iff]
    decide
  have answered : ∀ registry : Registry FileDrive,
      answerItems crawledHost (world none).toWorld registry [0x7b] =
        opItems crawledHost (world none).toWorld registry
          { drive := none, path := "/", offset := 0, limit := 50, since := 0 } := fun _ => rfl
  have served : ∀ drive facts, walkFacts core drive "/" = some facts →
      ∃ after, handleInbound crawledHost (world none).toWorld
          (teamRegistry.withDrive "team" drive) [] crawlMessage = some after ∧
        after.reply = some (1, .items (.page (itemsPage crawledHost.codec (world none).toWorld
          { drive := none, path := "/", offset := 0, limit := 50, since := 0 } "team" facts))) := by
    intro drive facts walked
    have found : (teamRegistry.withDrive "team" drive).get "team" =
        some { Tenant.new teamDrive quota with drive } := Registry.get_withDrive rfl drive
    have rooted : normPath "/" = "/" := by decide
    have first : itemsDrive { drive := none, path := "/", offset := 0, limit := 50, since := 0 }
        (teamRegistry.withDrive "team" drive) = some "team" := by
      simp only [itemsDrive, Registry.driveIds_withDrive]
      rfl
    rw [handleInbound_eq, routed]
    simp only [answered, opItems, first, found, rooted]
    have walked : walkFacts crawledHost.core drive "/" = some facts := walked
    rw [walked]
    exact ⟨_, rfl, rfl⟩
  refine ⟨core_startsEmpty, crawlMessage_uncarried, ?_, fun confidential => ?_⟩
  · obtain ⟨after, handled, replied⟩ := served teamDrive _ teamDrive_walked
    exact ⟨after, _, handled, replied, by decide⟩
  · obtain ⟨full, handled, replied⟩ := served teamDrive _ teamDrive_walked
    obtain ⟨bare, handledBare, repliedBare⟩ := served [] _ (walkFacts_fresh core_startsEmpty "/")
    have same := confidential.same teamDrive []
    rw [handled, handledBare, Option.map_some, Option.map_some, replied, repliedBare] at same
    have tagged := (Prod.mk.inj (Option.some.inj (Option.some.inj same))).2
    have pages := ItemsReply.page.inj (InboundReply.items.inj tagged)
    exact absurd (congrArg ItemsPage.returned pages) (by decide)

end DriveServe
