import DriveServe.Calls
import DriveServe.CorpusTree
import DriveServe.Inbound
import DriveServe.ReferenceTree
import DriveServe.Refresh
import DriveServe.Runs

set_option autoImplicit false

/-! Crawling a drive into an index: once in full, and from then on by what changed since
the newest item the index holds. -/

namespace DriveServe

open Corpus

section

variable {δ σ ε : Type}

def pageArgs (driveId : String) (since offset limit : Nat) : ItemsArgs :=
  { drive := some driveId, path := "/", offset, limit, since }

/-- A complete crawl of a drive from a position on, page after page, where extraction is
a fixed function of a file's facts. -/
inductive Crawl (host : Host δ σ ε) (extract : NodeFacts → Extracted) (registry : Registry δ)
    (driveId : String) (since : Nat) : (offset : Nat) → List Item → Prop
  | last {world : World ε} {offset limit : Nat} {page : ItemsPage}
      (fixed : ∀ f, extractNode host.codec world f = extract f)
      (answered : opItems host world registry (pageArgs driveId since offset limit) =
        some (.page page))
      (ended : page.cursor = none) : Crawl host extract registry driveId since offset page.items
  | more {world : World ε} {offset limit next : Nat} {page : ItemsPage} {rest : List Item}
      (fixed : ∀ f, extractNode host.codec world f = extract f)
      (answered : opItems host world registry (pageArgs driveId since offset limit) =
        some (.page page))
      (continued : page.cursor = some next)
      (behind : Crawl host extract registry driveId since next rest) :
      Crawl host extract registry driveId since offset (page.items ++ rest)

def itemOf (extract : NodeFacts → Extracted) (f : NodeFacts) : Item := itemFrom f (extract f)

variable {host : Host δ σ ε} {extract : NodeFacts → Extracted} {registry : Registry δ}
  {driveId : String} {since offset : Nat}

theorem normPath_root : normPath "/" = "/" := by decide

theorem opItems_page {world : World ε} {limit : Nat} {page : ItemsPage}
    (fixed : ∀ f, extractNode host.codec world f = extract f)
    (answered : opItems host world registry (pageArgs driveId since offset limit) =
      some (.page page)) :
    ∃ tenant facts, registry.get driveId = some tenant ∧
      walkFacts host.core tenant.drive "/" = some facts ∧
      page.items = (((changedSince facts since).drop offset).take limit).map (itemOf extract) ∧
      page.cursor = if offset + page.items.length < (changedSince facts since).length then
        some (offset + page.items.length) else none := by
  simp only [opItems, itemsDrive, pageArgs, normPath_root] at answered
  cases found : registry.get driveId with
  | none =>
    rw [found] at answered
    cases answered
  | some tenant =>
    rw [found] at answered
    obtain ⟨facts, walked, shape⟩ := Option.map_eq_some_iff.mp answered
    cases shape
    have items : (fun f => itemFrom f (extractNode host.codec world f)) = itemOf extract :=
      funext fun f => by rw [fixed, itemOf]
    refine ⟨tenant, facts, rfl, walked, ?_, ?_⟩
    · simp only [itemsPage, items]
    · simp only [itemsPage, decide_eq_true_eq]

theorem take_append_drop_cursor {α : Type} (l : List α) (offset limit : Nat) :
    let page := (l.drop offset).take limit
    (if offset + page.length < l.length then page ++ l.drop (offset + page.length) else page) =
      l.drop offset := by
  intro page
  have size : page.length = min limit (l.length - offset) := by
    rw [List.length_take, List.length_drop]
  split
  · rename_i more
    have whole : page.length = limit := by omega
    rw [whole, ← List.drop_drop, List.take_append_drop]
  · apply List.take_of_length_le
    rw [List.length_drop]
    omega

/-- A complete crawl hands over the items of what changed, each once. -/
theorem crawl_items {items : List Item}
    (crawl : Crawl host extract registry driveId since offset items) :
    ∃ tenant facts, registry.get driveId = some tenant ∧
      walkFacts host.core tenant.drive "/" = some facts ∧
      items = ((changedSince facts since).drop offset).map (itemOf extract) := by
  induction crawl with
  | @last world offset limit page fixed answered ended =>
    obtain ⟨tenant, facts, found, walked, items, cursor⟩ := opItems_page fixed answered
    have whole := take_append_drop_cursor (changedSince facts since) offset limit
    dsimp only at whole
    rw [ended, items, List.length_map] at cursor
    split at cursor
    · cases cursor
    · rename_i exhausted
      rw [if_neg exhausted] at whole
      exact ⟨tenant, facts, found, walked, by rw [items, whole]⟩
  | @more world offset limit next page rest fixed answered continued behind ih =>
    obtain ⟨tenant, facts, found, walked, items, cursor⟩ := opItems_page fixed answered
    obtain ⟨tenant', facts', found', walked', later⟩ := ih
    obtain rfl := Option.some.inj (found.symm.trans found')
    obtain rfl := Option.some.inj (walked.symm.trans walked')
    have whole := take_append_drop_cursor (changedSince facts since) offset limit
    dsimp only at whole
    rw [continued, items, List.length_map] at cursor
    split at cursor
    · rename_i further
      rw [if_pos further] at whole
      refine ⟨tenant, facts, found, walked, ?_⟩
      rw [items, later, Option.some.inj cursor, ← List.map_append, whole]
    · cases cursor

theorem exists_crawl {world : World ε} (fixed : ∀ f, extractNode host.codec world f = extract f)
    {tenant : Tenant δ} (found : registry.get driveId = some tenant) {facts : List NodeFacts}
    (walked : walkFacts host.core tenant.drive "/" = some facts) (since offset : Nat) :
    Crawl host extract registry driveId since offset
      (((changedSince facts since).drop offset).map (itemOf extract)) := by
  induction left : (changedSince facts since).length - offset using Nat.strong_induction_on
    generalizing offset with
  | _ left ih =>
  obtain ⟨page, answered⟩ : ∃ page, opItems host world registry
      (pageArgs driveId since offset ItemsArgs.maxLimit) = some (.page page) := by
    simp only [opItems, itemsDrive, pageArgs, normPath_root, found, walked, Option.map_some]
    exact ⟨_, rfl⟩
  obtain ⟨tenant', facts', found', walked', items, cursor⟩ := opItems_page fixed answered
  obtain rfl := Option.some.inj (found.symm.trans found')
  obtain rfl := Option.some.inj (walked.symm.trans walked')
  have whole := take_append_drop_cursor (changedSince facts since) offset ItemsArgs.maxLimit
  dsimp only at whole
  rw [items, List.length_map] at cursor
  have size := @List.length_take _ ItemsArgs.maxLimit ((changedSince facts since).drop offset)
  rw [List.length_drop] at size
  have limited : ItemsArgs.maxLimit = 200 := rfl
  split at whole
  · rename_i further
    rw [if_pos further] at cursor
    have behind := ih _ (by omega) (offset + (((changedSince facts since).drop offset).take
      ItemsArgs.maxLimit).length) rfl
    have crawl := Crawl.more fixed answered cursor behind
    rwa [items, ← List.map_append, whole] at crawl
  · rename_i exhausted
    rw [if_neg exhausted] at cursor
    have crawl := Crawl.last fixed answered cursor
    rwa [items, whole] at crawl

def latest (items : List Item) : Nat := (items.map Item.updated).foldl max 0

theorem foldl_max_le {l : List Nat} {start bound : Nat} (first : start ≤ bound)
    (all : ∀ n ∈ l, n ≤ bound) : l.foldl max start ≤ bound := by
  induction l generalizing start with
  | nil => exact first
  | cons head rest ih =>
    have here := all head List.mem_cons_self
    exact ih (by omega) fun n member => all n (List.mem_cons_of_mem _ member)

theorem latest_le {items : List Item} {bound : Nat} (all : ∀ item ∈ items, item.updated ≤ bound) :
    latest items ≤ bound := by
  apply foldl_max_le (Nat.zero_le _)
  intro n member
  obtain ⟨item, among, rfl⟩ := List.mem_map.mp member
  exact all item among

theorem changedSince_items (extract : NodeFacts → Extracted) (facts : List NodeFacts)
    (since : Nat) : (changedSince facts since).map (itemOf extract) =
      (facts.map (itemOf extract)).filter fun item => decide (since ≤ item.updated) := by
  have times : (fun item : Item => decide (since ≤ item.updated)) ∘ itemOf extract =
      fun f => decide (since ≤ f.mtimeMs / 1000) := rfl
  rw [List.filter_map, times]
  apply congrArg (List.map (itemOf extract))
  unfold changedSince
  split
  · rename_i zero
    rw [zero, List.filter_eq_self.mpr]
    intro f _
    simp
  · rfl

structure CrawlSystem (δ : Type) where
  registry : Registry δ
  nowMs : Nat

/-- Requests in the order of a clock that does not go back. -/
def CrawlSystem.step (host : Host δ σ ε) (system : CrawlSystem δ) (arrival : Arrival ε) :
    Option (CrawlSystem δ) :=
  if system.nowMs ≤ arrival.world.nowMs then
    some {
      registry := (dispatch host arrival.world system.registry arrival.fromHex
        arrival.req).registry
      nowMs := arrival.world.nowMs }
  else none

def CrawlSystem.Fresh (host : Host δ σ ε) (system : CrawlSystem δ) : Prop :=
  ∀ driveId tenant, system.registry.get driveId = some tenant → tenant.drive = host.core.fresh

def crawledOp : DriveOp → Bool
  | .write .. | .copy .. | .move .. | .setProp .. | .tag .. | .link .. => true
  | _ => false

/-- A path leads to a file whose second is before `since`. -/
def Old (core : SyncedDrive δ σ ε) (drive : δ) (since : Nat) (path : String) : Prop :=
  ∃ view content, nodeAt core drive path = some view ∧ view.content = some content ∧
    content.mtimeMs / 1000 < since

/-- Unless it adds a file, an accepted op leaves every file older than `since` where it is
and what is said about it. -/
structure LeavesOld (host : Host δ σ ε) (driveId : String) (since : Nat)
    (system : CrawlSystem δ) (arrival : Arrival ε) : Prop where
  op : crawledOp arrival.req.op = true
  leaves : ∀ tenant chain call path, arrival.req.drive = driveId →
    system.registry.get driveId = some tenant →
    admission host arrival.world arrival.fromHex arrival.req = .ok chain →
    Makes host.core arrival.world.nowMs arrival.req.op call →
    (∀ parent name content, call ≠ .addFile parent name content) →
    Old host.core tenant.drive since path →
      nodeAt host.core (host.core.call arrival.world.env tenant.drive call).2 path =
        nodeAt host.core tenant.drive path

def CrawlSystem.Settled (core : SyncedDrive δ σ ε) (system : CrawlSystem δ) : Prop :=
  ∀ driveId tenant path view content, system.registry.get driveId = some tenant →
    nodeAt core tenant.drive path = some view → view.content = some content →
      content.mtimeMs ≤ system.nowMs

/-- A file an op puts on the drive bears the time of the op. -/
theorem Makes.stamped {core : SyncedDrive δ σ ε} (times : core.KeepsTimes) {nowMs : Nat}
    {op : DriveOp} {parent name : String} {content : FileContent}
    (makes : Makes core nowMs op (.addFile parent name content)) : content.mtimeMs = nowMs := by
  cases makes with
  | write | copy => exact times.stamped ..
  | silent verb =>
    cases op with
    | setProp path key value => cases value <;> cases verb
    | tag path label remove => cases remove <;> cases verb
    | link path rel target remove => cases remove <;> cases verb
    | _ => cases verb

/-- After a change of a drive a file's time is one it had before, or the time of the op. -/
theorem changedBy_times {core : SyncedDrive δ σ ε} (times : core.KeepsTimes) {world : World ε}
    {op : DriveOp} {before after : δ} (changed : ChangedBy core world op before after)
    {path : String} {view : NodeView} {content : FileContent}
    (found : nodeAt core after path = some view) (filled : view.content = some content) :
    content.mtimeMs = world.nowMs ∨ ∃ path' view' content',
      nodeAt core before path' = some view' ∧ view'.content = some content' ∧
        content'.mtimeMs = content.mtimeMs := by
  rcases changed with same | ⟨call, makes, made⟩
  · rw [same] at found
    exact Or.inr ⟨path, view, content, found, filled, rfl⟩
  · rw [made] at found
    by_cases adds : ∃ parent name content, call = .addFile parent name content
    · obtain ⟨parent, name, added, rfl⟩ := adds
      rcases times.added _ _ _ _ _ _ _ _ found filled with stamped | kept
      · exact Or.inl (stamped.trans (makes.stamped times))
      · exact Or.inr ⟨path, view, content, kept, filled, rfl⟩
    · have other : ∀ parent name content, call ≠ .addFile parent name content :=
        fun parent name content same => adds ⟨parent, name, content, same⟩
      have ⟨path', view', held, before, _, filled', time⟩ :=
        times.kept _ _ _ _ _ _ other found filled
      exact Or.inr ⟨path', view', held, before, filled', time⟩

theorem dispatch_drive {world : World ε} {fromHex : String} {req : DriveReq}
    {driveId : String} {after : Tenant δ}
    (stored : (dispatch host world registry fromHex req).registry.get driveId = some after) :
    ∃ before, registry.get driveId = some before ∧
      (after.drive = before.drive ∨ req.drive = driveId ∧ ∃ chain call,
        admission host world fromHex req = .ok chain ∧ Makes host.core world.nowMs req.op call ∧
          after.drive = (host.core.call world.env before.drive call).2) := by
  by_cases named : driveId = req.drive
  · subst named
    cases gate : admission host world fromHex req with
    | error e =>
      rw [dispatch_refused gate] at stored
      exact ⟨after, stored, Or.inl rfl⟩
    | ok chain =>
      rw [dispatch_admitted gate] at stored
      cases found : registry.get req.drive with
      | none =>
        rw [dispatchInner_missing found, found] at stored
        cases stored
      | some before =>
        have ⟨after', stored', changed⟩ := @dispatchInner_changed _ _ _ world host _ _ _ found
          fromHex chain
        obtain rfl := Option.some.inj (stored.symm.trans stored')
        refine ⟨before, rfl, ?_⟩
        rcases changed with same | ⟨call, makes, made⟩
        · exact Or.inl same
        · exact Or.inr ⟨rfl, chain, call, rfl, makes, made⟩
  · rw [dispatch_get_of_ne host world registry fromHex req named] at stored
    exact ⟨after, stored, Or.inl rfl⟩

namespace CrawlSystem

variable {system next : CrawlSystem δ} {arrival : Arrival ε}

theorem step_eq_some (taken : step host system arrival = some next) :
    system.nowMs ≤ arrival.world.nowMs ∧ next.nowMs = arrival.world.nowMs ∧
      next.registry = (dispatch host arrival.world system.registry arrival.fromHex
        arrival.req).registry := by
  simp only [step, Option.ite_none_right_eq_some, Option.some_inj] at taken
  obtain ⟨later, shape⟩ := taken
  rw [← shape]
  dsimp only
  exact ⟨later, rfl, rfl⟩

theorem fresh_settled (times : host.core.KeepsTimes) (fresh : system.Fresh host) :
    system.Settled host.core := by
  intro driveId tenant path view content found led filled
  rw [fresh driveId tenant found] at led
  have empty := times.fresh path view led
  rw [filled] at empty
  cases empty

theorem step_settled (times : host.core.KeepsTimes) (settled : system.Settled host.core)
    (taken : step host system arrival = some next) : next.Settled host.core := by
  obtain ⟨later, clock, registry⟩ := step_eq_some taken
  intro driveId after path view content found led filled
  rw [registry] at found
  obtain ⟨before, held, same | ⟨_, chain, call, _, makes, made⟩⟩ := dispatch_drive found
  · rw [same] at led
    have bounded := settled driveId before path view content held led filled
    omega
  · have changed : ChangedBy host.core arrival.world arrival.req.op before.drive after.drive :=
      Or.inr ⟨call, makes, made⟩
    rcases changedBy_times times changed led filled with now | ⟨path', view', earlier, led',
        filled', time⟩
    · omega
    · have bounded := settled driveId before path' view' earlier held led' filled'
      omega

end CrawlSystem

/-- Every file now is as it was when the drive was crawled, or not older than `since`. -/
def CrawlSystem.Caught (core : SyncedDrive δ σ ε) (driveId : String) (crawled : δ)
    (since : Nat) (system : CrawlSystem δ) : Prop :=
  since ≤ system.nowMs / 1000 ∧
    ∀ tenant names view content f, system.registry.get driveId = some tenant →
      FileAt core tenant.drive names view content f →
        FileAt core crawled names view content f ∨ since ≤ f.mtimeMs / 1000

/-- A path that leads to the same node before and after leads to the same facts. -/
theorem Corpus.FileAt.before {core : SyncedDrive δ σ ε} {before after : δ} {names : List String}
    {view : NodeView} {content : FileContent} {f : NodeFacts}
    (at' : FileAt core after names view content f)
    (found : nodeAt core before (pathText names) = some view) :
    FileAt core before names view content f := by
  refine ⟨at'.proper, found, at'.file, at'.filled, ?_⟩
  have info : core.metaOf after view.nodeId = core.metaOf before view.nodeId := by
    rw [nodeAt_info at'.found, nodeAt_info found]
  rw [at'.facts, factsOf, factsOf, info]

theorem call_files {core : SyncedDrive δ σ ε} (tree : core.Tree) (times : core.KeepsTimes)
    {world : World ε} {op : DriveOp} {call : DriveCall} {before : δ} {since : Nat}
    (makes : Makes core world.nowMs op call) (recent : since ≤ world.nowMs / 1000)
    (leaves : (∀ parent name content, call ≠ .addFile parent name content) →
      ∀ path, Old core before since path →
        nodeAt core (core.call world.env before call).2 path = nodeAt core before path)
    {names : List String} {view : NodeView} {content : FileContent} {f : NodeFacts}
    (at' : FileAt core (core.call world.env before call).2 names view content f) :
    FileAt core before names view content f ∨ since ≤ f.mtimeMs / 1000 := by
  have time : f.mtimeMs = content.mtimeMs := by rw [at'.facts, factsOf]
  by_cases adds : ∃ parent name added, call = .addFile parent name added
  · obtain ⟨parent, name, added, rfl⟩ := adds
    rcases times.added _ _ _ _ _ _ _ _ at'.found at'.filled with stamped | kept
    · have now := makes.stamped times
      exact Or.inr (by omega)
    · exact Or.inl (at'.before kept)
  · have other : ∀ parent name content, call ≠ .addFile parent name content :=
      fun parent name content same => adds ⟨parent, name, content, same⟩
    have ⟨path, earlier, held, led, sameId, filled, sameTime⟩ :=
      times.kept _ _ _ _ _ _ other at'.found at'.filled
    by_cases old : since ≤ f.mtimeMs / 1000
    · exact Or.inr old
    · -- an old file is where it was, and its node is in one place
      have stays := leaves other path ⟨earlier, held, led, filled, by omega⟩
      rw [led] at stays
      have place := tree.placed _ _ _ _ _ stays at'.found sameId
      have same : nodeAt core (core.call world.env before call).2 path =
        nodeAt core (core.call world.env before call).2 (pathText names) := nodeAt_names tree place
      rw [stays, at'.found] at same
      have here : nodeAt core before path = nodeAt core before (pathText names) :=
        nodeAt_names tree place
      rw [led, Option.some.inj same] at here
      exact Or.inl (at'.before here.symm)

theorem step_caught (tree : host.core.Tree) (times : host.core.KeepsTimes) {crawled : δ}
    {system next : CrawlSystem δ} {arrival : Arrival ε}
    (caught : system.Caught host.core driveId crawled since)
    (leaves : LeavesOld host driveId since system arrival)
    (taken : CrawlSystem.step host system arrival = some next) :
    next.Caught host.core driveId crawled since := by
  obtain ⟨later, clock, registry⟩ := CrawlSystem.step_eq_some taken
  have recent : since ≤ arrival.world.nowMs / 1000 := by
    have before := caught.1
    omega
  refine ⟨by omega, fun after names view content f found at' => ?_⟩
  rw [registry] at found
  obtain ⟨before, held, same | ⟨named, chain, call, admitted, makes, made⟩⟩ := dispatch_drive found
  · rw [same] at at'
    exact caught.2 before names view content f held at'
  · rw [made] at at'
    have left := fun other path =>
      leaves.leaves before chain call path named held admitted makes other
    rcases call_files tree times makes recent left at' with kept | new
    · exact caught.2 before names view content f held kept
    · exact Or.inr new

/-- The newest item of a full crawl is no newer than the clock. -/
theorem latest_recent (tree : host.core.Tree) {system : CrawlSystem δ}
    (settled : system.Settled host.core) {tenant : Tenant δ}
    (found : system.registry.get driveId = some tenant) {facts : List NodeFacts}
    (walked : walkFacts host.core tenant.drive "/" = some facts) :
    latest (facts.map (itemOf extract)) ≤ system.nowMs / 1000 := by
  apply latest_le
  intro item member
  obtain ⟨f, noted, rfl⟩ := List.mem_map.mp member
  obtain ⟨names, view, content, at'⟩ := (mem_walkFacts_root tree walked f).mp noted
  have bounded := settled driveId tenant _ view content found at'.found at'.filled
  have time : (itemOf extract f).updated = content.mtimeMs / 1000 := by
    rw [at'.facts]
    rfl
  omega

theorem itemOf_distinct (tree : host.core.Tree) {drive : δ} {facts : List NodeFacts}
    (walked : walkFacts host.core drive "/" = some facts) :
    ∀ a ∈ facts.map (itemOf extract), ∀ b ∈ facts.map (itemOf extract), a.id = b.id → a = b := by
  intro a member b among same
  obtain ⟨f, noted, rfl⟩ := List.mem_map.mp member
  obtain ⟨g, noted', rfl⟩ := List.mem_map.mp among
  rw [walkFacts_distinct tree walked f noted g noted' same]

/-- What is older than `since` stands in the index as it was crawled. -/
theorem index_old {core : SyncedDrive δ σ ε} (tree : core.Tree)
    {index : String → Option Item} {system : CrawlSystem δ} {crawled : δ} {tenant : Tenant δ}
    {facts before : List NodeFacts}
    (holds : Refresh.Holds Item.id index (before.map (itemOf extract)))
    (walked : walkFacts core crawled "/" = some before)
    (caught : system.Caught core driveId crawled since)
    (found : system.registry.get driveId = some tenant)
    (walked' : walkFacts core tenant.drive "/" = some facts) :
    ∀ item ∈ facts.map (itemOf extract), decide (since ≤ item.updated) = false →
      index item.id = some item := by
  intro item member stale
  obtain ⟨f, noted, rfl⟩ := List.mem_map.mp member
  obtain ⟨names, view, content, at'⟩ := (mem_walkFacts_root tree walked' f).mp noted
  have old : ¬ since ≤ f.mtimeMs / 1000 := of_decide_eq_false stale
  have kept := (caught.2 tenant names view content f found at').resolve_right old
  apply holds
  exact List.mem_map_of_mem ((mem_walkFacts_root tree walked f).mpr ⟨names, view, content, kept⟩)

/-- Along ops that leave the files older than the newest item of a full crawl, putting in
the items of a crawl since that item makes the index hold what a full crawl would
return. -/
theorem recrawl_complete (tree : host.core.Tree) (times : host.core.KeepsTimes)
    {first crawled now : CrawlSystem δ} {arrivals further : List (Arrival ε)}
    (fresh : first.Fresh host) (run : Runs.Free (CrawlSystem.step host) first arrivals crawled)
    {items : List Item} (crawl : Crawl host extract crawled.registry driveId 0 0 items)
    {index : String → Option Item} (holds : Refresh.Holds Item.id index items)
    (since : Runs.Run (CrawlSystem.step host) (LeavesOld host driveId (latest items)) crawled
      further now)
    {changed : List Item}
    (recrawl : Crawl host extract now.registry driveId (latest items) 0 changed)
    {all : List Item} (full : Crawl host extract now.registry driveId 0 0 all) :
    Refresh.Holds Item.id (Refresh.upsert Item.id index changed) all := by
  have ⟨tenant, facts, found, walked, listed⟩ := crawl_items crawl
  have ⟨later, facts', found', walked', listed'⟩ := crawl_items full
  have ⟨later', facts'', found'', walked'', listed''⟩ := crawl_items recrawl
  obtain rfl := Option.some.inj (found'.symm.trans found'')
  obtain rfl := Option.some.inj (walked'.symm.trans walked'')
  have everything : ∀ facts, changedSince facts 0 = facts := fun _ => rfl
  rw [List.drop_zero, everything] at listed listed'
  rw [List.drop_zero, changedSince_items] at listed''
  have settled : crawled.Settled host.core := run.invariant (CrawlSystem.fresh_settled times fresh)
    fun _ _ _ settled _ taken => CrawlSystem.step_settled times settled taken
  have recent : latest items ≤ crawled.nowMs / 1000 := by
    rw [listed]
    exact latest_recent tree settled found walked
  have caught : now.Caught host.core driveId tenant.drive (latest items) := by
    apply since.invariant
    · refine ⟨recent, fun same names view content f held at' => Or.inl ?_⟩
      obtain rfl := Option.some.inj (found.symm.trans held)
      exact at'
    · exact fun _ _ _ caught leaves taken => step_caught tree times caught leaves taken
  generalize latest items = bound at caught listed''
  rw [listed] at holds
  rw [listed'', listed']
  apply (Refresh.holds_upsert_iff (itemOf_distinct tree walked') _).mpr
  exact index_old tree holds walked caught found' walked'

end

namespace Reference

def treeHost : Host TreeDrive FileDrive (Option String) where
  server := (host [("grant", [grant "/"])] []).server
  core := treeCore
  codec := codec []

def arrivalAt (nowMs : Nat) (nodeId : String) (op : DriveOp) : Arrival (Option String) where
  fromHex := sender
  req := { drive := "team", cap := "grant", op }
  world := { (world (some nodeId)).toWorld with nowMs }

def advance (system : CrawlSystem TreeDrive) (arrival : Arrival (Option String)) :
    CrawlSystem TreeDrive where
  registry := (dispatch treeHost arrival.world system.registry arrival.fromHex
    arrival.req).registry
  nowMs := arrival.world.nowMs

theorem step_advance {system : CrawlSystem TreeDrive} {arrival : Arrival (Option String)}
    (later : system.nowMs ≤ arrival.world.nowMs) :
    CrawlSystem.step treeHost system arrival = some (advance system arrival) := if_pos later

def unused : CrawlSystem TreeDrive where
  registry := { drives := [("team", Tenant.new treeCore.fresh quota)],
                distinct := List.nodup_singleton _ }
  nowMs := 0

theorem unused_fresh : unused.Fresh treeHost := by
  intro driveId tenant found
  change [("team", Tenant.new treeCore.fresh quota)].lookup driveId = some tenant at found
  rw [List.lookup_cons] at found
  split at found
  · rw [← Option.some.inj found]
    rfl
  · cases found

theorem extractNode_missing (log : Option String) (nowMs : Nat) (f : NodeFacts) :
    extractNode treeHost.codec { (world log).toWorld with nowMs } f = .missing := by
  have silent : fetchContent treeHost.codec { (world log).toWorld with nowMs } f = none := by
    unfold fetchContent
    split
    · rfl
    · split
      · rfl
      · exact ite_self none
  unfold extractNode
  split
  · rfl
  · split
    · rfl
    · rw [silent]
      rfl

def rootFiles (drive : FileDrive) : List String × List NodeFacts :=
  match ls drive "/" with
  | .ok entries => entries.foldl (visit core drive "/") ([], [])
  | .error _ => ([], [])

/-- What a crawl of a drive without directories hands over. -/
def crawledItems (drive : FileDrive) (since : Nat) : List Item :=
  (changedSince ((rootFiles drive).2.insertionSort fun a b => ¬ b.path < a.path) since).map
    (itemOf fun _ => .missing)

theorem walkFacts_rootFiles {drive : TreeDrive} (flat : (rootFiles drive.1).1 = []) :
    walkFacts treeCore drive "/" =
      some ((rootFiles drive.1).2.insertionSort fun a b => ¬ b.path < a.path) := by
  unfold rootFiles at flat ⊢
  cases listed : ls drive.1 "/" with
  | error e =>
    have refused : treeCore.ls drive "/" = .error e := listed
    rw [walkFacts, walk_error refused, walk_nil]
    rfl
  | ok entries =>
    rw [listed] at flat
    have same : treeCore.ls drive "/" = .ok entries := listed
    have files : (entries.foldl (visit treeCore drive "/") ([], [])).1 = [] := flat
    rw [walkFacts, walk_ok same, files, walk_nil]
    rfl

def driveOf (system : CrawlSystem TreeDrive) : Option FileDrive :=
  (system.registry.get "team").map fun tenant => tenant.drive.1

theorem crawl_rootFiles {system : CrawlSystem TreeDrive} {drive : FileDrive}
    (held : driveOf system = some drive) (flat : (rootFiles drive).1 = []) (since : Nat) :
    Crawl treeHost (fun _ => .missing) system.registry "team" since 0
      (crawledItems drive since) := by
  obtain ⟨tenant, found, rfl⟩ := Option.map_eq_some_iff.mp held
  exact exists_crawl (extractNode_missing none 0) found (walkFacts_rootFiles flat) since 0

def writeA : Arrival (Option String) := arrivalAt 1000 "n1" (.write "/a" "o1" 1 none)

def writeB : Arrival (Option String) := arrivalAt 5000 "n2" (.write "/b" "o2" 1 none)

def writeC : Arrival (Option String) := arrivalAt 5001 "n3" (.write "/c" "o3" 1 none)

def markA : Arrival (Option String) := arrivalAt 6000 "n3" (.setProp "/a" "k" (some "v"))

def twoFiles : CrawlSystem TreeDrive := advance (advance unused writeA) writeB

theorem twoFiles_run : Runs.Free (CrawlSystem.step treeHost) unused [writeA, writeB] twoFiles :=
  .append (.single trivial (step_advance (by decide))) (.single trivial (step_advance (by decide)))

def oldDrive : FileDrive := [file "/a" "n1" "o1" 1000, file "/b" "n2" "o2" 5000]

def firstIndex : String → Option Item :=
  Refresh.upsert Item.id (fun _ => none) (crawledItems oldDrive 0)

theorem twoFiles_drive : driveOf twoFiles = some oldDrive := by decide +kernel

theorem firstIndex_holds : Refresh.Holds Item.id firstIndex (crawledItems oldDrive 0) := by decide

end Reference

open Reference in
theorem writeC_recrawled :
    Refresh.Holds Item.id
      (Refresh.upsert Item.id firstIndex
        (crawledItems (oldDrive ++ [file "/c" "n3" "o3" 5001]) (latest (crawledItems oldDrive 0))))
      (crawledItems (oldDrive ++ [file "/c" "n3" "o3" 5001]) 0) := by
  have leaves : LeavesOld treeHost "team" (latest (crawledItems oldDrive 0)) twoFiles writeC := by
    refine ⟨rfl, fun tenant chain call path _ _ _ makes other => ?_⟩
    cases makes with
    | write => exact absurd rfl (other _ _ _)
    | silent verb => cases verb
  have drive : driveOf (advance twoFiles writeC) =
      some (oldDrive ++ [file "/c" "n3" "o3" 5001]) := by decide +kernel
  have flat : (rootFiles (oldDrive ++ [file "/c" "n3" "o3" 5001])).1 = [] := by decide
  exact recrawl_complete treeCore_tree treeCore_keepsTimes unused_fresh twoFiles_run
    (crawl_rootFiles twoFiles_drive (by decide) 0) firstIndex_holds
    (.single leaves (step_advance (by decide))) (crawl_rootFiles drive flat _)
    (crawl_rootFiles drive flat 0)

namespace Reference

def markedDrive : FileDrive :=
  [{ file "/a" "n1" "o1" 1000 with info := { noMeta with props := [("k", "v")] } },
    file "/b" "n2" "o2" 5000]

theorem markA_drive : driveOf (advance twoFiles markA) = some markedDrive := by decide +kernel

end Reference

open Reference in
/-- A property set on a file older than the newest one never gets into the index. -/
theorem markA_not_recrawled :
    treeHost.core.Tree ∧ treeHost.core.KeepsTimes ∧ unused.Fresh treeHost ∧
      Runs.Free (CrawlSystem.step treeHost) unused [writeA, writeB] twoFiles ∧
      Runs.Free (CrawlSystem.step treeHost) twoFiles [markA] (advance twoFiles markA) ∧
      crawledOp markA.req.op = true ∧
      ∃ items changed all,
        Crawl treeHost (fun _ => .missing) twoFiles.registry "team" 0 0 items ∧
        Refresh.Holds Item.id firstIndex items ∧
        Crawl treeHost (fun _ => .missing) (advance twoFiles markA).registry "team" (latest items) 0
          changed ∧
        Crawl treeHost (fun _ => .missing) (advance twoFiles markA).registry "team" 0 0 all ∧
        ¬ Refresh.Holds Item.id (Refresh.upsert Item.id firstIndex changed) all := by
  have flat : (rootFiles markedDrive).1 = [] := by decide
  refine ⟨treeCore_tree, treeCore_keepsTimes, unused_fresh, twoFiles_run,
    .single trivial (step_advance (by decide)), rfl, crawledItems oldDrive 0, _,
    crawledItems markedDrive 0, crawl_rootFiles twoFiles_drive (by decide) 0, firstIndex_holds,
    crawl_rootFiles markA_drive flat _, crawl_rootFiles markA_drive flat 0, ?_⟩
  decide

end DriveServe
