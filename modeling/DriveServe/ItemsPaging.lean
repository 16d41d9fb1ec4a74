import DriveServe.Crawl
import DriveServe.WalkTree

set_option autoImplicit false

/-! The corpus page by page: a client that follows the cursor from the start is handed
every file that changed, once, in the order of the paths. -/

namespace DriveServe

open Corpus

variable {δ σ ε : Type}

/-- One request for a page, with all that may be another at the next one: the world it
is answered in, what else the host serves, the limit. -/
structure PageAsk (δ ε : Type) where
  world : World ε
  registry : Registry δ
  request : Json

def PageAsk.args (ask : PageAsk δ ε) (driveId path : String) (since offset : Nat) : ItemsArgs :=
  { ItemsArgs.parse ask.request with drive := some driveId, path, offset, since }

def PageAsk.page (ask : PageAsk δ ε) (host : Host δ σ ε) (driveId path : String)
    (since offset : Nat) : Option ItemsPage :=
  match opItems host ask.world ask.registry (ask.args driveId path since offset) with
  | some (.page page) => some page
  | _ => none

/-- The pages of a client that follows the cursor from a position on, by number. -/
def follow (host : Host δ σ ε) (driveId path : String) (since : Nat) :
    (asks : Nat → PageAsk δ ε) → (offset : Nat) → Nat → Option ItemsPage
  | asks, offset, 0 => (asks 0).page host driveId path since offset
  | asks, offset, n + 1 =>
    ((asks 0).page host driveId path since offset).bind fun page =>
      page.cursor.bind fun next => follow host driveId path since (fun i => asks (i + 1)) next n

def PageAsk.Meets (ask : PageAsk δ ε) (driveId : String) (drive : δ) : Prop :=
  (ask.registry.get driveId).map Tenant.drive = some drive

def Corpus.Item.about (item : Item) : String × String := (item.id, item.reference)

def Corpus.NodeFacts.about (f : NodeFacts) : String × String := (f.nodeId, f.path)

structure PageOf (facts : List NodeFacts) (offset limit : Nat) (page : ItemsPage) : Prop where
  shows : page.items.map Item.about = ((facts.drop offset).take limit).map NodeFacts.about
  returned : page.returned = page.items.length
  fits : offset < 2 ^ 64 → facts.length < 2 ^ 64 → offset + page.items.length < 2 ^ 64
  beyond : facts.length ≤ offset → page.items = []
  more : page.more = true ↔ offset + page.items.length < facts.length
  cursor : page.cursor = if page.more = true then some (offset + page.items.length) else none

variable {host : Host δ σ ε} {driveId path : String} {since : Nat} {drive : δ}

theorem exists_page {facts : List NodeFacts}
    (walked : walkFacts host.core drive (normPath path) = some facts) {ask : PageAsk δ ε}
    (met : ask.Meets driveId drive) (offset : Nat) :
    ∃ page, ask.page host driveId path since offset = some page ∧
      PageOf (changedSince facts since) offset (ItemsArgs.parse ask.request).limit page := by
  obtain ⟨tenant, found, rfl⟩ := Option.map_eq_some_iff.mp met
  refine ⟨itemsPage host.codec ask.world (ask.args driveId path since offset) driveId facts, ?_, ?_⟩
  · simp only [PageAsk.page, opItems, itemsDrive, PageAsk.args, found, walked, Option.map_some]
  · have size : (itemsPage host.codec ask.world (ask.args driveId path since offset) driveId
        facts).items.length = min (ItemsArgs.parse ask.request).limit
          ((changedSince facts since).length - offset) := by
      simp only [itemsPage, PageAsk.args, List.length_map, List.length_take, List.length_drop]
    refine ⟨?_, rfl, ?_, ?_, ?_, rfl⟩
    · simp only [itemsPage, PageAsk.args, List.map_map]
      rfl
    · omega
    · intro past
      apply List.eq_nil_of_length_eq_zero
      omega
    · exact decide_eq_true_iff

/-- The pages of a complete walk through a list of facts from a position on. -/
structure Complete (facts : List NodeFacts) (offset : Nat) (pages : List ItemsPage) : Prop where
  items : (pages.flatMap ItemsPage.items).map Item.about = (facts.drop offset).map NodeFacts.about
  returned : ∀ page ∈ pages, page.returned = page.items.length
  more : ∀ page ∈ pages.dropLast, page.more = true
  ended : ∃ last, pages.getLast? = some last ∧ last.more = false

theorem PageOf.size {facts : List NodeFacts} {offset limit : Nat} {page : ItemsPage}
    (here : PageOf facts offset limit page) :
    page.items.length = min limit (facts.length - offset) := by
  have size := congrArg List.length here.shows
  rwa [List.length_map, List.length_map, List.length_take, List.length_drop] at size

theorem Complete.last {facts : List NodeFacts} {offset limit : Nat} {page : ItemsPage}
    (here : PageOf facts offset limit page) (ended : page.more = false) :
    Complete facts offset [page] := by
  have shows := here.shows
  have size := here.size
  have exhausted : ¬ offset + page.items.length < facts.length := by
    rw [← here.more, ended]
    exact Bool.false_ne_true
  have whole : (facts.drop offset).take limit = facts.drop offset := by
    apply List.take_of_length_le
    rw [List.length_drop]
    omega
  rw [whole] at shows
  refine ⟨?_, ?_, fun page member => absurd member List.not_mem_nil, page, rfl, ended⟩
  · rw [List.flatMap_singleton]
    exact shows
  · intro other member
    rw [List.mem_singleton.mp member]
    exact here.returned

theorem Complete.cons {facts : List NodeFacts} {offset limit : Nat} {page : ItemsPage}
    {pages : List ItemsPage} (here : PageOf facts offset limit page) (more : page.more = true)
    (behind : Complete facts (offset + page.items.length) pages) :
    Complete facts offset (page :: pages) := by
  obtain ⟨last, ends, ended⟩ := behind.ended
  have size := here.size
  have further := here.more.mp more
  have full : page.items.length = limit := by omega
  have nonempty : pages ≠ [] := by
    intro empty
    rw [empty] at ends
    cases ends
  refine ⟨?_, ?_, ?_, last, ?_, ended⟩
  · rw [List.flatMap_cons, List.map_append, behind.items, full, ← List.drop_drop]
    have split := congrArg (List.map NodeFacts.about)
      (List.take_append_drop limit (facts.drop offset))
    rw [List.map_append] at split
    rw [← split]
    exact congrArg (· ++ _) here.shows
  · intro other member
    rcases List.mem_cons.mp member with rfl | later
    · exact here.returned
    · exact behind.returned other later
  · intro other member
    rw [List.dropLast_cons_of_ne_nil nonempty] at member
    rcases List.mem_cons.mp member with rfl | later
    · exact more
    · exact behind.more other later
  · rw [List.getLast?_cons, ends]
    rfl

/-- A client that follows the cursor comes to an end, whatever limits it asks for and
whatever is extracted: a page that is not the last one leaves less behind. -/
theorem follow_complete {facts : List NodeFacts}
    (walked : walkFacts host.core drive (normPath path) = some facts)
    (asks : Nat → PageAsk δ ε) (met : ∀ i, (asks i).Meets driveId drive) (offset : Nat) :
    ∃ pages, (∀ i, follow host driveId path since asks offset i = pages[i]?) ∧
      Complete (changedSince facts since) offset pages := by
  induction left : (changedSince facts since).length - offset using Nat.strong_induction_on
    generalizing asks offset with
  | _ left ih =>
  have ⟨page, answered, here⟩ :
      ∃ page, (asks 0).page host driveId path since offset = some page ∧
        PageOf (changedSince facts since) offset (ItemsArgs.parse (asks 0).request).limit page :=
    exists_page walked (met 0) offset
  have cursor := here.cursor
  cases more : page.more with
  | false =>
    refine ⟨[page], ?_, .last here more⟩
    rw [more] at cursor
    intro i
    cases i with
    | zero => exact answered
    | succ i =>
      rw [follow, answered, Option.bind_some, cursor]
      rfl
  | true =>
    rw [more, if_pos rfl] at cursor
    have size := here.size
    have positive := ItemsArgs.parse_limit (asks 0).request
    have further := here.more.mp more
    obtain ⟨pages, followed, complete⟩ := ih _ (by omega) (fun i => asks (i + 1))
      (fun i => met (i + 1)) (offset + page.items.length) rfl
    refine ⟨page :: pages, ?_, .cons here more complete⟩
    intro i
    cases i with
    | zero => exact answered
    | succ i =>
      rw [follow, answered, Option.bind_some, cursor, Option.bind_some, followed,
        List.getElem?_cons_succ]

/-- Corpus paging loses and repeats nothing: following the cursor from the start ends
and hands over what changed, once, in the order of the paths, and every offset is
answered with its page. -/
theorem itemsPages_complete (ends : Ends host.core drive (normPath path)) (since : Nat) :
    ∃ facts, walkFacts host.core drive (normPath path) = some facts ∧
      (changedSince facts since).Pairwise (fun a b => a.path ≤ b.path) ∧
      (∀ asks : Nat → PageAsk δ ε, (∀ i, (asks i).Meets driveId drive) →
        ∃ pages, (∀ i, follow host driveId path since asks 0 i = pages[i]?) ∧
          Complete (changedSince facts since) 0 pages) ∧
      ∀ (ask : PageAsk δ ε) (offset : Nat), ask.Meets driveId drive →
        ∃ page, ask.page host driveId path since offset = some page ∧
          PageOf (changedSince facts since) offset (ItemsArgs.parse ask.request).limit page := by
  obtain ⟨facts, walked⟩ := walkFacts_of_ends ends
  refine ⟨facts, walked, ?_, ?_, ?_⟩
  · have sorted := walkFacts_sorted walked
    unfold changedSince
    split
    · exact sorted
    · exact sorted.filter _
  · exact fun asks met => follow_complete walked asks met 0
  · exact fun ask offset met => exists_page walked met offset

namespace Reference

theorem nestedDrive_walks : walkFacts core nestedDrive "/" = some nestedFacts.reverse := by
  have root : core.ls nestedDrive "/" = .ok nestedForest.lines := by decide
  have docs : core.ls nestedDrive "/docs" =
      .ok (Forest.file "a" "n1" (some (contentOf "o1" 1000)) .nil).lines := by decide
  have first : nestedForest.lines.foldl (visit core nestedDrive "/") ([], []) =
      (["/docs"], nestedFacts.drop 1) := by decide
  have second : (Forest.file "a" "n1" (some (contentOf "o1" 1000)) .nil).lines.foldl
      (visit core nestedDrive "/docs") ([], nestedFacts.drop 1) = ([], nestedFacts.reverse) := by
    decide
  rw [walkFacts, walk_ok root, first, walk_ok docs, second, walk_nil]
  decide

def nestedAsk : PageAsk FileDrive (Option String) where
  world := (world none).toWorld
  registry := registry "team" nestedDrive
  request := .object [("args", .object [("limit", .number (some 1))])]

end Reference

open Reference in
/-- Two files, one a page: the cursor of the first page is followed. -/
theorem nestedDrive_paged :
    ∃ pages, 2 ≤ pages.length ∧
      (∀ i, follow (Reference.host [] []) "team" "" 0 (fun _ => nestedAsk) 0 i = pages[i]?) ∧
      Complete nestedFacts.reverse 0 pages := by
  have ends : Ends (Reference.host [] []).core nestedDrive (normPath "") := nestedDrive_shown.ends
  obtain ⟨facts, walked, _, followed, paged⟩ :=
    @itemsPages_complete _ _ _ (Reference.host [] []) "team" "" nestedDrive ends 0
  obtain rfl : nestedFacts.reverse = facts := Option.some.inj (nestedDrive_walks.symm.trans walked)
  obtain ⟨pages, numbered, complete⟩ := followed (fun _ => nestedAsk) fun _ => rfl
  obtain ⟨page, answered, here⟩ := paged nestedAsk 0 rfl
  obtain ⟨further, later, _⟩ := paged nestedAsk 1 rfl
  have size : page.items.length = 1 := here.size
  have more : page.more = true := here.more.mpr (by rw [size]; decide)
  have cursor : page.cursor = some 1 := by rw [here.cursor, if_pos more, size]
  have again := numbered 1
  rw [follow, answered, Option.bind_some, cursor, Option.bind_some, follow, later] at again
  exact ⟨pages, (List.getElem?_eq_some_iff.mp again.symm).1, numbered, complete⟩

end DriveServe
