import DriveServe.Corpus

set_option autoImplicit false

/-! What a corpus item keeps of the two sides it is merged from: what the drive holds
of the file, and what the kind app read in it. -/

namespace DriveServe

namespace Corpus

def fresh {α : Type} [DecidableEq α] (held more : List α) : List α :=
  (more.filter (· ∉ held)).eraseDups

theorem pushNew_eq {α : Type} [DecidableEq α] (held more : List α) :
    pushNew held more = held ++ fresh held more := by
  induction more generalizing held with
  | nil => exact (List.append_nil held).symm
  | cons x rest ih =>
    have step : pushNew held (x :: rest) = pushNew (if x ∈ held then held else held ++ [x]) rest :=
      rfl
    rw [step]
    by_cases present : x ∈ held
    · rw [if_pos present, ih, fresh, fresh, List.filter_cons_of_neg (by simpa using present)]
    · rw [if_neg present, ih, fresh, fresh, List.filter_cons_of_pos (by simpa using present),
        List.eraseDups_cons, List.append_assoc, List.singleton_append, List.filter_filter]
      congr 4
      funext y
      by_cases same : y = x <;> simp [same]

namespace Props

theorem lookup_head (k : String) (entry : String × String) (rest : Props) :
    List.lookup k (entry :: rest) = if k = entry.1 then some entry.2 else rest.lookup k := by
  rw [← List.singleton_append, List.lookup_append, List.lookup_singleton]
  by_cases here : k = entry.1 <;> simp [here]

theorem lookup_insert (k key value : String) (props : Props) :
    (insert key value props).lookup k = if k = key then some value else props.lookup k := by
  induction props with
  | nil => exact lookup_head k (key, value) []
  | cons entry rest ih =>
    rw [insert]
    split
    · rename_i same
      rw [lookup_head, lookup_head, ← same]
      split <;> rfl
    · split
      · exact lookup_head k (key, value) _
      · rename_i other _
        rw [lookup_head, lookup_head, ih]
        by_cases here : k = key
        · rw [if_pos here, if_pos here, if_neg fun there => other (here ▸ there)]
        · rw [if_neg here, if_neg here]

theorem lookup_orInsert (k : String) (props : Props) (entry : String × String) :
    (orInsert props entry).lookup k = (props ++ [entry]).lookup k := by
  unfold orInsert
  rw [List.lookup_append, List.lookup_singleton]
  by_cases same : k = entry.1
  · cases held : props.lookup entry.1 <;> simp [same, held, lookup_insert]
  · split <;> simp [lookup_insert, same]

theorem lookup_foldl_orInsert (k : String) (props more : Props) :
    (more.foldl orInsert props).lookup k = (props ++ more).lookup k := by
  induction more generalizing props with
  | nil => rw [List.foldl_nil, List.append_nil]
  | cons entry rest ih =>
    rw [List.foldl_cons, ih, List.lookup_append, lookup_orInsert, ← List.lookup_append,
      List.append_assoc, List.singleton_append]

end Props

/-- The keys an item's map holds beside the props of the two sides. -/
def reservedKeys : List String :=
  ["path", "dir", "size", "locator", "unextracted", "unextracted_kind"]

variable (facts : NodeFacts) (extracted : Extracted)

theorem itemFrom_lookup (k : String) :
    (itemFrom facts extracted).info.lookup k =
      if k = "unextracted_kind" ∧ extracted.unextracted = true ∧ facts.kind.isSome then facts.kind
      else if k = "unextracted" ∧ extracted.unextracted = true then some "true"
      else if k = "locator" then some facts.locator
      else if k = "size" then some (toString facts.size)
      else if k = "dir" then some (dirOf facts.path)
      else if k = "path" then some facts.path
      else (facts.props.lookup k).or (extracted.props.lookup k) := by
  have base := Props.lookup_foldl_orInsert k facts.props extracted.props
  rw [List.lookup_append] at base
  cases flagged : extracted.unextracted <;> cases kind : facts.kind <;>
    simp [itemFrom, flagged, kind, Props.lookup_insert, base]

/-- The directory of a path and its last segment make up the path again, but for a
path with two slashes before its only name. -/
theorem childPath_dirOf_iff {path : String} (rooted : startsWith path "/" = true) :
    childPath (dirOf path) (lastSegment path) = path ↔
      ¬ ∃ name, '/' ∉ name.toList ∧ path = "//" ++ name := by
  have slashed : '/' ∈ path.toList := by
    rw [startsWith_iff] at rooted
    exact rooted.subset List.mem_cons_self
  have whole := cut_last_slash slashed
  have plain : '/' ∉ path.toList.rtakeWhile (· != '/') :=
    fun found => absurd (List.mem_rtakeWhile_imp found) (by decide)
  obtain ⟨dir, dirShape⟩ : ∃ dir, dir = (path.toList.rdropWhile (· != '/')).dropLast := ⟨_, rfl⟩
  obtain ⟨name, nameShape⟩ : ∃ name, name = path.toList.rtakeWhile (· != '/') := ⟨_, rfl⟩
  rw [← dirShape, ← nameShape] at whole
  rw [← nameShape] at plain
  have joined : childPath (dirOf path) (lastSegment path) =
      if dir = [] ∨ dir = ['/'] then "/" ++ String.ofList name
      else String.ofList dir ++ "/" ++ String.ofList name := by
    rw [childPath, dirOf, lastSegment, ← dirShape, ← nameShape]
    by_cases top : dir = []
    · simp [top]
    · by_cases one : dir = ['/']
      · simp [one]
      · have deeper : String.ofList dir ≠ "/" := by
          intro root
          exact one (String.ofList_injective root)
        simp [top, one, deeper]
  rw [joined, ← String.toList_inj, ← whole]
  by_cases one : dir = ['/']
  · constructor
    · intro same
      have shorter := congrArg List.length same
      simp [one] at shorter
    · intro other
      refine absurd ⟨String.ofList name, by rwa [String.toList_ofList], ?_⟩ other
      rw [← String.toList_inj, ← whole, one]
      simp
  · constructor
    · rintro _ ⟨short, clean, shape⟩
      have cut : dir ++ '/' :: name = ['/'] ++ '/' :: short.toList := by
        rw [whole, shape, String.toList_append]
        rfl
      exact one (Segments.cut_last_unique plain clean cut).1
    · intro _
      by_cases top : dir = [] <;> simp [top, one]

/-- An item that merges both sides without loss and without a forged fact. -/
structure Merges (item : Item) : Prop where
  links : item.links = facts.links ++ fresh facts.links extracted.links
  tags : item.tags = facts.tags ++ fresh facts.tags extracted.tags
  props : ∀ k, k ∉ reservedKeys →
    item.info.lookup k = (facts.props.lookup k).or (extracted.props.lookup k)
  path : item.reference = facts.path ∧ item.info.lookup "path" = some facts.path
  size : item.info.lookup "size" = some (toString facts.size)
  locator : item.info.lookup "locator" = some facts.locator
  dir : ∃ dir, item.info.lookup "dir" = some dir ∧
    childPath dir (lastSegment facts.path) = facts.path
  unextracted : (item.info.lookup "unextracted").isSome ↔ extracted.unextracted = true
  unextractedKind : item.info.lookup "unextracted_kind" =
    if extracted.unextracted = true then facts.kind else none

/-- Neither side has a prop under this key. -/
def Unset (key : String) : Prop :=
  facts.props.lookup key = none ∧ extracted.props.lookup key = none

/-- No prop stands under a key of the flags where the flag is not written. -/
structure Unforged : Prop where
  flag : extracted.unextracted = true ∨ Unset facts extracted "unextracted"
  kind : (extracted.unextracted = true ∧ facts.kind.isSome) ∨
    Unset facts extracted "unextracted_kind"

theorem unset_iff (key : String) :
    Unset facts extracted key ↔
      (facts.props.lookup key).or (extracted.props.lookup key) = none :=
  Option.or_eq_none_iff.symm

theorem itemFrom_flag (facts : NodeFacts) (extracted : Extracted) :
    (((itemFrom facts extracted).info.lookup "unextracted").isSome ↔
        extracted.unextracted = true) ↔
      extracted.unextracted = true ∨ Unset facts extracted "unextracted" := by
  rw [itemFrom_lookup, unset_iff]
  generalize (facts.props.lookup "unextracted").or _ = held
  cases flagged : extracted.unextracted <;> simp

theorem itemFrom_kind (facts : NodeFacts) (extracted : Extracted) :
    (itemFrom facts extracted).info.lookup "unextracted_kind" =
        (if extracted.unextracted = true then facts.kind else none) ↔
      (extracted.unextracted = true ∧ facts.kind.isSome) ∨
        Unset facts extracted "unextracted_kind" := by
  rw [itemFrom_lookup, unset_iff]
  generalize (facts.props.lookup "unextracted_kind").or _ = held
  cases flagged : extracted.unextracted <;> cases kind : facts.kind <;> simp

/-- `item_from` merges as it should exactly where no prop passes for a flag the router
did not raise. -/
theorem itemFrom_merges_iff (rooted : startsWith facts.path "/" = true) :
    Merges facts extracted (itemFrom facts extracted) ↔
      Unforged facts extracted ∧ ¬ ∃ name, '/' ∉ name.toList ∧ facts.path = "//" ++ name := by
  have dir : (itemFrom facts extracted).info.lookup "dir" = some (dirOf facts.path) := by
    simp [itemFrom_lookup]
  constructor
  · intro merged
    refine ⟨⟨?_, ?_⟩, ?_⟩
    · exact (itemFrom_flag facts extracted).mp merged.unextracted
    · exact (itemFrom_kind facts extracted).mp merged.unextractedKind
    · obtain ⟨found, held, joined⟩ := merged.dir
      rw [← Option.some.inj (dir.symm.trans held)] at joined
      exact (childPath_dirOf_iff rooted).mp joined
  · intro ⟨unforged, straight⟩
    refine ⟨pushNew_eq _ _, pushNew_eq _ _, ?_, ⟨rfl, ?_⟩, ?_, ?_, ⟨_, dir, ?_⟩, ?_, ?_⟩
    · intro k free
      simp only [reservedKeys, List.mem_cons, List.not_mem_nil, or_false, not_or] at free
      simp [itemFrom_lookup, free]
    · simp [itemFrom_lookup]
    · simp [itemFrom_lookup]
    · simp [itemFrom_lookup]
    · exact (childPath_dirOf_iff rooted).mpr straight
    · exact (itemFrom_flag facts extracted).mpr unforged.flag
    · exact (itemFrom_kind facts extracted).mpr unforged.kind

/-- A file at the top whose operator has set the prop `unextracted`. -/
def flaggedFacts : NodeFacts where
  nodeId := "node"
  path := "/a"
  size := 1
  mtimeMs := 1000
  kind := some "ce.text"
  locator := "app:1"
  tags := []
  links := []
  props := [("kind", "ce.text"), ("unextracted", "true")]

def readText : Extracted where
  title := none
  text := "a"
  links := []
  props := []
  tags := []
  unextracted := false

/-- Where the router has raised the flag itself, the operator's prop changes nothing. -/
theorem missingApp_merges :
    Merges flaggedFacts .missing (itemFrom flaggedFacts .missing) :=
  (itemFrom_merges_iff flaggedFacts .missing (by decide)).mpr
    ⟨⟨Or.inl rfl, Or.inl ⟨rfl, rfl⟩⟩, fun ⟨name, _, shape⟩ => by
      have tail := congrArg (·.toList[1]?) shape
      simp [flaggedFacts] at tail⟩

/-- The text of the file was read, and the item says that it was not. -/
theorem operatorFlag_forged :
    startsWith flaggedFacts.path "/" = true ∧
      ¬ Merges flaggedFacts readText (itemFrom flaggedFacts readText) := by
  refine ⟨by decide, ?_⟩
  intro merged
  have raised : readText.unextracted = true := merged.unextracted.mp (by decide)
  exact absurd raised (by decide)

end Corpus

end DriveServe
