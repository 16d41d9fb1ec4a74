import DriveServe.ByteIndex
import DriveServe.PathGuards

set_option autoImplicit false

/-! The laws between the path functions, over every string: the split of a path against
its normal form, scope checking against ancestry by segments, and what a second
normalization changes. -/

namespace DriveServe

/-- The split by byte indices, with slices that need not exist. -/
def splitPathSliced (path : String) : Option (Option (String × String)) :=
  let norm := (normPath path).toList
  if normPath path = "/" then some none
  else do
    let idx := (ByteIndex.rfind isSlash norm).getD 0
    let parent ← if idx = 0 then some "/"
      else (ByteIndex.cutAt norm idx).map fun cut => String.ofList cut.1
    let name ← (ByteIndex.cutAt norm (idx + 1)).map fun cut => String.ofList cut.2
    return some (parent, name)

/-- Every slice exists: the last slash is found, and it takes one byte. -/
theorem splitPathSliced_eq (path : String) : splitPathSliced path = some (splitPath path) := by
  unfold splitPathSliced splitPath
  dsimp only
  by_cases root : normPath path = "/"
  · rw [if_pos root, if_pos root]
  rw [if_neg root, if_neg root]
  have slashed : '/' ∈ (normPath path).toList := by
    rw [normPath_toList]
    exact List.mem_cons_self
  have whole := cut_last_slash slashed
  have clean : ∀ c ∈ (normPath path).toList.rtakeWhile (· != '/'), isSlash c = false := by
    intro c member
    simpa [isSlash] using List.mem_rtakeWhile_imp member
  generalize (normPath path).toList.rtakeWhile (· != '/') = name at whole clean ⊢
  generalize ((normPath path).toList.rdropWhile (· != '/')).dropLast = front at whole ⊢
  rw [← whole, ByteIndex.rfind_append_cons isSlash_slash front clean, Option.getD_some]
  have behind : ByteIndex.size front + 1 = ByteIndex.size (front ++ ['/']) := by
    rw [ByteIndex.size_append]
    rfl
  have named : ByteIndex.cutAt (front ++ '/' :: name) (ByteIndex.size front + 1) =
      some (front ++ ['/'], name) := by
    rw [behind, ← List.singleton_append, ← List.append_assoc, ByteIndex.cutAt_size]
  rw [named, ByteIndex.cutAt_size, Option.map_some, Option.map_some]
  by_cases top : front = []
  · rw [if_pos top, if_pos (by rw [top]; rfl)]
    rfl
  · rw [if_neg top, if_neg (by rwa [ByteIndex.size_eq_zero_iff])]
    rfl

structure Splits (path parent name : String) : Prop where
  proper : Proper name
  joined : childPath parent name = normPath path
  rooted : startsWith parent "/" = true
  normal : normPath parent = parent ↔
    parent = "/" ∨ ∀ c ∈ parent.toList.getLast?, isWhite c = false ∧ isSlash c = false
  sameNode : pathNames parent ++ [name] = pathNames (normPath path)

theorem splitPath_parent {path parent name : String}
    (split : splitPath path = some (parent, name)) :
    ∃ tail, parent.toList = '/' :: tail ∧ ∀ c rest, tail = c :: rest → isSlash c = false := by
  have joined := splitPath_child split
  by_cases top : parent = "/"
  · exact ⟨[], by rw [top]; rfl, fun c rest shape => nomatch shape⟩
  · have nonempty : parent.toList ≠ [] := by
      unfold splitPath at split
      dsimp only at split
      split at split
      · cases split
      · obtain ⟨shape, _⟩ := Prod.mk.inj (Option.some.inj split)
        split at shape
        · exact absurd shape.symm top
        · rename_i deeper
          rwa [← shape, String.toList_ofList]
    rw [childPath, if_neg top, ← String.toList_inj, normPath_toList] at joined
    simp only [String.toList_append, List.append_assoc] at joined
    cases shape : parent.toList with
    | nil => exact absurd shape nonempty
    | cons first tail =>
      rw [shape, List.cons_append, List.cons.injEq] at joined
      refine ⟨tail, by rw [joined.1], ?_⟩
      rintro c rest rfl
      exact normTail_head joined.2.symm

theorem splits_of_splitPath {path parent name : String}
    (split : splitPath path = some (parent, name)) : Splits path parent name := by
  have proper : Proper name := splitPath_name split
  have joined := splitPath_child split
  obtain ⟨tail, whole, solid⟩ := splitPath_parent split
  refine ⟨proper, joined, ?_, ?_, ?_⟩
  · rw [startsWith_iff, whole]
    exact ⟨tail, rfl⟩
  · rw [normPath_eq_self_iff whole solid]
    cases shape : tail with
    | nil =>
      have root : parent = "/" := by rw [← String.toList_inj, whole, shape]; rfl
      simp [root]
    | cons c rest =>
      have deeper : parent ≠ "/" := by
        intro root
        rw [root, shape] at whole
        exact absurd (congrArg List.length whole) (by simp)
      rw [whole, shape, List.getLast?_cons_cons]
      simp [deeper]
  · rw [← joined, pathNames_childPath, pathNames_proper proper]

structure SplitLaw (path : String) : Prop where
  sliced : splitPathSliced path = some (splitPath path)
  root : splitPath path = none ↔ normPath path = "/"
  halves : ∀ parent name, splitPath path = some (parent, name) → Splits path parent name

theorem splitPath_eq_none_iff (path : String) : splitPath path = none ↔ normPath path = "/" := by
  unfold splitPath
  dsimp only
  by_cases root : normPath path = "/"
  · rw [if_pos root]
    exact iff_of_true rfl root
  · rw [if_neg root]
    exact iff_of_false (Option.some_ne_none _) root

/-- A split path and its normal form describe the same node. -/
theorem splitPath_describes (path : String) : SplitLaw path :=
  ⟨splitPathSliced_eq path, splitPath_eq_none_iff path, fun _ _ => splits_of_splitPath⟩

/-- Of two slashes inside of a path, the first stays with the parent. -/
theorem doubledSlash_parent :
    splitPath "/a//b" = some ("/a/", "b") ∧ normPath "/a/" ≠ "/a/" := by decide

structure Ancestry (scope : String) : Prop where
  segments : ∀ path, enforcePrefix scope path = .ok () ↔
    normPath scope = "/" ∨ splitSlash (normPath scope) <+: splitSlash (normPath path)
  refl : enforcePrefix scope scope = .ok ()
  trans : ∀ inner path, enforcePrefix scope inner = .ok () → enforcePrefix inner path = .ok () →
    enforcePrefix scope path = .ok ()
  sibling : normPath scope ≠ "/" → ∀ path more, normPath path = normPath scope ++ more →
    more ≠ "" → startsWith more "/" = false → enforcePrefix scope path = .error .outOfScope

theorem splitSlash_prefix_iff (top low : String) :
    splitSlash top <+: splitSlash low ↔ low = top ∨ startsWith low (top ++ "/") = true := by
  have letters : Function.Injective String.ofList := fun _ _ same => String.ofList_inj.mp same
  rw [splitSlash, splitSlash, List.prefix_map_iff_of_injective letters,
    Segments.splitOn_prefix_iff, startsWith_iff, String.toList_append, String.toList_inj, eq_comm]
  rfl

/-- Scope checking is ancestry by whole segments. -/
theorem enforcePrefix_ancestry (scope : String) : Ancestry scope := by
  have segments : ∀ path, enforcePrefix scope path = .ok () ↔
      normPath scope = "/" ∨ splitSlash (normPath scope) <+: splitSlash (normPath path) := by
    intro path
    rw [enforcePrefix_under_iff, splitSlash_prefix_iff]
    rfl
  refine ⟨segments, enforcePrefix_refl scope, fun _ _ => enforcePrefix_trans, ?_⟩
  intro deep path more beside nonempty solid
  unfold enforcePrefix
  dsimp only
  apply if_neg
  rintro (root | same | below)
  · exact deep root
  · rw [beside] at same
    have letters := congrArg String.toList same
    rw [String.toList_append] at letters
    exact nonempty (String.toList_eq_nil_iff.mp (by simpa using letters))
  · rw [beside, startsWith_iff, String.toList_append, String.toList_append,
      List.prefix_append_right_inj, ← startsWith_iff, solid] at below
    cases below

/-- Once white space is cut off, the path ends with slashes and white space stands right
before them. -/
def BlankBeforeSlashes (path : String) : Prop :=
  ∃ front c slashes, (trim path).toList = front ++ c :: slashes ∧ isWhite c = true ∧
    ∀ slash ∈ slashes, isSlash slash = true

/-- Only such white space is cut by a second normalization. -/
theorem normPath_normPath_iff (path : String) :
    normPath (normPath path) = normPath path ↔ ¬ BlankBeforeSlashes path := by
  have last : ∀ c, isWhite c = true → ((normTail path).getLast? = some c ↔
      ∃ front slashes, (trim path).toList = front ++ c :: slashes ∧
        ∀ slash ∈ slashes, isSlash slash = true) := by
    intro c white
    rw [trim, String.toList_ofList]
    exact Trim.getLast?_ends_iff (isSlash_of_isWhite white)
  rw [normPath_eq_self_iff (normPath_toList path) fun _ _ => normTail_head]
  constructor
  · rintro solid ⟨front, c, slashes, whole, white, cut⟩
    have kept := (solid c ((last c white).mpr ⟨front, slashes, whole, cut⟩)).1
    rw [white] at kept
    cases kept
  · intro clean c member
    constructor
    · rw [← Bool.not_eq_true]
      intro white
      obtain ⟨front, slashes, whole, cut⟩ := (last c white).mp member
      exact clean ⟨front, c, slashes, whole, white, cut⟩
    · obtain ⟨front, shape⟩ := List.getLast?_eq_some_iff.mp member
      exact Trim.last_twice shape

/-- What normalizing twice leaves as normalizing once does: a path, as a scope and as a
path in one, and the scope that a capability's caveat is read as. -/
structure NormalizedOnce (path caveat : String) : Prop where
  same : normPath (normPath path) = normPath path
  asScope : ∀ inner, enforcePrefix (normPath path) inner = enforcePrefix path inner
  asPath : ∀ scope, enforcePrefix scope (normPath path) = enforcePrefix scope path
  enforced : ∀ drive scope, parseDrivePrefix caveat = some (drive, scope) → normPath scope = scope

/-- The scopes that a caveat is read as are normal once and for all where its subtree has
no white space before the slashes it ends with. -/
theorem enforced_iff (caveat : String) :
    (∀ drive scope, parseDrivePrefix caveat = some (drive, scope) → normPath scope = scope) ↔
      ∀ drive subtree, drive ≠ "" → '/' ∉ drive.toList →
        caveat = driveNs ++ drive ++ "/" ++ subtree → ¬ BlankBeforeSlashes subtree := by
  constructor
  · intro enforced drive subtree nonempty slashFree whole
    rw [← normPath_normPath_iff]
    apply enforced drive
    rw [parseDrivePrefix_eq_some_iff]
    refine ⟨drive.toList ++ '/' :: subtree.toList, ?_, nonempty, slashFree, _, rfl,
      Or.inr ⟨subtree.toList, rfl⟩, ?_⟩
    · rw [whole]
      simp [String.toList_append]
    · rw [List.drop_one, List.tail_cons, String.ofList_toList]
  · intro clean drive scope parsed
    obtain ⟨behind, whole, nonempty, slashFree, back, shape, ending, read⟩ :=
      (parseDrivePrefix_eq_some_iff ..).mp parsed
    rw [read]
    rcases ending with nothing | ⟨subtree, below⟩
    · rw [nothing]
      decide
    · rw [below, List.drop_one, List.tail_cons, normPath_normPath_iff]
      apply clean drive _ nonempty slashFree
      rw [← String.toList_inj, whole, shape, below]
      simp [String.toList_append]

/-- Normalizing again changes nothing exactly where no white space stands before the
slashes at the end. -/
theorem normalizedOnce_iff (path caveat : String) :
    NormalizedOnce path caveat ↔ ¬ BlankBeforeSlashes path ∧
      ∀ drive subtree, drive ≠ "" → '/' ∉ drive.toList →
        caveat = driveNs ++ drive ++ "/" ++ subtree → ¬ BlankBeforeSlashes subtree := by
  rw [← normPath_normPath_iff, ← enforced_iff]
  constructor
  · intro once
    exact ⟨once.same, once.enforced⟩
  · intro ⟨same, enforced⟩
    refine ⟨same, ?_, ?_, enforced⟩
    · intro inner
      rw [enforcePrefix, same]
      rfl
    · intro scope
      rw [enforcePrefix, same]
      rfl

/-- A blank before the last slash is cut by the second pass, and the scope is another. -/
theorem blankBeforeSlash_changes :
    normPath "/a /" = "/a " ∧ normPath (normPath "/a /") = "/a" ∧
      enforcePrefix "/a /" "/a" = .error .outOfScope ∧
      enforcePrefix (normPath "/a /") "/a" = .ok () ∧
      parseDrivePrefix "ce-drive/team/a /" = some ("team", "/a ") ∧
      ¬ NormalizedOnce "/a /" "ce-drive/team/a /" := by
  refine ⟨by decide, by decide, by decide, by decide, by decide, ?_⟩
  intro once
  exact absurd once.same (by decide)

end DriveServe
