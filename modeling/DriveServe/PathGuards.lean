import DriveServe.PathNames
import DriveServe.Reference

set_option autoImplicit false

/-! What normalization does behind the guards: the traversal guard reads a path as it
came and the handlers a trimmed one, and a minted scope is trimmed again each time it
is parsed and enforced. -/

namespace DriveServe

theorem pathNames_empty : pathNames "" = [] := by decide

theorem pathNames_slash (front back : List Char) :
    pathNames (String.ofList (front ++ '/' :: back)) =
      pathNames (String.ofList front) ++ pathNames (String.ofList back) := by
  have text : String.ofList (front ++ '/' :: back) =
      String.ofList front ++ "/" ++ String.ofList back := by
    rw [← String.toList_inj]
    simp
  rw [text, pathNames_append]

theorem pathNames_trimSlashes (s : String) : pathNames (trimSlashes s) = pathNames s := by
  have left (l : List Char) : pathNames (String.ofList (l.dropWhile isSlash)) =
      pathNames (String.ofList l) := by
    induction l with
    | nil => rfl
    | cons c rest ih =>
      by_cases slash : isSlash c = true
      · obtain rfl : c = '/' := by simpa [isSlash] using slash
        rw [List.dropWhile_cons_of_pos slash, ih, ← List.nil_append ('/' :: rest), pathNames_slash]
        rfl
      · rw [List.dropWhile_cons_of_neg slash]
  have right (l : List Char) : pathNames (String.ofList (l.rdropWhile isSlash)) =
      pathNames (String.ofList l) := by
    induction l using List.reverseRecOn with
    | nil => rfl
    | append_singleton rest c ih =>
      by_cases slash : isSlash c = true
      · obtain rfl : c = '/' := by simpa [isSlash] using slash
        rw [List.rdropWhile_concat_pos _ _ _ slash, ih, pathNames_slash]
        exact (List.append_nil _).symm
      · rw [List.rdropWhile_concat_neg _ _ _ slash]
  rw [trimSlashes, Trim.ends, right, left, String.ofList_toList]

theorem pathNames_normPath (p : String) : pathNames (normPath p) = pathNames (trim p) := by
  rw [← pathNames_trimSlashes (trim p)]
  unfold normPath
  dsimp only
  split
  · rename_i blank
    rw [blank, pathNames_root, pathNames_empty]
  · have text : "/" ++ trimSlashes (trim p) = "" ++ "/" ++ trimSlashes (trim p) := by
      rw [String.empty_append]
    rw [text, pathNames_append, pathNames_empty, List.nil_append]

theorem flatMap_solid (segments : List (List Char)) :
    ((segments.map String.ofList).filter (· != "")).flatMap String.toList = segments.flatten := by
  induction segments with
  | nil => rfl
  | cons segment rest ih =>
    rw [List.map_cons, List.flatten_cons, ← ih]
    by_cases empty : segment = []
    · simp [empty]
    · simp [empty]

theorem pathNames_letters (p : String) :
    (pathNames p).flatMap String.toList = p.toList.filter (· != '/') := by
  have guarded : '/' :: p.toList = (p.toList.splitOn '/').flatMap ('/' :: ·) :=
    Segments.cons_eq_flatMap_splitOn p.toList
  replace guarded := congrArg (List.filter (· != '/')) guarded
  rw [List.filter_cons_of_neg (by decide), List.filter_flatMap] at guarded
  rw [guarded, pathNames, splitSlash, flatMap_solid, ← List.flatMap_id]
  apply List.flatMap_congr
  intro segment member
  have clean : '/' ∉ segment := Segments.sep_notMem_of_mem_splitOn member
  rw [List.filter_cons_of_neg (by decide), List.filter_eq_self.mpr]
  · rfl
  · intro c inside
    rw [bne_iff_ne]
    exact fun slash => clean (slash ▸ inside)

/-- White space at the ends of a path is part of its names. -/
theorem pathNames_trim_iff (p : String) : pathNames (trim p) = pathNames p ↔ trim p = p := by
  constructor
  · intro same
    have letters := congrArg (List.flatMap String.toList) same
    rw [pathNames_letters, pathNames_letters, trim, String.toList_ofList] at letters
    have solid : ∀ l : List Char, (∀ c ∈ l, isWhite c = true) → l.filter (· != '/') = l := by
      intro l white
      rw [List.filter_eq_self]
      intro c member
      rw [bne_iff_ne]
      rintro rfl
      exact absurd (white '/' member) (by decide)
    obtain ⟨front, back, whole, whiteFront, whiteBack⟩ := Trim.exists_ends isWhite p.toList
    have lengths := congrArg (List.length ∘ List.filter (· != '/')) whole
    have cut := congrArg List.length letters
    simp only [Function.comp_apply, List.filter_append, List.length_append,
      solid front whiteFront, solid back whiteBack] at lengths
    have noFront : front = [] := List.eq_nil_of_length_eq_zero (by omega)
    have noBack : back = [] := List.eq_nil_of_length_eq_zero (by omega)
    rw [noFront, noBack, List.nil_append, List.append_nil] at whole
    rw [trim, ← whole, String.ofList_toList]
  · intro stable
    rw [stable]

theorem mem_splitSlash_iff (s : String) : ".." ∈ splitSlash s ↔ ".." ∈ pathNames s := by
  simp [pathNames]

/-- No segment of what the handlers make of a path climbs. -/
structure Straight (drive path : String) : Prop where
  normal : ".." ∉ splitSlash (normPath path)
  cut : ∀ parent name, splitPath path = some (parent, name) →
    ".." ∉ splitSlash parent ∧ ".." ∉ splitSlash name
  tail : ∀ tail, drivePrefix drive path = driveNs ++ drive ++ tail → ".." ∉ splitSlash tail

/-- Neither the first nor the last segment climbs, once white space is cut off. -/
structure EndsStraight (path : String) : Prop where
  first : (splitSlash (trim path)).head? ≠ some ".."
  last : (splitSlash (trim path)).getLast? ≠ some ".."

theorem straight_iff (drive path : String) :
    Straight drive path ↔ ".." ∉ splitSlash (normPath path) := by
  constructor
  · exact Straight.normal
  · intro normal
    refine ⟨normal, ?_, ?_⟩
    · intro parent name split
      rw [mem_splitSlash_iff, ← splitPath_child split, pathNames_childPath, List.mem_append,
        not_or] at normal
      rw [mem_splitSlash_iff, mem_splitSlash_iff]
      exact normal
    · intro tail whole
      have behind : tail = if normPath path = "/" then "" else normPath path := by
        have letters := congrArg String.toList whole
        unfold drivePrefix at letters
        rw [← String.toList_inj]
        split <;> simp_all
      rw [behind]
      split
      · decide
      · exact normal

/-- Behind the guard, only white space can hide a segment that climbs, and only at the
two ends. -/
theorem straight_iff_ends {path : String} (guarded : noDotdot path = .ok ()) (drive : String) :
    Straight drive path ↔ EndsStraight path := by
  rw [straight_iff, mem_splitSlash_iff, pathNames_normPath, ← mem_splitSlash_iff]
  constructor
  · intro straight
    constructor
    · intro first
      exact straight (List.mem_of_head? first)
    · intro last
      exact straight (List.mem_of_getLast? last)
  · intro ends climbing
    rw [noDotdot_ok_iff] at guarded
    have inside : (trim path).toList <:+: path.toList := by
      rw [trim, String.toList_ofList]
      exact Trim.ends_inside _
    obtain ⟨segment, member, dots⟩ := List.mem_map.mp climbing
    have letters : segment = ['.', '.'] := by
      rw [← String.toList_ofList (l := segment), dots]
      rfl
    rw [letters] at member
    have between := Segments.infix_of_mem_splitOn member ?_ ?_
    · obtain ⟨before, after, whole⟩ := between.trans inside
      exact guarded ⟨'/' :: before, after ++ ['/'], by simp [← whole]⟩
    · intro first
      exact ends.first (by rw [splitSlash, List.head?_map, first]; rfl)
    · intro last
      exact ends.last (by rw [splitSlash, List.getLast?_map, last]; rfl)

/-- The traversal guard holds of what the handlers use exactly where trimming the white
space of a path leaves no climbing segment at its ends. -/
theorem accepted_straight_iff {iam : Iam} {hostId : NodeId} {acceptedRoots : List NodeId}
    {drive : String} {op : DriveOp} {fromNode : NodeId} {chain : List SignedCapability} {now : Nat}
    {revoked : RevokedSet} {granted : List String}
    (accepted : authorizeReq iam hostId acceptedRoots drive op fromNode chain now revoked =
      .ok granted) (path : String) (named : path ∈ opPaths op) :
    Straight drive path ↔ EndsStraight path := by
  obtain ⟨_, _, _, _, bound, _⟩ := (authorizeReq_ok_iff ..).mp accepted
  exact straight_iff_ends (bound.admitted path named).straight drive

def wholeGrant : SignedCapability :=
  Reference.issue (Reference.identity 1) (Reference.node 2) [Ability.read, Ability.write] .any
    { Caveats.default with pathPrefix := some (driveCaveatPrefix "team" "/") } 1 none

def wholeGranted (op : DriveOp) : Except DriveErr (List String) :=
  authorizeReq (Reference.iam []) (Reference.node 1) [] "team" op (Reference.node 2) [wholeGrant] 0
    []

theorem padded_straight : Straight "team" " /docs/a " :=
  (accepted_straight_iff (show wholeGranted (.stat " /docs/a ") =
    .ok [Ability.read, Ability.write] by decide) " /docs/a " (by decide)).mpr
      ⟨by decide, by decide⟩

/-- A blank before two dots takes them past the guard, and the handler makes a directory
that goes by them. -/
theorem blankDots_accepted :
    wholeGranted (.mkdir " ..") = .ok [Ability.read, Ability.write] ∧
      splitPath " .." = some ("/", "..") ∧ ¬ Straight "team" " .." :=
  ⟨by decide, by decide, fun straight => straight.normal (by decide)⟩

/-- A minted prefix that is read back as the drive and the subtree it was minted for, and
enforced as that subtree. -/
structure RoundTrips (drive path : String) : Prop where
  parsed : parseDrivePrefix (driveCaveatPrefix drive path) = some (drive, normPath path)
  enforced : ∀ bound scope, parseDrivePrefix (driveCaveatPrefix drive path) = some (bound, scope) →
    ∀ inner, enforcePrefix scope inner = .ok () ↔ Under (normPath path) (normPath inner)

theorem reparsed_iff (path : String) :
    normPath (String.ofList (normTail path)) = normPath path ↔
      trim (trimSlashes (trim path)) = trimSlashes (trim path) := by
  rw [normPath_eq_iff, ← String.toList_inj, trim, String.toList_ofList, trimSlashes_trim_toList,
    normTail, String.toList_ofList]
  exact Trim.twice_twice_iff path.toList

/-- A tail that parsing leaves as it is, enforcing leaves as it is too. -/
theorem normPath_idem {path : String}
    (stable : normPath (String.ofList (normTail path)) = normPath path) :
    normPath (normPath path) = normPath path := by
  rw [normPath_eq_iff, normTail, String.toList_ofList] at stable
  rw [normPath_eq_iff, normTail_normPath]
  exact Trim.right_of_twice stable

/-- A prefix round-trips exactly where what is left of the path between its white space
and its slashes neither begins nor ends with white space. -/
theorem roundTrips_iff {drive : String} (nonempty : drive ≠ "") (slashFree : '/' ∉ drive.toList)
    (path : String) :
    RoundTrips drive path ↔ trim (trimSlashes (trim path)) = trimSlashes (trim path) := by
  have parsed := parseDrivePrefix_drivePrefix nonempty slashFree path
  rw [← reparsed_iff]
  constructor
  · intro trip
    have same := parsed.symm.trans trip.parsed
    exact (Prod.mk.inj (Option.some.inj same)).2
  · intro stable
    rw [stable] at parsed
    refine ⟨parsed, ?_⟩
    intro bound scope found inner
    have same : normPath path = scope :=
      (Prod.mk.inj (Option.some.inj (parsed.symm.trans found))).2
    rw [← same, enforcePrefix_under_iff, normPath_idem stable]

theorem docsPrefix_roundTrips : RoundTrips "team" " /docs/a b/ " :=
  (roundTrips_iff (by decide) (by decide) " /docs/a b/ ").mpr (by decide)

/-- The prefix of a directory whose name begins with a blank is honoured for the one
without it. -/
theorem blankName_misread :
    normPath "/ a" = "/ a" ∧
      parseDrivePrefix (driveCaveatPrefix "team" "/ a") = some ("team", "/a") ∧
      ¬ RoundTrips "team" "/ a" := by
  refine ⟨by decide, by decide, ?_⟩
  intro trip
  exact absurd trip.parsed (by decide)

end DriveServe
