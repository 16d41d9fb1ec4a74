import DriveServe.Segments
import DriveServe.Trim
import DriveServe.Wire

set_option autoImplicit false

/-! Drive paths as `serve.rs` handles them: normalization, the traversal guard,
the subtree check and the drive-bound capability string. -/

namespace DriveServe

/-- Unicode `White_Space`, the class that `str::trim` cuts. -/
def isWhite (c : Char) : Bool :=
  let n := c.toNat
  (9 ≤ n && n ≤ 13) || n == 0x20 || n == 0x85 || n == 0xA0 || n == 0x1680 ||
    (0x2000 ≤ n && n ≤ 0x200A) || n == 0x2028 || n == 0x2029 || n == 0x202F ||
    n == 0x205F || n == 0x3000

def isSlash (c : Char) : Bool := c == '/'

/-- `str::trim`. -/
def trim (s : String) : String := String.ofList (Trim.ends isWhite s.toList)

/-- `str::trim_matches('/')`. -/
def trimSlashes (s : String) : String := String.ofList (Trim.ends isSlash s.toList)

def startsWith (s initial : String) : Bool := initial.toList.isPrefixOf s.toList

/-- `str::split('/')`. -/
def splitSlash (s : String) : List String := (s.toList.splitOn '/').map String.ofList

/-- `str::split_once('/')`. -/
def splitOnceSlash (s : String) : Option (String × String) :=
  if '/' ∈ s.toList then
    some (String.ofList (s.toList.takeWhile (· != '/')),
      String.ofList ((s.toList.dropWhile (· != '/')).drop 1))
  else none

/-- `str::strip_prefix`. -/
def stripInitial (s initial : String) : Option String :=
  if startsWith s initial then some (String.ofList (s.toList.drop initial.toList.length)) else none

/-- Single leading slash, no trailing slash (except root). -/
def normPath (p : String) : String :=
  let t := trimSlashes (trim p)
  if t = "" then "/" else "/" ++ t

/-- The caveat namespace that binds a Drive capability to one drive id. -/
def driveNs : String := "ce-drive/"

def drivePrefix (drive path : String) : String :=
  let norm := normPath path
  if norm = "/" then driveNs ++ drive else driveNs ++ drive ++ norm

/-- The canonical way to mint a Drive cap's path caveat. -/
def driveCaveatPrefix (drive path : String) : String := drivePrefix drive path

/-- Recover the drive id and the subtree of a drive-bound path caveat. -/
def parseDrivePrefix (caveat : String) : Option (String × String) :=
  match stripInitial caveat driveNs with
  | none => none
  | some rest =>
    match splitOnceSlash rest with
    | some (drive, path) => if drive ≠ "" then some (drive, normPath path) else none
    | none => if rest ≠ "" then some (rest, "/") else none

def noDotdot (p : String) : Except DriveErr Unit :=
  if (splitSlash p).any (· == "..") then .error .badPath else .ok ()

/-- Enforce the path-subtree caveat against `path`; scope `/` means drive-wide. -/
def enforcePrefix (scope path : String) : Except DriveErr Unit :=
  let norm := normPath path
  let pfx := normPath scope
  if pfx = "/" ∨ norm = pfx ∨ startsWith norm (pfx ++ "/") then .ok () else .error .outOfScope

/-- Split a path into parent directory and leaf name. Root has no parent. -/
def splitPath (path : String) : Option (String × String) :=
  let norm := normPath path
  if norm = "/" then none
  else
    -- `rfind('/')` always finds the leading slash of a normalized path
    let name := norm.toList.rtakeWhile (· != '/')
    let parent := (norm.toList.rdropWhile (· != '/')).dropLast
    some (if parent = [] then "/" else String.ofList parent, String.ofList name)

/-- `rsplit('/').next()`. -/
def lastSegment (path : String) : String := String.ofList (path.toList.rtakeWhile (· != '/'))

theorem isWhite_slash : isWhite '/' = false := by decide

theorem isSlash_slash : isSlash '/' = true := by decide

theorem isSlash_of_isWhite {c : Char} (white : isWhite c = true) : isSlash c = false := by
  rw [← Bool.not_eq_true]
  intro slash
  obtain rfl : c = '/' := by simpa [isSlash] using slash
  rw [isWhite_slash] at white
  cases white

/-- What normalization leaves behind the leading slash. -/
def normTail (p : String) : List Char := Trim.twice isWhite isSlash p.toList

theorem trimSlashes_trim_toList (p : String) : (trimSlashes (trim p)).toList = normTail p := by
  simp only [trimSlashes, trim, String.toList_ofList]
  rfl

theorem normPath_toList (p : String) : (normPath p).toList = '/' :: normTail p := by
  have shape := trimSlashes_trim_toList p
  unfold normPath
  dsimp only
  split
  · rename_i blank
    rw [blank] at shape
    rw [← shape]
    rfl
  · rw [String.toList_append, shape]
    rfl

theorem normPath_eq_iff (p q : String) : normPath p = normPath q ↔ normTail p = normTail q := by
  rw [← String.toList_inj, normPath_toList, normPath_toList, List.cons.injEq]
  simp

theorem normPath_root_iff (p : String) : normPath p = "/" ↔ normTail p = [] := by
  rw [← String.toList_inj, normPath_toList]
  simp

theorem normTail_head {p : String} {c : Char} {rest : List Char}
    (shape : normTail p = c :: rest) : isSlash c = false := Trim.head_twice shape

theorem normTail_last {p : String} (deep : normPath p ≠ "/") :
    ∃ front last, normTail p = front ++ [last] ∧ isSlash last = false := by
  rcases List.eq_nil_or_concat' (normTail p) with root | ⟨front, last, shape⟩
  · exact absurd ((normPath_root_iff p).mpr root) deep
  · exact ⟨front, last, shape, Trim.last_twice shape⟩

/-- Normalizing a normalized path again cuts its right end only. -/
theorem normTail_normPath (p : String) :
    normTail (normPath p) = Trim.right isWhite isSlash (normTail p) := by
  unfold normTail
  rw [normPath_toList]
  exact Trim.twice_cons_guard isSlash_slash isWhite_slash (fun _ _ => normTail_head)

/-- A path that begins with one slash is in normal form where it does not end with a
slash or with white space, unless it is the root. -/
theorem normPath_eq_self_iff {path : String} {tail : List Char} (whole : path.toList = '/' :: tail)
    (solid : ∀ c rest, tail = c :: rest → isSlash c = false) :
    normPath path = path ↔ ∀ c ∈ tail.getLast?, isWhite c = false ∧ isSlash c = false := by
  rw [← String.toList_inj, normPath_toList, whole, List.cons.injEq, and_iff_right rfl, normTail,
    whole, Trim.twice_cons_guard isSlash_slash isWhite_slash solid, Trim.right_eq_self_iff]

/-- The traversal guard looks for two dots between slashes, the ends of the path
counting as slashes. -/
theorem noDotdot_ok_iff (p : String) (u : Unit) :
    noDotdot p = .ok u ↔ ¬ ['/', '.', '.', '/'] <:+: '/' :: (p.toList ++ ['/']) := by
  have clean : '/' ∉ ['.', '.'] := by decide
  have found : (splitSlash p).any (· == "..") = true ↔ ['.', '.'] ∈ p.toList.splitOn '/' := by
    simp only [splitSlash, List.any_eq_true, List.mem_map, beq_iff_eq]
    constructor
    · rintro ⟨_, ⟨segment, member, rfl⟩, same⟩
      have dots : segment = ['.', '.'] := by
        simpa using congrArg String.toList same
      exact dots ▸ member
    · exact fun member => ⟨"..", ⟨_, member, rfl⟩, rfl⟩
  rw [Segments.mem_splitOn_iff clean] at found
  unfold noDotdot
  split
  · rename_i dotted
    simpa using found.mp dotted
  · rename_i straight
    simpa using fun dots => straight (found.mpr dots)

/-- The segments a scope is compared by; the root has none. -/
def scopeSegments (p : String) : List (List Char) :=
  if normTail p = [] then [] else (normTail p).splitOn '/'

theorem scopeSegments_eq_nil_iff (p : String) : scopeSegments p = [] ↔ normTail p = [] := by
  unfold scopeSegments
  split <;> simp_all

theorem startsWith_iff (s initial : String) :
    startsWith s initial = true ↔ initial.toList <+: s.toList := by
  simp only [startsWith, List.isPrefixOf_iff_prefix]

theorem startsWith_normPath_iff (scope path : String) :
    startsWith (normPath path) (normPath scope ++ "/") = true ↔
      normTail scope ++ ['/'] <+: normTail path := by
  rw [startsWith_iff, String.toList_append, normPath_toList, normPath_toList, List.cons_append,
    List.cons_prefix_cons]
  exact and_iff_right rfl

theorem scopeSegments_prefix_iff (scope path : String) :
    scopeSegments scope <+: scopeSegments path ↔ normTail scope = [] ∨
      normTail path = normTail scope ∨ normTail scope ++ ['/'] <+: normTail path := by
  by_cases root : normTail scope = []
  · simp [root, scopeSegments]
  · by_cases top : normTail path = []
    · have nonempty : scopeSegments scope ≠ [] := by
        rwa [ne_eq, scopeSegments_eq_nil_iff]
      have differ : ¬ [] = normTail scope := fun same => root same.symm
      rw [(scopeSegments_eq_nil_iff path).mpr top, List.prefix_nil]
      simp [nonempty, root, top, differ]
    · simp only [scopeSegments, root, top, ↓reduceIte, false_or]
      rw [Segments.splitOn_prefix_iff, eq_comm]

/-- The subtree check is ancestry by whole segments. -/
theorem enforcePrefix_ok_iff (scope path : String) :
    enforcePrefix scope path = .ok () ↔ scopeSegments scope <+: scopeSegments path := by
  rw [scopeSegments_prefix_iff, ← normPath_root_iff, ← normPath_eq_iff, ← startsWith_normPath_iff]
  unfold enforcePrefix
  dsimp only
  split <;> simp_all

/-- The path of a name in a directory that is given in normal form. -/
def childPath (parent name : String) : String :=
  if parent = "/" then "/" ++ name else parent ++ "/" ++ name

theorem cut_last_slash {l : List Char} (slashed : '/' ∈ l) :
    (l.rdropWhile (· != '/')).dropLast ++ '/' :: l.rtakeWhile (· != '/') = l := by
  have nonempty : l.rdropWhile (· != '/') ≠ [] := by
    rw [ne_eq, List.rdropWhile_eq_nil_iff]
    exact fun all => absurd (all '/' slashed) (by decide)
  have last : (l.rdropWhile (· != '/')).getLast nonempty = '/' := by
    simpa using List.rdropWhile_last_not (· != '/') l nonempty
  have front := List.dropLast_append_getLast nonempty
  rw [last] at front
  calc (l.rdropWhile (· != '/')).dropLast ++ '/' :: l.rtakeWhile (· != '/')
      = ((l.rdropWhile (· != '/')).dropLast ++ ['/']) ++ l.rtakeWhile (· != '/') := by simp
    _ = l.rdropWhile (· != '/') ++ l.rtakeWhile (· != '/') := by rw [front]
    _ = l := List.rdropWhile_append_rtakeWhile

theorem splitPath_child {path parent name : String}
    (split : splitPath path = some (parent, name)) : childPath parent name = normPath path := by
  unfold splitPath at split
  dsimp only at split
  split at split
  · cases split
  have slashed : '/' ∈ (normPath path).toList := by
    rw [normPath_toList]
    exact List.mem_cons_self
  have whole := cut_last_slash slashed
  obtain ⟨dirShape, nameShape⟩ := Prod.mk.inj (Option.some.inj split)
  rw [← String.toList_inj, ← whole, ← nameShape, ← dirShape, childPath]
  by_cases top : ((normPath path).toList.rdropWhile (· != '/')).dropLast = []
  · simp [top]
  · have deeper : String.ofList ((normPath path).toList.rdropWhile (· != '/')).dropLast ≠ "/" := by
      intro root
      have single := congrArg String.toList root
      rw [String.toList_ofList] at single
      -- a second slash right behind the leading one, which normalization cuts
      rw [single, normPath_toList] at whole
      have tail := (List.cons.inj whole).2
      have first := normTail_head tail.symm
      exact absurd first (by decide)
    simp [top, deeper]

theorem splitPath_name {path parent name : String}
    (split : splitPath path = some (parent, name)) : name ≠ "" ∧ '/' ∉ name.toList := by
  unfold splitPath at split
  dsimp only at split
  split at split
  · cases split
  rename_i deeper
  obtain ⟨_, nameShape⟩ := Prod.mk.inj (Option.some.inj split)
  have letters : name.toList = (normPath path).toList.rtakeWhile (· != '/') := by
    rw [← nameShape, String.toList_ofList]
  constructor
  · intro empty
    rw [empty, normPath_toList] at letters
    obtain ⟨front, last, shape, solid⟩ := normTail_last deeper
    have kept : (last != '/') = true := by simpa [isSlash] using solid
    rw [shape, ← List.cons_append, List.rtakeWhile_concat_pos (· != '/') _ last kept] at letters
    simp at letters
  · intro slashed
    rw [letters] at slashed
    exact absurd (List.mem_rtakeWhile_imp slashed) (by decide)

theorem enforcePrefix_of_same {scope path : String} (same : normTail scope = normTail path) :
    enforcePrefix scope path = .ok () := by
  rw [enforcePrefix_ok_iff, scopeSegments_prefix_iff]
  exact Or.inr (Or.inl same.symm)

theorem enforcePrefix_refl (p : String) : enforcePrefix p p = .ok () := enforcePrefix_of_same rfl

theorem enforcePrefix_trans {s p q : String} (outer : enforcePrefix s p = .ok ())
    (inner : enforcePrefix p q = .ok ()) : enforcePrefix s q = .ok () := by
  rw [enforcePrefix_ok_iff] at outer inner ⊢
  exact outer.trans inner

theorem enforcePrefix_total {s t p : String} (left : enforcePrefix s p = .ok ())
    (right : enforcePrefix t p = .ok ()) :
    enforcePrefix s t = .ok () ∨ enforcePrefix t s = .ok () := by
  rw [enforcePrefix_ok_iff] at left right
  rw [enforcePrefix_ok_iff, enforcePrefix_ok_iff]
  exact List.prefix_or_prefix_of_prefix left right

end DriveServe
