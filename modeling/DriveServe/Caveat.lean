import DriveServe.Path

set_option autoImplicit false

/-! What a drive-bound path caveat says once it is parsed, and how the scopes of
two caveats compare when one string continues the other. -/

namespace DriveServe

theorem stripInitial_eq_some_iff (s initial rest : String) :
    stripInitial s initial = some rest ↔ s.toList = initial.toList ++ rest.toList := by
  unfold stripInitial
  split
  · rename_i starts
    obtain ⟨back, whole⟩ := (startsWith_iff s initial).mp starts
    rw [← whole, List.drop_left, Option.some_inj, ← String.toList_inj, String.toList_ofList]
    constructor
    · rintro rfl
      rfl
    · exact List.append_cancel_left
  · rename_i differs
    refine ⟨fun impossible => by simp at impossible, fun whole => ?_⟩
    exact absurd ((startsWith_iff s initial).mpr ⟨_, whole.symm⟩) differs

private theorem takeWhile_ne_of_notMem {l : List Char} (absent : '/' ∉ l) :
    l.takeWhile (· != '/') = l := by
  apply List.takeWhile_eq_self_iff.mpr
  intro c member
  simp only [bne_iff_ne]
  rintro rfl
  exact absent member

private theorem dropWhile_ne_of_notMem {l : List Char} (absent : '/' ∉ l) :
    l.dropWhile (· != '/') = [] := by
  apply List.dropWhile_eq_nil_iff.mpr
  intro c member
  simp only [bne_iff_ne]
  rintro rfl
  exact absent member

private theorem notMem_takeWhile_ne (l : List Char) : '/' ∉ l.takeWhile (· != '/') := by
  intro member
  have kept := List.mem_takeWhile_imp member
  simp at kept

theorem splitOnceSlash_eq_none_iff (s : String) :
    splitOnceSlash s = none ↔ '/' ∉ s.toList := by
  unfold splitOnceSlash
  split <;> simp_all

theorem splitOnceSlash_eq_some_iff (s front back : String) :
    splitOnceSlash s = some (front, back) ↔
      '/' ∉ front.toList ∧ s.toList = front.toList ++ '/' :: back.toList := by
  unfold splitOnceSlash
  split
  · rename_i present
    rw [Option.some_inj, Prod.mk.injEq, ← String.toList_inj, ← String.toList_inj,
      String.toList_ofList, String.toList_ofList]
    constructor
    · rintro ⟨taken, dropped⟩
      refine ⟨taken ▸ notMem_takeWhile_ne _, ?_⟩
      obtain ⟨c, rest, shape⟩ : ∃ c rest, s.toList.dropWhile (· != '/') = c :: rest := by
        cases shape : s.toList.dropWhile (· != '/') with
        | nil =>
          have kept := List.dropWhile_eq_nil_iff.mp shape '/' present
          simp at kept
        | cons c rest => exact ⟨c, rest, rfl⟩
      have slash : c = '/' := by simpa using Trim.head_dropWhile shape
      calc s.toList = s.toList.takeWhile (· != '/') ++ s.toList.dropWhile (· != '/') :=
            List.takeWhile_append_dropWhile.symm
        _ = front.toList ++ '/' :: back.toList := by
          rw [taken, ← dropped, shape, slash, List.drop_one, List.tail_cons]
    · rintro ⟨clean, whole⟩
      have stop : ('/' != '/') = false := by simp
      rw [whole, List.takeWhile_append, List.dropWhile_append, dropWhile_ne_of_notMem clean,
        takeWhile_ne_of_notMem clean]
      simp
  · rename_i absent
    refine ⟨fun impossible => by simp at impossible, fun ⟨_, whole⟩ => ?_⟩
    exact absurd (by simp [whole]) absent

/-- `behind`, the text that follows the namespace, names `drive` and then either
ends or goes on with a slash and the subtree, which is read normalized. -/
def BoundTo (drive scope : String) (behind : List Char) : Prop :=
  drive ≠ "" ∧ '/' ∉ drive.toList ∧ ∃ back : List Char,
    behind = drive.toList ++ back ∧ (back = [] ∨ ∃ tail, back = '/' :: tail) ∧
    scope = normPath (String.ofList (back.drop 1))

private theorem boundTo_whole {rest : String} (clean : '/' ∉ rest.toList)
    (drive scope : String) :
    rest ≠ "" ∧ (rest, "/") = (drive, scope) ↔ BoundTo drive scope rest.toList := by
  have rootScope : normPath (String.ofList ([] : List Char)) = "/" := by decide
  constructor
  · intro ⟨nonempty, parsed⟩
    cases parsed
    exact ⟨nonempty, clean, [], by simp, Or.inl rfl, rootScope.symm⟩
  · intro ⟨nonempty, _, back, whole, shape, read⟩
    cases shape with
    | inl nothing =>
      have same : rest = drive := String.toList_inj.mp (by rw [whole, nothing, List.append_nil])
      rw [same, read, nothing, List.drop_nil, rootScope]
      exact ⟨nonempty, rfl⟩
    | inr subtree =>
      obtain ⟨tail, split⟩ := subtree
      exact absurd (by simp [whole, split]) clean

private theorem boundTo_cut {rest front tail : String}
    (cut : splitOnceSlash rest = some (front, tail)) (drive scope : String) :
    front ≠ "" ∧ (front, normPath tail) = (drive, scope) ↔
      BoundTo drive scope rest.toList := by
  have ⟨clean, shape⟩ := (splitOnceSlash_eq_some_iff rest front tail).mp cut
  constructor
  · intro ⟨nonempty, parsed⟩
    cases parsed
    refine ⟨nonempty, clean, '/' :: tail.toList, shape, Or.inr ⟨_, rfl⟩, ?_⟩
    rw [List.drop_one, List.tail_cons, String.ofList_toList]
  · intro ⟨nonempty, slashFree, back, whole, form, read⟩
    cases form with
    | inl nothing =>
      rw [nothing, List.append_nil] at whole
      exact absurd (by simp [shape]) (whole ▸ slashFree)
    | inr subtree =>
      obtain ⟨behind, split⟩ := subtree
      -- The first slash is where both cuts are, so they are one cut.
      have again := (splitOnceSlash_eq_some_iff rest drive (String.ofList behind)).mpr
        ⟨slashFree, by rw [whole, split, String.toList_ofList]⟩
      have same : (front, tail) = (drive, String.ofList behind) :=
        Option.some.inj (cut.symm.trans again)
      cases same
      rw [read, split, List.drop_one, List.tail_cons]
      exact ⟨nonempty, rfl⟩

/-- A caveat is bound to `drive` when it is the namespace and then text bound to
the drive. -/
theorem parseDrivePrefix_eq_some_iff (caveat drive scope : String) :
    parseDrivePrefix caveat = some (drive, scope) ↔
      ∃ behind, caveat.toList = driveNs.toList ++ behind ∧ BoundTo drive scope behind := by
  unfold parseDrivePrefix
  cases stripped : stripInitial caveat driveNs with
  | none =>
    constructor
    · intro impossible
      simp at impossible
    · intro ⟨behind, whole, _⟩
      have found := (stripInitial_eq_some_iff caveat driveNs (String.ofList behind)).mpr
        (by rw [whole, String.toList_ofList])
      rw [stripped] at found
      simp at found
  | some rest =>
    have start := (stripInitial_eq_some_iff caveat driveNs rest).mp stripped
    have onlyRest : (∃ behind, caveat.toList = driveNs.toList ++ behind ∧
        BoundTo drive scope behind) ↔ BoundTo drive scope rest.toList := by
      simp only [start, List.append_cancel_left_eq, exists_eq_left']
    rw [onlyRest]
    cases cut : splitOnceSlash rest with
    | none =>
      rw [← boundTo_whole ((splitOnceSlash_eq_none_iff rest).mp cut)]
      simp only [cut, Option.ite_none_right_eq_some, Option.some_inj]
    | some pair =>
      rw [← boundTo_cut cut]
      simp only [cut, Option.ite_none_right_eq_some, Option.some_inj]

/-- The caveat minted for `(drive, path)` parses to the drive and to the path's
normal form, normalized again without its leading slash. -/
theorem parseDrivePrefix_drivePrefix {drive : String} (nonempty : drive ≠ "")
    (slashFree : '/' ∉ drive.toList) (path : String) :
    parseDrivePrefix (drivePrefix drive path) =
      some (drive, normPath (String.ofList (normTail path))) := by
  rw [parseDrivePrefix_eq_some_iff]
  unfold drivePrefix
  dsimp only
  split
  · rename_i root
    refine ⟨drive.toList, by simp, nonempty, slashFree, [], by simp, Or.inl rfl, ?_⟩
    rw [(normPath_root_iff path).mp root, List.drop_nil]
  · refine ⟨drive.toList ++ (normPath path).toList, by simp, nonempty, slashFree, _, rfl,
      Or.inr ⟨_, normPath_toList path⟩, ?_⟩
    rw [normPath_toList]
    rfl

/-- When one caveat string continues another bound to the same drive, its
subtree text continues the other's. -/
theorem normTail_scope_mono {short long drive s t : String}
    (left : parseDrivePrefix short = some (drive, s))
    (right : parseDrivePrefix long = some (drive, t))
    (continues : short.toList <+: long.toList) :
    normTail s = [] ∨ normTail s <+: normTail t := by
  have ⟨_, shortCaveat, _, _, back, shortShape, _, outer⟩ :=
    (parseDrivePrefix_eq_some_iff _ _ _).mp left
  have ⟨_, longCaveat, _, _, further, longShape, _, inner⟩ :=
    (parseDrivePrefix_eq_some_iff _ _ _).mp right
  rw [shortCaveat, longCaveat, List.prefix_append_right_inj, shortShape, longShape,
    List.prefix_append_right_inj] at continues
  have tails : back.drop 1 <+: further.drop 1 := by
    obtain ⟨extra, rfl⟩ := continues
    cases back with
    | nil => exact List.nil_prefix
    | cons c tail => exact ⟨extra, rfl⟩
  rw [outer, inner, normTail_normPath, normTail_normPath]
  unfold normTail
  rw [String.toList_ofList, String.toList_ofList]
  rcases Trim.twice_mono (p := isWhite) (q := isSlash) tails with empty | kept
  · exact Or.inl (by rw [empty]; rfl)
  · exact Or.inr (Trim.right_mono kept)

/-- Of two comparable scopes the one whose text is shorter is the outer one. -/
theorem enforcePrefix_of_mono {s t : String}
    (mono : normTail s = [] ∨ normTail s <+: normTail t)
    (related : enforcePrefix s t = .ok () ∨ enforcePrefix t s = .ok ()) :
    enforcePrefix s t = .ok () := by
  rcases related with outer | inner
  · exact outer
  · rw [enforcePrefix_ok_iff, scopeSegments_prefix_iff] at inner ⊢
    rcases mono with root | initial
    · exact Or.inl root
    · rcases inner with root | same | deeper
      · rw [root, List.prefix_nil] at initial
        exact Or.inl initial
      · exact Or.inr (Or.inl same.symm)
      · have longer := (deeper.trans initial).length_le
        simp only [List.length_append, List.length_singleton] at longer
        omega

example : parseDrivePrefix (drivePrefix "acme-drive" "/a/b/") = some ("acme-drive", "/a/b") := by
  decide

example : parseDrivePrefix "ce-drive//docs" = none := by decide

end DriveServe
