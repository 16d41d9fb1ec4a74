import DriveServe.ReferenceDrive

set_option autoImplicit false

/-! A capability presented on a drive it was not minted for. The caveat string puts
the drive id and the subtree behind one another with a slash between them, so an id
that holds a slash reads as a shorter id and a subtree. -/

namespace DriveServe

variable {δ : Type}

/-- The registries a host arrives at by creating and restoring drives. -/
inductive Registry.Built : Registry δ → Prop where
  | new : Built Registry.new
  | created {registry after : Registry δ} (built : Built registry) {driveId : String}
      {identityHandle : Except String Unit} {opened : Except String δ} {quota : Quota}
      (accepted : registry.create driveId identityHandle opened quota = .ok after) : Built after
  | restored {σ : Type} {registry after : Registry δ} (built : Built registry)
      {driveId : String} {identityHandle : Except String Unit} {opened : Except String δ}
      {restoreState : δ → σ → Except String δ} {state : σ} {quota : Quota}
      (accepted : registry.restore driveId identityHandle opened restoreState state quota =
        .ok after) : Built after

structure ServedTogether (registry : Registry δ) (a b : String) : Prop where
  built : registry.Built
  here : a ∈ registry.driveIds
  there : b ∈ registry.driveIds
  apart : a ≠ b

/-- The registry checks ids for duplicates only, so any two ids can be served together. -/
theorem servedTogether_of_ne (drive : δ) (quota : Quota) {a b : String} (apart : a ≠ b) :
    ∃ registry : Registry δ, ServedTogether registry a b := by
  let single : Registry δ :=
    { drives := [(b, Tenant.new drive quota)], distinct := List.nodup_singleton b }
  let both : Registry δ :=
    { drives := [(a, Tenant.new drive quota), (b, Tenant.new drive quota)]
      distinct := by simpa using apart }
  have first : Registry.new.create b (.ok ()) (.ok drive) quota = .ok single :=
    (Registry.register_ok_iff ..).mpr ⟨List.not_mem_nil, drive, rfl, rfl⟩
  have second : single.create a (.ok ()) (.ok drive) quota = .ok both :=
    (Registry.register_ok_iff ..).mpr ⟨by simpa [Registry.driveIds, single] using apart, drive,
      rfl, rfl⟩
  refine ⟨both, .created (.created .new first) second, ?_, ?_, apart⟩
  · simp [Registry.driveIds, both]
  · simp [Registry.driveIds, both]

/-- `a` reads as drive `b` and a subtree of it. -/
def ReadsAs (a b : String) : Prop := b ≠ "" ∧ ∃ rest, splitOnceSlash a = some (b, rest)

instance (a b : String) : Decidable (ReadsAs a b) :=
  decidable_of_iff (b ≠ "" ∧ (splitOnceSlash a).map (·.1) = some b) (by
    unfold ReadsAs
    cases splitOnceSlash a <;> simp [Prod.ext_iff])

theorem driveCaveatPrefix_toList (drive path : String) :
    ∃ tail : List Char, (driveCaveatPrefix drive path).toList =
        driveNs.toList ++ (drive.toList ++ tail) ∧ (tail = [] ∨ ∃ rest, tail = '/' :: rest) := by
  unfold driveCaveatPrefix drivePrefix
  dsimp only
  split
  · exact ⟨[], by simp, Or.inl rfl⟩
  · exact ⟨(normPath path).toList, by simp, Or.inr ⟨_, normPath_toList path⟩⟩

theorem takeWhile_front {front back : List Char} (slashFree : '/' ∉ front)
    (start : back = [] ∨ ∃ rest, back = '/' :: rest) :
    (front ++ back).takeWhile (· != '/') = front := by
  have kept : ∀ c ∈ front, (c != '/') = true := by
    intro c member
    have differs : c ≠ '/' := fun same => slashFree (same ▸ member)
    simpa using differs
  rw [List.takeWhile_append_of_pos kept]
  rcases start with rfl | ⟨rest, rfl⟩ <;> simp

theorem readsAs_of_bound {a b path scope : String} (apart : a ≠ b)
    (bound : parseDrivePrefix (driveCaveatPrefix a path) = some (b, scope)) : ReadsAs a b := by
  have ⟨behind, whole, nonempty, slashFree, back, shape, ending, _⟩ :=
    (parseDrivePrefix_eq_some_iff _ _ _).mp bound
  have ⟨tail, minted, start⟩ := driveCaveatPrefix_toList a path
  have same : a.toList ++ tail = b.toList ++ back := by
    rw [← shape]
    exact List.append_cancel_left (minted.symm.trans whole)
  have first : (a.toList ++ tail).takeWhile (· != '/') = b.toList := by
    rw [same]
    exact takeWhile_front slashFree ending
  cases cut : splitOnceSlash a with
  | none =>
    have clean := (splitOnceSlash_eq_none_iff a).mp cut
    rw [takeWhile_front clean start] at first
    exact absurd (String.toList_inj.mp first) apart
  | some pair =>
    have ⟨clean, split⟩ := (splitOnceSlash_eq_some_iff a pair.1 pair.2).mp cut
    rw [split, List.append_assoc, List.cons_append,
      takeWhile_front clean (Or.inr ⟨_, rfl⟩)] at first
    have named : pair.1 = b := String.toList_inj.mp first
    exact ⟨nonempty, pair.2, by rw [cut, ← named]⟩

theorem bound_of_readsAs {a b : String} (reads : ReadsAs a b) (path : String) :
    ∃ scope, parseDrivePrefix (driveCaveatPrefix a path) = some (b, scope) := by
  have ⟨nonempty, rest, cut⟩ := reads
  have ⟨slashFree, split⟩ := (splitOnceSlash_eq_some_iff a b rest).mp cut
  have ⟨tail, minted, _⟩ := driveCaveatPrefix_toList a path
  refine ⟨_, (parseDrivePrefix_eq_some_iff _ _ _).mpr
    ⟨a.toList ++ tail, minted, nonempty, slashFree, '/' :: (rest.toList ++ tail), ?_,
      Or.inr ⟨_, rfl⟩, rfl⟩⟩
  rw [split, List.append_assoc, List.cons_append]

/-- A grant of one ability that a host issues itself, and nothing else said. -/
def bareGrant (iam : Iam) (host : Identity) (audience : NodeId) (ability caveat : String) :
    SignedCapability :=
  iam.issue host audience [ability] .any { Caveats.default with pathPrefix := some caveat } 0 none

theorem bareGrant_cap {iam : Iam} {verifier : Verifier} (documented : iam.Documented verifier)
    (host : Identity) (audience : NodeId) (ability caveat : String) :
    (bareGrant iam host audience ability caveat).cap =
      { issuer := iam.nodeId host, audience, abilities := [ability], resource := .any,
        caveats := { notBefore := 0, notAfter := 0, pathPrefix := some caveat }, nonce := 0,
        parent := none } := documented.issue_cap ..

theorem bareGrant_accepts {iam : Iam} {verifier : Verifier}
    (documented : iam.Documented verifier) (host : Identity) (audience : NodeId)
    (acceptedRoots : List NodeId) (ability caveat : String) (now : Nat) :
    Accepts verifier (iam.nodeId host) acceptedRoots [] now audience ability
      [bareGrant iam host audience ability caveat] (isRevoked []) := by
  have cap := bareGrant_cap documented host audience ability caveat
  have genuine := documented.issue_genuine host [] audience [ability]
    { Caveats.default with pathPrefix := some caveat } 0
  refine ⟨genuine, ?_, List.isChain_singleton _, ⟨_, List.getLast?_singleton, ?_⟩, ?_, ?_⟩
  · intro first found
    have same : bareGrant iam host audience ability caveat = first := by simpa using found
    rw [← same, cap]
    exact Or.inl rfl
  · rw [cap]
    exact ⟨rfl, List.mem_singleton_self ability⟩
  · intro link member
    rw [List.mem_singleton.mp member, cap]
    exact ⟨Nat.zero_le now, documented.never_expires now⟩
  · intro link _
    simp [isRevoked]

/-- Two drives of one host are apart for every grant exactly when the id of the one
does not read as the other and a subtree. -/
theorem crossDrive_refused_iff {iam : Iam} {verifier : Verifier}
    (documented : iam.Documented verifier) {registry : Registry δ} {a b : String}
    (served : ServedTogether registry a b) (host : Identity) (acceptedRoots : List NodeId) :
    (∀ path op fromNode link now revoked,
        link.cap.caveats.pathPrefix = some (driveCaveatPrefix a path) →
          ∃ e, authorizeReq iam (iam.nodeId host) acceptedRoots b op fromNode [link] now revoked =
            .error e) ↔ ¬ ReadsAs a b := by
  constructor
  · intro refused reads
    obtain ⟨scope, bound⟩ := bound_of_readsAs reads "/"
    let link := bareGrant iam host (iam.nodeId host) Ability.read (driveCaveatPrefix a "/")
    have caveat : link.cap.caveats.pathPrefix = some (driveCaveatPrefix a "/") := by
      simp only [link, bareGrant_cap documented]
    have verified := (documented.accepts_iff ..).mpr
      (bareGrant_accepts documented host (iam.nodeId host) acceptedRoots Ability.read
        (driveCaveatPrefix a "/") 0)
    have binding : boundScope link = some (b, scope) := by
      rw [boundScope, caveat, Option.bind_some, bound]
    have accepted := (authorizeReq_ok_iff iam (iam.nodeId host) acceptedRoots b .openDrive
      (iam.nodeId host) [link] 0 [] link.cap.abilities).mpr
      ⟨verified, link, scope, rfl, ⟨binding, by simp [opPaths, opSource, opPath]⟩, rfl⟩
    obtain ⟨e, answer⟩ := refused "/" .openDrive (iam.nodeId host) link 0 [] caveat
    rw [accepted] at answer
    cases answer
  · intro foreign path op fromNode link now revoked caveat
    cases answer : authorizeReq iam (iam.nodeId host) acceptedRoots b op fromNode [link] now
        revoked with
    | error e => exact ⟨e, rfl⟩
    | ok granted =>
      obtain ⟨_, leaf, scope, last, bound, _⟩ := (authorizeReq_ok_iff ..).mp answer
      have single : link = leaf := by simpa using last
      have parsed := bound.binding
      rw [boundScope, ← single, caveat, Option.bind_some] at parsed
      exact absurd (readsAs_of_bound served.apart parsed) foreign

theorem slashFreeIds_refused : ∃ registry : Registry Unit,
    ServedTogether registry "alpha" "beta" ∧
      ((∀ path op fromNode link now revoked,
        link.cap.caveats.pathPrefix = some (driveCaveatPrefix "alpha" path) →
          ∃ e, authorizeReq (Reference.iam []) (Reference.node 1) [] "beta" op fromNode [link]
            now revoked = .error e) ↔ ¬ ReadsAs "alpha" "beta") :=
  have ⟨registry, served⟩ := servedTogether_of_ne () Reference.quota (by decide : "alpha" ≠ "beta")
  ⟨registry, served,
    crossDrive_refused_iff (Reference.iam_documented []) served (Reference.identity 1) []⟩

def slashedGrant : SignedCapability :=
  Reference.issue (Reference.identity 1) (Reference.node 2) [Ability.write] .any
    { Caveats.default with pathPrefix := some (driveCaveatPrefix "team/x" "/") } 1 none

/-- The holder of a write grant on drive `team/x` deletes a directory of drive `team`. -/
theorem slashedGrant_accepted :
    (Reference.iam []).Documented Reference.verifier ∧
      (∃ registry : Registry Unit, ServedTogether registry "team/x" "team") ∧
      slashedGrant.cap.caveats.pathPrefix = some (driveCaveatPrefix "team/x" "/") ∧
      authorizeReq (Reference.iam []) (Reference.node 1) [] "team" (.delete "/x/plans" true)
        (Reference.node 2) [slashedGrant] 0 [] = .ok [Ability.write] :=
  ⟨Reference.iam_documented [], servedTogether_of_ne () Reference.quota (by decide), rfl, by decide⟩

end DriveServe
