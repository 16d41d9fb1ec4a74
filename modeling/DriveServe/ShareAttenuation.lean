import DriveServe.Share

set_option autoImplicit false

/-! When a shared capability allows no more than the chain it was shared from. -/

namespace DriveServe

/-- At `time` the minted capability, presented by its audience, is accepted only
where the caller's chain is, and it exceeds the caller's leaf in nothing. -/
structure AttenuatesAt (server : DriveServer) (request : ShareRequest)
    (leaf minted : SignedCapability) (time : Nat) : Prop where
  accepted : ∀ drive op granted,
    server.authorizeReq drive op minted.cap.audience [minted] time [] = .ok granted →
    ∃ granted', server.authorizeReq drive op request.fromNode request.chain time [] = .ok granted'
  abilities : ∀ ability ∈ minted.cap.abilities, ability ∈ leaf.cap.abilities
  expiry : leaf.cap.caveats.notAfter ≠ 0 → minted.cap.caveats.notAfter ≠ 0 ∧
    minted.cap.caveats.notAfter ≤ leaf.cap.caveats.notAfter
  scope : ∃ drive inner outer, boundScope minted = some (drive, inner) ∧
    boundScope leaf = some (drive, outer) ∧
    ∀ path, enforcePrefix inner path = .ok () → enforcePrefix outer path = .ok ()

/-- The text of the shared path's normal form behind its slash, normalized on its own. -/
def renormalized (path : String) : String :=
  normPath (String.ofList ((normPath path).toList.drop 1))

structure ShareInside (verifier : Verifier) (request : ShareRequest) (leaf : SignedCapability)
    (scope : String) (time : Nat) : Prop where
  defaulted : request.abilities = [] → Ability.read ∈ leaf.cap.abilities
  reparsed : enforcePrefix scope (renormalized request.path) = .ok ()
  started : leaf.cap.caveats.notBefore ≤ time ∨
    verifier.expired request.caveats.notAfter time = true ∨
    verifier.expired leaf.cap.caveats.notAfter time = true ∨
    (request.abilities ≠ [] ∧ ∀ ability ∈ opAbilities, ability ∈ request.abilities →
      ability ∉ leaf.cap.abilities)

theorem shareExpiry_narrows (requested parent : Nat) (bounded : parent ≠ 0) :
    shareExpiry requested parent ≠ 0 ∧ shareExpiry requested parent ≤ parent := by
  unfold shareExpiry
  split
  · exact ⟨bounded, Nat.le_refl _⟩
  · exact absurd rfl bounded
  · rename_i requestedBounded _
    have positive : requested ≠ 0 := requestedBounded
    omega

theorem expired_shareExpiry {iam : Iam} {verifier : Verifier}
    (documented : iam.Documented verifier) (requested parent time : Nat) :
    verifier.expired (shareExpiry requested parent) time = true ↔
      verifier.expired requested time = true ∨ verifier.expired parent time = true := by
  have never := documented.never_expires time
  unfold shareExpiry
  split
  · simp [never]
  · simp [never]
  · rename_i requestedBounded parentBounded
    rcases Nat.le_total requested parent with first | second
    · rw [Nat.min_eq_left first]
      refine ⟨Or.inl, fun either => either.elim id fun passed => ?_⟩
      exact documented.expired_mono requestedBounded first passed
    · rw [Nat.min_eq_right second]
      refine ⟨Or.inr, fun either => either.elim (fun passed => ?_) id⟩
      exact documented.expired_mono parentBounded second passed

theorem mem_shareAbilities (abilities held : List String) (ability : String) :
    ability ∈ shareAbilities abilities held ↔
      (abilities = [] ∧ ability = Ability.read) ∨ (ability ∈ abilities ∧ ability ∈ held) := by
  unfold shareAbilities
  split
  · rename_i empty
    simp [empty]
  · rename_i nonempty
    simp [nonempty]

variable {server : DriveServer} {verifier : Verifier} {request : ShareRequest}
variable {leaf minted : SignedCapability} {scope : String}

theorem renormalized_eq_mintedScope (request : ShareRequest) :
    renormalized request.path = request.mintedScope := by
  rw [renormalized, ShareRequest.mintedScope, normPath_toList, List.drop_one, List.tail_cons]

theorem ShareFacts.minted_abilities
    (facts : ShareFacts server verifier request leaf minted scope)
    (defaulted : request.abilities = [] → Ability.read ∈ leaf.cap.abilities) {ability : String}
    (carried : ability ∈ minted.cap.abilities) : ability ∈ leaf.cap.abilities := by
  rw [facts.abilities, mem_shareAbilities] at carried
  rcases carried with ⟨empty, rfl⟩ | ⟨_, held⟩
  · exact defaulted empty
  · exact held

/-- While the minted capability is valid and the leaf has started, so is every
link of the caller's chain. -/
theorem ShareFacts.chain_timely (documented : server.iam.Documented verifier)
    (facts : ShareFacts server verifier request leaf minted scope) {time : Nat}
    (started : leaf.cap.caveats.notBefore ≤ time)
    (current : verifier.expired leaf.cap.caveats.notAfter time = false) :
    ∀ link ∈ request.chain, link.cap.caveats.Valid verifier time := by
  intro link member
  rcases facts.accepts.narrower_leaf member facts.last with rfl | narrow
  · exact ⟨started, current⟩
  · refine ⟨Nat.le_trans narrow.notBefore started, ?_⟩
    by_cases endless : link.cap.caveats.notAfter = 0
    · rw [endless]
      exact documented.never_expires time
    · obtain ⟨bounded, le⟩ := narrow.notAfter endless
      by_contra passed
      rw [Bool.not_eq_false] at passed
      rw [documented.expired_mono bounded le passed] at current
      cases current

/-- An op the gate accepts on the minted capability it accepts on the caller's
chain, from the time the caller's leaf starts. -/
theorem ShareFacts.caller_accepted (documented : server.iam.Documented verifier)
    (facts : ShareFacts server verifier request leaf minted scope) {time : Nat}
    (inside : ShareInside verifier request leaf scope time) {drive : String} {op : DriveOp}
    {granted : List String}
    (accepted : server.authorizeReq drive op minted.cap.audience [minted] time [] = .ok granted) :
    server.authorizeReq drive op request.fromNode request.chain time [] =
      .ok leaf.cap.abilities := by
  obtain ⟨_, carried, timely, _, rfl, admitted, _⟩ :=
    (facts.accepted_iff documented ..).mp accepted
  have unexpired := timely.current
  rw [facts.caveats] at unexpired
  have neither : ¬ (verifier.expired request.caveats.notAfter time = true ∨
      verifier.expired leaf.cap.caveats.notAfter time = true) := by
    rw [← expired_shareExpiry documented]
    exact Bool.not_eq_true _ ▸ unexpired
  have held := facts.minted_abilities inside.defaulted carried
  have started : leaf.cap.caveats.notBefore ≤ time := by
    rcases inside.started with started | requested | parent | ⟨nonempty, unusable⟩
    · exact started
    · exact absurd (Or.inl requested) neither
    · exact absurd (Or.inr parent) neither
    · rw [facts.abilities, mem_shareAbilities] at carried
      rcases carried with ⟨empty, _⟩ | ⟨named, _⟩
      · exact absurd empty nonempty
      · exact absurd held (unusable _ (requiredAbility_mem op) named)
  have current : verifier.expired leaf.cap.caveats.notAfter time = false := by
    rw [← Bool.not_eq_true]
    exact fun passed => neither (Or.inr passed)
  refine (authorizeReq_ok_iff ..).mpr ⟨(documented.accepts_iff ..).mpr ?_, leaf, scope, facts.last,
    ⟨facts.binding, fun path member => ?_⟩, rfl⟩
  · exact facts.accepts.again facts.last held (facts.chain_timely documented started current)
      fun _ _ => rfl
  · have lower := admitted path member
    have reparsed := inside.reparsed
    rw [renormalized_eq_mintedScope] at reparsed
    exact ⟨lower.straight, enforcePrefix_trans reparsed lower.inScope⟩

theorem ShareFacts.attenuatesAt (documented : server.iam.Documented verifier)
    (facts : ShareFacts server verifier request leaf minted scope) {time : Nat}
    (inside : ShareInside verifier request leaf scope time) :
    AttenuatesAt server request leaf minted time where
  accepted _ _ _ accepted := ⟨_, facts.caller_accepted documented inside accepted⟩
  abilities _ carried := facts.minted_abilities inside.defaulted carried
  expiry bounded := by
    rw [facts.caveats]
    exact shareExpiry_narrows _ _ bounded
  scope := by
    have reparsed := inside.reparsed
    rw [renormalized_eq_mintedScope] at reparsed
    exact ⟨_, _, _, facts.mintedBinding, facts.binding,
      fun path admits => enforcePrefix_trans reparsed admits⟩

theorem ShareFacts.shareInside (documented : server.iam.Documented verifier)
    (facts : ShareFacts server verifier request leaf minted scope) {time : Nat}
    (attenuates : AttenuatesAt server request leaf minted time) :
    ShareInside verifier request leaf scope time where
  defaulted empty := by
    refine attenuates.abilities _ ?_
    rw [facts.abilities, mem_shareAbilities]
    exact Or.inl ⟨empty, rfl⟩
  reparsed := by
    obtain ⟨drive, inner, outer, mintedBinding, leafBinding, inside⟩ := attenuates.scope
    obtain ⟨_, rfl⟩ := Prod.mk.inj (Option.some.inj (facts.mintedBinding.symm.trans mintedBinding))
    obtain ⟨_, rfl⟩ := Prod.mk.inj (Option.some.inj (facts.binding.symm.trans leafBinding))
    rw [renormalized_eq_mintedScope]
    exact inside _ (enforcePrefix_refl _)
  started := by
    by_contra late
    simp only [not_or, not_and, not_forall] at late
    obtain ⟨unstarted, requested, parent, usable⟩ := late
    obtain ⟨ability, named, carried⟩ : ∃ ability ∈ opAbilities,
        ability ∈ minted.cap.abilities := by
      simp only [facts.abilities, mem_shareAbilities]
      by_cases empty : request.abilities = []
      · exact ⟨Ability.read, by simp [opAbilities], Or.inl ⟨empty, rfl⟩⟩
      · obtain ⟨ability, named, requested, held⟩ := usable empty
        exact ⟨ability, named, Or.inr ⟨requested, not_not.mp held⟩⟩
    have timely : minted.cap.caveats.Valid verifier time := by
      rw [facts.caveats]
      refine ⟨Nat.zero_le time, ?_⟩
      rw [← Bool.not_eq_true]
      exact fun passed =>
        ((expired_shareExpiry documented ..).mp passed).elim requested parent
    obtain ⟨op, required, admitted⟩ := facts.exists_op named
    have accepted := (facts.accepted_iff documented request.drive op minted.cap.audience time []
      _).mpr ⟨rfl, required ▸ carried, timely, by simp, rfl, admitted, rfl⟩
    obtain ⟨granted, chainAccepted⟩ := attenuates.accepted _ _ _ accepted
    obtain ⟨verified, _⟩ := (authorizeReq_ok_iff ..).mp chainAccepted
    have timely := ((documented.accepts_iff ..).mp verified).timely leaf
      (List.mem_of_getLast? facts.last)
    exact unstarted timely.started

/-- A Share hands on no more than the caller holds exactly when the ability list is
not defaulted past the caller, the shared path survives its second normalization
inside the caller's scope, and the mint is not usable before the caller's own
capability starts. -/
theorem share_attenuates_iff (documented : server.iam.Documented verifier)
    (persisted : server.KeyPersisted) (shares : Shares server request minted)
    (last : request.chain.getLast? = some leaf)
    (binding : boundScope leaf = some (request.drive, scope)) (time : Nat) :
    AttenuatesAt server request leaf minted time ↔
      ShareInside verifier request leaf scope time := by
  obtain ⟨found, other, facts⟩ := shares.facts documented persisted
  obtain rfl : leaf = found := Option.some.inj (last.symm.trans facts.last)
  obtain ⟨_, rfl⟩ := Prod.mk.inj (Option.some.inj (binding.symm.trans facts.binding))
  exact ⟨facts.shareInside documented, facts.attenuatesAt documented⟩

theorem docsRequest_attenuates :
    AttenuatesAt docsServer (docsRequest [Ability.admin, Ability.read] [Ability.read])
        (docsLeaf [Ability.admin, Ability.read]) (docsMint [Ability.read]) 10 ↔
      ShareInside Reference.verifier (docsRequest [Ability.admin, Ability.read] [Ability.read])
        (docsLeaf [Ability.admin, Ability.read]) "/docs" 10 :=
  share_attenuates_iff (Reference.iam_documented []) docsServer_persisted
    ⟨by decide, ⟨[Ability.admin, Ability.read], by decide⟩, by decide⟩ (by decide) (by decide) 10

/-- A caller who may only administer shares with an empty ability list, and the
mint reads what the caller may not. -/
theorem docsRequest_defaulted_exceeds :
    docsServer.iam.Documented Reference.verifier ∧ docsServer.KeyPersisted ∧
      Shares docsServer (docsRequest [Ability.admin] []) (docsMint [Ability.read]) ∧
      (docsRequest [Ability.admin] []).chain.getLast? = some (docsLeaf [Ability.admin]) ∧
      ∀ time, ¬ AttenuatesAt docsServer (docsRequest [Ability.admin] []) (docsLeaf [Ability.admin])
        (docsMint [Ability.read]) time := by
  refine ⟨Reference.iam_documented [], docsServer_persisted, docsRequest_shares, by decide, ?_⟩
  intro time attenuates
  exact absurd (attenuates.abilities Ability.read (by decide)) (by decide)

end DriveServe
