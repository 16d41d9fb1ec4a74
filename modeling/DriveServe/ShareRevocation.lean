import DriveServe.Share

set_option autoImplicit false

/-! Revoking an ancestor of a shared capability. Every Share mints a root, so what
is presented carries none of the links it was shared from. -/

namespace DriveServe

/-- Minted by the request, on the chain or on a capability that was itself shared from it. -/
inductive SharedFrom (server : DriveServer) (chain : List SignedCapability) :
    ShareRequest → SignedCapability → Prop
  | direct {request : ShareRequest} {minted : SignedCapability}
      (presented : request.chain = chain) (shares : Shares server request minted) :
      SharedFrom server chain request minted
  | onward {earlier request : ShareRequest} {middle minted : SignedCapability}
      (before : SharedFrom server chain earlier middle) (presented : request.chain = [middle])
      (shares : Shares server request minted) : SharedFrom server chain request minted

theorem SharedFrom.shares {server : DriveServer} {chain : List SignedCapability}
    {request : ShareRequest} {minted : SignedCapability}
    (shared : SharedFrom server chain request minted) : Shares server request minted := by
  cases shared with
  | direct _ shares => exact shares
  | onward _ _ shares => exact shares

/-- No op of any sender is accepted on the capability at any time. -/
def Refused (server : DriveServer) (minted : SignedCapability) (revoked : RevokedSet) : Prop :=
  ∀ drive op sender time granted,
    server.authorizeReq drive op sender [minted] time revoked ≠ .ok granted

theorem ShareFacts.valid_at_zero {server : DriveServer} {verifier : Verifier}
    {request : ShareRequest} {leaf minted : SignedCapability} {scope : String}
    (documented : server.iam.Documented verifier)
    (facts : ShareFacts server verifier request leaf minted scope) :
    minted.cap.caveats.Valid verifier 0 := by
  refine ⟨?_, ?_⟩
  · rw [facts.caveats]
    exact Nat.le_refl 0
  · rcases Nat.eq_zero_or_pos minted.cap.caveats.notAfter with endless | bounded
    · rw [endless]
      exact documented.never_expires 0
    · exact documented.not_expired _ 0 bounded

/-- However it was shared on, a capability is dead exactly when its own issuer and
nonce are revoked, or when it never allowed anything. -/
theorem shared_refused_iff {server : DriveServer} {verifier : Verifier}
    (documented : server.iam.Documented verifier) (persisted : server.KeyPersisted)
    {chain : List SignedCapability} {request : ShareRequest} {minted : SignedCapability}
    (shared : SharedFrom server chain request minted) (revoked : RevokedSet) :
    Refused server minted revoked ↔
      (server.hostId, request.nonce server) ∈ revoked ∨
        ∀ ability ∈ opAbilities, ability ∉ request.mintedAbilities := by
  obtain ⟨leaf, scope, facts⟩ := shared.shares.facts documented persisted
  rw [ShareRequest.nonce, ← facts.nonce, ← facts.abilities_eq]
  constructor
  · intro refused
    by_contra alive
    simp only [not_or, not_forall, not_not] at alive
    obtain ⟨live, ability, named, carried⟩ := alive
    obtain ⟨op, required, admitted⟩ := facts.exists_op named
    exact refused request.drive op minted.cap.audience 0 minted.cap.abilities
      ((facts.accepted_iff documented ..).mpr ⟨rfl, required ▸ carried,
        facts.valid_at_zero documented, live, rfl, admitted, rfl⟩)
  · intro dead drive op sender time granted accepted
    obtain ⟨_, carried, _, live, _⟩ := (facts.accepted_iff documented ..).mp accepted
    rcases dead with own | unusable
    · exact live own
    · exact unusable _ (requiredAbility_mem op) carried

/-- The mint's own nonce is revoked beside the one of the grant it was shared from. -/
theorem docsMint_refused :
    Refused docsServer (docsMint [Ability.read])
      [(Reference.node 1, 1), (Reference.node 1, 10278131262286257861)] :=
  (shared_refused_iff (Reference.iam_documented []) docsServer_persisted
    (.direct rfl docsRequest_shares) _).mpr (Or.inl (by decide +kernel))

/-- The grant it was shared from is revoked and the shared capability still reads. -/
theorem docsMint_survives_revocation :
    docsServer.iam.Documented Reference.verifier ∧ docsServer.KeyPersisted ∧
      SharedFrom docsServer [docsLeaf [Ability.admin]] (docsRequest [Ability.admin] [])
        (docsMint [Ability.read]) ∧
      (∀ link ∈ [docsLeaf [Ability.admin]],
        (link.cap.issuer, link.cap.nonce) ∈ [(Reference.node 1, 1)]) ∧
      docsServer.authorizeReq "team" (.read "/docs/a/x" 0 none) (Reference.node 3)
        [docsMint [Ability.read]] 10 [(Reference.node 1, 1)] = .ok [Ability.read] :=
  ⟨Reference.iam_documented [], docsServer_persisted, .direct rfl docsRequest_shares, by decide,
    by decide⟩

end DriveServe
