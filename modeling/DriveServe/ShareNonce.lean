import DriveServe.ShareRevocation

set_option autoImplicit false

/-! Revoking one of two shared capabilities. What a revocation names is the issuer,
always the host, and the nonce, which is hashed from the caller and the path. -/

namespace DriveServe

/-- Revoking one capability refuses whatever it was good for as revoked, and takes
nothing from another one. -/
structure RevokedApart (server : DriveServer) (one other : SignedCapability) : Prop where
  refused : ∀ before drive op sender time granted,
    server.authorizeReq drive op sender [one] time before = .ok granted →
      server.authorizeReq drive op sender [one] time ((one.cap.issuer, one.cap.nonce) :: before) =
        .error .revoked
  kept : ∀ before drive op sender time granted,
    server.authorizeReq drive op sender [other] time before = .ok granted →
      server.authorizeReq drive op sender [other] time
        ((one.cap.issuer, one.cap.nonce) :: before) = .ok granted

/-- A chain that would be accepted but for a revocation is refused in words that say so. -/
def Iam.SaysRevoked (iam : Iam) : Prop :=
  ∀ selfId roots selfTags now requester ability chain live revoked e,
    iam.authorize selfId roots selfTags now requester ability chain live = .ok () →
      iam.authorize selfId roots selfTags now requester ability chain revoked = .error e →
        contains (toLowercase e) "revoked" = true

/-- The text whose digest the nonce is cut from. -/
def ShareRequest.nonceText (request : ShareRequest) : Bytes :=
  asBytes request.fromHex ++ asBytes "|" ++ asBytes request.path

theorem asBytes_append (s t : String) : asBytes (s ++ t) = asBytes s ++ asBytes t := by
  simp [asBytes, String.toByteArray_append]

theorem asBytes_inj {s t : String} : asBytes s = asBytes t ↔ s = t := by
  constructor
  · intro same
    simp only [asBytes, String.toUTF8_eq_toByteArray, Array.toList_inj] at same
    exact String.toByteArray_inj.mp (ByteArray.ext same)
  · intro same
    rw [same]

/-- A caller's id that parses is made of hexadecimal digits and white space. -/
theorem bar_notMem_of_hexDecode {l : List Char} {bytes : Bytes}
    (decoded : hexDecode l = some bytes) : '|' ∉ l := by
  induction l using hexDecode.induct generalizing bytes with
  | case1 => exact List.not_mem_nil
  | case2 c => cases decoded
  | case3 high low rest ih =>
    simp only [hexDecode, Option.bind_eq_bind, Option.bind_eq_some_iff] at decoded
    obtain ⟨h, first, l, second, more, behind, _⟩ := decoded
    have noDigit : hexValue '|' = none := by decide
    intro member
    rcases List.mem_cons.mp member with rfl | member
    · rw [noDigit] at first
      cases first
    rcases List.mem_cons.mp member with rfl | member
    · rw [noDigit] at second
      cases second
    · exact ih behind member

theorem bar_notMem_of_parseNodeId {text : String} {id : NodeId}
    (parsed : parseNodeId text = some id) : '|' ∉ text.toList := by
  unfold parseNodeId at parsed
  cases decoded : hexDecode (trim text).toList with
  | none =>
    rw [decoded] at parsed
    cases parsed
  | some bytes =>
    have digits := bar_notMem_of_hexDecode decoded
    rw [trim, String.toList_ofList] at digits
    obtain ⟨front, back, whole, whiteFront, whiteBack⟩ := Trim.exists_ends isWhite text.toList
    intro member
    rw [whole, List.mem_append, List.mem_append] at member
    rcases member with before | inside | after
    · exact absurd (whiteFront '|' before) (by decide)
    · exact digits inside
    · exact absurd (whiteBack '|' after) (by decide)

theorem nonceText_inj {one other : ShareRequest} {caller requester : NodeId}
    (sent : parseNodeId one.fromHex = some caller)
    (asked : parseNodeId other.fromHex = some requester) :
    one.nonceText = other.nonceText ↔ one.fromHex = other.fromHex ∧ one.path = other.path := by
  have text (request : ShareRequest) :
      request.nonceText = asBytes (request.fromHex ++ "|" ++ request.path) := by
    rw [ShareRequest.nonceText, asBytes_append, asBytes_append]
  rw [text, text, asBytes_inj]
  constructor
  · intro same
    have letters := congrArg String.toList same
    simp only [String.toList_append, List.append_assoc] at letters
    have ⟨hex, path⟩ := Segments.cut_first_unique (bar_notMem_of_parseNodeId sent)
      (bar_notMem_of_parseNodeId asked) letters
    exact ⟨String.toList_inj.mp hex, String.toList_inj.mp path⟩
  · intro ⟨hex, path⟩
    rw [hex, path]

/-- What was accepted on a capability is refused as revoked once its own pair is among the
revoked ones. -/
theorem refused_of_revoked {server : DriveServer} {verifier : Verifier}
    (documented : server.iam.Documented verifier) (said : server.iam.SaysRevoked)
    {minted : SignedCapability} {before revoked : RevokedSet} {drive : String} {op : DriveOp}
    {sender : NodeId} {time : Nat} {granted : List String}
    (accepted : server.authorizeReq drive op sender [minted] time before = .ok granted)
    (member : (minted.cap.issuer, minted.cap.nonce) ∈ revoked) :
    server.authorizeReq drive op sender [minted] time revoked = .error .revoked := by
  have verified := ((authorizeReq_ok_iff ..).mp accepted).1
  cases answer : server.iam.authorize server.hostId server.acceptedRoots [] time sender
      (requiredAbility op) [minted] (isRevoked revoked) with
  | ok u =>
    have live := ((documented.accepts_iff ..).mp answer).live minted (List.mem_singleton_self _)
    rw [isRevoked, decide_eq_false_iff_not] at live
    exact absurd member live
  | error e =>
    have text := said _ _ _ _ _ _ _ _ _ _ verified answer
    unfold DriveServer.authorizeReq authorizeReq
    rw [answer]
    change Except.error (gateError e) = _
    rw [gateError, if_pos text]

/-- Two shared capabilities are revoked apart exactly where the callers' ids or the paths
were spelled differently; drive and audience are not in the nonce. -/
theorem revokedApart_iff {server : DriveServer} {verifier : Verifier}
    (documented : server.iam.Documented verifier) (said : server.iam.SaysRevoked)
    (persisted : server.KeyPersisted) {one other : ShareRequest} {first second : SignedCapability}
    (shares : Shares server one first) (alsoShares : Shares server other second)
    (collisionFree : one.nonce server = other.nonce server → one.nonceText = other.nonceText) :
    RevokedApart server first second ↔
      (one.fromHex ≠ other.fromHex ∨ one.path ≠ other.path) ∨
        ∀ ability ∈ opAbilities, ability ∉ other.mintedAbilities := by
  obtain ⟨leaf, scope, facts⟩ := shares.facts documented persisted
  obtain ⟨leaf', scope', facts'⟩ := alsoShares.facts documented persisted
  rw [← facts'.abilities_eq]
  constructor
  · intro apart
    by_contra spelled
    simp only [not_or, not_forall, ne_eq, not_not] at spelled
    obtain ⟨⟨hex, path⟩, ability, usable, carried⟩ := spelled
    obtain ⟨op, required, admitted⟩ := facts'.exists_op usable
    have accepted := (facts'.accepted_iff documented other.drive op second.cap.audience 0 []
      second.cap.abilities).mpr ⟨rfl, required ▸ carried, facts'.valid_at_zero documented,
        List.not_mem_nil, rfl, admitted, rfl⟩
    have still := apart.kept _ _ _ _ _ _ accepted
    obtain ⟨_, _, _, live, _⟩ := (facts'.accepted_iff documented ..).mp still
    rw [facts.issuer, facts.nonce, facts'.nonce, hex, path] at live
    exact live List.mem_cons_self
  · intro condition
    refine ⟨?_, ?_⟩
    · intro before drive op sender time granted accepted
      exact refused_of_revoked documented said accepted List.mem_cons_self
    · intro before drive op sender time granted accepted
      rw [facts'.accepted_iff documented] at accepted ⊢
      obtain ⟨audience, carried, timely, live, rest⟩ := accepted
      refine ⟨audience, carried, timely, ?_, rest⟩
      rcases condition with spelled | useless
      · rw [List.mem_cons, not_or]
        refine ⟨?_, live⟩
        intro same
        have nonces := (Prod.mk.inj same).2
        rw [facts.nonce, facts'.nonce] at nonces
        have texts := (nonceText_inj shares.sender alsoShares.sender).mp (collisionFree nonces.symm)
        rcases spelled with hex | path
        · exact hex texts.1
        · exact path texts.2
      · exact absurd carried (useless _ (requiredAbility_mem op))

theorem reference_saysRevoked (tokens : List (String × List SignedCapability)) :
    (Reference.iam tokens).SaysRevoked := by
  intro selfId roots selfTags now requester ability chain live revoked e accepted refused
  change Reference.authorize selfId roots selfTags now requester ability chain live =
    .ok () at accepted
  change Reference.authorize selfId roots selfTags now requester ability chain revoked =
    .error e at refused
  unfold Reference.authorize at accepted refused
  simp only [Outcome.bind_eq_ok_iff, Outcome.ensure_eq_ok_iff] at accepted
  obtain ⟨_, genuine, _, rooted, _, linked, _, held, _, started, _, current, _⟩ := accepted
  simp only [Outcome.ensure] at refused
  rw [if_pos genuine, if_pos rooted, if_pos linked, if_pos held, if_pos started,
    if_pos current] at refused
  by_cases all : ∀ link ∈ chain, revoked link.cap.issuer link.cap.nonce = false
  · rw [if_pos all] at refused
    cases refused
  · rw [if_neg all] at refused
    rw [← Except.error.inj refused]
    decide +kernel

/-- A server whose digest tells the Share of `/docs/a` from that of `/docs/b`. -/
def pairServer : DriveServer where
  iam := Reference.iam []
  hostId := Reference.node 1
  acceptedRoots := []
  loadIdentity := .ok (Reference.identity 1)
  sha256 bytes :=
    if bytes = (docsRequest [Ability.admin] []).nonceText then docsServer.sha256 bytes
    else [229, 163, 125, 230, 39, 87, 66, 239, 166, 8, 184, 19, 133, 218, 190, 28,
      68, 239, 72, 83, 176, 124, 216, 135, 99, 27, 134, 230, 74, 12, 9, 177]

def besideRequest : ShareRequest := { docsRequest [Ability.admin] [] with path := "/docs/b" }

def besideMint : SignedCapability :=
  Reference.issue (Reference.identity 1) (Reference.node 3) [Ability.read] .any
    { Caveats.default with pathPrefix := some (driveCaveatPrefix "team" "/docs/b") }
    17240438152410014693 none

theorem pairServer_persisted : pairServer.KeyPersisted := by
  intro identity loaded
  cases loaded
  rfl

theorem docsRequest_sharesPair :
    Shares pairServer (docsRequest [Ability.admin] []) (docsMint [Ability.read]) where
  sender := docsRequest_shares.sender
  accepted := docsRequest_shares.accepted
  answered := by decide +kernel

theorem besideRequest_shares : Shares pairServer besideRequest besideMint where
  sender := docsRequest_shares.sender
  accepted := ⟨[Ability.admin], by decide +kernel⟩
  answered := by decide +kernel

theorem besideMint_apart : RevokedApart pairServer (docsMint [Ability.read]) besideMint := by
  have digests : (docsRequest [Ability.admin] []).nonce pairServer ≠
      besideRequest.nonce pairServer := by
    decide +kernel
  have paths : (docsRequest [Ability.admin] []).path ≠ besideRequest.path := by decide
  exact (revokedApart_iff (Reference.iam_documented []) (reference_saysRevoked [])
    pairServer_persisted docsRequest_sharesPair besideRequest_shares
    fun same => absurd same digests).mpr (Or.inl (Or.inr paths))

def alsoRequest : ShareRequest :=
  { docsRequest [Ability.admin] [] with
    audience := "0404040404040404040404040404040404040404040404040404040404040404" }

def alsoMint : SignedCapability :=
  Reference.issue (Reference.identity 1) (Reference.node 4) [Ability.read] .any
    { Caveats.default with pathPrefix := some (driveCaveatPrefix "team" "/docs/a") }
    10278131262286257861 none

theorem alsoRequest_shares : Shares docsServer alsoRequest alsoMint where
  sender := docsRequest_shares.sender
  accepted := docsRequest_shares.accepted
  answered := by decide +kernel

/-- What is shared with node 3 cannot be revoked and leave node 4 its own. -/
theorem audiences_revokedTogether :
    docsServer.iam.Documented Reference.verifier ∧ docsServer.iam.SaysRevoked ∧
      docsServer.KeyPersisted ∧
      Shares docsServer (docsRequest [Ability.admin] []) (docsMint [Ability.read]) ∧
      Shares docsServer alsoRequest alsoMint ∧
      (docsRequest [Ability.admin] []).audience ≠ alsoRequest.audience ∧
      ¬ RevokedApart docsServer (docsMint [Ability.read]) alsoMint := by
  refine ⟨Reference.iam_documented [], reference_saysRevoked [], docsServer_persisted,
    docsRequest_shares, alsoRequest_shares, by decide, ?_⟩
  intro apart
  have still := apart.kept [] "team" (.stat "/docs/a") (Reference.node 4) 10 [Ability.read]
    (by decide)
  have refused : docsServer.authorizeReq "team" (.stat "/docs/a") (Reference.node 4) [alsoMint] 10
      [((docsMint [Ability.read]).cap.issuer, (docsMint [Ability.read]).cap.nonce)] =
        .error .revoked := by
    decide +kernel
  rw [refused] at still
  cases still

end DriveServe
