import DriveServe.Reference

set_option autoImplicit false

/-! Sharing: what the host mints for a caller who holds an admin capability. -/

namespace DriveServe

/-- The fixed part of the server. `loadIdentity` is reading the host key from the
key directory, which every Share does anew. -/
structure DriveServer where
  iam : Iam
  hostId : NodeId
  acceptedRoots : List NodeId
  loadIdentity : Except String Identity
  sha256 : Bytes → Bytes

def DriveServer.authorizeReq (server : DriveServer) (drive : String) (op : DriveOp)
    (fromNode : NodeId) (chain : List SignedCapability) (now : Nat) (revoked : RevokedSet) :
    Except DriveErr (List String) :=
  DriveServe.authorizeReq server.iam server.hostId server.acceptedRoots drive op fromNode chain
    now revoked

def hexValue (c : Char) : Option Nat :=
  let n := c.toNat
  if 48 ≤ n ∧ n ≤ 57 then some (n - 48)
  else if 97 ≤ n ∧ n ≤ 102 then some (n - 87)
  else if 65 ≤ n ∧ n ≤ 70 then some (n - 55)
  else none

/-- `hex::decode`, as the hex crate documents it: two digits a byte, of either case; an odd
count of characters, or one that is no digit, is an error. -/
def hexDecode : List Char → Option Bytes
  | [] => some []
  | [_] => none
  | high :: low :: rest => do
    let h ← hexValue high
    let l ← hexValue low
    let bytes ← hexDecode rest
    return UInt8.ofNat (16 * h + l) :: bytes

def parseNodeId (hexStr : String) : Option NodeId :=
  match hexDecode (trim hexStr).toList with
  | none => none
  | some bytes => if size : bytes.length = 32 then some { bytes, size } else none

/-- `u64::from_le_bytes`. -/
def fromLeBytes : Bytes → Nat
  | [] => 0
  | byte :: rest => byte.toNat + 256 * fromLeBytes rest

def asBytes (s : String) : Bytes := s.toUTF8.data.toList

/-- The nonce of a minted Share capability. -/
def deriveNonce (sha256 : Bytes → Bytes) (fromHex path : String) : Nat :=
  fromLeBytes ((sha256 (asBytes fromHex ++ asBytes "|" ++ asBytes path)).take 8)

/-- Abilities of the caller's; read when none was requested. -/
def shareAbilities (abilities held : List String) : List String :=
  if abilities = [] then [Ability.read] else abilities.filter fun a => decide (a ∈ held)

/-- The earlier of the two expiries, where 0 is never. -/
def shareExpiry (requested parent : Nat) : Nat :=
  match requested, parent with
  | 0, p => p
  | c, 0 => c
  | c, p => min c p

/-- The capability a Share mints: a root of its own, signed by the host. -/
def mintShare (server : DriveServer) (drive fromHex : String) (chain : List SignedCapability)
    (path audience : String) (abilities : List String) (caveats : ShareCaveats) :
    Except DriveErr SignedCapability := do
  let parent ← Outcome.okOr chain.getLast? .unauthorized
  let audienceId ← Outcome.okOr (parseNodeId audience) .badPath
  (noDotdot path).mapError fun _ => .badPath
  let parentScope ← Outcome.okOr
    ((parent.cap.caveats.pathPrefix.bind parseDrivePrefix).map (·.2)) .unauthorized
  enforcePrefix parentScope path
  let requested := shareAbilities abilities parent.cap.abilities
  Outcome.ensure (requested ≠ []) .outOfScope
  let hostIdentity ← server.loadIdentity.mapError .internal
  let newCaveats := { Caveats.default with
    notAfter := shareExpiry caveats.notAfter parent.cap.caveats.notAfter
    pathPrefix := some (drivePrefix drive path) }
  return server.iam.issue hostIdentity audienceId requested .any newCaveats
    (deriveNonce server.sha256 fromHex path) none

def opShare (server : DriveServer) (drive fromHex : String) (chain : List SignedCapability)
    (path audience : String) (abilities : List String) (caveats : ShareCaveats) :
    Except DriveErr DriveOk :=
  (mintShare server drive fromHex chain path audience abilities caveats).map fun newCap =>
    .shared (server.iam.encodeChain [newCap])

/-- One accepted Share request: who asked, with which chain, and when. -/
structure ShareRequest where
  drive : String
  fromHex : String
  fromNode : NodeId
  chain : List SignedCapability
  path : String
  audience : String
  abilities : List String
  caveats : ShareCaveats
  now : Nat
  revoked : RevokedSet

def ShareRequest.op (request : ShareRequest) : DriveOp :=
  .share request.path request.audience request.abilities request.caveats

def ShareRequest.mint (request : ShareRequest) (server : DriveServer) :
    Except DriveErr SignedCapability :=
  mintShare server request.drive request.fromHex request.chain request.path request.audience
    request.abilities request.caveats

/-- The host key on disk is the one the server was built with. -/
def DriveServer.KeyPersisted (server : DriveServer) : Prop :=
  ∀ identity, server.loadIdentity = .ok identity → server.iam.nodeId identity = server.hostId

def ShareRequest.nonce (request : ShareRequest) (server : DriveServer) : Nat :=
  deriveNonce server.sha256 request.fromHex request.path

def ShareRequest.mintedAbilities (request : ShareRequest) : List String :=
  shareAbilities request.abilities
    ((request.chain.getLast?.map fun leaf => leaf.cap.abilities).getD [])

/-- A Share that the gate accepted and the handler answered with `minted`. -/
structure Shares (server : DriveServer) (request : ShareRequest) (minted : SignedCapability) :
    Prop where
  sender : parseNodeId request.fromHex = some request.fromNode
  accepted : ∃ granted, server.authorizeReq request.drive request.op request.fromNode
    request.chain request.now request.revoked = .ok granted
  answered : request.mint server = .ok minted

def ShareRequest.mintedCaveats (request : ShareRequest) (leaf : SignedCapability) : Caveats where
  notBefore := 0
  notAfter := shareExpiry request.caveats.notAfter leaf.cap.caveats.notAfter
  pathPrefix := some (drivePrefix request.drive request.path)

/-- All that an answered Share establishes about the caller's leaf and the mint. -/
structure ShareFacts (server : DriveServer) (verifier : Verifier) (request : ShareRequest)
    (leaf minted : SignedCapability) (scope : String) : Prop where
  last : request.chain.getLast? = some leaf
  accepts : Accepts verifier server.hostId server.acceptedRoots [] request.now request.fromNode
    Ability.admin request.chain (isRevoked request.revoked)
  binding : boundScope leaf = some (request.drive, scope)
  straight : noDotdot request.path = .ok ()
  inScope : enforcePrefix scope request.path = .ok ()
  issuer : minted.cap.issuer = server.hostId
  abilities : minted.cap.abilities = shareAbilities request.abilities leaf.cap.abilities
  caveats : minted.cap.caveats = request.mintedCaveats leaf
  nonce : minted.cap.nonce = deriveNonce server.sha256 request.fromHex request.path
  orphan : minted.cap.parent = none
  genuine : verifier.genuine server.hostId [] [minted] = true

theorem Shares.facts {server : DriveServer} {verifier : Verifier} {request : ShareRequest}
    {minted : SignedCapability} (documented : server.iam.Documented verifier)
    (persisted : server.KeyPersisted) (shares : Shares server request minted) :
    ∃ leaf scope, ShareFacts server verifier request leaf minted scope := by
  obtain ⟨granted, accepted⟩ := shares.accepted
  obtain ⟨verified, leaf, scope, last, bound, _⟩ := (authorizeReq_ok_iff ..).mp accepted
  have answered := shares.answered
  simp only [ShareRequest.mint, mintShare, Outcome.bind_eq_ok_iff, Outcome.okOr_eq_ok_iff,
    Outcome.mapError_eq_ok_iff, Outcome.ensure_eq_ok_iff] at answered
  obtain ⟨parent, parentLast, audience, _, _, straight, parentScope, found, _, inScope, _, _,
    identity, loaded, issued⟩ := answered
  obtain rfl : leaf = parent := Option.some.inj (last.symm.trans parentLast)
  have binding : boundScope leaf = some (request.drive, scope) := bound.binding
  have sameScope : parentScope = scope := by
    change (boundScope leaf).map (·.2) = some parentScope at found
    rw [binding] at found
    exact (Option.some.inj found).symm
  subst sameScope
  have key : server.iam.nodeId identity = server.hostId := persisted identity loaded
  have issued := (Except.ok.inj issued).symm
  refine ⟨leaf, parentScope, ⟨last, (documented.accepts_iff ..).mp verified, binding, straight,
    inScope, ?_, ?_, ?_, ?_, ?_, ?_⟩⟩
  all_goals rw [issued]
  · rw [documented.issue_cap]
    exact key
  · rw [documented.issue_cap]
  · rw [documented.issue_cap]
    rfl
  · rw [documented.issue_cap]
  · rw [documented.issue_cap]
  · rw [← key]
    exact documented.issue_genuine ..

variable {server : DriveServer} {verifier : Verifier} {request : ShareRequest}
variable {leaf minted : SignedCapability} {scope : String}

theorem ShareFacts.drive_proper (facts : ShareFacts server verifier request leaf minted scope) :
    request.drive ≠ "" ∧ '/' ∉ request.drive.toList := by
  obtain ⟨caveat, _, parsed⟩ := Option.bind_eq_some_iff.mp facts.binding
  have ⟨_, _, nonempty, slashFree, _⟩ := (parseDrivePrefix_eq_some_iff ..).mp parsed
  exact ⟨nonempty, slashFree⟩

theorem ShareFacts.abilities_eq (facts : ShareFacts server verifier request leaf minted scope) :
    minted.cap.abilities = request.mintedAbilities := by
  rw [facts.abilities, ShareRequest.mintedAbilities, facts.last]
  rfl

/-- The subtree the minted capability is read to have. -/
def ShareRequest.mintedScope (request : ShareRequest) : String :=
  normPath (String.ofList (normTail request.path))

theorem ShareFacts.mintedBinding
    (facts : ShareFacts server verifier request leaf minted scope) :
    boundScope minted = some (request.drive, request.mintedScope) := by
  obtain ⟨nonempty, slashFree⟩ := facts.drive_proper
  have parsed := parseDrivePrefix_drivePrefix nonempty slashFree request.path
  simp only [boundScope, facts.caveats, ShareRequest.mintedCaveats, ShareRequest.mintedScope,
    Option.bind_some, parsed]

/-- What the gate asks of a minted capability presented alone. -/
theorem ShareFacts.accepted_iff (documented : server.iam.Documented verifier)
    (facts : ShareFacts server verifier request leaf minted scope) (drive : String)
    (op : DriveOp) (sender : NodeId) (time : Nat) (revoked : RevokedSet) (granted : List String) :
    server.authorizeReq drive op sender [minted] time revoked = .ok granted ↔
      minted.cap.audience = sender ∧ requiredAbility op ∈ minted.cap.abilities ∧
        minted.cap.caveats.Valid verifier time ∧
        (server.hostId, minted.cap.nonce) ∉ revoked ∧ drive = request.drive ∧
        (∀ path ∈ opPaths op, Admitted request.mintedScope path) ∧
        granted = minted.cap.abilities := by
  unfold DriveServer.authorizeReq
  rw [authorizeReq_ok_iff, documented.accepts_iff]
  have binding := facts.mintedBinding
  constructor
  · rintro ⟨accepts, found, s, last, bound, answer⟩
    obtain rfl : minted = found := by simpa using last
    obtain ⟨holder, holderLast, audience, carried⟩ := accepts.held
    obtain rfl : minted = holder := by simpa using holderLast
    have live := accepts.live minted (by simp)
    rw [facts.issuer] at live
    obtain ⟨sameDrive, sameScope⟩ := Prod.mk.inj
      (Option.some.inj (bound.binding.symm.trans binding))
    exact ⟨audience, carried, accepts.timely minted (by simp), by simpa [isRevoked] using live,
      sameDrive, sameScope ▸ bound.admitted, answer⟩
  · rintro ⟨audience, carried, timely, live, rfl, admitted, answer⟩
    refine ⟨⟨facts.genuine, ?_, List.isChain_singleton _, ⟨minted, rfl, audience, carried⟩, ?_, ?_⟩,
      minted, _, rfl, ⟨binding, admitted⟩, answer⟩
    · intro first head
      obtain rfl : minted = first := by simpa using head
      exact Or.inl facts.issuer
    · intro link member
      obtain rfl := List.mem_singleton.mp member
      exact timely
    · intro link member
      obtain rfl := List.mem_singleton.mp member
      rw [facts.issuer]
      simpa [isRevoked] using live

def opAbilities : List String := [Ability.read, Ability.write, Ability.admin]

theorem requiredAbility_mem (op : DriveOp) : requiredAbility op ∈ opAbilities := by
  cases op <;> simp [requiredAbility, opAbilities]

/-- Padding a part of a straight path with a blank makes no dots between slashes. -/
private theorem undotted_padded {first : Char} {mid text : List Char} (start : first ≠ '.')
    (inside : mid <:+: text) (straight : ¬ ['/', '.', '.', '/'] <:+: '/' :: (text ++ ['/']))
    (apart : first = '/' → ∀ rest, mid ++ [' '] ≠ '.' :: rest) :
    ¬ ['/', '.', '.', '/'] <:+: '/' :: (first :: (mid ++ [' ']) ++ ['/']) := by
  intro dots
  rcases List.infix_cons_iff.mp dots with ⟨rest, whole⟩ | dots
  · simp only [List.cons_append, List.cons.injEq] at whole
    exact start whole.2.1.symm
  rcases List.infix_cons_iff.mp dots with ⟨rest, whole⟩ | dots
  · simp only [List.cons_append, List.cons.injEq, List.nil_append] at whole
    obtain ⟨slash, whole⟩ := whole
    cases mid with
    | nil => simp at whole
    | cons c tail =>
      have head : '.' = c := (List.cons.inj whole).1
      exact apart slash.symm (tail ++ [' ']) (by rw [head, List.cons_append])
  rcases List.infix_concat_iff.mp dots with ⟨rest, whole⟩ | dots
  · simpa using congrArg List.reverse whole
  rcases List.infix_concat_iff.mp dots with ⟨rest, whole⟩ | dots
  · simpa using congrArg List.reverse whole
  obtain ⟨before, after, whole⟩ := dots.trans inside
  exact straight ⟨'/' :: before, after ++ ['/'], by simp [← whole]⟩

theorem exists_admitted {path : String} (straight : noDotdot path = .ok ()) :
    ∃ inner, Admitted (normPath (String.ofList (normTail path))) inner := by
  rw [noDotdot_ok_iff] at straight
  set tail := normTail (String.ofList (normTail path)) with tailDef
  have blank : isWhite ' ' = true := by decide
  have inside : tail <:+: path.toList := by
    refine (Trim.twice_infix (p := isWhite) (q := isSlash) _).trans ?_
    rw [String.toList_ofList]
    exact Trim.twice_infix _
  have scope : normTail (normPath (String.ofList (normTail path))) =
      Trim.right isWhite isSlash tail := normTail_normPath _
  have admitted : ∀ inner : String, normTail inner = Trim.right isWhite isSlash tail →
      enforcePrefix (normPath (String.ofList (normTail path))) inner = .ok () :=
    fun inner same => enforcePrefix_of_same (scope.trans same.symm)
  by_cases padded : ∃ c rest, tail = c :: rest ∧ isWhite c = false
  · obtain ⟨c, rest, shape, word⟩ := padded
    have solid : isSlash c = false := normTail_head (tailDef.symm.trans shape)
    refine ⟨String.ofList (' ' :: (tail ++ [' '])), (noDotdot_ok_iff _ _).mpr ?_, admitted _ ?_⟩
    · rw [String.toList_ofList]
      exact undotted_padded (by decide) inside straight
        fun impossible => absurd impossible (by decide)
    · rw [normTail, String.toList_ofList, Trim.twice_eq_right_left, Trim.left_cons blank, shape,
        List.cons_append, Trim.left_of_head word solid, ← List.cons_append,
        Trim.right_concat blank]
  · refine ⟨String.ofList ('/' :: (tail ++ [' '])), (noDotdot_ok_iff _ _).mpr ?_, admitted _ ?_⟩
    · rw [String.toList_ofList]
      refine undotted_padded (by decide) inside straight fun _ rest whole => ?_
      cases shape : tail with
      | nil => simp [shape] at whole
      | cons c more =>
        rw [shape, List.cons_append, List.cons.injEq] at whole
        exact padded ⟨c, more, shape, whole.1 ▸ by decide⟩
    · rw [normTail, String.toList_ofList, Trim.twice_cons_guard isSlash_slash isWhite_slash,
        Trim.right_concat blank]
      intro y rest whole
      cases shape : tail with
      | nil =>
        rw [shape] at whole
        obtain rfl : ' ' = y := (List.cons.inj whole).1
        decide
      | cons c more =>
        rw [shape, List.cons_append, List.cons.injEq] at whole
        exact whole.1 ▸ normTail_head (tailDef.symm.trans shape)

theorem ShareFacts.exists_op (facts : ShareFacts server verifier request leaf minted scope)
    {ability : String} (usable : ability ∈ opAbilities) :
    ∃ op, requiredAbility op = ability ∧
      ∀ path ∈ opPaths op, Admitted request.mintedScope path := by
  obtain ⟨inner, admitted⟩ := exists_admitted facts.straight
  have only : ∀ path ∈ [inner], Admitted request.mintedScope path := by
    intro path member
    obtain rfl := List.mem_singleton.mp member
    exact admitted
  simp only [opAbilities, List.mem_cons, List.not_mem_nil, or_false] at usable
  rcases usable with rfl | rfl | rfl
  · exact ⟨.stat inner, rfl, only⟩
  · exact ⟨.mkdir inner, rfl, only⟩
  · exact ⟨.share inner "" [] { notAfter := 0, maxBytesRead := none, maxBytesWrite := none },
      rfl, only⟩

/-- A server whose digest is that of the one Share below. -/
def docsServer : DriveServer where
  iam := Reference.iam []
  hostId := Reference.node 1
  acceptedRoots := []
  loadIdentity := .ok (Reference.identity 1)
  sha256 _ := [197, 222, 104, 91, 237, 65, 163, 142, 198, 247, 171, 68, 5, 102, 196, 153,
    115, 242, 158, 106, 245, 82, 86, 44, 183, 104, 53, 18, 174, 70, 7, 133]

theorem docsServer_persisted : docsServer.KeyPersisted := by
  intro identity loaded
  cases loaded
  rfl

def docsLeaf (held : List String) : SignedCapability :=
  Reference.issue (Reference.identity 1) (Reference.node 2) held .any
    { Caveats.default with pathPrefix := some (driveCaveatPrefix "team" "/docs") } 1 none

/-- Node 2, who holds `held` on the subtree `/docs`, shares `/docs/a` with node 3. -/
def docsRequest (held requested : List String) : ShareRequest where
  drive := "team"
  fromHex := "0202020202020202020202020202020202020202020202020202020202020202"
  fromNode := Reference.node 2
  chain := [docsLeaf held]
  path := "/docs/a"
  audience := "0303030303030303030303030303030303030303030303030303030303030303"
  abilities := requested
  caveats := { notAfter := 0, maxBytesRead := none, maxBytesWrite := none }
  now := 10
  revoked := []

def docsMint (abilities : List String) : SignedCapability :=
  Reference.issue (Reference.identity 1) (Reference.node 3) abilities .any
    { Caveats.default with pathPrefix := some (driveCaveatPrefix "team" "/docs/a") }
    10278131262286257861 none

/-- Node 2 may only administer and names no ability. -/
theorem docsRequest_shares :
    Shares docsServer (docsRequest [Ability.admin] []) (docsMint [Ability.read]) where
  sender := by decide
  accepted := ⟨[Ability.admin], by decide⟩
  answered := by decide

end DriveServe
