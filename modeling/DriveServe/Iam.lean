import DriveServe.Wire
import Mathlib.Data.List.Chain

set_option autoImplicit false

/-! The identity and capability crates the host is written against: their data
types, the calls the host makes, and what their documentation says of them. -/

namespace DriveServe

structure NodeId where
  bytes : Bytes
  size : bytes.length = 32
  deriving DecidableEq

structure Caveats where
  notBefore : Nat
  notAfter : Nat
  pathPrefix : Option String
  deriving DecidableEq

/-- `Caveats::default()`. -/
def Caveats.default : Caveats := { notBefore := 0, notAfter := 0, pathPrefix := none }

inductive Resource where
  | any
  | other (text : String)
  deriving DecidableEq

abbrev CapId := Bytes

structure Capability where
  issuer : NodeId
  audience : NodeId
  abilities : List String
  resource : Resource
  caveats : Caveats
  nonce : Nat
  parent : Option CapId
  deriving DecidableEq

structure SignedCapability where
  cap : Capability
  signature : Bytes
  deriving DecidableEq

/-- A key pair, as its secret half: the public one, the node id, follows from it. -/
structure Identity where
  secret : Bytes

structure Iam where
  nodeId : Identity → NodeId
  authorize : (selfId : NodeId) → (roots : List NodeId) → (selfTags : List String) →
    (now : Nat) → (requester : NodeId) → (ability : String) → List SignedCapability →
    (isRevoked : NodeId → Nat → Bool) → Except String Unit
  issue : Identity → (audience : NodeId) → (abilities : List String) → Resource → Caveats →
    (nonce : Nat) → (parent : Option CapId) → SignedCapability
  encodeChain : List SignedCapability → String
  decodeChain : String → Except String (List SignedCapability)

/-- What the verifier settles without looking at the clock, the requester or the
revocations: signatures, parent ids and resources; and when an expiry has passed. -/
structure Verifier where
  genuine : (selfId : NodeId) → (selfTags : List String) → List SignedCapability → Bool
  expired : (notAfter now : Nat) → Bool

/-- `Caveats::is_narrower_or_equal`: the window inside the parent's, and the path
prefix a plain string continuation of the parent's. -/
structure Caveats.Narrower (parent child : Caveats) : Prop where
  notBefore : parent.notBefore ≤ child.notBefore
  notAfter : parent.notAfter ≠ 0 → child.notAfter ≠ 0 ∧ child.notAfter ≤ parent.notAfter
  pathPrefix : ∀ outer, parent.pathPrefix = some outer →
    ∃ inner, child.pathPrefix = some inner ∧ outer.toList <+: inner.toList

/-- One link of a chain below the one before it. -/
structure SignedCapability.Delegates (parent child : SignedCapability) : Prop where
  issuer : child.cap.issuer = parent.cap.audience
  abilities : ∀ ability ∈ child.cap.abilities, ability ∈ parent.cap.abilities
  caveats : parent.cap.caveats.Narrower child.cap.caveats

structure Caveats.Valid (verifier : Verifier) (now : Nat) (caveats : Caveats) : Prop where
  started : caveats.notBefore ≤ now
  current : verifier.expired caveats.notAfter now = false

structure Accepts (verifier : Verifier) (selfId : NodeId) (roots : List NodeId)
    (selfTags : List String) (now : Nat) (requester : NodeId) (ability : String)
    (chain : List SignedCapability) (isRevoked : NodeId → Nat → Bool) : Prop where
  genuine : verifier.genuine selfId selfTags chain = true
  rooted : ∀ first ∈ chain.head?, first.cap.issuer = selfId ∨ first.cap.issuer ∈ roots
  linked : chain.IsChain SignedCapability.Delegates
  held : ∃ leaf, chain.getLast? = some leaf ∧ leaf.cap.audience = requester ∧
    ability ∈ leaf.cap.abilities
  timely : ∀ link ∈ chain, link.cap.caveats.Valid verifier now
  live : ∀ link ∈ chain, isRevoked link.cap.issuer link.cap.nonce = false

/-- What is documented of `authorize`. -/
abbrev Iam.Verifies (iam : Iam) (verifier : Verifier) : Prop :=
  ∀ selfId roots selfTags now requester ability chain isRevoked,
    iam.authorize selfId roots selfTags now requester ability chain isRevoked = .ok () ↔
      Accepts verifier selfId roots selfTags now requester ability chain isRevoked

/-- The documented behaviour of the capability crate. -/
structure Iam.Documented (iam : Iam) (verifier : Verifier) : Prop where
  accepts_iff : iam.Verifies verifier
  issue_cap : ∀ (identity : Identity) audience abilities resource caveats nonce parent,
    (iam.issue identity audience abilities resource caveats nonce parent).cap =
      { issuer := iam.nodeId identity, audience, abilities, resource, caveats, nonce, parent }
  issue_genuine : ∀ (identity : Identity) selfTags audience abilities caveats nonce,
    verifier.genuine (iam.nodeId identity) selfTags
      [iam.issue identity audience abilities .any caveats nonce none] = true
  never_expires : ∀ now, verifier.expired 0 now = false
  not_expired : ∀ notAfter now, now < notAfter → verifier.expired notAfter now = false
  has_expired : ∀ notAfter now, notAfter ≠ 0 → notAfter < now →
    verifier.expired notAfter now = true

theorem Iam.Documented.expired_mono {iam : Iam} {verifier : Verifier}
    (documented : iam.Documented verifier) {early late now : Nat} (bounded : early ≠ 0)
    (le : early ≤ late) (expired : verifier.expired late now = true) :
    verifier.expired early now = true := by
  rcases Nat.lt_or_ge now late with before | after
  · rw [documented.not_expired late now before] at expired
    cases expired
  · rcases Nat.lt_or_ge early now with passed | reached
    · exact documented.has_expired early now bounded passed
    · obtain rfl : early = late := by omega
      exact expired

theorem Caveats.Narrower.trans {a b c : Caveats} (outer : a.Narrower b) (inner : b.Narrower c) :
    a.Narrower c := by
  refine ⟨Nat.le_trans outer.notBefore inner.notBefore, ?_, ?_⟩
  · intro bounded
    obtain ⟨between, first⟩ := outer.notAfter bounded
    obtain ⟨last, second⟩ := inner.notAfter between
    exact ⟨last, Nat.le_trans second first⟩
  · intro text bound
    obtain ⟨middle, bound, first⟩ := outer.pathPrefix text bound
    obtain ⟨final, bound, second⟩ := inner.pathPrefix middle bound
    exact ⟨final, bound, first.trans second⟩

instance : Trans Caveats.Narrower Caveats.Narrower Caveats.Narrower := ⟨Caveats.Narrower.trans⟩

/-- Along an accepted chain every link is narrower than all links before it. -/
theorem Accepts.pairwise_narrower {verifier : Verifier} {selfId : NodeId} {roots : List NodeId}
    {selfTags : List String} {now : Nat} {requester : NodeId} {ability : String}
    {chain : List SignedCapability} {isRevoked : NodeId → Nat → Bool}
    (accepts : Accepts verifier selfId roots selfTags now requester ability chain isRevoked) :
    (chain.map (·.cap.caveats)).Pairwise Caveats.Narrower := by
  rw [← List.isChain_iff_pairwise, List.isChain_map]
  exact accepts.linked.imp fun _ _ link => link.caveats

theorem Accepts.narrower_leaf {verifier : Verifier} {selfId : NodeId} {roots : List NodeId}
    {selfTags : List String} {now : Nat} {requester : NodeId} {ability : String}
    {chain : List SignedCapability} {isRevoked : NodeId → Nat → Bool}
    (accepts : Accepts verifier selfId roots selfTags now requester ability chain isRevoked)
    {link leaf : SignedCapability} (member : link ∈ chain) (last : chain.getLast? = some leaf) :
    link = leaf ∨ link.cap.caveats.Narrower leaf.cap.caveats := by
  have pairwise := accepts.pairwise_narrower
  obtain ⟨above, rfl⟩ := List.getLast?_eq_some_iff.mp last
  rw [List.map_append, List.pairwise_append] at pairwise
  rcases List.mem_append.mp member with upper | lower
  · exact Or.inr (pairwise.2.2 _ (List.mem_map_of_mem upper) _ (by simp))
  · exact Or.inl (List.mem_singleton.mp lower)

/-- Acceptance asks nothing of the leaf's abilities but the one required, so a
chain accepted once is accepted for any ability it carries while it is valid. -/
theorem Accepts.again {verifier : Verifier} {selfId : NodeId} {roots : List NodeId}
    {selfTags : List String} {now later : Nat} {requester : NodeId} {ability other : String}
    {chain : List SignedCapability} {isRevoked isRevoked' : NodeId → Nat → Bool}
    (accepts : Accepts verifier selfId roots selfTags now requester ability chain isRevoked)
    {leaf : SignedCapability} (last : chain.getLast? = some leaf)
    (carried : other ∈ leaf.cap.abilities)
    (timely : ∀ link ∈ chain, link.cap.caveats.Valid verifier later)
    (live : ∀ link ∈ chain, isRevoked' link.cap.issuer link.cap.nonce = false) :
    Accepts verifier selfId roots selfTags later requester other chain isRevoked' := by
  obtain ⟨found, same, audience, _⟩ := accepts.held
  obtain rfl : leaf = found := Option.some.inj (last.symm.trans same)
  exact ⟨accepts.genuine, accepts.rooted, accepts.linked, ⟨leaf, last, audience, carried⟩,
    timely, live⟩

end DriveServe
