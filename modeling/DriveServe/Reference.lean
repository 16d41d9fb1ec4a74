import DriveServe.Authorize

set_option autoImplicit false

/-! A capability verifier small enough to run. It signs with the issuer's own key
bytes and meets the documentation of the real one, so concrete chains evaluate. -/

namespace DriveServe.Reference

open DriveServe

/-- The node whose key repeats one byte. -/
def node (n : UInt8) : NodeId := { bytes := List.replicate 32 n, size := List.length_replicate }

def identity (n : UInt8) : Identity := { secret := [n] }

def nodeId (identity : Identity) : NodeId := node (identity.secret.headD 0)

def sign (issuer : NodeId) (nonce : Nat) : Bytes := issuer.bytes ++ [UInt8.ofNat nonce]

def issue (identity : Identity) (audience : NodeId) (abilities : List String)
    (resource : Resource) (caveats : Caveats) (nonce : Nat) (parent : Option CapId) :
    SignedCapability where
  cap := { issuer := nodeId identity, audience, abilities, resource, caveats, nonce, parent }
  signature := sign (nodeId identity) nonce

/-- Every link is signed and names the one before it. -/
def genuineFrom (above : Option CapId) : List SignedCapability → Bool
  | [] => true
  | link :: below =>
    link.signature == sign link.cap.issuer link.cap.nonce && link.cap.parent == above &&
      genuineFrom (some link.signature) below

def verifier : Verifier where
  genuine _ _ chain := genuineFrom none chain
  expired notAfter now := notAfter != 0 && decide (notAfter < now)

instance (parent child : Caveats) : Decidable (parent.Narrower child) :=
  decidable_of_iff
    (parent.notBefore ≤ child.notBefore ∧
      (parent.notAfter ≠ 0 → child.notAfter ≠ 0 ∧ child.notAfter ≤ parent.notAfter) ∧
      ∀ outer ∈ parent.pathPrefix, ∃ inner ∈ child.pathPrefix, outer.toList <+: inner.toList)
    ⟨fun ⟨first, second, third⟩ => ⟨first, second, third⟩,
      fun narrow => ⟨narrow.notBefore, narrow.notAfter, narrow.pathPrefix⟩⟩

instance (parent child : SignedCapability) : Decidable (parent.Delegates child) :=
  decidable_of_iff
    (child.cap.issuer = parent.cap.audience ∧
      (∀ ability ∈ child.cap.abilities, ability ∈ parent.cap.abilities) ∧
      parent.cap.caveats.Narrower child.cap.caveats)
    ⟨fun ⟨first, second, third⟩ => ⟨first, second, third⟩,
      fun link => ⟨link.issuer, link.abilities, link.caveats⟩⟩

def authorize (selfId : NodeId) (roots : List NodeId) (_selfTags : List String) (now : Nat)
    (requester : NodeId) (ability : String) (chain : List SignedCapability)
    (isRevoked : NodeId → Nat → Bool) : Except String Unit := do
  Outcome.ensure (genuineFrom none chain = true) "bad signature"
  Outcome.ensure (∀ first ∈ chain.head?, first.cap.issuer = selfId ∨ first.cap.issuer ∈ roots)
    "root not accepted"
  Outcome.ensure (chain.IsChain SignedCapability.Delegates) "attenuation violated"
  Outcome.ensure (∃ leaf ∈ chain.getLast?, leaf.cap.audience = requester ∧
    ability ∈ leaf.cap.abilities) "ability not granted"
  Outcome.ensure (∀ link ∈ chain, link.cap.caveats.notBefore ≤ now) "not yet valid"
  Outcome.ensure (∀ link ∈ chain, verifier.expired link.cap.caveats.notAfter now = false)
    "capability expired"
  Outcome.ensure (∀ link ∈ chain, isRevoked link.cap.issuer link.cap.nonce = false)
    "capability revoked"

/-- The verifier with a table of the tokens that decode. -/
def iam (tokens : List (String × List SignedCapability)) : Iam where
  nodeId := nodeId
  authorize := authorize
  issue := issue
  encodeChain chain := ((tokens.find? fun entry => entry.2 = chain).map (·.1)).getD ""
  decodeChain token := Outcome.okOr (tokens.lookup token) "bad token"

theorem iam_documented (tokens : List (String × List SignedCapability)) :
    (iam tokens).Documented verifier where
  accepts_iff selfId roots selfTags now requester ability chain isRevoked := by
    change authorize selfId roots selfTags now requester ability chain isRevoked = .ok () ↔ _
    unfold authorize
    simp only [Outcome.bind_eq_ok_iff, Outcome.ensure_eq_ok_iff]
    constructor
    · rintro ⟨_, genuine, _, rooted, _, linked, _, held, _, started, _, current, live⟩
      exact ⟨genuine, rooted, linked, held,
        fun link member => ⟨started link member, current link member⟩, live⟩
    · rintro ⟨genuine, rooted, linked, held, timely, live⟩
      exact ⟨(), genuine, (), rooted, (), linked, (), held, (),
        fun link member => (timely link member).started, (),
        fun link member => (timely link member).current, live⟩
  issue_cap _ _ _ _ _ _ _ := rfl
  issue_genuine identity _ _ _ _ nonce := by
    simp [verifier, genuineFrom, iam, issue]
  never_expires _ := rfl
  not_expired notAfter now before := by
    have inside : ¬ notAfter < now := by omega
    simp [verifier, inside]
  has_expired notAfter now bounded passed := by
    simp [verifier, bounded, passed]

end DriveServe.Reference
