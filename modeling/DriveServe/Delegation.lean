import DriveServe.Reference

set_option autoImplicit false

/-! Delegation along a capability chain. The verifier compares path prefixes as
strings, the gate reads only the last link as a drive and a list of segments;
these results say when the two notions of narrower coincide. -/

namespace DriveServe

/-- A link that, read on its own, is bound to the drive and admits every path of
the op; a link with no path prefix confines nothing. -/
def CoversOp (drive : String) (op : DriveOp) (link : SignedCapability) : Prop :=
  ∀ caveat, link.cap.caveats.pathPrefix = some caveat →
    ∃ scope, parseDrivePrefix caveat = some (drive, scope) ∧
      ∀ path ∈ opPaths op, enforcePrefix scope path = .ok ()

/-- The parent's prefix and the child's are bound to one drive and, for an op that
names a path, the child's scope lies in the parent's by whole segments. -/
def NarrowsScope (op : DriveOp) (parent child : SignedCapability) : Prop :=
  ∀ outer inner, parent.cap.caveats.pathPrefix = some outer →
    child.cap.caveats.pathPrefix = some inner →
    ∃ drive s t, parseDrivePrefix outer = some (drive, s) ∧
      parseDrivePrefix inner = some (drive, t) ∧
      (opPaths op ≠ [] → enforcePrefix s t = .ok ())

theorem NarrowsScope.of_covers {drive : String} {op : DriveOp} {parent child : SignedCapability}
    (link : parent.Delegates child) (upper : CoversOp drive op parent)
    (lower : CoversOp drive op child) : NarrowsScope op parent child := by
  intro outer inner outerCaveat innerCaveat
  obtain ⟨s, outerParsed, outerAdmits⟩ := upper outer outerCaveat
  obtain ⟨t, innerParsed, innerAdmits⟩ := lower inner innerCaveat
  refine ⟨drive, s, t, outerParsed, innerParsed, fun named => ?_⟩
  obtain ⟨path, member⟩ := List.exists_mem_of_ne_nil _ named
  obtain ⟨text, same, continues⟩ := link.caveats.pathPrefix outer outerCaveat
  obtain rfl : inner = text := Option.some.inj (innerCaveat.symm.trans same)
  exact enforcePrefix_of_mono (normTail_scope_mono outerParsed innerParsed continues)
    (enforcePrefix_total (outerAdmits path member) (innerAdmits path member))

theorem CoversOp.parent {drive : String} {op : DriveOp} {parent child : SignedCapability}
    (link : parent.Delegates child) (narrow : NarrowsScope op parent child)
    (lower : CoversOp drive op child) : CoversOp drive op parent := by
  intro outer outerCaveat
  obtain ⟨inner, innerCaveat, _⟩ := link.caveats.pathPrefix outer outerCaveat
  obtain ⟨other, s, t, outerParsed, innerParsed, inside⟩ :=
    narrow outer inner outerCaveat innerCaveat
  obtain ⟨scope, parsed, admits⟩ := lower inner innerCaveat
  obtain ⟨rfl, rfl⟩ := Prod.mk.inj (Option.some.inj (innerParsed.symm.trans parsed))
  refine ⟨s, outerParsed, fun path member => ?_⟩
  exact enforcePrefix_trans (inside (List.ne_nil_of_mem member)) (admits path member)

theorem Bound.covers {leaf : SignedCapability} {drive scope : String} {op : DriveOp}
    (bound : Bound leaf drive scope op) : CoversOp drive op leaf := by
  intro caveat found
  refine ⟨scope, ?_, fun path member => (bound.admitted path member).inScope⟩
  simpa only [boundScope, found, Option.bind_some] using bound.binding

/-- An accepted op lies inside every link of the chain exactly when each link's
scope, parsed, lies inside its parent's. -/
theorem delegation_confined_iff {iam : Iam} {verifier : Verifier}
    (verifies : iam.Verifies verifier) {hostId : NodeId} {acceptedRoots : List NodeId}
    {drive : String} {op : DriveOp} {fromNode : NodeId} {chain : List SignedCapability}
    {now : Nat} {revoked : RevokedSet} {granted : List String}
    (accepted : authorizeReq iam hostId acceptedRoots drive op fromNode chain now revoked =
      .ok granted) :
    (∀ link ∈ chain, CoversOp drive op link) ↔ chain.IsChain (NarrowsScope op) := by
  obtain ⟨verified, leaf, scope, last, bound, _⟩ := (authorizeReq_ok_iff ..).mp accepted
  have linked := ((verifies ..).mp verified).linked
  constructor
  · intro covers
    exact linked.imp_of_mem_imp fun parent child upper lower link =>
      .of_covers link (covers parent upper) (covers child lower)
  · intro narrow
    have both : chain.IsChain fun parent child =>
        parent.Delegates child ∧ NarrowsScope op parent child := by
      rw [List.isChain_iff_getElem] at linked narrow ⊢
      exact fun i bounded => ⟨linked i bounded, narrow i bounded⟩
    refine both.backwards_induction (CoversOp drive op) chain
      (fun parent child link lower => lower.parent link.1 link.2) fun nonempty => ?_
    rw [List.getLast?_eq_some_getLast nonempty] at last
    exact Option.some.inj last ▸ bound.covers

def narrowedChain : List SignedCapability :=
  let root := Reference.issue (Reference.identity 1) (Reference.node 2) [Ability.read] .any
    { Caveats.default with pathPrefix := some (driveCaveatPrefix "team" "/docs") } 1 none
  [root, Reference.issue (Reference.identity 2) (Reference.node 3) [Ability.read] .any
    { Caveats.default with pathPrefix := some (driveCaveatPrefix "team" "/docs/a") } 2
    (some root.signature)]

/-- A grant of one drive handed on as a grant of a drive whose id continues its id. -/
def crossedChain : List SignedCapability :=
  let root := Reference.issue (Reference.identity 1) (Reference.node 2) [Ability.read] .any
    { Caveats.default with pathPrefix := some (driveCaveatPrefix "te" "/") } 1 none
  [root, Reference.issue (Reference.identity 2) (Reference.node 3) [Ability.read] .any
    { Caveats.default with pathPrefix := some (driveCaveatPrefix "team" "/") } 2
    (some root.signature)]

theorem narrowedChain_confined :
    (∀ link ∈ narrowedChain, CoversOp "team" (.stat "/docs/a/b") link) ↔
      narrowedChain.IsChain (NarrowsScope (.stat "/docs/a/b")) :=
  have accepted : authorizeReq (Reference.iam []) (Reference.node 1) [] "team"
      (.stat "/docs/a/b") (Reference.node 3) narrowedChain 0 [] = .ok [Ability.read] := by decide
  delegation_confined_iff (Reference.iam_documented []).accepts_iff accepted

/-- The holder of drive `te` reads drive `team`. -/
theorem crossedChain_amplifies :
    (Reference.iam []).Documented Reference.verifier ∧
      authorizeReq (Reference.iam []) (Reference.node 1) [] "team" (.stat "/secret")
        (Reference.node 3) crossedChain 0 [] = .ok [Ability.read] ∧
      ¬ ∀ link ∈ crossedChain, CoversOp "team" (.stat "/secret") link := by
  refine ⟨Reference.iam_documented [], by decide, fun covers => ?_⟩
  obtain ⟨scope, parsed, _⟩ := covers _ (List.mem_cons_self ..) _ rfl
  have other : parseDrivePrefix (driveCaveatPrefix "te" "/") = some ("te", "/") := by decide
  rw [other] at parsed
  exact absurd (Prod.mk.inj (Option.some.inj parsed)).1 (by decide)

end DriveServe
