import DriveServe.Caveat
import DriveServe.Iam
import DriveServe.Outcome
import Mathlib.Data.List.Infix

set_option autoImplicit false

/-! The authorization gate: the capability verifier first, then the drive binding
and the path subtree of the chain's last link. -/

namespace DriveServe

namespace Ability

def read : String := "drive:read"

def write : String := "drive:write"

def admin : String := "drive:admin"

end Ability

def requiredAbility : DriveOp → String
  | .openDrive | .stat .. | .list .. | .read .. => Ability.read
  | .write .. | .mkdir .. | .copy .. => Ability.write
  | .move .. | .delete .. => Ability.write
  | .share .. => Ability.admin
  | .poll .. | .watch => Ability.read
  | .metaOf .. | .backlinks .. | .versions .. => Ability.read
  | .setProp .. | .tag .. | .link .. => Ability.write

/-- The path an op touches; `none` is drive-level. -/
def opPath : DriveOp → Option String
  | .stat path | .list path .. | .read path .. | .write path .. | .mkdir path
  | .delete path .. | .share path .. => some path
  | .move _ dst | .copy _ dst => some dst
  | .openDrive | .poll .. | .watch => none
  | .metaOf path | .setProp path .. | .tag path .. | .link path .. | .versions path => some path
  | .backlinks .. => none

/-- The second path of `Move` and `Copy`. -/
def opSource : DriveOp → Option String
  | .move src _ | .copy src _ => some src
  | _ => none

/-- `str::to_lowercase` as far as an ASCII needle can see it: beside the capital
letters only the Kelvin sign turns into an ASCII letter on its own. -/
def lowerChar (c : Char) : Char := if c = '\u212A' then 'k' else c.toLower

def toLowercase (s : String) : String := String.ofList (s.toList.map lowerChar)

def contains (s needle : String) : Bool := decide (needle.toList <:+: s.toList)

def gateError (e : String) : DriveErr :=
  let el := toLowercase e
  if contains el "revoked" then .revoked
  else if contains el "expired" || contains el "not yet valid" then .expired
  else .unauthorized

/-- The revoked `(issuer, nonce)` pairs; only membership is ever asked. -/
abbrev RevokedSet := List (NodeId × Nat)

def isRevoked (revoked : RevokedSet) (issuer : NodeId) (nonce : Nat) : Bool :=
  decide ((issuer, nonce) ∈ revoked)

/-- Gate 2 on the source of a `Move` or `Copy`. -/
def checkSource (pathScope : String) (op : DriveOp) : Except DriveErr Unit :=
  match opSource op with
  | none => .ok ()
  | some src => do
    noDotdot src
    enforcePrefix pathScope src

def checkPaths (pathScope : String) (op : DriveOp) : Except DriveErr Unit :=
  match opPath op with
  | none => .ok ()
  | some path => do
    noDotdot path
    checkSource pathScope op
    enforcePrefix pathScope path

/-- The single authorization gate. Answers the leaf's abilities. -/
def authorizeReq (iam : Iam) (hostId : NodeId) (acceptedRoots : List NodeId) (drive : String)
    (op : DriveOp) (fromNode : NodeId) (chain : List SignedCapability) (now : Nat)
    (revoked : RevokedSet) : Except DriveErr (List String) := do
  (iam.authorize hostId acceptedRoots [] now fromNode (requiredAbility op) chain
    (isRevoked revoked)).mapError gateError
  let leaf ← Outcome.okOr chain.getLast? .unauthorized
  let boundPrefix ← Outcome.okOr leaf.cap.caveats.pathPrefix .unauthorized
  let bound ← Outcome.okOr (parseDrivePrefix boundPrefix) .unauthorized
  Outcome.ensure (bound.1 = drive) .outOfScope
  checkPaths bound.2 op
  return leaf.cap.abilities

def opPaths (op : DriveOp) : List String := (opSource op).toList ++ (opPath op).toList

theorem mem_opPaths_of_source {op : DriveOp} {path : String} (source : opSource op = some path) :
    path ∈ opPaths op :=
  List.mem_append_left _ (Option.mem_toList.mpr source)

theorem mem_opPaths_of_target {op : DriveOp} {path : String} (target : opPath op = some path) :
    path ∈ opPaths op :=
  List.mem_append_right _ (Option.mem_toList.mpr target)

/-- A path that passes the traversal guard and lies in a scope. -/
structure Admitted (scope path : String) : Prop where
  straight : noDotdot path = .ok ()
  inScope : enforcePrefix scope path = .ok ()

theorem opSource_of_opPath_none {op : DriveOp} (drivewide : opPath op = none) :
    opSource op = none := by
  cases op <;> first | rfl | cases drivewide

theorem checkSource_ok_iff (scope : String) (op : DriveOp) (u : Unit) :
    checkSource scope op = .ok u ↔ ∀ path ∈ opSource op, Admitted scope path := by
  unfold checkSource
  cases opSource op with
  | none => simp
  | some src =>
    simp only [Outcome.bind_eq_ok_iff, Option.mem_def, Option.some_inj, forall_eq']
    constructor
    · rintro ⟨_, straight, inScope⟩
      exact ⟨straight, inScope⟩
    · intro admitted
      exact ⟨(), admitted.straight, admitted.inScope⟩

theorem checkPaths_ok_iff (scope : String) (op : DriveOp) (u : Unit) :
    checkPaths scope op = .ok u ↔ ∀ path ∈ opPaths op, Admitted scope path := by
  unfold checkPaths opPaths
  cases target : opPath op with
  | none => simp [opSource_of_opPath_none target]
  | some path =>
    simp only [Outcome.bind_eq_ok_iff, checkSource_ok_iff, List.mem_append, Option.mem_toList]
    constructor
    · rintro ⟨_, straight, _, source, inScope⟩ p (member | member)
      · exact source p member
      · obtain rfl : path = p := Option.some.inj member
        exact ⟨straight, inScope⟩
    · intro admitted
      have only := admitted path (Or.inr rfl)
      exact ⟨(), only.straight, (), fun p member => admitted p (Or.inl member), only.inScope⟩

/-- The drive binding of a capability, as gate 2 reads it. -/
def boundScope (link : SignedCapability) : Option (String × String) :=
  link.cap.caveats.pathPrefix.bind parseDrivePrefix

structure Bound (leaf : SignedCapability) (drive scope : String) (op : DriveOp) : Prop where
  binding : boundScope leaf = some (drive, scope)
  admitted : ∀ path ∈ opPaths op, Admitted scope path

/-- What the gate's acceptance says, entirely. -/
theorem authorizeReq_ok_iff (iam : Iam) (hostId : NodeId) (acceptedRoots : List NodeId)
    (drive : String) (op : DriveOp) (fromNode : NodeId) (chain : List SignedCapability)
    (now : Nat) (revoked : RevokedSet) (granted : List String) :
    authorizeReq iam hostId acceptedRoots drive op fromNode chain now revoked = .ok granted ↔
      iam.authorize hostId acceptedRoots [] now fromNode (requiredAbility op) chain
          (isRevoked revoked) = .ok () ∧
        ∃ leaf scope, chain.getLast? = some leaf ∧ Bound leaf drive scope op ∧
          granted = leaf.cap.abilities := by
  unfold authorizeReq
  simp only [Outcome.bind_eq_ok_iff, Outcome.mapError_eq_ok_iff, Outcome.okOr_eq_ok_iff,
    Outcome.ensure_eq_ok_iff, checkPaths_ok_iff]
  constructor
  · rintro ⟨_, verified, leaf, last, boundPrefix, caveat, ⟨boundDrive, scope⟩, parsed, _, same,
      _, paths, answer⟩
    obtain rfl : boundDrive = drive := same
    refine ⟨verified, leaf, scope, last, ⟨?_, paths⟩, (Except.ok.inj answer).symm⟩
    rw [boundScope, caveat]
    exact parsed
  · rintro ⟨verified, leaf, scope, last, ⟨binding, admitted⟩, rfl⟩
    obtain ⟨boundPrefix, caveat, parsed⟩ := Option.bind_eq_some_iff.mp binding
    exact ⟨(), verified, leaf, last, boundPrefix, caveat, (drive, scope), parsed, (), rfl, (),
      admitted, rfl⟩

/-- What gate 2 let pass, by the leaf and the scope of the chain. -/
theorem admitted_of_accepted {iam : Iam} {hostId : NodeId} {acceptedRoots : List NodeId}
    {drive : String} {op : DriveOp} {fromNode : NodeId} {chain : List SignedCapability} {now : Nat}
    {revoked : RevokedSet} {granted : List String}
    (accepted : authorizeReq iam hostId acceptedRoots drive op fromNode chain now revoked =
      .ok granted)
    {leaf : SignedCapability} (last : chain.getLast? = some leaf) {scope : String}
    (binding : boundScope leaf = some (drive, scope)) :
    ∀ path ∈ opPaths op, Admitted scope path := by
  obtain ⟨_, found, other, foundLast, bound, _⟩ := (authorizeReq_ok_iff ..).mp accepted
  obtain rfl : leaf = found := Option.some.inj (last.symm.trans foundLast)
  obtain ⟨_, rfl⟩ := Prod.mk.inj (Option.some.inj (binding.symm.trans bound.binding))
  exact bound.admitted

end DriveServe
