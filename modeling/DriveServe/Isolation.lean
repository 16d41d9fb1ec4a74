import DriveServe.Calls
import DriveServe.ReferenceDrive

set_option autoImplicit false

/-! What a request leaves behind: nothing where it is refused, and otherwise at most one
change of the one drive it names. -/

namespace DriveServe

section

variable {δ σ ε : Type}

/-- At most one change is told, and only after a mutation of the drive succeeded. -/
def RecordedAfter (core : SyncedDrive δ σ ε) (env : ε) (before after : Tenant δ) : Prop :=
  after.feed = before.feed ∨
    ∃ call answer change, core.call env before.drive call = (.ok answer, after.drive) ∧
      after.feed.changes = before.feed.changes ++ [change]

structure Isolated (host : Host δ σ ε) (world : World ε) (registry : Registry δ)
    (fromHex : String) (req : DriveReq) : Prop where
  refused : ∀ e, (dispatch host world registry fromHex req).reply = .error e →
    ∀ driveId, (dispatch host world registry fromHex req).registry.get driveId =
      registry.get driveId
  apart : ∀ other, other ≠ req.drive →
    (dispatch host world registry fromHex req).registry.get other = registry.get other
  named : ∀ before, registry.get req.drive = some before →
    ∃ after, (dispatch host world registry fromHex req).registry.get req.drive = some after ∧
      RecordedAfter host.core world.env before after ∧
      (requiredAbility req.op = Ability.read →
        after.drive = before.drive ∧ after.feed = before.feed)

variable {host : Host δ σ ε} {world : World ε} {op : DriveOp} {registry : Registry δ}
  {tenant after : Tenant δ}

theorem effect_refused (clean : host.core.FailsUnchanged) {reply : DriveReply} {e : DriveErr}
    (effect : Effect host world op tenant reply after) (refused : reply = .error e) :
    after = tenant := by
  cases effect with
  | kept => rfl
  | failed call reason drive verb made =>
    have same : drive = tenant.drive := clean _ _ _ _ _ made
    rw [same]
  | recorded | silent | published => cases refused

theorem effect_recorded {reply : DriveReply} (effect : Effect host world op tenant reply after) :
    RecordedAfter host.core world.env tenant after := by
  cases effect with
  | kept | failed | silent | published => exact Or.inl rfl
  | recorded call answer drive path nodeId kind etag _ _ made =>
    exact Or.inr ⟨call, answer, _, made, Feed.record_changes ..⟩

theorem dispatchInner_reading {req : DriveReq} (reading : requiredAbility req.op = Ability.read)
    (found : registry.get req.drive = some tenant) (fromHex : String)
    (chain : List SignedCapability) :
    ∃ after, (dispatchInner host world registry fromHex chain req).registry.get req.drive =
        some after ∧ after.drive = tenant.drive ∧ after.feed = tenant.feed := by
  obtain ⟨drive, cap, op⟩ := req
  cases op with
  | openDrive => exact opOpen_drive found chain
  | stat | list | read | share | poll | watch | metaOf | backlinks | versions =>
    exact ⟨tenant, found, rfl, rfl⟩
  | write | mkdir | move | copy | delete | setProp | tag | link =>
    have apart : Ability.write ≠ Ability.read := by decide
    exact absurd reading apart

/-- A refused request leaves every drive, its feed and its snapshot; any other leaves all
drives but the one it names, tells of at most one change there, after the mutation it is
about, and leaves drive and feed where it only reads. -/
theorem dispatch_isolated (clean : host.core.FailsUnchanged) (world : World ε)
    (registry : Registry δ) (fromHex : String) (req : DriveReq) :
    Isolated host world registry fromHex req := by
  have apart : ∀ other, other ≠ req.drive →
      (dispatch host world registry fromHex req).registry.get other = registry.get other :=
    fun other differ => dispatch_get_of_ne host world registry fromHex req differ
  cases gate : admission host world fromHex req with
  | error e =>
    refine ⟨?_, apart, ?_⟩
    · intro _ _ driveId
      rw [dispatch_refused gate]
      rfl
    · intro before found
      rw [dispatch_refused gate]
      exact ⟨before, found, Or.inl rfl, fun _ => ⟨rfl, rfl⟩⟩
  | ok chain =>
    have effect := fun tenant (found : registry.get req.drive = some tenant) =>
      @dispatchInner_effect _ _ _ host world tenant registry fromHex chain req found
    refine ⟨?_, apart, ?_⟩
    · intro e refused driveId
      by_cases named : driveId = req.drive
      · rw [dispatch_admitted gate] at refused ⊢
        rw [named]
        cases found : registry.get req.drive with
        | none => rw [dispatchInner_missing found, found]
        | some tenant =>
          obtain ⟨after, stored, ended⟩ := effect tenant found
          rw [stored, effect_refused clean ended refused]
      · exact apart driveId named
    · intro before found
      rw [dispatch_admitted gate]
      obtain ⟨after, stored, ended⟩ := effect before found
      refine ⟨after, stored, effect_recorded ended, fun reading => ?_⟩
      obtain ⟨same, held, kept⟩ := @dispatchInner_reading _ _ _ host world _ _ _ reading found
        fromHex chain
      rw [stored] at held
      rw [Option.some.inj held]
      exact kept

end

open Reference in
theorem teamRegistry_isolated :
    Isolated (host [("grant", [grant "/"])] []) (world (some "n2")).toWorld teamRegistry sender
      { drive := "team", cap := "grant", op := .mkdir "/d" } :=
  dispatch_isolated core_failsUnchanged _ _ _ _

end DriveServe
