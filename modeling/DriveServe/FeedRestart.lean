import DriveServe.FeedClients

set_option autoImplicit false

/-! Cursors held over a restart of the host. The feed that follows numbers its
changes from 1 again and knows nothing of the cursors handed out before. -/

namespace DriveServe

namespace FeedSystem

/-- A client and the feed running now: it gets the changes numbered above where it
stood when that feed began, or when it joined, and no others. -/
structure Resumed (system : FeedSystem) (index : Nat) (client : FeedClient) : Prop where
  handed : ∀ change, change ∈ client.received ↔
    change ∈ system.feed.changes ∧ client.start < change.seq ∧ change.seq ≤ client.cursor
  unmoved : system.feed.cursor ≤ client.cursor →
    ∀ limit, system.feed.poll client.cursor limit = ([], client.cursor)
  returned : ∀ more later, Runs.Run step Quiet system more later →
    system.feed.cursor - client.cursor ≤ more.countP (isPollOf index) →
    ∃ after, later.clients[index]? = some after ∧
      ∀ change, change ∈ after.received ↔
        change ∈ later.feed.changes ∧ client.start < change.seq

theorem poll_unmoved {feed : Feed} {cursor : Nat} (beyond : feed.cursor ≤ cursor) (limit : Nat) :
    feed.poll cursor limit = ([], cursor) := by
  have empty := (feed.poll_empty_iff cursor limit).mpr beyond
  have kept := feed.poll_cursor cursor limit
  rw [empty, List.length_nil, Nat.add_zero] at kept
  exact Prod.ext empty kept

/-- While the host runs a client keeps its index and where it began, and its cursor
does not go back. -/
theorem running_client {first last : FeedSystem} {events : List FeedEvent}
    (run : Runs.Run step Running first events last) {index : Nat} {client : FeedClient}
    (found : first.clients[index]? = some client) :
    ∃ after, last.clients[index]? = some after ∧ after.start = client.start ∧
      client.cursor ≤ after.cursor := by
  induction run with
  | nil => exact ⟨client, found, rfl, Nat.le_refl _⟩
  | @snoc middle last events event _ running taken ih =>
    obtain ⟨before, present, same, reached⟩ := ih
    by_cases quiet : Quiet middle event
    · obtain ⟨after, stays, moved⟩ := quiet_client quiet taken present
      refine ⟨after, stays, ?_⟩
      rcases moved with ⟨limit, _, rfl⟩ | ⟨_, rfl⟩
      · refine ⟨same, ?_⟩
        have moved := middle.feed.poll_cursor before.cursor limit
        change client.cursor ≤ (middle.feed.poll before.cursor limit).2
        omega
      · exact ⟨same, reached⟩
    · cases step_cases taken with
      | record => exact ⟨before, present, same, reached⟩
      | join | poll => exact absurd trivial quiet
      | restart => exact absurd rfl running

theorem reading_handed {feed : Feed} {client : FeedClient} (reading : Reading feed client)
    (change : Change) : change ∈ client.received ↔
      change ∈ feed.changes ∧ client.start < change.seq ∧ change.seq ≤ client.cursor := by
  rw [reading.2.2]
  exact feed.numbered.mem_between

theorem quiet_tail {first last : FeedSystem} {events : List FeedEvent}
    (run : Runs.Run step Quiet first events last) {index : Nat} {client : FeedClient}
    (found : first.clients[index]? = some client)
    (enough : first.feed.cursor - client.cursor ≤ events.countP (isPollOf index)) :
    ∃ after, last.clients[index]? = some after ∧ after.start = client.start ∧
      last.feed.cursor ≤ after.cursor := by
  have running : Runs.Run step Running first events last := by
    apply run.weaken
    intro system event quiet restart
    rw [restart] at quiet
    exact quiet
  obtain ⟨after, present, same, reached⟩ := running_client running found
  refine ⟨after, present, same, ?_⟩
  rw [quiet_feed run]
  by_cases within : client.cursor ≤ first.feed.cursor
  · obtain ⟨other, stays, bounded, progress⟩ := quiet_progress run found within
    obtain rfl : after = other := Option.some.inj (present.symm.trans stays)
    omega
  · omega

theorem mem_seq_le {feed : Feed} {change : Change} (member : change ∈ feed.changes) :
    change.seq ≤ feed.cursor := by
  obtain ⟨index, inside, rfl⟩ := List.mem_iff_getElem.mp member
  rw [feed.numbered.getElem inside, Feed.cursor_eq_length]
  omega

/-- Over any number of restarts a client that passes back the cursor it got is
handed exactly the changes of the running feed above the cursor it came with. -/
theorem resume_after_restarts {events : List FeedEvent} {system : FeedSystem}
    (run : Runs.Free step initial events system) (index : Nat) (client : FeedClient)
    (found : system.clients[index]? = some client) : Resumed system index client where
  handed := reading_handed (run_reading run client (List.mem_of_getElem? found))
  unmoved beyond limit := poll_unmoved beyond limit
  returned more later quiet enough := by
    obtain ⟨after, present, same, tail⟩ := quiet_tail quiet found enough
    refine ⟨after, present, fun change => ?_⟩
    have whole := run.append (quiet.weaken fun _ _ _ => trivial)
    have reading := run_reading whole after (List.mem_of_getElem? present)
    rw [reading_handed reading, same]
    constructor
    · exact fun ⟨member, above, _⟩ => ⟨member, above⟩
    · rintro ⟨member, above⟩
      have last := mem_seq_le member
      exact ⟨member, above, by omega⟩

/-- A client reads one change, the host restarts and records another. -/
def restartEvents : List FeedEvent :=
  [.record "/a" "n1" .created "e1", .join 0, .poll 0 10, .restart,
    .record "/b" "n2" .created "e2"]

def restartSystem : FeedSystem := (Runs.exec step initial restartEvents).getD initial

theorem restartSystem_run : Runs.Free step initial restartEvents restartSystem :=
  Runs.exec_run rfl fun _ _ _ => trivial

theorem restartSystem_resumed : Resumed restartSystem 0 (FeedClient.standing 1) :=
  resume_after_restarts restartSystem_run 0 (FeedClient.standing 1) rfl

/-- The client's next poll answers as if nothing were new, and however the host runs
on, the change recorded since its last poll never reaches it. -/
theorem restartSystem_loses_silently :
    Runs.exec step initial restartEvents = some restartSystem ∧
      restartSystem.clients[0]? = some (FeedClient.standing 1) ∧
      (∀ limit, restartSystem.feed.poll 1 limit = ([], 1)) ∧
      ∃ change ∈ restartSystem.feed.changes, change.path = "/b" ∧
        ∀ more later, Runs.Run step Running restartSystem more later →
          ∃ after, later.clients[0]? = some after ∧ 1 ≤ after.cursor ∧
            change ∉ after.received := by
  have present : restartSystem.clients[0]? = some (FeedClient.standing 1) := rfl
  refine ⟨rfl, present, fun limit => poll_unmoved (Nat.le_refl 1) limit,
    { seq := 1, path := "/b", nodeId := "n2", kind := .created, etag := "e2" },
    List.mem_singleton.mpr rfl, rfl, fun more later running => ?_⟩
  obtain ⟨after, stays, same, reached⟩ := running_client running present
  refine ⟨after, stays, reached, fun member => ?_⟩
  have whole := restartSystem_run.append (running.weaken fun _ _ _ => trivial)
  have reading := run_reading whole after (List.mem_of_getElem? stays)
  have above := ((reading_handed reading _).mp member).2.1
  rw [same] at above
  exact absurd above (Nat.lt_irrefl 1)

end FeedSystem

end DriveServe
