import DriveServe.Feed
import DriveServe.Runs

set_option autoImplicit false

/-! One feed and any number of clients that page through it, each passing back
the cursor it got. A restart of the host begins an empty feed and leaves the
clients their cursors. -/

namespace DriveServe

/-- A client's cursor, and what it was handed by the feed that is running now
since it stood at `start`. -/
structure FeedClient where
  start : Nat
  cursor : Nat
  received : List Change
  deriving DecidableEq, Repr

namespace FeedClient

def standing (cursor : Nat) : FeedClient := { start := cursor, cursor, received := [] }

def read (client : FeedClient) (feed : Feed) (limit : Nat) : FeedClient :=
  let (page, newCursor) := feed.poll client.cursor limit
  { client with cursor := newCursor, received := client.received ++ page }

end FeedClient

structure FeedSystem where
  feed : Feed
  clients : List FeedClient

inductive FeedEvent where
  | record (path nodeId : String) (kind : ChangeKind) (etag : String)
  | join (cursor : Nat)
  | poll (index limit : Nat)
  | restart

namespace FeedSystem

def initial : FeedSystem := { feed := Feed.new, clients := [] }

def step (system : FeedSystem) : FeedEvent → Option FeedSystem
  | .record path nodeId kind etag =>
    some { system with feed := (system.feed.record path nodeId kind etag).2 }
  | .join cursor =>
    if cursor ≤ system.feed.cursor then
      some { system with clients := system.clients ++ [FeedClient.standing cursor] }
    else none
  | .poll index limit =>
    match system.clients[index]? with
    | none => none
    | some client =>
      some { system with clients := system.clients.set index (client.read system.feed limit) }
  -- `Tenant::new` and `Tenant::from_state` both begin with `Feed::new()`
  | .restart =>
    some { feed := Feed.new, clients := system.clients.map fun client => .standing client.cursor }

inductive Stepped (system : FeedSystem) : FeedEvent → FeedSystem → Prop
  | record (path nodeId : String) (kind : ChangeKind) (etag : String) :
      Stepped system (.record path nodeId kind etag)
        { system with feed := (system.feed.record path nodeId kind etag).2 }
  | join (cursor : Nat) (inside : cursor ≤ system.feed.cursor) :
      Stepped system (.join cursor)
        { system with clients := system.clients ++ [FeedClient.standing cursor] }
  | poll (index limit : Nat) (client : FeedClient) (found : system.clients[index]? = some client) :
      Stepped system (.poll index limit)
        { system with clients := system.clients.set index (client.read system.feed limit) }
  | restart : Stepped system .restart
      { feed := Feed.new, clients := system.clients.map fun client => .standing client.cursor }

theorem step_cases {system next : FeedSystem} {event : FeedEvent}
    (taken : step system event = some next) : Stepped system event next := by
  cases event with
  | record path nodeId kind etag =>
    cases taken
    exact .record path nodeId kind etag
  | join cursor =>
    simp only [step] at taken
    split at taken
    · rename_i inside
      cases taken
      exact .join cursor inside
    · cases taken
  | poll index limit =>
    simp only [step] at taken
    split at taken
    · cases taken
    · rename_i client found
      cases taken
      exact .poll index limit client found
  | restart =>
    cases taken
    exact .restart

/-- What each client was handed is the run of changes from where it stood to its
cursor; the cursor is past the tail only where it has not moved. -/
def Reading (feed : Feed) (client : FeedClient) : Prop :=
  client.start ≤ client.cursor ∧
    (client.cursor ≤ feed.cursor ∨ client.cursor = client.start) ∧
    client.received = Numbered.between feed.changes client.start client.cursor

theorem reading_standing (feed : Feed) (cursor : Nat) :
    Reading feed (FeedClient.standing cursor) :=
  ⟨Nat.le_refl _, Or.inr rfl, (Numbered.between_self feed.changes cursor).symm⟩

theorem reading_record {feed : Feed} {client : FeedClient} (reading : Reading feed client)
    (path nodeId : String) (kind : ChangeKind) (etag : String) :
    Reading (feed.record path nodeId kind etag).2 client := by
  obtain ⟨started, placed, received⟩ := reading
  refine ⟨started, ?_, ?_⟩
  · rw [Feed.record_cursor]
    omega
  · rw [received, Feed.record_changes, Numbered.between_append]
    rwa [← Feed.cursor_eq_length]

theorem reading_read {feed : Feed} {client : FeedClient} (reading : Reading feed client)
    (limit : Nat) : Reading feed (client.read feed limit) := by
  obtain ⟨started, placed, received⟩ := reading
  have moved := feed.poll_cursor client.cursor limit
  refine ⟨?_, ?_, ?_⟩
  · change client.start ≤ (feed.poll client.cursor limit).2
    omega
  · change (feed.poll client.cursor limit).2 ≤ feed.cursor ∨
      (feed.poll client.cursor limit).2 = client.start
    by_cases inside : client.cursor ≤ feed.cursor
    · exact Or.inl (feed.poll_within limit inside)
    · have beyond : feed.cursor ≤ client.cursor := by omega
      have empty := (feed.poll_empty_iff client.cursor limit).mpr beyond
      rw [empty, List.length_nil] at moved
      omega
  · change client.received ++ (feed.poll client.cursor limit).1 =
      Numbered.between feed.changes client.start (feed.poll client.cursor limit).2
    rw [received, moved, Feed.poll_page]
    exact Numbered.between_page feed.changes started

/-- A relation of each client to the feed survives a step when each of the four
moves keeps it. -/
theorem step_clients {P : Feed → FeedClient → Prop} {system next : FeedSystem}
    {event : FeedEvent} (taken : step system event = some next)
    (recorded : ∀ client path nodeId kind etag, P system.feed client →
      P (system.feed.record path nodeId kind etag).2 client)
    (joined : ∀ cursor, cursor ≤ system.feed.cursor → P system.feed (.standing cursor))
    (polled : ∀ client limit, P system.feed client → P system.feed (client.read system.feed limit))
    (restarted : event = .restart → ∀ cursor, P Feed.new (.standing cursor))
    (before : ∀ client ∈ system.clients, P system.feed client) :
    ∀ client ∈ next.clients, P next.feed client := by
  cases step_cases taken with
  | record path nodeId kind etag =>
    intro client member
    exact recorded client path nodeId kind etag (before client member)
  | join cursor inside =>
    intro client member
    rcases List.mem_append.mp member with old | new
    · exact before client old
    · rw [List.mem_singleton.mp new]
      exact joined cursor inside
  | poll index limit client found =>
    intro other member
    rcases List.mem_or_eq_of_mem_set member with old | rfl
    · exact before other old
    · exact polled client limit (before client (List.mem_of_getElem? found))
  | restart =>
    intro client member
    obtain ⟨old, _, rfl⟩ := List.mem_map.mp member
    exact restarted rfl old.cursor

theorem run_reading {ok : FeedSystem → FeedEvent → Prop} {last : FeedSystem}
    {events : List FeedEvent} (run : Runs.Run step ok initial events last) :
    ∀ client ∈ last.clients, Reading last.feed client := by
  apply @Runs.Run.invariant _ _ _ _ (fun system => ∀ client ∈ system.clients,
    Reading system.feed client) _ _ _ run
  · intro client member
    cases member
  · intro system event next before _ taken
    exact step_clients taken (fun _ path nodeId kind etag reading =>
      reading_record reading path nodeId kind etag) (fun cursor _ => reading_standing _ cursor)
      (fun _ limit reading => reading_read reading limit)
      (fun _ cursor => reading_standing _ cursor) before

def Running (_ : FeedSystem) (event : FeedEvent) : Prop := event ≠ .restart

def Quiet (_ : FeedSystem) : FeedEvent → Prop
  | .record .. | .restart => False
  | .join .. | .poll .. => True

theorem running_within {last : FeedSystem} {events : List FeedEvent}
    (run : Runs.Run step Running initial events last) :
    ∀ client ∈ last.clients, client.cursor ≤ last.feed.cursor := by
  apply @Runs.Run.invariant _ _ _ _ (fun system => ∀ client ∈ system.clients,
    client.cursor ≤ system.feed.cursor) _ _ _ run
  · intro client member
    cases member
  · intro system event next before running taken
    refine @step_clients (fun feed client => client.cursor ≤ feed.cursor) _ _ _ taken ?_
      (fun _ inside => inside) (fun _ limit inside => system.feed.poll_within limit inside)
      (fun restart => absurd restart running) before
    intro client path nodeId kind etag inside
    rw [Feed.record_cursor]
    omega

def recorded? : FeedEvent → Option (String × String × ChangeKind × String)
  | .record path nodeId kind etag => some (path, nodeId, kind, etag)
  | _ => none

def content (change : Change) : String × String × ChangeKind × String :=
  (change.path, change.nodeId, change.kind, change.etag)

/-- Without a restart the feed holds everything that was ever recorded. -/
theorem running_content {last : FeedSystem} {events : List FeedEvent}
    (run : Runs.Run step Running initial events last) :
    last.feed.changes.map content = events.filterMap recorded? := by
  generalize start : initial = first at run
  induction run with
  | nil => rw [← start]; rfl
  | @snoc middle last events event _ running taken ih =>
    rw [List.filterMap_append, ← ih]
    cases step_cases taken with
    | record => simp [recorded?, content, Feed.next]
    | join | poll => simp [recorded?]
    | restart => exact absurd rfl running

theorem quiet_feed {first last : FeedSystem} {events : List FeedEvent}
    (run : Runs.Run step Quiet first events last) : last.feed = first.feed := by
  apply @Runs.Run.invariant _ _ _ _ (fun system => system.feed = first.feed) _ _ _ run rfl
  intro system event next before quiet taken
  cases step_cases taken with
  | record | restart => exact absurd quiet id
  | join | poll => exact before

/-- A client by index after a step that records nothing and restarts nothing: its
own poll reads on, any other step leaves it as it is. -/
theorem quiet_client {system next : FeedSystem} {event : FeedEvent} (quiet : Quiet system event)
    (taken : step system event = some next) {index : Nat} {client : FeedClient}
    (found : system.clients[index]? = some client) :
    ∃ after, next.clients[index]? = some after ∧
      ((∃ limit, event = .poll index limit ∧ after = client.read system.feed limit) ∨
        ((∀ limit, event ≠ .poll index limit) ∧ after = client)) := by
  have inside : index < system.clients.length := (List.getElem?_eq_some_iff.mp found).1
  cases step_cases taken with
  | record | restart => exact absurd quiet id
  | join cursor =>
    refine ⟨client, ?_, Or.inr ⟨nofun, rfl⟩⟩
    rw [List.getElem?_append_left inside, found]
  | poll other limit reader present =>
    by_cases same : other = index
    · subst same
      obtain rfl : reader = client := Option.some.inj (present.symm.trans found)
      refine ⟨reader.read system.feed limit, ?_, Or.inl ⟨limit, rfl, rfl⟩⟩
      exact List.getElem?_set_self inside
    · refine ⟨client, ?_, Or.inr ⟨?_, rfl⟩⟩
      · rw [← found]
        exact List.getElem?_set_ne same
      · intro _ equal
        injection equal with equal
        exact same equal

def isPollOf (index : Nat) : FeedEvent → Bool
  | .poll other _ => other == index
  | _ => false

/-- While nothing is recorded, each poll of a client takes it one further at least,
until it stands at the tail. -/
theorem quiet_progress {first last : FeedSystem} {events : List FeedEvent}
    (run : Runs.Run step Quiet first events last) {index : Nat} {client : FeedClient}
    (found : first.clients[index]? = some client) (within : client.cursor ≤ first.feed.cursor) :
    ∃ after, last.clients[index]? = some after ∧ after.cursor ≤ first.feed.cursor ∧
      min first.feed.cursor (client.cursor + events.countP (isPollOf index)) ≤ after.cursor := by
  induction run with
  | nil => exact ⟨client, found, within, Nat.min_le_right ..⟩
  | @snoc middle last events event run quiet taken ih =>
    obtain ⟨before, present, bounded, reached⟩ := ih
    obtain ⟨after, stays, moved⟩ := quiet_client quiet taken present
    refine ⟨after, stays, ?_⟩
    rw [List.countP_append]
    rw [quiet_feed run] at moved
    rcases moved with ⟨limit, rfl, rfl⟩ | ⟨other, rfl⟩
    · have one : [FeedEvent.poll index limit].countP (isPollOf index) = 1 := by simp [isPollOf]
      have upper : (before.read first.feed limit).cursor ≤ first.feed.cursor :=
        first.feed.poll_within limit bounded
      refine ⟨upper, ?_⟩
      by_cases behind : before.cursor < first.feed.cursor
      · have advance : before.cursor < (before.read first.feed limit).cursor :=
          first.feed.poll_advances limit behind
        omega
      · have still : before.cursor ≤ (before.read first.feed limit).cursor := by
          have moved := first.feed.poll_cursor before.cursor limit
          change before.cursor ≤ (first.feed.poll before.cursor limit).2
          omega
        omega
    · have none : [event].countP (isPollOf index) = 0 := by
        cases event <;> simp_all [isPollOf]
      exact ⟨bounded, by omega⟩

/-- What a client by index has been handed, and what it can still get. -/
structure ServedOnce (system : FeedSystem) (index : Nat) (client : FeedClient) : Prop where
  received : client.received = Numbered.between system.feed.changes client.start client.cursor
  numbers : client.received.map Change.seq =
    List.range' (client.start + 1) (client.cursor - client.start)
  tail : ∀ limit, (system.feed.poll client.cursor limit).1 = [] →
    client.cursor = system.feed.cursor
  reaches : ∀ more later, Runs.Run step Quiet system more later →
    system.feed.cursor - client.cursor ≤ more.countP (isPollOf index) →
    ∃ after, later.clients[index]? = some after ∧ after.cursor = later.feed.cursor

/-- The feed numbers what was recorded from 1 on, and every client has been handed
exactly the changes behind the cursor it started from up to the one it holds. -/
structure ExactlyOnce (events : List FeedEvent) (system : FeedSystem) : Prop where
  numbered : system.feed.changes.map Change.seq = List.range' 1 system.feed.changes.length
  recorded : system.feed.changes.map content = events.filterMap recorded?
  served : ∀ index client, system.clients[index]? = some client →
    ServedOnce system index client

theorem poll_exactly_once {events : List FeedEvent} {system : FeedSystem}
    (run : Runs.Run step Running initial events system) : ExactlyOnce events system := by
  refine ⟨system.feed.numbered, running_content run, fun index client found => ?_⟩
  have member := List.mem_of_getElem? found
  have within := running_within run client member
  have received := (run_reading run client member).2.2
  refine ⟨received, ?_, fun limit empty => ?_, fun more later quiet enough => ?_⟩
  · rw [received]
    apply system.feed.numbered.between_numbers
    rwa [← Feed.cursor_eq_length]
  · have tail := (system.feed.poll_empty_iff client.cursor limit).mp empty
    omega
  · obtain ⟨after, present, bounded, reached⟩ := quiet_progress quiet found within
    refine ⟨after, present, ?_⟩
    rw [quiet_feed quiet]
    omega

/-- Two clients, one of them late, with pages of different sizes between records. -/
def pagedEvents : List FeedEvent :=
  [.join 0, .record "/a" "n1" .created "e1", .poll 0 0, .record "/b" "n2" .created "e2",
    .record "/b" "n2" .modified "e3", .join 1, .poll 1 2, .poll 0 1, .poll 1 5]

theorem pagedEvents_exactly_once : ∃ system, Runs.exec step initial pagedEvents = some system ∧
    ExactlyOnce pagedEvents system :=
  ⟨_, rfl, poll_exactly_once (Runs.exec_run rfl (by simp [pagedEvents, Running]))⟩

end FeedSystem

end DriveServe
