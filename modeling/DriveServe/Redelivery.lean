import DriveServe.Inbound
import DriveServe.ReferenceDrive
import DriveServe.Runs

set_option autoImplicit false

/-! A message that the mesh delivers again. The serve loop remembers the tokens it has
handed to a handler, and throws them all away when they get too many. -/

namespace DriveServe

open Corpus

variable {δ σ ε : Type}

/-- The token under which a message gets past the filter and the dedup, to its handler. -/
def handedToken (seen : List Nat) (m : AppMessage) : Option Nat :=
  match m.replyToken with
  | none => none
  | some token =>
    if m.topic ≠ driveTopic ∧ m.topic ≠ itemsTopic then none
    else if token ∈ seen then none
    else some token

/-- What the handler makes of a message it is handed: the registry, a reply and a
beacon. A payload that is not hexadecimal is not answered. -/
def handleMessage (host : Host δ σ ε) (world : World ε) (registry : Registry δ) (token : Nat)
    (m : AppMessage) : Option (Registry δ × Option (Nat × InboundReply) × Option Announcement) :=
  match hexDecode m.payloadHex.toList with
  | none => some (registry, none, none)
  | some payload =>
    if m.topic = itemsTopic then
      (answerItems host world registry payload).map fun reply =>
        (registry, some (token, .items reply), none)
    else
      let served := answerMessage host world registry m.fromHex payload
      some (served.registry, some (token, .drive served.reply), served.beacon)

/-- A message is handed to its handler, or nothing is done about it at all. -/
theorem handleInbound_handed (host : Host δ σ ε) (world : World ε) (registry : Registry δ)
    (seen : List Nat) (m : AppMessage) :
    handleInbound host world registry seen m =
      match handedToken seen m with
      | none => some { registry, seen, reply := none, beacon := none }
      | some token =>
        (handleMessage host world registry token m).map fun (registry, reply, beacon) =>
          { registry, seen := remember seen token, reply, beacon } := by
  unfold handleInbound handedToken handleMessage
  cases m.replyToken with
  | none => rfl
  | some token =>
    dsimp only
    by_cases foreign : m.topic ≠ driveTopic ∧ m.topic ≠ itemsTopic
    · rw [if_pos foreign, if_pos foreign]
    · rw [if_neg foreign, if_neg foreign]
      by_cases known : token ∈ seen
      · rw [if_pos known, if_pos known]
      · rw [if_neg known, if_neg known]
        cases hexDecode m.payloadHex.toList with
        | none => rfl
        | some payload =>
          dsimp only
          split
          · rw [Option.map_map]
            rfl
          · rfl

/-- What it is for `handedToken` to say whether `handleInbound` hands a message over: what it
does is what the handler does then, and else nothing. -/
structure HandsOver (host : Host δ σ ε) : Prop where
  skipped : ∀ (world : World ε) (registry : Registry δ) (seen : List Nat) (m : AppMessage),
    handedToken seen m = none →
      handleInbound host world registry seen m =
        some { registry, seen, reply := none, beacon := none }
  handed : ∀ (world : World ε) (registry : Registry δ) (seen : List Nat) (m : AppMessage)
    (token : Nat), handedToken seen m = some token →
      handleInbound host world registry seen m =
        (handleMessage host world registry token m).map fun handled =>
          { registry := handled.1, seen := remember seen token, reply := handled.2.1,
            beacon := handled.2.2 }

theorem handsOver (host : Host δ σ ε) : HandsOver host where
  skipped world registry seen m passed := by rw [handleInbound_handed, passed]
  handed world registry seen m token passed := by rw [handleInbound_handed, passed]

/-- One message that was delivered with a token: whether it is on a topic that is served,
the tokens handed over before it, the latest first, and whether it was handed over. -/
structure Delivery where
  token : Nat
  served : Bool
  earlier : List Nat
  handed : Bool

structure ServeLoop (δ : Type) where
  registry : Registry δ
  seen : List Nat
  /-- The tokens handed over, the latest first, each once. -/
  handled : List Nat
  /-- How many messages were handed over. -/
  count : Nat
  deliveries : List Delivery

namespace ServeLoop

def start (registry : Registry δ) : ServeLoop δ :=
  { registry, seen := [], handled := [], count := 0, deliveries := [] }

def delivery (loop : ServeLoop δ) (m : AppMessage) : List Delivery :=
  match m.replyToken with
  | none => []
  | some token =>
    [{ token, served := decide (m.topic = driveTopic ∨ m.topic = itemsTopic),
       earlier := loop.handled, handed := (handedToken loop.seen m).isSome }]

def handledAfter (loop : ServeLoop δ) (m : AppMessage) : List Nat :=
  match handedToken loop.seen m with
  | none => loop.handled
  | some token => token :: loop.handled.filter (· != token)

def countAfter (loop : ServeLoop δ) (m : AppMessage) : Nat :=
  match handedToken loop.seen m with
  | none => loop.count
  | some _ => loop.count + 1

def deliver (host : Host δ σ ε) (loop : ServeLoop δ) (arrival : World ε × AppMessage) :
    Option (ServeLoop δ) :=
  (handleInbound host arrival.1 loop.registry loop.seen arrival.2).map fun inbound =>
    { registry := inbound.registry, seen := inbound.seen, handled := loop.handledAfter arrival.2,
      count := loop.countAfter arrival.2,
      deliveries := loop.deliveries ++ loop.delivery arrival.2 }

end ServeLoop

/-- A token among the latest is not handed over a second time, and one that never was
is, on the topics that are served. -/
structure Delivery.Right (d : Delivery) : Prop where
  once : d.token ∈ d.earlier.take 8191 → d.handed = false
  fresh : d.served = true → d.token ∉ d.earlier → d.handed = true

/-- How many tokens are remembered once so many messages were handed over: the first and
then every 8192nd of them starts the memory anew. -/
def keptTokens (count : Nat) : Nat := if count = 0 then 0 else (count - 1) % 8192 + 1

/-- What the loop remembers is the latest part of its history. -/
structure ServeLoop.Inv (loop : ServeLoop δ) : Prop where
  distinct : loop.handled.Nodup
  kept : keptTokens loop.count ≤ loop.handled.length
  remembers : loop.seen = loop.handled.take (keptTokens loop.count)

theorem ServeLoop.start_inv (registry : Registry δ) : (start registry).Inv :=
  ⟨List.nodup_nil, Nat.le_refl 0, rfl⟩

theorem take_filter_of_notMem {token k : Nat} {l : List Nat} (long : k ≤ l.length)
    (absent : token ∉ l.take k) :
    (l.filter (· != token)).take k = l.take k ∧ k ≤ (l.filter (· != token)).length := by
  have same := List.filter_bne_eq_self_of_not_mem absent
  have split : l.filter (· != token) = l.take k ++ (l.drop k).filter (· != token) := by
    rw [← same, ← List.filter_append, List.take_append_drop]
  have size : (l.take k).length = k := by
    rw [List.length_take]
    omega
  constructor
  · rw [split, List.take_append_of_le_length (by omega), List.take_of_length_le (by omega)]
  · rw [split, List.length_append]
    omega

theorem remember_take {handled : List Nat} {count token : Nat}
    (kept : keptTokens count ≤ handled.length)
    (absent : token ∉ handled.take (keptTokens count)) :
    remember (handled.take (keptTokens count)) token =
        (token :: handled.filter (· != token)).take (keptTokens (count + 1)) ∧
      keptTokens (count + 1) ≤ (token :: handled.filter (· != token)).length := by
  have ⟨same, long⟩ := take_filter_of_notMem kept absent
  have size : (handled.take (keptTokens count)).length = keptTokens count := by
    rw [List.length_take]
    omega
  have next : keptTokens (count + 1) =
      if 8192 < keptTokens count + 1 then 1 else keptTokens count + 1 := by
    unfold keptTokens
    rw [if_neg (Nat.succ_ne_zero count)]
    by_cases first : count = 0
    · rw [if_pos first, if_neg (by omega)]
      omega
    · rw [if_neg first]
      by_cases full : 8192 < (count - 1) % 8192 + 1 + 1
      · rw [if_pos full]
        omega
      · rw [if_neg full]
        omega
  unfold remember
  dsimp only
  rw [List.length_cons, size, next, List.length_cons]
  split
  · refine ⟨?_, by omega⟩
    rw [List.take_succ_cons, List.take_zero]
  · refine ⟨?_, by omega⟩
    rw [List.take_succ_cons, same]

/-- No message repeats a token that is among the latest and was handed over before the
memory was last thrown away. -/
def Spared (loop : ServeLoop δ) (arrival : World ε × AppMessage) : Prop :=
  ∀ token, arrival.2.replyToken = some token →
    arrival.2.topic = driveTopic ∨ arrival.2.topic = itemsTopic →
      token ∉ (loop.handled.take 8191).drop (keptTokens loop.count)

theorem handedToken_eq_some_iff (seen : List Nat) (m : AppMessage) (token : Nat) :
    handedToken seen m = some token ↔ m.replyToken = some token ∧
      (m.topic = driveTopic ∨ m.topic = itemsTopic) ∧ token ∉ seen := by
  unfold handedToken
  cases m.replyToken with
  | none => simp
  | some other => grind

theorem handedToken_isSome_iff (seen : List Nat) {m : AppMessage} {token : Nat}
    (asked : m.replyToken = some token) : (handedToken seen m).isSome = true ↔
      (m.topic = driveTopic ∨ m.topic = itemsTopic) ∧ token ∉ seen := by
  rw [Option.isSome_iff_exists]
  simp only [handedToken_eq_some_iff, asked, Option.some_inj]
  constructor
  · rintro ⟨_, rfl, served, absent⟩
    exact ⟨served, absent⟩
  · exact fun ⟨served, absent⟩ => ⟨token, rfl, served, absent⟩

section

variable {host : Host δ σ ε} {loop next : ServeLoop δ} {arrival : World ε × AppMessage}

theorem ServeLoop.deliver_some (taken : loop.deliver host arrival = some next) :
    next.seen = (match handedToken loop.seen arrival.2 with
      | none => loop.seen
      | some token => remember loop.seen token) ∧
    next.handled = loop.handledAfter arrival.2 ∧ next.count = loop.countAfter arrival.2 ∧
    next.deliveries = loop.deliveries ++ loop.delivery arrival.2 := by
  obtain ⟨inbound, served, rfl⟩ := Option.map_eq_some_iff.mp taken
  refine ⟨?_, rfl, rfl, rfl⟩
  rw [handleInbound_handed] at served
  cases handed : handedToken loop.seen arrival.2 with
  | none =>
    rw [handed] at served
    exact (congrArg Inbound.seen (Option.some.inj served)).symm
  | some token =>
    rw [handed] at served
    obtain ⟨⟨registry, reply, beacon⟩, _, rfl⟩ := Option.map_eq_some_iff.mp served
    rfl

theorem ServeLoop.deliver_inv (inv : loop.Inv) (taken : loop.deliver host arrival = some next) :
    next.Inv := by
  obtain ⟨seen, handled, count, _⟩ := deliver_some taken
  unfold handledAfter at handled
  unfold countAfter at count
  cases handed : handedToken loop.seen arrival.2 with
  | none =>
    rw [handed] at seen handled count
    dsimp only at seen handled count
    refine ⟨?_, ?_, ?_⟩ <;> rw [handled]
    · exact inv.distinct
    · rw [count]
      exact inv.kept
    · rw [seen, count, inv.remembers]
  | some token =>
    rw [handed] at seen handled count
    dsimp only at seen handled count
    have absent := ((handedToken_eq_some_iff ..).mp handed).2.2
    rw [inv.remembers] at absent seen
    have ⟨remembered, long⟩ := remember_take inv.kept absent
    refine ⟨?_, ?_, ?_⟩ <;> rw [handled]
    · rw [List.nodup_cons]
      exact ⟨by simp, inv.distinct.filter _⟩
    · rw [count]
      exact long
    · rw [seen, count, remembered]

/-- One delivery is right exactly where the message is spared by the memory's end. -/
theorem ServeLoop.delivery_right_iff (inv : loop.Inv) (m : AppMessage) (world : World ε) :
    (∀ d ∈ loop.delivery m, d.Right) ↔ Spared loop (world, m) := by
  unfold delivery Spared
  cases asked : m.replyToken with
  | none => simp
  | some token =>
    have handed := handedToken_isSome_iff loop.seen asked
    simp only [List.mem_singleton, forall_eq, Option.some_inj, forall_eq']
    constructor
    · intro right served member
      have recent := right.once (List.mem_of_mem_drop member)
      have short : keptTokens loop.count ≤ 8191 := by
        have some := List.length_pos_of_mem member
        rw [List.length_drop, List.length_take] at some
        omega
      have absent : token ∉ loop.seen := by
        intro known
        rw [inv.remembers] at known
        have apart := List.disjoint_take_drop (inv.distinct.sublist (List.take_sublist 8191 _))
          (Nat.le_refl (keptTokens loop.count))
        rw [List.take_take, Nat.min_eq_left short] at apart
        exact apart known member
      rw [handed.mpr ⟨served, absent⟩] at recent
      cases recent
    · intro spared
      refine ⟨?_, ?_⟩
      · intro recent
        by_contra again
        rw [Bool.not_eq_false] at again
        obtain ⟨served, absent⟩ := handed.mp again
        rw [← List.take_append_drop (keptTokens loop.count) (loop.handled.take 8191),
          List.mem_append] at recent
        rcases recent with kept | lost
        · rw [inv.remembers] at absent
          rw [List.take_take] at kept
          exact absent ((List.take_sublist_take_left (Nat.min_le_left _ _)).mem kept)
        · exact spared served lost
      · intro served unknown
        rw [decide_eq_true_eq] at served
        refine handed.mpr ⟨served, ?_⟩
        intro known
        rw [inv.remembers] at known
        exact unknown (List.mem_of_mem_take known)

theorem ServeLoop.deliver_right (inv : loop.Inv) (before : ∀ d ∈ loop.deliveries, d.Right)
    (spared : Spared loop arrival) (taken : loop.deliver host arrival = some next) :
    ∀ d ∈ next.deliveries, d.Right := by
  intro d member
  rw [(deliver_some taken).2.2.2, List.mem_append] at member
  rcases member with earlier | now
  · exact before d earlier
  · exact (delivery_right_iff inv arrival.2 arrival.1).mpr spared d now

/-- In a run whose messages are all spared by the memory's end, no redelivered request is
executed again and no new one is dropped: `handed` says of each which it was. -/
theorem deliveries_right {registry : Registry δ} {arrivals : List (World ε × AppMessage)}
    {last : ServeLoop δ}
    (run : Runs.Run (ServeLoop.deliver host) Spared (.start registry) arrivals last) :
    HandsOver host ∧ ∀ d ∈ last.deliveries, d.Right := by
  have kept : last.Inv ∧ ∀ d ∈ last.deliveries, d.Right := by
    apply run.invariant
    · exact ⟨ServeLoop.start_inv registry, fun d member => absurd member List.not_mem_nil⟩
    · intro loop arrival next ⟨inv, before⟩ spared taken
      exact ⟨ServeLoop.deliver_inv inv taken, ServeLoop.deliver_right inv before spared taken⟩
  exact ⟨handsOver host, kept.2⟩

end

namespace Reference

def askedHost : Host FileDrive FileDrive (Option String) := host [] []

def asked (token : Nat) : World (Option String) × AppMessage :=
  ((world none).toWorld,
    { fromHex := "", topic := driveTopic, payloadHex := "00", replyToken := some token })

theorem handedToken_asked (seen : List Nat) (token : Nat) :
    handedToken seen (asked token).2 = if token ∈ seen then none else some token := by
  have served : ¬ (driveTopic ≠ driveTopic ∧ driveTopic ≠ itemsTopic) := by simp
  unfold handedToken asked
  dsimp only
  rw [if_neg served]

theorem asked_delivered (loop : ServeLoop FileDrive) (token : Nat) :
    ∃ next, loop.deliver askedHost (asked token) = some next := by
  have plain : ¬ driveTopic = itemsTopic := by decide
  have decoded : hexDecode "00".toList = some [0] := by decide
  unfold ServeLoop.deliver
  rw [handleInbound_handed, handedToken_asked]
  by_cases known : token ∈ loop.seen
  · rw [if_pos known]
    exact ⟨_, rfl⟩
  · rw [if_neg known]
    unfold handleMessage asked
    dsimp only
    rw [decoded]
    dsimp only
    rw [if_neg plain]
    exact ⟨_, rfl⟩

theorem asked_recorded {loop next : ServeLoop FileDrive} {token : Nat}
    (unknown : token ∉ loop.seen) (taken : loop.deliver askedHost (asked token) = some next) :
    next.seen = remember loop.seen token ∧
      next.handled = token :: loop.handled.filter (· != token) ∧ next.count = loop.count + 1 ∧
      ∃ d, next.deliveries = loop.deliveries ++ [d] ∧ d.token = token ∧
        d.earlier = loop.handled ∧ d.handed = true := by
  have handed : handedToken loop.seen (asked token).2 = some token := by
    rw [handedToken_asked, if_neg unknown]
  obtain ⟨seen, handled, count, deliveries⟩ := ServeLoop.deliver_some taken
  unfold ServeLoop.handledAfter at handled
  unfold ServeLoop.countAfter at count
  rw [handed] at seen handled count
  refine ⟨seen, handled, count, _, deliveries, rfl, rfl, ?_⟩
  rw [handed]
  rfl

theorem asked_history (n : Nat) :
    ∃ loop, Runs.Free (ServeLoop.deliver askedHost) (.start teamRegistry)
        ((List.range n).map asked) loop ∧
      loop.Inv ∧ loop.handled = (List.range n).reverse ∧ loop.count = n := by
  induction n with
  | zero => exact ⟨_, .nil _, ServeLoop.start_inv teamRegistry, rfl, rfl⟩
  | succ n ih =>
    obtain ⟨loop, run, inv, handled, count⟩ := ih
    obtain ⟨next, taken⟩ := asked_delivered loop n
    have absent : n ∉ loop.handled := by
      rw [handled, List.mem_reverse, List.mem_range]
      exact Nat.lt_irrefl n
    have unknown : n ∉ loop.seen := by
      rw [inv.remembers]
      exact fun member => absent (List.mem_of_mem_take member)
    obtain ⟨_, handled', count', _⟩ := asked_recorded unknown taken
    refine ⟨next, ?_, ServeLoop.deliver_inv inv taken, ?_, ?_⟩
    · rw [List.range_succ, List.map_append]
      exact .snoc run trivial taken
    · rw [handled', List.filter_bne_eq_self_of_not_mem absent, handled, List.range_succ,
        List.reverse_append]
      rfl
    · rw [count', count]

/-- A message that comes once out of the inbox and once over the stream. -/
theorem askedTwice_once :
    ∃ last, Runs.Run (ServeLoop.deliver askedHost) Spared (.start teamRegistry)
        ([asked 1] ++ [asked 1]) last ∧ ∀ d ∈ last.deliveries, d.Right := by
  obtain ⟨next, taken⟩ := asked_delivered (ServeLoop.start teamRegistry) 1
  obtain ⟨last, again⟩ := asked_delivered next 1
  obtain ⟨_, handled, count, _⟩ := asked_recorded List.not_mem_nil taken
  have first : Spared (ServeLoop.start teamRegistry) (asked 1) := by
    intro token _ _ member
    exact absurd member List.not_mem_nil
  have second : Spared next (asked 1) := by
    intro token _ _ member
    rw [handled, count] at member
    exact absurd member List.not_mem_nil
  have run : Runs.Run (ServeLoop.deliver askedHost) Spared (.start teamRegistry)
      ([asked 1] ++ [asked 1]) last := .snoc (Runs.Run.single first taken) second again
  exact ⟨last, run, (deliveries_right run).2⟩

theorem range_reverse (n : Nat) :
    (List.range (n + 2)).reverse = (n + 1) :: n :: (List.range n).reverse := by
  rw [List.range_succ, List.range_succ, List.reverse_append, List.reverse_append]
  rfl

/-- The 8193rd token empties the memory, and the one before it is handed over again. -/
theorem askedAgain_handed :
    ∃ last, Runs.Free (ServeLoop.deliver askedHost) (.start teamRegistry)
        ((List.range 8193).map asked ++ [asked 8191]) last ∧
      ¬ ∀ d ∈ last.deliveries, d.Right := by
  obtain ⟨loop, run, inv, handled, count⟩ := asked_history 8193
  obtain ⟨last, taken⟩ := asked_delivered loop 8191
  have latest : loop.handled = 8192 :: 8191 :: (List.range 8191).reverse := by
    rw [handled, range_reverse]
  have unknown : 8191 ∉ loop.seen := by
    have emptied : keptTokens 8193 = 1 := by decide
    rw [inv.remembers, count, latest, emptied, List.take_succ_cons, List.take_zero]
    simp
  obtain ⟨_, _, _, d, deliveries, token, earlier, twice⟩ := asked_recorded unknown taken
  refine ⟨last, .snoc run trivial taken, ?_⟩
  intro right
  have recent : d.token ∈ d.earlier.take 8191 := by
    rw [token, earlier, latest]
    simp
  have once := (right d (by rw [deliveries]; simp)).once recent
  rw [twice] at once
  cases once

end Reference

end DriveServe
