import ThriftBench.Lib.Reading
import ThriftBench.Lib.Wire

namespace Lib

open PerConnection

/-!
# Calls over connections

A call is a message up, its answer a message down, and a client that has called waits for the
answer before it calls again.  A connection may end at any time.

* `Remote` — how the requests of a `Backend` are put on the wire, read off it and answered;
* `Remote.wiring` — a connection of a client, step by step; `Remote.step_act_cases` — what a
  step changes of the calls and outcomes;
* `Remote.Agrees` — what a connection has to do with the requests and replies on it;
* `Remote.delivered_of_run` — in every run, requests are served and outcomes returned in the
  order of the calls, none of them twice, and at most the last one is under way;
* `Remote.outcomes_of_run` — what is known of an outcome from its call;
* `Remote.completes` — a client that waits gets its answer within two steps;
  `Remote.call_answered` — one that does not can make a call;
* `Remote.sum` — clients that make calls of two kinds; `Remote.delivered_of_run_sum` — those
  that the server does not notice change nothing for the others.
-/

/-- How the requests of clients reach a server: a client makes calls `ι`, and gets outcomes
    `ρ` of them. -/
structure Remote {L τ σ α β : Type} (link : Link L τ) (B : Backend σ α β) (ε ι ρ : Type) where
  /-- The message for a call. -/
  call : ι → List τ
  /-- Reads the answer to a call. -/
  recv : ι → Reader L ε ρ
  /-- Reads a message on connection `k` and serves it; `none` where that is not defined. -/
  process : Nat → σ → Reader L ε (Option (List τ × σ))
  /-- The request that a call makes. -/
  request : ι → α
  /-- What a reply is to the client. -/
  outcome : β → ρ
  served : ∀ {k b x y b'}, B.serve k b (request x) = some (y, b') → ∃ reply,
    Reads link.Holds (process k b) (call x) (some (reply, b')) ∧
      Reads link.Holds (recv x) reply (outcome y)
  not_served : ∀ {k b x}, B.serve k b (request x) = none →
    Reads link.Holds (process k b) (call x) none
  starved_process : ∀ {k b l}, link.Holds l [] → ∃ e, process k b l = .error e
  starved_recv : ∀ {x l}, link.Holds l [] → ∃ e, recv x l = .error e

/-- A connection: the two links, and what the client has called and has got. -/
structure Session (L ι ρ : Type) where
  up : L
  down : L
  /-- The call that the client waits for. -/
  pending : Option ι := none
  closed : Bool := false
  sent : List ι := []
  outcomes : List ρ := []

/-- The connection has ended. -/
def Session.ended {L ι ρ : Type} (c : Session L ι ρ) : Session L ι ρ := { c with closed := true }

/-- At most the last call is without an outcome. -/
def Session.Counted {L ι ρ : Type} (c : Session L ι ρ) : Prop :=
  c.outcomes.length ≤ c.sent.length ∧ c.sent.length ≤ c.outcomes.length + 1

theorem Session.counted_of_eq {L ι ρ : Type} {c : Session L ι ρ}
    (h : c.sent.length = c.outcomes.length) : c.Counted :=
  ⟨Nat.le_of_eq h.symm, Nat.le_succ_of_le (Nat.le_of_eq h)⟩

theorem Session.counted_of_succ {L ι ρ : Type} {c : Session L ι ρ}
    (h : c.sent.length = c.outcomes.length + 1) : c.Counted :=
  ⟨Nat.le_of_succ_le (Nat.le_of_eq h.symm), Nat.le_of_eq h⟩

/-- A step on a connection. -/
inductive Act (ι : Type) where
  | send (x : ι)
  | serve
  | recv
  /-- One of the two ends the connection, or it breaks. -/
  | drop

namespace Remote

variable {L τ σ α β ε ι ρ : Type} {link : Link L τ} {B : Backend σ α β}

/-- A step on an open connection `k`.  What cannot be read or is refused ends it. -/
def act (R : Remote link B ε ι ρ) (k : Nat) (b : σ) (c : Session L ι ρ) :
    Act ι → Option (Session L ι ρ × σ × Bool)
  | .send x =>
    match c.pending with
    | some _ => none
    | none   =>
      match link.send c.up (R.call x) with
      | none    => some (c.ended, b, false)
      | some up => some ({ c with up := up, pending := some x, sent := c.sent ++ [x] }, b, false)
  | .serve =>
    match R.process k b c.up with
    | .error _                   => some (c.ended, b, false)
    | .ok (none, _)              => some (c.ended, b, true)
    | .ok (some (reply, b'), up) =>
      match link.send c.down reply with
      | none      => some ({ c with up := up }.ended, b', false)
      | some down => some ({ c with up := up, down := down }, b', false)
  | .recv =>
    match c.pending with
    | none   => none
    | some x =>
      match R.recv x c.down with
      | .error _      => some (c.ended, b, false)
      | .ok (r, down) =>
        some ({ c with down := down, pending := none, outcomes := c.outcomes ++ [r] }, b, false)
  | .drop => some (c.ended, b, false)

/-- The connections of clients. -/
def wiring (R : Remote link B ε ι ρ) : Wiring σ (Session L ι ρ) (Act ι) where
  fresh := { up := link.empty, down := link.empty }
  act k b c a := if c.closed = true then none else R.act k b c a

/-- The server and the connections. -/
abbrev State (_ : Remote link B ε ι ρ) : Type := Wiring.State σ (Session L ι ρ)

/-- A step of the whole system. -/
abbrev Step (_ : Remote link B ε ι ρ) : Type := Wiring.Action (Act ι)

/-- The runs of clients and server. -/
def system (R : Remote link B ε ι ρ) : Machine R.State R.Step := R.wiring.machine B

/-- A server `b` without connections. -/
def start (R : Remote link B ε ι ρ) (b : σ) : R.State := { backend := b }

/-! ### What the client of a connection does -/

/-- What a step changes of the calls and outcomes on a connection. -/
inductive Effect (c c' : Session L ι ρ) : Act ι → Prop where
  /-- The connection ends, and nothing else is changed. -/
  | ended {a : Act ι} (hclosed : c'.closed = true) (hpending : c'.pending = c.pending)
      (hsent : c'.sent = c.sent) (houtcomes : c'.outcomes = c.outcomes) : Effect c c' a
  | sent (x : ι) (hidle : c.pending = none) (hclosed : c'.closed = c.closed)
      (hpending : c'.pending = some x) (hsent : c'.sent = c.sent ++ [x])
      (houtcomes : c'.outcomes = c.outcomes) : Effect c c' (.send x)
  | served (hclosed : c'.closed = c.closed) (hpending : c'.pending = c.pending)
      (hsent : c'.sent = c.sent) (houtcomes : c'.outcomes = c.outcomes) : Effect c c' .serve
  | received (x : ι) (r : ρ) (hwaits : c.pending = some x) (hclosed : c'.closed = c.closed)
      (hpending : c'.pending = none) (hsent : c'.sent = c.sent)
      (houtcomes : c'.outcomes = c.outcomes ++ [r]) : Effect c c' .recv

theorem act_effect {R : Remote link B ε ι ρ} {k : Nat} {b b' : σ} {c c' : Session L ι ρ}
    {a : Act ι} {undefined : Bool} (h : R.act k b c a = some (c', b', undefined)) :
    Effect c c' a := by
  cases a with
  | send x =>
    rw [act] at h
    cases hpending : c.pending with
    | some z => simp [hpending] at h
    | none =>
      simp only [hpending] at h
      cases hsend : link.send c.up (R.call x) with
      | none =>
        simp only [hsend, Option.some.injEq, Prod.mk.injEq] at h
        obtain ⟨rfl, -, -⟩ := h
        exact .ended rfl rfl rfl rfl
      | some up =>
        simp only [hsend, Option.some.injEq, Prod.mk.injEq] at h
        obtain ⟨rfl, -, -⟩ := h
        exact .sent x hpending rfl rfl rfl rfl
  | serve =>
    rw [act] at h
    split at h
    · obtain ⟨rfl, -, -⟩ := Prod.mk.inj (Option.some.inj h)
      exact .ended rfl rfl rfl rfl
    · obtain ⟨rfl, -, -⟩ := Prod.mk.inj (Option.some.inj h)
      exact .ended rfl rfl rfl rfl
    · split at h
      · obtain ⟨rfl, -, -⟩ := Prod.mk.inj (Option.some.inj h)
        exact .ended rfl rfl rfl rfl
      · obtain ⟨rfl, -, -⟩ := Prod.mk.inj (Option.some.inj h)
        exact .served rfl rfl rfl rfl
  | recv =>
    rw [act] at h
    cases hpending : c.pending with
    | none => simp [hpending] at h
    | some x =>
      simp only [hpending] at h
      split at h
      · obtain ⟨rfl, -, -⟩ := Prod.mk.inj (Option.some.inj h)
        exact .ended rfl rfl rfl rfl
      · next r down hrecv =>
        obtain ⟨rfl, -, -⟩ := Prod.mk.inj (Option.some.inj h)
        exact .received x r hpending rfl rfl rfl rfl
  | drop =>
    obtain ⟨rfl, -, -⟩ := Prod.mk.inj (Option.some.inj h)
    exact .ended rfl rfl rfl rfl

/-- **Inversion.** A step on a connection is one on an open connection, and does not touch the
    others. -/
theorem step_act_cases {R : Remote link B ε ι ρ} {s s' : R.State} {k : Nat} {a : Act ι}
    (h : R.system.step s (.act k a) = some s') :
    ∃ c c', s.sessions[k]? = some c ∧ c.closed = false ∧ Effect c c' a ∧
      s'.sessions = s.sessions.set k c' := by
  obtain ⟨-, hcases⟩ := Wiring.machine_step_cases h
  rcases hcases with ⟨_, hconnect, -⟩ | ⟨hconnect, -⟩ |
    ⟨j, d, c, c', b, undefined, hact, hk, hstep, rfl⟩
  · cases hconnect
  · cases hconnect
  · obtain ⟨rfl, rfl⟩ := Wiring.Action.act.inj hact
    simp only [wiring] at hstep
    split at hstep
    · cases hstep
    · next hopen =>
      exact ⟨c, c', hk, Bool.eq_false_iff.mpr hopen, act_effect hstep, rfl⟩

/-- A new connection comes last. -/
theorem step_connect_cases {R : Remote link B ε ι ρ} {s s' : R.State}
    (h : R.system.step s .connect = some s') :
    (s'.undefined = true ∧ s'.sessions = s.sessions) ∨
      (s'.undefined = false ∧ s'.sessions = s.sessions ++ [R.wiring.fresh]) := by
  obtain ⟨hdefined, hcases⟩ := Wiring.machine_step_cases h
  rcases hcases with ⟨b, -, -, rfl⟩ | ⟨-, -, rfl⟩ | ⟨_, _, _, _, _, _, hact, -⟩
  · exact Or.inr ⟨hdefined, rfl⟩
  · exact Or.inl ⟨rfl, rfl⟩
  · cases hact

/-! ### One connection -/

/-- What a connection has to do with the requests and the replies on it: between calls nothing
    is on the wire, and otherwise the call or its answer is.  A connection that has ended may
    have lost the last of them. -/
inductive Agrees (R : Remote link B ε ι ρ) (c : Session L ι ρ) (requests : List α)
    (replies : List β) : Prop where
  | idle (hpending : c.pending = none) (hup : link.Holds c.up []) (hdown : link.Holds c.down [])
      (hrequests : requests = c.sent.map R.request) (houtcomes : c.outcomes = replies.map R.outcome)
      (hcount : c.sent.length = c.outcomes.length)
  | called (x : ι) (xs : List ι) (hpending : c.pending = some x) (hsent : c.sent = xs ++ [x])
      (hup : link.Holds c.up (R.call x)) (hdown : link.Holds c.down [])
      (hrequests : requests = xs.map R.request) (houtcomes : c.outcomes = replies.map R.outcome)
      (hcount : c.sent.length = c.outcomes.length + 1)
  | answered (x : ι) (y : β) (ys : List β) (reply : List τ) (hpending : c.pending = some x)
      (hup : link.Holds c.up []) (hdown : link.Holds c.down reply)
      (hreads : Reads link.Holds (R.recv x) reply (R.outcome y))
      (hrequests : requests = c.sent.map R.request) (hreplies : replies = ys ++ [y])
      (houtcomes : c.outcomes = ys.map R.outcome) (hcount : c.sent.length = c.outcomes.length + 1)
  | ended (hclosed : c.closed = true) (hrequests : requests <+: c.sent.map R.request)
      (houtcomes : c.outcomes <+: replies.map R.outcome) (hcount : c.Counted)

/-- What the client of a connection knows. -/
structure Delivered (R : Remote link B ε ι ρ) (c : Session L ι ρ) (requests : List α)
    (replies : List β) : Prop where
  /-- Requests are served in the order of the calls, none twice. -/
  served : requests <+: c.sent.map R.request
  /-- The outcomes are those of the replies, in their order. -/
  returned : c.outcomes <+: replies.map R.outcome
  count : c.Counted
  /-- Between calls nothing is under way. -/
  settled : c.closed = false → c.pending = none →
    requests = c.sent.map R.request ∧ c.outcomes = replies.map R.outcome

variable {R : Remote link B ε ι ρ} {c c' : Session L ι ρ} {requests : List α} {replies : List β}
  {k : Nat} {b b' : σ} {undefined : Bool}

theorem Agrees.delivered (h : R.Agrees c requests replies) : R.Delivered c requests replies := by
  cases h with
  | idle _ _ _ hrequests houtcomes hcount =>
    exact ⟨hrequests ▸ List.prefix_rfl, houtcomes ▸ List.prefix_rfl, Session.counted_of_eq hcount,
      fun _ _ => ⟨hrequests, houtcomes⟩⟩
  | called x xs hpending hsent _ _ hrequests houtcomes hcount =>
    refine ⟨?_, houtcomes ▸ List.prefix_rfl, Session.counted_of_succ hcount, fun _ hnone => ?_⟩
    · rw [hrequests, hsent, List.map_append]
      exact List.prefix_append _ _
    · exact absurd (hpending.symm.trans hnone) (by simp)
  | answered x y ys _ hpending _ _ _ hrequests hreplies houtcomes hcount =>
    refine ⟨hrequests ▸ List.prefix_rfl, ?_, Session.counted_of_succ hcount, fun _ hnone => ?_⟩
    · rw [houtcomes, hreplies, List.map_append]
      exact List.prefix_append _ _
    · exact absurd (hpending.symm.trans hnone) (by simp)
  | ended hclosed hrequests houtcomes hcount =>
    exact ⟨hrequests, houtcomes, hcount, fun hopen => absurd (hclosed.symm.trans hopen) (by simp)⟩

/-- The `i`-th outcome is that of the `i`-th reply. -/
theorem Delivered.reply (h : R.Delivered c requests replies) {i : Nat} {r : ρ}
    (hi : c.outcomes[i]? = some r) : ∃ y, replies[i]? = some y ∧ R.outcome y = r := by
  have hreply := getElem?_of_prefix h.returned hi
  rw [List.getElem?_map] at hreply
  exact Option.map_eq_some_iff.mp hreply

/-- The `i`-th request is that of the `i`-th call. -/
theorem Delivered.request (h : R.Delivered c requests replies) {i : Nat} {x : α}
    (hi : requests[i]? = some x) : ∃ z, c.sent[i]? = some z ∧ R.request z = x := by
  have hcall := getElem?_of_prefix h.served hi
  rw [List.getElem?_map] at hcall
  exact Option.map_eq_some_iff.mp hcall

/-- The end of a connection. -/
theorem Agrees.drop (h : R.Agrees c requests replies) :
    R.Agrees c.ended requests replies :=
  have hdelivered := h.delivered
  .ended rfl hdelivered.served hdelivered.returned hdelivered.count

/-- A call. -/
theorem Agrees.send {x : ι} (h : R.Agrees c requests replies) (hopen : c.closed = false)
    (hstep : R.act k b c (.send x) = some (c', b', undefined)) :
    b' = b ∧ undefined = false ∧ R.Agrees c' requests replies := by
  rw [act] at hstep
  cases hpending : c.pending with
  | some z => simp [hpending] at hstep
  | none =>
    simp only [hpending] at hstep
    cases hsend : link.send c.up (R.call x) with
    | none =>
      simp only [hsend, Option.some.injEq, Prod.mk.injEq] at hstep
      obtain ⟨rfl, rfl, rfl⟩ := hstep
      exact ⟨rfl, rfl, h.drop⟩
    | some up =>
      simp only [hsend, Option.some.injEq, Prod.mk.injEq] at hstep
      obtain ⟨rfl, rfl, rfl⟩ := hstep
      refine ⟨rfl, rfl, ?_⟩
      -- Only a connection between calls has no call to wait for.
      cases h with
      | idle _ hup hdown hrequests houtcomes hcount =>
        have hlength : (c.sent ++ [x]).length = c.outcomes.length + 1 := by
          rw [List.length_append, List.length_singleton, hcount]
        exact .called x c.sent rfl rfl (link.holds_send hsend hup) hdown hrequests houtcomes hlength
      | called _ _ hcalled => exact absurd (hcalled.symm.trans hpending) (by simp)
      | answered _ _ _ _ hcalled => exact absurd (hcalled.symm.trans hpending) (by simp)
      | ended hclosed => exact absurd (hclosed.symm.trans hopen) (by simp)

/-- A message is served, or there is none and the connection ends. -/
theorem Agrees.serve (h : R.Agrees c requests replies) (hopen : c.closed = false)
    (hstep : R.act k b c .serve = some (c', b', undefined)) :
    Wiring.Seen B R.Agrees k b b' undefined c' requests replies := by
  -- Unless a call is on the wire, there is nothing to process.
  have hstarved : link.Holds c.up [] →
      Wiring.Seen B R.Agrees k b b' undefined c' requests replies := by
    intro hup
    obtain ⟨e, he⟩ := R.starved_process (k := k) (b := b) hup
    simp only [act, he, Option.some.injEq, Prod.mk.injEq] at hstep
    obtain ⟨rfl, rfl, rfl⟩ := hstep
    exact .nothing rfl rfl h.drop
  cases h with
  | idle _ hup => exact hstarved hup
  | answered _ _ _ _ _ hup => exact hstarved hup
  | ended hclosed => exact absurd (hclosed.symm.trans hopen) (by simp)
  | called x xs hpending hsent hup hdown hrequests houtcomes hcount =>
    have hall : requests ++ [R.request x] = c.sent.map R.request := by
      rw [hrequests, hsent, List.map_append]
      rfl
    rw [← List.append_nil (R.call x)] at hup
    cases hserve : B.serve k b (R.request x) with
    | none =>
      obtain ⟨up, hprocess, -⟩ := R.not_served hserve _ _ hup
      simp only [act, hprocess, Option.some.injEq, Prod.mk.injEq] at hstep
      obtain ⟨rfl, rfl, rfl⟩ := hstep
      exact .undefined (R.request x) hserve rfl rfl
        (.ended rfl (hall ▸ List.prefix_rfl) (houtcomes ▸ List.prefix_rfl)
          (Session.counted_of_succ hcount))
    | some r =>
      obtain ⟨reply, hreads, hrecv⟩ := R.served (show _ = some (r.1, r.2) from hserve)
      obtain ⟨up, hprocess, hrest⟩ := hreads _ _ hup
      simp only [act, hprocess] at hstep
      cases hsend : link.send c.down reply with
      | none =>
        -- The request has been served, but its reply is lost.
        simp only [hsend, Option.some.injEq, Prod.mk.injEq] at hstep
        obtain ⟨rfl, rfl, rfl⟩ := hstep
        have hreturned : c.outcomes <+: (replies ++ [r.1]).map R.outcome := by
          rw [houtcomes, List.map_append]
          exact List.prefix_append _ _
        exact .request (R.request x) r.1 hserve rfl
          (.ended rfl (hall ▸ List.prefix_rfl) hreturned (Session.counted_of_succ hcount))
      | some down =>
        simp only [hsend, Option.some.injEq, Prod.mk.injEq] at hstep
        obtain ⟨rfl, rfl, rfl⟩ := hstep
        exact .request (R.request x) r.1 hserve rfl (.answered x r.1 replies reply hpending hrest
          (link.holds_send hsend hdown) hrecv hall rfl houtcomes hcount)

/-- The client reads the answer, or there is none and the connection ends. -/
theorem Agrees.recv (h : R.Agrees c requests replies) (hopen : c.closed = false)
    (hstep : R.act k b c .recv = some (c', b', undefined)) :
    b' = b ∧ undefined = false ∧ R.Agrees c' requests replies := by
  have hdrop := h.drop
  rw [act] at hstep
  cases h with
  | idle hpending => simp [hpending] at hstep
  | called x _ hpending _ _ hdown =>
    -- The call has not been served, and the client finds nothing to read.
    obtain ⟨e, he⟩ := R.starved_recv (x := x) hdown
    simp only [hpending, he, Option.some.injEq, Prod.mk.injEq] at hstep
    obtain ⟨rfl, rfl, rfl⟩ := hstep
    exact ⟨rfl, rfl, hdrop⟩
  | answered x y ys reply hpending hup hdown hreads hrequests hreplies houtcomes hcount =>
    rw [← List.append_nil reply] at hdown
    obtain ⟨down, hrecv, hrest⟩ := hreads _ _ hdown
    simp only [hpending, hrecv, Option.some.injEq, Prod.mk.injEq] at hstep
    obtain ⟨rfl, rfl, rfl⟩ := hstep
    refine ⟨rfl, rfl, .idle rfl hup hrest hrequests ?_ ?_⟩
    · show c.outcomes ++ _ = _
      rw [houtcomes, hreplies, List.map_append]
      rfl
    · show _ = (c.outcomes ++ _).length
      rw [hcount, List.length_append, List.length_singleton]
  | ended hclosed => exact absurd (hclosed.symm.trans hopen) (by simp)

theorem Agrees.act {a : Act ι} (h : R.Agrees c requests replies) (hopen : c.closed = false)
    (hstep : R.act k b c a = some (c', b', undefined)) :
    Wiring.Seen B R.Agrees k b b' undefined c' requests replies := by
  cases a with
  | send x =>
    obtain ⟨hb, hdefined, hagrees⟩ := h.send hopen hstep
    exact .nothing hb hdefined hagrees
  | serve => exact h.serve hopen hstep
  | recv =>
    obtain ⟨hb, hdefined, hagrees⟩ := h.recv hopen hstep
    exact .nothing hb hdefined hagrees
  | drop =>
    simp only [Remote.act, Option.some.injEq, Prod.mk.injEq] at hstep
    obtain ⟨rfl, rfl, rfl⟩ := hstep
    exact .nothing rfl rfl h.drop

/-- **One connection.** Every step keeps a connection in agreement with the server. -/
theorem keeps (R : Remote link B ε ι ρ) : R.wiring.Keeps B R.Agrees where
  fresh := .idle rfl link.holds_empty link.holds_empty rfl rfl rfl
  act {k b c a c' b' undefined requests replies} h hact := by
    obtain ⟨hopen, hstep⟩ : c.closed = false ∧ R.act k b c a = some (c', b', undefined) := by
      simp only [wiring] at hact
      split at hact
      · cases hact
      · next hopen => exact ⟨Bool.eq_false_iff.mpr hopen, hact⟩
    exact h.act hopen hstep

/-! ### All connections -/

variable {s s' : R.State} {as : List R.Step}

/-- **Delivery.** Every run is a run of the server alone, whose requests and replies are those
    that the clients have called and got. -/
theorem delivered_of_run (hrun : R.system.run (R.start b) as = some s) :
    ∃ es replies, B.machine.run { state := b } es
        = some ⟨s.backend, s.sessions.length, replies, s.undefined⟩ ∧
      ∀ (k : Nat) c, s.sessions[k]? = some c →
        R.Delivered c (requestsOn k es) (repliesOn k replies) := by
  obtain ⟨es, t, h⟩ := R.keeps.of_run hrun
  refine ⟨es, t.replies, ?_, fun k c hk => (h.agrees k c hk).delivered⟩
  rw [← h.state, ← h.connections, ← h.defined]
  exact h.run

/-- The same for a server with a handler for every connection. -/
theorem delivered_of_run_perConnection {φ η : Type} {S : PerConnection φ η α β} {factory : φ}
    {R : Remote link S.backend ε ι ρ} {s : R.State} {as : List R.Step}
    (hrun : R.system.run (R.start (factory, [])) as = some s) :
    s.backend.2.length = s.sessions.length ∧
      ∃ es replies, S.machine.run { factory := factory } es
          = some ⟨s.backend.1, s.backend.2, replies, s.undefined⟩ ∧
        ∀ (k : Nat) c, s.sessions[k]? = some c →
          R.Delivered c (requestsOn k es) (repliesOn k replies) := by
  obtain ⟨es, replies, hserver, hdelivered⟩ := delivered_of_run hrun
  obtain ⟨hmachine, hlength⟩ := run_backend hserver
  exact ⟨hlength.symm, es, replies, hmachine, hdelivered⟩

/-- **Outcomes.** What is known of a reply from its request is known of an outcome from its call,
    and the server has no defined behaviour only after a call whose request is refused. -/
theorem outcomes_of_run {Answers : α → β → Prop} {Refused : α → Prop}
    (hB : B.Answering Answers Refused) (hrun : R.system.run (R.start b) as = some s) :
    (s.undefined = true → ∃ k : Nat, ∃ c x, s.sessions[k]? = some c ∧ x ∈ c.sent ∧
      Refused (R.request x)) ∧
    ∀ (k : Nat) c, s.sessions[k]? = some c → c.Counted ∧
      ∀ (i : Nat) x z, c.sent[i]? = some x → c.outcomes[i]? = some z →
        ∃ y, Answers (R.request x) y ∧ z = R.outcome y := by
  obtain ⟨es, replies, hserver, hdelivered⟩ := delivered_of_run hrun
  have hanswered := hB.answered_of_run hserver
  refine ⟨fun hundefined => ?_, fun k c hk => ⟨(hdelivered k c hk).count, ?_⟩⟩
  · obtain ⟨k, x, hx, hnone⟩ := hanswered.unreplied hundefined
    -- Only a connection that was opened has requests.
    have hopen : k < s.sessions.length := by
      by_contra hge
      rw [(Backend.unopened_of_run hserver k (Nat.le_of_not_lt hge)).1] at hx
      exact absurd hx List.not_mem_nil
    have hk := List.getElem?_eq_getElem hopen
    obtain ⟨z, hz, rfl⟩ := List.mem_map.mp ((hdelivered k _ hk).served.subset hx)
    exact ⟨k, _, z, hk, hz, hnone⟩
  · intro i x z hx hz
    -- From the outcome to its reply, from there to the request, and from there to the call.
    obtain ⟨y, hy, rfl⟩ := (hdelivered k c hk).reply hz
    obtain ⟨a, ha, hreply⟩ := hanswered.getElem? hy
    obtain ⟨x', hx', rfl⟩ := (hdelivered k c hk).request ha
    obtain rfl := Option.some.inj (hx.symm.trans hx')
    exact ⟨y, hreply, rfl⟩

/-! ### Answers come -/

/-- The client of connection `k` has got one more outcome and waits for none. -/
structure Returned (R : Remote link B ε ι ρ) (s : R.State) (k : Nat) (outcomes : List ρ) :
    Prop where
  defined : s.undefined = false
  session : ∃ c r, s.sessions[k]? = some c ∧ c.closed = false ∧ c.pending = none ∧
    c.outcomes = outcomes ++ [r]

theorem step_open {a : Act ι} (hdefined : s.undefined = false) (hk : s.sessions[k]? = some c)
    (hopen : c.closed = false) (hact : R.act k s.backend c a = some (c', b', undefined)) :
    R.system.step s (.act k a)
      = some { backend := b', sessions := s.sessions.set k c', undefined := undefined } := by
  apply Wiring.step_act hdefined hk
  simp only [wiring, hopen, hact, Bool.false_eq_true, if_false]

/-- An answer that has arrived is read. -/
theorem step_recv {x : ι} {r : ρ} {reply : List τ} (hdefined : s.undefined = false)
    (hk : s.sessions[k]? = some c) (hopen : c.closed = false) (hpending : c.pending = some x)
    (hdown : link.Holds c.down reply) (hreads : Reads link.Holds (R.recv x) reply r) :
    ∃ down, R.system.step s (.act k .recv) = some { s with
      sessions := s.sessions.set k
        { c with down := down, pending := none, outcomes := c.outcomes ++ [r] } } := by
  rw [← List.append_nil reply] at hdown
  obtain ⟨down, hrecv, -⟩ := hreads _ _ hdown
  have hact : R.act k s.backend c .recv = some
      ({ c with down := down, pending := none, outcomes := c.outcomes ++ [r] },
        s.backend, false) := by
    simp only [act, hpending, hrecv]
  refine ⟨down, ?_⟩
  rw [step_open hdefined hk hopen hact, hdefined]

/-- A call on the wire is served. -/
theorem step_serve {x : ι} {y : β} (hdefined : s.undefined = false)
    (hk : s.sessions[k]? = some c) (hopen : c.closed = false)
    (hup : link.Holds c.up (R.call x)) (hdown : link.Holds c.down [])
    (hserve : B.serve k s.backend (R.request x) = some (y, b'))
    (haccepts : ∀ reply, ∃ down, link.send c.down reply = some down) :
    ∃ up down reply, link.Holds down reply ∧ Reads link.Holds (R.recv x) reply (R.outcome y) ∧
      R.system.step s (.act k .serve) = some { s with
        backend := b', sessions := s.sessions.set k { c with up := up, down := down } } := by
  obtain ⟨reply, hreads, hrecv⟩ := R.served hserve
  rw [← List.append_nil (R.call x)] at hup
  obtain ⟨up, hprocess, -⟩ := hreads _ _ hup
  obtain ⟨down, hsend⟩ := haccepts reply
  have hact : R.act k s.backend c .serve
      = some ({ c with up := up, down := down }, b', false) := by
    simp only [act, hprocess, hsend]
  refine ⟨up, down, reply, link.holds_send hsend hdown, hrecv, ?_⟩
  rw [step_open hdefined hk hopen hact, hdefined]

/-- **Completion.** After every run, a client that waits gets an outcome by its own next step,
    or by one of the server and one of its own, if the server has a reply and it is not
    refused.  What the other connections do does not matter. -/
theorem completes {x : ι} (hrun : R.system.run (R.start b) as = some s)
    (hdefined : s.undefined = false) (hk : s.sessions[k]? = some c) (hopen : c.closed = false)
    (hpending : c.pending = some x)
    (hserve : ∃ y b, B.serve k s.backend (R.request x) = some (y, b))
    (haccepts : ∀ reply, ∃ down, link.send c.down reply = some down) :
    ∃ s', (R.system.run s [.act k .recv] = some s' ∨
      R.system.run s [.act k .serve, .act k .recv] = some s') ∧ R.Returned s' k c.outcomes := by
  obtain ⟨es, t, h⟩ := R.keeps.of_run hrun
  have hlt := (List.getElem?_eq_some_iff.mp hk).1
  cases h.agrees k c hk with
  | idle hnone => exact absurd (hpending.symm.trans hnone) (by simp)
  | ended hclosed => exact absurd (hclosed.symm.trans hopen) (by simp)
  | answered x' y _ reply hx _ hdown hreads =>
    -- The reply is there already.
    obtain ⟨down, hstep⟩ := step_recv hdefined hk hopen hx hdown hreads
    exact ⟨_, Or.inl (Machine.run_cons hstep rfl), hdefined, _, _,
      List.getElem?_set_self hlt, hopen, rfl, rfl⟩
  | called x' _ hx _ hup hdown =>
    obtain rfl := Option.some.inj (hpending.symm.trans hx)
    obtain ⟨y, b', hserve⟩ := hserve
    obtain ⟨up, down, reply, hreply, hrecv, hserved⟩ :=
      step_serve hdefined hk hopen hup hdown hserve haccepts
    -- The client reads what the server has just sent.
    obtain ⟨down', hstep⟩ := step_recv
      (s := ⟨b', s.sessions.set k { c with up := up, down := down }, s.undefined⟩) hdefined
      (List.getElem?_set_self hlt) hopen hpending hreply hrecv
    have hread : (s.sessions.set k { c with up := up, down := down }).length = s.sessions.length :=
      List.length_set
    exact ⟨_, Or.inr (Machine.run_cons hserved (Machine.run_cons hstep rfl)), hdefined, _, _,
      List.getElem?_set_self (hread ▸ hlt), hopen, rfl, rfl⟩

/-- **A whole call.** On an open connection on which nothing is under way, a call that the server
    has a reply to is sent, served and answered, if neither message is refused. -/
theorem call_answered {x : ι} {y : β} (hrun : R.system.run (R.start b) as = some s)
    (hdefined : s.undefined = false) (hk : s.sessions[k]? = some c) (hopen : c.closed = false)
    (hidle : c.pending = none) (hserve : B.serve k s.backend (R.request x) = some (y, b'))
    (haccepts : ∀ l ts, ∃ l', link.send l ts = some l') :
    ∃ r₁ r₂ r₃ c₁ c₂ c₃,
      (R.system.step s (.act k (.send x)) = some r₁ ∧ R.system.step r₁ (.act k .serve) = some r₂ ∧
        R.system.step r₂ (.act k .recv) = some r₃) ∧
      (r₁.sessions[k]? = some c₁ ∧ c₁.closed = false) ∧
      (r₂.sessions[k]? = some c₂ ∧ c₂.closed = false ∧ c₂.pending = some x) ∧
      r₃.sessions[k]? = some c₃ ∧ c₃.closed = false ∧
      c₃.outcomes = c.outcomes ++ [R.outcome y] := by
  obtain ⟨es, t, h⟩ := R.keeps.of_run hrun
  have hlt := (List.getElem?_eq_some_iff.mp hk).1
  cases h.agrees k c hk with
  | called _ _ hpending => exact absurd (hpending.symm.trans hidle) (by simp)
  | answered _ _ _ _ hpending => exact absurd (hpending.symm.trans hidle) (by simp)
  | ended hclosed => exact absurd (hclosed.symm.trans hopen) (by simp)
  | idle _ hup hdown =>
    obtain ⟨up, hsend⟩ := haccepts c.up (R.call x)
    have hact : R.act k s.backend c (.send x) = some
        ({ c with up := up, pending := some x, sent := c.sent ++ [x] }, s.backend, false) := by
      simp only [act, hidle, hsend]
    have hsent := step_open hdefined hk hopen hact
    -- The server finds the call, and the client its answer.
    let sent : Session L ι ρ := { c with up := up, pending := some x, sent := c.sent ++ [x] }
    obtain ⟨up', down, reply, hreply, hrecv, hserved⟩ := step_serve
      (s := { s with sessions := s.sessions.set k sent }) hdefined
      (List.getElem?_set_self hlt) hopen (link.holds_send hsend hup) hdown hserve (haccepts _)
    rw [List.set_set] at hserved
    let served : Session L ι ρ := { sent with up := up', down := down }
    obtain ⟨down', hanswered⟩ := step_recv
      (s := { s with backend := b', sessions := s.sessions.set k served }) hdefined
      (List.getElem?_set_self hlt) hopen rfl hreply hrecv
    rw [List.set_set] at hanswered
    exact ⟨_, _, _, sent, served, _, ⟨hsent.trans (by rw [hdefined]), hserved, hanswered⟩,
      ⟨List.getElem?_set_self hlt, hopen⟩, ⟨List.getElem?_set_self hlt, hopen, rfl⟩,
      List.getElem?_set_self hlt, hopen, rfl⟩

/-! ### Calls of two kinds -/

section

variable {α' β' ι' ρ' : Type} {B' : Backend σ α' β'}

theorem bind_eq_error {κ : Type} {r : Reader L ε ρ} {f : ρ → κ} {l : L}
    (h : ∃ e, r l = .error e) : ∃ e, (r >>= fun x => pure (f x)) l = .error e := by
  obtain ⟨e, he⟩ := h
  refine ⟨e, ?_⟩
  show (r l).bind _ = _
  rw [he]
  rfl

/-- Clients that make the calls of two, of a server that serves both. -/
def sum (R : Remote link B ε ι ρ) (R' : Remote link B' ε ι' ρ') (h : R.process = R'.process) :
    Remote link (B.sum B') ε (ι ⊕ ι') (ρ ⊕ ρ') where
  call := Sum.elim R.call R'.call
  recv
    | .inl x => R.recv x >>= fun r => pure (.inl r)
    | .inr x => R'.recv x >>= fun r => pure (.inr r)
  process := R.process
  request := Sum.map R.request R'.request
  outcome := Sum.map R.outcome R'.outcome
  served {k b x y b'} hserve := by
    cases x with
    | inl x =>
      obtain ⟨r, hr, heq⟩ := Option.map_eq_some_iff.mp hserve
      obtain ⟨rfl, rfl⟩ := Prod.mk.inj heq
      obtain ⟨reply, hprocess, hrecv⟩ := R.served hr
      exact ⟨reply, hprocess, hrecv.map⟩
    | inr x =>
      obtain ⟨r, hr, heq⟩ := Option.map_eq_some_iff.mp hserve
      obtain ⟨rfl, rfl⟩ := Prod.mk.inj heq
      obtain ⟨reply, hprocess, hrecv⟩ := R'.served hr
      rw [h]
      exact ⟨reply, hprocess, hrecv.map⟩
  not_served {k b x} hserve := by
    cases x with
    | inl x => exact R.not_served (Option.map_eq_none_iff.mp hserve)
    | inr x =>
      rw [h]
      exact R'.not_served (Option.map_eq_none_iff.mp hserve)
  starved_process := R.starved_process
  starved_recv {x l} hl := by
    cases x with
    | inl x => exact bind_eq_error (R.starved_recv hl)
    | inr x => exact bind_eq_error (R'.starved_recv hl)

theorem map_isLeft_map {κ κ' ξ ξ' : Type} (f : κ → ξ) (g : κ' → ξ') (xs : List (κ ⊕ κ')) :
    (xs.map (Sum.map f g)).map Sum.isLeft = xs.map Sum.isLeft := by
  rw [List.map_map]
  refine congrArg (List.map · xs) (funext fun x => ?_)
  cases x with
  | inl | inr => rfl

/-- What the client of a connection knows of its calls of the first kind. -/
structure DeliveredLeft (R : Remote link B ε ι ρ) (R' : Remote link B' ε ι' ρ')
    (c : Session L (ι ⊕ ι') (ρ ⊕ ρ')) (requests : List α) (replies : List β) : Prop where
  served : requests <+: (c.sent.filterMap Sum.getLeft?).map R.request
  returned : c.outcomes.filterMap Sum.getLeft? <+: replies.map R.outcome
  count : c.Counted
  /-- The outcome of a call is of its kind. -/
  kinds : c.outcomes.map Sum.isLeft <+: c.sent.map Sum.isLeft
  /-- Those of the second kind are outcomes of the second kind of reply. -/
  right : ∀ r, Sum.inr r ∈ c.outcomes → ∃ y, r = R'.outcome y

/-- **Delivery.** If the server does not notice the calls of the second kind, then every run is a
    run of the server with the calls of the first kind alone. -/
theorem delivered_of_run_sum {R : Remote link B ε ι ρ} {R' : Remote link B' ε ι' ρ'}
    {h : R.process = R'.process} {s : (R.sum R' h).State} {as : List (R.sum R' h).Step}
    (hpassive : B'.Passive) (hrun : (R.sum R' h).system.run ((R.sum R' h).start b) as = some s) :
    ∃ es replies, B.machine.run { state := b } es
        = some ⟨s.backend, s.sessions.length, replies, s.undefined⟩ ∧
      ∀ (k : Nat) c, s.sessions[k]? = some c →
        DeliveredLeft R R' c (requestsOn k es) (repliesOn k replies) := by
  obtain ⟨es, replies, hserver, hdelivered⟩ := delivered_of_run hrun
  refine ⟨_, _, Backend.run_sum hpassive hserver, fun k c hk => ?_⟩
  have hd := hdelivered k c hk
  refine ⟨?_, ?_, hd.count, ?_, ?_⟩
  · rw [Backend.requestsOn_leftEvents, ← Backend.filterMap_getLeft?_map R.request R'.request]
    exact hd.served.filterMap _
  · rw [Backend.repliesOn_leftReplies, ← Backend.filterMap_getLeft?_map R.outcome R'.outcome]
    exact hd.returned.filterMap _
  · have houtcomes := hd.returned.map Sum.isLeft
    have hrequests := hd.served.map Sum.isLeft
    rw [show (R.sum R' h).outcome = Sum.map R.outcome R'.outcome from rfl, map_isLeft_map]
      at houtcomes
    rw [show (R.sum R' h).request = Sum.map R.request R'.request from rfl, map_isLeft_map]
      at hrequests
    exact houtcomes.trans ((Backend.kinds_of_run_sum hserver k).1.trans hrequests)
  · intro r hr
    obtain ⟨y, -, hy⟩ := List.mem_map.mp (hd.returned.subset hr)
    cases y with
    | inl y => exact absurd hy (by simp [sum])
    | inr y => exact ⟨y, (Sum.inr.inj hy).symm⟩

end

end Remote

end Lib
