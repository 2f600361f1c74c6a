import ThriftBench.Lib.Reading
import ThriftBench.Lib.Wire

namespace Lib

open PerConnection

/-!
# One-way messages over connections

A client sends messages and does not wait.  It may close its end at any time, and what it has
sent is still read; what the server sends back is never read.

* `Feed` — how the requests of a `Backend` are put on the wire and read off it;
* `Feed.wiring` — a connection of a client, step by step;
* `Feed.Waits`, `Feed.Agrees` — what a connection has to do with the requests on it;
* `Feed.Fed`, `Feed.fed_of_run` — in every run, requests are served in the order of the messages,
  none of them twice, and the other messages are on the wire;
* `Feed.drains` — what was sent can be served, whatever the client does then;
* `Feed.sum` — clients that send messages of two kinds.
-/

/-- How one-way messages `ι` of clients reach a server. -/
structure Feed {L τ σ α β : Type} (link : Link L τ) (B : Backend σ α β) (ε ι : Type) where
  /-- The message. -/
  message : ι → List τ
  /-- Reads a message on connection `k` and serves it; `none` where that is not defined. -/
  process : Nat → σ → Reader L ε (Option (List τ × σ))
  /-- The request that a message makes. -/
  request : ι → α
  /-- What is sent back, if anything. -/
  notice : β → List τ
  served : ∀ {k b x y b'}, B.serve k b (request x) = some (y, b') →
    Reads link.Holds (process k b) (message x) (some (notice y, b'))
  not_served : ∀ {k b x}, B.serve k b (request x) = none →
    Reads link.Holds (process k b) (message x) none
  starved_process : ∀ {l k b}, link.Holds l [] → ∃ e, process k b l = .error e

/-- A connection: the two links, whose ends they are, and what the client has sent. -/
structure Channel (L ι : Type) where
  up : L
  down : L
  /-- The client has closed its end. -/
  closed : Bool := false
  /-- The server has closed its end. -/
  stopped : Bool := false
  sent : List ι := []

/-- A step on a connection. -/
inductive Move (ι : Type) where
  | send (x : ι)
  /-- The client closes its end. -/
  | close
  | serve
  /-- The connection breaks. -/
  | drop

namespace Feed

variable {L τ σ α β ε ι : Type} {link : Link L τ} {B : Backend σ α β}

/-- The server sends back `notice`, unless there is nothing to send. -/
def sendBack (link : Link L τ) (down : L) (notice : List τ) : Option L :=
  if notice.isEmpty = true then some down else link.send down notice

/-- A step on connection `k`.  A message that is refused ends the client, and one that cannot be
    read ends the server's side of the connection. -/
def act (F : Feed link B ε ι) (k : Nat) (b : σ) (c : Channel L ι) :
    Move ι → Option (Channel L ι × σ × Bool)
  | .send x =>
    if c.closed = true then none
    else
      match link.send c.up (F.message x) with
      | none    => some ({ c with closed := true }, b, false)
      | some up => some ({ c with up := up, sent := c.sent ++ [x] }, b, false)
  | .close => some ({ c with closed := true }, b, false)
  | .serve =>
    if c.stopped = true then none
    else
      match F.process k b c.up with
      | .error _                    => some ({ c with stopped := true }, b, false)
      | .ok (none, _)               => some ({ c with stopped := true }, b, true)
      | .ok (some (notice, b'), up) =>
        match sendBack link c.down notice with
        | none      => some ({ c with up := up, stopped := true }, b', false)
        | some down => some ({ c with up := up, down := down }, b', false)
  | .drop => some ({ c with closed := true, stopped := true }, b, false)

/-- The connections of clients. -/
def wiring (F : Feed link B ε ι) : Wiring σ (Channel L ι) (Move ι) where
  fresh := { up := link.empty, down := link.empty }
  act := F.act

/-- The server and the connections. -/
abbrev State (_ : Feed link B ε ι) : Type := Wiring.State σ (Channel L ι)

/-- A step of the whole system. -/
abbrev Step (_ : Feed link B ε ι) : Type := Wiring.Action (Move ι)

/-- The runs of clients and server. -/
def system (F : Feed link B ε ι) : Machine F.State F.Step := F.wiring.machine B

/-- A server `b` without connections. -/
def start (F : Feed link B ε ι) (b : σ) : F.State := { backend := b }

/-! ### One connection -/

/-- A connection that the server reads from: the messages `waiting` are on the wire, those before
    them have made the requests, and what was sent back has not been read. -/
structure Waits (F : Feed link B ε ι) (c : Channel L ι) (waiting : List ι) (requests : List α)
    (replies : List β) : Prop where
  running : c.stopped = false
  up : link.Holds c.up (waiting.flatMap F.message)
  sent : ∃ read, c.sent = read ++ waiting ∧ requests = read.map F.request
  down : link.Holds c.down (replies.flatMap F.notice)

/-- What a connection has to do with the requests and replies on it. -/
inductive Agrees (F : Feed link B ε ι) (c : Channel L ι) (requests : List α) (replies : List β) :
    Prop where
  | waits (waiting : List ι) (h : F.Waits c waiting requests replies)
  | stopped (hstopped : c.stopped = true) (hrequests : requests <+: c.sent.map F.request)
      (back : List β) (hback : back <+: replies) (hdown : link.Holds c.down (back.flatMap F.notice))

/-- What is known of a connection. -/
structure Fed (F : Feed link B ε ι) (c : Channel L ι) (requests : List α) (replies : List β) :
    Prop where
  /-- Requests are served in the order of the messages, none twice. -/
  served : requests <+: c.sent.map F.request
  /-- What the server has sent back stays on the wire. -/
  unread : ∃ back, back <+: replies ∧ link.Holds c.down (back.flatMap F.notice)
  /-- As long as it reads, all other messages are on the wire, and all has been sent back. -/
  kept : c.stopped = false → link.Holds c.up ((c.sent.drop requests.length).flatMap F.message) ∧
    link.Holds c.down (replies.flatMap F.notice)

variable {F : Feed link B ε ι} {c c' : Channel L ι} {waiting : List ι} {requests : List α}
  {replies : List β} {k : Nat} {b b' : σ} {undefined : Bool} {x : ι}

/-- The requests are those of the first messages. -/
theorem Fed.requests_eq (h : F.Fed c requests replies) :
    requests = (c.sent.take requests.length).map F.request := by
  rw [List.map_take]
  exact List.prefix_iff_eq_take.mp h.served

theorem Waits.requests_append (h : F.Waits c waiting requests replies) :
    requests ++ waiting.map F.request = c.sent.map F.request := by
  obtain ⟨read, hsent, rfl⟩ := h.sent
  rw [hsent, List.map_append]

theorem Waits.served (h : F.Waits c waiting requests replies) :
    requests <+: c.sent.map F.request :=
  ⟨_, h.requests_append⟩

/-- The server has read all messages but those that wait. -/
theorem Waits.waiting_eq (h : F.Waits c waiting requests replies) :
    waiting = c.sent.drop requests.length := by
  obtain ⟨read, hsent, rfl⟩ := h.sent
  rw [hsent, List.length_map, List.drop_left]

theorem Agrees.fed (h : F.Agrees c requests replies) : F.Fed c requests replies := by
  cases h with
  | waits waiting h =>
    refine ⟨h.served, ⟨replies, List.prefix_rfl, h.down⟩, fun _ => ⟨?_, h.down⟩⟩
    rw [← h.waiting_eq]
    exact h.up
  | stopped hstopped hrequests back hback hdown =>
    exact ⟨hrequests, ⟨back, hback, hdown⟩, fun hrunning =>
      absurd (hstopped.symm.trans hrunning) (by simp)⟩

/-- The server ends its side, with `replies'` instead of the replies so far. -/
theorem Agrees.stop {requests' : List α} {replies' : List β} (h : F.Agrees c requests replies)
    (hstopped : c'.stopped = true) (hsent : c'.sent = c.sent) (hdown : c'.down = c.down)
    (hrequests : requests' <+: c.sent.map F.request) (hreplies : replies <+: replies') :
    F.Agrees c' requests' replies' := by
  obtain ⟨back, hback, hholds⟩ := h.fed.unread
  refine .stopped hstopped ?_ back (hback.trans hreplies) ?_
  · rw [hsent]
    exact hrequests
  · rw [hdown]
    exact hholds

theorem sendBack_holds {down down' : L} {notice ts : List τ}
    (h : sendBack link down notice = some down') (hdown : link.Holds down ts) :
    link.Holds down' (ts ++ notice) := by
  unfold sendBack at h
  split at h
  · next hempty =>
    rw [List.isEmpty_iff.mp hempty, List.append_nil, ← Option.some.inj h]
    exact hdown
  · exact link.holds_send h hdown

/-- A message is sent. -/
theorem Agrees.send (h : F.Agrees c requests replies)
    (hstep : F.act k b c (.send x) = some (c', b', undefined)) :
    b' = b ∧ undefined = false ∧ F.Agrees c' requests replies := by
  simp only [act] at hstep
  split at hstep
  · cases hstep
  · cases hsend : link.send c.up (F.message x) with
    | none =>
      -- A message that is refused ends the client; the server goes on with those it was sent.
      simp only [hsend, Option.some.injEq, Prod.mk.injEq] at hstep
      obtain ⟨rfl, rfl, rfl⟩ := hstep
      cases h with
      | waits waiting h => exact ⟨rfl, rfl, .waits waiting ⟨h.running, h.up, h.sent, h.down⟩⟩
      | stopped hstopped hrequests back hback hdown =>
        exact ⟨rfl, rfl, .stopped hstopped hrequests back hback hdown⟩
    | some up =>
      simp only [hsend, Option.some.injEq, Prod.mk.injEq] at hstep
      obtain ⟨rfl, rfl, rfl⟩ := hstep
      refine ⟨rfl, rfl, ?_⟩
      cases h with
      | waits waiting h =>
        refine .waits (waiting ++ [x]) ⟨h.running, ?_, ?_, h.down⟩
        · rw [List.flatMap_append, List.flatMap_singleton]
          exact link.holds_send hsend h.up
        · obtain ⟨read, hread, hrequests⟩ := h.sent
          refine ⟨read, ?_, hrequests⟩
          show c.sent ++ [x] = _
          rw [hread, List.append_assoc]
      | stopped hstopped hrequests back hback hdown =>
        refine .stopped hstopped (hrequests.trans ?_) back hback hdown
        show c.sent.map F.request <+: (c.sent ++ [x]).map F.request
        rw [List.map_append]
        exact List.prefix_append _ _

/-- The next message on the wire is served. -/
theorem Waits.serve {y : β} {down : L} (h : F.Waits c (x :: waiting) requests replies)
    (hserve : B.serve k b (F.request x) = some (y, b'))
    (hback : sendBack link c.down (F.notice y) = some down) :
    ∃ up, F.act k b c .serve = some ({ c with up := up, down := down }, b', false) ∧
      F.Waits { c with up := up, down := down } waiting (requests ++ [F.request x])
        (replies ++ [y]) := by
  have hup := h.up
  rw [List.flatMap_cons] at hup
  obtain ⟨up, hprocess, hrest⟩ := F.served hserve _ _ hup
  refine ⟨up, ?_, h.running, hrest, ?_, ?_⟩
  · simp only [act, h.running, hprocess, hback, Bool.false_eq_true, if_false]
  · obtain ⟨read, hread, hrequests⟩ := h.sent
    refine ⟨read ++ [x], ?_, ?_⟩
    · show c.sent = _
      rw [hread, List.append_assoc]
      rfl
    · rw [hrequests, List.map_append]
      rfl
  · rw [List.flatMap_append, List.flatMap_singleton]
    exact sendBack_holds hback h.down

/-- A message is read, or there is none and the server ends. -/
theorem Agrees.serve (h : F.Agrees c requests replies)
    (hstep : F.act k b c .serve = some (c', b', undefined)) :
    Wiring.Seen B F.Agrees k b b' undefined c' requests replies := by
  cases h with
  | stopped hstopped =>
    simp only [act, hstopped, if_true] at hstep
    cases hstep
  | waits waiting h =>
    cases waiting with
    | nil =>
      -- Nothing has arrived: the server gives the connection up.
      obtain ⟨e, he⟩ := F.starved_process (k := k) (b := b) h.up
      simp only [act, h.running, he, Bool.false_eq_true, if_false, Option.some.injEq,
        Prod.mk.injEq] at hstep
      obtain ⟨rfl, rfl, rfl⟩ := hstep
      exact .nothing rfl rfl
        ((Agrees.waits [] h).stop rfl rfl rfl h.served List.prefix_rfl)
    | cons x waiting =>
      have hagrees : F.Agrees c requests replies := .waits _ h
      have hall : requests ++ [F.request x] <+: c.sent.map F.request := by
        refine ⟨waiting.map F.request, ?_⟩
        rw [List.append_assoc]
        exact h.requests_append
      have hup := h.up
      rw [List.flatMap_cons] at hup
      cases hserve : B.serve k b (F.request x) with
      | none =>
        obtain ⟨up, hprocess, -⟩ := F.not_served hserve _ _ hup
        simp only [act, h.running, hprocess, Bool.false_eq_true, if_false, Option.some.injEq,
          Prod.mk.injEq] at hstep
        obtain ⟨rfl, rfl, rfl⟩ := hstep
        exact .undefined (F.request x) hserve rfl rfl
          (hagrees.stop rfl rfl rfl hall List.prefix_rfl)
      | some r =>
        have hserved : B.serve k b (F.request x) = some (r.1, r.2) := hserve
        cases hback : sendBack link c.down (F.notice r.1) with
        | none =>
          -- What it sends back is refused after the request has been served.
          obtain ⟨up, hprocess, -⟩ := F.served hserved _ _ hup
          simp only [act, h.running, hprocess, hback, Bool.false_eq_true, if_false,
            Option.some.injEq, Prod.mk.injEq] at hstep
          obtain ⟨rfl, rfl, rfl⟩ := hstep
          exact .request (F.request x) r.1 hserve rfl
            (hagrees.stop rfl rfl rfl hall (List.prefix_append _ _))
        | some down =>
          obtain ⟨up, hact, hwaits⟩ := h.serve hserved hback
          obtain ⟨rfl, hrest⟩ := Prod.mk.inj (Option.some.inj (hact.symm.trans hstep))
          obtain ⟨rfl, rfl⟩ := Prod.mk.inj hrest
          exact .request (F.request x) r.1 hserve rfl (.waits waiting hwaits)

/-- **One connection.** Every step keeps a connection in agreement with the server. -/
theorem keeps (F : Feed link B ε ι) : F.wiring.Keeps B F.Agrees where
  fresh := .waits [] ⟨rfl, link.holds_empty, ⟨[], rfl, rfl⟩, link.holds_empty⟩
  act {k b c a c' b' undefined requests replies} h hstep := by
    cases a with
    | send x =>
      obtain ⟨hb, hdefined, hagrees⟩ := h.send (show F.act k b c _ = _ from hstep)
      exact .nothing hb hdefined hagrees
    | serve => exact h.serve hstep
    | close =>
      simp only [wiring, act, Option.some.injEq, Prod.mk.injEq] at hstep
      obtain ⟨rfl, rfl, rfl⟩ := hstep
      cases h with
      | waits waiting h =>
        exact .nothing rfl rfl (.waits waiting ⟨h.running, h.up, h.sent, h.down⟩)
      | stopped hstopped hrequests back hback hdown =>
        exact .nothing rfl rfl (.stopped hstopped hrequests back hback hdown)
    | drop =>
      simp only [wiring, act, Option.some.injEq, Prod.mk.injEq] at hstep
      obtain ⟨rfl, rfl, rfl⟩ := hstep
      exact .nothing rfl rfl (h.stop rfl rfl rfl h.fed.served List.prefix_rfl)

/-! ### All connections -/

variable {s s' : F.State} {as : List F.Step}

/-- **Delivery.** Every run is a run of the server alone.  Its requests on a connection are those
    of the first messages. -/
theorem fed_of_run (hrun : F.system.run (F.start b) as = some s) :
    ∃ es replies, B.machine.run { state := b } es
        = some ⟨s.backend, s.sessions.length, replies, s.undefined⟩ ∧
      ∀ (k : Nat) c, s.sessions[k]? = some c →
        F.Fed c (requestsOn k es) (repliesOn k replies) := by
  obtain ⟨es, t, h⟩ := F.keeps.of_run hrun
  refine ⟨es, t.replies, ?_, fun k c hk => (h.agrees k c hk).fed⟩
  rw [← h.state, ← h.connections, ← h.defined]
  exact h.run

/-- The same for a server with a handler for every connection. -/
theorem fed_of_run_perConnection {φ η : Type} {S : PerConnection φ η α β} {factory : φ}
    {F : Feed link S.backend ε ι} {s : F.State} {as : List F.Step}
    (hrun : F.system.run (F.start (factory, [])) as = some s) :
    s.backend.2.length = s.sessions.length ∧
      ∃ es replies, S.machine.run { factory := factory } es
          = some ⟨s.backend.1, s.backend.2, replies, s.undefined⟩ ∧
        ∀ (k : Nat) c, s.sessions[k]? = some c →
          F.Fed c (requestsOn k es) (repliesOn k replies) := by
  obtain ⟨es, replies, hserver, hfed⟩ := fed_of_run hrun
  obtain ⟨hmachine, hlength⟩ := run_backend hserver
  exact ⟨hlength.symm, es, replies, hmachine, hfed⟩

/-! ### Messages are served -/

/-- The server takes the requests `xs` on connection `k` as long as its state is in `J`, and what
    it sends back is not refused. -/
structure Takes (F : Feed link B ε ι) (k : Nat) (J : σ → Prop) (xs : List ι) : Prop where
  serve : ∀ b, J b → ∀ x ∈ xs, ∃ y b', B.serve k b (F.request x) = some (y, b') ∧
    (∀ down, ∃ down', sendBack link down (F.notice y) = some down') ∧ J b'

/-- Nothing is sent back, and so nothing is refused. -/
theorem sendBack_nil (down : L) : ∃ down', sendBack link down [] = some down' := ⟨down, rfl⟩

/-- A transport that refuses nothing. -/
theorem exists_sendBack (haccepts : ∀ down ts, ∃ down', link.send down ts = some down')
    (down : L) (notice : List τ) : ∃ down', sendBack link down notice = some down' := by
  unfold sendBack
  split
  · exact ⟨down, rfl⟩
  · exact haccepts down notice

/-- The messages on the wire are served one after another. -/
theorem Waits.drain {J : σ → Prop} {es : List (Event α)} {t : Backend.State σ β}
    (htakes : F.Takes k J waiting) (hJ : J s.backend) (hshows : Wiring.Shows B F.Agrees b s es t)
    (hdefined : s.undefined = false) (hk : s.sessions[k]? = some c)
    (h : F.Waits c waiting (requestsOn k es) (repliesOn k t.replies)) :
    ∃ s' es' t' c', F.system.run s (List.replicate waiting.length (.act k .serve)) = some s' ∧
      s'.undefined = false ∧ Wiring.Shows B F.Agrees b s' es' t' ∧ s'.sessions[k]? = some c' ∧
      c'.sent = c.sent ∧ F.Waits c' [] (requestsOn k es') (repliesOn k t'.replies) := by
  induction waiting generalizing s es t c with
  | nil => exact ⟨s, es, t, c, rfl, hdefined, hshows, hk, rfl, h⟩
  | cons x waiting ih =>
    obtain ⟨y, b', hserve, hnotice, hJ'⟩ := htakes.serve s.backend hJ x List.mem_cons_self
    obtain ⟨down, hback⟩ := hnotice c.down
    obtain ⟨up, hact, hwaits⟩ := h.serve hserve hback
    have hstep : F.system.step s (.act k .serve) = some _ := Wiring.step_act hdefined hk hact
    have hnext := hshows.request hdefined hk hserve (.waits waiting hwaits)
    have hsession : (s.sessions.set k { c with up := up, down := down })[k]? = some _ :=
      List.getElem?_set_self (List.getElem?_eq_some_iff.mp hk).1
    have hlast : F.Waits { c with up := up, down := down } waiting
        (requestsOn k (es ++ [.request k (F.request x)]))
        (repliesOn k (t.replies ++ [(k, y)])) := by
      rw [requestsOn_concat_request, repliesOn_concat]
      exact hwaits
    have hrest : F.Takes k J waiting :=
      ⟨fun b hb z hz => htakes.serve b hb z (List.mem_cons_of_mem x hz)⟩
    obtain ⟨s', es', t', c', hrun, hdrained⟩ := ih hrest hJ' hnext rfl hsession hlast
    exact ⟨s', es', t', c', Machine.run_cons hstep hrun, hdrained⟩

/-- **Completion.** After every run, and also if the client has closed its end: as long as the
    server reads from a connection, some steps of the server alone serve all that was sent on
    it, if the server takes such requests and the transport what it sends back. -/
theorem drains {J : σ → Prop} (hrun : F.system.run (F.start b) as = some s)
    (hdefined : s.undefined = false) (hk : s.sessions[k]? = some c) (hrunning : c.stopped = false)
    (htakes : F.Takes k J c.sent) (hJ : J s.backend) :
    ∃ n s' c' es replies, F.system.run s (List.replicate n (.act k .serve)) = some s' ∧
      s'.undefined = false ∧ s'.sessions[k]? = some c' ∧
      B.machine.run { state := b } es
        = some ⟨s'.backend, s'.sessions.length, replies, s'.undefined⟩ ∧
      requestsOn k es = c.sent.map F.request ∧
      link.Holds c'.down ((repliesOn k replies).flatMap F.notice) := by
  obtain ⟨es, t, h⟩ := F.keeps.of_run hrun
  cases h.agrees k c hk with
  | stopped hstopped => exact absurd (hstopped.symm.trans hrunning) (by simp)
  | waits waiting hwaits =>
    -- What still waits was sent.
    have hwaiting : F.Takes k J waiting := by
      obtain ⟨read, hsent, -⟩ := hwaits.sent
      refine ⟨fun b hb x hx => htakes.serve b hb x ?_⟩
      rw [hsent]
      exact List.mem_append_right _ hx
    obtain ⟨s', es', t', c', hrun', hdefined', hshows, hk', hsent, hdrained⟩ :=
      hwaits.drain hwaiting hJ h hdefined hk
    refine ⟨_, s', c', es', t'.replies, hrun', hdefined', hk', ?_, ?_, hdrained.down⟩
    · rw [← hshows.state, ← hshows.connections, ← hshows.defined]
      exact hshows.run
    · rw [← hsent, ← hdrained.requests_append]
      exact (List.append_nil _).symm

/-! ### Messages of two kinds -/

section

variable {α' β' ι' : Type} {B' : Backend σ α' β'}

/-- Clients that send the messages of two, to a server that serves both. -/
def sum (F : Feed link B ε ι) (F' : Feed link B' ε ι') (h : F.process = F'.process) :
    Feed link (B.sum B') ε (ι ⊕ ι') where
  message := Sum.elim F.message F'.message
  process := F.process
  request := Sum.map F.request F'.request
  notice := Sum.elim F.notice F'.notice
  served {k b x y b'} hserve := by
    cases x with
    | inl x =>
      obtain ⟨r, hr, heq⟩ := Option.map_eq_some_iff.mp hserve
      obtain ⟨rfl, rfl⟩ := Prod.mk.inj heq
      exact F.served hr
    | inr x =>
      obtain ⟨r, hr, heq⟩ := Option.map_eq_some_iff.mp hserve
      obtain ⟨rfl, rfl⟩ := Prod.mk.inj heq
      rw [h]
      exact F'.served hr
  not_served {k b x} hserve := by
    cases x with
    | inl x => exact F.not_served (Option.map_eq_none_iff.mp hserve)
    | inr x =>
      rw [h]
      exact F'.not_served (Option.map_eq_none_iff.mp hserve)
  starved_process := F.starved_process

/-- **Delivery.** If the server does not notice the messages of the second kind, then every run
    is a run of the server with those of the first kind alone, and every message that was read
    has been answered by a reply of its kind. -/
theorem fed_of_run_sum {F : Feed link B ε ι} {F' : Feed link B' ε ι'}
    {h : F.process = F'.process} {s : (F.sum F' h).State} {as : List (F.sum F' h).Step}
    (hpassive : B'.Passive) (hrun : (F.sum F' h).system.run ((F.sum F' h).start b) as = some s) :
    ∃ es replies, B.machine.run { state := b } (Backend.leftEvents es)
        = some ⟨s.backend, s.sessions.length, Backend.leftReplies replies, s.undefined⟩ ∧
      ∀ (k : Nat) c, s.sessions[k]? = some c →
        (F.sum F' h).Fed c (requestsOn k es) (repliesOn k replies) ∧
        (s.undefined = false →
          (repliesOn k replies).map Sum.isLeft = (requestsOn k es).map Sum.isLeft) := by
  obtain ⟨es, replies, hserver, hfed⟩ := fed_of_run hrun
  exact ⟨es, replies, Backend.run_sum hpassive hserver, fun k c hk =>
    ⟨hfed k c hk, (Backend.kinds_of_run_sum hserver k).2⟩⟩

end

end Feed

end Lib
