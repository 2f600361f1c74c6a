import ThriftBench.Hello.Clients
import ThriftBench.Hindsight.Sessions

namespace ThriftBench.Hindsight

open Lib PerConnection Rpc

/-!
# Hindsight echo server — what clients and tracer see

The server behind its generated processor, and clients that make calls over connections.  Every
connection has a thread, and the tracer keeps the calls of a thread in their order.

* `echoServer`, `callClients` — the server and its clients;
* `thread_of_run` — what a thread has handled and traced;
* `sessions_of_clients` — the sessions on a thread are those of the calls of its client;
* `sessions_with_foreign` — also where clients of another service are connected to the server,
  as those of HelloWorld may be, which listens on the same port.
-/

/-- The thread of a connection: how many calls it has handled, and the calls of the tracer. -/
structure Thread where
  connection : Nat
  calls : Nat := 0
  log : List TracerCall := []

/-- The server; `stack k i` is what `mess` holds when call `i` on connection `k` is handled. -/
def echoServer (stack : Nat → Nat → Mess) : PerConnection Nat Thread TraceContext Unit where
  getHandler n := some (⟨n, 0, []⟩, n + 1)
  serve h req :=
    match call req.req_id (stack h.connection h.calls) with
    | .error _  => none
    | .ok calls => some ((), { h with calls := h.calls + 1, log := h.log ++ calls })

/-- The requests on connection `k`. -/
def requestsOf (stack : Nat → Nat → Mess) (k : Nat) (reqs : List TraceContext) : List Request :=
  reqs.mapIdx fun i req => ⟨req.req_id, stack k i⟩

/-- One more request. -/
theorem handleAll_concat {requests : List Request} {r : Request} {log calls : List TracerCall}
    (hlog : handleAll requests = .ok log) (hcalls : call r.req_id r.mess = .ok calls) :
    handleAll (requests ++ [r]) = .ok (log ++ calls) := by
  unfold handleAll at hlog ⊢
  rw [List.foldlM_append, hlog]
  show List.foldlM (fun log r => (call r.req_id r.mess).map (log ++ ·)) log [r] = _
  rw [List.foldlM_cons, hcalls]
  rfl

section

variable (stack : Nat → Nat → Mess)

/-- **Thread.** The thread of a connection handles the requests one after another. -/
theorem transduce_serve (k : Nat) (reqs : List TraceContext) :
    ∃ log, handleAll (requestsOf stack k reqs) = .ok log ∧
      transduce (echoServer stack).serve ⟨k, 0, []⟩ reqs
        = some (List.replicate reqs.length (), ⟨k, reqs.length, log⟩) := by
  induction reqs using List.reverseRecOn with
  | nil => exact ⟨[], rfl, rfl⟩
  | append_singleton reqs req ih =>
    obtain ⟨log, hlog, htransduce⟩ := ih
    -- The call runs on what the earlier ones have left on the stack.
    obtain ⟨calls, hcalls, -⟩ := run_call ⟨req.req_id, stack k reqs.length⟩ []
    refine ⟨log ++ calls, ?_, ?_⟩
    · rw [requestsOf, List.mapIdx_concat]
      exact handleAll_concat hlog hcalls
    · have hserve : (echoServer stack).serve ⟨k, reqs.length, log⟩ req
          = some ((), ⟨k, reqs.length + 1, log ++ calls⟩) := by
        simp only [echoServer, hcalls]
      rw [transduce_append_singleton, htransduce]
      show ((echoServer stack).serve ⟨k, reqs.length, log⟩ req).map _ = _
      rw [hserve, List.length_append, List.length_singleton, List.replicate_succ']
      rfl

/-- The threads that the server starts. -/
theorem getHandlers_eq (n : Nat) :
    (echoServer stack).getHandlers 0 n = some ((List.range n).map fun k => ⟨k, 0, []⟩, n) := by
  induction n with
  | zero => rfl
  | succ n ih =>
    rw [getHandlers_succ, ih, List.range_succ, List.map_append]
    rfl

/-- No request has an undefined behaviour. -/
theorem echoServer_defined (es : List (Event TraceContext)) : Defined (echoServer stack) 0 es := by
  refine ⟨_, _, getHandlers_eq stack (connects es), fun k first hfirst => ?_⟩
  rw [List.getElem?_map] at hfirst
  obtain ⟨j, -, rfl⟩ := Option.map_eq_some_iff.mp hfirst
  obtain ⟨log, -, htransduce⟩ := transduce_serve stack j (requestsOn k es)
  rw [htransduce]
  rfl

end

/-- **Run.** What the thread of an open connection has handled: the requests on the connection,
    each in a session of its own. -/
theorem thread_of_run {stack : Nat → Nat → Mess} {es : List (Event TraceContext)}
    {t : PerConnection.State Nat Thread Unit}
    (hrun : (echoServer stack).machine.run { factory := 0 } es = some t) :
    t.undefined = false ∧ ∀ k, k < t.handlers.length → ∃ h, t.handlers[k]? = some h ∧
      h.calls = (requestsOn k es).length ∧ (repliesOn k t.replies).length = h.calls ∧
      tracer.run {} h.log = some ⟨none, (requestsOf stack k (requestsOn k es)).map sessionOf⟩ := by
  have hdefined := (undefined_eq_false_iff hrun).mpr (echoServer_defined stack es)
  refine ⟨hdefined, fun k hk => ?_⟩
  -- The thread of a connection has seen its own requests only.
  obtain ⟨handlers, hmade, hhandlers, hserved⟩ := (projected_of_run hrun hdefined).made
  rw [getHandlers_eq] at hmade
  obtain ⟨rfl, -⟩ := Prod.mk.inj (Option.some.inj hmade)
  have hlt : k < connects es := by
    rw [List.length_map, List.length_range] at hhandlers
    exact hhandlers ▸ hk
  obtain ⟨h, htransduce, hlast⟩ := hserved k ⟨k, 0, []⟩ (by simp [hlt])
  obtain ⟨log, hlog, hserve⟩ := transduce_serve stack k (requestsOn k es)
  obtain ⟨hreplies, rfl⟩ := Prod.mk.inj (Option.some.inj (hserve.symm.trans htransduce))
  refine ⟨_, hlast, rfl, ?_, ?_⟩
  · rw [← hreplies, List.length_replicate]
  · obtain ⟨log', hlog', htraced⟩ := run_handleAll (requestsOf stack k (requestsOn k es))
    obtain rfl := Except.ok.inj (hlog.symm.trans hlog')
    exact htraced

section

variable {I D ε : Type} {P : TProtocol I D ε} {stack : Nat → Nat → Mess}

/-- Clients of the echo server; the handler does not read `message`. -/
def callClients (P : TProtocol I D ε) (stack : Nat → Nat → Mess) :
    Remote P.toLink (echoServer stack).backend ε (EchoService.call P).Invocation
      (Except TApplicationException Unit) :=
  (EchoService.call P).remote (echoServer stack).backend EchoService.CallArgs.req .ok

/-- The requests that have been handled are the first ones of the client. -/
theorem requestsOf_take {k : Nat} {reqs : List TraceContext}
    {sent : List (EchoService.call P).Invocation}
    (h : reqs <+: sent.map fun x => ((EchoService.call P).args.arrived x.args).req) :
    requestsOf stack k reqs
      = requestsOf stack k ((sent.take reqs.length).map fun x => x.args.req) := by
  have htake := List.prefix_iff_eq_take.mp h
  rw [← List.map_take] at htake
  -- Only `req_id` counts, and it arrives as it was sent.
  have hids : ∀ xs : List (EchoService.call P).Invocation,
      requestsOf stack k (xs.map fun x => ((EchoService.call P).args.arrived x.args).req)
        = requestsOf stack k (xs.map fun x => x.args.req) := by
    intro xs
    apply List.ext_getElem?
    intro i
    simp only [requestsOf, List.getElem?_mapIdx, List.getElem?_map, Option.map_map]
    rfl
  calc requestsOf stack k reqs
      = requestsOf stack k ((sent.take reqs.length).map fun x =>
          ((EchoService.call P).args.arrived x.args).req) := congrArg _ htake
    _ = requestsOf stack k ((sent.take reqs.length).map fun x => x.args.req) := hids _

/-- **Sessions of clients.** In every run and on every connection: the tracer accepts the log of
    the thread, which is one complete session for each call that the thread has handled; these
    are the first calls of the client, in their order; and the calls that have returned, all of
    them without an exception, are among them. -/
theorem sessions_of_clients {as : List (callClients P stack).Step}
    {s : (callClients P stack).State}
    (hrun : (callClients P stack).system.run ((callClients P stack).start (0, [])) as = some s) :
    s.undefined = false ∧ ∀ (k : Nat) c, s.sessions[k]? = some c →
      (∀ y ∈ c.outcomes, y = .ok ()) ∧ ∃ h, s.backend.2[k]? = some h ∧
        c.outcomes.length ≤ h.calls ∧ h.calls ≤ c.sent.length ∧
        tracer.run {} h.log = some ⟨none, (requestsOf stack k
          ((c.sent.take h.calls).map fun x => x.args.req)).map sessionOf⟩ := by
  obtain ⟨hlength, es, replies, hserver, hdelivered⟩ :=
    Remote.delivered_of_run_perConnection hrun
  obtain ⟨hdefined, hthreads⟩ := thread_of_run hserver
  refine ⟨hdefined, fun k c hk => ?_⟩
  obtain ⟨h, hlast, hcalls, hreplies, htraced⟩ :=
    hthreads k (hlength ▸ (List.getElem?_eq_some_iff.mp hk).1)
  have hd := hdelivered k c hk
  refine ⟨fun y hy => ?_, h, hlast, ?_, ?_, ?_⟩
  · obtain ⟨u, -, rfl⟩ := List.mem_map.mp (hd.returned.subset hy)
    rfl
  · rw [← hreplies]
    exact length_le_of_prefix_map hd.returned
  · rw [hcalls]
    exact length_le_of_prefix_map hd.served
  · rw [htraced, requestsOf_take hd.served, hcalls]

end

/-- A call over the protocol in memory. -/
def callOf (req_id : BitVec 64) (message : String) :
    (EchoService.call (loopback Unit)).Invocation where
  ret := ()
  args := { req := { req_id := req_id }, message := message }
  sendable := EchoService.sendable _ _

/-- A stack that holds zeros. -/
def zeroStack : Nat → Nat → Mess := fun _ _ => .filled 0

/-- Two clients, one of which goes away before its call is handled. -/
def twoCalls : List (callClients (loopback Unit) zeroStack).Step :=
  [.connect, .connect, .act 0 (.send (callOf 7 "seven")), .act 1 (.send (callOf 8 "eight")),
    .act 0 .serve, .act 1 .drop, .act 0 .recv]

/-- The call of the first client has a session on its thread. -/
theorem sessions_of_clients_sample : ∃ s, (callClients (loopback Unit) zeroStack).system.run
      ((callClients (loopback Unit) zeroStack).start (0, [])) twoCalls = some s ∧
    ∃ h, s.backend.2[0]? = some h ∧
      tracer.run {} h.log = some ⟨none, [sessionOf ⟨7, .filled 0⟩]⟩ := by
  obtain ⟨s, hrun, hs⟩ : ∃ s, (callClients (loopback Unit) zeroStack).system.run
      ((callClients (loopback Unit) zeroStack).start (0, [])) twoCalls = some s ∧
      s.sessions[0]?.map (fun c => (c.sent.map fun x => x.args.req, c.outcomes.length))
        = some ([{ req_id := 7 }], 1) := Option.map_eq_some_iff.mp (by decide +kernel)
  obtain ⟨c, hc, heq⟩ := Option.map_eq_some_iff.mp hs
  obtain ⟨hsent, hreturned⟩ := Prod.mk.inj heq
  obtain ⟨-, h, hh, hle, hge, htraced⟩ := (sessions_of_clients hrun).2 0 c hc
  -- It has returned, and so it has been handled.
  have hlength := congrArg List.length hsent
  rw [List.length_map] at hlength
  have hcalls : h.calls = 1 := Nat.le_antisymm (hge.trans_eq hlength) (hreturned ▸ hle)
  rw [hcalls, List.map_take, hsent] at htraced
  exact ⟨s, hrun, h, hh, htraced⟩

/-! ### With clients of another service -/

section

variable {I D ε A Res R : Type} {P : TProtocol I D ε} {stack : Nat → Nat → Mess}
  {m : Method P A Res R} {h : m.name ≠ "call"}

/-- Clients of the service, and of one with the method `m`. -/
def mixedClients (stack : Nat → Nat → Mess) (m : Method P A Res R) (h : m.name ≠ "call") :=
  (EchoService.call P).mixed m h (echoServer stack).backend EchoService.CallArgs.req .ok

/-- **Sessions with other clients.** The log of a thread has no trace of a call of another
    service, wherever it comes between the calls: it is one complete session for each `call`
    that the thread has handled, among which are those that have returned.  Every call of the
    other service gets an exception, and no `call` does. -/
theorem sessions_with_foreign {as : List (mixedClients stack m h).Step}
    {s : (mixedClients stack m h).State}
    (hrun : (mixedClients stack m h).system.run ((mixedClients stack m h).start (0, [])) as
      = some s) :
    s.undefined = false ∧ ∀ (k : Nat) c, s.sessions[k]? = some c →
      (∀ (i : Nat) x y, c.sent[i]? = some x → c.outcomes[i]? = some y →
        y = if x.isLeft = true then .inl (.ok ())
          else .inr (.error ⟨.unknownMethod, "Invalid method name: '" ++ m.name ++ "'"⟩)) ∧
      ∃ t, s.backend.2[k]? = some t ∧
        (c.outcomes.filterMap Sum.getLeft?).length ≤ t.calls ∧
        t.calls ≤ (c.sent.filterMap Sum.getLeft?).length ∧
        tracer.run {} t.log = some ⟨none, (requestsOf stack k
          (((c.sent.filterMap Sum.getLeft?).take t.calls).map fun x => x.args.req)).map
            sessionOf⟩ := by
  obtain ⟨hlength, es, replies, hserver, hmixed⟩ := Method.mixed_delivered_perConnection hrun
  obtain ⟨hdefined, hthreads⟩ := thread_of_run hserver
  refine ⟨hdefined, fun k c hk => ?_⟩
  obtain ⟨t, hlast, hcalls, hreplies, htraced⟩ :=
    hthreads k (hlength ▸ (List.getElem?_eq_some_iff.mp hk).1)
  have hm := hmixed k c hk
  refine ⟨?_, t, hlast, ?_, ?_, ?_⟩
  · intro i x y hx hy
    cases x with
    | inl x =>
      obtain ⟨r, rfl⟩ := hm.own i x hx y hy
      obtain ⟨-, -, rfl⟩ := hm.reply hy
      rfl
    | inr x => exact hm.foreign i x hx y hy
  · rw [← hreplies]
    exact length_le_of_prefix_map hm.returned
  · rw [hcalls]
    exact length_le_of_prefix_map hm.served
  · rw [htraced, requestsOf_take hm.served, hcalls]

end

/-- Clients of EchoService and HelloWorld. -/
def callAndHelloClients :=
  mixedClients zeroStack (HelloWorld.helloWorld (loopback Unit))
    (show "hello_world" ≠ "call" by decide)

/-- One connection, with a `hello_world` between two calls. -/
def helloBetween : List callAndHelloClients.Step :=
  [.connect, .act 0 (.send (.inl (callOf 7 "seven"))), .act 0 .serve, .act 0 .recv,
    .act 0 (.send (.inr Hello.helloOf)), .act 0 .serve, .act 0 .recv,
    .act 0 (.send (.inl (callOf 8 "eight"))), .act 0 .serve, .act 0 .recv]

/-- The log has the two calls, one after the other. -/
theorem sessions_with_foreign_sample :
    ∃ s, callAndHelloClients.system.run (callAndHelloClients.start (0, [])) helloBetween = some s ∧
      ∃ t, s.backend.2[0]? = some t ∧ tracer.run {} t.log
        = some ⟨none, [sessionOf ⟨7, .filled 0⟩, sessionOf ⟨8, .filled 0⟩]⟩ := by
  obtain ⟨s, hrun, hs⟩ : ∃ s, callAndHelloClients.system.run
      (callAndHelloClients.start (0, [])) helloBetween = some s ∧
      s.sessions[0]?.map (fun c => ((c.sent.filterMap Sum.getLeft?).map fun x => x.args.req,
        (c.outcomes.filterMap Sum.getLeft?).length))
        = some ([{ req_id := 7 }, { req_id := 8 }], 2) :=
    Option.map_eq_some_iff.mp (by decide +kernel)
  obtain ⟨c, hc, heq⟩ := Option.map_eq_some_iff.mp hs
  obtain ⟨hsent, hreturned⟩ := Prod.mk.inj heq
  obtain ⟨-, t, ht, hle, hge, htraced⟩ := (sessions_with_foreign hrun).2 0 c hc
  have hlength := congrArg List.length hsent
  rw [List.length_map] at hlength
  have hcalls : t.calls = 2 := Nat.le_antisymm (hge.trans_eq hlength) (hreturned ▸ hle)
  rw [hcalls, List.map_take, hsent] at htraced
  exact ⟨s, hrun, t, ht, htraced⟩

end ThriftBench.Hindsight
