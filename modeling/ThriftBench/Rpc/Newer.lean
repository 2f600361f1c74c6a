import ThriftBench.Rpc.Loopback
import ThriftBench.Rpc.Services

namespace ThriftBench.Rpc

open Lib PerConnection

/-!
# Clients of a newer version

A service may get new parameters, and its structs new members.  The messages of a client that is
newer than the server then have fields that the processor does not know, and it passes over them
wherever they stand.

* `Arguments.Extended` — arguments with such fields, also inside the structs among them, and
  `Arguments.extended` — the arguments of the same version;
* `Method.newer`, `OnewayMethod.newer` — clients that call with them;
* `newer_clients_served` — the server does not notice the difference.
-/

section

variable {I D ε A A' Res R σ σ' α β α' β' : Type} {P : TProtocol I D ε}

/-- Arguments on the wire, with other fields among those that the processor knows. -/
structure Arguments.Extended (g : Arguments P A) where
  args : A
  fields : List (Tag × Value D)
  fits : ∀ x ∈ fields, x.2.Fits P.recursionLimit
  /-- Without the other fields, also those inside of structs, they are the arguments. -/
  known : g.struct.strip fields = g.struct.values args

namespace Arguments

variable {g : Arguments P A} {fname : String} {mtype : TMessageType} {seqid : BitVec 32}

/-- The message. -/
def Extended.message (x : g.Extended) (fname : String) (mtype : TMessageType) (seqid : BitVec 32) :
    List (Token D) :=
  .messageBegin fname mtype seqid :: ((Value.struct g.pargs x.fields).tokens ++ [.messageEnd])

/-- The arguments arrive as if the other fields were not there. -/
theorem Extended.arrives (x : g.Extended) (hmtype : mtype = .call ∨ mtype = .oneway) :
    g.Arrives fname seqid (g.arrived x.args) (x.message fname mtype seqid) := by
  refine .intro hmtype x.fits ?_
  rw [Struct.foldlM_store_strip, x.known]
  exact g.arrives_values x.args

/-- Arguments without other fields are those of the same version. -/
def extended {a : A} (hsend : g.struct.Sendable a) : g.Extended where
  args := a
  fields := g.struct.values a
  fits := g.fits hsend
  known := g.struct.strip_values a

/-- Their message is the one of a client of the same version. -/
theorem message_extended {a : A} (hsend : g.struct.Sendable a) :
    (extended hsend).message fname mtype seqid = .messageBegin fname mtype seqid ::
      ((g.struct.named g.pargs).write a ++ [.messageEnd]) := by
  rw [Struct.write_eq]
  rfl

end Arguments

/-- A call of a newer client: the object for the result, and the arguments. -/
structure Method.Extended (m : Method P A Res R) where
  ret : R
  args : m.args.Extended

/-- Clients of a newer version. -/
def Method.newer (m : Method P A Res R) (B : Backend σ α β) (request : A → α)
    (answer : β → Except String R) :
    Remote P.toLink B ε m.Extended (Except TApplicationException R) where
  call x := x.args.message m.name .call 0
  recv x := m.recv x.ret
  process k := processMessage [(m.name, m.processOn B request answer k)]
  request x := request (m.args.arrived x.args.args)
  outcome y := m.outcome (answer y)
  served {_ _ x y _} hserve :=
    ⟨_, served_arrives List.lookup_cons_self (x.args.arrives (Or.inl rfl)) hserve,
      m.recv_reads x.ret 0 (answer y)⟩
  not_served {_ _ x} hserve :=
    not_served_arrives List.lookup_cons_self (x.args.arrives (Or.inl rfl)) hserve
  starved_process := starved_processMessage
  starved_recv := m.starved_recv

/-- The same for a one-way method. -/
def OnewayMethod.newer (m : OnewayMethod P A) (B : Backend σ α β) (request : A → α)
    (answer : β → Except String Unit) : Feed P.toLink B ε m.args.Extended :=
  m.feedOf (fun x => x.message m.name .oneway 0) (fun x => m.args.arrived x.args)
    (fun x => x.arrives (Or.inr rfl)) B request answer

/-- **Newer clients of a method.** Every run is one of the server with the arguments that the
    clients have passed, in the order of the calls on each connection, and the clients get the
    answers to them. -/
theorem Method.newer_served {m : Method P A Res R} {B : Backend σ α β} {request : A → α}
    {answer : β → Except String R} {b : σ} {as : List (m.newer B request answer).Step}
    {s : (m.newer B request answer).State}
    (hrun : (m.newer B request answer).system.run ((m.newer B request answer).start b) as
      = some s) :
    ∃ es replies, B.machine.run { state := b } es
        = some ⟨s.backend, s.sessions.length, replies, s.undefined⟩ ∧
      ∀ (k : Nat) c, s.sessions[k]? = some c → c.Counted ∧
        requestsOn k es <+: (c.sent.map fun x => request (m.args.arrived x.args.args)) ∧
        c.outcomes <+: (repliesOn k replies).map (fun y => m.outcome (answer y)) ∧
        (c.closed = false → c.pending = none →
          requestsOn k es = c.sent.map fun x => request (m.args.arrived x.args.args)) := by
  obtain ⟨es, replies, hserver, hdelivered⟩ := Remote.delivered_of_run hrun
  refine ⟨es, replies, hserver, fun k c hk => ?_⟩
  have hd := hdelivered k c hk
  exact ⟨hd.count, hd.served, hd.returned, fun hopen hidle => (hd.settled hopen hidle).1⟩

/-- **Newer clients of a one-way method.** Every run is one of the server with the arguments that
    the clients have passed, in the order of the calls on each connection; as long as the server
    reads, those that have not been served are on the wire, and some steps of the server alone
    serve all of them if it takes such calls; and nothing is sent back. -/
theorem OnewayMethod.newer_served {m : OnewayMethod P A} {B : Backend σ α β} {request : A → α}
    {answer : β → Except String Unit} {b : σ} {as : List (m.newer B request answer).Step}
    {s : (m.newer B request answer).State}
    (hrun : (m.newer B request answer).system.run ((m.newer B request answer).start b) as
      = some s) :
    ∃ es replies, B.machine.run { state := b } es
        = some ⟨s.backend, s.sessions.length, replies, s.undefined⟩ ∧
      ∀ (k : Nat) c, s.sessions[k]? = some c →
        requestsOn k es <+: (c.sent.map fun x => request (m.args.arrived x.args)) ∧
        (c.stopped = false → P.Holds c.up ((c.sent.drop (requestsOn k es).length).flatMap
          fun x => x.message m.name .oneway 0)) ∧
        P.Holds c.down [] ∧
        (s.undefined = false → c.stopped = false →
          (∀ b, ∀ x ∈ c.sent, ∃ y b', B.serve k b (request (m.args.arrived x.args))
            = some (y, b')) →
          ∃ n s' es' replies', (m.newer B request answer).system.run s
              (List.replicate n (.act k .serve)) = some s' ∧
            B.machine.run { state := b } es'
              = some ⟨s'.backend, s'.sessions.length, replies', s'.undefined⟩ ∧
            requestsOn k es' = c.sent.map fun x => request (m.args.arrived x.args)) := by
  obtain ⟨es, replies, hserver, hfed⟩ := Feed.fed_of_run hrun
  refine ⟨es, replies, hserver, fun k c hk => ?_⟩
  have hd := hfed k c hk
  obtain ⟨back, -, hdown⟩ := hd.unread
  have hnothing : back.flatMap (m.newer B request answer).notice = [] :=
    List.flatMap_eq_nil_iff.mpr fun _ _ => rfl
  refine ⟨hd.served, fun hreads => (hd.kept hreads).1, hnothing ▸ hdown,
    fun hdefined hreads hserve => ?_⟩
  have htakes : (m.newer B request answer).Takes k (fun _ => True) c.sent := by
    refine ⟨fun b _ x hx => ?_⟩
    obtain ⟨y, b', hserved⟩ := hserve b x hx
    exact ⟨y, b', hserved, Feed.sendBack_nil, trivial⟩
  obtain ⟨n, s', c', es', replies', hsteps, -, -, hserver', hall, -⟩ :=
    Feed.drains hrun hdefined hk hreads htakes trivial
  exact ⟨n, s', es', replies', hsteps, hserver', hall⟩

/-- **Newer clients.** For every method and every one-way method: whatever fields the clients add,
    to the parameters or inside of the structs among them, and wherever they put them, every run
    is one of the server with the arguments that the clients have passed, in the order of the
    calls on each connection.  Clients that wait for answers get the answers to them; what has
    been sent to a one-way method and is not served is on the wire as long as the server
    reads, and some steps of the server alone serve it. -/
theorem newer_clients_served (m : Method P A Res R) (B : Backend σ α β) (request : A → α)
    (answer : β → Except String R) (b : σ) (m' : OnewayMethod P A') (B' : Backend σ' α' β')
    (request' : A' → α') (answer' : β' → Except String Unit) (b' : σ') :
    (∀ (as : List (m.newer B request answer).Step) (s : (m.newer B request answer).State),
      (m.newer B request answer).system.run ((m.newer B request answer).start b) as = some s →
      ∃ es replies, B.machine.run { state := b } es
          = some ⟨s.backend, s.sessions.length, replies, s.undefined⟩ ∧
        ∀ (k : Nat) c, s.sessions[k]? = some c → c.Counted ∧
          requestsOn k es <+: (c.sent.map fun x => request (m.args.arrived x.args.args)) ∧
          c.outcomes <+: (repliesOn k replies).map (fun y => m.outcome (answer y)) ∧
          (c.closed = false → c.pending = none →
            requestsOn k es = c.sent.map fun x => request (m.args.arrived x.args.args))) ∧
    ∀ (as : List (m'.newer B' request' answer').Step) (s : (m'.newer B' request' answer').State),
      (m'.newer B' request' answer').system.run ((m'.newer B' request' answer').start b') as
        = some s →
      ∃ es replies, B'.machine.run { state := b' } es
          = some ⟨s.backend, s.sessions.length, replies, s.undefined⟩ ∧
        ∀ (k : Nat) c, s.sessions[k]? = some c →
          requestsOn k es <+: (c.sent.map fun x => request' (m'.args.arrived x.args)) ∧
          (c.stopped = false → P.Holds c.up ((c.sent.drop (requestsOn k es).length).flatMap
            fun x => x.message m'.name .oneway 0)) ∧
          P.Holds c.down [] ∧
          (s.undefined = false → c.stopped = false →
            (∀ b, ∀ x ∈ c.sent, ∃ y b'', B'.serve k b (request' (m'.args.arrived x.args))
              = some (y, b'')) →
            ∃ n s' es' replies', (m'.newer B' request' answer').system.run s
                (List.replicate n (.act k .serve)) = some s' ∧
              B'.machine.run { state := b' } es'
                = some ⟨s'.backend, s'.sessions.length, replies', s'.undefined⟩ ∧
              requestsOn k es' = c.sent.map fun x => request' (m'.args.arrived x.args)) :=
  ⟨fun _ _ => Method.newer_served, fun _ _ => OnewayMethod.newer_served⟩

end

/-- The arguments of `call` with a span in the context and a tenant after the message. -/
def extendedCallArgs : (EchoService.call (loopback Unit)).args.Extended where
  args := { req := { req_id := 7, baggage := "b" }, message := "seven" }
  fields := [(⟨"req", 1⟩, .struct "TraceContext"
      [(⟨"req_id", 1⟩, .i64 7), (⟨"span", 3⟩, .i64 9), (⟨"baggage", 2⟩, .string "b")]),
    (⟨"message", 2⟩, .string "seven"), (⟨"tenant", 3⟩, .string "t")]
  fits x hx := by
    simp only [List.mem_cons, List.not_mem_nil, or_false] at hx
    rcases hx with rfl | rfl | rfl
    · refine .struct fun y hy => ?_
      simp only [List.mem_cons, List.not_mem_nil, or_false] at hy
      rcases hy with rfl | rfl | rfl
      · exact .i64 _ _
      · exact .i64 _ _
      · exact .string _ _
    · exact .string _ _
    · exact .string _ _
  known := rfl

/-- The arguments of `compute_result` with a struct in front of them. -/
def extendedResultArgs : (AsyncService.computeResult (loopback Unit)).args.Extended where
  args := ⟨1, 2, false, false⟩
  fields := [(⟨"context", 7⟩, .struct "Context" [(⟨"req_id", 1⟩, .i64 5)]), (⟨"num_1", 1⟩, .i64 1),
    (⟨"num_2", 2⟩, .i64 2)]
  fits x hx := by
    simp only [List.mem_cons, List.not_mem_nil, or_false] at hx
    rcases hx with rfl | rfl | rfl
    · refine .struct fun y hy => ?_
      obtain rfl := List.mem_singleton.mp hy
      exact .i64 _ _
    · exact .i64 _ _
    · exact .i64 _ _
  known := rfl

/-- A server that takes every call. -/
def takesAll (A : Type) : Backend Unit A Unit := .ofReply fun _ => some ()

/-- Clients that call with them. -/
def newerCalls :=
  (EchoService.call (loopback Unit)).newer (takesAll EchoService.CallArgs) id .ok

def newerResults :=
  (AsyncService.computeResult (loopback Unit)).newer (takesAll (TwoArgs (BitVec 64) (BitVec 64)))
    id .ok

/-- One client that gets its answer, and one that closes its end before the server reads. -/
def oneNewerCall : List newerCalls.Step :=
  [.connect, .act 0 (.send ⟨(), extendedCallArgs⟩), .act 0 .serve, .act 0 .recv]

def oneNewerResult : List newerResults.Step :=
  [.connect, .act 0 (.send extendedResultArgs), .act 0 .close, .act 0 .serve]

/-- The servers get the arguments, and nothing of what was added. -/
theorem newer_clients_served_sample :
    (∃ s, newerCalls.system.run (newerCalls.start ()) oneNewerCall = some s ∧
      ∃ es replies, (takesAll EchoService.CallArgs).machine.run { state := () } es
          = some ⟨s.backend, s.sessions.length, replies, s.undefined⟩ ∧
        requestsOn 0 es = [⟨⟨7, "b", true, true⟩, "seven", true, true⟩]) ∧
    ∃ s, newerResults.system.run (newerResults.start ()) oneNewerResult = some s ∧
      ∃ es replies, (takesAll (TwoArgs (BitVec 64) (BitVec 64))).machine.run { state := () } es
          = some ⟨s.backend, s.sessions.length, replies, s.undefined⟩ ∧
        requestsOn 0 es = [⟨1, 2, true, true⟩] := by
  obtain ⟨hcalls, hresults⟩ := newer_clients_served (EchoService.call (loopback Unit))
    (takesAll EchoService.CallArgs) id .ok () (AsyncService.computeResult (loopback Unit))
    (takesAll (TwoArgs (BitVec 64) (BitVec 64))) id .ok ()
  constructor
  · obtain ⟨s, hrun, hs⟩ : ∃ s, newerCalls.system.run (newerCalls.start ()) oneNewerCall = some s ∧
        s.sessions[0]?.map (fun c => (c.sent.map fun x => x.args.args, c.closed, c.pending.isNone))
          = some ([{ req := { req_id := 7, baggage := "b" }, message := "seven" }], false, true) :=
      Option.map_eq_some_iff.mp (by decide +kernel)
    obtain ⟨es, replies, hserver, hclients⟩ := hcalls _ s hrun
    obtain ⟨c, hc, heq⟩ := Option.map_eq_some_iff.mp hs
    obtain ⟨hsent, hstate⟩ := Prod.mk.inj heq
    obtain ⟨hopen, hidle⟩ := Prod.mk.inj hstate
    -- Nothing is under way, and so the call has been served.
    have hserved := (hclients 0 c hc).2.2.2 hopen (Option.isNone_iff_eq_none.mp hidle)
    refine ⟨s, hrun, es, replies, hserver, hserved.trans ?_⟩
    exact (List.map_map (l := c.sent)).symm.trans
      (congrArg (List.map (EchoService.call (loopback Unit)).args.arrived) hsent)
  · obtain ⟨s, hrun, hs⟩ : ∃ s, newerResults.system.run (newerResults.start ()) oneNewerResult
          = some s ∧
        s.sessions[0]?.map (fun c => (c.sent.map fun x => x.args, c.stopped, c.up.isEmpty))
          = some ([⟨1, 2, false, false⟩], false, true) :=
      Option.map_eq_some_iff.mp (by decide +kernel)
    obtain ⟨es, replies, hserver, hclients⟩ := hresults _ s hrun
    obtain ⟨c, hc, heq⟩ := Option.map_eq_some_iff.mp hs
    obtain ⟨hsent, hstate⟩ := Prod.mk.inj heq
    obtain ⟨hreads, hempty⟩ := Prod.mk.inj hstate
    obtain ⟨hserved, hwire, -⟩ := hclients 0 c hc
    -- Nothing is on the wire, and so nothing is left to be served.
    have hnone : (c.sent.drop (requestsOn 0 es).length).flatMap
        (fun x => x.message "compute_result" .oneway 0) = [] :=
      (hwire hreads).symm.trans (List.isEmpty_iff.mp hempty)
    have hall : c.sent.length ≤ (requestsOn 0 es).length := by
      refine List.drop_eq_nil_iff.mp (List.eq_nil_iff_forall_not_mem.mpr fun x hx => ?_)
      exact absurd (List.flatMap_eq_nil_iff.mp hnone x hx) (List.cons_ne_nil _ _)
    have hequal := hserved.eq_of_length_le (by rwa [List.length_map])
    refine ⟨s, hrun, es, replies, hserver, hequal.trans ?_⟩
    exact (List.map_map (l := c.sent)).symm.trans
      (congrArg (List.map (AsyncService.computeResult (loopback Unit)).args.arrived) hsent)

end ThriftBench.Rpc
