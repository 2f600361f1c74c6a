import ThriftBench.Rpc.Loopback
import ThriftBench.Rpc.Services

namespace ThriftBench.UniqueId

open Lib PerConnection Rpc

/-!
# UniqueID — three versions of a service

Three services of the repository have a method `compute_unique_id`: UniqueID returns the id,
`uniqueid`, from which it was made, returns nothing, and UniqueIDAsync is not answered and takes
an `i64`.  Their clients and servers do not notice that they are not of the same version.

* `oldClient`, `old_client_outcomes` — a client of `uniqueid` at the server of UniqueID;
* `newClient`, `new_client_outcomes` — a client of UniqueID at a server of `uniqueid`;
* `waitingClients`, `waiting_never_answered` — a client of UniqueID at the server of
  UniqueIDAsync.

The handlers are left open: the results are about any server behind the generated processor.
-/

section

variable {I D ε σ α β : Type} (P : TProtocol I D ε)

/-- A client of `uniqueid` at the server of UniqueID: it passes over the id. -/
def oldClient : Method.Skew (Uniqueid.computeUniqueId P) (UniqueID.computeUniqueId P) where
  arrived a := ⟨a.value, true⟩
  outcome
    | .ok _       => .ok ()
    | .error what => .error ⟨.unknown, what⟩
  arrives hsend := (Uniqueid.computeUniqueId P).call_arrives _ hsend rfl
  returns ret answer := by
    cases answer with
    | error what => exact Method.recv_exception _ ret _ 0 _
    | ok r =>
      -- The string of the result is a field that this client does not know.
      have hresult : Reads P.Holds _ _ ((Uniqueid.computeUniqueId P).returned ()) :=
        (Uniqueid.computeUniqueId P).recv_result (UniqueID.computeUniqueId P) rfl ret r rfl
      exact hresult

/-- A client of UniqueID at a server of `uniqueid`: no id comes. -/
def newClient : Method.Skew (UniqueID.computeUniqueId P) (Uniqueid.computeUniqueId P) where
  arrived a := ⟨a.value, true⟩
  outcome
    | .ok _       => .error ⟨.missingResult, "compute_unique_id failed: unknown result"⟩
    | .error what => .error ⟨.unknown, what⟩
  arrives hsend := (UniqueID.computeUniqueId P).call_arrives _ hsend rfl
  returns ret answer := by
    cases answer with
    | error what => exact Method.recv_exception _ ret _ 0 _
    | ok r =>
      -- The result is empty, and `__isset.success` stays false.
      have hresult : Reads P.Holds _ _ ((UniqueID.computeUniqueId P).returned ⟨ret, false⟩) :=
        (UniqueID.computeUniqueId P).recv_result (Uniqueid.computeUniqueId P) rfl ret r rfl
      exact hresult

/-- A client of UniqueID at the server of UniqueIDAsync, for which the id is of another type and
    passed over. -/
def waitingClients (B : Backend σ α β) (request : OneArg (BitVec 64) → α)
    (answer : β → Except String Unit) :
    Feed P.toLink B ε (UniqueID.computeUniqueId P).Invocation :=
  (UniqueIDAsync.computeUniqueId P).feedOf (fun x => (UniqueID.computeUniqueId P).call x.args)
    (fun _ => ⟨0, false⟩)
    (fun x => (UniqueID.computeUniqueId P).call_arrives (UniqueIDAsync.computeUniqueId P).args
      x.sendable rfl) B request answer

end

section

variable {I D ε σ α β : Type} {P : TProtocol I D ε} {B : Backend σ α β} {b : σ}

/-- **Old client.** In every run, every call is served with the id that it has sent, and returns
    exactly if the handler does; what the handler returns is lost. -/
theorem old_client_outcomes {request : OneArg (BitVec 32) → α} {answer : β → Except String String}
    {as : List ((oldClient P).remote B request answer).Step}
    {s : ((oldClient P).remote B request answer).State}
    (hrun : ((oldClient P).remote B request answer).system.run
      (((oldClient P).remote B request answer).start b) as = some s) :
    ∃ es replies, B.machine.run { state := b } es
        = some ⟨s.backend, s.sessions.length, replies, s.undefined⟩ ∧
      ∀ (k : Nat) c, s.sessions[k]? = some c → c.Counted ∧
        requestsOn k es <+: (c.sent.map fun x => request ⟨x.args.value, true⟩) ∧
        ∀ (i : Nat) y, c.outcomes[i]? = some y → ∃ reply, (repliesOn k replies)[i]? = some reply ∧
          y = match answer reply with
            | .ok _       => .ok ()
            | .error what => .error ⟨.unknown, what⟩ :=
  Method.Skew.outcomes_of_run hrun

/-- **New client.** In every run, every call is served with the id that it has sent, and every
    outcome is an exception: that of the handler, or that of a missing result. -/
theorem new_client_outcomes {request : OneArg (BitVec 32) → α} {answer : β → Except String Unit}
    {as : List ((newClient P).remote B request answer).Step}
    {s : ((newClient P).remote B request answer).State}
    (hrun : ((newClient P).remote B request answer).system.run
      (((newClient P).remote B request answer).start b) as = some s) :
    ∃ es replies, B.machine.run { state := b } es
        = some ⟨s.backend, s.sessions.length, replies, s.undefined⟩ ∧
      ∀ (k : Nat) c, s.sessions[k]? = some c → c.Counted ∧
        requestsOn k es <+: (c.sent.map fun x => request ⟨x.args.value, true⟩) ∧
        ∀ (i : Nat) y, c.outcomes[i]? = some y → ∃ reply, (repliesOn k replies)[i]? = some reply ∧
          y = match answer reply with
            | .ok _       =>
              .error ⟨.missingResult, "compute_unique_id failed: unknown result"⟩
            | .error what => .error ⟨.unknown, what⟩ :=
  Method.Skew.outcomes_of_run hrun

/-- Nothing is sent back to a waiting client. -/
theorem flatMap_notice_waiting {request : OneArg (BitVec 64) → α}
    {answer : β → Except String Unit} (replies : List β) :
    replies.flatMap (waitingClients P B request answer).notice = [] := by
  rw [List.flatMap_eq_nil_iff]
  exact fun _ _ => rfl

/-- **Waiting client.** In every run, the calls are served, each with the id zero: those that have
    not been served yet are on the wire as long as the server reads from the connection, and some
    steps of the server alone serve all of them, if it has a reply to such a call.  Yet nothing
    ever comes that `recv_compute_unique_id` could read. -/
theorem waiting_never_answered {request : OneArg (BitVec 64) → α}
    {answer : β → Except String Unit} {as : List (waitingClients P B request answer).Step}
    {s : (waitingClients P B request answer).State}
    (hrun : (waitingClients P B request answer).system.run
      ((waitingClients P B request answer).start b) as = some s) :
    ∃ es replies, B.machine.run { state := b } es
        = some ⟨s.backend, s.sessions.length, replies, s.undefined⟩ ∧
      ∀ (k : Nat) c, s.sessions[k]? = some c →
        (∃ n ≤ c.sent.length, requestsOn k es = List.replicate n (request ⟨0, false⟩) ∧
          (c.stopped = false → P.Holds c.up
            ((c.sent.drop n).flatMap fun x => (UniqueID.computeUniqueId P).call x.args))) ∧
        (∀ ret, ∃ e, (UniqueID.computeUniqueId P).recv ret c.down = .error e) ∧
        (s.undefined = false → c.stopped = false →
          (∀ b, ∃ y b', B.serve k b (request ⟨0, false⟩) = some (y, b')) →
          ∃ n s' es' replies', (waitingClients P B request answer).system.run s
              (List.replicate n (.act k .serve)) = some s' ∧
            B.machine.run { state := b } es'
              = some ⟨s'.backend, s'.sessions.length, replies', s'.undefined⟩ ∧
            requestsOn k es' = List.replicate c.sent.length (request ⟨0, false⟩)) := by
  obtain ⟨es, replies, hserver, hfed⟩ := Feed.fed_of_run hrun
  refine ⟨es, replies, hserver, fun k c hk => ?_⟩
  have h := hfed k c hk
  refine ⟨⟨(requestsOn k es).length, length_le_of_prefix_map h.served, ?_,
    fun hrunning => (h.kept hrunning).1⟩, fun ret => ?_, fun hdefined hrunning hserve => ?_⟩
  · -- What arrives does not depend on the call.
    refine List.eq_replicate_iff.mpr ⟨rfl, fun x hx => ?_⟩
    obtain ⟨-, -, rfl⟩ := List.mem_map.mp (h.served.subset hx)
    rfl
  · -- The server takes every message for a one-way call and answers none.
    obtain ⟨back, -, hdown⟩ := h.unread
    rw [flatMap_notice_waiting] at hdown
    exact (UniqueID.computeUniqueId P).starved_recv hdown
  · have htakes : (waitingClients P B request answer).Takes k (fun _ => True) c.sent := by
      refine ⟨fun b _ x _ => ?_⟩
      obtain ⟨y, b', hserved⟩ := hserve b
      exact ⟨y, b', hserved, Feed.sendBack_nil, trivial⟩
    obtain ⟨n, s', c', es', replies', hsteps, -, -, hserver', hall, -⟩ :=
      Feed.drains hrun hdefined hk hrunning htakes trivial
    refine ⟨n, s', es', replies', hsteps, hserver', hall.trans ?_⟩
    exact List.map_const'

end

/-! ### In memory -/

/-- A call of `uniqueid` over the protocol in memory. -/
def oldCallOf (id : BitVec 32) : (Uniqueid.computeUniqueId (loopback Unit)).Invocation where
  ret := ()
  args := ⟨id, false⟩
  sendable := Uniqueid.sendable _ _

/-- A server that returns the same id always. -/
def sameId : Backend Unit (OneArg (BitVec 32)) String := .ofReply fun _ => some "18"

/-- A client of `uniqueid` there. -/
def oldClients := (oldClient (loopback Unit)).remote sameId id .ok

theorem old_client_outcomes_sample : ∃ s,
    oldClients.system.run (oldClients.start ()) [.connect, .act 0 (.send (oldCallOf 7)),
        .act 0 .serve, .act 0 .recv] = some s ∧
      ∀ (k : Nat) c, s.sessions[k]? = some c → ∀ (i : Nat) y, c.outcomes[i]? = some y →
        y = .ok () := by
  obtain ⟨s, hrun⟩ : ∃ s, oldClients.system.run (oldClients.start ())
      [.connect, .act 0 (.send (oldCallOf 7)), .act 0 .serve, .act 0 .recv] = some s :=
    Option.isSome_iff_exists.mp (by decide +kernel)
  obtain ⟨es, replies, -, houtcomes⟩ := old_client_outcomes hrun
  refine ⟨s, hrun, fun k c hk i y hy => ?_⟩
  obtain ⟨reply, -, rfl⟩ := (houtcomes k c hk).2.2 i y hy
  rfl

/-- A server that always returns. -/
def noId : Backend Unit (OneArg (BitVec 32)) Unit := .ofReply fun _ => some ()

/-- A client of UniqueID there. -/
def newClients := (newClient (loopback Unit)).remote noId id .ok

theorem new_client_outcomes_sample : ∃ s,
    newClients.system.run (newClients.start ())
        [.connect, .act 0 (.send (UniqueID.callOf _ "processed" 7)), .act 0 .serve, .act 0 .recv]
          = some s ∧
      ∀ (k : Nat) c, s.sessions[k]? = some c → ∀ (i : Nat) y, c.outcomes[i]? = some y →
        y = .error ⟨.missingResult, "compute_unique_id failed: unknown result"⟩ := by
  obtain ⟨s, hrun⟩ : ∃ s, newClients.system.run (newClients.start ())
      [.connect, .act 0 (.send (UniqueID.callOf _ "processed" 7)), .act 0 .serve, .act 0 .recv]
        = some s :=
    Option.isSome_iff_exists.mp (by decide +kernel)
  obtain ⟨es, replies, -, houtcomes⟩ := new_client_outcomes hrun
  refine ⟨s, hrun, fun k c hk i y hy => ?_⟩
  obtain ⟨reply, -, rfl⟩ := (houtcomes k c hk).2.2 i y hy
  rfl

/-- A client of UniqueID at a server of UniqueIDAsync. -/
def waiting : Feed (loopback Unit).toLink (Backend.ofReply fun _ : OneArg (BitVec 64) => some ())
    LoopbackError (UniqueID.computeUniqueId (loopback Unit)).Invocation :=
  waitingClients (loopback Unit) _ id .ok

/-- Two calls of which one is read: the other is read afterwards, and there is no answer. -/
theorem waiting_never_answered_sample : ∃ s,
    waiting.system.run (waiting.start ())
        [.connect, .act 0 (.send (UniqueID.callOf _ "processed" 7)),
          .act 0 (.send (UniqueID.callOf _ "processed" 8)), .act 0 .serve] = some s ∧
      ∀ (k : Nat) c, s.sessions[k]? = some c →
        (∀ ret, ∃ e, (UniqueID.computeUniqueId (loopback Unit)).recv ret c.down = .error e) ∧
        (c.stopped = false → ∃ n s' es replies,
          waiting.system.run s (List.replicate n (.act k .serve)) = some s' ∧
          (Backend.ofReply fun _ : OneArg (BitVec 64) => some ()).machine.run { state := () } es
            = some ⟨s'.backend, s'.sessions.length, replies, s'.undefined⟩ ∧
          requestsOn k es = List.replicate c.sent.length ⟨0, false⟩) := by
  have hdefined : (waiting.system.run (waiting.start ())
      [.connect, .act 0 (.send (UniqueID.callOf _ "processed" 7)),
        .act 0 (.send (UniqueID.callOf _ "processed" 8)), .act 0 .serve]).map
          (fun s => s.undefined) = some false := by
    decide +kernel
  obtain ⟨s, hrun, hs⟩ := Option.map_eq_some_iff.mp hdefined
  obtain ⟨es, replies, -, hsessions⟩ := waiting_never_answered hrun
  refine ⟨s, hrun, fun k c hk => ⟨(hsessions k c hk).2.1, fun hrunning => ?_⟩⟩
  exact (hsessions k c hk).2.2 hs hrunning fun b => ⟨(), b, rfl⟩

end ThriftBench.UniqueId
