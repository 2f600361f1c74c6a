import Mathlib.Algebra.Ring.Int.Defs
import ThriftBench.Rpc.Loopback
import ThriftBench.Rpc.Services

namespace ThriftBench.Async

open Lib PerConnection Rpc

/-!
# AsyncService — what is printed

The server of one-way calls, behind its generated processor.  A client sends its calls and closes
its end without waiting for anything.

* `computeServer`, `computeClients` — the server and its clients;
* `results_in_order` — what the thread of a connection prints are the results of the first calls
  on it, and the other calls are still on the wire;
* `results_drain` — all that was sent can still be printed, also after the client has closed its
  end;
* `results_with_foreign` — clients of UniqueIDAsync, whose threaded server has the same port,
  change nothing of that, and the answers to them stay on the wire.
-/

/-- `num_1 + num_2`; an overflow has no defined behaviour. -/
def sum (num_1 num_2 : BitVec 64) : Option Int :=
  if -2 ^ 63 ≤ num_1.toInt + num_2.toInt ∧ num_1.toInt + num_2.toInt < 2 ^ 63 then
    some (num_1.toInt + num_2.toInt)
  else
    none

/-- What `compute_result` prints. -/
def computeResult (nums : BitVec 64 × BitVec 64) : Option (List String) :=
  (sum nums.1 nums.2).map fun result =>
    ["Sleeping for 5 seconds", "Computed Result: " ++ toString result]

/-- The server.  A handler keeps what its thread has printed. -/
def computeServer : PerConnection Unit (List String) (BitVec 64 × BitVec 64) Unit where
  getHandler _ := some ([], ())
  serve printed nums := (computeResult nums).map fun lines => ((), printed ++ lines)

/-- What is printed for calls without an overflow. -/
def linesOf (calls : List (BitVec 64 × BitVec 64)) : List String :=
  calls.flatMap fun nums => (computeResult nums).getD []

/-- A thread has printed the results of the requests on its connection. -/
theorem computeServer_remembers : computeServer.Remembers fun printed calls =>
    (∀ nums ∈ calls, (computeResult nums).isSome = true) ∧ printed = linesOf calls where
  getHandler hmake := by
    obtain ⟨rfl, -⟩ := Prod.mk.inj (Option.some.inj hmake)
    exact ⟨fun _ hmem => absurd hmem List.not_mem_nil, rfl⟩
  serve {printed calls nums y printed'} hprinted hserve := by
    obtain ⟨hdefined, rfl⟩ := hprinted
    obtain ⟨lines, hlines, heq⟩ := Option.map_eq_some_iff.mp hserve
    obtain ⟨-, rfl⟩ := Prod.mk.inj heq
    refine ⟨fun x hx => ?_, ?_⟩
    · rcases List.mem_append.mp hx with hx | hx
      · exact hdefined x hx
      · rw [List.mem_singleton.mp hx, hlines]
        rfl
    · rw [linesOf, linesOf, List.flatMap_append, List.flatMap_singleton, hlines]
      rfl

section

variable {I D ε : Type} {P : TProtocol I D ε}

/-- The numbers of a call. -/
def numsOf (a : TwoArgs (BitVec 64) (BitVec 64)) : BitVec 64 × BitVec 64 := (a.first, a.second)

/-- Clients of the server. -/
def computeClients (P : TProtocol I D ε) :
    Feed P.toLink computeServer.backend ε (AsyncService.computeResult P).Invocation :=
  (AsyncService.computeResult P).feed computeServer.backend numsOf .ok

/-- The thread of an open connection has printed the results of the requests on it. -/
theorem printed_of_run {es : List (Event (BitVec 64 × BitVec 64))}
    {t : PerConnection.State Unit (List String) Unit} {k : Nat}
    (hserver : computeServer.machine.run { factory := () } es = some t)
    (hdefined : t.undefined = false) (hk : k < t.handlers.length) :
    t.handlers[k]? = some (linesOf (requestsOn k es)) := by
  have hprinted := computeServer_remembers.of_run hserver hdefined (List.getElem?_eq_getElem hk)
  rw [← hprinted.2]
  exact List.getElem?_eq_getElem hk

/-- **Results.** In every run without an overflow, and whatever the clients do with their ends of
    the connections, what the thread of a connection has printed are the results of the first
    calls on it, in their order.  As long as the server reads from it, the other calls are on
    the wire; and nothing has been sent back to the client. -/
theorem results_in_order {as : List (computeClients P).Step} {s : (computeClients P).State}
    (hrun : (computeClients P).system.run ((computeClients P).start ((), [])) as = some s)
    (hdefined : s.undefined = false) :
    ∀ (k : Nat) c, s.sessions[k]? = some c →
      (∃ n ≤ c.sent.length,
        s.backend.2[k]? = some (linesOf ((c.sent.take n).map fun x => numsOf x.args)) ∧
        (c.stopped = false → P.Holds c.up
          ((c.sent.drop n).flatMap fun x => (AsyncService.computeResult P).send x.args))) ∧
      P.Holds c.down [] := by
  obtain ⟨hlength, es, replies, hserver, hfed⟩ := Feed.fed_of_run_perConnection hrun
  intro k c hk
  have h := hfed k c hk
  have hopen : k < s.backend.2.length := hlength ▸ (List.getElem?_eq_some_iff.mp hk).1
  refine ⟨⟨(requestsOn k es).length, length_le_of_prefix_map h.served, ?_,
    fun hrunning => (h.kept hrunning).1⟩, ?_⟩
  · exact (printed_of_run hserver hdefined hopen).trans
      (congrArg (fun calls => some (linesOf calls)) h.requests_eq)
  · -- A one-way call of the service is not answered.
    obtain ⟨back, -, hdown⟩ := h.unread
    have hnone : back.flatMap (computeClients P).notice = [] := by
      rw [List.flatMap_eq_nil_iff]
      exact fun _ _ => rfl
    rwa [hnone] at hdown

/-- A call without an overflow is served on every connection that is open. -/
theorem exists_serve {b : Unit × List (List String)} {k : Nat} {nums : BitVec 64 × BitVec 64}
    (hk : k < b.2.length) (hsum : (computeResult nums).isSome = true) :
    ∃ b', computeServer.backend.serve k b nums = some ((), b') ∧ k < b'.2.length := by
  obtain ⟨lines, hlines⟩ := Option.isSome_iff_exists.mp hsum
  refine ⟨(b.1, b.2.set k (b.2[k] ++ lines)), ?_, ?_⟩
  · show (b.2[k]?.bind fun h => ((computeResult nums).map _).map _) = _
    rw [List.getElem?_eq_getElem hk, hlines]
    rfl
  · show k < (b.2.set k _).length
    rwa [List.length_set]

/-- **Completion.** After every run without an overflow, and also if the client has closed its
    end: as long as the server reads from a connection, some steps of the server alone print the
    results of all calls that were sent on it, if none of them overflows. -/
theorem results_drain {as : List (computeClients P).Step} {s : (computeClients P).State}
    (hrun : (computeClients P).system.run ((computeClients P).start ((), [])) as = some s)
    (hdefined : s.undefined = false) {k : Nat} {c}
    (hk : s.sessions[k]? = some c) (hrunning : c.stopped = false)
    (hsums : ∀ x ∈ c.sent, (computeResult (numsOf x.args)).isSome = true) :
    ∃ n s', (computeClients P).system.run s (List.replicate n (.act k .serve)) = some s' ∧
      s'.backend.2[k]? = some (linesOf (c.sent.map fun x => numsOf x.args)) := by
  obtain ⟨hlength, -⟩ := Feed.fed_of_run_perConnection hrun
  have htakes : (computeClients P).Takes k (fun b => k < b.2.length) c.sent := by
    refine ⟨fun b hb x hx => ?_⟩
    obtain ⟨b', hserve, hb'⟩ := exists_serve hb (hsums x hx)
    exact ⟨(), b', hserve, Feed.sendBack_nil, hb'⟩
  obtain ⟨n, s', c', es, replies, hsteps, hdefined', hk', hserver, hall, -⟩ := Feed.drains hrun
    hdefined hk hrunning htakes (hlength ▸ (List.getElem?_eq_some_iff.mp hk).1)
  obtain ⟨hmachine, hlength'⟩ := run_backend hserver
  refine ⟨n, s', hsteps, ?_⟩
  have hopen : k < s'.backend.2.length := hlength' ▸ (List.getElem?_eq_some_iff.mp hk').1
  exact (printed_of_run hmachine hdefined' hopen).trans
    (congrArg (fun calls => some (linesOf calls)) hall)

end

/-- A call over the protocol in memory. -/
def resultOf (num_1 num_2 : BitVec 64) :
    (AsyncService.computeResult (loopback Unit)).Invocation where
  args := ⟨num_1, num_2, false, false⟩
  sendable := by
    intro f hf
    rcases List.mem_cons.mp hf with rfl | hf
    · trivial
    · obtain rfl := List.mem_singleton.mp hf
      trivial

/-- Two clients; one closes its end before its calls are read, of which one is not. -/
def sendAndClose : List (computeClients (loopback Unit)).Step :=
  [.connect, .connect, .act 0 (.send (resultOf 100 200)), .act 0 (.send (resultOf 5 6)),
    .act 1 (.send (resultOf 1 2)), .act 0 .close, .act 1 .serve, .act 0 .serve, .act 1 .drop]

/-- One result is printed on each connection, and the answer to neither client is on the wire. -/
theorem results_in_order_sample :
    ∃ s, (computeClients (loopback Unit)).system.run
        ((computeClients (loopback Unit)).start ((), [])) sendAndClose = some s ∧
      s.backend.2 = [["Sleeping for 5 seconds", "Computed Result: 300"],
        ["Sleeping for 5 seconds", "Computed Result: 3"]] ∧
      ∀ (k : Nat) c, s.sessions[k]? = some c →
        (∃ n ≤ c.sent.length,
          s.backend.2[k]? = some (linesOf ((c.sent.take n).map fun x => numsOf x.args))) ∧
        c.down = [] := by
  have hlast : ((computeClients (loopback Unit)).system.run
      ((computeClients (loopback Unit)).start ((), [])) sendAndClose).map
        (fun s => (s.undefined, s.backend.2))
      = some (false, [["Sleeping for 5 seconds", "Computed Result: 300"],
          ["Sleeping for 5 seconds", "Computed Result: 3"]]) := by
    decide +kernel
  obtain ⟨s, hrun, hs⟩ := Option.map_eq_some_iff.mp hlast
  obtain ⟨hdefined, hprinted⟩ := Prod.mk.inj hs
  refine ⟨s, hrun, hprinted, fun k c hk => ?_⟩
  obtain ⟨⟨n, hn, hlines, -⟩, hdown⟩ := results_in_order hrun hdefined k c hk
  exact ⟨⟨n, hn, hlines⟩, hdown⟩

/-- A connection of a client that has sent a call and has closed its end. -/
def left : Channel (List (Token Unit)) (AsyncService.computeResult (loopback Unit)).Invocation where
  up := (AsyncService.computeResult (loopback Unit)).send (resultOf 100 200).args
  down := []
  closed := true
  sent := [resultOf 100 200]

theorem results_drain_sample :
    ∃ n s', (computeClients (loopback Unit)).system.run ⟨((), [[]]), [left], false⟩
        (List.replicate n (.act 0 .serve)) = some s' ∧
      s'.backend.2[0]? = some ["Sleeping for 5 seconds", "Computed Result: 300"] := by
  have hrun : (computeClients (loopback Unit)).system.run
      ((computeClients (loopback Unit)).start ((), []))
      [.connect, .act 0 (.send (resultOf 100 200)), .act 0 .close]
        = some ⟨((), [[]]), [left], false⟩ := rfl
  have hsums : ∀ x ∈ left.sent, (computeResult (numsOf x.args)).isSome = true := by
    intro x hx
    rw [List.mem_singleton.mp hx]
    decide
  exact results_drain (k := 0) (c := left) hrun rfl rfl rfl hsums

/-! ### With clients of another service -/

section

variable {I D ε A : Type} {P : TProtocol I D ε} {m : OnewayMethod P A}
  {h : m.name ≠ "compute_result"}

/-- Clients of the service, and of one with the one-way method `m`. -/
def mixedClients (m : OnewayMethod P A) (h : m.name ≠ "compute_result") :=
  (computeClients P).sum (m.foreign computeServer.backend.accept
    (fun k => [("compute_result",
      (AsyncService.computeResult P).processOn computeServer.backend numsOf .ok k)])
    fun _ => lookup_singleton_of_ne h _) rfl

/-- `n` exceptions for calls of the other service. -/
def exceptions (m : OnewayMethod P A) (n : Nat) : List (Token D) :=
  (List.replicate n (exceptionReply P m.name 0 (invalidMethodName m.name))).flatten

/-- What is sent back: nothing for a call of the service, an exception for one of the other. -/
theorem flatMap_notice (mixed : List (Unit ⊕ Unit)) :
    mixed.flatMap (mixedClients m h).notice = exceptions m (mixed.countP Sum.isRight) := by
  induction mixed with
  | nil => rfl
  | cons y ys ih =>
    rw [List.flatMap_cons, ih]
    cases y with
    | inl _ => rfl
    | inr _ =>
      rw [List.countP_cons_of_pos rfl, exceptions, exceptions, List.replicate_succ,
        List.flatten_cons]
      rfl

/-- The calls of the service among those of both. -/
theorem filterMap_request (xs : List ((AsyncService.computeResult P).Invocation ⊕ m.Invocation)) :
    (xs.map (mixedClients m h).request).filterMap Sum.getLeft?
      = (xs.filterMap Sum.getLeft?).map fun x => numsOf x.args :=
  Backend.filterMap_getLeft?_map _ _ xs

/-- As many calls of the other service as requests of its kind. -/
theorem countP_request (xs : List ((AsyncService.computeResult P).Invocation ⊕ m.Invocation)) :
    (xs.map (mixedClients m h).request).countP Sum.isRight = xs.countP Sum.isRight := by
  rw [List.countP_map]
  refine congrArg (List.countP · xs) (funext fun x => ?_)
  cases x with
  | inl | inr => rfl

/-- Replies of the kinds of their requests. -/
theorem countP_isRight_eq {κ κ' ξ ξ' : Type} {xs : List (κ ⊕ κ')} {ys : List (ξ ⊕ ξ')}
    (hkinds : ys.map Sum.isLeft = xs.map Sum.isLeft) :
    ys.countP Sum.isRight = xs.countP Sum.isRight := by
  have hright : ∀ {κ κ' : Type} (zs : List (κ ⊕ κ')),
      zs.countP Sum.isRight = (zs.map Sum.isLeft).countP not := by
    intro κ κ' zs
    rw [List.countP_map]
    refine congrArg (List.countP · zs) (funext fun z => ?_)
    cases z with
    | inl | inr => rfl
  rw [hright ys, hkinds, hright xs]

/-- What a run shows on a connection. -/
theorem mixed_of_run {as : List (mixedClients m h).Step} {s : (mixedClients m h).State}
    (hrun : (mixedClients m h).system.run ((mixedClients m h).start ((), [])) as = some s)
    (hdefined : s.undefined = false) {k : Nat} {c} (hk : s.sessions[k]? = some c) :
    ∃ n ≤ c.sent.length,
      s.backend.2[k]? = some (linesOf
        (((c.sent.take n).filterMap Sum.getLeft?).map fun x => numsOf x.args)) ∧
      (∃ e ≤ (c.sent.take n).countP Sum.isRight, P.Holds c.down (exceptions m e)) ∧
      (c.stopped = false →
        P.Holds c.up ((c.sent.drop n).flatMap
          (Sum.elim (fun x => (AsyncService.computeResult P).send x.args) fun x => m.send x.args)) ∧
        P.Holds c.down (exceptions m ((c.sent.take n).countP Sum.isRight))) := by
  obtain ⟨es, replies, hbackend, hfed⟩ :=
    Feed.fed_of_run_sum (Backend.unnoticed_passive computeServer.backend.accept) hrun
  obtain ⟨hserver, hlength⟩ := run_backend hbackend
  obtain ⟨hfed', hkinds⟩ : (mixedClients m h).Fed c _ _ ∧ _ := hfed k c hk
  have hopen : k < s.backend.2.length := hlength ▸ (List.getElem?_eq_some_iff.mp hk).1
  have hrequests : requestsOn k es
      = (c.sent.take (requestsOn k es).length).map (mixedClients m h).request := hfed'.requests_eq
  -- As many exceptions as foreign calls have been read.
  have hcount : (repliesOn k replies).countP Sum.isRight
      = (c.sent.take (requestsOn k es).length).countP Sum.isRight :=
    calc (repliesOn k replies).countP Sum.isRight
        = (requestsOn k es).countP Sum.isRight := countP_isRight_eq (hkinds hdefined)
      _ = ((c.sent.take (requestsOn k es).length).map (mixedClients m h).request).countP
            Sum.isRight := congrArg (List.countP Sum.isRight) hrequests
      _ = (c.sent.take (requestsOn k es).length).countP Sum.isRight := countP_request _
  refine ⟨(requestsOn k es).length, length_le_of_prefix_map hfed'.served, ?_, ?_,
    fun hrunning => ⟨(hfed'.kept hrunning).1, ?_⟩⟩
  · have hprinted := printed_of_run hserver hdefined hopen
    rw [Backend.requestsOn_leftEvents, hrequests, filterMap_request] at hprinted
    exact hprinted
  · obtain ⟨back, hback, hdown⟩ := hfed'.unread
    refine ⟨back.countP Sum.isRight, ?_, flatMap_notice back ▸ hdown⟩
    rw [← hcount]
    exact hback.sublist.countP_le
  · rw [← hcount, ← flatMap_notice (h := h)]
    exact (hfed'.kept hrunning).2

/-- Every message of either service is served, if the sums do not overflow. -/
theorem mixed_takes {k : Nat}
    {sent : List ((AsyncService.computeResult P).Invocation ⊕ m.Invocation)}
    (hsums : ∀ x, Sum.inl x ∈ sent → (computeResult (numsOf x.args)).isSome = true)
    (haccepts : ∀ down ts, ∃ down', P.send down ts = some down') :
    (mixedClients m h).Takes k (fun b => k < b.2.length) sent := by
  refine ⟨fun b hb x hx => ?_⟩
  have hback : ∀ down notice, ∃ down', Feed.sendBack P.toLink down notice = some down' :=
    Feed.exists_sendBack haccepts
  cases x with
  | inl x =>
    obtain ⟨b', hserve, hb'⟩ := exists_serve hb (hsums x hx)
    refine ⟨.inl (), b', ?_, fun down => hback down _, hb'⟩
    exact congrArg (Option.map fun r => (Sum.inl r.1, r.2)) hserve
  | inr x => exact ⟨.inr (), b, rfl, fun down => hback down _, hb⟩

/-- **Results with other clients.** In every run without an overflow, calls of another service do
    not change what is printed, wherever they come between the calls: with the first `n` calls
    read, the results of those among them that are calls of the service.  What has been sent back
    are exceptions, as many as there are foreign calls among the `n`; no client reads them.  As
    long as the server reads, the other calls are on the wire, and some steps of the server alone
    handle them all, if no sum overflows and the transport refuses nothing. -/
theorem results_with_foreign {as : List (mixedClients m h).Step} {s : (mixedClients m h).State}
    (hrun : (mixedClients m h).system.run ((mixedClients m h).start ((), [])) as = some s)
    (hdefined : s.undefined = false) :
    ∀ (k : Nat) c, s.sessions[k]? = some c →
      (∃ n ≤ c.sent.length,
        s.backend.2[k]? = some (linesOf
          (((c.sent.take n).filterMap Sum.getLeft?).map fun x => numsOf x.args)) ∧
        (∃ e ≤ (c.sent.take n).countP Sum.isRight, P.Holds c.down (exceptions m e)) ∧
        (c.stopped = false →
          P.Holds c.up ((c.sent.drop n).flatMap (Sum.elim
            (fun x => (AsyncService.computeResult P).send x.args) fun x => m.send x.args)) ∧
          P.Holds c.down (exceptions m ((c.sent.take n).countP Sum.isRight)))) ∧
      (c.stopped = false →
        (∀ x, Sum.inl x ∈ c.sent → (computeResult (numsOf x.args)).isSome = true) →
        (∀ down ts, ∃ down', P.send down ts = some down') →
        ∃ n s' c', (mixedClients m h).system.run s (List.replicate n (.act k .serve)) = some s' ∧
          s'.backend.2[k]? = some (linesOf
            ((c.sent.filterMap Sum.getLeft?).map fun x => numsOf x.args)) ∧
          s'.sessions[k]? = some c' ∧
          P.Holds c'.down (exceptions m (c.sent.countP Sum.isRight))) := by
  refine fun k c hk => ⟨mixed_of_run hrun hdefined hk, fun hrunning hsums haccepts => ?_⟩
  obtain ⟨es, replies, hbackend, -⟩ :=
    Feed.fed_of_run_sum (Backend.unnoticed_passive computeServer.backend.accept) hrun
  obtain ⟨-, hlength⟩ := run_backend hbackend
  obtain ⟨n, s', c', es, replies, hsteps, hdefined', hk', hserver, hall, hdown⟩ :=
    Feed.drains hrun hdefined hk hrunning (mixed_takes hsums haccepts)
      (hlength ▸ (List.getElem?_eq_some_iff.mp hk).1)
  refine ⟨n, s', c', hsteps, ?_, hk', ?_⟩
  · obtain ⟨hmachine, hlength'⟩ := run_backend
      (Backend.run_sum (Backend.unnoticed_passive computeServer.backend.accept) hserver)
    have hopen : k < s'.backend.2.length := hlength' ▸ (List.getElem?_eq_some_iff.mp hk').1
    have hprinted := printed_of_run hmachine hdefined' hopen
    have hown := filterMap_request (h := h) c.sent
    rw [Backend.requestsOn_leftEvents] at hprinted
    exact hprinted.trans (congrArg (fun calls => some (linesOf calls))
      ((congrArg (List.filterMap Sum.getLeft?) hall).trans hown))
  · have hcount : (repliesOn k replies).countP Sum.isRight = c.sent.countP Sum.isRight :=
      calc (repliesOn k replies).countP Sum.isRight
          = (requestsOn k es).countP Sum.isRight :=
            countP_isRight_eq ((Backend.kinds_of_run_sum hserver k).2 hdefined')
        _ = (c.sent.map (mixedClients m h).request).countP Sum.isRight :=
            congrArg (List.countP Sum.isRight) hall
        _ = c.sent.countP Sum.isRight := countP_request c.sent
    rw [← hcount, ← flatMap_notice (h := h)]
    exact hdown

end

/-- A call of `compute_unique_id` over the protocol in memory. -/
def asyncIdOf (id : BitVec 64) : (UniqueIDAsync.computeUniqueId (loopback Unit)).Invocation where
  args := ⟨id, false⟩
  sendable := Arguments.one_sendable (Nat.le_of_ble_eq_true rfl) trivial

/-- Clients of AsyncService and UniqueIDAsync. -/
def resultAndIdClients :=
  mixedClients (UniqueIDAsync.computeUniqueId (loopback Unit))
    (show "compute_unique_id" ≠ "compute_result" by decide)

/-- One connection, with a `compute_unique_id` between two calls, of which the last is not read. -/
def idBetween : List resultAndIdClients.Step :=
  [.connect, .act 0 (.send (.inl (resultOf 100 200))), .act 0 (.send (.inr (asyncIdOf 100))),
    .act 0 (.send (.inl (resultOf 1 2))), .act 0 .close, .act 0 .serve, .act 0 .serve]

/-- The connection after that: the second call is on the wire to the server, and the exception on
    the wire to the client. -/
def answered : Channel (List (Token Unit))
    ((AsyncService.computeResult (loopback Unit)).Invocation ⊕
      (UniqueIDAsync.computeUniqueId (loopback Unit)).Invocation) where
  up := (AsyncService.computeResult (loopback Unit)).send (resultOf 1 2).args
  down := exceptionReply (loopback Unit) "compute_unique_id" 0
    (invalidMethodName "compute_unique_id")
  closed := true
  sent := [.inl (resultOf 100 200), .inr (asyncIdOf 100), .inl (resultOf 1 2)]

/-- The server alone goes on to print the other result. -/
theorem results_with_foreign_sample :
    ∃ s, resultAndIdClients.system.run (resultAndIdClients.start ((), [])) idBetween = some s ∧
      s.backend.2 = [["Sleeping for 5 seconds", "Computed Result: 300"]] ∧
      ∃ n s' c', resultAndIdClients.system.run s (List.replicate n (.act 0 .serve)) = some s' ∧
        s'.backend.2[0]? = some ["Sleeping for 5 seconds", "Computed Result: 300",
          "Sleeping for 5 seconds", "Computed Result: 3"] ∧
        s'.sessions[0]? = some c' ∧
        exceptions (UniqueIDAsync.computeUniqueId (loopback Unit)) 1 = c'.down := by
  have hrun : resultAndIdClients.system.run (resultAndIdClients.start ((), [])) idBetween
      = some ⟨((), [["Sleeping for 5 seconds", "Computed Result: 300"]]), [answered], false⟩ := rfl
  have hsums : ∀ x, Sum.inl x ∈ answered.sent → (computeResult (numsOf x.args)).isSome = true := by
    intro x hx
    simp only [answered, List.mem_cons, Sum.inl.injEq, reduceCtorEq, List.not_mem_nil, or_false,
      false_or] at hx
    rcases hx with rfl | rfl
    · decide
    · decide
  obtain ⟨n, s', c', hsteps, hprinted, hk, hdown⟩ :=
    (results_with_foreign hrun rfl 0 answered rfl).2 rfl hsums fun down ts => ⟨down ++ ts, rfl⟩
  exact ⟨_, hrun, rfl, n, s', c', hsteps, hprinted, hk, hdown.symm⟩

end ThriftBench.Async
