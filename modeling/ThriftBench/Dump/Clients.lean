import ThriftBench.Dump.Message
import ThriftBench.Dump.TradeHistory
import ThriftBench.Rpc.Loopback
import ThriftBench.Rpc.Services

namespace ThriftBench.Dump

open Lib PerConnection Rpc

/-!
# Message and TradeHistory — what the clients get

The two servers, behind their generated processors, and clients that make calls over
connections: any number of them, in any order, with connections that may end at any time.

* `motdClients`, `getLastSaleClients` — the clients of the two services;
* `motd_outcomes` — the messages that a client gets depend on the number of its own calls;
* `getLastSale_outcomes` — so do the reports, and `reports_distinct` — no two clients get the
  same number as long as the calls on each are few enough.
-/

section

variable {I D ε : Type} {P : TProtocol I D ε}

/-! ### Message -/

/-- Clients of the Message server. -/
def motdClients (P : TProtocol I D ε) : Remote P.toLink messageServer.backend ε
    (Message.motd P).Invocation (Except TApplicationException String) :=
  (Message.motd P).remote messageServer.backend OneArg.value .ok

/-- **Messages.** In every run, the `n`-th message that a client gets is picked by the low 32
    bits of `n`, whatever the other clients do; every call gets one, except the last one if it
    is under way or the connection has ended. -/
theorem motd_outcomes {as : List (motdClients P).Step} {s : (motdClients P).State}
    (hrun : (motdClients P).system.run ((motdClients P).start (⟨0⟩, [])) as = some s) :
    s.undefined = false ∧ ∀ (k : Nat) c, s.sessions[k]? = some c → c.Counted ∧
      ∀ (i : Nat) y, c.outcomes[i]? = some y → y = .ok (msgs (Fin.ofNat 3 ((i + 1) % 2 ^ 32))) := by
  obtain ⟨-, es, replies, hserver, hdelivered⟩ := Remote.delivered_of_run_perConnection hrun
  have hserved : s.undefined = false :=
    (messageServer_numbered.undefined_eq_false_iff hserver).mpr
      ⟨fun _ _ => trivial, fun _ _ _ => trivial⟩
  refine ⟨hserved, fun k c hk => ⟨(hdelivered k c hk).count, ?_⟩⟩
  intro i y hy
  obtain ⟨reply, hreply, rfl⟩ := (hdelivered k c hk).reply hy
  -- Each handler has its own rotation, from the first message on.
  have hreplies : repliesOn k replies = motds (requestsOn k es) := replies_eq hserver k
  rw [hreplies] at hreply
  have hlt := (List.getElem?_eq_some_iff.mp hreply).1
  rw [length_motds] at hlt
  rw [getElem?_motds hlt] at hreply
  rw [← Option.some.inj hreply]
  rfl

/-- A call over the protocol in memory. -/
def motdOf (msg data : String) : (Message.motd (loopback Unit)).Invocation where
  ret := msg
  args := ⟨data, false⟩
  sendable := Message.sendable _ _

/-- A client that calls twice, and another one that never gets its answer. -/
def callTwice : List (motdClients (loopback Unit)).Step :=
  [.connect, .connect, .act 0 (.send (motdOf "" "a")), .act 1 (.send (motdOf "" "b")),
    .act 1 .serve, .act 0 .serve, .act 1 .drop, .act 0 .recv,
    .act 0 (.send (motdOf "Apache" "c")), .act 0 .serve, .act 0 .recv]

/-- The first client gets two messages, in the order of the rotation. -/
theorem motd_outcomes_sample : ∃ s c, (motdClients (loopback Unit)).system.run
      ((motdClients (loopback Unit)).start (⟨0⟩, [])) callTwice = some s ∧
    s.sessions[0]? = some c ∧ c.outcomes = [.ok (msgs 1), .ok (msgs 2)] := by
  obtain ⟨s, hrun, hs⟩ : ∃ s, (motdClients (loopback Unit)).system.run
      ((motdClients (loopback Unit)).start (⟨0⟩, [])) callTwice = some s ∧
      s.sessions[0]?.map (fun c => c.outcomes.length) = some 2 :=
    Option.map_eq_some_iff.mp (by decide +kernel)
  obtain ⟨c, hc, hlength⟩ := Option.map_eq_some_iff.mp hs
  obtain ⟨-, houtcomes⟩ := (motd_outcomes hrun).2 0 c hc
  refine ⟨s, c, hrun, hc, ?_⟩
  obtain ⟨first, second, heq⟩ := List.length_eq_two.mp hlength
  rw [heq] at houtcomes ⊢
  rw [houtcomes 0 first rfl, houtcomes 1 second rfl]
  rfl

/-! ### TradeHistory -/

/-- A value of type `int`, as it is written. -/
def int32 (x : Int) : BitVec 32 := BitVec.ofInt 32 x

/-- A report, as the handler has filled it in. -/
def wireReport (r : TradeReport) : Rpc.TradeReport Float where
  symbol := r.symbol
  price := r.price
  size := int32 r.size
  seq_num := int32 r.seq_num

section

variable {P : TProtocol I Float ε}

/-- Clients of the TradeHistory server. -/
def getLastSaleClients (P : TProtocol I Float ε) : Remote P.toLink tradeServer.backend ε
    (TradeHistory.getLastSale P).Invocation
    (Except TApplicationException (Rpc.TradeReport Float)) :=
  (TradeHistory.getLastSale P).remote tradeServer.backend OneArg.value fun r => .ok (wireReport r)

/-- **Reports.** In every run without an overflow, the answer to the `i`-th call of a client is
    the report for the symbol of that call, with a number that depends on `i` and the
    connection alone, whatever the other clients do and whatever was in the object for the
    result. -/
theorem getLastSale_outcomes {as : List (getLastSaleClients P).Step}
    {s : (getLastSaleClients P).State}
    (hrun : (getLastSaleClients P).system.run ((getLastSaleClients P).start (⟨0⟩, [])) as = some s)
    (hdefined : s.undefined = false) :
    ∀ (k : Nat) c, s.sessions[k]? = some c → c.Counted ∧
      ∀ (i : Nat) y, c.outcomes[i]? = some y → seqNum k i < 2 ^ 31 ∧ ∃ x, c.sent[i]? = some x ∧
        y = .ok (wireReport (report k i x.args.value)).arrived := by
  obtain ⟨-, es, replies, hserver, hdelivered⟩ := Remote.delivered_of_run_perConnection hrun
  obtain ⟨-, hreplies⟩ := tradeServer_numbered.of_run hserver hdefined
  refine fun k c hk => ⟨(hdelivered k c hk).count, fun i y hy => ?_⟩
  obtain ⟨reply, hreply, rfl⟩ := (hdelivered k c hk).reply hy
  -- The reply is numbered on its connection; its symbol is that of the request.
  rw [(hreplies k).2, List.getElem?_mapIdx] at hreply
  obtain ⟨symbol, hsymbol, rfl⟩ := Option.map_eq_some_iff.mp hreply
  obtain ⟨x, hx, rfl⟩ := (hdelivered k c hk).request hsymbol
  exact ⟨(hreplies k).1 i (List.getElem?_eq_some_iff.mp hsymbol).1, x, hx, rfl⟩

/-- Numbers that are small enough are told apart. -/
theorem seqNum_eq_of_int32 {j k i i' : Nat} (h : seqNum j i < 2 ^ 31) (h' : seqNum k i' < 2 ^ 31)
    (heq : int32 (seqNum j i) = int32 (seqNum k i')) : seqNum j i = seqNum k i' := by
  have hnat := congrArg BitVec.toNat heq
  rw [int32, int32, BitVec.ofInt_natCast, BitVec.ofInt_natCast, BitVec.toNat_ofNat,
    BitVec.toNat_ofNat] at hnat
  omega

/-- **Distinct numbers.** In every run without an overflow: if no client has called more than ten
    thousand times for each connection from its own to a later one in use, then no two reports
    that clients have got carry the same number. -/
theorem reports_distinct {as : List (getLastSaleClients P).Step} {s : (getLastSaleClients P).State}
    (hrun : (getLastSaleClients P).system.run ((getLastSaleClients P).start (⟨0⟩, [])) as = some s)
    (hdefined : s.undefined = false)
    (hfew : ∀ (j k : Nat) c d, j < k → s.sessions[j]? = some c → s.sessions[k]? = some d →
      d.sent ≠ [] → c.sent.length ≤ (k - j) * 10000)
    {j k m n : Nat} {c d : Session I (TradeHistory.getLastSale P).Invocation
      (Except TApplicationException (Rpc.TradeReport Float))} {r r' : Rpc.TradeReport Float}
    (hj : s.sessions[j]? = some c) (hk : s.sessions[k]? = some d)
    (hr : c.outcomes[m]? = some (.ok r)) (hr' : d.outcomes[n]? = some (.ok r'))
    (heq : r.seq_num = r'.seq_num) : j = k ∧ m = n := by
  obtain ⟨hlt, x, hx, hreport⟩ := (getLastSale_outcomes hrun hdefined j c hj).2 m _ hr
  obtain ⟨hlt', x', hx', hreport'⟩ := (getLastSale_outcomes hrun hdefined k d hk).2 n _ hr'
  obtain rfl := Except.ok.inj hreport
  obtain rfl := Except.ok.inj hreport'
  have hnum := seqNum_eq_of_int32 hlt hlt' heq
  have hm := (List.getElem?_eq_some_iff.mp hx).1
  have hn := (List.getElem?_eq_some_iff.mp hx').1
  have hused : c.sent ≠ [] := List.ne_nil_of_length_pos (Nat.zero_lt_of_lt hm)
  have hused' : d.sent ≠ [] := List.ne_nil_of_length_pos (Nat.zero_lt_of_lt hn)
  unfold seqNum at hnum
  -- Numbers of different connections meet only ten thousand calls apart.
  rcases Nat.lt_trichotomy j k with hjk | rfl | hkj
  · have hle := hfew j k c d hjk hj hk hused'
    omega
  · omega
  · have hle := hfew k j d c hkj hk hj hused
    omega

end

/-- A call over the protocol in memory. -/
def lastSaleOf (symbol : String) : (TradeHistory.getLastSale (loopback Float)).Invocation where
  ret := ⟨"", 0, 0, 0, false, false, false, false⟩
  args := ⟨symbol, false⟩
  sendable := Arguments.one_sendable (Nat.le_of_ble_eq_true rfl) trivial

/-- The client of connection `k` after its first call. -/
def oneReport (k : Nat) (symbol : String) : Session (List (Token Float))
    (TradeHistory.getLastSale (loopback Float)).Invocation
    (Except TApplicationException (Rpc.TradeReport Float)) where
  up := []
  down := []
  sent := [lastSaleOf symbol]
  outcomes := [.ok (wireReport (report k 0 symbol)).arrived]

/-- Two clients that take turns. -/
def takeTurns : List (getLastSaleClients (loopback Float)).Step :=
  [.connect, .connect, .act 0 (.send (lastSaleOf "APPL")), .act 1 (.send (lastSaleOf "MSFT")),
    .act 1 .serve, .act 0 .serve, .act 1 .recv, .act 0 .recv]

/-- What they have got. -/
def turnsTaken : (getLastSaleClients (loopback Float)).State :=
  ⟨(⟨2⟩, [⟨1, 1⟩, ⟨2, 1⟩]), [oneReport 0 "APPL", oneReport 1 "MSFT"], false⟩

/-- The two reports have different numbers. -/
theorem reports_distinct_sample :
    (getLastSaleClients (loopback Float)).system.run
        ((getLastSaleClients (loopback Float)).start (⟨0⟩, [])) takeTurns = some turnsTaken ∧
      (wireReport (report 0 0 "APPL")).arrived.seq_num
        ≠ (wireReport (report 1 0 "MSFT")).arrived.seq_num := by
  have hsent : ∀ (j : Nat) c, turnsTaken.sessions[j]? = some c → c.sent.length = 1 := by
    intro j c hj
    have hmem := List.mem_of_getElem? hj
    rcases List.mem_cons.mp hmem with rfl | hmem
    · rfl
    · rw [List.mem_singleton.mp hmem]
      rfl
  have hrun : (getLastSaleClients (loopback Float)).system.run
      ((getLastSaleClients (loopback Float)).start (⟨0⟩, [])) takeTurns = some turnsTaken := rfl
  refine ⟨hrun, fun heq => ?_⟩
  have hfew : ∀ (j k : Nat) c d, j < k → turnsTaken.sessions[j]? = some c →
      turnsTaken.sessions[k]? = some d → d.sent ≠ [] → c.sent.length ≤ (k - j) * 10000 := by
    intro j k c d hjk hj _ _
    rw [hsent j c hj]
    omega
  have hsame := reports_distinct (j := 0) (k := 1) (m := 0) (n := 0) (c := oneReport 0 "APPL")
    (d := oneReport 1 "MSFT") hrun rfl hfew rfl rfl rfl rfl heq
  exact absurd hsame.1 (by decide)

end

end ThriftBench.Dump
