import Mathlib.Algebra.Ring.Int.Defs
import Mathlib.Algebra.Ring.Nat
import Mathlib.Data.List.Nodup
import Mathlib.Data.List.Range
import ThriftBench.Lib.Connections

namespace ThriftBench.Dump

open Lib PerConnection

/-!
# TradeHistory server — sequence numbers

A report carries `con_id * 10000 + call_count`: the connections have numbers of their own, and
ten thousand of them each, before they run into those of the next connection.

* `getLastSale` — one call, with `int` arithmetic; `tradeServer` — the server with its factory;
* `SeqNumsUnique` — no overflow, and no number twice;
* `NumbersFit` — the condition on the numbers of connections and calls;
* `seqNumsUnique_iff` — they are equivalent for every run.
-/

/-- The value of an `int` expression; an overflow has no defined behaviour. -/
def intResult (x : Int) : Option Int := if -2 ^ 31 ≤ x ∧ x < 2 ^ 31 then some x else none

/-- `TradeReport` -/
structure TradeReport where
  symbol : String
  price : Float
  size : Int
  seq_num : Int

/-- `TradeHistoryHandler` -/
structure TradeHistoryHandler where
  con_id : Int
  call_count : Int
  deriving DecidableEq, Repr

/-- `TradeHistoryFactory` -/
structure TradeHistoryFactory where
  con_count : Int
  deriving DecidableEq, Repr

/-- The price and the size that are reported for a symbol. -/
def quote (symbol : String) : Float × Int :=
  if symbol = "APPL" then (127.61, 500)
  else if symbol = "MSFT" then (46.23, 400)
  else (0.0, 0)

/-- `TradeHistoryHandler::get_last_sale` -/
def getLastSale (h : TradeHistoryHandler) (symbol : String) :
    Option (TradeReport × TradeHistoryHandler) := do
  let base ← intResult (h.con_id * 10000)
  let call_count ← intResult (h.call_count + 1)
  let seq_num ← intResult (base + call_count)
  let (price, size) := quote symbol
  return (⟨symbol, price, size, seq_num⟩, { h with call_count := call_count })

/-- `TradeHistoryFactory::getHandler` -/
def getTradeHandler (f : TradeHistoryFactory) :
    Option (TradeHistoryHandler × TradeHistoryFactory) := do
  let con_count ← intResult (f.con_count + 1)
  return (⟨con_count, 0⟩, ⟨con_count⟩)

/-- The server. -/
def tradeServer : PerConnection TradeHistoryFactory TradeHistoryHandler String TradeReport where
  getHandler := getTradeHandler
  serve := getLastSale

/-- A server without connections. -/
def tradeStart : State TradeHistoryFactory TradeHistoryHandler TradeReport := { factory := ⟨0⟩ }

/-! ### What is wanted -/

/-- No computation has overflowed, and no two replies carry the same number. -/
def SeqNumsUnique (s : State TradeHistoryFactory TradeHistoryHandler TradeReport) : Prop :=
  s.undefined = false ∧ (s.replies.map fun r => r.2.seq_num).Nodup

/-- The connections and the calls on them are few enough. -/
structure NumbersFit (es : List (Event String)) : Prop where
  /-- The connections can be counted. -/
  connections : connects es < 2 ^ 31
  /-- The last number on a connection is an `int`. -/
  calls : ∀ k, 0 < (requestsOn k es).length →
    (k + 1) * 10000 + (requestsOn k es).length < 2 ^ 31
  /-- The numbers of a connection end before those of a later one that is in use. -/
  apart : ∀ j k, j < k → 0 < (requestsOn k es).length →
    (requestsOn j es).length ≤ (k - j) * 10000

/-! ### The calls -/

theorem intResult_natCast (n : Nat) :
    intResult n = if n < 2 ^ 31 then some (n : Int) else none := by
  unfold intResult
  by_cases hn : n < 2 ^ 31
  · rw [if_pos hn, if_pos (by omega)]
  · rw [if_neg hn, if_neg (by omega)]

/-- The number of the reply after `i` replies on connection `k`. -/
def seqNum (k i : Nat) : Nat := (k + 1) * 10000 + (i + 1)

/-- The report after `i` replies on connection `k`. -/
def report (k i : Nat) (symbol : String) : TradeReport :=
  ⟨symbol, (quote symbol).1, (quote symbol).2, seqNum k i⟩

/-- **Call.** The call after `i` calls on connection `k`. -/
theorem getLastSale_eq (k i : Nat) (symbol : String) :
    getLastSale ⟨(k + 1 : Nat), i⟩ symbol
      = if seqNum k i < 2 ^ 31 then some (report k i symbol, ⟨(k + 1 : Nat), (i + 1 : Nat)⟩)
        else none := by
  have hbase := intResult_natCast ((k + 1) * 10000)
  have hcount := intResult_natCast (i + 1)
  have hsum := intResult_natCast (seqNum k i)
  have hseq : seqNum k i = (k + 1) * 10000 + (i + 1) := rfl
  have hcast : (((k + 1) * 10000 : Nat) : Int) + ((i + 1 : Nat) : Int) = (seqNum k i : Nat) :=
    (Int.natCast_add _ _).symm
  unfold getLastSale
  show (intResult (((k + 1) * 10000 : Nat) : Int)).bind (fun base =>
    (intResult ((i + 1 : Nat) : Int)).bind fun call_count =>
    (intResult (base + call_count)).bind fun seq_num => _) = _
  -- The number is the largest of the three values, so that it decides.
  by_cases hk : (k + 1) * 10000 < 2 ^ 31
  · by_cases hi : i + 1 < 2 ^ 31
    · rw [hbase, if_pos hk, hcount, if_pos hi, Option.bind_some, Option.bind_some, hcast, hsum]
      by_cases hfit : seqNum k i < 2 ^ 31
      · rw [if_pos hfit, if_pos hfit]
        rfl
      · rw [if_neg hfit, if_neg hfit]
        rfl
    · rw [hbase, if_pos hk, hcount, if_neg hi, if_neg (by omega)]
      rfl
  · rw [hbase, if_neg hk, if_neg (by omega)]
    rfl

theorem getTradeHandler_eq (i : Nat) :
    getTradeHandler ⟨i⟩
      = if i + 1 < 2 ^ 31 then some (⟨(i + 1 : Nat), 0⟩, ⟨(i + 1 : Nat)⟩) else none := by
  have hcount := intResult_natCast (i + 1)
  unfold getTradeHandler
  show (intResult ((i + 1 : Nat) : Int)).bind _ = _
  rw [hcount]
  by_cases hi : i + 1 < 2 ^ 31
  · rw [if_pos hi, if_pos hi]
    rfl
  · rw [if_neg hi, if_neg hi]
    rfl

/-- The states of the factory and of the handlers are numbered. -/
theorem tradeServer_numbered : tradeServer.Numbered (fun i => ⟨i⟩)
    (fun k i => ⟨(k + 1 : Nat), i⟩) report (fun i => i + 1 < 2 ^ 31)
    (fun k i => seqNum k i < 2 ^ 31) where
  getHandler := getTradeHandler_eq
  serve := getLastSale_eq

section

variable {es : List (Event String)}
  {s : State TradeHistoryFactory TradeHistoryHandler TradeReport}

/-- The last of `n` numbers from `c` on is the largest. -/
theorem forall_add_lt_iff (c n m : Nat) :
    (∀ i < n, c + (i + 1) < m) ↔ (0 < n → c + n < m) := by
  constructor
  · intro hall hpos
    have hlast := hall (n - 1) (by omega)
    rwa [Nat.sub_add_cancel hpos] at hlast
  · intro hlast i hi
    have hlt := hlast (Nat.zero_lt_of_lt hi)
    omega

/-- **Overflow.** Which runs are defined. -/
theorem undefined_eq_false_iff_fit
    (hrun : tradeServer.machine.run tradeStart es = some s) :
    s.undefined = false ↔ connects es < 2 ^ 31 ∧ ∀ k, 0 < (requestsOn k es).length →
      (k + 1) * 10000 + (requestsOn k es).length < 2 ^ 31 := by
  rw [tradeServer_numbered.undefined_eq_false_iff hrun]
  have hconnections : (∀ i < connects es, i + 1 < 2 ^ 31) ↔ connects es < 2 ^ 31 := by
    have hiff := forall_add_lt_iff 0 (connects es) (2 ^ 31)
    simp only [Nat.zero_add] at hiff
    rw [hiff]
    omega
  exact and_congr hconnections (forall_congr' fun k => forall_add_lt_iff _ _ _)

/-! ### Uniqueness -/

/-- The numbers on connection `k`, after `n` calls. -/
def seqNums (k n : Nat) : List Int := (List.range n).map fun i => (seqNum k i : Int)

theorem mem_seqNums {k n : Nat} {x : Int} :
    x ∈ seqNums k n ↔ ∃ i < n, (seqNum k i : Int) = x := by
  simp only [seqNums, List.mem_map, List.mem_range]

theorem nodup_seqNums (k n : Nat) : (seqNums k n).Nodup := by
  refine List.Nodup.map ?_ List.nodup_range
  intro i j h
  simp only [seqNum] at h
  omega

/-- The numbers of a connection run into those of a later one after ten thousand calls for each
    connection in between. -/
theorem disjoint_seqNums_iff {j k : Nat} (hjk : j < k) (m n : Nat) :
    List.Disjoint (seqNums j m) (seqNums k n) ↔ (0 < n → m ≤ (k - j) * 10000) := by
  constructor
  · intro hdisjoint hn
    apply Nat.le_of_not_lt
    intro hlt
    -- The first number of the later connection has been given by the earlier one.
    refine hdisjoint (mem_seqNums.mpr ⟨(k - j) * 10000, hlt, rfl⟩)
      (mem_seqNums.mpr ⟨0, hn, ?_⟩)
    unfold seqNum
    omega
  · intro hle x hx hx'
    obtain ⟨i, hi, rfl⟩ := mem_seqNums.mp hx
    obtain ⟨i', hi', heq⟩ := mem_seqNums.mp hx'
    have := hle (by omega)
    unfold seqNum at heq
    omega

/-- **Uniqueness.** Where nothing overflows, only the distance between connections matters. -/
theorem nodup_seqNums_iff (hrun : tradeServer.machine.run tradeStart es = some s)
    (hdefined : s.undefined = false) :
    (s.replies.map fun r => r.2.seq_num).Nodup ↔
      ∀ j k, j < k → 0 < (requestsOn k es).length →
        (requestsOn j es).length ≤ (k - j) * 10000 := by
  have hnums : ∀ k, (repliesOn k s.replies).map TradeReport.seq_num
      = seqNums k (requestsOn k es).length := by
    intro k
    rw [((tradeServer_numbered.of_run hrun hdefined).2 k).2]
    apply List.ext_getElem
    · simp [seqNums]
    · intro i hi hi'
      simp [seqNums, report]
  rw [nodup_replies_iff]
  simp only [hnums]
  constructor
  · rintro ⟨-, hdisjoint⟩ j k hjk
    exact (disjoint_seqNums_iff hjk _ _).mp (hdisjoint j k (Nat.ne_of_lt hjk))
  · intro hapart
    refine ⟨fun k => nodup_seqNums k _, fun j k hjk => ?_⟩
    rcases Nat.lt_or_gt_of_ne hjk with hlt | hgt
    · exact (disjoint_seqNums_iff hlt _ _).mpr (hapart j k hlt)
    · have hdisjoint := (disjoint_seqNums_iff hgt _ _).mpr (hapart k j hgt)
      exact fun x hj hk => hdisjoint hk hj

/-- **Sequence numbers, exactly.** For every run of the server: nothing overflows and no two
    replies carry the same number, if and only if the numbers of connections and calls fit. -/
theorem seqNumsUnique_iff (hrun : tradeServer.machine.run tradeStart es = some s) :
    SeqNumsUnique s ↔ NumbersFit es := by
  constructor
  · rintro ⟨hdefined, hnodup⟩
    obtain ⟨hconnections, hcalls⟩ := (undefined_eq_false_iff_fit hrun).mp hdefined
    exact ⟨hconnections, hcalls, (nodup_seqNums_iff hrun hdefined).mp hnodup⟩
  · rintro ⟨hconnections, hcalls, hapart⟩
    have hdefined := (undefined_eq_false_iff_fit hrun).mpr ⟨hconnections, hcalls⟩
    exact ⟨hdefined, (nodup_seqNums_iff hrun hdefined).mpr hapart⟩

end

/-- Two connections that take turns. -/
theorem seqNumsUnique_iff_sample :
    ∃ s, tradeServer.machine.run tradeStart
        [.connect, .request 0 "APPL", .connect, .request 1 "MSFT", .request 0 ""] = some s ∧
      (SeqNumsUnique s ↔ NumbersFit
        [.connect, .request 0 "APPL", .connect, .request 1 "MSFT", .request 0 ""]) :=
  ⟨_, rfl, seqNumsUnique_iff rfl⟩

/-- One call on the second connection, and `n` on the first. -/
def twoConnections (n : Nat) : List (Event String) :=
  .connect :: .connect :: .request 1 "APPL" :: (List.replicate n "APPL").map (.request 0)

theorem exists_run_twoConnections {n : Nat} (hn : ∀ i < n, seqNum 0 i < 2 ^ 31) :
    ∃ s, tradeServer.machine.run tradeStart (twoConnections n) = some s ∧
      s.undefined = false := by
  have hanswers : ∀ i < (List.replicate n "APPL").length, seqNum 0 i < 2 ^ 31 := by
    rwa [List.length_replicate]
  have hfirst := tradeServer_numbered.run_requests
    (s := ⟨⟨2⟩, [⟨1, 0⟩, ⟨2, 1⟩], [(1, report 1 0 "APPL")], false⟩) rfl rfl hanswers
  exact ⟨_, Machine.run_cons rfl (Machine.run_cons rfl (Machine.run_cons rfl hfirst)), rfl⟩

/-- The call number 10001 on the first connection gets the first number of the second one. -/
theorem long_connection_repeats_seq_num :
    ∃ s, tradeServer.machine.run tradeStart (twoConnections 10001) = some s ∧
      ¬ SeqNumsUnique s := by
  have hfits : ∀ i < 10001, seqNum 0 i < 2 ^ 31 := by
    intro i hi
    unfold seqNum
    omega
  obtain ⟨s, hrun, hdefined⟩ := exists_run_twoConnections hfits
  refine ⟨s, hrun, fun hunique => ?_⟩
  have hapart := (nodup_seqNums_iff hrun hdefined).mp hunique.2 0 1 (by decide)
  have hlength : ∀ n, (requestsOn 0 (twoConnections n)).length = n := by
    intro n
    show (requestsOn 0 ((List.replicate n "APPL").map (.request 0))).length = n
    rw [requestsOn_map_request, List.length_replicate]
  have hused : ∀ n, 0 < (requestsOn 1 (twoConnections n)).length := fun n => Nat.succ_pos _
  have hle := hapart (hused 10001)
  rw [hlength] at hle
  exact absurd hle (by decide)

end ThriftBench.Dump
