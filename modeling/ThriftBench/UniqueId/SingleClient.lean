import ThriftBench.Load.Served
import ThriftBench.UniqueId.SerialIds

namespace ThriftBench.UniqueId

open Lib PerConnection Rpc Load

/-!
# UniqueID — a load client with one thread

A client that waits for its answer before it calls again leaves the server with one call at a
time, and the laws of serial runs hold for what comes back over the wire.

* `serialServer` — the server, one call after another; `issued_of_run` — its runs are those of
  `serialRun`;
* `singleBenchmark` — a load client and that server;
* `single_client_ids` — the ids that a load client with one thread gets.
-/

/-- What the calls before call `n` have read. -/
def readings (clock : Nat → Int) (n : Nat) : List Int := (List.range n).map clock

theorem readings_succ (clock : Nat → Int) (n : Nat) :
    readings clock (n + 1) = readings clock n ++ [clock n] := by
  rw [readings, List.range_succ, List.map_append]
  rfl

/-- The server with its globals; call `n` reads `clock n`.  `none` is `exit(EXIT_FAILURE)`. -/
def serialServer (m : MachineId) (clock : Nat → Int) :
    Backend (Nat × Globals) (OneArg (BitVec 32)) (Except StdException (List Char)) where
  accept b := some b
  serve _ b _ := (getCounter b.2 (clock b.1)).map fun r =>
    (uniqueIdString m (clock b.1) r.1, (b.1 + 1, r.2))

section

variable {m : MachineId} {clock : Nat → Int} {es : List (PerConnection.Event (OneArg (BitVec 32)))}
  {t : Backend.State (Nat × Globals) (Except StdException (List Char))}

/-- The replies are those of a serial run, which goes on from the globals of the server. -/
structure Issued (m : MachineId) (clock : Nat → Int) (pairs : List (Int × Int))
    (t : Backend.State (Nat × Globals) (Except StdException (List Char))) : Prop where
  replies : t.replies.map Prod.snd = pairs.map fun p => uniqueIdString m p.1 p.2
  goes_on : ∀ ts, serialRun {} (readings clock t.state.1 ++ ts)
    = { issued := pairs ++ (serialRun t.state.2 ts).issued
        exited := (serialRun t.state.2 ts).exited }
  exits : t.undefined = true → getCounter t.state.2 (clock t.state.1) = none

theorem Issued.issued_eq {pairs : List (Int × Int)} (h : Issued m clock pairs t) :
    (serialRun {} (readings clock t.state.1)).issued = pairs := by
  have hnil := h.goes_on []
  rw [List.append_nil] at hnil
  rw [hnil]
  exact List.append_nil pairs

/-- **Run.** -/
theorem issued_of_run (hrun : (serialServer m clock).machine.run { state := (0, {}) } es = some t) :
    ∃ pairs, Issued m clock pairs t := by
  refine Machine.invariant_run (I := fun t => ∃ pairs, Issued m clock pairs t) ?_
    ⟨[], rfl, fun _ => rfl, fun hfalse => absurd hfalse Bool.false_ne_true⟩ hrun
  rintro t e t' ⟨pairs, h⟩ hstep
  obtain ⟨hdefined, hcases⟩ := Backend.machine_step_cases hstep
  rcases hcases with ⟨b, -, haccept, rfl⟩ | ⟨k, x, y, b, -, -, hserve, rfl⟩ |
    ⟨-, haccept, -⟩ | ⟨k, x, -, -, hserve, rfl⟩
  · obtain rfl := Option.some.inj haccept
    exact ⟨pairs, h.replies, h.goes_on, h.exits⟩
  · obtain ⟨r, hcounter, hreply⟩ := Option.map_eq_some_iff.mp hserve
    obtain ⟨rfl, rfl⟩ := Prod.mk.inj hreply
    refine ⟨pairs ++ [(clock t.state.1, r.1)], ?_, fun ts => ?_, fun hexits => ?_⟩
    · rw [List.map_append, List.map_append, h.replies]
      rfl
    · -- The call is the first one of the run that goes on.
      have hnext : serialRun t.state.2 (clock t.state.1 :: ts)
          = { issued := (clock t.state.1, r.1) :: (serialRun r.2 ts).issued
              exited := (serialRun r.2 ts).exited } := by
        rw [serialRun, hcounter]
      show serialRun {} (readings clock (t.state.1 + 1) ++ ts) = _
      rw [readings_succ, List.append_assoc, List.singleton_append, h.goes_on, hnext,
        List.append_assoc]
      rfl
    · exact absurd (hdefined.symm.trans hexits) (by simp)
  · cases haccept
  · exact ⟨pairs, h.replies, h.goes_on, fun _ => Option.map_eq_none_iff.mp hserve⟩

/-- If the clock has not run backwards when the next call reads it, the server does not exit. -/
theorem Issued.defined {pairs : List (Int × Int)} (h : Issued m clock pairs t)
    (hmono : (readings clock (t.state.1 + 1)).Pairwise (· ≤ ·))
    (hrange : ∀ u ∈ readings clock (t.state.1 + 1), 0 ≤ u ∧ u < 2 ^ 40) :
    t.undefined = false := by
  refine Bool.eq_false_iff.mpr fun hexits => ?_
  -- One more call would exit, and yet the run has a pair for each of its calls.
  have hmore := issued_length_of_monotone hmono hrange
  rw [readings_succ] at hmono hrange
  have hless := issued_length_of_monotone (List.pairwise_append.mp hmono).1
    fun u hu => hrange u (List.mem_append_left _ hu)
  have hnone : serialRun t.state.2 [clock t.state.1] = { issued := [], exited := true } := by
    rw [serialRun, h.exits hexits]
  rw [readings_succ, h.goes_on, hnone, List.append_nil, ← h.issued_eq, hless,
    List.length_append] at hmore
  exact absurd hmore (Nat.ne_of_lt (Nat.lt_succ_self _))

/-- Where there is one connection, all replies are on it. -/
theorem repliesOn_zero_of_run {σ α β : Type} {B : Backend σ α β} {b : σ}
    {es : List (PerConnection.Event α)} {t : Backend.State σ β}
    (hrun : B.machine.run { state := b } es = some t)
    (hone : t.connections ≤ 1) : repliesOn 0 t.replies = t.replies.map Prod.snd := by
  have hzero : ∀ r ∈ t.replies, r.1 = 0 := by
    intro r hr
    by_contra hne
    have hnone := (Backend.unopened_of_run hrun r.1 (by omega)).2
    have hmem : r.2 ∈ repliesOn r.1 t.replies :=
      List.mem_filterMap.mpr ⟨r, hr, if_pos rfl⟩
    rw [hnone] at hmem
    exact absurd hmem List.not_mem_nil
  rw [repliesOn, ← List.filterMap_eq_map]
  exact List.filterMap_congr fun r hr => if_pos (hzero r hr)

end

/-! ### Over the wire -/

/-- The reply as it is returned; `what` is the text of an exception. -/
def replyText (what : StdException → String) : Except StdException (List Char) →
    Except String String
  | .ok text => .ok (String.ofList text)
  | .error e => .error (what e)

/-- The id of a pair, as a client gets it. -/
def idOutcome (m : MachineId) (p : Int × Int) : Except TApplicationException String :=
  .ok (String.ofList (Nat.toDigits 10 (idNumber m.value p.1 p.2)))

section

variable {I D ε : Type} {P : TProtocol I D ε} {m : MachineId} {clock : Nat → Int}
  {what : StdException → String} {source : Source} {seconds reqps no_of_clients : BitVec 32}

/-- A load client and the server. -/
def singleBenchmark (P : TProtocol I D ε) (m : MachineId) (clock : Nat → Int)
    (what : StdException → String) (source : Source) :
    Workload P.toLink (serialServer m clock) ε (UniqueID.computeUniqueId P).Invocation
      (Except TApplicationException String) Unit where
  generator := source.generator
  remote := (UniqueID.computeUniqueId P).remote (serialServer m clock) id (replyText what)
  ask _ := UniqueID.callOf P "" 100
  returns := Except.isOk

theorem outcome_uniqueIdString (p : Int × Int) :
    (UniqueID.computeUniqueId P).outcome (replyText what (uniqueIdString m p.1 p.2))
      = idOutcome m p := by
  rw [uniqueIdString_eq]
  rfl

/-- Outcomes are equal only where the replies are. -/
theorem idOutcome_inj {p q : Int × Int} (h : idOutcome m p = idOutcome m q) :
    uniqueIdString m p.1 p.2 = uniqueIdString m q.1 q.2 := by
  rw [uniqueIdString_eq, uniqueIdString_eq]
  exact congrArg _ (String.ofList_injective (Except.ok.inj h))

/-- **One client.** In every run of a load client that is to start at most one thread: if the
    clock readings of the server, with the next one, are in `[0, 2 ^ 40)` and do not decrease,
    and none has been read more than `4096` times, then the server has not exited, and the ids
    that have come back are pairwise distinct and those of a serial run, in their order.  If
    `main` has returned, there are `seconds * reqps` of them. -/
theorem single_client_ids (hone : no_of_clients.toInt ≤ 1)
    {as : List (Workload.Step Unit)} {s : (singleBenchmark P m clock what source).State}
    (hrun : ((singleBenchmark P m clock what source).machine
      (.atoi seconds reqps no_of_clients)).run
        ((singleBenchmark P m clock what source).start (0, {})) as = some s)
    (hmono : (readings clock (s.remote.backend.1 + 1)).Pairwise (· ≤ ·))
    (hrange : ∀ t ∈ readings clock (s.remote.backend.1 + 1), 0 ≤ t ∧ t < 2 ^ 40)
    (hcount : ∀ t, (readings clock s.remote.backend.1).count t ≤ 4096) :
    s.remote.undefined = false ∧
    ∀ (k : Nat) c, s.remote.sessions[k]? = some c →
      c.outcomes.Nodup ∧
      c.outcomes <+: (serialRun {} (readings clock s.remote.backend.1)).issued.map (idOutcome m) ∧
      (s.program.main = .finished →
        c.outcomes.length = seconds.toInt.toNat * reqps.toInt.toNat) := by
  have h := Workload.accounted_of_run hrun
  obtain ⟨es, replies, hserver, hserved⟩ := h.served
  obtain ⟨pairs, hissued⟩ := issued_of_run hserver
  refine ⟨hissued.defined hmono hrange, fun k c hk => ?_⟩
  -- There is at most one connection.
  have hsessions : s.remote.sessions.length ≤ 1 := by
    have hfew := (started_of_reaches h.program).few
    have hopened := List.countP_le_length (l := s.program.threads) (p := Client.opened)
    rw [← h.count] at hopened
    have hclients : (Arguments.atoi seconds reqps no_of_clients).no_of_clients.toNat ≤ 1 :=
      Int.toNat_le.mpr hone
    omega
  obtain rfl : k = 0 := by
    have hlt := (List.getElem?_eq_some_iff.mp hk).1
    omega
  have hreplies : (repliesOn 0 replies).map ((UniqueID.computeUniqueId P).outcome ∘ replyText what)
      = pairs.map (idOutcome m) := by
    have hall : replies.map Prod.snd = pairs.map fun p => uniqueIdString m p.1 p.2 :=
      hissued.replies
    rw [repliesOn_zero_of_run hserver hsessions]
    show (replies.map Prod.snd).map _ = _
    rw [hall, List.map_map]
    exact List.map_congr_left fun p _ => outcome_uniqueIdString p
  have hfirst : c.outcomes <+: pairs.map (idOutcome m) := hreplies ▸ (hserved 0 c hk).2.1
  refine ⟨?_, ?_, fun hmain => ?_⟩
  · rw [readings_succ] at hrange
    have hnodup := replies_nodup_of_count_le
      (fun u hu => hrange u (List.mem_append_left _ hu)) m hcount
    rw [SerialRun.replies, hissued.issued_eq] at hnodup
    refine hfirst.sublist.nodup (List.pairwise_map.mpr ?_)
    exact (List.pairwise_map.mp hnodup).imp fun hne heq => hne (idOutcome_inj heq)
  · rw [hissued.issued_eq]
    exact hfirst
  · have hattains := attains_of_finished source.count_afterRound h.program hmain
    obtain ⟨-, hcompleted⟩ :=
      h.completed hattains hmain (Workload.active_of_finished hrun hmain)
    exact (hcompleted 0 c hk).2.1

end

/-- The load client of the thread-pool server over the protocol in memory. -/
def memoryBenchmark := singleBenchmark (loopback Unit) (.ofHash 0x10af) (fun n => n)
  (fun _ => "what") .threadpool

/-- A client that calls twice, and reads one answer so far. -/
def twoIds : List (Workload.Step Unit) :=
  [.main, .thread 0, .thread 0, .call 0 (), .serve 0, .answer 0, .call 0 (), .serve 0]

/-- The id that has come back is the first one of a serial run. -/
theorem single_client_ids_sample : ∃ s c,
    (memoryBenchmark.machine (.atoi 1 2 1)).run (memoryBenchmark.start (0, {})) twoIds = some s ∧
      s.remote.sessions[0]? = some c ∧ c.outcomes.length = 1 ∧
      c.outcomes <+: (serialRun {} (readings (fun n => n) 2)).issued.map
        (idOutcome (.ofHash 0x10af)) := by
  obtain ⟨s, hrun, hs⟩ : ∃ s,
      (memoryBenchmark.machine (.atoi 1 2 1)).run (memoryBenchmark.start (0, {})) twoIds = some s ∧
      (s.remote.backend.1, s.remote.sessions[0]?.map fun c => c.outcomes.length) = (2, some 1) :=
    Option.map_eq_some_iff.mp (by decide +kernel)
  obtain ⟨hcalls, hreturned⟩ := Prod.mk.inj hs
  obtain ⟨c, hc, hlength⟩ := Option.map_eq_some_iff.mp hreturned
  refine ⟨s, c, hrun, hc, hlength, ?_⟩
  rw [← hcalls]
  refine ((single_client_ids (by decide) hrun ?_ ?_ ?_).2 0 c hc).2.1
  · rw [hcalls]
    decide
  · rw [hcalls]
    decide
  · intro t
    refine Nat.le_trans List.count_le_length ?_
    rw [hcalls]
    decide

end ThriftBench.UniqueId
