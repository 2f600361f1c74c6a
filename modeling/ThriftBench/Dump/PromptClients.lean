import ThriftBench.Dump.Clients
import ThriftBench.Dump.Prompt
import ThriftBench.Lib.Dialogue

namespace ThriftBench.Dump

open Lib PerConnection Rpc

/-!
# Message and TradeHistory — the clients at the prompt

`factory_client` and `nb_client` call their server and print the answer, ask the user for a
line, and call again, until the line says that they are to quit.  They run over a connection
among others.

* `factoryClient`, `nbClient` — the two loops; `nbClient_play_isSome_iff` — the second one goes
  on exactly as long as `clientLoop` does;
* `factory_client_prints`, `nb_client_prints` — what they print, and how long they go on,
  whatever the user types and the other clients do.
-/

/-- What `std::getline` leaves after `i` lines have been read. -/
def readLine (lines : List (List Char)) (i : Nat) : List Char := (getline (lines.drop i)).1

theorem readLine_tail (lines : List (List Char)) (i : Nat) :
    readLine (getline lines).2 i = readLine lines (i + 1) := by
  cases lines with
  | nil => rw [readLine, readLine, getline, List.drop_nil, List.drop_nil]
  | cons line lines => rfl

section

variable {I D ε : Type} {P : TProtocol I D ε}

/-! ### `factory_client` -/

/-- The loop of `factory_client`, with the variable `msg`.  `recv_motd` writes into it, and so
    does `std::getline`. -/
def factoryClient (P : TProtocol I D ε) : Dialogue String (List Char) (Message.motd P).Invocation
    (Except TApplicationException String) where
  call msg :=
    { ret := msg
      args := ⟨"This is amazing", false⟩
      sendable := Message.sendable P _ }
  throws r := !r.isOk
  quits line := line == ['q']
  got _ _ line := String.ofList line

/-- **Messages at the prompt.** In every run in which connection `k` is that of a
    `factory_client`, it prints the messages in their rotation, whatever the lines are and the
    other clients do.  It makes no call after a line `q`, and as long as no line is just that it
    goes on, also at the end of the input. -/
theorem factory_client_prints {lines : List (List Char)} {k : Nat}
    {as : List (motdClients P).Step} {s : (motdClients P).State}
    (hrun : (motdClients P).system.run ((motdClients P).start (⟨0⟩, [])) as = some s)
    (hdrives : (motdClients P).system.Meets
      ((factoryClient P).Drives (readLine lines) "" k) ((motdClients P).start (⟨0⟩, [])) as) :
    ∀ c, s.sessions[k]? = some c →
      (∀ (i : Nat) y, c.outcomes[i]? = some y →
        y = .ok (msgs (Fin.ofNat 3 ((i + 1) % 2 ^ 32)))) ∧
      (∀ j, readLine lines j = ['q'] → c.sent.length ≤ j + 1) ∧
      (((factoryClient P).next (readLine lines) "" c.outcomes).isSome = true ↔
        ∀ i < c.outcomes.length, readLine lines i ≠ ['q']) := by
  intro c hk
  have hfollows := Dialogue.follows_of_run hrun hdrives hk
  have hprints := ((motd_outcomes hrun).2 k c hk).2
  have hthrows : ∀ r ∈ c.outcomes, (factoryClient P).throws r = false := by
    intro r hr
    obtain ⟨i, hi, hget⟩ := List.mem_iff_getElem.mp hr
    rw [hprints i r (hget ▸ List.getElem?_eq_getElem hi)]
    rfl
  refine ⟨hprints, fun j hj => hfollows.calls_le (beq_iff_eq.mpr hj), ?_⟩
  rw [Dialogue.next, Option.isSome_map, Dialogue.play_isSome_iff, and_iff_right hthrows]
  exact forall₂_congr fun i _ => beq_eq_false_iff_ne

/-- Clients over the protocol in memory. -/
def memoryMotd := motdClients (loopback Unit)

/-- A `factory_client` that is told to quit after its first call, which got a message. -/
theorem factory_client_prints_sample : ∃ s,
    memoryMotd.system.run (memoryMotd.start (⟨0⟩, []))
        (Dialogue.once ((factoryClient (loopback Unit)).call "")) = some s ∧
      s.sessions.map (fun c => c.outcomes.length) = [1] ∧
      ∀ c, s.sessions[0]? = some c →
        (∀ y, c.outcomes[0]? = some y → y = .ok (msgs 1)) ∧ c.sent.length ≤ 1 := by
  have hended : (memoryMotd.system.run (memoryMotd.start (⟨0⟩, []))
      (Dialogue.once ((factoryClient (loopback Unit)).call ""))).map
        (fun s => s.sessions.map fun c => c.outcomes.length) = some [1] := by
    decide +kernel
  obtain ⟨s, hrun, hlengths⟩ := Option.map_eq_some_iff.mp hended
  have hdrives := Dialogue.drives_once (factoryClient (loopback Unit)) (readLine [['q']]) ""
    memoryMotd (⟨0⟩, [])
  refine ⟨s, hrun, hlengths, fun c hk => ?_⟩
  obtain ⟨hprints, hquits, -⟩ := factory_client_prints hrun hdrives c hk
  exact ⟨hprints 0, hquits 0 rfl⟩

end

/-! ### `nb_client` -/

section

variable {I ε : Type} {P : TProtocol I Float ε}

/-- The loop of `nb_client`, with the variable `trade`, which is printed and used again. -/
def nbClient (P : TProtocol I Float ε) : Dialogue (Rpc.TradeReport Float) (List Char)
    (TradeHistory.getLastSale P).Invocation
    (Except TApplicationException (Rpc.TradeReport Float)) where
  call trade :=
    { ret := trade
      args := ⟨"APPL", false⟩
      sendable := Arguments.one_sendable (Nat.le_of_ble_eq_true rfl) trivial }
  throws r := !r.isOk
  quits line := firstChar line == 'q'
  got trade r _ := r.toOption.getD trade

/-- `TradeReport trade;` -/
def noTrade : Rpc.TradeReport Float where
  symbol := ""
  price := 0
  size := 0
  seq_num := 0

/-- A loop that has been left takes no iteration. -/
theorem left_of_run {returns : Nat → Bool} {n : Nat} {q q' : Prompt} (hleft : q.left = true)
    (hrun : (promptLoop returns).run q (List.replicate n ()) = some q') : q'.left = true := by
  cases n with
  | zero =>
    obtain rfl := Option.some.inj hrun
    exact hleft
  | succ n =>
    obtain ⟨q₁, hstep, -⟩ := Machine.run_cons_eq_some.mp hrun
    simp [promptLoop, hleft] at hstep

/-- The loop of the prompt goes on through `n` iterations that return and read other lines. -/
theorem goes_on_iff {returns : Nat → Bool} {lines : List (List Char)} {i n : Nat} :
    (∃ q, (promptLoop returns).run ⟨lines, i, false⟩ (List.replicate n ()) = some q ∧
      q.left = false) ↔
      ∀ j < n, returns (i + j) = true ∧ ¬ Quits (readLine lines j) := by
  induction n generalizing lines i with
  | zero =>
    refine iff_of_true ⟨_, rfl, rfl⟩ fun j hj => ?_
    exact absurd hj (Nat.not_lt_zero j)
  | succ n ih =>
    have hsplit : (∀ j < n + 1, returns (i + j) = true ∧ ¬ Quits (readLine lines j)) ↔
        (returns i = true ∧ ¬ Quits (readLine lines 0)) ∧
          ∀ j < n, returns (i + 1 + j) = true ∧ ¬ Quits (readLine (getline lines).2 j) := by
      have hshift : ∀ j, i + 1 + j = i + (j + 1) := fun j => by omega
      simp only [readLine_tail, hshift]
      exact Nat.forall_lt_succ_left
    rw [hsplit, ← ih]
    constructor
    · rintro ⟨q, hrun, hleft⟩
      obtain ⟨q₁, hstep, hrest⟩ := Machine.run_cons_eq_some.mp hrun
      -- An iteration that leaves the loop would be the last one.
      have hon : q₁.left = false := Bool.eq_false_iff.mpr fun hgone =>
        absurd ((left_of_run hgone hrest).symm.trans hleft) (by simp)
      cases hreturns : returns i with
      | false =>
        obtain rfl := Option.some.inj ((step_throws hreturns).symm.trans hstep)
        exact absurd hon (by simp)
      | true =>
        obtain rfl := Option.some.inj ((step_asks hreturns).symm.trans hstep)
        refine ⟨⟨rfl, fun hquits => ?_⟩, q, ?_, hleft⟩
        · exact beq_eq_false_iff_ne.mp hon ((firstChar_eq_iff _).mpr hquits)
        · rw [← hrest]
          exact congrArg (fun b => (promptLoop returns).run ⟨_, _, b⟩ _) hon.symm
    · rintro ⟨⟨hreturns, hquits⟩, q, hrun, hleft⟩
      refine ⟨q, Machine.run_cons (step_asks hreturns) ?_, hleft⟩
      have hother : (firstChar (getline lines).1 == 'q') = false := firstChar_beq_eq_false hquits
      rw [hother]
      exact hrun

/-- `nbClient` goes on exactly as long as the loop of the prompt. -/
theorem nbClient_play_isSome_iff {lines : List (List Char)} {trade : Rpc.TradeReport Float}
    {outcomes : List (Except TApplicationException (Rpc.TradeReport Float))} :
    ((nbClient P).play (readLine lines) trade outcomes).isSome = true ↔
      ∃ q, (clientLoop fun i => outcomes[i]?.any Except.isOk).run ⟨lines, 0, false⟩
        (List.replicate outcomes.length ()) = some q ∧ q.left = false := by
  have hquits : ∀ line, (nbClient P).quits line = false ↔ ¬ Quits line := fun line =>
    beq_eq_false_iff_ne.trans (not_congr (firstChar_eq_iff line))
  have hthrows : (∀ r ∈ outcomes, (nbClient P).throws r = false) ↔
      ∀ i < outcomes.length, outcomes[0 + i]?.any Except.isOk = true := by
    rw [List.forall_mem_iff_getElem]
    refine forall₂_congr fun i hi => ?_
    rw [Nat.zero_add, List.getElem?_eq_getElem hi]
    exact Iff.of_eq (Bool.not_eq_false' _)
  rw [clientLoop, goes_on_iff, Dialogue.play_isSome_iff, hthrows]
  simp only [hquits, ← forall_and]

/-- **Reports at the prompt.** In every run without an overflow in which connection `k` is that
    of an `nb_client`, it prints reports for `APPL` with the numbers of its connection in their
    order, whatever the lines are and the other clients do.  It makes no call after a line that
    begins with `q`, and as long as no line does it goes on, also at the end of the input. -/
theorem nb_client_prints {lines : List (List Char)} {k : Nat}
    {as : List (getLastSaleClients P).Step} {s : (getLastSaleClients P).State}
    (hrun : (getLastSaleClients P).system.run ((getLastSaleClients P).start (⟨0⟩, [])) as = some s)
    (hdefined : s.undefined = false)
    (hdrives : (getLastSaleClients P).system.Meets
      ((nbClient P).Drives (readLine lines) noTrade k)
      ((getLastSaleClients P).start (⟨0⟩, [])) as) :
    ∀ c, s.sessions[k]? = some c →
      (∀ (i : Nat) y, c.outcomes[i]? = some y →
        y = .ok (wireReport (report k i "APPL")).arrived) ∧
      (∀ j, Quits (readLine lines j) → c.sent.length ≤ j + 1) ∧
      (((nbClient P).next (readLine lines) noTrade c.outcomes).isSome = true ↔
        ∀ i < c.outcomes.length, ¬ Quits (readLine lines i)) := by
  intro c hk
  have hfollows := Dialogue.follows_of_run hrun hdrives hk
  have hprints : ∀ (i : Nat) y, c.outcomes[i]? = some y →
      y = .ok (wireReport (report k i "APPL")).arrived := by
    intro i y hy
    obtain ⟨-, x, hx, rfl⟩ := (getLastSale_outcomes hrun hdefined k c hk).2 i y hy
    -- Every call of the loop asks for the same symbol.
    obtain ⟨trade, -, rfl⟩ := Option.map_eq_some_iff.mp (hfollows.calls i x hx)
    rfl
  have hthrows : ∀ r ∈ c.outcomes, (nbClient P).throws r = false := by
    intro r hr
    obtain ⟨i, hi, hget⟩ := List.mem_iff_getElem.mp hr
    rw [hprints i r (hget ▸ List.getElem?_eq_getElem hi)]
    rfl
  have hquits : ∀ line, (nbClient P).quits line = true ↔ Quits line := fun line =>
    beq_iff_eq.trans (firstChar_eq_iff line)
  refine ⟨hprints, fun j hj => hfollows.calls_le ((hquits _).mpr hj), ?_⟩
  rw [Dialogue.next, Option.isSome_map, Dialogue.play_isSome_iff, and_iff_right hthrows]
  exact forall₂_congr fun i _ => Bool.eq_false_iff.trans (not_congr (hquits _))

end

/-- Clients over the protocol in memory. -/
def memoryTrades := getLastSaleClients (loopback Float)

/-- What an `nb_client` has got after its first call. -/
def tradeTaken : memoryTrades.State :=
  ⟨(⟨1⟩, [⟨1, 1⟩]), [{
    up := []
    down := []
    sent := [(nbClient (loopback Float)).call noTrade]
    outcomes := [.ok (wireReport (report 0 0 "APPL")).arrived] }], false⟩

/-- It has printed the first report, and is told to quit. -/
theorem nb_client_prints_sample :
    memoryTrades.system.run (memoryTrades.start (⟨0⟩, []))
        (Dialogue.once ((nbClient (loopback Float)).call noTrade)) = some tradeTaken ∧
      ∀ c, tradeTaken.sessions[0]? = some c →
        (∀ y, c.outcomes[0]? = some y → y = .ok (wireReport (report 0 0 "APPL")).arrived) ∧
        c.sent.length ≤ 1 := by
  have hrun : memoryTrades.system.run (memoryTrades.start (⟨0⟩, []))
      (Dialogue.once ((nbClient (loopback Float)).call noTrade)) = some tradeTaken := rfl
  have hdrives := Dialogue.drives_once (nbClient (loopback Float)) (readLine ["quit".toList])
    noTrade memoryTrades (⟨0⟩, [])
  refine ⟨hrun, fun c hk => ?_⟩
  obtain ⟨hprints, hquits, -⟩ := nb_client_prints hrun rfl hdrives c hk
  exact ⟨hprints 0, hquits 0 rfl⟩

end ThriftBench.Dump
