import ThriftBench.Hindsight.Clients
import ThriftBench.Inference.Clients
import ThriftBench.Load.Served

namespace ThriftBench.Load

open Lib PerConnection Rpc

/-!
# Load clients — three benchmarks

A load client, its connections, and the server that listens on the port of its transport.

* `computeBenchmark` — the client of the inference server: `compute_load`;
* `echoBenchmark` — that of the Hindsight echo server: `echo_load`;
* `misdirectedBenchmark` — that of the threaded UniqueId server, whose port is the one of
  HelloWorld and EchoService: `misdirected_load`.
-/

/-! ### Inference -/

section

variable {I D ε β M T : Type} {P : TProtocol I D ε} {d : Inference.Deployment D β M T} {one : D}
  {seconds reqps no_of_clients : BitVec 32}

theorem sendable_sampleInput (P : TProtocol I D ε) (one : D) :
    (Compute.computeList P).args.struct.Sendable ⟨Inference.sampleInput one, false⟩ := by
  refine Arguments.one_sendable (Nat.le_of_ble_eq_true rfl) ?_
  have hsize : ∀ {κ : Type} {n : Nat} (x : κ), n < 2 ^ 32 → (List.replicate n x).length < 2 ^ 32 :=
    fun x hn => by rwa [List.length_replicate]
  refine ⟨hsize _ (by decide), fun plane hplane => ?_⟩
  obtain rfl := List.eq_of_mem_replicate hplane
  refine ⟨hsize _ (by decide), fun row hrow => ?_⟩
  obtain rfl := List.eq_of_mem_replicate hrow
  exact ⟨hsize _ (by decide), fun _ _ => trivial⟩

/-- `MLInfer/tthreaded/compute_client_1.cpp` and the server. -/
def computeBenchmark (P : TProtocol I D ε) (d : Inference.Deployment D β M T) (one : D) :
    Workload P.toLink d.listServer ε (Compute.computeList P).Invocation
      (Except TApplicationException String) Unit where
  generator := computeClient
  remote := Inference.listClients P d
  ask _ := ⟨"", ⟨Inference.sampleInput one, false⟩, sendable_sampleInput P one⟩
  returns := Except.isOk

/-- What the server makes of the request, whatever libtorch answers. -/
theorem listReply_sampleInput (d : Inference.Deployment D β M T) (n : Nat) (one : D) :
    d.listReply n (Inference.sampleInput one) = some (.ok d.server.reply) ∨
      d.listReply n (Inference.sampleInput one)
        = some (.error (d.listError n (Inference.sampleInput one))) :=
  d.listReply_of_contains n (Grid.hasShape_replicate _ _ _ one).contains

/-- What the outcomes are: replies of the server, and exceptions of libtorch. -/
theorem compute_outcome {args : Arguments} {n : Nat} {s : (computeBenchmark P d one).State}
    (h : Workload.Accounted (computeBenchmark P d one) args n s) :
    s.remote.undefined = false ∧ ∀ (k : Nat) c, s.remote.sessions[k]? = some c →
      ∀ y ∈ c.outcomes, Inference.ListOutcome d (Inference.sampleInput one) y := by
  obtain ⟨as, hremote⟩ := h.remote
  obtain ⟨hundefined, houtcomes⟩ :=
    Remote.outcomes_of_run (Backend.ofReplies_answering d.listReply) hremote
  -- Every call has the same request.
  have hrequest : ∀ (k : Nat) c, s.remote.sessions[k]? = some c → ∀ x ∈ c.sent,
      (computeBenchmark P d one).remote.request x = Inference.sampleInput one := by
    intro k c hk x hx
    obtain ⟨_, -, -, htied⟩ := h.owner hk
    obtain ⟨z, rfl⟩ := htied.asked x hx
    rfl
  refine ⟨Bool.eq_false_iff.mpr fun htrue => ?_, fun k c hk y hy => ?_⟩
  · obtain ⟨k, c, x, hk, hx, n, hnone⟩ := hundefined htrue
    rw [hrequest k c hk x hx] at hnone
    rcases listReply_sampleInput d n one with hreply | hreply
    · cases hnone.symm.trans hreply
    · cases hnone.symm.trans hreply
  · obtain ⟨i, hi, rfl⟩ := List.mem_iff_getElem.mp hy
    have hlt : i < c.sent.length := Nat.lt_of_lt_of_le hi (houtcomes k c hk).1.1
    obtain ⟨r, ⟨n, hr⟩, hy⟩ := (houtcomes k c hk).2 i _ _ (List.getElem?_eq_getElem hlt)
      (List.getElem?_eq_getElem hi)
    rw [hrequest k c hk _ (List.getElem_mem hlt)] at hr
    rw [hy]
    exact (Inference.listOutcome_of_reply hr).2

/-- **Inference load.** In every run, the server has a defined behaviour, and every call that has an
    outcome has got the reply of the server or an exception of libtorch.  If `main` has
    returned, then there are `no_of_clients` connections, and on each of them
    `seconds * reqps` calls have got the reply. -/
theorem compute_load {as : List (Workload.Step Unit)} {s : (computeBenchmark P d one).State}
    (hrun : ((computeBenchmark P d one).machine (.atoi seconds reqps no_of_clients)).run
      ((computeBenchmark P d one).start 0) as = some s) :
    s.remote.undefined = false ∧
    (∀ (k : Nat) c, s.remote.sessions[k]? = some c → ∀ y ∈ c.outcomes,
      y = .ok d.server.reply ∨
        ∃ n, y = .error ⟨.unknown, d.listError n (Inference.sampleInput one)⟩) ∧
    (s.program.main = .finished →
      s.remote.sessions.length = no_of_clients.toInt.toNat ∧
      ∀ (k : Nat) c, s.remote.sessions[k]? = some c →
        c.outcomes = List.replicate (seconds.toInt.toNat * reqps.toInt.toNat)
          (.ok d.server.reply)) := by
  have h := Workload.accounted_of_run hrun
  obtain ⟨hdefined, houtcomes⟩ := compute_outcome h
  refine ⟨hdefined, houtcomes, fun hmain => ?_⟩
  have hattains := attains_of_finished (Source.count_afterRound .mlInfer) h.program hmain
  obtain ⟨hlength, hcompleted⟩ :=
    h.completed hattains hmain (Workload.active_of_finished hrun hmain)
  refine ⟨hlength, fun k c hk => ?_⟩
  obtain ⟨-, hcount, -, hreturned⟩ := hcompleted k c hk
  refine List.eq_replicate_iff.mpr ⟨hcount, fun y hy => ?_⟩
  -- An exception would have terminated the process.
  rcases houtcomes k c hk y hy with hok | ⟨n, herror⟩
  · exact hok
  · have hreturns := hreturned y hy
    rw [herror] at hreturns
    exact absurd hreturns Bool.false_ne_true

end

/-- A benchmark over the plain libtorch. -/
def plainBenchmark := computeBenchmark (loopback Nat) Inference.plainDeployment 1

/-- `main` has started a thread, which has opened its transport and begun a round. -/
def beforeCall : plainBenchmark.State where
  program := ⟨.spawning 1, [⟨.looping 0, 0, [0]⟩]⟩
  remote := { backend := 0, sessions := [plainBenchmark.remote.wiring.fresh] }
  connection := Function.update (fun _ => 0) 0 0

theorem serve_plainBenchmark : Inference.plainDeployment.listServer.serve 0 0
    (plainBenchmark.remote.request (plainBenchmark.ask ())) = some (.ok "processed", 1) := by
  have hreply : Inference.plainDeployment.listReply 0 (Inference.sampleInput 1)
      = some (.ok "processed") := Inference.listReply_sampleInput_eq 0 1 rfl
  show (Inference.plainDeployment.listReply 0 (Inference.sampleInput 1)).map _ = _
  rw [hreply]
  rfl

/-- One client that sends one call, which is served and returns; the thread goes on to its end, and
    `main` joins it. -/
theorem compute_load_sample : ∃ s,
    (plainBenchmark.machine (.atoi 1 1 1)).run (plainBenchmark.start 0)
        ([.main, .thread 0, .thread 0] ++ ([.call 0 (), .serve 0, .answer 0] ++
          (List.replicate 6 (.thread 0) ++ [.main, .main, .main]))) = some s ∧
      s.remote.sessions.length = 1 ∧
      ∀ (k : Nat) c, s.remote.sessions[k]? = some c → c.outcomes = [.ok "processed"] := by
  have hbegun : (plainBenchmark.machine (.atoi 1 1 1)).run (plainBenchmark.start 0)
      [.main, .thread 0, .thread 0] = some beforeCall := rfl
  obtain ⟨r, hcalled⟩ := Workload.call_returns (i := 0) (z := ()) (c := ⟨.looping 0, 0, [0]⟩)
    (p := ⟨.spawning 1, [⟨.looping 1, 0, [1]⟩]⟩) hbegun rfl rfl rfl rfl rfl rfl rfl
    serve_plainBenchmark rfl (fun l ts => ⟨l ++ ts, rfl⟩) rfl
  obtain ⟨s, hended, hmain⟩ : ∃ s, (plainBenchmark.machine (.atoi 1 1 1)).run
      { beforeCall with program := ⟨.spawning 1, [⟨.looping 1, 0, [1]⟩]⟩, remote := r }
      (List.replicate 6 (.thread 0) ++ [.main, .main, .main]) = some s ∧
      s.program.main = .finished := ⟨_, rfl, rfl⟩
  have hrun : (plainBenchmark.machine (.atoi 1 1 1)).run (plainBenchmark.start 0)
      ([.main, .thread 0, .thread 0] ++ ([.call 0 (), .serve 0, .answer 0] ++
        (List.replicate 6 (.thread 0) ++ [.main, .main, .main]))) = some s := by
    rw [Machine.run_append, hbegun, Option.bind_some, Machine.run_append]
    exact (congrArg (Option.bind · _) hcalled).trans hended
  exact ⟨s, hrun, (compute_load hrun).2.2 hmain⟩

/-! ### The Hindsight echo server -/

section

variable {I D ε : Type} {P : TProtocol I D ε} {stack : Nat → Nat → Hindsight.Mess}
  {args : Arguments}

/-- What `echo_client` sends; `drawn` is what `std::rand()` returns. -/
def echoArgs (drawn : BitVec 32) : EchoService.CallArgs where
  req := { req_id := drawn.signExtend 64, baggage := "" }
  message := "extra information"

/-- `EchoServerHindsight/tthreaded/echo_client.cpp` and the server. -/
def echoBenchmark (P : TProtocol I D ε) (stack : Nat → Nat → Hindsight.Mess) :
    Workload P.toLink (Hindsight.echoServer stack).backend ε (EchoService.call P).Invocation
      (Except TApplicationException Unit) (BitVec 32) where
  generator := echoClient
  remote := Hindsight.callClients P stack
  ask drawn := ⟨(), echoArgs drawn, EchoService.sendable P _⟩
  returns := Except.isOk

end

/-- The benchmark over the protocol in memory. -/
def memoryBenchmark := echoBenchmark (loopback Unit) Hindsight.zeroStack

section

variable {I D ε A Res R σ α β : Type} {P : TProtocol I D ε} {m : Method P A Res R}
  {hname : "compute_unique_id" ≠ m.name} {B : Backend σ α β} {request : A → α}
  {answer : β → Except String R} {b : σ} {seconds reqps no_of_clients : BitVec 32}

/-- `DSBUniqueIDService/tthreadedserver/uniqueid_client_1.cpp`, and a server of another service
    with the method `m` on its port. -/
def misdirectedBenchmark (m : Method P A Res R) (hname : "compute_unique_id" ≠ m.name)
    (B : Backend σ α β) (request : A → α) (answer : β → Except String R) :
    Workload P.toLink (Backend.unnoticed B.accept) ε (UniqueID.computeUniqueId P).Invocation
      (Except TApplicationException String) Unit where
  generator := tthreadedClient
  remote := (UniqueID.computeUniqueId P).foreign B.accept
    (fun k => [(m.name, m.processOn B request answer k)])
    fun _ => lookup_singleton_of_ne hname _
  ask _ := UniqueID.callOf P "processed" 100
  returns := Except.isOk

/-- **Misdirected load.** In every run, no call returns: a thread sends one call at most, and the
    first answer that is read terminates the process.  `main` returns only if nothing was asked
    for. -/
theorem misdirected_load {as : List (Workload.Step Unit)}
    {s : (misdirectedBenchmark m hname B request answer).State}
    (hrun : ((misdirectedBenchmark m hname B request answer).machine
      (.atoi seconds reqps no_of_clients)).run
        ((misdirectedBenchmark m hname B request answer).start b) as = some s) :
    s.program.calls = 0 ∧
    (∀ (i : Nat) c, s.program.threads[i]? = some c → c.opened = true → ∃ x,
      s.remote.sessions[s.connection i]? = some x ∧ x.sent.length ≤ 1 ∧
      (s.terminated = false → x.outcomes = [])) ∧
    (s.program.main = .finished →
      no_of_clients.toInt ≤ 0 ∨ seconds.toInt = 0 ∨ reqps.toInt ≤ 0) := by
  have h := Workload.accounted_of_run hrun
  obtain ⟨hcalls, hthreads⟩ := h.refused fun _ => rfl
  refine ⟨hcalls, hthreads, fun hmain => ?_⟩
  have hattains := attains_of_finished (Source.count_afterRound .tthreaded) h.program hmain
  have hcompleted := (program_halts hattains).ends s.program h.program
    (stuck_of_finished hmain)
  have hzero := hcompleted.calls.symm.trans hcalls
  rcases Nat.mul_eq_zero.mp hzero with hzero | hreqps
  · rcases Nat.mul_eq_zero.mp hzero with hclients | hseconds
    · exact Or.inl (Int.toNat_eq_zero.mp hclients)
    · by_cases hclients : 0 < no_of_clients.toInt
      · exact Or.inr (Or.inl (Int.le_antisymm (Int.toNat_eq_zero.mp hseconds)
          (hattains hclients).nonneg))
      · exact Or.inl (Int.not_lt.mp hclients)
  · exact Or.inr (Or.inr (Int.toNat_eq_zero.mp hreqps))

end

/-- The benchmark at a server of HelloWorld. -/
def misdirectedToHello := misdirectedBenchmark (HelloWorld.helloWorld (loopback Unit))
  Hello.compute_unique_id_ne_hello_world (Hello.helloServer .tthreaded) (fun _ => ()) .ok

theorem misdirected_load_sample : ∃ s,
    (misdirectedToHello.machine (.atoi 1 1 1)).run (misdirectedToHello.start ())
        [.main, .thread 0, .thread 0, .call 0 (), .serve 0, .answer 0] = some s ∧
      s.program.calls = 0 := by
  obtain ⟨s, hrun⟩ : ∃ s, (misdirectedToHello.machine (.atoi 1 1 1)).run
      (misdirectedToHello.start ())
      [.main, .thread 0, .thread 0, .call 0 (), .serve 0, .answer 0] = some s :=
    Option.isSome_iff_exists.mp (by decide +kernel)
  exact ⟨s, hrun, (misdirected_load hrun).1⟩

end ThriftBench.Load
