import ThriftBench.Rpc.Foreign
import ThriftBench.Rpc.Loopback
import ThriftBench.Rpc.Services

namespace ThriftBench.Hello

open Lib PerConnection Rpc

/-!
# HelloWorld — what clients get

The three servers of the service have the same generated processor and differ in the text.
Clients of other services are connected to them as well: those of EchoService and one of
UniqueID use the port of the threaded one.

* `Server.text`, `helloServer` — the servers; `helloClients` — clients that also call a method
  of another service;
* `hello_outcomes` — every `hello_world` gets the text, and every other call an exception;
* `hello_completes` — every client that waits gets its outcome, unless the server is the thread
  pool, where it may first have to wait for a worker.
-/

/-- The servers: `echonb_server.cpp`, `echo_tpserver.cpp` and `hello_server.cpp`. -/
inductive Server where
  | nonblocking | threadpool | tthreaded
  deriving DecidableEq, Repr

/-- What the handler assigns to `_return`. -/
def Server.text : Server → String
  | .nonblocking => "Hello World"
  | .threadpool  => "This is Sparta"
  | .tthreaded   => "This is Sparta"

/-- The server reads from every open connection.  A worker of the thread pool serves one
    connection until it closes, and the others wait for a worker. -/
def Server.readsAll : Server → Bool
  | .nonblocking | .tthreaded => true
  | .threadpool               => false

/-- A server; its handlers have no members. -/
def helloServer (server : Server) : Backend Unit Unit String :=
  .ofReply fun _ => some server.text

/-- Every request has a reply, also one of another service. -/
theorem helloServer_answering (server : Server) :
    ((helloServer server).sum (Backend.unnoticed (helloServer server).accept)).Answering
      (Sum.LiftRel (fun _ y => some server.text = some y) fun _ _ => True)
      (Sum.elim (fun _ => some server.text = none) fun _ => False) :=
  (Backend.ofReply_answering _).sum (Backend.unnoticed_answering fun _ => ⟨(), rfl⟩)

section

variable {I D ε A Res R : Type} {P : TProtocol I D ε} {server : Server} {m : Method P A Res R}
  {h : m.name ≠ "hello_world"}

/-- Clients of the service, and of one with the method `m`.  Any connection may be served next: for
    the thread pool these are the runs with as many workers as connections, and more than it has. -/
def helloClients (server : Server) (m : Method P A Res R) (h : m.name ≠ "hello_world") :=
  (HelloWorld.helloWorld P).mixed m h (helloServer server) (fun _ => ()) .ok

/-- No request is without a reply. -/
theorem defined_of_run {as : List (helloClients server m h).Step}
    {s : (helloClients server m h).State}
    (hrun : (helloClients server m h).system.run ((helloClients server m h).start ()) as
      = some s) : s.undefined = false := by
  obtain ⟨hundefined, -⟩ := Remote.outcomes_of_run (helloServer_answering server) hrun
  refine Bool.eq_false_iff.mpr fun htrue => ?_
  obtain ⟨-, -, x, -, -, hrefused⟩ := hundefined htrue
  cases x with
  | inl _ => cases hrefused
  | inr _ => exact hrefused.elim

/-- **Outcomes.** In every run, every `hello_world` that has an outcome has got the text of the
    server, and every call of the other method an exception. -/
theorem hello_outcomes {as : List (helloClients server m h).Step}
    {s : (helloClients server m h).State}
    (hrun : (helloClients server m h).system.run ((helloClients server m h).start ()) as
      = some s) :
    s.undefined = false ∧ ∀ (k : Nat) c, s.sessions[k]? = some c → c.Counted ∧
      ∀ (i : Nat) x y, c.sent[i]? = some x → c.outcomes[i]? = some y →
        y = if x.isLeft = true then .inl (.ok server.text)
          else .inr (.error ⟨.unknownMethod, "Invalid method name: '" ++ m.name ++ "'"⟩) := by
  obtain ⟨-, houtcomes⟩ := Remote.outcomes_of_run (helloServer_answering server) hrun
  refine ⟨defined_of_run hrun, fun k c hk => ⟨(houtcomes k c hk).1, ?_⟩⟩
  intro i x y hx hy
  obtain ⟨r, hr, rfl⟩ := (houtcomes k c hk).2 i x y hx hy
  cases x with
  | inl _ =>
    cases hr with
    | inl htext =>
      obtain rfl := Option.some.inj htext
      rfl
  | inr _ =>
    cases hr with
    | inr _ => rfl

end

/-- A `hello_world` over the protocol in memory. -/
def helloOf : (HelloWorld.helloWorld (loopback Unit)).Invocation where
  ret := ""
  args := ()
  sendable := fun _ hf => absurd hf List.not_mem_nil

theorem compute_unique_id_ne_hello_world : "compute_unique_id" ≠ "hello_world" := by decide

/-- Clients of HelloWorld and UniqueID. -/
def helloAndIdClients (server : Server) :=
  helloClients server (UniqueID.computeUniqueId (loopback Unit))
    compute_unique_id_ne_hello_world

/-- Two connections, and a `compute_unique_id` on one of them. -/
def twoServices : List (helloAndIdClients .tthreaded).Step :=
  [.connect, .connect, .act 1 (.send (.inr (UniqueID.callOf _ "processed" 100))),
    .act 0 (.send (.inl helloOf)),
    .act 1 .serve, .act 0 .serve, .act 0 .recv, .act 1 .recv]

/-- The first client gets the text, the second one an exception. -/
theorem hello_outcomes_sample : ∃ s,
    (helloAndIdClients .tthreaded).system.run ((helloAndIdClients .tthreaded).start ()) twoServices
        = some s ∧
      s.sessions.map (fun c => c.outcomes.length) = [1, 1] ∧
      ∀ (k : Nat) c, s.sessions[k]? = some c →
        ∀ (i : Nat) x y, c.sent[i]? = some x → c.outcomes[i]? = some y →
          y = if x.isLeft = true then .inl (.ok "This is Sparta")
            else .inr (.error ⟨.unknownMethod, "Invalid method name: 'compute_unique_id'"⟩) := by
  have hreturned : ((helloAndIdClients .tthreaded).system.run
      ((helloAndIdClients .tthreaded).start ()) twoServices).map
        (fun s => s.sessions.map fun c => c.outcomes.length) = some [1, 1] := by
    decide +kernel
  obtain ⟨s, hrun, hs⟩ := Option.map_eq_some_iff.mp hreturned
  exact ⟨s, hrun, hs, fun k c hk => ((hello_outcomes hrun).2 k c hk).2⟩

section

variable {I D ε A Res R : Type} {P : TProtocol I D ε} {server : Server} {m : Method P A Res R}
  {h : m.name ≠ "hello_world"}

/-- **Completion.** After every run of a server that reads from every connection, a client that
    waits, of either service, gets an outcome by its own next step, or by one of the server and
    one of its own, unless the answer is refused by the transport. -/
theorem hello_completes {as : List (helloClients server m h).Step}
    {s : (helloClients server m h).State} {k : Nat} {c x} (_hserver : server.readsAll = true)
    (hrun : (helloClients server m h).system.run ((helloClients server m h).start ()) as = some s)
    (hk : s.sessions[k]? = some c) (hopen : c.closed = false) (hpending : c.pending = some x)
    (haccepts : ∀ reply, ∃ down, P.send c.down reply = some down) :
    ∃ s', ((helloClients server m h).system.run s [.act k .recv] = some s' ∨
        (helloClients server m h).system.run s [.act k .serve, .act k .recv] = some s') ∧
      (helloClients server m h).Returned s' k c.outcomes := by
  refine Remote.completes hrun (defined_of_run hrun) hk hopen hpending ?_ haccepts
  cases x with
  | inl x => exact ⟨.inl server.text, (), rfl⟩
  | inr x => exact ⟨.inr (), (), rfl⟩

end

/-- A client that has called. -/
def waiting : Session (List (Token Unit))
    ((HelloWorld.helloWorld (loopback Unit)).Invocation ⊕
      (UniqueID.computeUniqueId (loopback Unit)).Invocation)
    (Except TApplicationException String ⊕ Except TApplicationException String) where
  up := (UniqueID.computeUniqueId (loopback Unit)).call ⟨100, false⟩
  down := []
  pending := some (.inr (UniqueID.callOf _ "processed" 100))
  sent := [.inr (UniqueID.callOf _ "processed" 100)]

theorem hello_completes_sample : ∃ s',
    ((helloAndIdClients .tthreaded).system.run ⟨(), [waiting], false⟩ [.act 0 .recv] = some s' ∨
        (helloAndIdClients .tthreaded).system.run ⟨(), [waiting], false⟩
          [.act 0 .serve, .act 0 .recv] = some s') ∧
      (helloAndIdClients .tthreaded).Returned s' 0 [] := by
  have hrun : (helloAndIdClients .tthreaded).system.run ((helloAndIdClients .tthreaded).start ())
      [.connect, .act 0 (.send (.inr (UniqueID.callOf _ "processed" 100)))]
        = some ⟨(), [waiting], false⟩ := rfl
  exact hello_completes (k := 0) (c := waiting) rfl hrun rfl rfl rfl fun _ => ⟨_, rfl⟩

end ThriftBench.Hello
