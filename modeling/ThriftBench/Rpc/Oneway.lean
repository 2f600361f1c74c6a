import ThriftBench.Lib.Feed
import ThriftBench.Rpc.Call

namespace ThriftBench.Rpc

open Lib PerConnection

/-!
# Generated clients and processors — one-way calls

A one-way call has no answer: the client sends it and goes on, and the processor drops what the
handler throws.

* `OnewayMethod` — what the generated code has for such a method: `send`, `process`;
* `OnewayMethod.feed` — clients and server over connections; `OnewayMethod.foreign` — clients of
  another service, whose messages are answered although nobody reads the answer;
* `OnewayMethod.feedOf` — clients whose messages the server takes for calls of its own, with the
  arguments that arrive.
-/

section

variable {I D ε A Res R η : Type} {P : TProtocol I D ε}

/-- A one-way method. -/
structure OnewayMethod (P : TProtocol I D ε) (A : Type) where
  name : String
  args : Arguments P A

namespace OnewayMethod

variable (m : OnewayMethod P A)

/-- `send_…` -/
def send (a : A) : List (Token D) :=
  .messageBegin m.name .oneway 0 ::
    ((m.args.struct.named m.args.pargs).write a ++ [.messageEnd])

/-- `process_…`; an `.error` is a `std::exception` of the handler. -/
def process (serve : η → A → Option (Except String Unit × η)) : ProcessFunction P η :=
  fun _ h => do
    let args ← m.args.struct.read m.args.init
    P.readMessageEnd
    -- Returned or thrown, nothing is written.
    pure ((serve h args).map fun answer => ([], answer.2))

variable {m} {serve : η → A → Option (Except String Unit × η)} {processMap : ProcessMap P η}
  {h : η} {a : A} {seqid : BitVec 32} {message : List (Token D)}

/-- The handler gets the arguments as they arrive, and nothing is answered. -/
theorem process_arrives (hlookup : processMap.lookup m.name = some (m.process serve))
    (harrives : m.args.Arrives m.name seqid a message) :
    Reads P.Holds (processMessage processMap h) message
      ((serve h a).map fun answer => ([], answer.2)) :=
  harrives.reads hlookup rfl

/-! ### Over connections -/

variable {σ α β ι : Type}

/-- A call of a client. -/
structure Invocation (m : OnewayMethod P A) where
  args : A
  sendable : m.args.struct.Sendable args

/-- The processor of connection `k`, in front of a server that takes `request` and whose
    replies are `answer`. -/
def processOn (m : OnewayMethod P A) (B : Backend σ α β) (request : A → α)
    (answer : β → Except String Unit) (k : Nat) : ProcessFunction P σ :=
  m.process fun b a => (B.serve k b (request a)).map fun r => (answer r.1, r.2)

/-- A message that arrives is served, and nothing is sent back. -/
theorem processOn_arrives (B : Backend σ α β) (request : A → α) (answer : β → Except String Unit)
    (k : Nat) (b : σ) (harrives : m.args.Arrives m.name 0 a message) :
    Reads P.Holds (processMessage [(m.name, m.processOn B request answer k)] b) message
      ((B.serve k b (request a)).map fun r => ([], r.2)) := by
  have hprocess : Reads P.Holds
      (processMessage [(m.name, m.processOn B request answer k)] b) message _ :=
    process_arrives List.lookup_cons_self harrives
  rw [Option.map_map] at hprocess
  exact hprocess

/-- Clients whose messages arrive as calls with the arguments `arrived`. -/
def feedOf (m : OnewayMethod P A) (message : ι → List (Token D)) (arrived : ι → A)
    (harrives : ∀ x, m.args.Arrives m.name 0 (arrived x) (message x)) (B : Backend σ α β)
    (request : A → α) (answer : β → Except String Unit) : Feed P.toLink B ε ι where
  message := message
  process k := processMessage [(m.name, m.processOn B request answer k)]
  request x := request (arrived x)
  notice _ := []
  served {k b x _ _} hserve := by
    have hprocess := processOn_arrives B request answer k b (harrives x)
    rw [hserve] at hprocess
    exact hprocess
  not_served {k b x} hserve := by
    have hprocess := processOn_arrives B request answer k b (harrives x)
    rw [hserve] at hprocess
    exact hprocess
  starved_process := starved_processMessage

/-- Clients of the same version. -/
def feed (m : OnewayMethod P A) (B : Backend σ α β) (request : A → α)
    (answer : β → Except String Unit) : Feed P.toLink B ε m.Invocation :=
  m.feedOf (fun x => m.send x.args) (fun x => m.args.arrived x.args)
    (fun x => m.args.arrives_written (Or.inr rfl) x.sendable) B request answer

/-- Clients of another service: the server does not have the method, and answers all the same. -/
def foreign (m : OnewayMethod P A) (accept : σ → Option σ) (processMap : Nat → ProcessMap P σ)
    (hlookup : ∀ k, (processMap k).lookup m.name = none) :
    Feed P.toLink (Backend.unnoticed accept) ε m.Invocation where
  message x := m.send x.args
  process k := processMessage (processMap k)
  request _ := ()
  notice _ := exceptionReply P m.name 0 (invalidMethodName m.name)
  served {k b x _ _} hserve := by
    obtain ⟨rfl, rfl⟩ := Prod.mk.inj (Option.some.inj hserve)
    exact unknown_written m.args (Or.inr rfl) (hlookup k) x.sendable
  not_served hserve := absurd hserve (Option.some_ne_none _)
  starved_process := starved_processMessage

end OnewayMethod

end

end ThriftBench.Rpc
