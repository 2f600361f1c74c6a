import ThriftBench.Lib.Remote
import ThriftBench.Rpc.Struct

namespace ThriftBench.Rpc

open Lib PerConnection

/-!
# Generated clients and processors — one call

A client sends a `T_CALL` message with its arguments and reads a message back; the processor
looks the method up, reads the arguments, runs the handler and answers.

* `Arguments`, `Results`, `Method` — what the generated code has for a method that is answered;
* `Method.call`, `Method.recv` — the two halves of the client;
* `Method.process`, `dispatchCall` — the processor;
* `Arguments.Arrives` — what arrives of the arguments in a message, also of one from another
  version of the client; `Method.process_arrives` and `Method.recv_struct` — what each side makes
  of a message; `Method.Invocation.arrives` and `Method.recv_reads` — of the same version;
* `unknown_reads` — a call of a method that the processor does not have;
* `Method.remote` — hence clients and servers over connections; `Method.foreign` — clients of
  another service;
* `Method.Skew` — a client and a server whose methods have the same name, and what each makes of
  the messages of the other; `Method.Skew.remote`, `Method.Skew.outcomes_of_run` — the clients.

The client's sequence number is zero.  Event handlers are not installed by any of the servers.
-/

section

variable {I D ε A Res R η : Type} {P : TProtocol I D ε}

/-- The generated structs for the arguments of a method. -/
structure Arguments (P : TProtocol I D ε) (A : Type) where
  struct : Struct P A
  /-- The name of the struct that the client writes. -/
  pargs : String
  /-- The default constructor. -/
  init : A
  /-- The arguments as they arrive: those that were sent, with their `__isset`. -/
  arrived : A → A
  depth_le : struct.depth ≤ 4
  arrives : ∀ a, struct.fields.foldlM (fun s f => f.arrive a s) init = some (arrived a)

theorem Arguments.fits (args : Arguments P A) {a : A} (hsend : args.struct.Sendable a) :
    ∀ x ∈ args.struct.values a, x.2.Fits P.recursionLimit := fun _ hx =>
  (Struct.fits_values hsend hx).mono
    (Nat.le_trans args.depth_le (Nat.le_of_succ_le P.five_le_recursionLimit))

theorem Arguments.arrives_values (args : Arguments P A) (a : A) :
    (args.struct.values a).foldlM args.struct.store args.init = some (args.arrived a) := by
  rw [Struct.foldlM_values]
  exact args.arrives a

/-- The generated structs for the result of a method; `Res` is the result struct. -/
structure Results (P : TProtocol I D ε) (Res R : Type) where
  struct : Struct P Res
  /-- The result struct of the client, which points at `_return`. -/
  presult : R → Res
  /-- The result struct of the processor after the handler has returned. -/
  pack : R → Res
  /-- `__isset.success` and `success` -/
  unpack : Res → Option R
  /-- What the handler returned, as it arrives. -/
  received : R → R
  sendable : ∀ r, struct.Sendable (pack r)
  depth_le : struct.depth ≤ 4
  arrives : ∀ ret r, ∃ x,
    struct.fields.foldlM (fun s f => f.arrive (pack r) s) (presult ret) = some x ∧
      unpack x = some (received r)

theorem Results.fits {Res : Type} (results : Results P Res R) (r : R) :
    ∀ x ∈ results.struct.values (results.pack r), x.2.Fits P.recursionLimit := fun _ hx =>
  (Struct.fits_values (results.sendable r) hx).mono
    (Nat.le_trans results.depth_le (Nat.le_of_succ_le P.five_le_recursionLimit))

/-- A method that is answered. -/
structure Method (P : TProtocol I D ε) (A Res R : Type) where
  name : String
  args : Arguments P A
  result : Results P Res R

/-- A `process_…` function, by sequence number and handler: the messages written and the
    handler afterwards.  `none` where the handler has no defined behaviour. -/
abbrev ProcessFunction (_ : TProtocol I D ε) (η : Type) :=
  BitVec 32 → η → Reader I ε (Option (List (Token D) × η))

/-- `processMap_` -/
abbrev ProcessMap (P : TProtocol I D ε) (η : Type) := List (String × ProcessFunction P η)

/-- A message with an exception in it. -/
def exceptionReply (P : TProtocol I D ε) (fname : String) (seqid : BitVec 32)
    (x : TApplicationException) : List (Token D) :=
  .messageBegin fname .exception seqid :: (P.writeException x ++ [.messageEnd])

/-- The exception for a method that is not in `processMap_`. -/
def invalidMethodName (fname : String) : TApplicationException :=
  ⟨.unknownMethod, "Invalid method name: '" ++ fname ++ "'"⟩

/-- `dispatchCall` -/
def dispatchCall (processMap : ProcessMap P η) (fname : String) (seqid : BitVec 32) (h : η) :
    Reader I ε (Option (List (Token D) × η)) :=
  match processMap.lookup fname with
  | some f => f seqid h
  | none   => do
    P.skip .struct
    P.readMessageEnd
    pure (some (exceptionReply P fname seqid (invalidMethodName fname), h))

/-- What comes before `dispatchCall`, in the base class that is not part of the repository: the
    header is read, and anything but a call ends the connection. -/
def processMessage (processMap : ProcessMap P η) (h : η) :
    Reader I ε (Option (List (Token D) × η)) := do
  let (fname, mtype, seqid) ← P.readMessageBegin
  if mtype = .call ∨ mtype = .oneway then dispatchCall processMap fname seqid h
  else throw P.invalidMessageType

/-- What the client does with a message that is not its reply. -/
def passMessage (P : TProtocol I D ε) (unwanted : Bool) : Reader I ε Unit :=
  if unwanted = true then do
    P.skip .struct
    P.readMessageEnd
  else pure ()

theorem passMessage_reads (P : TProtocol I D ε) : Reads P.Holds (passMessage P false) [] () :=
  Reads.pure ()

/-- A message whose content is read after its header. -/
theorem message_reads {α : Type} {f : String × TMessageType × BitVec 32 → Reader I ε α}
    {name : String} {type : TMessageType} {seqid : BitVec 32} {content : List (Token D)} {x : α}
    (hcontent : Reads P.Holds (f (name, type, seqid)) (content ++ [.messageEnd]) x) :
    Reads P.Holds (P.readMessageBegin >>= f)
      (.messageBegin name type seqid :: (content ++ [.messageEnd])) x :=
  (P.reads_messageBegin name type seqid).bind hcontent

/-! ### Arguments on the wire -/

/-- A message from which the processor reads the arguments `a`, whichever client has written it:
    the struct in it may have other members, in another order and under another name. -/
inductive Arguments.Arrives (args : Arguments P A) (fname : String) (seqid : BitVec 32) (a : A) :
    List (Token D) → Prop where
  | intro {mtype : TMessageType} {sname : String} {xs : List (Tag × Value D)}
      (hmtype : mtype = .call ∨ mtype = .oneway) (hfits : ∀ x ∈ xs, x.2.Fits P.recursionLimit)
      (harrive : xs.foldlM args.struct.store args.init = some a) :
      Arrives args fname seqid a
        (.messageBegin fname mtype seqid :: ((Value.struct sname xs).tokens ++ [.messageEnd]))

/-- The message of a client with the same struct. -/
theorem Arguments.arrives_written (args : Arguments P A) {fname : String} {mtype : TMessageType}
    {seqid : BitVec 32} {a : A} (hmtype : mtype = .call ∨ mtype = .oneway)
    (hsend : args.struct.Sendable a) :
    args.Arrives fname seqid (args.arrived a) (.messageBegin fname mtype seqid ::
      ((args.struct.named args.pargs).write a ++ [.messageEnd])) := by
  rw [Struct.write_eq]
  exact .intro hmtype (args.fits hsend) (args.arrives_values a)

/-- A `process_…` function that reads its arguments and goes on with `g`. -/
theorem Arguments.Arrives.reads {args : Arguments P A} {fname : String} {seqid : BitVec 32} {a : A}
    {message : List (Token D)} {processMap : ProcessMap P η} {f : ProcessFunction P η} {h : η}
    {g : A → Option (List (Token D) × η)} (harrives : args.Arrives fname seqid a message)
    (hlookup : processMap.lookup fname = some f)
    (hprocess : f seqid h = args.struct.read args.init >>= fun a =>
      P.readMessageEnd >>= fun _ => pure (g a)) :
    Reads P.Holds (processMessage processMap h) message (g a) := by
  cases harrives with
  | @intro mtype sname xs hmtype hfits harrive =>
    apply message_reads
    show Reads P.Holds (if mtype = .call ∨ mtype = .oneway then
      dispatchCall processMap fname seqid h else throw P.invalidMessageType) _ _
    rw [if_pos hmtype, dispatchCall, hlookup]
    show Reads P.Holds (f seqid h) _ _
    rw [hprocess]
    exact (Struct.reads hfits harrive sname).bind P.reads_messageEnd.map

namespace Method

variable (m : Method P A Res R)

/-- A call with any sequence number. -/
def callWith (seqid : BitVec 32) (a : A) : List (Token D) :=
  .messageBegin m.name .call seqid ::
    ((m.args.struct.named m.args.pargs).write a ++ [.messageEnd])

/-- `send_…` -/
def call (a : A) : List (Token D) := m.callWith 0 a

/-- The exception for a result without `success`. -/
def unknownResult : TApplicationException :=
  ⟨.missingResult, m.name ++ " failed: unknown result"⟩

/-- What `recv_…` makes of the result struct. -/
def returned (result : Res) : Except TApplicationException R :=
  match m.result.unpack result with
  | some r => .ok r
  | none   => .error m.unknownResult

/-- `recv_…`, which returns or throws the exception. -/
def recv (ret : R) : Reader I ε (Except TApplicationException R) := do
  let (fname, mtype, _) ← P.readMessageBegin
  if mtype = .exception then do
    let x ← P.readException
    P.readMessageEnd
    pure (.error x)
  else do
    passMessage P (mtype ≠ .reply)
    -- The code goes on here, although the message has been read to its end.
    passMessage P (fname ≠ m.name)
    let result ← m.result.struct.read (m.result.presult ret)
    P.readMessageEnd
    pure (m.returned result)

/-- The message that answers a call. -/
def reply (seqid : BitVec 32) : Except String R → List (Token D)
  | .ok r       => .messageBegin m.name .reply seqid ::
      (m.result.struct.write (m.result.pack r) ++ [.messageEnd])
  | .error what => exceptionReply P m.name seqid ⟨.unknown, what⟩

/-- `process_…`; an `.error` is a `std::exception` of the handler. -/
def process (serve : η → A → Option (Except String R × η)) : ProcessFunction P η :=
  fun seqid h => do
    let args ← m.args.struct.read m.args.init
    P.readMessageEnd
    pure ((serve h args).map fun answer => (m.reply seqid answer.1, answer.2))

/-- What a client gets for an answer of the handler. -/
def outcome : Except String R → Except TApplicationException R
  | .ok r       => .ok (m.result.received r)
  | .error what => .error ⟨.unknown, what⟩

/-! ### The two sides -/

variable {m} {serve : η → A → Option (Except String R × η)} {processMap : ProcessMap P η}
  {h : η} {a : A} {seqid : BitVec 32}

/-- **Processor.** The handler gets the arguments as they arrive, and the call is answered under
    its own sequence number. -/
theorem process_arrives (hlookup : processMap.lookup m.name = some (m.process serve))
    {message : List (Token D)} (harrives : m.args.Arrives m.name seqid a message) :
    Reads P.Holds (processMessage processMap h) message
      ((serve h a).map fun answer => (m.reply seqid answer.1, answer.2)) :=
  harrives.reads hlookup rfl

/-- An exception reaches the client, whatever the name in the message. -/
theorem recv_exception (m : Method P A Res R) (ret : R) (fname : String) (seqid : BitVec 32)
    (x : TApplicationException) :
    Reads P.Holds (m.recv ret) (exceptionReply P fname seqid x) (.error x) := by
  apply message_reads
  exact (P.reads_exception x).bind P.reads_messageEnd.map

/-- **Client.** A reply with any struct in it. -/
theorem recv_struct (m : Method P A Res R) (ret : R) (seqid : BitVec 32) {result : Res}
    {xs : List (Tag × Value D)} (hfits : ∀ x ∈ xs, x.2.Fits P.recursionLimit)
    (harrive : xs.foldlM m.result.struct.store (m.result.presult ret) = some result)
    (sname : String) :
    Reads P.Holds (m.recv ret)
      (.messageBegin m.name .reply seqid :: ((Value.struct sname xs).tokens ++ [.messageEnd]))
      (m.returned result) := by
  apply message_reads
  show Reads P.Holds (passMessage P false >>= fun _ =>
    passMessage P (m.name ≠ m.name) >>= fun _ =>
      m.result.struct.read (m.result.presult ret) >>= fun result =>
        P.readMessageEnd >>= fun _ => pure (m.returned result)) _ _
  have hname : decide (m.name ≠ m.name) = false := by simp
  rw [hname]
  apply (passMessage_reads P).bind
  apply (passMessage_reads P).bind
  exact (Struct.reads hfits harrive sname).bind P.reads_messageEnd.map

/-- The answer of a processor of the same version is returned, or its exception thrown. -/
theorem recv_reads (m : Method P A Res R) (ret : R) (seqid : BitVec 32)
    (answer : Except String R) :
    Reads P.Holds (m.recv ret) (m.reply seqid answer) (m.outcome answer) := by
  cases answer with
  | error what => exact m.recv_exception ret m.name seqid ⟨.unknown, what⟩
  | ok r =>
    obtain ⟨result, harrive, hunpack⟩ := m.result.arrives ret r
    have hreturned : m.returned result = .ok (m.result.received r) := by
      rw [returned, hunpack]
    rw [← Struct.foldlM_values] at harrive
    rw [reply, outcome, ← hreturned, Struct.write_eq]
    exact m.recv_struct ret seqid (m.result.fits r) harrive m.result.struct.name

end Method

/-- **Unknown methods.** A message with a method that is not in `processMap_` is passed over and
    answered with an exception, and the handler sees nothing of it. -/
theorem unknown_reads {processMap : ProcessMap P η} {h : η} {fname : String}
    {mtype : TMessageType} {seqid : BitVec 32} {xs : List (Tag × Value D)} (sname : String)
    (hmtype : mtype = .call ∨ mtype = .oneway) (hlookup : processMap.lookup fname = none)
    (hfits : (Value.struct sname xs).Fits P.recursionLimit) :
    Reads P.Holds (processMessage processMap h)
      (.messageBegin fname mtype seqid :: ((Value.struct sname xs).tokens ++ [.messageEnd]))
      (some (exceptionReply P fname seqid (invalidMethodName fname), h)) := by
  apply message_reads
  show Reads P.Holds (if mtype = .call ∨ mtype = .oneway then
    dispatchCall processMap fname seqid h else throw P.invalidMessageType) _ _
  rw [if_pos hmtype, dispatchCall, hlookup]
  exact (P.reads_skip _ hfits).bind P.reads_messageEnd.map

/-- The same for what a client of another service has written. -/
theorem unknown_written {processMap : ProcessMap P η} {h : η} {fname : String}
    {mtype : TMessageType} {seqid : BitVec 32} (args : Arguments P A) {a : A}
    (hmtype : mtype = .call ∨ mtype = .oneway) (hlookup : processMap.lookup fname = none)
    (hsend : args.struct.Sendable a) :
    Reads P.Holds (processMessage processMap h)
      (.messageBegin fname mtype seqid ::
        ((args.struct.named args.pargs).write a ++ [.messageEnd]))
      (some (exceptionReply P fname seqid (invalidMethodName fname), h)) := by
  have hfits : (Value.struct args.pargs (args.struct.values a)).Fits P.recursionLimit :=
    (Value.Fits.struct fun _ hx => Struct.fits_values hsend hx).mono
      (Nat.le_trans (Nat.succ_le_succ args.depth_le) P.five_le_recursionLimit)
  rw [Struct.write_eq]
  exact unknown_reads args.pargs hmtype hlookup hfits

/-- A method of another service is not in a `processMap_` with one entry. -/
theorem lookup_singleton_of_ne {κ : Type} {name name' : String} (hname : name' ≠ name) (x : κ) :
    [(name, x)].lookup name' = none := by
  rw [List.lookup_cons, beq_false_of_ne hname]
  rfl

theorem starved_processMessage {processMap : ProcessMap P η} {h : η} {i : I}
    (hi : P.Holds i []) : ∃ e, processMessage processMap h i = .error e := by
  obtain ⟨e, he⟩ := P.starved_messageBegin hi
  refine ⟨e, ?_⟩
  show (P.readMessageBegin i).bind _ = _
  rw [he]
  rfl

/-! ### Over connections -/

namespace Method

variable {σ α β : Type}

theorem starved_recv (m : Method P A Res R) {ret : R} {i : I} (hi : P.Holds i []) :
    ∃ e, m.recv ret i = .error e := by
  obtain ⟨e, he⟩ := P.starved_messageBegin hi
  refine ⟨e, ?_⟩
  show (P.readMessageBegin i).bind _ = _
  rw [he]
  rfl

/-- A call of a client: the object for the result, and the arguments. -/
structure Invocation (m : Method P A Res R) where
  ret : R
  args : A
  sendable : m.args.struct.Sendable args

/-- The processor of connection `k`, in front of a server that takes `request` and whose
    replies are `answer`. -/
def processOn (m : Method P A Res R) (B : Backend σ α β) (request : A → α)
    (answer : β → Except String R) (k : Nat) : ProcessFunction P σ :=
  m.process fun b a => (B.serve k b (request a)).map fun r => (answer r.1, r.2)

section

variable {m : Method P A Res R} {B : Backend σ α β} {request : A → α}
  {answer : β → Except String R} {processMap : ProcessMap P σ} {k : Nat} {b b' : σ} {a : A} {y : β}

/-- A call that the server has a reply to, whoever has written its message. -/
theorem served_arrives (hlookup : processMap.lookup m.name = some (m.processOn B request answer k))
    {message : List (Token D)} (harrives : m.args.Arrives m.name 0 a message)
    (hserve : B.serve k b (request a) = some (y, b')) :
    Reads P.Holds (processMessage processMap b) message (some (m.reply 0 (answer y), b')) := by
  have hprocess : Reads P.Holds (processMessage processMap b) message _ :=
    process_arrives hlookup harrives
  rw [hserve] at hprocess
  exact hprocess

/-- A call that has no defined behaviour. -/
theorem not_served_arrives
    (hlookup : processMap.lookup m.name = some (m.processOn B request answer k))
    {message : List (Token D)} (harrives : m.args.Arrives m.name 0 a message)
    (hserve : B.serve k b (request a) = none) :
    Reads P.Holds (processMessage processMap b) message none := by
  have hprocess : Reads P.Holds (processMessage processMap b) message _ :=
    process_arrives hlookup harrives
  rw [hserve] at hprocess
  exact hprocess

/-- The message of a client of the same version. -/
theorem Invocation.arrives (x : m.Invocation) :
    m.args.Arrives m.name 0 (m.args.arrived x.args) (m.call x.args) :=
  m.args.arrives_written (Or.inl rfl) x.sendable

end

/-- Clients that call a method of a service. -/
def remoteOf (m : Method P A Res R) (B : Backend σ α β) (request : A → α)
    (answer : β → Except String R) (processMap : Nat → ProcessMap P σ)
    (hlookup : ∀ k, (processMap k).lookup m.name = some (m.processOn B request answer k)) :
    Remote P.toLink B ε m.Invocation (Except TApplicationException R) where
  call x := m.call x.args
  recv x := m.recv x.ret
  process k := processMessage (processMap k)
  request x := request (m.args.arrived x.args)
  outcome y := m.outcome (answer y)
  served {k _ x y _} hserve :=
    ⟨_, served_arrives (hlookup k) x.arrives hserve, m.recv_reads x.ret 0 (answer y)⟩
  not_served {k _ x} hserve := not_served_arrives (hlookup k) x.arrives hserve
  starved_process := starved_processMessage
  starved_recv := m.starved_recv

/-- Clients of a service with one method. -/
def remote (m : Method P A Res R) (B : Backend σ α β) (request : A → α)
    (answer : β → Except String R) :
    Remote P.toLink B ε m.Invocation (Except TApplicationException R) :=
  m.remoteOf B request answer (fun k => [(m.name, m.processOn B request answer k)])
    fun _ => List.lookup_cons_self

/-- Clients that call a method which the service does not have: every call gets an exception,
    and the handler sees nothing of it. -/
def foreign (m : Method P A Res R) (accept : σ → Option σ) (processMap : Nat → ProcessMap P σ)
    (hlookup : ∀ k, (processMap k).lookup m.name = none) :
    Remote P.toLink (Backend.unnoticed accept) ε m.Invocation
      (Except TApplicationException R) where
  call x := m.call x.args
  recv x := m.recv x.ret
  process k := processMessage (processMap k)
  request _ := ()
  outcome _ := .error (invalidMethodName m.name)
  served {k b x _ _} hserve := by
    obtain ⟨rfl, rfl⟩ := Prod.mk.inj (Option.some.inj hserve)
    exact ⟨exceptionReply P m.name 0 (invalidMethodName m.name),
      unknown_written m.args (Or.inl rfl) (hlookup k) x.sendable,
      m.recv_exception x.ret m.name 0 _⟩
  not_served hserve := absurd hserve (Option.some_ne_none _)
  starved_process := starved_processMessage
  starved_recv := m.starved_recv

/-! ### Another version -/

variable {A' Res' R' : Type}

/-- A client with the method `m`, and a server with the method `m'` of the same name. -/
structure Skew (m : Method P A Res R) (m' : Method P A' Res' R') where
  /-- What arrives of the arguments of the client. -/
  arrived : A → A'
  /-- What the client makes of an answer of the server. -/
  outcome : Except String R' → Except TApplicationException R
  arrives : ∀ {a}, m.args.struct.Sendable a → m'.args.Arrives m'.name 0 (arrived a) (m.call a)
  returns : ∀ ret answer, Reads P.Holds (m.recv ret) (m'.reply 0 answer) (outcome answer)

/-- What another struct for the arguments makes of a call. -/
theorem call_arrives (m : Method P A Res R) (args : Arguments P A') {a : A} {a' : A'}
    (hsend : m.args.struct.Sendable a)
    (harrive : (m.args.struct.values a).foldlM args.struct.store args.init = some a') :
    args.Arrives m.name 0 a' (m.call a) := by
  rw [call, callWith, Struct.write_eq]
  exact .intro (Or.inl rfl) (m.args.fits hsend) harrive

/-- What a client makes of the result struct of another server. -/
theorem recv_result (m : Method P A Res R) (m' : Method P A' Res' R') (hname : m'.name = m.name)
    (ret : R) (r : R') {result : Res}
    (harrive : (m'.result.struct.values (m'.result.pack r)).foldlM m.result.struct.store
      (m.result.presult ret) = some result) :
    Reads P.Holds (m.recv ret) (m'.reply 0 (.ok r)) (m.returned result) := by
  rw [reply, Struct.write_eq, hname]
  exact m.recv_struct ret 0 (m'.result.fits r) harrive m'.result.struct.name

/-- Such clients. -/
def Skew.remote {m : Method P A Res R} {m' : Method P A' Res' R'} (h : Skew m m')
    (B : Backend σ α β) (request : A' → α) (answer : β → Except String R') :
    Remote P.toLink B ε m.Invocation (Except TApplicationException R) where
  call x := m.call x.args
  recv x := m.recv x.ret
  process k := processMessage [(m'.name, m'.processOn B request answer k)]
  request x := request (h.arrived x.args)
  outcome y := h.outcome (answer y)
  served {_ _ x y _} hserve :=
    ⟨_, served_arrives List.lookup_cons_self (h.arrives x.sendable) hserve,
      h.returns x.ret (answer y)⟩
  not_served {_ _ x} hserve :=
    not_served_arrives List.lookup_cons_self (h.arrives x.sendable) hserve
  starved_process := starved_processMessage
  starved_recv := m.starved_recv

/-- **Outcomes.** In every run, the calls are served with what arrives of their arguments, and the
    `i`-th outcome on a connection is what the client makes of the `i`-th reply. -/
theorem Skew.outcomes_of_run {m : Method P A Res R} {m' : Method P A' Res' R'} {h : Skew m m'}
    {B : Backend σ α β} {b : σ} {request : A' → α} {answer : β → Except String R'}
    {as : List (h.remote B request answer).Step} {s : (h.remote B request answer).State}
    (hrun : (h.remote B request answer).system.run ((h.remote B request answer).start b) as
      = some s) :
    ∃ es replies, B.machine.run { state := b } es
        = some ⟨s.backend, s.sessions.length, replies, s.undefined⟩ ∧
      ∀ (k : Nat) c, s.sessions[k]? = some c → c.Counted ∧
        requestsOn k es <+: (c.sent.map fun x => request (h.arrived x.args)) ∧
        ∀ (i : Nat) y, c.outcomes[i]? = some y → ∃ reply, (repliesOn k replies)[i]? = some reply ∧
          y = h.outcome (answer reply) := by
  obtain ⟨es, replies, hserver, hdelivered⟩ := Remote.delivered_of_run hrun
  refine ⟨es, replies, hserver, fun k c hk => ?_⟩
  have hd := hdelivered k c hk
  refine ⟨hd.count, hd.served, fun i y hy => ?_⟩
  obtain ⟨reply, hreply, rfl⟩ := hd.reply hy
  exact ⟨reply, hreply, rfl⟩

end Method

end

end ThriftBench.Rpc
