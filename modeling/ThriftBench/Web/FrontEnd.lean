import Mathlib.Data.List.Pairwise
import Mathlib.Logic.Function.Basic
import Mathlib.Tactic.Tauto

namespace ThriftBench.Web

/-!
# Web front end — `_M.HelloWorld` over a pool of connections

Every HTTP request takes a connection from `GenericObjectPool`, calls `hello_world` on it
and returns it, whether the call failed or not.  A call that failed after it had sent leaves
its reply to arrive on the connection; the next call that reads there takes it for its own.

* `helloWorld` — the generated client, over the replies that are still to arrive;
* `FrontEnd.handle` — one HTTP request; the pool hands out connection `k` as it was left, or
  a fresh one, which is a number that was not used before;
* `matched_foldl_iff` — what one request does to the replies that later ones read;
* `replies_matched_iff` — which sequences of requests read only their own replies.
-/

/-- What a reply carries. -/
inductive Body where
  /-- `result.success`. -/
  | result (success : String)
  /-- A result without `success`. -/
  | missing
  /-- A `TApplicationException`. -/
  | exception
  deriving DecidableEq, Repr

/-- A reply, and the number of the call that the server answers with it. -/
structure Reply where
  call : Nat
  body : Body
  deriving DecidableEq, Repr

/-- The replies that are still to arrive on a connection, the oldest first. -/
abbrev Connection := List Reply

/-- How far a call of `hello_world` gets; `body` is what the server answers. -/
inductive Outcome where
  /-- It fails before anything is sent. -/
  | unsent
  /-- It fails after sending, with the reply still to arrive. -/
  | unread (body : Body)
  /-- It reads the next message on the connection. -/
  | read (body : Body)
  deriving DecidableEq, Repr

namespace Outcome

/-- The call leaves its reply to arrive. -/
def leavesReply : Outcome → Bool
  | .unread _ => true
  | _ => false

def reads : Outcome → Bool
  | .read _ => true
  | _ => false

end Outcome

/-- What a call of `hello_world` gives, and what it leaves on the connection. -/
structure Call where
  /-- The first value of `pcall`. -/
  status : Bool
  ret : Option String
  connection : Connection
  /-- The reply that was read. -/
  reply : Option Reply
  deriving DecidableEq, Repr

/-- `send_hello_world`: the server will answer on the same connection. -/
def sendHelloWorld (c : Connection) (call : Nat) (body : Body) : Connection := c ++ [⟨call, body⟩]

/-- `recv_hello_world`: the next message, whatever its name and its `rseqid`. -/
def recvHelloWorld : Connection → Call
  | []        => ⟨false, none, [], none⟩
  | r :: rest =>
    match r.body with
    | .result success       => ⟨true, some success, rest, some r⟩
    | .missing | .exception => ⟨false, none, rest, some r⟩

/-- `pcall(client.hello_world, client)`. -/
def helloWorld (c : Connection) (call : Nat) : Outcome → Call
  | .unsent      => ⟨false, none, c, none⟩
  | .unread body => ⟨false, none, sendHelloWorld c call body, none⟩
  | .read body   => recvHelloWorld (sendHelloWorld c call body)

/-- The HTTP response. -/
structure Response where
  status : Nat
  contentType : Option String
  /-- The argument of `ngx.say`. -/
  said : String
  deriving DecidableEq, Repr

/-- The response to a call.  `ret` is a Lua string, which has no `message`: what is said is
    `nil`. -/
def respond (call : Call) : Response :=
  if call.status = false then
    { status := 500, contentType := none, said := "Nothing works and no one knows why" }
  else
    { status := 200, contentType := some "text/plain", said := "nil" }

/-- An HTTP request: the connection that the pool hands out for it, and how its call ends. -/
structure Request where
  connection : Nat
  outcome : Outcome
  deriving DecidableEq, Repr

/-- The pool between two requests, and what happened so far, the latest first. -/
structure FrontEnd where
  connections : Nat → Connection := fun _ => []
  /-- The number of calls made. -/
  calls : Nat := 0
  /-- Each call that read a reply, with the reply. -/
  reads : List (Nat × Reply) := []
  responses : List Response := []

namespace FrontEnd

/-- `_M.HelloWorld`. -/
def handle (s : FrontEnd) (e : Request) : FrontEnd :=
  let call := helloWorld (s.connections e.connection) s.calls e.outcome
  -- The connection is returned before `status` is looked at.
  { connections := Function.update s.connections e.connection call.connection
    calls := s.calls + 1
    reads := (call.reply.map fun r => (s.calls, r)).toList ++ s.reads
    responses := respond call :: s.responses }

/-- Every reply that was read is the reply to the call that read it. -/
def Matched (s : FrontEnd) : Prop := ∀ x ∈ s.reads, x.2.call = x.1

/-- The replies still to arrive are replies to earlier calls. -/
def Earlier (s : FrontEnd) : Prop := ∀ k, ∀ r ∈ s.connections k, r.call < s.calls

/-! ### One request -/

section

variable {s : FrontEnd} {k : Nat} {body : Body}

theorem handle_unsent : (s.handle ⟨k, .unsent⟩).connections = s.connections ∧
    (s.handle ⟨k, .unsent⟩).reads = s.reads :=
  ⟨Function.update_eq_self k s.connections, rfl⟩

theorem handle_unread : (s.handle ⟨k, .unread body⟩).connections
      = Function.update s.connections k (s.connections k ++ [⟨s.calls, body⟩]) ∧
    (s.handle ⟨k, .unread body⟩).reads = s.reads :=
  ⟨rfl, rfl⟩

theorem handle_read (s : FrontEnd) (k : Nat) (body : Body) :
    (s.handle ⟨k, .read body⟩).connections = Function.update s.connections k
        (recvHelloWorld (sendHelloWorld (s.connections k) s.calls body)).connection ∧
      (s.handle ⟨k, .read body⟩).reads
        = ((recvHelloWorld (sendHelloWorld (s.connections k) s.calls body)).reply.map
            fun r => (s.calls, r)).toList ++ s.reads :=
  ⟨rfl, rfl⟩

/-- The oldest reply is read, and the others are left. -/
theorem recvHelloWorld_cons (r : Reply) (rest : Connection) :
    (recvHelloWorld (r :: rest)).connection = rest ∧
      (recvHelloWorld (r :: rest)).reply = some r := by
  rw [recvHelloWorld]
  split
  · exact ⟨rfl, rfl⟩
  · exact ⟨rfl, rfl⟩
  · exact ⟨rfl, rfl⟩

/-- On a connection without replies to arrive a call reads its own. -/
theorem handle_read_clean (hclean : s.connections k = []) :
    (s.handle ⟨k, .read body⟩).connections = s.connections ∧
      (s.handle ⟨k, .read body⟩).reads = (s.calls, ⟨s.calls, body⟩) :: s.reads := by
  obtain ⟨hleft, hreply⟩ := recvHelloWorld_cons ⟨s.calls, body⟩ []
  obtain ⟨hconnections, hreads⟩ := handle_read s k body
  rw [sendHelloWorld, hclean, List.nil_append] at hconnections hreads
  rw [hconnections, hreads, hleft, hreply]
  refine ⟨?_, rfl⟩
  rw [← hclean]
  exact Function.update_eq_self k s.connections

/-- Otherwise it reads the oldest reply to arrive, and its own stays. -/
theorem handle_read_stale {r : Reply} {rest : Connection} (hstale : s.connections k = r :: rest) :
    (s.handle ⟨k, .read body⟩).connections
        = Function.update s.connections k (rest ++ [⟨s.calls, body⟩]) ∧
      (s.handle ⟨k, .read body⟩).reads = (s.calls, r) :: s.reads := by
  obtain ⟨hleft, hreply⟩ := recvHelloWorld_cons r (rest ++ [⟨s.calls, body⟩])
  obtain ⟨hconnections, hreads⟩ := handle_read s k body
  rw [sendHelloWorld, hstale, List.cons_append] at hconnections hreads
  rw [hconnections, hreads, hleft, hreply]
  exact ⟨rfl, rfl⟩

/-- A request only adds the reply to its own call. -/
theorem Earlier.handle (h : s.Earlier) (e : Request) : (s.handle e).Earlier := by
  have hkeep : ∀ j, ∀ r ∈ s.connections j, r.call < s.calls + 1 := fun j r hr =>
    Nat.lt_succ_of_lt (h j r hr)
  have hupdate : ∀ c : Connection, (∀ r ∈ c, r.call < s.calls + 1) →
      ∀ j, ∀ r ∈ Function.update s.connections e.connection c j, r.call < s.calls + 1 := by
    intro c hc j r hr
    by_cases hj : j = e.connection
    · subst hj
      rw [Function.update_self] at hr
      exact hc r hr
    · rw [Function.update_of_ne hj] at hr
      exact hkeep j r hr
  have hsend : ∀ body, ∀ r ∈ sendHelloWorld (s.connections e.connection) s.calls body,
      r.call < s.calls + 1 := by
    intro body r hr
    rcases List.mem_append.mp hr with hr | hr
    · exact hkeep _ r hr
    · rw [List.mem_singleton.mp hr]
      exact Nat.lt_succ_self _
  apply hupdate _
  cases e.outcome with
  | unsent => exact hkeep _
  | unread body => exact hsend body
  | read body =>
    have hall := hsend body
    show ∀ r ∈ (recvHelloWorld (sendHelloWorld _ s.calls body)).connection, _
    cases hc : sendHelloWorld (s.connections e.connection) s.calls body with
    | nil => simp [recvHelloWorld]
    | cons r rest =>
      rw [hc] at hall
      rw [(recvHelloWorld_cons r rest).1]
      exact fun x hx => hall x (List.mem_cons_of_mem r hx)

end

/-! ### Sequences of requests -/

/-- The later request does not read where the earlier one left its reply. -/
def Apart (earlier later : Request) : Prop :=
  earlier.outcome.leavesReply = true → later.outcome.reads = true →
    earlier.connection ≠ later.connection

instance (earlier later : Request) : Decidable (Apart earlier later) :=
  inferInstanceAs (Decidable (_ → _))

/-- A request that reads finds no reply of an earlier call on its connection. -/
def ReadsClean (s : FrontEnd) (e : Request) : Prop :=
  e.outcome.reads = true → s.connections e.connection = []

section

variable {s : FrontEnd} {e x : Request}

/-- A request reads its own reply, or none, exactly when it reads clean. -/
theorem matched_handle (hs : s.Earlier) : (s.handle e).Matched ↔ s.Matched ∧ ReadsClean s e := by
  obtain ⟨k, outcome⟩ := e
  unfold Matched ReadsClean
  cases outcome with
  | unsent =>
    rw [handle_unsent.2]
    simp [Outcome.reads]
  | unread body =>
    rw [handle_unread.2]
    simp [Outcome.reads]
  | read body =>
    cases hc : s.connections k with
    | nil =>
      rw [(handle_read_clean hc).2, List.forall_mem_cons]
      simp
    | cons r rest =>
      -- The reply read is one to an earlier call.
      have holder : r.call < s.calls := hs k r (hc ▸ List.mem_cons_self)
      rw [(handle_read_stale hc).2, List.forall_mem_cons]
      simp [Outcome.reads, Nat.ne_of_lt holder]

/-- After a request that read clean, a later one does if it did before and does not read where
    the first left its reply. -/
theorem readsClean_handle (he : ReadsClean s e) :
    ReadsClean (s.handle e) x ↔ Apart e x ∧ ReadsClean s x := by
  obtain ⟨k, outcome⟩ := e
  unfold ReadsClean Apart at *
  cases outcome with
  | unsent =>
    rw [handle_unsent.1]
    simp [Outcome.leavesReply]
  | unread body =>
    rw [handle_unread.1]
    by_cases hk : x.connection = k
    · -- The connection now has a reply to arrive, so `x` must not read.
      rw [hk, Function.update_self]
      simp only [List.append_eq_nil_iff, List.cons_ne_nil, and_false, imp_false]
      constructor
      · exact fun hno => ⟨fun _ hreads => absurd hreads hno, fun hreads => absurd hreads hno⟩
      · exact fun h hreads => h.1 rfl hreads rfl
    · rw [Function.update_of_ne hk]
      exact ⟨fun h => ⟨fun _ _ heq => hk heq.symm, h⟩, fun h => h.2⟩
  | read body =>
    rw [(handle_read_clean (he rfl)).1]
    simp [Outcome.leavesReply]

/-- **Run lemma.** All replies read after a sequence of requests are matched exactly when those
    read before are, every request of the sequence reads clean, and none of them reads where
    an earlier one left its reply. -/
theorem matched_foldl_iff (hs : s.Earlier) (es : List Request) :
    (es.foldl handle s).Matched ↔
      s.Matched ∧ (∀ e ∈ es, ReadsClean s e) ∧ es.Pairwise Apart := by
  induction es generalizing s with
  | nil => simp
  | cons e es ih =>
    rw [List.foldl_cons, ih (hs.handle e), matched_handle hs, List.forall_mem_cons,
      List.pairwise_cons]
    by_cases he : ReadsClean s e
    · have hrest : (∀ x ∈ es, ReadsClean (s.handle e) x) ↔
          (∀ x ∈ es, Apart e x) ∧ ∀ x ∈ es, ReadsClean s x := by
        simp only [readsClean_handle he, ← forall₂_and]
      rw [hrest]
      tauto
    · tauto

end

end FrontEnd

/-- **Matched replies, exactly.** For every sequence of requests and every choice of connections
    and outcomes: every reply that a call reads is the reply to that call if and only if no
    call reads on a connection on which an earlier call failed after sending. -/
theorem replies_matched_iff (es : List Request) :
    (es.foldl FrontEnd.handle {}).Matched ↔ es.Pairwise FrontEnd.Apart := by
  have hinitial : FrontEnd.Earlier {} := fun _ r hr => absurd hr (by simp)
  have hmatched : FrontEnd.Matched {} := fun x hx => absurd hx (by simp)
  have hclean : ∀ e ∈ es, FrontEnd.ReadsClean {} e := fun _ _ _ => rfl
  rw [FrontEnd.matched_foldl_iff hinitial]
  tauto

/-- The reply of a call that timed out is read by the next one on the same connection. -/
theorem stale_reply_read :
    ¬ ([⟨0, .unread (.result "first")⟩, ⟨0, .read (.result "second")⟩].foldl FrontEnd.handle
      {}).Matched := by
  intro hmatched
  exact absurd (hmatched (1, ⟨0, .result "first"⟩) List.mem_cons_self) (by decide)

end ThriftBench.Web
