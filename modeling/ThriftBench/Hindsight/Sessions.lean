import Mathlib.Algebra.Group.Int.Even
import Mathlib.Data.List.Forall2
import ThriftBench.Hindsight.EchoServer
import ThriftBench.Lib.Machine

namespace ThriftBench.Hindsight

open Lib

/-!
# Hindsight echo server — sessions of the tracer

The handler's calls, seen from the tracer: a session is opened, carries tracepoints and
triggers, and is closed before the next one is opened.

* `tracer` — the tracer as a machine: a call outside its place is not enabled;
* `handleAll` — the calls made while requests are handled one after another;
* `run_handleAll` — every log is a sequence of complete sessions, one for each request;
* `sessionsTraced_iff` — when the sessions of the odd requests, and no others, are triggered.
  `req_id % 2` is `-1` for a negative odd `req_id`.
-/

/-- A session, as far as it is known to the tracer. -/
structure Session where
  req_id : BitVec 64
  tracepoints : List (List Byte)
  triggers : Nat
  deriving DecidableEq, Repr

/-- The open session and those that were closed, oldest first. -/
structure Tracer where
  current : Option Session := none
  finished : List Session := []
  deriving DecidableEq, Repr

/-- The tracer.  A session may be opened where none is open; a trigger names the open one. -/
def tracer : Machine Tracer TracerCall where
  step t call :=
    match call, t.current with
    | .hindsightBegin req_id, none =>
      some { t with current := some ⟨req_id, [], 0⟩ }
    | .hindsightTracepoint payload, some s =>
      some { t with current := some { s with tracepoints := s.tracepoints ++ [payload] } }
    | .hindsightTrigger req_id, some s =>
      if req_id = s.req_id then
        some { t with current := some { s with triggers := s.triggers + 1 } }
      else
        none
    | .hindsightEnd, some s => some ⟨none, t.finished ++ [s]⟩
    | _, _ => none

/-- A request, and what `mess` happens to hold when it is handled. -/
structure Request where
  req_id : BitVec 64
  mess : Mess

/-- The log of the requests, handled one after another. -/
def handleAll (requests : List Request) : Except Failure (List TracerCall) :=
  requests.foldlM (fun log r => (call r.req_id r.mess).map (log ++ ·)) []

/-! ### What is wanted -/

/-- The session of a request: one tracepoint, and a trigger if the request id is odd. -/
structure IsSessionOf (r : Request) (s : Session) : Prop where
  req_id : s.req_id = r.req_id
  tracepoint : s.tracepoints.length = 1
  trigger : s.triggers = if Odd r.req_id.toInt then 1 else 0

/-- The log is accepted by the tracer, and leaves one complete session for each request. -/
def SessionsTraced (requests : List Request) : Prop :=
  ∃ log sessions, handleAll requests = .ok log ∧
    tracer.run {} log = some ⟨none, sessions⟩ ∧ List.Forall₂ IsSessionOf requests sessions

/-! ### One request -/

/-- The session that the handler makes of a request. -/
def sessionOf (r : Request) : Session where
  req_id := r.req_id
  tracepoints := [textBytes (requestText r.req_id) ++
    0 :: r.mess.bytes.drop ((requestText r.req_id).length + 1)]
  triggers := if r.req_id.toInt.tmod 2 = 1 then 1 else 0

/-- **Request.** The calls for one request are a complete session. -/
theorem run_call (r : Request) (finished : List Session) :
    ∃ calls, call r.req_id r.mess = .ok calls ∧
      tracer.run ⟨none, finished⟩ calls = some ⟨none, finished ++ [sessionOf r]⟩ := by
  refine ⟨_, call_eq r.req_id r.mess, ?_⟩
  unfold sessionOf
  by_cases htrigger : r.req_id.toInt.tmod 2 = 1
  · rw [if_pos htrigger, if_pos htrigger]
    simp [Machine.run, tracer]
  · rw [if_neg htrigger, if_neg htrigger]
    simp [Machine.run, tracer]

/-- The remainder of a negative number is not positive. -/
theorem tmod_two_eq_one_iff (x : Int) : x.tmod 2 = 1 ↔ Odd x ∧ 0 ≤ x := by
  rw [Int.odd_iff]
  by_cases hsign : 0 ≤ x
  · rw [Int.tmod_eq_emod_of_nonneg hsign]
    exact (and_iff_left hsign).symm
  · have hneg : -x.tmod 2 = -x % 2 := by
      rw [← Int.neg_tmod, Int.tmod_eq_emod_of_nonneg (by omega)]
    omega

/-- The session is the wanted one unless the request id is odd and negative. -/
theorem isSessionOf_sessionOf_iff (r : Request) :
    IsSessionOf r (sessionOf r) ↔ ¬ (Odd r.req_id.toInt ∧ r.req_id.toInt < 0) := by
  have htmod := tmod_two_eq_one_iff r.req_id.toInt
  constructor
  · rintro ⟨-, -, htrigger⟩ ⟨hodd, hneg⟩
    have hmissed : ¬ r.req_id.toInt.tmod 2 = 1 := fun h => Int.not_lt.mpr (htmod.mp h).2 hneg
    rw [if_pos hodd] at htrigger
    have hnone : (sessionOf r).triggers = 0 := if_neg hmissed
    exact absurd (hnone.symm.trans htrigger) (by decide)
  · intro hsign
    refine ⟨rfl, rfl, ?_⟩
    by_cases hodd : Odd r.req_id.toInt
    · have hpos : 0 ≤ r.req_id.toInt := Int.not_lt.mp fun hneg => hsign ⟨hodd, hneg⟩
      rw [sessionOf, if_pos hodd, if_pos (htmod.mpr ⟨hodd, hpos⟩)]
    · rw [sessionOf, if_neg hodd, if_neg fun h => hodd (htmod.mp h).1]

/-! ### All requests -/

/-- **Run.** The requests leave their sessions, in their order. -/
theorem run_handleAll (requests : List Request) :
    ∃ log, handleAll requests = .ok log ∧
      tracer.run {} log = some ⟨none, requests.map sessionOf⟩ := by
  induction requests using List.reverseRecOn with
  | nil => exact ⟨[], rfl, rfl⟩
  | append_singleton requests r ih =>
    obtain ⟨log, hlog, hrun⟩ := ih
    obtain ⟨calls, hcalls, hsession⟩ := run_call r (requests.map sessionOf)
    refine ⟨log ++ calls, ?_, ?_⟩
    · unfold handleAll at hlog ⊢
      rw [List.foldlM_append, hlog]
      show List.foldlM (fun log r => (call r.req_id r.mess).map (log ++ ·)) log [r] = _
      rw [List.foldlM_cons, hcalls]
      rfl
    · rw [Machine.run_append, hrun, List.map_append]
      exact hsession

/-- What is wanted is decided by these sessions. -/
theorem sessionsTraced_iff_sessionOf (requests : List Request) :
    SessionsTraced requests ↔ ∀ r ∈ requests, IsSessionOf r (sessionOf r) := by
  obtain ⟨log, hlog, hrun⟩ := run_handleAll requests
  have hforall : List.Forall₂ IsSessionOf requests (requests.map sessionOf) ↔
      ∀ r ∈ requests, IsSessionOf r (sessionOf r) := by
    rw [List.forall₂_map_right_iff, List.forall₂_same]
  rw [← hforall]
  constructor
  · rintro ⟨log', sessions, hlog', hrun', hsessions⟩
    -- The log of the requests is this one, and so are the sessions in it.
    obtain rfl := Except.ok.inj (hlog.symm.trans hlog')
    have heq := Option.some.inj (hrun.symm.trans hrun')
    rw [(Tracer.mk.inj heq).2]
    exact hsessions
  · intro hsessions
    exact ⟨log, requests.map sessionOf, hlog, hrun, hsessions⟩

/-- **Sessions, exactly.** The tracer sees one complete session for each request, triggered
    exactly for the odd ones, if and only if no request id is odd and negative. -/
theorem sessionsTraced_iff (requests : List Request) :
    SessionsTraced requests ↔
      ∀ r ∈ requests, ¬ (Odd r.req_id.toInt ∧ r.req_id.toInt < 0) := by
  rw [sessionsTraced_iff_sessionOf]
  simp only [isSessionOf_sessionOf_iff]

/-- Request `-1` is odd, and is not triggered. -/
theorem negative_odd_not_triggered : ¬ SessionsTraced [⟨-1, .filled 0⟩] := by
  rw [sessionsTraced_iff_sessionOf]
  intro hsessions
  have hsession := hsessions _ List.mem_cons_self
  exact (isSessionOf_sessionOf_iff _).mp hsession (by decide)

end ThriftBench.Hindsight
