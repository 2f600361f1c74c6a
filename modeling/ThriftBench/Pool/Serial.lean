import ThriftBench.Pool.ThreadManager

namespace ThriftBench.Pool

open Lib

/-!
# Worker pool — callbacks one at a time

Executed one at a time, both callbacks are functions on the counts of the pool.

* `Counts` — idle workers, busy workers and waiting connections; `Counts.createContext` and
  `Counts.deleteContext` — the callbacks, run by a worker that counts as busy;
* `serial` — connections arrive and close;
* `Ready` — the invariant: below `t_max` there is an idle worker, and nobody waits while
  there is one.
-/

/-- The counts of the pool. -/
@[ext] structure Counts where
  idle : Nat
  busy : Nat
  pending : Nat
  deriving DecidableEq, Repr

/-- A client connects, or one of those served disconnects. -/
inductive ConnectionEvent where
  | arrive
  | close
  deriving DecidableEq, Repr

namespace Counts

/-- `t_min` idle workers. -/
def initial (L : Limits) : Counts where
  idle := L.tMin
  busy := 0
  pending := 0

/-- `t_man->workerCount()`. -/
def workerCount (c : Counts) : Nat := c.idle + c.busy

/-- `addWorker` adds an idle worker. -/
def addWorker (c : Counts) : Counts := { c with idle := c.idle + 1 }

/-- `removeWorker` retires an idle worker, and waits for ever where there is none. -/
def removeWorker (c : Counts) : Option Counts :=
  if 0 < c.idle then some { c with idle := c.idle - 1 } else none

/-- `PoolSvrEvtHandler::createContext`. -/
def createContext (L : Limits) (c : Counts) : Counts :=
  if c.idle = 0 ∧ c.workerCount < L.tMax then c.addWorker else c

/-- `PoolSvrEvtHandler::deleteContext`. -/
def deleteContext (L : Limits) (c : Counts) : Option Counts :=
  if c.idle ≥ c.workerCount / 2 ∧ c.workerCount > L.tMin then c.removeWorker else some c

/-- An idle worker takes the new connection; without one the connection is pending. -/
def arrive (L : Limits) (c : Counts) : Counts :=
  if 0 < c.idle then createContext L { c with idle := c.idle - 1, busy := c.busy + 1 }
  else { c with pending := c.pending + 1 }

/-- After `deleteContext` the worker takes a pending connection or becomes idle. -/
def takeNext (L : Limits) (c : Counts) : Counts :=
  if 0 < c.pending then createContext L { c with pending := c.pending - 1 }
  else { c with idle := c.idle + 1, busy := c.busy - 1 }

/-- A served connection closes. -/
def close (L : Limits) (c : Counts) : Option Counts :=
  if c.busy = 0 then none else (c.deleteContext L).map (takeNext L)

end Counts

/-- The pool, one connection event at a time. -/
def serial (L : Limits) : Machine Counts ConnectionEvent where
  step c
    | .arrive => some (c.arrive L)
    | .close  => c.close L

/-- The invariant of the serial pool. -/
structure Ready (L : Limits) (c : Counts) : Prop where
  le_tMax : c.workerCount ≤ L.tMax
  /-- Below `t_max` there is an idle worker. -/
  spare : c.workerCount < L.tMax → 0 < c.idle
  /-- Nobody waits while a worker is idle. -/
  waits : 0 < c.pending → c.idle = 0

namespace Ready

variable {L : Limits} {c c' : Counts}

theorem initial (L : Limits) : Ready L (.initial L) where
  le_tMax := L.tMin_le_tMax
  spare _ := L.one_le_tMin
  waits h := absurd h (Nat.lt_irrefl _)

/-- The grow rule restores the spare worker. -/
theorem createContext (hle : c.workerCount ≤ L.tMax) (hwaits : 0 < c.pending →
    c.workerCount = L.tMax ∧ c.idle = 0) : Ready L (c.createContext L) := by
  rw [Counts.createContext]
  split
  · next hgrow =>
    obtain ⟨hidle, hlt⟩ := hgrow
    refine ⟨?_, fun _ => Nat.succ_pos _, fun hpos => ?_⟩
    · show c.idle + 1 + c.busy ≤ L.tMax
      rw [Counts.workerCount] at hlt
      omega
    · -- A pending connection would mean that the pool is full.
      have := (hwaits hpos).1
      omega
  · next hstay =>
    exact ⟨hle, fun hlt => Nat.pos_of_ne_zero fun hidle => hstay ⟨hidle, hlt⟩,
      fun hpos => (hwaits hpos).2⟩

theorem arrive (h : Ready L c) : Ready L (c.arrive L) := by
  obtain ⟨hle, hspare, hwaits⟩ := h
  rw [Counts.workerCount] at hle hspare
  rw [Counts.arrive]
  split
  · next hidle =>
    refine createContext ?_ fun hpos => ?_
    · show c.idle - 1 + (c.busy + 1) ≤ L.tMax
      omega
    · have := hwaits hpos
      omega
  · next hnone =>
    refine ⟨hle, hspare, fun _ => ?_⟩
    show c.idle = 0
    omega

/-- The shrink rule never asks for a worker that is not idle: more than `t_min` workers are
    at least two, and half of them at least one. -/
theorem deleteContext_cases (L : Limits) (c : Counts) :
    c.deleteContext L = some c ∨
      0 < c.idle ∧ c.deleteContext L = some { c with idle := c.idle - 1 } := by
  rw [Counts.deleteContext]
  split
  · next hshrink =>
    obtain ⟨hhalf, hgt⟩ := hshrink
    have hidle : 0 < c.idle := by
      have := L.one_le_tMin
      omega
    refine Or.inr ⟨hidle, ?_⟩
    rw [Counts.removeWorker, if_pos hidle]
  · exact Or.inl rfl

/-- The worker that ran `deleteContext` is the spare one, unless somebody waits for it. -/
theorem takeNext (h : Ready L c) (hbusy : 0 < c.busy) : Ready L (c.takeNext L) := by
  obtain ⟨hle, hspare, hwaits⟩ := h
  rw [Counts.workerCount] at hle hspare
  rw [Counts.takeNext]
  split
  · next hpos =>
    have hidle := hwaits hpos
    -- Nobody is idle, so the pool is full: below `t_max` there would be a spare worker.
    refine createContext hle fun _ => ⟨?_, hidle⟩
    show c.idle + c.busy = L.tMax
    omega
  · next hnone =>
    refine ⟨?_, fun _ => Nat.succ_pos _, fun hpos => absurd hpos hnone⟩
    show c.idle + 1 + (c.busy - 1) ≤ L.tMax
    omega

/-- A served connection can close, and the pool is ready afterwards. -/
theorem close (h : Ready L c) (hbusy : 0 < c.busy) : ∃ c', c.close L = some c' ∧ Ready L c' := by
  rw [Counts.close, if_neg (by omega)]
  rcases deleteContext_cases L c with hdel | ⟨hidle, hdel⟩
  · exact ⟨c.takeNext L, by rw [hdel]; rfl, h.takeNext hbusy⟩
  · refine ⟨_, by rw [hdel]; rfl, ?_⟩
    -- A worker was idle, so no connection is pending and the caller becomes idle again.
    have hnone : ¬ 0 < c.pending := fun hpos => by
      have := h.waits hpos
      omega
    have hle := h.le_tMax
    rw [Counts.workerCount] at hle
    rw [Counts.takeNext, if_neg hnone]
    refine ⟨?_, fun _ => Nat.succ_pos _, fun hpos => absurd hpos hnone⟩
    show c.idle - 1 + 1 + (c.busy - 1) ≤ L.tMax
    omega

/-- **Step lemma.** Every event keeps the pool ready. -/
theorem step {e : ConnectionEvent} (h : Ready L c) (hstep : (serial L).step c e = some c') :
    Ready L c' := by
  cases e with
  | arrive => exact Option.some.inj hstep ▸ h.arrive
  | close =>
    have hbusy : 0 < c.busy := Nat.pos_of_ne_zero fun hzero => by
      simp only [serial, Counts.close, if_pos hzero, reduceCtorEq] at hstep
    obtain ⟨d, hclose, hready⟩ := h.close hbusy
    have heq : some d = some c' := hclose.symm.trans hstep
    exact Option.some.inj heq ▸ hready

end Ready

/-- **No connection waits below the limit.** After every run of arrivals and closes a
    connection is pending only if there are `t_max` workers and none of them is idle, and
    with fewer than `t_max` workers one of them is idle.  No run gets stuck: a connection can
    always arrive, and one that is served can always close. -/
theorem no_connection_waits (L : Limits) (es : List ConnectionEvent) (c : Counts)
    (hrun : (serial L).run (.initial L) es = some c) :
    (0 < c.pending → c.workerCount = L.tMax ∧ c.idle = 0) ∧
      (c.workerCount < L.tMax → 0 < c.idle) ∧
      ((serial L).step c .arrive).isSome ∧ (0 < c.busy → ((serial L).step c .close).isSome) := by
  have h : Ready L c := Machine.invariant_run (fun _ _ _ h hs => h.step hs) (Ready.initial L) hrun
  refine ⟨fun hpos => ?_, h.spare, rfl, fun hbusy => ?_⟩
  · have hidle := h.waits hpos
    refine ⟨Nat.le_antisymm h.le_tMax (Nat.not_lt.mp fun hlt => ?_), hidle⟩
    have := h.spare hlt
    omega
  · obtain ⟨d, hclose, -⟩ := h.close hbusy
    exact Option.isSome_iff_exists.mpr ⟨d, hclose⟩

/-- The limits of the echo service: a fifth connection waits, a close hands its worker over to
    it, the fourth close retires a worker, and four more connections fill the pool again. -/
def fillTwice : List ConnectionEvent :=
  [.arrive, .arrive, .arrive, .arrive, .arrive, .close, .close, .close, .close, .arrive, .arrive,
    .arrive, .arrive]

theorem no_connection_waits_sample :
    (0 < 1 → (⟨0, 4, 1⟩ : Counts).workerCount = echoLimits.tMax ∧ 0 = 0) ∧
      ((⟨0, 4, 1⟩ : Counts).workerCount < echoLimits.tMax → 0 < 0) ∧
      ((serial echoLimits).step ⟨0, 4, 1⟩ .arrive).isSome ∧
      (0 < 4 → ((serial echoLimits).step ⟨0, 4, 1⟩ .close).isSome) :=
  no_connection_waits echoLimits fillTwice ⟨0, 4, 1⟩ rfl

end ThriftBench.Pool
