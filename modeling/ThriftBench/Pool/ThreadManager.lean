import ThriftBench.Lib.Machine
import ThriftBench.Lib.Processes

namespace ThriftBench.Pool

open Lib

/-!
# Worker pool — `PoolSvrEvtHandler` over the ThreadManager

`createContext` and `deleteContext` run on the worker that serves the connection.  Each of
them reads the counts of the ThreadManager, one call at a time, and then acts on what it
read.  The ThreadManager is not part of the repository; what it does with `addWorker` and
`removeWorker` is stated here.

* `Worker` — where a worker stands, in either callback or between them;
* `ThreadManager` — the workers, the number of workers requested (`target`) and the connections
  that wait;
* `pool` — the machine: connections arrive and close, workers take their next step.  The
  parameter `Removal` says whether `removeWorker` blocks its caller;
* `pool_step_cases` — what a step can do: move one worker, add one, or remove one.

The `stats` calls only print and are left out, as is `processContext`.
-/

/-- The limits that `PoolSvrEvtHandler` is constructed with. -/
structure Limits where
  tMin : Nat
  tMax : Nat
  one_le_tMin : 1 ≤ tMin
  tMin_le_tMax : tMin ≤ tMax
  deriving DecidableEq, Repr

/-- `PoolSvrEvtHandler(t_man,1,8)`, as the id service is deployed. -/
def uniqueIdLimits : Limits := ⟨1, 8, by decide, by decide⟩

/-- `PoolSvrEvtHandler(t_man,2,4)`, as the echo service is deployed. -/
def echoLimits : Limits := ⟨2, 4, by decide, by decide⟩

/-- Where a worker stands.  The operands of `>=` in `deleteContext` are read from left to
    right. -/
inductive Worker where
  /-- Waiting for a connection. -/
  | idle
  /-- Before `idleWorkerCount() == 0` of `createContext`. -/
  | createIdle
  /-- Before `workerCount() < t_max`. -/
  | createCount
  /-- Before `addWorker()`. -/
  | createAdd
  /-- Serving the requests of its connection. -/
  | serving
  /-- Before `idleWorkerCount()` of `deleteContext`. -/
  | deleteIdle
  /-- Before `workerCount()/2`, having read the idle count. -/
  | deleteHalf (idle : Nat)
  /-- Before `workerCount() > t_min`. -/
  | deleteCount
  /-- Before `removeWorker()`. -/
  | deleteRemove
  /-- Inside `removeWorker()`, waiting for workers to exit. -/
  | removing
  /-- After `deleteContext`. -/
  | deleted
  | exited
  deriving DecidableEq, Repr

namespace Worker

/-- The worker has not exited. -/
def live : Worker → Bool
  | .exited => false
  | _ => true

def isIdle : Worker → Bool
  | .idle => true
  | _ => false

/-- The worker is inside one of the callbacks. -/
def inCallback : Worker → Bool
  | .idle | .serving | .exited => false
  | _ => true

/-- The worker has decided to call `addWorker`. -/
def adding : Worker → Bool
  | .createAdd => true
  | _ => false

/-- The worker has decided to call `removeWorker`. -/
def decidedRemove : Worker → Bool
  | .deleteRemove => true
  | _ => false

/-- The worker is blocked inside `removeWorker`. -/
def isRemoving : Worker → Bool
  | .removing => true
  | _ => false

end Worker

/-- How `removeWorker` behaves: it lowers the target and keeps its caller until enough
    idle workers have exited, or it retires an idle worker and returns in one step. -/
inductive Removal where
  | blocking
  | indivisible
  deriving DecidableEq, Repr

/-- The ThreadManager and its workers; those that have exited stay in the list. -/
structure ThreadManager where
  workers : List Worker
  /-- The number of workers requested from the ThreadManager. -/
  target : Int
  /-- The connections that wait for a worker. -/
  pending : Nat
  deriving DecidableEq, Repr

/-- The first idle worker exits. -/
def retireIdle : List Worker → List Worker
  | []            => []
  | .idle :: ws   => .exited :: ws
  | w :: ws       => w :: retireIdle ws

namespace ThreadManager

/-- After `t_man->start()`: `t_min` idle workers. -/
def initial (L : Limits) : ThreadManager where
  workers := List.replicate L.tMin .idle
  target := L.tMin
  pending := 0

/-- `t_man->workerCount()`. -/
def workerCount (p : ThreadManager) : Nat := p.workers.countP Worker.live

/-- `t_man->idleWorkerCount()`. -/
def idleWorkerCount (p : ThreadManager) : Nat := p.workers.countP Worker.isIdle

/-- How many workers are blocked inside `removeWorker`. -/
def removingCount (p : ThreadManager) : Nat := p.workers.countP Worker.isRemoving

/-- How many workers have decided to call `addWorker`. -/
def addingCount (p : ThreadManager) : Nat := p.workers.countP Worker.adding

/-- How many workers have decided to call `removeWorker`. -/
def decidedCount (p : ThreadManager) : Nat := p.workers.countP Worker.decidedRemove

/-- Worker `i` moves on to `w`. -/
def move (p : ThreadManager) (i : Nat) (w : Worker) : ThreadManager :=
  { p with workers := p.workers.set i w }

/-- `t_man->addWorker()` called by worker `i`, which serves its connection afterwards. -/
def addWorker (p : ThreadManager) (i : Nat) : ThreadManager :=
  { p with workers := p.workers.set i .serving ++ [.idle], target := p.target + 1 }

/-- `t_man->removeWorker()` called by worker `i`. -/
def removeWorker (p : ThreadManager) (i : Nat) : Removal → ThreadManager
  | .blocking    => { p with workers := p.workers.set i .removing, target := p.target - 1 }
  | .indivisible =>
      { p with workers := retireIdle (p.workers.set i .deleted), target := p.target - 1 }

/-- Worker `i` takes a pending connection if there is one, and is idle otherwise. -/
def takeNext (p : ThreadManager) (i : Nat) : ThreadManager :=
  if 0 < p.pending then { p.move i .createIdle with pending := p.pending - 1 }
  else p.move i .idle

end ThreadManager

/-- What happens next. -/
inductive Event where
  /-- A client connects. -/
  | arrive
  /-- Idle worker `i` takes a pending connection. -/
  | take (i : Nat)
  /-- The client that worker `i` serves disconnects. -/
  | close (i : Nat)
  /-- Worker `i` takes the next step of its callback. -/
  | step (i : Nat)
  /-- Idle worker `i` exits, there being more workers than requested. -/
  | exit (i : Nat)
  deriving DecidableEq, Repr

/-- The next step of worker `i` in `createContext` and `deleteContext`. -/
def stepWorker (L : Limits) (r : Removal) (p : ThreadManager) (i : Nat) :
    Worker → Option ThreadManager
  | .createIdle   => some (p.move i (if p.idleWorkerCount = 0 then .createCount else .serving))
  | .createCount  => some (p.move i (if p.workerCount < L.tMax then .createAdd else .serving))
  -- From here on the counts are not looked at again: what was read may be out of date.
  | .createAdd    => some (p.addWorker i)
  | .deleteIdle   => some (p.move i (.deleteHalf p.idleWorkerCount))
  | .deleteHalf n =>
      some (p.move i (if n ≥ p.workerCount / 2 then .deleteCount else .deleted))
  | .deleteCount  =>
      some (p.move i (if p.workerCount > L.tMin then .deleteRemove else .deleted))
  | .deleteRemove => some (p.removeWorker i r)
  -- A blocking `removeWorker` returns once the workers it asked to exit have exited.
  | .removing     => if p.workerCount = p.target then some (p.move i .deleted) else none
  | .deleted      => some (p.takeNext i)
  | .idle | .serving | .exited => none

/-- The pool, one ThreadManager call at a time. -/
def pool (L : Limits) (r : Removal) : Machine ThreadManager Event where
  step p
    | .arrive  => some { p with pending := p.pending + 1 }
    | .take i  =>
        if p.workers[i]? = some .idle ∧ 0 < p.pending then some (p.takeNext i) else none
    | .close i => if p.workers[i]? = some .serving then some (p.move i .deleteIdle) else none
    | .step i  => p.workers[i]?.bind (stepWorker L r p i)
    | .exit i  =>
        if p.workers[i]? = some .idle ∧ p.target < p.workerCount then some (p.move i .exited)
        else none

/-! ### What a step can do -/

/-- The moves of worker `i` that neither add nor remove a worker. -/
inductive Moves (L : Limits) (p : ThreadManager) (i : Nat) : Event → Worker → Worker → Prop where
  | take : Moves L p i (.take i) .idle .createIdle
  | close : Moves L p i (.close i) .serving .deleteIdle
  | exit : p.target < p.workerCount → Moves L p i (.exit i) .idle .exited
  | noneIdle : p.idleWorkerCount = 0 → Moves L p i (.step i) .createIdle .createCount
  | someIdle : p.idleWorkerCount ≠ 0 → Moves L p i (.step i) .createIdle .serving
  | belowMax : p.workerCount < L.tMax → Moves L p i (.step i) .createCount .createAdd
  | atMax : L.tMax ≤ p.workerCount → Moves L p i (.step i) .createCount .serving
  | readIdle : Moves L p i (.step i) .deleteIdle (.deleteHalf p.idleWorkerCount)
  | manyIdle (n : Nat) : p.workerCount / 2 ≤ n →
      Moves L p i (.step i) (.deleteHalf n) .deleteCount
  | fewIdle (n : Nat) : n < p.workerCount / 2 → Moves L p i (.step i) (.deleteHalf n) .deleted
  | aboveMin : L.tMin < p.workerCount → Moves L p i (.step i) .deleteCount .deleteRemove
  | atMin : p.workerCount ≤ L.tMin → Moves L p i (.step i) .deleteCount .deleted
  | removed : p.workerCount = p.target → Moves L p i (.step i) .removing .deleted
  | next : Moves L p i (.step i) .deleted .createIdle
  | rest : Moves L p i (.step i) .deleted .idle

/-- The effect of an event on the workers and on the number of workers requested. -/
inductive Effect (L : Limits) (r : Removal) (p : ThreadManager) : Event → ThreadManager → Prop where
  | arrive (n : Nat) : Effect L r p .arrive { p with pending := n }
  | move {e : Event} {i : Nat} {w w' : Worker} (n : Nat) : p.workers[i]? = some w →
      Moves L p i e w w' → Effect L r p e { p.move i w' with pending := n }
  | add {i : Nat} : p.workers[i]? = some .createAdd → Effect L r p (.step i) (p.addWorker i)
  | remove {i : Nat} : p.workers[i]? = some .deleteRemove →
      Effect L r p (.step i) (p.removeWorker i r)

variable {L : Limits} {r : Removal} {p p' : ThreadManager}

/-- A worker that takes the next connection or rests. -/
theorem takeNext_effect {i : Nat} {w : Worker} {e : Event} (hi : p.workers[i]? = some w)
    (htake : 0 < p.pending → Moves L p i e w .createIdle)
    (hrest : ¬ 0 < p.pending → Moves L p i e w .idle) : Effect L r p e (p.takeNext i) := by
  by_cases hpos : 0 < p.pending
  · rw [ThreadManager.takeNext, if_pos hpos]
    exact .move _ hi (htake hpos)
  · rw [ThreadManager.takeNext, if_neg hpos]
    exact .move p.pending hi (hrest hpos)

/-- The next step of a worker, by where it stands. -/
theorem stepWorker_effect {i : Nat} {w : Worker} (hi : p.workers[i]? = some w)
    (h : stepWorker L r p i w = some p') : Effect L r p (.step i) p' := by
  cases w <;> simp only [stepWorker, Option.some.injEq, reduceCtorEq] at h
  case createIdle =>
    subst h
    split
    · next hzero => exact .move p.pending hi (.noneIdle hzero)
    · next hne => exact .move p.pending hi (.someIdle hne)
  case createCount =>
    subst h
    split
    · next hlt => exact .move p.pending hi (.belowMax hlt)
    · next hge => exact .move p.pending hi (.atMax (Nat.not_lt.mp hge))
  case createAdd =>
    subst h
    exact .add hi
  case deleteIdle =>
    subst h
    exact .move p.pending hi .readIdle
  case deleteHalf n =>
    subst h
    split
    · next hge => exact .move p.pending hi (.manyIdle n hge)
    · next hlt => exact .move p.pending hi (.fewIdle n (Nat.not_le.mp hlt))
  case deleteCount =>
    subst h
    split
    · next hgt => exact .move p.pending hi (.aboveMin hgt)
    · next hle => exact .move p.pending hi (.atMin (Nat.not_lt.mp hle))
  case deleteRemove =>
    subst h
    exact .remove hi
  case removing =>
    split at h
    · next heq => exact Option.some.inj h ▸ .move p.pending hi (.removed heq)
    · exact absurd h (by simp)
  case deleted =>
    subst h
    exact takeNext_effect hi (fun _ => .next) (fun _ => .rest)

/-- **Step cases.** What an event can do to the pool. -/
theorem pool_step_cases {e : Event} (h : (pool L r).step p e = some p') : Effect L r p e p' := by
  cases e with
  | arrive =>
    obtain rfl := Option.some.inj h
    exact .arrive _
  | take i =>
    simp only [pool] at h
    split at h
    · next hidle =>
      obtain rfl := Option.some.inj h
      exact takeNext_effect hidle.1 (fun _ => .take) fun hno => absurd hidle.2 hno
    · exact absurd h (by simp)
  | close i =>
    simp only [pool] at h
    split at h
    · next hserving => exact Option.some.inj h ▸ .move p.pending hserving .close
    · exact absurd h (by simp)
  | step i =>
    obtain ⟨w, hi, hstep⟩ := Option.bind_eq_some_iff.mp h
    exact stepWorker_effect hi hstep
  | exit i =>
    simp only [pool] at h
    split at h
    · next hidle => exact Option.some.inj h ▸ .move p.pending hidle.1 (.exit hidle.2)
    · exact absurd h (by simp)

/-! ### Censuses -/

/-- A census of the idle workers that the pool starts with. -/
theorem countP_initial (L : Limits) (q : Worker → Bool) :
    (ThreadManager.initial L).workers.countP q = if q .idle then L.tMin else 0 :=
  List.countP_replicate

/-- Retiring an idle worker leaves every census alone that counts neither idle workers nor
    exited ones. -/
theorem countP_retireIdle {q : Worker → Bool} (hidle : q .idle = false)
    (hexited : q .exited = false) (ws : List Worker) : (retireIdle ws).countP q = ws.countP q := by
  induction ws with
  | nil => rfl
  | cons w ws ih => cases w <;> simp [retireIdle, List.countP_cons, ih, hidle, hexited]

/-- A census after an idle worker retired. -/
theorem countP_retireIdle_add {q : Worker → Bool} {ws : List Worker}
    (hidle : 0 < ws.countP Worker.isIdle) :
    (retireIdle ws).countP q + (if q .idle then 1 else 0)
      = ws.countP q + (if q .exited then 1 else 0) := by
  induction ws with
  | nil => exact absurd hidle (by simp)
  | cons w ws ih =>
    -- The first idle worker retires; before it the list stays as it is.
    cases w
    case idle =>
      simp only [retireIdle, List.countP_cons]
      omega
    all_goals
      simp only [List.countP_cons, Worker.isIdle, Bool.false_eq_true, ↓reduceIte,
        Nat.add_zero] at hidle
      simp only [retireIdle, List.countP_cons]
      have := ih hidle
      omega

/-- A census after `addWorker`. -/
theorem countP_addWorker {q : Worker → Bool} {i : Nat} {w : Worker}
    (hi : p.workers[i]? = some w) :
    (p.addWorker i).workers.countP q + (if q w then 1 else 0)
      = p.workers.countP q + (if q .serving then 1 else 0) + (if q .idle then 1 else 0) := by
  have hset := countP_set_add (p := q) (b := .serving) hi
  simp only [ThreadManager.addWorker, List.countP_append, List.countP_singleton]
  omega

/-- A census after `removeWorker` that counts none of the workers it turns others into. -/
theorem countP_removeWorker {q : Worker → Bool} {i : Nat}
    (hi : p.workers[i]? = some .deleteRemove) (hremoving : q .removing = false)
    (hdeleted : q .deleted = false) (hidle : q .idle = false) (hexited : q .exited = false) :
    (p.removeWorker i r).workers.countP q + (if q .deleteRemove then 1 else 0)
      = p.workers.countP q := by
  cases r with
  | blocking =>
    have hset := countP_set_add (p := q) (b := .removing) hi
    rw [hremoving] at hset
    exact hset
  | indivisible =>
    have hset := countP_set_add (p := q) (b := .deleted) hi
    rw [hdeleted] at hset
    simp only [ThreadManager.removeWorker, countP_retireIdle hidle hexited]
    exact hset

end ThriftBench.Pool
