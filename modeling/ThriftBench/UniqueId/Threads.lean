import ThriftBench.Lib.Machine
import ThriftBench.Lib.Processes
import ThriftBench.UniqueId.Counter

namespace ThriftBench.UniqueId

open Lib

/-!
# UniqueID service — concurrent calls in one process

Any number of `compute_unique_id` calls share the globals, and a run interleaves their
steps.  `std::mutex thread_lock` is a parameter `mutexOf`: the mutex object that call `i`
locks.  In the code it is a local variable of the call, one object a call (`ownMutex`);
`sharedMutex` is the same code with one object for all calls.

* `Server` / `Phase` / `Action` — the state, where each call stands, and what can happen
  next: the clock advances, or one call takes its next step;
* `server` — `get_counter` one indivisible statement at a time;
* `atomicServer` — reading the clock and `get_counter` as two indivisible steps;
* `atomicServer_run_reaches` — every run of the second is one of the first.
-/

/-- Where a call stands in `compute_unique_id` and, from `read` to `zeroed`, in
    `get_counter`, together with its locals. -/
inductive Phase where
  /-- Before `thread_lock.lock()`. -/
  | start
  /-- Before the clock is read. -/
  | locked
  /-- Before the test `CURRENT_TIMESTAMP > timestamp`. -/
  | read (timestamp : Int)
  /-- Before the test `CURRENT_TIMESTAMP == timestamp`. -/
  | checked (timestamp : Int)
  /-- Before `return counter++` of the first branch. -/
  | same (timestamp : Int)
  /-- Before `CURRENT_TIMESTAMP = timestamp`. -/
  | differs (timestamp : Int)
  /-- Before `counter = 0`. -/
  | stored (timestamp : Int)
  /-- Before `return counter++` of the second branch. -/
  | zeroed (timestamp : Int)
  /-- Before `thread_lock.unlock()`. -/
  | counted (timestamp counterValue : Int)
  /-- The reply is rendered from the two locals alone. -/
  | done (timestamp counterValue : Int)
  deriving DecidableEq, Repr

namespace Phase

/-- The clock reading of a call that has taken one. -/
def reading? : Phase → Option Int
  | .start | .locked => none
  | .read t | .checked t | .same t | .differs t | .stored t | .zeroed t => some t
  | .counted t _ | .done t _ => some t

/-- The pair of a call that `get_counter` returned to. -/
def issued? : Phase → Option (Int × Int)
  | .counted t c | .done t c => some (t, c)
  | _ => none

/-- Between the first test of `get_counter` and its `counter++`. -/
def inside : Phase → Bool
  | .checked _ | .same _ | .differs _ | .stored _ | .zeroed _ => true
  | _ => false

/-- In the branch that starts a new millisecond. -/
def resetting : Phase → Bool
  | .differs _ | .stored _ | .zeroed _ => true
  | _ => false

end Phase

/-- The state of one server process. -/
structure Server where
  /-- The system clock, in milliseconds since `CUSTOM_EPOCH`. -/
  clock : Int
  globals : Globals
  /-- The mutex objects that are locked. -/
  held : List Nat
  calls : List Phase
  exited : Bool
  deriving DecidableEq, Repr

namespace Server

/-- A fresh process with `n` calls about to start. -/
def initial (n : Nat) (clock : Int) : Server where
  clock := clock
  globals := {}
  held := []
  calls := List.replicate n .start
  exited := false

/-- Call `i` moves to phase `ph` and leaves the globals as `g`. -/
def move (s : Server) (i : Nat) (ph : Phase) (g : Globals) : Server :=
  { s with globals := g, calls := s.calls.set i ph }

@[simp] theorem move_globals (s : Server) (i : Nat) (ph : Phase) (g : Globals) :
    (s.move i ph g).globals = g := rfl
@[simp] theorem move_calls (s : Server) (i : Nat) (ph : Phase) (g : Globals) :
    (s.move i ph g).calls = s.calls.set i ph := rfl

end Server

/-- What happens next: the clock advances, or call `i` takes a step. -/
inductive Action where
  | tick (d : Nat)
  | call (i : Nat)
  deriving DecidableEq, Repr

/-- The mutex of the code: a local variable, one object a call. -/
def ownMutex (i : Nat) : Nat := i

/-- One mutex object for all calls. -/
def sharedMutex (_ : Nat) : Nat := 0

section

variable (mutexOf : Nat → Nat)

/-- `thread_lock.lock()`: waits while the object is locked. -/
def lockStep (s : Server) (i : Nat) : Option Server :=
  if mutexOf i ∈ s.held then
    none
  else
    some { s.move i .locked s.globals with held := mutexOf i :: s.held }

/-- `thread_lock.unlock()`. -/
def unlockStep (s : Server) (i : Nat) (t c : Int) : Server :=
  { s.move i (.done t c) s.globals with held := s.held.erase (mutexOf i) }

/-- `return counter++;` in either branch of `get_counter`. -/
def countStep (s : Server) (i : Nat) (t : Int) : Server :=
  s.move i (.counted t s.globals.postIncrement.1) s.globals.postIncrement.2

/-- The next statement of call `i`, which stands in the given phase. -/
def stepCall (s : Server) (i : Nat) : Phase → Option Server
  | .start       => lockStep mutexOf s i
  | .locked      => some (s.move i (.read s.clock) s.globals)
  | .read t      =>
      -- `exit(EXIT_FAILURE)`: the lock is still held, but no call steps any more.
      if s.globals.currentTimestamp > t then some { s with exited := true }
      else some (s.move i (.checked t) s.globals)
  | .checked t   =>
      if s.globals.currentTimestamp = t then some (s.move i (.same t) s.globals)
      else some (s.move i (.differs t) s.globals)
  | .same t      => some (countStep s i t)
  | .differs t   => some (s.move i (.stored t) { s.globals with currentTimestamp := t })
  | .stored t    => some (s.move i (.zeroed t) { s.globals with counter := 0 })
  | .zeroed t    => some (countStep s i t)
  | .counted t c => some (unlockStep mutexOf s i t c)
  | .done _ _    => none

/-- The next step of call `i` where `get_counter` is one indivisible step. -/
def stepCallAtomic (s : Server) (i : Nat) : Phase → Option Server
  | .start       => lockStep mutexOf s i
  | .locked      => some (s.move i (.read s.clock) s.globals)
  | .read t      =>
      match getCounter s.globals t with
      | none        => some { s with exited := true }
      | some (c, g) => some (s.move i (.counted t c) g)
  | .counted t c => some (unlockStep mutexOf s i t c)
  | _            => none

/-- A step of the process whose calls step by `stepOf`; an exited process takes none. -/
def stepServer (stepOf : Server → Nat → Phase → Option Server) (s : Server) :
    Action → Option Server
  | .tick d => if s.exited then none else some { s with clock := s.clock + d }
  | .call i => if s.exited then none else s.calls[i]?.bind (stepOf s i)

/-- The process, one statement of `get_counter` at a time. -/
def server : Machine Server Action where
  step := stepServer (stepCall mutexOf)

/-- The process, `get_counter` being one step. -/
def atomicServer : Machine Server Action where
  step := stepServer (stepCallAtomic mutexOf)

end

/-- What a step of the process is: a tick of the clock or the next step of one call, of a
    process that has not exited. -/
theorem stepServer_cases {stepOf : Server → Nat → Phase → Option Server} {s s' : Server}
    {a : Action} (h : stepServer stepOf s a = some s') :
    s.exited = false ∧ ((∃ d : Nat, a = .tick d ∧ s' = { s with clock := s.clock + d }) ∨
      ∃ i ph, a = .call i ∧ s.calls[i]? = some ph ∧ stepOf s i ph = some s') := by
  cases hex : s.exited with
  | true => cases a <;> simp [stepServer, hex] at h
  | false =>
    refine ⟨rfl, ?_⟩
    cases a with
    | tick d =>
      simp only [stepServer, hex] at h
      exact Or.inl ⟨d, rfl, (Option.some.inj h).symm⟩
    | call i =>
      simp only [stepServer, hex] at h
      obtain ⟨ph, hph, hstep⟩ := Option.bind_eq_some_iff.mp h
      exact Or.inr ⟨i, ph, rfl, hph, hstep⟩

/-! ### An indivisible `get_counter` is one of the interleavings -/

section

variable {mutexOf : Nat → Nat} {s s' : Server} {i : Nat} {ph : Phase}

theorem Server.move_move (s : Server) (i : Nat) (ph ph' : Phase) (g g' : Globals) :
    (s.move i ph g).move i ph' g' = s.move i ph' g' := by
  simp only [Server.move, List.set_set]

theorem Server.getElem?_move (hi : s.calls[i]? = some ph) (ph' : Phase) (g : Globals) :
    (s.move i ph' g).calls[i]? = some ph' := by
  obtain ⟨hlt, -⟩ := List.getElem?_eq_some_iff.mp hi
  exact List.getElem?_set_self hlt

/-- The next step of a call that stands in the given phase. -/
theorem server_step_eq (m : Nat → Nat) (hrunning : s.exited = false)
    (hi : s.calls[i]? = some ph) : (server m).step s (.call i) = stepCall m s i ph := by
  simp only [server, stepServer, hrunning, hi]
  rfl

/-- The next step of a call that has just moved. -/
theorem server_step_move (m : Nat → Nat) (hrunning : s.exited = false)
    (hi : s.calls[i]? = some ph) (ph' : Phase) (g : Globals) :
    (server m).step (s.move i ph' g) (.call i) = stepCall m (s.move i ph' g) i ph' :=
  server_step_eq m hrunning (Server.getElem?_move hi ph' g)

/-- The statements of `get_counter`, played one after the other. -/
theorem getCounter_reaches {t : Int} (hrunning : s.exited = false)
    (hi : s.calls[i]? = some (.read t)) (h : stepCallAtomic mutexOf s i (.read t) = some s') :
    (server mutexOf).Reaches s s' := by
  have hread := server_step_eq mutexOf hrunning hi
  simp only [stepCall] at hread
  simp only [stepCallAtomic, getCounter] at h
  by_cases hlt : s.globals.currentTimestamp > t
  · rw [if_pos hlt] at hread h
    obtain rfl := Option.some.inj h
    exact .head hread (.refl _)
  rw [if_neg hlt] at hread h
  apply Machine.Reaches.head hread
  have hchecked := server_step_move mutexOf hrunning hi (.checked t) s.globals
  simp only [stepCall, Server.move_globals, Server.move_move] at hchecked
  by_cases heq : s.globals.currentTimestamp = t
  · rw [if_pos heq] at hchecked h
    obtain rfl := Option.some.inj h
    refine .head hchecked (.head (server_step_move mutexOf hrunning hi _ _) ?_)
    simp only [countStep, Server.move_globals, Server.move_move]
    exact .refl _
  · rw [if_neg heq] at hchecked h
    obtain rfl := Option.some.inj h
    -- The branch of a new millisecond: two assignments, then `counter++`.
    refine .head hchecked (.head (server_step_move mutexOf hrunning hi _ _) ?_)
    simp only [Server.move_globals, Server.move_move]
    apply Machine.Reaches.head (server_step_move mutexOf hrunning hi _ _)
    simp only [Server.move_globals, Server.move_move]
    apply Machine.Reaches.head (server_step_move mutexOf hrunning hi _ _)
    simp only [countStep, Server.move_globals, Server.move_move]
    exact .refl _

/-- Every step with an indivisible `get_counter` is played by the statements. -/
theorem atomicServer_step_reaches {a : Action} (h : (atomicServer mutexOf).step s a = some s') :
    (server mutexOf).Reaches s s' := by
  obtain ⟨hrunning, ⟨d, rfl, rfl⟩ | ⟨i, ph, rfl, hi, hcall⟩⟩ := stepServer_cases h
  · refine .head (a := .tick d) ?_ (.refl _)
    simp only [server, stepServer, hrunning]
    rfl
  cases ph
  case read t => exact getCounter_reaches hrunning hi hcall
  case start => exact .head ((server_step_eq mutexOf hrunning hi).trans hcall) (.refl _)
  case locked => exact .head ((server_step_eq mutexOf hrunning hi).trans hcall) (.refl _)
  case counted t c => exact .head ((server_step_eq mutexOf hrunning hi).trans hcall) (.refl _)
  all_goals exact absurd hcall (by simp [stepCallAtomic])

/-- **Refinement.** Every run with an indivisible `get_counter` is a run of the statements. -/
theorem atomicServer_run_reaches {acts : List Action}
    (hrun : (atomicServer mutexOf).run s acts = some s') : (server mutexOf).Reaches s s' := by
  have hstep : ∀ s a u t, (atomicServer mutexOf).step s a = some u → s = t →
      ∃ t', (server mutexOf).Observes (fun _ _ => True) (fun _ => (none : Option Unit)) t [] t' ∧
        u = t' := by
    rintro s a u t hstep rfl
    exact ⟨u, (atomicServer_step_reaches hstep).observes, rfl⟩
  obtain ⟨t, hplay, rfl⟩ := Machine.simulated_run (S := fun _ => none) hstep hrun rfl
  exact hplay.reaches

end

end ThriftBench.UniqueId
