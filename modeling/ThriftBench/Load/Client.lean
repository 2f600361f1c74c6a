import Mathlib.Algebra.Ring.Int.Defs
import ThriftBench.Lib.Machine
import ThriftBench.Lib.Processes

namespace ThriftBench.Load

open Lib

/-!
# Load clients — `run_workload_gen` and `main`

`main` starts a thread for each client and joins them all.  A thread opens its transport and
then goes through rounds of `reqps` calls, until its round counter equals `seconds`.  The five
copies of the program differ in the bounds of the inner loop and in what follows it.

* `Generator` — what a copy has of its own, with one definition for each source file;
* `stepClient` — a thread, from `open()` to `close()`;
* `program` — `main` and its threads, in any interleaving;
* `ClientEffect`, `MainEffect`, `program_step_cases` — what a step of it can do.

The calls are taken to return, as the servers answer them; what they return is only printed.
-/

/-- What stands after the inner loop. -/
inductive AfterRound where
  /-- `sleep(1);` -/
  | sleep
  /-- `++counter;` -/
  | count
  deriving DecidableEq, Repr

/-- A copy of `run_workload_gen`. -/
structure Generator where
  /-- `int64_t i` at the start of the inner loop. -/
  first : Int
  /-- The inner loop runs while `i <= reqps`; otherwise while `i < reqps`. -/
  inclusive : Bool
  afterRound : List AfterRound
  /-- The bounds of the inner loop fit together. -/
  first_eq : first = if inclusive = true then 1 else 0

/-- `EchoServerHindsight/tthreaded/echo_client.cpp` -/
def echoClient : Generator := ⟨0, false, [], rfl⟩

/-- `DSBUniqueIDService/tthreadedserver/uniqueid_client_1.cpp` -/
def tthreadedClient : Generator := ⟨0, false, [.sleep, .count], rfl⟩

/-- `DSBUniqueIDService/threadpoolserver/uniqueid_client_1.cpp` -/
def threadpoolClient : Generator := ⟨1, true, [.sleep, .count], rfl⟩

/-- `DSBUniqueIDService/nonblocking/uniqueid_client_1.cpp` -/
def nonblockingClient : Generator := ⟨1, true, [.sleep, .count], rfl⟩

/-- `MLInfer/tthreaded/compute_client_1.cpp` -/
def computeClient : Generator := ⟨0, false, [.count, .sleep], rfl⟩

/-- The condition of the inner loop. -/
def Generator.continues (g : Generator) (i reqps : Int) : Bool :=
  if g.inclusive = true then decide (i ≤ reqps) else decide (i < reqps)

/-- The command line. -/
structure Arguments where
  seconds : Int
  reqps : Int
  no_of_clients : Int
  deriving DecidableEq, Repr

/-- Where a thread stands in `run_workload_gen`. -/
inductive Position where
  /-- Before `trans->open()`. -/
  | opening
  /-- Before `if (counter == seconds)`. -/
  | testing
  /-- Before the condition of the inner loop. -/
  | looping (i : Int)
  /-- After the inner loop, with `rest` still to do. -/
  | resting (rest : List AfterRound)
  /-- Before `trans->close()`. -/
  | closing
  | done
  /-- `++counter` has overflowed, which is undefined. -/
  | overflowed
  deriving DecidableEq, Repr

/-- A thread. -/
structure Client where
  position : Position := .opening
  counter : Int := 0
  /-- The calls sent in each round, the latest round first. -/
  rounds : List Nat := []
  deriving DecidableEq, Repr

/-- One step of a thread. -/
def stepClient (g : Generator) (args : Arguments) (c : Client) : Option Client :=
  match c.position with
  | .opening => some { c with position := .testing }
  | .testing =>
    if c.counter = args.seconds then some { c with position := .closing }
    else some { c with position := .looping g.first, rounds := 0 :: c.rounds }
  | .looping i =>
    if g.continues i args.reqps = true then
      some { c with position := .looping (i + 1), rounds := c.rounds.modifyHead (· + 1) }
    else some { c with position := .resting g.afterRound }
  | .resting [] => some { c with position := .testing }
  | .resting (.sleep :: rest) => some { c with position := .resting rest }
  | .resting (.count :: rest) =>
    -- `counter` is an `int64_t`.
    if c.counter = 2 ^ 63 - 1 then some { c with position := .overflowed }
    else some { c with position := .resting rest, counter := c.counter + 1 }
  | .closing => some { c with position := .done }
  | .done | .overflowed => none

/-- Where `main` stands. -/
inductive Main where
  /-- In the loop that starts the threads. -/
  | spawning (i : Nat)
  /-- In the loop that joins them. -/
  | joining (i : Nat)
  | finished
  deriving DecidableEq, Repr

/-- `main` and the threads that it has started. -/
structure Program where
  main : Main := .spawning 0
  threads : List Client := []
  deriving DecidableEq, Repr

/-- One step of `main`. -/
def stepMain (args : Arguments) (p : Program) : Option Program :=
  match p.main with
  | .spawning i =>
    if (i : Int) < args.no_of_clients then
      some { main := .spawning (i + 1), threads := p.threads ++ [{}] }
    else some { p with main := .joining 0 }
  | .joining i =>
    if (i : Int) < args.no_of_clients then
      match p.threads[i]? with
      -- `join()` waits for the thread.
      | some c => if c.position = .done then some { p with main := .joining (i + 1) } else none
      | none   => none
    else some { p with main := .finished }
  | .finished => none

inductive Action where
  | main
  | thread (i : Nat)
  deriving DecidableEq, Repr

/-- One step of the program, which ends with `main`. -/
def stepProgram (g : Generator) (args : Arguments) (p : Program) : Action → Option Program
  | .main => stepMain args p
  | .thread i =>
    if p.main = .finished then none
    else
      match p.threads[i]? with
      | some c => (stepClient g args c).map fun c' => { p with threads := p.threads.set i c' }
      | none   => none

/-- The program; its runs are the interleavings of its threads. -/
def program (g : Generator) (args : Arguments) : Machine Program Action := ⟨stepProgram g args⟩

namespace Program

/-- The calls sent so far. -/
def calls (p : Program) : Nat := (p.threads.map fun c => c.rounds.sum).sum

/-- `main` has returned, and each of its `n` threads has left its loop after `seconds` rounds
    of `reqps` calls. -/
structure Completed (seconds reqps n : Nat) (p : Program) : Prop where
  finished : p.main = .finished
  clients : p.threads.length = n
  done : ∀ c ∈ p.threads, c.position = .done ∧ c.rounds = List.replicate seconds reqps
  calls : p.calls = n * seconds * reqps

end Program

/-! ### The inner loop -/

/-- Both forms of the inner loop run `reqps` times, or not at all if that is negative. -/
theorem Generator.continues_iff (g : Generator) (sent : Nat) (reqps : Int) :
    g.continues (g.first + sent) reqps = true ↔ sent < reqps.toNat := by
  rw [Generator.continues, g.first_eq]
  cases g.inclusive with
  | true =>
    simp only [↓reduceIte, decide_eq_true_eq]
    omega
  | false =>
    simp only [Bool.false_eq_true, ↓reduceIte, decide_eq_true_eq]
    omega

/-! ### One step -/

/-- What a thread can do. -/
inductive ClientEffect (g : Generator) (args : Arguments) : Client → Client → Prop where
  | opens (counter : Int) (rounds : List Nat) :
      ClientEffect g args ⟨.opening, counter, rounds⟩ ⟨.testing, counter, rounds⟩
  /-- The counter has reached `seconds`. -/
  | leaves (counter : Int) (rounds : List Nat) : counter = args.seconds →
      ClientEffect g args ⟨.testing, counter, rounds⟩ ⟨.closing, counter, rounds⟩
  /-- Another round begins. -/
  | begins (counter : Int) (rounds : List Nat) : counter ≠ args.seconds →
      ClientEffect g args ⟨.testing, counter, rounds⟩ ⟨.looping g.first, counter, 0 :: rounds⟩
  | calls (i counter : Int) (rounds : List Nat) : g.continues i args.reqps = true →
      ClientEffect g args ⟨.looping i, counter, rounds⟩
        ⟨.looping (i + 1), counter, rounds.modifyHead (· + 1)⟩
  /-- The inner loop ends. -/
  | ends (i counter : Int) (rounds : List Nat) : g.continues i args.reqps = false →
      ClientEffect g args ⟨.looping i, counter, rounds⟩ ⟨.resting g.afterRound, counter, rounds⟩
  /-- Nothing is left to do after the round. -/
  | returns (counter : Int) (rounds : List Nat) :
      ClientEffect g args ⟨.resting [], counter, rounds⟩ ⟨.testing, counter, rounds⟩
  | sleeps (rest : List AfterRound) (counter : Int) (rounds : List Nat) :
      ClientEffect g args ⟨.resting (.sleep :: rest), counter, rounds⟩
        ⟨.resting rest, counter, rounds⟩
  | overflows (rest : List AfterRound) (counter : Int) (rounds : List Nat) :
      counter = 2 ^ 63 - 1 → ClientEffect g args ⟨.resting (.count :: rest), counter, rounds⟩
        ⟨.overflowed, counter, rounds⟩
  | counts (rest : List AfterRound) (counter : Int) (rounds : List Nat) :
      counter ≠ 2 ^ 63 - 1 → ClientEffect g args ⟨.resting (.count :: rest), counter, rounds⟩
        ⟨.resting rest, counter + 1, rounds⟩
  | closes (counter : Int) (rounds : List Nat) :
      ClientEffect g args ⟨.closing, counter, rounds⟩ ⟨.done, counter, rounds⟩

/-- What `main` can do. -/
inductive MainEffect (args : Arguments) (p : Program) : Program → Prop where
  /-- It starts another thread. -/
  | spawn (i : Nat) : p.main = .spawning i → (i : Int) < args.no_of_clients →
      MainEffect args p ⟨.spawning (i + 1), p.threads ++ [({} : Client)]⟩
  /-- It has started them all. -/
  | turn (i : Nat) : p.main = .spawning i → args.no_of_clients ≤ i →
      MainEffect args p ⟨.joining 0, p.threads⟩
  | join (i : Nat) (c : Client) : p.main = .joining i → (i : Int) < args.no_of_clients →
      p.threads[i]? = some c → c.position = .done →
      MainEffect args p ⟨.joining (i + 1), p.threads⟩
  /-- It has joined them all. -/
  | finish (i : Nat) : p.main = .joining i → args.no_of_clients ≤ i →
      MainEffect args p ⟨.finished, p.threads⟩

section

variable {g : Generator} {args : Arguments} {c c' : Client} {p p' : Program}

/-- **Inversion.** -/
theorem stepClient_effect (h : stepClient g args c = some c') : ClientEffect g args c c' := by
  obtain ⟨position, counter, rounds⟩ := c
  unfold stepClient at h
  split at h
  · next hposition =>
    obtain rfl : position = .opening := hposition
    obtain rfl := Option.some.inj h
    exact .opens counter rounds
  · next hposition =>
    obtain rfl : position = .testing := hposition
    split at h
    · next heq =>
      obtain rfl := Option.some.inj h
      exact .leaves counter rounds heq
    · next hne =>
      obtain rfl := Option.some.inj h
      exact .begins counter rounds hne
  · next i hposition =>
    obtain rfl : position = .looping i := hposition
    split at h
    · next hcontinues =>
      obtain rfl := Option.some.inj h
      exact .calls i counter rounds hcontinues
    · next hstops =>
      obtain rfl := Option.some.inj h
      exact .ends i counter rounds (Bool.eq_false_iff.mpr hstops)
  · next hposition =>
    obtain rfl : position = .resting [] := hposition
    obtain rfl := Option.some.inj h
    exact .returns counter rounds
  · next rest hposition =>
    obtain rfl : position = .resting (.sleep :: rest) := hposition
    obtain rfl := Option.some.inj h
    exact .sleeps rest counter rounds
  · next rest hposition =>
    obtain rfl : position = .resting (.count :: rest) := hposition
    split at h
    · next hmax =>
      obtain rfl := Option.some.inj h
      exact .overflows rest counter rounds hmax
    · next hfits =>
      obtain rfl := Option.some.inj h
      exact .counts rest counter rounds hfits
  · next hposition =>
    obtain rfl : position = .closing := hposition
    obtain rfl := Option.some.inj h
    exact .closes counter rounds
  · exact absurd h (by simp)
  · exact absurd h (by simp)

/-- **Inversion.** -/
theorem stepMain_effect (h : stepMain args p = some p') : MainEffect args p p' := by
  unfold stepMain at h
  split at h
  · next i hmain =>
    split at h
    · next hlt =>
      obtain rfl := Option.some.inj h
      exact .spawn i hmain hlt
    · next hge =>
      obtain rfl := Option.some.inj h
      exact .turn i hmain (Int.not_lt.mp hge)
  · next i hmain =>
    split at h
    · next hlt =>
      split at h
      · next c hc =>
        split at h
        · next hdone =>
          obtain rfl := Option.some.inj h
          exact .join i c hmain hlt hc hdone
        · exact absurd h (by simp)
      · exact absurd h (by simp)
    · next hge =>
      obtain rfl := Option.some.inj h
      exact .finish i hmain (Int.not_lt.mp hge)
  · exact absurd h (by simp)

/-- **Inversion.** A step is one of `main` or one of a thread. -/
theorem program_step_cases {a : Action} (h : (program g args).step p a = some p') :
    MainEffect args p p' ∨
    ∃ (i : Nat) (c c' : Client), p.main ≠ .finished ∧ p.threads[i]? = some c ∧
      stepClient g args c = some c' ∧ p' = ⟨p.main, p.threads.set i c'⟩ := by
  cases a with
  | main => exact Or.inl (stepMain_effect h)
  | thread i =>
    simp only [program, stepProgram] at h
    split at h
    · exact absurd h (by simp)
    · next hmain =>
      split at h
      · next c hc =>
        obtain ⟨c', hc', rfl⟩ := Option.map_eq_some_iff.mp h
        exact Or.inr ⟨i, c, c', hmain, hc, hc', rfl⟩
      · exact absurd h (by simp)

end

end ThriftBench.Load
