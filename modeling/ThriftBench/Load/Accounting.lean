import ThriftBench.Load.Schedule

namespace ThriftBench.Load

open Lib

/-!
# Load clients — the load offered

The clients of the UniqueId servers and of the inference server increment their round counter,
and stop only where it equals `seconds`; the Hindsight client does not increment it.

* `echo_load_iff` — when the Hindsight client ends and sends the load asked for;
* `load_accounted_iff` — when the other clients do.
-/

/-! ### The Hindsight client -/

/-- **The Hindsight load, exactly.** For all `seconds`, `reqps` and numbers `n` of clients:
    every interleaving of `echo_client` ends with `seconds` rounds of `reqps` calls from each
    thread if and only if no round or no client is asked for. -/
theorem echo_load_iff (seconds reqps n : Nat) :
    (program echoClient ⟨seconds, reqps, n⟩).Halts {} (Program.Completed seconds reqps n) ↔
      seconds = 0 ∨ n = 0 := by
  constructor
  · intro hhalts
    by_contra hboth
    simp only [not_or] at hboth
    obtain ⟨hseconds, hn⟩ := hboth
    -- `counter` stays at `0`.
    have hmisses : echoClient.Misses ⟨seconds, reqps, n⟩ :=
      Or.inr ⟨by decide, fun heq => hseconds (Int.natCast_eq_zero.mp heq)⟩
    obtain ⟨p, hp, hcompleted⟩ := hhalts.exists_end
    exact not_completed_of_misses hmisses hp (Nat.pos_of_ne_zero hn) hcompleted
  · intro hnone
    have hattains : 0 < (n : Int) → echoClient.Attains ⟨seconds, reqps, n⟩ := by
      intro hn
      have hzero : seconds = 0 := by omega
      subst hzero
      have hfits : (0 : Int) < 2 ^ 63 := by decide
      exact ⟨Int.le_refl 0, hfits, fun hne => absurd rfl hne⟩
    exact program_halts hattains

/-- One client that is to send one call in one round never ends. -/
theorem echo_client_never_ends :
    ¬ (program echoClient ⟨1, 1, 1⟩).Halts {} (Program.Completed 1 1 1) := by
  intro hhalts
  obtain ⟨p, hp, hcompleted⟩ := hhalts.exists_end
  exact not_completed_of_misses (Or.inr ⟨by decide, by decide⟩) hp Nat.one_pos hcompleted

/-- It goes on to send a second call. -/
example : ((program echoClient ⟨1, 1, 1⟩).run {}
    (.main :: List.replicate 8 (.thread 0))).map Program.calls = some 2 := by decide

/-! ### The other clients -/

/-- The load generators that are to offer the same load. -/
inductive Source where
  | tthreaded
  | threadpool
  | nonblocking
  | mlInfer
  deriving DecidableEq, Repr

def Source.generator : Source → Generator
  | .tthreaded => tthreadedClient
  | .threadpool => threadpoolClient
  | .nonblocking => nonblockingClient
  | .mlInfer => computeClient

/-- `int64_t seconds = atoi(argv[1]);` and the others: `atoi` yields an `int`. -/
def Arguments.atoi (seconds reqps no_of_clients : BitVec 32) : Arguments :=
  ⟨seconds.toInt, reqps.toInt, no_of_clients.toInt⟩

/-- No round counter overflows, and every interleaving ends with the load asked for, where
    negative numbers ask for nothing. -/
structure LoadAccounted (g : Generator) (args : Arguments) : Prop where
  no_overflow : ∀ p, (program g args).Reaches {} p → ∀ c ∈ p.threads, c.position ≠ .overflowed
  halts : (program g args).Halts {} fun p =>
    p.Completed args.seconds.toNat args.reqps.toNat args.no_of_clients.toNat ∧
      (p.calls : Int) = max args.no_of_clients 0 * max args.seconds 0 * max args.reqps 0

section

variable {g : Generator} {args : Arguments}

/-- A thread on schedule has not overflowed, nor has any other. -/
theorem not_overflowed (hattains : 0 < args.no_of_clients → g.Attains args) {p : Program}
    (hp : (program g args).Reaches {} p) : ∀ c ∈ p.threads, c.position ≠ .overflowed := by
  obtain ⟨as, hrun⟩ := hp
  have hschedule : p.OnSchedule g args :=
    Machine.invariant_run (I := Program.OnSchedule g args)
      (fun _ _ _ h hstep => (h.step hattains hstep).1) Program.OnSchedule.initial hrun
  intro c hc hoverflowed
  obtain ⟨i, hi⟩ := List.getElem?_of_mem hc
  have hclient := hschedule.threads i c hi
  unfold Client.OnSchedule at hclient
  rw [hoverflowed] at hclient
  exact hclient

theorem LoadAccounted.of_attains (hattains : 0 < args.no_of_clients → g.Attains args) :
    LoadAccounted g args where
  no_overflow _ hp := not_overflowed hattains hp
  halts := by
    refine (program_halts hattains).and fun p _ hcompleted => ?_
    rw [hcompleted.calls, Int.natCast_mul, Int.natCast_mul, Int.toNat_eq_max, Int.toNat_eq_max,
      Int.toNat_eq_max]

end

/-- The four clients increment the counter once a round. -/
theorem Source.count_afterRound (source : Source) :
    source.generator.afterRound.count .count = 1 := by
  cases source with
  | tthreaded => rfl
  | threadpool => rfl
  | nonblocking => rfl
  | mlInfer => rfl

/-- **The load, exactly.** For each of the four clients and all integers that `atoi` can yield:
    no round counter overflows and every interleaving ends with
    `max(no_of_clients, 0) * max(seconds, 0) * max(reqps, 0)` calls sent, if and only if
    `seconds` is not negative or no client is asked for. -/
theorem load_accounted_iff (source : Source) (seconds reqps no_of_clients : BitVec 32) :
    LoadAccounted source.generator (.atoi seconds reqps no_of_clients) ↔
      0 ≤ seconds.toInt ∨ no_of_clients.toInt ≤ 0 := by
  constructor
  · intro haccounted
    by_contra hboth
    simp only [not_or, Int.not_le] at hboth
    obtain ⟨hnegative, hclients⟩ := hboth
    obtain ⟨p, hp, hcompleted, -⟩ := haccounted.halts.exists_end
    refine not_completed_of_misses (Or.inl hnegative) hp ?_ hcompleted
    exact Int.lt_toNat.mpr hclients
  · intro hcondition
    refine LoadAccounted.of_attains fun hclients => ⟨?_, ?_, fun _ => source.count_afterRound⟩
    · exact hcondition.resolve_right (Int.not_le.mpr hclients)
    · have hbound : seconds.toInt < 2 ^ 31 := BitVec.toInt_lt
      show seconds.toInt < 2 ^ 63
      omega

/-- With `seconds` negative, one client counts its rounds up from `0` and away from it. -/
theorem negative_seconds_not_accounted :
    ¬ LoadAccounted (Source.generator .tthreaded) (.atoi (-1) 1 1) := by
  intro haccounted
  obtain ⟨p, hp, hcompleted, -⟩ := haccounted.halts.exists_end
  exact not_completed_of_misses (Or.inl (by decide)) hp (by decide) hcompleted

end ThriftBench.Load
