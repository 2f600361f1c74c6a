import ThriftBench.Lib.Halting
import ThriftBench.Load.Client

namespace ThriftBench.Load

open Lib

/-!
# Load clients — rounds on schedule

A thread whose round counter is incremented once a round, and is to reach a `seconds` that is
not negative, passes through `seconds` rounds of `reqps` calls.

* `Client.OnSchedule` — where such a thread stands, and what it has sent;
* `Client.remaining` — how many steps it has left at most, which every step decreases;
* `Program.OnSchedule`, `Program.remaining` — the same for `main` and all threads;
* `program_halts` — hence every interleaving ends, with all rounds sent;
* `Client.Astray` — a counter that never equals `seconds`: such a thread never leaves its loop.
-/

/-- The counter reaches `seconds`: it is incremented once a round, unless no round is asked
    for. -/
structure Generator.Attains (g : Generator) (args : Arguments) : Prop where
  nonneg : 0 ≤ args.seconds
  fits : args.seconds < 2 ^ 63
  counts : args.seconds ≠ 0 → g.afterRound.count .count = 1

namespace Client

variable (g : Generator) (args : Arguments)

/-- The calls in `k` rounds. -/
def fullRounds (k : Nat) : List Nat := List.replicate k args.reqps.toNat

/-- A thread on its way through `seconds` rounds of `reqps` calls. -/
def OnSchedule (c : Client) : Prop :=
  match c.position with
  | .opening => c.counter = 0 ∧ c.rounds = []
  | .testing => ∃ k : Nat, k ≤ args.seconds ∧ c.counter = k ∧ c.rounds = fullRounds args k
  | .looping i => ∃ k sent : Nat, k < args.seconds ∧ sent ≤ args.reqps.toNat ∧ c.counter = k ∧
      i = g.first + sent ∧ c.rounds = sent :: fullRounds args k
  | .resting rest => ∃ k : Nat, k < args.seconds ∧ c.counter + rest.count .count = k + 1 ∧
      c.rounds = fullRounds args (k + 1)
  | .closing | .done => c.rounds = fullRounds args args.seconds.toNat
  | .overflowed => False

/-- More steps than one round takes. -/
def roundLength : Nat := args.reqps.toNat + g.afterRound.length + 4

/-- The steps that a thread has left, if it stays on schedule. -/
def remaining (c : Client) : Nat :=
  let later := (args.seconds.toNat - c.rounds.length) * roundLength g args
  match c.position with
  | .opening => later + 3
  | .testing => later + 2
  | .looping _ => later + (args.reqps.toNat - c.rounds.headD 0) + g.afterRound.length + 5
  | .resting rest => later + rest.length + 3
  | .closing => 1
  | .done | .overflowed => 0

variable {g args} {c c' : Client}

/-- Another round is begun: the rounds left are one less. -/
theorem rounds_left {k : Nat} (hk : k < args.seconds) :
    (args.seconds.toNat - k) * roundLength g args
      = (args.seconds.toNat - (k + 1)) * roundLength g args + roundLength g args := by
  have hleft : args.seconds.toNat - k = (args.seconds.toNat - (k + 1)) + 1 := by omega
  rw [hleft, Nat.succ_mul]

section

variable {counter : Int} {rounds : List Nat}

/-- The test of the outer loop: a round begins, or all are sent. -/
theorem OnSchedule.test (h : OnSchedule g args ⟨.testing, counter, rounds⟩)
    (hstep : ClientEffect g args ⟨.testing, counter, rounds⟩ c') :
    c'.OnSchedule g args ∧ c'.remaining g args < remaining g args ⟨.testing, counter, rounds⟩ := by
  obtain ⟨k, hk, hcounter, hrounds⟩ := h
  obtain rfl : counter = k := hcounter
  obtain rfl : rounds = fullRounds args k := hrounds
  cases hstep with
  | leaves _ _ heq =>
    -- The counter has reached `seconds`, and so all rounds are complete.
    have hall : args.seconds.toNat = k := by omega
    refine ⟨?_, ?_⟩
    · show fullRounds args k = fullRounds args args.seconds.toNat
      rw [hall]
    · show 1 < _ + 2
      omega
  | begins _ _ hne =>
    have hlt : k < args.seconds := Int.lt_iff_le_and_ne.mpr ⟨hk, hne⟩
    refine ⟨⟨k, 0, hlt, Nat.zero_le _, rfl, (Int.add_zero _).symm, rfl⟩, ?_⟩
    have hround := rounds_left (g := g) hlt
    simp only [remaining, fullRounds, List.length_cons, List.length_replicate, hround,
      List.headD_cons]
    simp only [roundLength]
    omega

/-- The inner loop: another call, or the round is complete. -/
theorem OnSchedule.loop (hattains : g.Attains args) {i : Int}
    (h : OnSchedule g args ⟨.looping i, counter, rounds⟩)
    (hstep : ClientEffect g args ⟨.looping i, counter, rounds⟩ c') :
    c'.OnSchedule g args ∧
      c'.remaining g args < remaining g args ⟨.looping i, counter, rounds⟩ := by
  obtain ⟨k, sent, hk, hsent, hcounter, rfl, hrounds⟩ := h
  obtain rfl : rounds = sent :: fullRounds args k := hrounds
  cases hstep with
  | calls _ _ _ hcontinues =>
    have hlt := (g.continues_iff sent args.reqps).mp hcontinues
    refine ⟨⟨k, sent + 1, hk, hlt, hcounter, by omega, rfl⟩, ?_⟩
    simp only [remaining, List.modifyHead_cons, List.length_cons, List.headD_cons]
    omega
  | ends _ _ _ hstops =>
    -- The condition of the loop holds exactly for the first `reqps` values.
    have hnot : ¬ sent < args.reqps.toNat :=
      mt (g.continues_iff sent args.reqps).mpr (Bool.eq_false_iff.mp hstops)
    have hfull : sent = args.reqps.toNat := Nat.le_antisymm hsent (Nat.not_lt.mp hnot)
    have hcounts := hattains.counts (by omega)
    refine ⟨⟨k, hk, ?_, ?_⟩, ?_⟩
    · rw [hcounts, show counter = k from hcounter]
      rfl
    · rw [hfull]
      rfl
    · simp only [remaining, List.length_cons, List.headD_cons]
      omega

/-- What is left to do after a round. -/
theorem OnSchedule.rest (hattains : g.Attains args) {rest : List AfterRound}
    (h : OnSchedule g args ⟨.resting rest, counter, rounds⟩)
    (hstep : ClientEffect g args ⟨.resting rest, counter, rounds⟩ c') :
    c'.OnSchedule g args ∧
      c'.remaining g args < remaining g args ⟨.resting rest, counter, rounds⟩ := by
  obtain ⟨k, hk, hcounter, hrounds⟩ := h
  cases hstep with
  | returns =>
    refine ⟨⟨k + 1, by omega, ?_, hrounds⟩, Nat.lt_succ_self _⟩
    rw [List.count_nil] at hcounter
    simpa using hcounter
  | sleeps rest =>
    refine ⟨⟨k, hk, ?_, hrounds⟩, ?_⟩
    · rw [List.count_cons_of_ne (by decide)] at hcounter
      exact hcounter
    · simp only [remaining, List.length_cons]
      omega
  | overflows rest _ _ hmax =>
    -- The counter is below `seconds`, which an `int64_t` can hold.
    have hfits := hattains.fits
    rw [List.count_cons_self] at hcounter
    simp only at hcounter
    omega
  | counts rest =>
    rw [List.count_cons_self] at hcounter
    simp only at hcounter
    refine ⟨⟨k, hk, ?_, hrounds⟩, ?_⟩
    · simp only
      omega
    · simp only [remaining, List.length_cons]
      omega

end

/-- **Step lemma.** A thread on schedule stays on it, and has fewer steps left. -/
theorem OnSchedule.step (hattains : g.Attains args) (h : c.OnSchedule g args)
    (hstep : stepClient g args c = some c') :
    c'.OnSchedule g args ∧ c'.remaining g args < c.remaining g args := by
  have heffect := stepClient_effect hstep
  obtain ⟨position, counter, rounds⟩ := c
  cases position with
  | opening =>
    cases heffect with
    | opens =>
      obtain ⟨hcounter, hrounds⟩ := h
      have hstart : 0 ≤ args.seconds := hattains.nonneg
      exact ⟨⟨0, hstart, hcounter, hrounds⟩, Nat.lt_succ_self _⟩
  | testing => exact h.test heffect
  | looping i => exact h.loop hattains heffect
  | resting rest => exact h.rest hattains heffect
  | closing =>
    cases heffect with
    | closes => exact ⟨h, Nat.zero_lt_one⟩
  | done => exact nomatch heffect
  | overflowed => exact absurd h id

/-- A thread on schedule that has not ended can go on. -/
theorem OnSchedule.exists_step (h : c.OnSchedule g args) (hdone : c.position ≠ .done) :
    ∃ c', stepClient g args c = some c' := by
  obtain ⟨position, counter, rounds⟩ := c
  cases position with
  | opening => exact ⟨_, rfl⟩
  | testing =>
    simp only [stepClient]
    split
    · exact ⟨_, rfl⟩
    · exact ⟨_, rfl⟩
  | looping i =>
    simp only [stepClient]
    split
    · exact ⟨_, rfl⟩
    · exact ⟨_, rfl⟩
  | resting rest =>
    cases rest with
    | nil => exact ⟨_, rfl⟩
    | cons next rest =>
      cases next with
      | sleep => exact ⟨_, rfl⟩
      | count =>
        simp only [stepClient]
        split
        · exact ⟨_, rfl⟩
        · exact ⟨_, rfl⟩
  | closing => exact ⟨_, rfl⟩
  | done => exact absurd rfl hdone
  | overflowed => exact absurd h id

end Client

/-! ### The program -/

namespace Program

variable (g : Generator) (args : Arguments)

/-- `main` in its loops, with its threads on schedule. -/
structure OnSchedule (p : Program) : Prop where
  threads : Everywhere (Client.OnSchedule g args) p.threads
  spawning : ∀ i, p.main = .spawning i → p.threads.length = i ∧ i ≤ args.no_of_clients.toNat
  started : (∀ i, p.main ≠ .spawning i) → p.threads.length = args.no_of_clients.toNat
  joining : ∀ i, p.main = .joining i →
    ∀ (j : Nat) c, j < i → p.threads[j]? = some c → c.position = .done
  finished : p.main = .finished → Everywhere (fun c => c.position = .done) p.threads

/-- The steps that `main` has left, with those of the threads it has not started yet. -/
def mainRemaining (p : Program) : Nat :=
  match p.main with
  | .spawning i => (args.no_of_clients.toNat - i) * (Client.remaining g args {} + 1) +
      args.no_of_clients.toNat + 2
  | .joining i => args.no_of_clients.toNat - i + 1
  | .finished => 0

def remaining (p : Program) : Nat :=
  p.mainRemaining g args + (p.threads.map (Client.remaining g args)).sum

variable {g args} {p p' : Program}

theorem OnSchedule.initial : OnSchedule g args {} where
  threads i c hc := absurd hc (by simp)
  spawning i hi := by
    obtain rfl := Main.spawning.inj hi
    exact ⟨rfl, Nat.zero_le _⟩
  started h := absurd rfl (h 0)
  joining i hi := absurd hi (by simp)
  finished h := absurd h (by simp)

/-- There is a thread only if one is asked for. -/
theorem OnSchedule.clients_pos (h : p.OnSchedule g args) {i : Nat} {c : Client}
    (hc : p.threads[i]? = some c) : 0 < args.no_of_clients := by
  have hlt := (List.getElem?_eq_some_iff.mp hc).1
  by_cases hmain : ∃ k, p.main = .spawning k
  · obtain ⟨k, hk⟩ := hmain
    obtain ⟨hlength, hle⟩ := h.spawning k hk
    omega
  · have hlength := h.started (not_exists.mp hmain)
    omega

/-- A step of a thread. -/
theorem OnSchedule.thread (h : p.OnSchedule g args) {i : Nat} {c c' : Client}
    (hmain : p.main ≠ .finished) (hc : p.threads[i]? = some c) (hattains : g.Attains args)
    (hstep : stepClient g args c = some c') :
    OnSchedule g args ⟨p.main, p.threads.set i c'⟩ ∧
      remaining g args ⟨p.main, p.threads.set i c'⟩ < p.remaining g args := by
  obtain ⟨hc', hlt⟩ := (h.threads i c hc).step hattains hstep
  refine ⟨⟨h.threads.set hc' fun _ _ _ _ hold => hold, ?_, ?_, ?_, ?_⟩, ?_⟩
  · rw [List.length_set]
    exact h.spawning
  · rw [List.length_set]
    exact h.started
  · intro k hk j x hj hx
    rcases getElem?_set_cases hx with ⟨rfl, rfl⟩ | ⟨-, hx⟩
    · -- A thread that was joined has ended, and takes no more steps.
      have hdone := h.joining k hk j c hj hc
      exact absurd hstep (by simp [stepClient, hdone])
    · exact h.joining k hk j x hj hx
  · exact fun hfinished => absurd hfinished hmain
  · have hsum := sum_map_set_add (f := Client.remaining g args) (b := c') hc
    show mainRemaining g args p + ((p.threads.set i c').map (Client.remaining g args)).sum
      < mainRemaining g args p + (p.threads.map (Client.remaining g args)).sum
    omega

/-- A step of `main`. -/
theorem OnSchedule.main (h : p.OnSchedule g args) (hstep : MainEffect args p p') :
    p'.OnSchedule g args ∧ p'.remaining g args < p.remaining g args := by
  cases hstep with
  | spawn i hmain hlt =>
    obtain ⟨hlength, hle⟩ := h.spawning i hmain
    refine ⟨⟨?_, ?_, ?_, ?_, ?_⟩, ?_⟩
    · intro j x hx
      rcases List.mem_append.mp (List.mem_of_getElem? hx) with hold | hnew
      · obtain ⟨k, hk⟩ := List.getElem?_of_mem hold
        exact h.threads k x hk
      · rw [List.mem_singleton.mp hnew]
        exact ⟨rfl, rfl⟩
    · intro j hj
      obtain rfl := Main.spawning.inj hj
      rw [List.length_append, List.length_singleton, hlength]
      exact ⟨rfl, by omega⟩
    · exact fun hnot => absurd rfl (hnot _)
    · exact fun j hj => absurd hj (by simp)
    · exact fun hfinished => absurd hfinished (by simp)
    · -- The thread's steps are taken from those set aside for it.
      have hleft : args.no_of_clients.toNat - i = (args.no_of_clients.toNat - (i + 1)) + 1 := by
        omega
      simp only [remaining, mainRemaining, hmain, List.map_append, List.sum_append,
        List.map_singleton, List.sum_singleton, hleft, Nat.succ_mul]
      omega
  | turn i hmain hge =>
    obtain ⟨hlength, hle⟩ := h.spawning i hmain
    refine ⟨⟨h.threads, ?_, ?_, ?_, ?_⟩, ?_⟩
    · exact fun j hj => absurd hj (by simp)
    · intro _
      show p.threads.length = _
      omega
    · intro j hj k x hk
      obtain rfl := Main.joining.inj hj
      exact absurd hk (Nat.not_lt_zero k)
    · exact fun hfinished => absurd hfinished (by simp)
    · simp only [remaining, mainRemaining, hmain]
      omega
  | join i c hmain hlt hc hdone =>
    have hlength := h.started (by simp [hmain])
    refine ⟨⟨h.threads, ?_, fun _ => hlength, ?_, ?_⟩, ?_⟩
    · exact fun j hj => absurd hj (by simp)
    · -- The thread that was joined has ended, as those before it.
      intro j hj k x hk hx
      obtain rfl := Main.joining.inj hj
      rcases Nat.lt_succ_iff_lt_or_eq.mp hk with hearlier | rfl
      · exact h.joining i hmain k x hearlier hx
      · obtain rfl := Option.some.inj (hc.symm.trans hx)
        exact hdone
    · exact fun hfinished => absurd hfinished (by simp)
    · simp only [remaining, mainRemaining, hmain]
      omega
  | finish i hmain hge =>
    have hlength := h.started (by simp [hmain])
    refine ⟨⟨h.threads, ?_, fun _ => hlength, ?_, ?_⟩, ?_⟩
    · exact fun j hj => absurd hj (by simp)
    · exact fun j hj => absurd hj (by simp)
    · intro _ k x hx
      have hk : k < p.threads.length := (List.getElem?_eq_some_iff.mp hx).1
      exact h.joining i hmain k x (by omega) hx
    · simp only [remaining, mainRemaining, hmain]
      omega

/-- **Step lemma.** -/
theorem OnSchedule.step (hattains : 0 < args.no_of_clients → g.Attains args)
    (h : p.OnSchedule g args) {a : Action} (hstep : (program g args).step p a = some p') :
    p'.OnSchedule g args ∧ p'.remaining g args < p.remaining g args := by
  rcases program_step_cases hstep with hmain | ⟨i, c, c', hmain, hc, hc', rfl⟩
  · exact h.main hmain
  · exact h.thread hmain hc (hattains (h.clients_pos hc)) hc'

/-- The calls of threads that all sent the same. -/
theorem calls_eq {rounds : List Nat} (h : ∀ c ∈ p.threads, c.rounds = rounds) :
    p.calls = p.threads.length * rounds.sum := by
  have hmap : p.threads.map (fun c => c.rounds.sum)
      = List.replicate p.threads.length rounds.sum := by
    refine List.eq_replicate_iff.mpr ⟨List.length_map _, fun x hx => ?_⟩
    obtain ⟨c, hc, rfl⟩ := List.mem_map.mp hx
    rw [h c hc]
  rw [calls, hmap, List.sum_replicate_nat]

/-- A program on schedule that cannot go on has completed. -/
theorem OnSchedule.completed (h : p.OnSchedule g args) (hstuck : (program g args).Stuck p) :
    p.Completed args.seconds.toNat args.reqps.toNat args.no_of_clients.toNat := by
  have hmain := hstuck .main
  have hfinished : p.main = .finished := by
    cases hp : p.main with
    | finished => rfl
    | spawning i =>
      simp only [program, stepProgram, stepMain, hp] at hmain
      split at hmain
      · exact absurd hmain (by simp)
      · exact absurd hmain (by simp)
    | joining i =>
      have hlength := h.started (by simp [hp])
      simp only [program, stepProgram, stepMain, hp] at hmain
      split at hmain
      · next hlt =>
        have hi : i < p.threads.length := by omega
        have hget := List.getElem?_eq_getElem hi
        rw [hget] at hmain
        by_cases hdone : p.threads[i].position = .done
        · exact absurd hmain (by simp [hdone])
        · -- The thread that `main` waits for can go on.
          obtain ⟨c', hc'⟩ := (h.threads i _ hget).exists_step hdone
          have hthread := hstuck (.thread i)
          simp only [program, stepProgram, hp, hget, hc'] at hthread
          exact absurd hthread (by simp)
      · exact absurd hmain (by simp)
  have hdone : ∀ c ∈ p.threads, c.position = .done ∧
      c.rounds = List.replicate args.seconds.toNat args.reqps.toNat := by
    intro c hc
    obtain ⟨i, hi⟩ := List.getElem?_of_mem hc
    have hposition := h.finished hfinished i c hi
    have hschedule := h.threads i c hi
    unfold Client.OnSchedule at hschedule
    rw [hposition] at hschedule
    exact ⟨hposition, hschedule⟩
  have hlength := h.started (by simp [hfinished])
  refine ⟨hfinished, hlength, hdone, ?_⟩
  rw [calls_eq fun c hc => (hdone c hc).2, hlength, List.sum_replicate_nat, Nat.mul_assoc]

end Program

/-- **Run lemma.** Every interleaving ends, and ends with all rounds sent. -/
theorem program_halts {g : Generator} {args : Arguments}
    (hattains : 0 < args.no_of_clients → g.Attains args) :
    (program g args).Halts {}
      (Program.Completed args.seconds.toNat args.reqps.toNat args.no_of_clients.toNat) :=
  Machine.Halts.of_measure (fun _ _ _ h hstep => h.step hattains hstep)
    (fun _ h hstuck => h.completed hstuck) Program.OnSchedule.initial

/-! ### A counter that never equals `seconds` -/

/-- The counter only takes values that differ from `seconds`. -/
def Generator.Misses (g : Generator) (args : Arguments) : Prop :=
  args.seconds < 0 ∨ (.count ∉ g.afterRound ∧ args.seconds ≠ 0)

/-- A thread that has not left its loop, with a counter that was incremented at most after its
    rounds. -/
structure Client.Astray (g : Generator) (c : Client) : Prop where
  inside : c.position ≠ .closing ∧ c.position ≠ .done
  nonneg : 0 ≤ c.counter
  uncounted : .count ∉ g.afterRound →
    c.counter = 0 ∧ ∀ rest, c.position = .resting rest → .count ∉ rest

section

variable {g : Generator} {args : Arguments}

/-- A step that leaves the counter as it is, and does not leave the loop. -/
theorem Client.Astray.moved {c c' : Client} (h : c.Astray g) (hcounter : c'.counter = c.counter)
    (hinside : c'.position ≠ .closing ∧ c'.position ≠ .done)
    (hrest : .count ∉ g.afterRound → ∀ rest, c'.position = .resting rest → .count ∉ rest) :
    c'.Astray g where
  inside := hinside
  nonneg := by
    rw [hcounter]
    exact h.nonneg
  uncounted hno := ⟨hcounter.trans (h.uncounted hno).1, hrest hno⟩

/-- **Step lemma.** Such a thread never leaves its loop. -/
theorem Client.Astray.step {c c' : Client} (hmisses : g.Misses args) (h : c.Astray g)
    (hstep : stepClient g args c = some c') : c'.Astray g := by
  cases stepClient_effect hstep with
  | opens counter rounds => exact h.moved rfl ⟨by simp, by simp⟩ (by simp)
  | leaves counter rounds heq =>
    -- The counter would have to equal `seconds`.
    rcases hmisses with hnegative | ⟨hno, hne⟩
    · exact absurd (heq ▸ h.nonneg) (Int.not_le.mpr hnegative)
    · exact absurd (heq.symm.trans (h.uncounted hno).1) hne
  | begins counter rounds _ => exact h.moved rfl ⟨by simp, by simp⟩ (by simp)
  | calls i counter rounds _ => exact h.moved rfl ⟨by simp, by simp⟩ (by simp)
  | ends i counter rounds _ =>
    refine h.moved rfl ⟨by simp, by simp⟩ fun hno rest hrest => ?_
    obtain rfl := Position.resting.inj hrest
    exact hno
  | returns counter rounds => exact h.moved rfl ⟨by simp, by simp⟩ (by simp)
  | sleeps rest counter rounds =>
    refine h.moved rfl ⟨by simp, by simp⟩ fun hno rest' hrest => ?_
    obtain rfl := Position.resting.inj hrest
    exact fun hmem => (h.uncounted hno).2 _ rfl (List.mem_cons_of_mem _ hmem)
  | overflows rest counter rounds _ => exact h.moved rfl ⟨by simp, by simp⟩ (by simp)
  | counts rest counter rounds _ =>
    -- A generator that comes here increments its counter.
    refine ⟨⟨by simp, by simp⟩, Int.add_nonneg h.nonneg Int.one_nonneg, fun hno => ?_⟩
    exact absurd List.mem_cons_self ((h.uncounted hno).2 _ rfl)
  | closes counter rounds => exact absurd rfl h.inside.1

theorem astray_step {p p' : Program} {a : Action} (hmisses : g.Misses args)
    (h : Everywhere (Client.Astray g) p.threads) (hstep : (program g args).step p a = some p') :
    Everywhere (Client.Astray g) p'.threads := by
  have hnew : Client.Astray g {} := ⟨⟨by simp, by simp⟩, Int.le_refl 0, fun _ => ⟨rfl, by simp⟩⟩
  rcases program_step_cases hstep with hmain | ⟨i, c, c', -, hc, hc', rfl⟩
  · cases hmain with
    | spawn i _ _ =>
      intro j x hx
      rcases List.mem_append.mp (List.mem_of_getElem? hx) with hold | hadded
      · obtain ⟨k, hk⟩ := List.getElem?_of_mem hold
        exact h k x hk
      · rw [List.mem_singleton.mp hadded]
        exact hnew
    | turn i _ _ => exact h
    | join i c _ _ _ _ => exact h
    | finish i _ _ => exact h
  · exact h.set ((h i c hc).step hmisses hc') fun _ _ _ _ hold => hold

/-- **Run lemma.** Where the counter misses `seconds`, a program with a client never
    completes. -/
theorem not_completed_of_misses (hmisses : g.Misses args) {p : Program} {seconds reqps n : Nat}
    (hp : (program g args).Reaches {} p) (hn : 0 < n) : ¬ p.Completed seconds reqps n := by
  intro hcompleted
  obtain ⟨as, hrun⟩ := hp
  have hastray : Everywhere (Client.Astray g) p.threads :=
    Machine.invariant_run (I := fun p => Everywhere (Client.Astray g) p.threads)
      (fun _ _ _ h hstep => astray_step hmisses h hstep)
      (fun i c hc => absurd hc (by simp)) hrun
  have hfirst : 0 < p.threads.length := by
    rw [hcompleted.clients]
    exact hn
  have hdone := (hcompleted.done p.threads[0] (List.getElem_mem hfirst)).1
  exact (hastray 0 _ (List.getElem?_eq_getElem hfirst)).inside.2 hdone

end

end ThriftBench.Load
