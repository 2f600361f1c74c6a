import Mathlib.Logic.Function.Basic
import ThriftBench.Lib.Remote
import ThriftBench.Load.Schedule

namespace ThriftBench.Load

open Lib

/-!
# Load clients — with the server they call

Here a thread has a connection of its own, and its calls are those of a generated client.  A call
that throws ends the whole process: nothing catches the exception, neither in
`run_workload_gen` nor in `main`.

* `Workload`, `Workload.machine` — a copy of the program with its calls, the connections and the
  server, in any interleaving;
* `Workload.Tied` — what the rounds of a thread have to do with the outcomes on its connection;
* `Workload.Accounted`, `Workload.accounted_of_run` — hence every run is a run of the program
  and a run of the server.
-/

/-- A copy of the program and what it calls.  `ξ` is what the program draws for a call. -/
structure Workload {L τ σ α β : Type} (link : Link L τ) (B : Backend σ α β)
    (ε ι ρ ξ : Type) where
  generator : Generator
  remote : Remote link B ε ι ρ
  /-- The call, with its arguments. -/
  ask : ξ → ι
  /-- The call returns; otherwise it throws. -/
  returns : ρ → Bool

/-- The thread is about to call, or waits for the answer. -/
def Client.calling (g : Generator) (args : Arguments) (c : Client) : Bool :=
  match c.position with
  | .looping i => g.continues i args.reqps
  | _          => false

/-- The thread has called `trans->open()`. -/
def Client.opened (c : Client) : Bool := c.position != .opening

/-! ### What a thread has called -/

/-- A thread in the inner loop has begun a round, and one that is not opened has not. -/
structure Client.Begun (c : Client) : Prop where
  unopened : c.position = .opening → c.rounds = []
  looping : ∀ i, c.position = .looping i → c.rounds ≠ []

section

variable {g : Generator} {args : Arguments} {c c' : Client}

/-- A call is counted when it returns, and nothing else is. -/
theorem Client.Begun.sum_rounds (h : c.Begun) (hstep : stepClient g args c = some c') :
    c'.rounds.sum = c.rounds.sum + if c.calling g args = true then 1 else 0 := by
  cases stepClient_effect hstep with
  | begins counter rounds _ => exact List.sum_cons.trans (Nat.zero_add _)
  | calls i counter rounds hcontinues =>
    -- The call is counted in the round that has been begun.
    cases rounds with
    | nil => exact absurd rfl (h.looping i rfl)
    | cons round rounds =>
      show round + 1 + rounds.sum = round + rounds.sum
        + if g.continues i args.reqps = true then 1 else 0
      rw [if_pos hcontinues]
      omega
  | ends i counter rounds hstops =>
    show _ = rounds.sum + if g.continues i args.reqps = true then 1 else 0
    rw [hstops]
    rfl
  | opens | leaves | returns | sleeps | overflows | counts | closes => rfl

/-- A thread that calls has opened its transport. -/
theorem Client.opened_of_calling (hcalling : c.calling g args = true) : c.opened = true := by
  cases hposition : c.position with
  | opening => exact absurd hcalling (by simp [Client.calling, hposition])
  | _ => simp [Client.opened, hposition]

/-- **Step lemma.** -/
theorem Client.Begun.step (h : c.Begun) (hstep : stepClient g args c = some c') :
    c'.Begun ∧ c'.opened = true := by
  cases stepClient_effect hstep with
  | begins counter rounds _ => exact ⟨⟨by simp, fun _ _ => List.cons_ne_nil _ _⟩, rfl⟩
  | calls i counter rounds _ =>
    refine ⟨⟨by simp, fun _ _ => ?_⟩, rfl⟩
    cases rounds with
    | nil => exact absurd rfl (h.looping i rfl)
    | cons round rounds => exact List.cons_ne_nil _ _
  | opens | leaves | ends | returns | sleeps | overflows | counts | closes =>
    exact ⟨⟨by simp, by simp⟩, rfl⟩

/-- **Run lemma.** -/
theorem begun_of_reaches {p : Program} (hp : (program g args).Reaches {} p) :
    Everywhere Client.Begun p.threads := by
  obtain ⟨as, hrun⟩ := hp
  have hnew : Client.Begun {} := ⟨fun _ => rfl, by simp⟩
  refine Machine.invariant_run (I := fun p => Everywhere Client.Begun p.threads) ?_
    (fun i c hc => absurd hc (by simp)) hrun
  intro p a p' h hstep
  rcases program_step_cases hstep with hmain | ⟨i, c, c', -, hc, hc', rfl⟩
  · cases hmain with
    | spawn i _ _ =>
      intro j x hx
      rcases getElem?_concat_cases hx with hold | ⟨-, rfl⟩
      · exact h j x hold
      · exact hnew
    | turn i _ _ => exact h
    | join i c _ _ _ _ => exact h
    | finish i _ _ => exact h
  · exact h.set ((h i c hc).step hc').1 fun _ _ _ _ hold => hold

end

namespace Workload

variable {L τ σ α β ε ι ρ ξ : Type} {link : Link L τ} {B : Backend σ α β}

/-- The process, the connections and the server. -/
structure State (W : Workload link B ε ι ρ ξ) where
  program : Program := {}
  remote : W.remote.State
  /-- The connections of the threads that have one. -/
  connection : Nat → Nat := fun _ => 0
  /-- `std::terminate` was called. -/
  terminated : Bool := false

/-- Who takes a step: `main`, a thread, the server, or the network. -/
inductive Step (ξ : Type) where
  /-- A step of `main`. -/
  | main
  /-- A step of a thread that is not part of a call. -/
  | thread (i : Nat)
  /-- A thread sends its call. -/
  | call (i : Nat) (x : ξ)
  /-- A thread reads the answer. -/
  | answer (i : Nat)
  /-- The server reads a message and answers it. -/
  | serve (k : Nat)
  /-- A connection breaks. -/
  | drop (k : Nat)

section

variable (W : Workload link B ε ι ρ ξ) (args : Arguments)

/-- A thread, as long as the process runs. -/
def threadOf (s : W.State) (i : Nat) : Option Client :=
  if s.program.main = .finished then none else s.program.threads[i]?

/-- A step of the program alone. -/
def advance (s : W.State) (i : Nat) : Option Program :=
  stepProgram W.generator args s.program (.thread i)

/-- A step of thread `i` that is not part of a call. -/
def stepThread (s : W.State) (i : Nat) (c : Client) : Option W.State :=
  match c.position with
  | .opening =>
    (W.remote.system.step s.remote .connect).bind fun r =>
      if r.undefined = true then some { s with remote := r }
      else (W.advance args s i).map fun p =>
        { s with program := p, remote := r,
                 connection := Function.update s.connection i s.remote.sessions.length }
  | .closing =>
    -- `close()` does nothing where the connection has been lost already.
    (W.advance args s i).map fun p =>
      { s with program := p,
               remote := (W.remote.system.step s.remote (.act (s.connection i) .drop)).getD
                 s.remote }
  | _ => (W.advance args s i).map fun p => { s with program := p }

/-- A thread sends its call; on a lost connection that throws, and so does a message that is
    refused. -/
def stepCall (s : W.State) (i : Nat) (x : ξ) : Option W.State :=
  s.remote.sessions[s.connection i]?.bind fun c =>
    if c.closed = true then some { s with terminated := true }
    else
      (W.remote.system.step s.remote (.act (s.connection i) (.send (W.ask x)))).bind fun r =>
        r.sessions[s.connection i]?.map fun c' =>
          { s with remote := r, terminated := c'.closed }

/-- A thread reads the answer to its call, which returns or throws. -/
def stepAnswer (s : W.State) (i : Nat) : Option W.State :=
  s.remote.sessions[s.connection i]?.bind fun c =>
    if c.pending.isNone = true then none
    else if c.closed = true then some { s with terminated := true }
    else
      (W.remote.system.step s.remote (.act (s.connection i) .recv)).bind fun r =>
        r.sessions[s.connection i]?.bind fun c' =>
          if c'.closed = true then some { s with remote := r, terminated := true }
          else
            c'.outcomes.getLast?.bind fun y =>
              if W.returns y = true then
                (W.advance args s i).map fun p => { s with program := p, remote := r }
              else some { s with remote := r, terminated := true }

/-- One step.  After `std::terminate` there is none. -/
def step (s : W.State) (a : Step ξ) : Option W.State :=
  if s.terminated = true then none
  else
    match a with
    | .main => (stepMain args s.program).map fun p => { s with program := p }
    | .thread i =>
      (W.threadOf s i).bind fun c =>
        if c.calling W.generator args = true then none else W.stepThread args s i c
    | .call i x =>
      (W.threadOf s i).bind fun c =>
        if c.calling W.generator args = true then W.stepCall s i x else none
    | .answer i =>
      (W.threadOf s i).bind fun c =>
        if c.calling W.generator args = true then W.stepAnswer args s i else none
    | .serve k =>
      (W.remote.system.step s.remote (.act k .serve)).map fun r => { s with remote := r }
    | .drop k =>
      (W.remote.system.step s.remote (.act k .drop)).map fun r => { s with remote := r }

/-- The runs of the whole. -/
def machine : Machine W.State (Step ξ) := ⟨W.step args⟩

/-- The process has just been started. -/
def start (b : σ) : W.State := { remote := W.remote.start b }

end

/-! ### What is on the connections -/

section

variable (W : Workload link B ε ι ρ ξ) (args : Arguments)

/-- A thread and its connection: every call that has returned is counted, and at most one is under
    way or has thrown. -/
structure Tied (terminated : Bool) (c : Client) (x : Session L ι ρ) : Prop where
  asked : ∀ y ∈ x.sent, ∃ z, W.ask z = y
  counted : x.outcomes.countP W.returns = c.rounds.sum
  sent : x.sent.length ≤ c.rounds.sum + 1
  balanced : x.sent.length = x.outcomes.length + x.pending.toList.length
  waits : x.pending.isSome = true → c.calling W.generator args = true
  returned : terminated = false → ∀ y ∈ x.outcomes, W.returns y = true

/-- The process is one that the program can reach, the connections and the server are those that
    clients can reach, and each thread is tied to a connection of its own. -/
structure Accounted (b : σ) (s : W.State) : Prop where
  program : (program W.generator args).Reaches {} s.program
  remote : W.remote.system.Reaches (W.remote.start b) s.remote
  tied : ∀ (i : Nat) c, s.program.threads[i]? = some c → c.opened = true →
    ∃ x, s.remote.sessions[s.connection i]? = some x ∧ W.Tied args s.terminated c x
  apart : ∀ (i j : Nat) c d, s.program.threads[i]? = some c → c.opened = true →
    s.program.threads[j]? = some d → d.opened = true → s.connection i = s.connection j → i = j
  owned : ∀ k < s.remote.sessions.length, ∃ (i : Nat) (c : Client),
    s.program.threads[i]? = some c ∧ c.opened = true ∧ s.connection i = k
  count : s.remote.sessions.length = s.program.threads.countP Client.opened

end

section

variable {W : Workload link B ε ι ρ ξ} {args : Arguments} {b : σ} {s s' : W.State}
  {c c' : Client} {x x' : Session L ι ρ} {i : Nat} {t : Bool}

/-- Only the calls and the outcomes matter. -/
theorem Tied.congr (h : W.Tied args t c x) (hpending : x'.pending = x.pending)
    (hsent : x'.sent = x.sent) (houtcomes : x'.outcomes = x.outcomes) : W.Tied args t c x' where
  asked := by
    rw [hsent]
    exact h.asked
  counted := by
    rw [houtcomes]
    exact h.counted
  sent := by
    rw [hsent]
    exact h.sent
  balanced := by
    rw [hsent, houtcomes, hpending]
    exact h.balanced
  waits := by
    rw [hpending]
    exact h.waits
  returned := by
    rw [houtcomes]
    exact h.returned

/-- After an exception nothing is left to be said of the answers. -/
theorem Tied.terminate (h : W.Tied args t c x) : W.Tied args true c x :=
  { h with returned := fun hfalse => absurd hfalse (by simp) }

/-- A step that is not part of a call. -/
theorem Tied.quiet (h : W.Tied args t c x) (hbegun : c.Begun)
    (hquiet : c.calling W.generator args = false)
    (hstep : stepClient W.generator args c = some c') : W.Tied args t c' x := by
  have hsum := hbegun.sum_rounds hstep
  rw [hquiet, if_neg Bool.false_ne_true, Nat.add_zero] at hsum
  refine ⟨h.asked, hsum ▸ h.counted, hsum ▸ h.sent, h.balanced, fun hpending => ?_, h.returned⟩
  exact absurd ((h.waits hpending).symm.trans hquiet) (by simp)

/-- Nothing is under way before a call, and everything sent so far has returned. -/
theorem Tied.idle (h : W.Tied args false c x) (hidle : x.pending = none) :
    x.sent.length = c.rounds.sum := by
  have hall : x.outcomes.countP W.returns = x.outcomes.length :=
    List.countP_eq_length.mpr (h.returned rfl)
  rw [h.balanced, hidle, ← h.counted, hall]
  rfl

/-- A call is sent. -/
theorem Tied.call {z : ξ} (h : W.Tied args false c x)
    (hcalling : c.calling W.generator args = true) (hidle : x.pending = none)
    (hpending : x'.pending = some (W.ask z)) (hsent : x'.sent = x.sent ++ [W.ask z])
    (houtcomes : x'.outcomes = x.outcomes) : W.Tied args false c x' where
  asked := by
    rw [hsent]
    intro y hy
    rcases List.mem_append.mp hy with hold | hnew
    · exact h.asked y hold
    · exact ⟨z, (List.mem_singleton.mp hnew).symm⟩
  counted := by
    rw [houtcomes]
    exact h.counted
  sent := by
    rw [hsent, List.length_append, h.idle hidle]
    exact Nat.le_refl _
  balanced := by
    rw [hsent, houtcomes, hpending, List.length_append, h.balanced, hidle]
    rfl
  waits _ := hcalling
  returned := by
    rw [houtcomes]
    exact h.returned

/-- An answer is read: the call returns and is counted, or it throws. -/
theorem Tied.answer {y : ι} {r : ρ} (h : W.Tied args false c x) (hbegun : c.Begun)
    (hcalling : c.calling W.generator args = true) (hwaits : x.pending = some y)
    (hpending : x'.pending = none) (hsent : x'.sent = x.sent)
    (houtcomes : x'.outcomes = x.outcomes ++ [r]) :
    (W.returns r = true → ∀ c', stepClient W.generator args c = some c' →
      W.Tied args false c' x') ∧
    (W.returns r = false → W.Tied args true c x') := by
  have hbalanced : x'.sent.length = x'.outcomes.length + x'.pending.toList.length := by
    rw [hsent, houtcomes, hpending, List.length_append, h.balanced, hwaits]
    rfl
  have hasked : ∀ y ∈ x'.sent, ∃ z, W.ask z = y := hsent ▸ h.asked
  refine ⟨fun hreturns c' hstep => ?_, fun hthrows => ?_⟩
  · have hsum := hbegun.sum_rounds hstep
    rw [if_pos hcalling] at hsum
    refine ⟨hasked, ?_, ?_, hbalanced, ?_, fun _ => ?_⟩
    · rw [houtcomes, List.countP_append, h.counted, List.countP_singleton, hreturns, hsum]
      rfl
    · rw [hsent, hsum]
      exact Nat.le_succ_of_le h.sent
    · rw [hpending]
      exact fun hsome => absurd hsome (by simp)
    · rw [houtcomes]
      intro z hz
      rcases List.mem_append.mp hz with hold | hnew
      · exact h.returned rfl z hold
      · rw [List.mem_singleton.mp hnew]
        exact hreturns
  · refine ⟨hasked, ?_, ?_, hbalanced, fun _ => hcalling, fun hfalse => absurd hfalse (by simp)⟩
    · rw [houtcomes, List.countP_append, h.counted, List.countP_singleton, hthrows]
      rfl
    · rw [hsent]
      exact h.sent

/-! ### One step of the whole -/

variable {p : Program} {r : W.remote.State}

theorem set_of_getElem? {κ : Type} {l : List κ} {k : Nat} {a : κ} (h : l[k]? = some a) :
    l.set k a = l := by
  obtain ⟨hk, rfl⟩ := List.getElem?_eq_some_iff.mp h
  exact List.set_getElem_self hk

/-- A step of an opened thread, and on its connection. -/
theorem Accounted.thread (h : Accounted W args b s) (hi : s.program.threads[i]? = some c)
    (hopened : c.opened = true) (hopened' : c'.opened = true)
    (hx : s.remote.sessions[s.connection i]? = some x)
    (hp : (Load.program W.generator args).Reaches {} p)
    (hthreads : p.threads = s.program.threads.set i c')
    (hr : W.remote.system.Reaches (W.remote.start b) r)
    (hsessions : r.sessions = s.remote.sessions.set (s.connection i) x')
    (hactive : s.terminated = false) (htied : W.Tied args t c' x') :
    Accounted W args b { s with program := p, remote := r, terminated := t } where
  program := hp
  remote := hr
  tied j d hj hd := by
    show ∃ y, r.sessions[s.connection j]? = some y ∧ _
    rw [hsessions]
    -- Thread `i` is tied to what is on its connection now, the others to what has been on theirs.
    rw [show (⟨p, r, s.connection, t⟩ : W.State).program.threads = _ from hthreads] at hj
    rcases getElem?_set_cases hj with ⟨rfl, rfl⟩ | ⟨hne, hold⟩
    · exact ⟨x', List.getElem?_set_self (List.getElem?_eq_some_iff.mp hx).1, htied⟩
    · obtain ⟨y, hy, hytied⟩ := h.tied j d hold hd
      have hapart : s.connection i ≠ s.connection j := fun heq =>
        hne (h.apart i j c d hi hopened hold hd heq).symm
      refine ⟨y, (List.getElem?_set_ne hapart).trans hy, ?_⟩
      -- What is known of the other threads is not less than what is to be known.
      cases t with
      | true => exact hytied.terminate
      | false => exact hactive ▸ hytied
  apart j k d e hj hd hk he heq := by
    have hopenedAt : ∀ (j : Nat) d, p.threads[j]? = some d → d.opened = true →
        ∃ d', s.program.threads[j]? = some d' ∧ d'.opened = true := by
      intro j d hj hd
      rw [hthreads] at hj
      rcases getElem?_set_cases hj with ⟨rfl, -⟩ | ⟨-, hold⟩
      · exact ⟨c, hi, hopened⟩
      · exact ⟨d, hold, hd⟩
    obtain ⟨d', hj', hd'⟩ := hopenedAt j d hj hd
    obtain ⟨e', hk', he'⟩ := hopenedAt k e hk he
    exact h.apart j k d' e' hj' hd' hk' he' heq
  owned k hk := by
    rw [show (⟨p, r, s.connection, t⟩ : W.State).remote.sessions = _ from hsessions,
      List.length_set] at hk
    obtain ⟨j, d, hj, hd, hconnection⟩ := h.owned k hk
    show ∃ j d, p.threads[j]? = some d ∧ _
    rw [hthreads]
    by_cases hij : i = j
    · -- The owner has taken the step, and it is still opened.
      subst hij
      exact ⟨i, c', List.getElem?_set_self (List.getElem?_eq_some_iff.mp hi).1, hopened',
        hconnection⟩
    · exact ⟨j, d, (List.getElem?_set_ne hij).trans hj, hd, hconnection⟩
  count := by
    show r.sessions.length = p.threads.countP Client.opened
    -- Neither the number of connections nor that of opened threads changes.
    have hcensus := countP_set_add (p := Client.opened) (b := c') hi
    rw [hopened, hopened'] at hcensus
    rw [hsessions, List.length_set, hthreads, h.count]
    exact (Nat.add_right_cancel hcensus).symm

/-- A step of the server, or the end of a connection. -/
theorem Accounted.wire {k : Nat} (h : Accounted W args b s)
    (hr : W.remote.system.Reaches (W.remote.start b) r)
    (hk : s.remote.sessions[k]? = some x) (hsessions : r.sessions = s.remote.sessions.set k x')
    (hpending : x'.pending = x.pending) (hsent : x'.sent = x.sent)
    (houtcomes : x'.outcomes = x.outcomes) : Accounted W args b { s with remote := r } where
  program := h.program
  remote := hr
  tied j d hj hd := by
    obtain ⟨y, hy, hytied⟩ := h.tied j d hj hd
    show ∃ y, r.sessions[s.connection j]? = some y ∧ _
    rw [hsessions]
    by_cases hkj : k = s.connection j
    · -- The calls and the outcomes on the connection are what they were.
      subst hkj
      obtain rfl := Option.some.inj (hk.symm.trans hy)
      exact ⟨x', List.getElem?_set_self (List.getElem?_eq_some_iff.mp hk).1,
        hytied.congr hpending hsent houtcomes⟩
    · exact ⟨y, (List.getElem?_set_ne hkj).trans hy, hytied⟩
  apart := h.apart
  owned k hk := by
    rw [show ({ s with remote := r } : W.State).remote.sessions = _ from hsessions,
      List.length_set] at hk
    exact h.owned k hk
  count := by
    show r.sessions.length = _
    rw [hsessions, List.length_set]
    exact h.count

/-- A step of `main`: the threads that it starts are not opened. -/
theorem Accounted.main (h : Accounted W args b s) (hstep : MainEffect args s.program p)
    (hp : (Load.program W.generator args).Reaches {} p) :
    Accounted W args b { s with program := p } := by
  have hsame : p.threads = s.program.threads →
      Accounted W args b { s with program := p } := fun hthreads =>
    { program := hp
      remote := h.remote
      tied := fun j d hj hd => h.tied j d (hthreads ▸ hj) hd
      apart := fun j k d e hj hd hk he => h.apart j k d e (hthreads ▸ hj) hd (hthreads ▸ hk) he
      owned := fun k hk => by
        obtain ⟨j, d, hj, hd⟩ := h.owned k hk
        exact ⟨j, d, hthreads ▸ hj, hd⟩
      count := h.count.trans (congrArg (List.countP Client.opened) hthreads.symm) }
  cases hstep with
  | turn _ _ _ => exact hsame rfl
  | join _ _ _ _ _ _ => exact hsame rfl
  | finish _ _ _ => exact hsame rfl
  | spawn n _ _ =>
    -- The new thread has not opened its transport, so nothing is said of it.
    have hold : ∀ (j : Nat) d, (s.program.threads ++ [({} : Client)])[j]? = some d →
        d.opened = true → s.program.threads[j]? = some d := by
      intro j d hj hd
      rcases getElem?_concat_cases hj with hold | ⟨-, rfl⟩
      · exact hold
      · exact absurd hd (by decide)
    refine ⟨hp, h.remote, fun j d hj hd => h.tied j d (hold j d hj hd) hd,
      fun j k d e hj hd hk he => h.apart j k d e (hold j d hj hd) hd (hold k e hk he) he,
      fun k hk => ?_, ?_⟩
    · obtain ⟨j, d, hj, hd⟩ := h.owned k hk
      have hlt := (List.getElem?_eq_some_iff.mp hj).1
      exact ⟨j, d, (List.getElem?_append_left hlt).trans hj, hd⟩
    show s.remote.sessions.length = (s.program.threads ++ [({} : Client)]).countP Client.opened
    rw [List.countP_append, h.count]
    rfl

/-- `trans->open()` -/
theorem Accounted.connect (h : Accounted W args b s) (hi : s.program.threads[i]? = some c)
    (hopening : c.position = .opening) (hstep : stepClient W.generator args c = some c')
    (hp : (Load.program W.generator args).Reaches {} p)
    (hthreads : p.threads = s.program.threads.set i c')
    (hr : W.remote.system.Reaches (W.remote.start b) r)
    (hsessions : r.sessions = s.remote.sessions ++ [W.remote.wiring.fresh]) :
    Accounted W args b { s with
      program := p, remote := r,
      connection := Function.update s.connection i s.remote.sessions.length } := by
  have hbegun := begun_of_reaches h.program i c hi
  have hunopened : c.opened = false := by
    rw [Client.opened, hopening]
    rfl
  have hlt : ∀ (j : Nat) d, s.program.threads[j]? = some d → d.opened = true →
      s.connection j < s.remote.sessions.length := by
    intro j d hj hd
    obtain ⟨y, hy, -⟩ := h.tied j d hj hd
    exact (List.getElem?_eq_some_iff.mp hy).1
  -- The other threads are where they were, and so are their connections.
  have hcases : ∀ (j : Nat) d, p.threads[j]? = some d → d.opened = true →
      (j = i ∧ d = c') ∨ (j ≠ i ∧ s.program.threads[j]? = some d) := by
    intro j d hj _
    rw [hthreads] at hj
    exact getElem?_set_cases hj
  refine ⟨hp, hr, ?_, ?_, ?_, ?_⟩
  · intro j d hj hd
    show ∃ y, r.sessions[Function.update s.connection i s.remote.sessions.length j]? = some y ∧ _
    rw [hsessions]
    rcases hcases j d hj hd with ⟨rfl, rfl⟩ | ⟨hne, hold⟩
    · -- Nothing has been called on the new connection, and no round has been begun.
      rw [Function.update_self, List.getElem?_append_right (Nat.le_refl _), Nat.sub_self]
      refine ⟨W.remote.wiring.fresh, rfl, ?_⟩
      have hsum := hbegun.sum_rounds hstep
      have hquiet : c.calling W.generator args = false := by
        rw [Client.calling, hopening]
      rw [hbegun.unopened hopening, hquiet, if_neg Bool.false_ne_true] at hsum
      refine ⟨fun y hy => absurd hy List.not_mem_nil, hsum.symm, Nat.zero_le _, rfl, ?_, ?_⟩
      · exact fun hsome => absurd hsome Bool.false_ne_true
      · exact fun _ y hy => absurd hy List.not_mem_nil
    · rw [Function.update_of_ne hne, List.getElem?_append_left (hlt j d hold hd)]
      exact h.tied j d hold hd
  · intro j k d e hj hd hk he heq
    -- The new connection comes after all those that other threads have.
    rcases hcases j d hj hd with ⟨rfl, -⟩ | ⟨hj', hold⟩
    · rcases hcases k e hk he with ⟨rfl, -⟩ | ⟨hk', hold'⟩
      · rfl
      · simp only [Function.update_self, Function.update_of_ne hk'] at heq
        exact absurd heq.symm (Nat.ne_of_lt (hlt k e hold' he))
    · rcases hcases k e hk he with ⟨rfl, -⟩ | ⟨hk', hold'⟩
      · simp only [Function.update_self, Function.update_of_ne hj'] at heq
        exact absurd heq (Nat.ne_of_lt (hlt j d hold hd))
      · simp only [Function.update_of_ne hj', Function.update_of_ne hk'] at heq
        exact h.apart j k d e hold hd hold' he heq
  · intro k hk
    show ∃ (j : Nat) (d : Client), p.threads[j]? = some d ∧ d.opened = true ∧
      Function.update s.connection i s.remote.sessions.length j = k
    rw [show ({ s with remote := r } : W.State).remote.sessions = _ from hsessions,
      List.length_append, List.length_singleton] at hk
    rw [hthreads]
    rcases Nat.lt_succ_iff_lt_or_eq.mp hk with hearlier | rfl
    · obtain ⟨j, d, hj, hd, rfl⟩ := h.owned k hearlier
      -- The thread that opens its transport had no connection.
      have hne : i ≠ j := by
        rintro rfl
        obtain rfl := Option.some.inj (hi.symm.trans hj)
        exact absurd (hunopened.symm.trans hd) (by simp)
      exact ⟨j, d, (List.getElem?_set_ne hne).trans hj, hd, Function.update_of_ne hne.symm _ _⟩
    · exact ⟨i, c', List.getElem?_set_self (List.getElem?_eq_some_iff.mp hi).1,
        (hbegun.step hstep).2, Function.update_self _ _ _⟩
  · show r.sessions.length = p.threads.countP Client.opened
    have hcensus := countP_set_add (p := Client.opened) (b := c') hi
    rw [hunopened, (hbegun.step hstep).2] at hcensus
    rw [hsessions, List.length_append, hthreads, h.count]
    exact hcensus.symm

/-- A thread that takes a step is one of the program, which runs. -/
theorem threadOf_eq_some (h : W.threadOf s i = some c) :
    s.program.main ≠ .finished ∧ s.program.threads[i]? = some c := by
  unfold threadOf at h
  split at h
  · cases h
  · next hmain => exact ⟨hmain, h⟩

/-- **Inversion.** A step of the program alone is one of the thread. -/
theorem advance_cases (hi : W.threadOf s i = some c) (h : W.advance args s i = some p) :
    (program W.generator args).step s.program (.thread i) = some p ∧
      ∃ c', stepClient W.generator args c = some c' ∧
        p.threads = s.program.threads.set i c' := by
  refine ⟨h, ?_⟩
  obtain ⟨hmain, hi⟩ := threadOf_eq_some hi
  simp only [advance, stepProgram, hi, if_neg hmain] at h
  obtain ⟨c', hc', rfl⟩ := Option.map_eq_some_iff.mp h
  exact ⟨c', hc', rfl⟩

/-- One more step of the program. -/
theorem Accounted.reaches (h : Accounted W args b s) {a : Action}
    (hstep : (Load.program W.generator args).step s.program a = some p) :
    (Load.program W.generator args).Reaches {} p :=
  h.program.trans (.head hstep (.refl p))

/-- One more step of the clients and the server. -/
theorem Accounted.reaches_remote (h : Accounted W args b s) {a : W.remote.Step}
    (hstep : W.remote.system.step s.remote a = some r) :
    W.remote.system.Reaches (W.remote.start b) r :=
  h.remote.trans (.head hstep (.refl r))

/-- A step of a thread that is not part of a call. -/
theorem Accounted.quiet (h : Accounted W args b s) (hactive : s.terminated = false)
    (hi : W.threadOf s i = some c) (hquiet : c.calling W.generator args = false)
    (hstep : W.stepThread args s i c = some s') : Accounted W args b s' := by
  have hthread := (threadOf_eq_some hi).2
  have hbegun := begun_of_reaches h.program i c hthread
  -- A step of an opened thread, after which `x'` is on its connection.
  have hopened : c.opened = true → ∀ {p r x x'}, W.advance args s i = some p →
      W.remote.system.Reaches (W.remote.start b) r →
      s.remote.sessions[s.connection i]? = some x → W.Tied args s.terminated c x →
      r.sessions = s.remote.sessions.set (s.connection i) x' → x'.pending = x.pending →
      x'.sent = x.sent → x'.outcomes = x.outcomes →
      Accounted W args b { s with program := p, remote := r } := by
    intro hopen p r x x' hadvance hr hx htied hsessions hpending hsent houtcomes
    obtain ⟨hprogram, c', hc', hthreads⟩ := advance_cases hi hadvance
    have htied' := (htied.quiet hbegun hquiet hc').congr hpending hsent houtcomes
    exact h.thread hthread hopen (hbegun.step hc').2 hx (h.reaches hprogram) hthreads hr hsessions
      hactive htied'
  unfold stepThread at hstep
  split at hstep
  · next hopening =>
    obtain ⟨r, hconnect, hstep⟩ := Option.bind_eq_some_iff.mp hstep
    rcases Remote.step_connect_cases hconnect with ⟨hundefined, hsessions⟩ | ⟨hdefined, hsessions⟩
    · -- The server has no defined behaviour, and the program stays where it is.
      rw [if_pos hundefined] at hstep
      obtain rfl := Option.some.inj hstep
      exact ⟨h.program, h.reaches_remote hconnect,
        fun j d hj hd => (h.tied j d hj hd).imp fun y hy => ⟨hsessions ▸ hy.1, hy.2⟩, h.apart,
        fun k hk => h.owned k (hsessions ▸ hk), (congrArg List.length hsessions).trans h.count⟩
    · rw [hdefined, if_neg Bool.false_ne_true] at hstep
      obtain ⟨p, hadvance, rfl⟩ := Option.map_eq_some_iff.mp hstep
      obtain ⟨hprogram, c', hc', hthreads⟩ := advance_cases hi hadvance
      exact h.connect hthread hopening hc' (h.reaches hprogram) hthreads
        (h.reaches_remote hconnect) hsessions
  · next hclosing =>
    obtain ⟨p, hadvance, rfl⟩ := Option.map_eq_some_iff.mp hstep
    have hopen : c.opened = true := by
      rw [Client.opened, hclosing]
      rfl
    obtain ⟨x, hx, htied⟩ := h.tied i c hthread hopen
    cases hdrop : W.remote.system.step s.remote (.act (s.connection i) .drop) with
    | none =>
      -- The connection had been lost before.
      exact hopened hopen hadvance h.remote hx htied (set_of_getElem? hx).symm rfl rfl rfl
    | some r =>
      obtain ⟨y, x', hy, -, heffect, hsessions⟩ := Remote.step_act_cases hdrop
      obtain rfl := Option.some.inj (hx.symm.trans hy)
      cases heffect with
      | ended _ hpending hsent houtcomes =>
        exact hopened hopen hadvance (h.reaches_remote hdrop) hx htied hsessions hpending hsent
          houtcomes
  · next hnot _ =>
    obtain ⟨p, hadvance, rfl⟩ := Option.map_eq_some_iff.mp hstep
    have hopen : c.opened = true := bne_iff_ne.mpr hnot
    obtain ⟨x, hx, htied⟩ := h.tied i c hthread hopen
    exact hopened hopen hadvance h.remote hx htied (set_of_getElem? hx).symm rfl rfl rfl

/-- A thread sends its call. -/
theorem Accounted.call {y : ξ} (h : Accounted W args b s) (hactive : s.terminated = false)
    (hi : W.threadOf s i = some c) (hcalling : c.calling W.generator args = true)
    (hstep : W.stepCall s i y = some s') : Accounted W args b s' := by
  have hthread := (threadOf_eq_some hi).2
  have hopen := Client.opened_of_calling hcalling
  obtain ⟨x, hx, htied⟩ := h.tied i c hthread hopen
  have hsame : s.program.threads = s.program.threads.set i c := (set_of_getElem? hthread).symm
  unfold stepCall at hstep
  rw [hx, Option.bind_some] at hstep
  split at hstep
  · -- The connection had been lost: the call throws.
    obtain rfl := Option.some.inj hstep
    exact h.thread hthread hopen hopen hx h.program hsame h.remote (set_of_getElem? hx).symm hactive
      htied.terminate
  · obtain ⟨r, hsend, hstep⟩ := Option.bind_eq_some_iff.mp hstep
    obtain ⟨z, x', hz, hopenz, heffect, hsessions⟩ := Remote.step_act_cases hsend
    obtain rfl := Option.some.inj (hx.symm.trans hz)
    have hx' : r.sessions[s.connection i]? = some x' := by
      rw [hsessions]
      exact List.getElem?_set_self (List.getElem?_eq_some_iff.mp hx).1
    rw [hx', Option.map_some] at hstep
    obtain rfl := Option.some.inj hstep
    refine h.thread hthread hopen hopen hx h.program hsame (h.reaches_remote hsend) hsessions
      hactive ?_
    rw [hactive] at htied
    cases heffect with
    | ended hclosed hpending hsent houtcomes =>
      -- The message was refused, so that it is not under way.
      rw [hclosed]
      exact htied.terminate.congr hpending hsent houtcomes
    | sent _ hidle hclosed hpending hsent houtcomes =>
      rw [hclosed, hopenz]
      exact htied.call hcalling hidle hpending hsent houtcomes

/-- A thread reads the answer to its call. -/
theorem Accounted.answer (h : Accounted W args b s) (hactive : s.terminated = false)
    (hi : W.threadOf s i = some c) (hcalling : c.calling W.generator args = true)
    (hstep : W.stepAnswer args s i = some s') : Accounted W args b s' := by
  have hthread := (threadOf_eq_some hi).2
  have hbegun := begun_of_reaches h.program i c hthread
  have hopen := Client.opened_of_calling hcalling
  obtain ⟨x, hx, htied⟩ := h.tied i c hthread hopen
  have hsame : s.program.threads = s.program.threads.set i c := (set_of_getElem? hthread).symm
  unfold stepAnswer at hstep
  rw [hx, Option.bind_some] at hstep
  split at hstep
  · cases hstep
  · split at hstep
    · obtain rfl := Option.some.inj hstep
      exact h.thread hthread hopen hopen hx h.program hsame h.remote (set_of_getElem? hx).symm
        hactive htied.terminate
    · obtain ⟨r, hrecv, hstep⟩ := Option.bind_eq_some_iff.mp hstep
      obtain ⟨z, x', hz, hopenz, heffect, hsessions⟩ := Remote.step_act_cases hrecv
      obtain rfl := Option.some.inj (hx.symm.trans hz)
      have hx' : r.sessions[s.connection i]? = some x' := by
        rw [hsessions]
        exact List.getElem?_set_self (List.getElem?_eq_some_iff.mp hx).1
      rw [hx', Option.bind_some] at hstep
      rw [hactive] at htied
      have hterminate : W.Tied args true c x' → Accounted W args b
          { s with remote := r, terminated := true } :=
        h.thread hthread hopen hopen hx h.program hsame (h.reaches_remote hrecv) hsessions hactive
      cases heffect with
      | ended hclosed hpending hsent houtcomes =>
        -- What has come cannot be read as an answer.
        rw [if_pos hclosed] at hstep
        obtain rfl := Option.some.inj hstep
        exact hterminate (htied.terminate.congr hpending hsent houtcomes)
      | received y o hwaits hclosed hpending hsent houtcomes =>
        obtain ⟨hreturned, hthrown⟩ :=
          htied.answer hbegun hcalling hwaits hpending hsent houtcomes
        rw [hclosed, hopenz, if_neg Bool.false_ne_true, houtcomes, List.getLast?_concat,
          Option.bind_some] at hstep
        -- A call that returns is counted by the step of the thread; one that throws is not.
        split at hstep
        · next hreturns =>
          obtain ⟨p, hadvance, rfl⟩ := Option.map_eq_some_iff.mp hstep
          obtain ⟨hprogram, c', hc', hthreads⟩ := advance_cases hi hadvance
          rw [← hactive] at hreturned
          exact h.thread hthread hopen (hbegun.step hc').2 hx (h.reaches hprogram) hthreads
            (h.reaches_remote hrecv) hsessions hactive (hreturned hreturns c' hc')
        · next hthrows =>
          obtain rfl := Option.some.inj hstep
          exact hterminate (hthrown (Bool.eq_false_iff.mpr hthrows))

/-- **Step lemma.** -/
theorem Accounted.step {a : Step ξ} (h : Accounted W args b s)
    (hstep : (W.machine args).step s a = some s') : Accounted W args b s' := by
  simp only [machine, Workload.step] at hstep
  split at hstep
  · cases hstep
  · next hnot =>
    have hactive := Bool.eq_false_iff.mpr hnot
    cases a with
    | main =>
      obtain ⟨p, hp, rfl⟩ := Option.map_eq_some_iff.mp hstep
      exact h.main (stepMain_effect hp) (h.reaches (a := .main) hp)
    | thread i =>
      obtain ⟨c, hi, hstep⟩ := Option.bind_eq_some_iff.mp hstep
      split at hstep
      · cases hstep
      · next hquiet => exact h.quiet hactive hi (Bool.eq_false_iff.mpr hquiet) hstep
    | call i x =>
      obtain ⟨c, hi, hstep⟩ := Option.bind_eq_some_iff.mp hstep
      split at hstep
      · next hcalling => exact h.call hactive hi hcalling hstep
      · cases hstep
    | answer i =>
      obtain ⟨c, hi, hstep⟩ := Option.bind_eq_some_iff.mp hstep
      split at hstep
      · next hcalling => exact h.answer hactive hi hcalling hstep
      · cases hstep
    | serve k =>
      obtain ⟨r, hserve, rfl⟩ := Option.map_eq_some_iff.mp hstep
      obtain ⟨x, x', hx, -, heffect, hsessions⟩ := Remote.step_act_cases hserve
      cases heffect with
      | ended _ hpending hsent houtcomes =>
        exact h.wire (h.reaches_remote hserve) hx hsessions hpending hsent houtcomes
      | served _ hpending hsent houtcomes =>
        exact h.wire (h.reaches_remote hserve) hx hsessions hpending hsent houtcomes
    | drop k =>
      obtain ⟨r, hdrop, rfl⟩ := Option.map_eq_some_iff.mp hstep
      obtain ⟨x, x', hx, -, heffect, hsessions⟩ := Remote.step_act_cases hdrop
      cases heffect with
      | ended _ hpending hsent houtcomes =>
        exact h.wire (h.reaches_remote hdrop) hx hsessions hpending hsent houtcomes

/-- At the start there are no threads and no connections. -/
theorem Accounted.start : Accounted W args b (W.start b) where
  program := .refl _
  remote := .refl _
  tied i c hc := absurd hc (by simp [Workload.start])
  apart i j c d hc := absurd hc (by simp [Workload.start])
  owned k hk := absurd hk (Nat.not_lt_zero k)
  count := rfl

/-- **Run lemma.** -/
theorem accounted_of_run {as : List (Step ξ)}
    (hrun : (W.machine args).run (W.start b) as = some s) : Accounted W args b s :=
  Machine.invariant_run (fun _ _ _ h hstep => h.step hstep) Accounted.start hrun

end

end Workload

end ThriftBench.Load
