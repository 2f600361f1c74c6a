import ThriftBench.Pool.Serial

namespace ThriftBench.Pool

open Lib

/-!
# Worker pool — the serial pool is the pool with whole callbacks

A run of `serial` is a run of `pool` in which every callback is played to its end before
anything else happens.

* `ThreadManager.createContext` / `ThreadManager.deleteContext` — the whole callbacks on the
  workers, and the plays that they are;
* `OneAtATime` — the plays with one callback after the other; `connectionEvent` — what is seen
  of them;
* `counts` — the counts of a pool; a worker is busy when it has not exited and is not idle,
  as `stats` prints it;
* `serial_run_realized` — every run of the serial pool is played by the pool, arrival by arrival
  and close by close.
-/

namespace ThreadManager

/-- `createContext`, run by worker `i` to its end. -/
def createContext (L : Limits) (p : ThreadManager) (i : Nat) : ThreadManager :=
  if p.idleWorkerCount = 0 ∧ p.workerCount < L.tMax then p.addWorker i else p.move i .serving

/-- `deleteContext`, run by worker `i` to its end. -/
def deleteContext (L : Limits) (p : ThreadManager) (i : Nat) : ThreadManager :=
  if p.idleWorkerCount ≥ p.workerCount / 2 ∧ p.workerCount > L.tMin then
    p.removeWorker i .indivisible
  else p.move i .deleted

variable {p : ThreadManager} {i : Nat} {w v : Worker}

theorem getElem?_move (hi : p.workers[i]? = some w) : (p.move i v).workers[i]? = some v := by
  obtain ⟨hlt, -⟩ := List.getElem?_eq_some_iff.mp hi
  exact List.getElem?_set_self hlt

@[simp] theorem move_move : (p.move i w).move i v = p.move i v := by
  simp only [move, List.set_set]

@[simp] theorem move_addWorker : (p.move i w).addWorker i = p.addWorker i := by
  simp only [move, addWorker, List.set_set]

@[simp] theorem move_removeWorker (r : Removal) :
    (p.move i w).removeWorker i r = p.removeWorker i r := by
  cases r <;> simp only [move, removeWorker, List.set_set]

/-- A census that does not tell `w` from `v`. -/
theorem countP_move {q : Worker → Bool} (hi : p.workers[i]? = some w) (hq : q v = q w) :
    (p.move i v).workers.countP q = p.workers.countP q := by
  have hset := countP_set_add (p := q) (b := v) hi
  rw [hq] at hset
  exact Nat.add_right_cancel hset

theorem workerCount_move (hi : p.workers[i]? = some w) (hq : v.live = w.live) :
    (p.move i v).workerCount = p.workerCount := countP_move hi hq

theorem idleWorkerCount_move (hi : p.workers[i]? = some w) (hq : v.isIdle = w.isIdle) :
    (p.move i v).idleWorkerCount = p.idleWorkerCount := countP_move hi hq

end ThreadManager

/-! ### One callback at a time -/

/-- Between callbacks: no worker is inside one. -/
def AtRest (p : ThreadManager) : Prop := ∀ w ∈ p.workers, w.inCallback = false

/-- The plays in which connections come and go only between callbacks, and a worker takes a
    step of its callback only while no other worker is in one.  No worker exits by itself. -/
def OneAtATime (p : ThreadManager) : Event → Prop
  | .arrive | .take _ | .close _ => AtRest p
  | .step i => NoOther Worker.inCallback p.workers i
  | .exit _ => False

/-- What is seen of the pool: connections that arrive and close. -/
def connectionEvent : Event → Option ConnectionEvent
  | .arrive  => some .arrive
  | .close _ => some .close
  | .take _ | .step _ | .exit _ => none

/-- A play of that kind. -/
abbrev Plays (L : Limits) (r : Removal) (p : ThreadManager) (es : List ConnectionEvent)
    (p' : ThreadManager) : Prop :=
  (pool L r).Observes OneAtATime connectionEvent p es p'

/-! ### Callbacks as plays -/

section

variable {L : Limits} {r : Removal} {p : ThreadManager} {i : Nat} {w : Worker}

/-- Worker `i` takes its next step. -/
theorem step_eq (hi : p.workers[i]? = some w) :
    (pool L r).step p (.step i) = stepWorker L r p i w := by
  simp only [pool, hi]
  rfl

/-- A step of the only worker in a callback. -/
theorem Plays.step {p₁ p' : ThreadManager} {es : List ConnectionEvent}
    (h : NoOther Worker.inCallback p.workers i) (hstep : (pool L r).step p (.step i) = some p₁)
    (hrest : Plays L r p₁ es p') : Plays L r p es p' :=
  .hidden rfl hstep h hrest

/-- `createContext` is a play. -/
theorem createContext_plays (h : NoOther Worker.inCallback p.workers i)
    (hi : p.workers[i]? = some .createIdle) : Plays L r p [] (p.createContext L i) := by
  rw [ThreadManager.createContext]
  -- One play for each way through the condition, which is read from left to right.
  have hfirst := step_eq (L := L) (r := r) hi
  simp only [stepWorker] at hfirst
  by_cases hidle : p.idleWorkerCount = 0
  · rw [if_pos hidle] at hfirst
    apply Plays.step h hfirst
    have hi₁ := p.getElem?_move hi (v := .createCount)
    have hsecond := step_eq (L := L) (r := r) hi₁
    simp only [stepWorker, p.workerCount_move hi (v := .createCount) rfl,
      ThreadManager.move_move] at hsecond
    by_cases hlt : p.workerCount < L.tMax
    · rw [if_pos hlt] at hsecond
      rw [if_pos ⟨hidle, hlt⟩]
      refine Plays.step (h.set _) hsecond (Plays.step (h.set _) (step_eq (p.getElem?_move hi)) ?_)
      rw [ThreadManager.move_addWorker]
      exact .refl _
    · rw [if_neg hlt] at hsecond
      rw [if_neg fun h => hlt h.2]
      exact Plays.step (h.set _) hsecond (.refl _)
  · rw [if_neg hidle] at hfirst
    rw [if_neg fun h => hidle h.1]
    exact Plays.step h hfirst (.refl _)

/-- `deleteContext` is a play. -/
theorem deleteContext_plays (h : NoOther Worker.inCallback p.workers i)
    (hi : p.workers[i]? = some .deleteIdle) :
    Plays L .indivisible p [] (p.deleteContext L i) := by
  rw [ThreadManager.deleteContext]
  apply Plays.step h (step_eq hi)
  have hi₁ := p.getElem?_move hi (v := .deleteHalf p.idleWorkerCount)
  have hhalf := step_eq (L := L) (r := .indivisible) hi₁
  simp only [stepWorker, p.workerCount_move hi (v := .deleteHalf p.idleWorkerCount) rfl,
    ThreadManager.move_move] at hhalf
  by_cases hge : p.idleWorkerCount ≥ p.workerCount / 2
  · rw [if_pos hge] at hhalf
    apply Plays.step (h.set _) hhalf
    have hi₂ := p.getElem?_move hi (v := .deleteCount)
    have hcount := step_eq (L := L) (r := .indivisible) hi₂
    simp only [stepWorker, p.workerCount_move hi (v := .deleteCount) rfl,
      ThreadManager.move_move] at hcount
    by_cases hgt : p.workerCount > L.tMin
    · rw [if_pos hgt] at hcount
      rw [if_pos ⟨hge, hgt⟩]
      refine Plays.step (h.set _) hcount (Plays.step (h.set _) (step_eq (p.getElem?_move hi)) ?_)
      rw [ThreadManager.move_removeWorker]
      exact .refl _
    · rw [if_neg hgt] at hcount
      rw [if_neg fun h => hgt h.2]
      exact Plays.step (h.set _) hcount (.refl _)
  · rw [if_neg hge] at hhalf
    rw [if_neg fun h => hge h.1]
    exact Plays.step (h.set _) hhalf (.refl _)

end

/-! ### Counts -/

/-- The counts of a pool. -/
def counts (p : ThreadManager) : Counts where
  idle := p.idleWorkerCount
  busy := p.workerCount - p.idleWorkerCount
  pending := p.pending

@[simp] theorem counts_idle (p : ThreadManager) : (counts p).idle = p.idleWorkerCount := rfl
@[simp] theorem counts_busy (p : ThreadManager) :
    (counts p).busy = p.workerCount - p.idleWorkerCount := rfl
@[simp] theorem counts_pending (p : ThreadManager) : (counts p).pending = p.pending := rfl

section

variable {L : Limits} {p : ThreadManager} {i : Nat}

theorem idleWorkerCount_le (p : ThreadManager) : p.idleWorkerCount ≤ p.workerCount :=
  List.countP_mono_left fun w _ hidle => by cases w <;> simp_all [Worker.isIdle, Worker.live]

/-- The counts know the number of workers. -/
theorem counts_workerCount (p : ThreadManager) : (counts p).workerCount = p.workerCount := by
  have := idleWorkerCount_le p
  rw [Counts.workerCount, counts_idle, counts_busy]
  omega

/-- A whole `createContext` does to the counts what the serial one does. -/
theorem counts_createContext (hi : p.workers[i]? = some .createIdle) :
    counts (p.createContext L i) = (counts p).createContext L := by
  rw [ThreadManager.createContext, Counts.createContext, counts_workerCount, counts_idle]
  have hle := idleWorkerCount_le p
  by_cases hgrow : p.idleWorkerCount = 0 ∧ p.workerCount < L.tMax
  · have hidle : (p.addWorker i).idleWorkerCount + 0 = p.idleWorkerCount + 0 + 1 :=
      countP_addWorker hi
    have hlive : (p.addWorker i).workerCount + 1 = p.workerCount + 1 + 1 := countP_addWorker hi
    rw [if_pos hgrow, if_pos hgrow, Counts.addWorker]
    ext
    · exact hidle
    · simp only [counts_busy]
      omega
    · rfl
  · rw [if_neg hgrow, if_neg hgrow]
    have hidle := p.idleWorkerCount_move hi (v := .serving) rfl
    have hlive := p.workerCount_move hi (v := .serving) rfl
    ext
    · exact hidle
    · simp only [counts_busy, hidle, hlive]
    · rfl

/-- A whole `deleteContext` does to the counts what the serial one does. -/
theorem counts_deleteContext (hi : p.workers[i]? = some .deleteIdle) :
    (counts p).deleteContext L = some (counts (p.deleteContext L i)) := by
  rw [ThreadManager.deleteContext, Counts.deleteContext, counts_workerCount, counts_idle]
  have hset := p.idleWorkerCount_move hi (v := .deleted) rfl
  have hsetlive := p.workerCount_move hi (v := .deleted) rfl
  by_cases hshrink : p.idleWorkerCount ≥ p.workerCount / 2 ∧ p.workerCount > L.tMin
  · -- More than `t_min` workers are at least two, so `removeWorker` finds an idle one.
    have hpos : 0 < p.idleWorkerCount := by
      have := L.one_le_tMin
      omega
    have hposset : 0 < (p.move i .deleted).workers.countP Worker.isIdle :=
      lt_of_lt_of_eq hpos hset.symm
    have hidle : (p.removeWorker i .indivisible).idleWorkerCount + 1
        = (p.move i .deleted).idleWorkerCount + 0 := countP_retireIdle_add hposset
    have hlive : (p.removeWorker i .indivisible).workerCount + 1
        = (p.move i .deleted).workerCount + 0 := countP_retireIdle_add hposset
    rw [if_pos hshrink, if_pos hshrink, Counts.removeWorker, if_pos (by exact hpos)]
    apply congrArg some
    ext
    · show p.idleWorkerCount - 1 = _
      simp only [counts_idle]
      omega
    · simp only [counts_busy]
      omega
    · rfl
  · rw [if_neg hshrink, if_neg hshrink]
    apply congrArg some
    ext
    · exact hset.symm
    · simp only [counts_busy, hset, hsetlive]
    · rfl

end

/-! ### Serial events as plays -/

section

variable {L : Limits} {r : Removal} {p : ThreadManager} {i : Nat} {w : Worker}

theorem AtRest.initial (L : Limits) : AtRest (.initial L) := fun w hw => by
  rw [(List.mem_replicate.mp hw).2]
  rfl

theorem AtRest.noOther (h : AtRest p) (i : Nat) : NoOther Worker.inCallback p.workers i :=
  fun _ hj _ => h _ (List.getElem_mem hj)

/-- The pool is at rest again once the only worker in a callback has left it. -/
theorem atRest_move (h : NoOther Worker.inCallback p.workers i) (hw : w.inCallback = false) :
    AtRest (p.move i w) := by
  intro x hx
  obtain ⟨j, hj⟩ := List.getElem?_of_mem hx
  rcases getElem?_set_cases hj with ⟨-, rfl⟩ | ⟨hne, hj⟩
  · exact hw
  · exact h.eq_false hne hj

theorem atRest_createContext (h : NoOther Worker.inCallback p.workers i) :
    AtRest (p.createContext L i) := by
  rw [ThreadManager.createContext]
  split
  · intro x hx
    rcases List.mem_append.mp hx with hx | hx
    · exact atRest_move (w := .serving) h rfl x hx
    · rw [List.mem_singleton.mp hx]
      rfl
  · exact atRest_move h rfl

/-- Only the worker that retires changes. -/
theorem getElem?_retireIdle_cases {ws : List Worker} {j : Nat}
    (h : (retireIdle ws)[j]? = some w) : ws[j]? = some w ∨ w = .exited := by
  induction ws generalizing j with
  | nil => exact absurd h (by simp [retireIdle])
  | cons v ws ih =>
    cases j with
    | zero => cases v <;> simp_all [retireIdle]
    | succ j => cases v <;> first | exact Or.inl h | exact ih h

theorem getElem?_retireIdle {ws : List Worker} (h : ws[i]? = some w) (hw : w ≠ .idle) :
    (retireIdle ws)[i]? = some w := by
  induction ws generalizing i with
  | nil => exact absurd h (by simp)
  | cons v ws ih =>
    cases i with
    | zero =>
      obtain rfl : v = w := Option.some.inj h
      cases v <;> first | rfl | exact absurd rfl hw
    | succ i => cases v <;> first | exact h | exact ih h

theorem noOther_retireIdle {ws : List Worker} (h : NoOther Worker.inCallback ws i) :
    NoOther Worker.inCallback (retireIdle ws) i := by
  intro j hj hne
  rcases getElem?_retireIdle_cases (List.getElem?_eq_getElem hj) with hold | hexited
  · exact h.eq_false hne hold
  · rw [hexited]
    rfl

/-- After `deleteContext` the worker that ran it stands at its end, and it is still the only
    one in a callback. -/
theorem deleteContext_end (h : NoOther Worker.inCallback p.workers i)
    (hi : p.workers[i]? = some .deleteIdle) :
    NoOther Worker.inCallback (p.deleteContext L i).workers i ∧
      (p.deleteContext L i).workers[i]? = some .deleted := by
  have hset := h.set .deleted
  have hi' : (p.workers.set i .deleted)[i]? = some .deleted := p.getElem?_move hi
  rw [ThreadManager.deleteContext]
  split
  · exact ⟨noOther_retireIdle hset, getElem?_retireIdle hi' (by simp)⟩
  · exact ⟨hset, hi'⟩

/-- The worker takes a pending connection and runs `createContext` for it, or rests. -/
theorem takeNext_plays (h : NoOther Worker.inCallback p.workers i)
    (hi : p.workers[i]? = some .deleted) :
    ∃ p', Plays L r p [] p' ∧ AtRest p' ∧ counts p' = (counts p).takeNext L := by
  have hstep : (pool L r).step p (.step i) = some (p.takeNext i) := step_eq hi
  rw [Counts.takeNext, counts_pending]
  by_cases hpos : 0 < p.pending
  · rw [if_pos hpos]
    -- The pool in which the worker runs `createContext` for the pending connection.
    let q : ThreadManager := { p.move i .createIdle with pending := p.pending - 1 }
    have hnext : p.takeNext i = q := if_pos hpos
    have hq : q.workers[i]? = some .createIdle := p.getElem?_move hi
    rw [hnext] at hstep
    refine ⟨q.createContext L i, Plays.step h hstep (createContext_plays (h.set _) hq),
      atRest_createContext (h.set _), ?_⟩
    rw [counts_createContext hq]
    apply congrArg (Counts.createContext L)
    have hidle : q.idleWorkerCount = p.idleWorkerCount := p.idleWorkerCount_move hi rfl
    have hlive : q.workerCount = p.workerCount := p.workerCount_move hi rfl
    ext
    · exact hidle
    · simp only [counts_busy, hidle, hlive]
    · rfl
  · rw [if_neg hpos]
    have hnext : p.takeNext i = p.move i .idle := if_neg hpos
    rw [hnext] at hstep
    refine ⟨p.move i .idle, Plays.step h hstep (.refl _), atRest_move h rfl, ?_⟩
    have hidle : (p.move i .idle).idleWorkerCount + 0 = p.idleWorkerCount + 1 := countP_set_add hi
    have hlive : (p.move i .idle).workerCount = p.workerCount := p.workerCount_move hi rfl
    ext
    · exact hidle
    · simp only [counts_busy]
      omega
    · rfl

/-- A connection that arrives is taken by an idle worker, which runs `createContext`, or
    waits. -/
theorem arrive_plays (h : AtRest p) :
    ∃ p', Plays L r p [.arrive] p' ∧ AtRest p' ∧ counts p' = (counts p).arrive L := by
  let p₁ : ThreadManager := { p with pending := p.pending + 1 }
  have harrive : (pool L r).step p .arrive = some p₁ := rfl
  rw [Counts.arrive, counts_idle]
  by_cases hpos : 0 < p.idleWorkerCount
  · rw [if_pos hpos]
    obtain ⟨w, hw, hidle⟩ := List.countP_pos_iff.mp hpos
    obtain rfl : w = .idle := by cases w <;> simp_all [Worker.isIdle]
    obtain ⟨i, hi⟩ := List.getElem?_of_mem hw
    let q := p.move i .createIdle
    have hq : q.workers[i]? = some .createIdle := p.getElem?_move hi
    have htake : (pool L r).step p₁ (.take i) = some q := by
      simp only [pool]
      rw [if_pos ⟨hi, Nat.succ_pos _⟩]
      exact congrArg some (if_pos (Nat.succ_pos _))
    have halone : NoOther Worker.inCallback q.workers i := (h.noOther i).set _
    refine ⟨q.createContext L i,
      .seen rfl harrive h (.hidden rfl htake h (createContext_plays halone hq)),
      atRest_createContext halone, ?_⟩
    rw [counts_createContext hq]
    apply congrArg (Counts.createContext L)
    have hidle : q.idleWorkerCount + 1 = p.idleWorkerCount + 0 := countP_set_add hi
    have hlive : q.workerCount = p.workerCount := p.workerCount_move hi rfl
    have hle := idleWorkerCount_le p
    ext
    · simp only [counts_idle]
      omega
    · simp only [counts_busy]
      omega
    · rfl
  · rw [if_neg hpos]
    exact ⟨p₁, .seen rfl harrive h (.refl _), h, rfl⟩

/-- A served connection that closes: its worker runs `deleteContext` and goes on. -/
theorem close_plays {c : Counts} (h : AtRest p) (hclose : (counts p).close L = some c) :
    ∃ p', Plays L .indivisible p [.close] p' ∧ AtRest p' ∧ counts p' = c := by
  have hbusy : (counts p).busy ≠ 0 := fun hzero => by
    simp only [Counts.close, if_pos hzero, reduceCtorEq] at hclose
  rw [Counts.close, if_neg hbusy] at hclose
  -- A busy worker is one that serves a connection.
  obtain ⟨i, hi⟩ : ∃ i : Nat, p.workers[i]? = some Worker.serving := by
    by_contra hnone
    have hle : p.workerCount ≤ p.idleWorkerCount := by
      apply List.countP_mono_left
      intro w hw hlive
      obtain ⟨i, hi⟩ := List.getElem?_of_mem hw
      have hrest := h w hw
      cases w <;> simp_all [Worker.inCallback, Worker.live, Worker.isIdle]
    rw [counts_busy] at hbusy
    omega
  let q := p.move i .deleteIdle
  have hq : q.workers[i]? = some .deleteIdle := p.getElem?_move hi
  have hstep : (pool L .indivisible).step p (.close i) = some q := if_pos hi
  have hcounts : counts q = counts p := by
    have hidle : q.idleWorkerCount = p.idleWorkerCount := p.idleWorkerCount_move hi rfl
    have hlive : q.workerCount = p.workerCount := p.workerCount_move hi rfl
    ext
    · exact hidle
    · simp only [counts_busy, hidle, hlive]
    · rfl
  rw [← hcounts, counts_deleteContext hq] at hclose
  have halone : NoOther Worker.inCallback q.workers i := (h.noOther i).set _
  obtain ⟨hother, hend⟩ := deleteContext_end (L := L) halone hq
  obtain ⟨p', hnext, hrest, hp'⟩ := takeNext_plays (L := L) (r := .indivisible) hother hend
  exact ⟨p', .seen rfl hstep h ((deleteContext_plays halone hq).trans hnext), hrest,
    hp'.trans (Option.some.inj hclose)⟩

end

/-- **Refinement.** Every run of the serial pool is played by the pool: the play starts with
    `t_min` idle workers and has the same arrivals and closes in the same order, each of them
    between callbacks, which run one at a time; it ends at rest with the same counts. -/
theorem serial_run_realized {L : Limits} {es : List ConnectionEvent} {c : Counts}
    (hrun : (serial L).run (.initial L) es = some c) :
    ∃ as p, (pool L .indivisible).run (.initial L) as = some p ∧
      (pool L .indivisible).Meets OneAtATime (.initial L) as ∧
      as.filterMap connectionEvent = es ∧ AtRest p ∧ counts p = c := by
  have hinitial : counts (.initial L) = .initial L := by
    have hidle : (ThreadManager.initial L).idleWorkerCount = L.tMin := countP_initial L _
    have hlive : (ThreadManager.initial L).workerCount = L.tMin := countP_initial L _
    ext
    · exact hidle
    · rw [counts_busy, hidle, hlive]
      exact Nat.sub_self _
    · rfl
  have hstep : ∀ c e c' p, (serial L).step c e = some c' → AtRest p ∧ counts p = c →
      ∃ p', Plays L .indivisible p [e] p' ∧ AtRest p' ∧ counts p' = c' := by
    rintro c e c' p hstep ⟨hrest, rfl⟩
    cases e with
    | arrive =>
      obtain ⟨p', hplays, hrest', hp'⟩ := arrive_plays (L := L) (r := .indivisible) hrest
      exact ⟨p', hplays, hrest', hp'.trans (Option.some.inj hstep)⟩
    | close => exact close_plays hrest hstep
  obtain ⟨p, ⟨as, hplay, halone, hseen⟩, hrest, hcounts⟩ :=
    Machine.simulated_run (S := some) hstep hrun ⟨AtRest.initial L, hinitial⟩
  exact ⟨as, p, hplay, halone, hseen.trans List.filterMap_some, hrest, hcounts⟩

/-- Two connections, the first of which closes. -/
theorem serial_run_realized_sample :
    ∃ c, (serial uniqueIdLimits).run (.initial uniqueIdLimits) [.arrive, .arrive, .close]
        = some c ∧
      ∃ as p, (pool uniqueIdLimits .indivisible).run (.initial uniqueIdLimits) as = some p ∧
        (pool uniqueIdLimits .indivisible).Meets OneAtATime (.initial uniqueIdLimits) as ∧
        as.filterMap connectionEvent = [.arrive, .arrive, .close] ∧ AtRest p ∧ counts p = c := by
  obtain ⟨c, hrun⟩ : ∃ c, (serial uniqueIdLimits).run (.initial uniqueIdLimits)
      [.arrive, .arrive, .close] = some c := ⟨_, rfl⟩
  exact ⟨c, hrun, serial_run_realized hrun⟩

end ThriftBench.Pool
