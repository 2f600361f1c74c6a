import ThriftBench.Pool.ThreadManager

namespace ThriftBench.Pool

open Lib

/-!
# Worker pool — the number of workers requested

Both callbacks check a limit in one ThreadManager call and act in another, so several
workers can pass the same check before the first of them acts (`pool_leaves_limits`).

The other direction: `ChecksAhead` asks of a run that a check passes only while it would
still pass after every call that other workers have already decided on.  Under it the
number of workers requested stays between `t_min` and `t_max`, however `removeWorker`
behaves.
-/

/-- The limit check of a worker that stands in the given phase passes only while it would
    still pass after the calls that are decided. -/
def WorkerChecksAhead (L : Limits) (p : ThreadManager) : Worker → Prop
  | .createCount => p.workerCount < L.tMax → p.target + p.addingCount < L.tMax
  | .deleteCount => p.workerCount > L.tMin → p.target - p.decidedCount > L.tMin
  | .idle | .createIdle | .createAdd | .serving | .deleteIdle | .deleteHalf _ => True
  | .deleteRemove | .removing | .deleted | .exited => True

instance (L : Limits) (p : ThreadManager) : ∀ w, Decidable (WorkerChecksAhead L p w)
  | .createCount => inferInstanceAs (Decidable (_ → _))
  | .deleteCount => inferInstanceAs (Decidable (_ → _))
  | .idle | .createIdle | .createAdd | .serving | .deleteIdle | .deleteHalf _ =>
      inferInstanceAs (Decidable True)
  | .deleteRemove | .removing | .deleted | .exited => inferInstanceAs (Decidable True)

/-- The runs in which every limit check looks ahead. -/
def ChecksAhead (L : Limits) (p : ThreadManager) : Event → Prop
  | .step i => ∀ w ∈ p.workers[i]?, WorkerChecksAhead L p w
  | .arrive | .take _ | .close _ | .exit _ => True

instance (L : Limits) (p : ThreadManager) : ∀ e, Decidable (ChecksAhead L p e)
  | .step i => inferInstanceAs (Decidable (∀ w ∈ p.workers[i]?, WorkerChecksAhead L p w))
  | .arrive | .take _ | .close _ | .exit _ => inferInstanceAs (Decidable True)

/-- The limits hold, and still do after the calls that are decided. -/
structure WithinLimits (L : Limits) (p : ThreadManager) : Prop where
  le_tMax : p.target + p.addingCount ≤ L.tMax
  tMin_le : L.tMin ≤ p.target - p.decidedCount

namespace WithinLimits

variable {L : Limits} {r : Removal} {p p' : ThreadManager} {i : Nat} {w w' : Worker}

theorem initial (L : Limits) : WithinLimits L (.initial L) := by
  have hadd : (ThreadManager.initial L).addingCount = 0 := countP_initial L _
  have hremove : (ThreadManager.initial L).decidedCount = 0 := countP_initial L _
  have hlimits := L.tMin_le_tMax
  refine ⟨?_, ?_⟩
  · rw [hadd]
    show (L.tMin : Int) + 0 ≤ L.tMax
    omega
  · rw [hremove]
    show (L.tMin : Int) ≤ L.tMin - 0
    omega

/-- A move of one worker: only a limit check that passes adds to the calls decided. -/
theorem move {e : Event} {n : Nat} (h : WithinLimits L p) (hi : p.workers[i]? = some w)
    (hahead : ChecksAhead L p e) (hmove : Moves L p i e w w') :
    WithinLimits L { p.move i w' with pending := n } := by
  have hadding := countP_set_add (p := Worker.adding) (b := w') hi
  have hremove := countP_set_add (p := Worker.decidedRemove) (b := w') hi
  obtain ⟨hmax, hmin⟩ := h
  simp only [ThreadManager.addingCount, ThreadManager.decidedCount] at hmax hmin
  refine ⟨?_, ?_⟩
  · simp only [ThreadManager.addingCount, ThreadManager.move]
    cases hmove
    case belowMax hlt =>
      -- The guard: the target has room for one call more than the decided ones.
      have := hahead _ hi hlt
      simp only [ThreadManager.addingCount] at this
      simp only [Worker.adding, Bool.false_eq_true, ↓reduceIte] at hadding
      omega
    all_goals
      simp only [Worker.adding, Bool.false_eq_true, ↓reduceIte] at hadding
      omega
  · simp only [ThreadManager.decidedCount, ThreadManager.move]
    cases hmove
    case aboveMin hgt =>
      -- The guard again: the target stays above `t_min` after the decided calls.
      have := hahead _ hi hgt
      simp only [ThreadManager.decidedCount] at this
      simp only [Worker.decidedRemove, Bool.false_eq_true, ↓reduceIte] at hremove
      omega
    all_goals
      simp only [Worker.decidedRemove, Bool.false_eq_true, ↓reduceIte] at hremove
      omega

/-- `addWorker`: a decided call becomes one more requested worker. -/
theorem addWorker (h : WithinLimits L p) (hi : p.workers[i]? = some .createAdd) :
    WithinLimits L (p.addWorker i) := by
  have hadding := countP_addWorker (q := Worker.adding) hi
  have hremove := countP_addWorker (q := Worker.decidedRemove) hi
  simp only [Worker.adding, Worker.decidedRemove, Bool.false_eq_true, ↓reduceIte]
    at hadding hremove
  obtain ⟨hmax, hmin⟩ := h
  have htarget : (p.addWorker i).target = p.target + 1 := rfl
  refine ⟨?_, ?_⟩
  · rw [htarget]
    simp only [ThreadManager.addingCount] at hmax ⊢
    omega
  · rw [htarget]
    simp only [ThreadManager.decidedCount] at hmin ⊢
    omega

/-- `removeWorker`: a decided call becomes one requested worker less. -/
theorem removeWorker (h : WithinLimits L p) (hi : p.workers[i]? = some .deleteRemove) :
    WithinLimits L (p.removeWorker i r) := by
  have hadding := countP_removeWorker (q := Worker.adding) (r := r) hi rfl rfl rfl rfl
  have hremove := countP_removeWorker (q := Worker.decidedRemove) (r := r) hi rfl rfl rfl rfl
  simp only [Worker.adding, Worker.decidedRemove, Bool.false_eq_true, ↓reduceIte]
    at hadding hremove
  obtain ⟨hmax, hmin⟩ := h
  have htarget : (p.removeWorker i r).target = p.target - 1 := by cases r <;> rfl
  refine ⟨?_, ?_⟩
  · rw [htarget]
    simp only [ThreadManager.addingCount] at hmax ⊢
    omega
  · rw [htarget]
    simp only [ThreadManager.decidedCount] at hmin ⊢
    omega

/-- **Step lemma.** A step whose check looks ahead keeps the limits. -/
theorem step {e : Event} (h : WithinLimits L p) (hahead : ChecksAhead L p e)
    (hstep : (pool L r).step p e = some p') : WithinLimits L p' := by
  cases pool_step_cases hstep with
  | arrive n => exact ⟨h.le_tMax, h.tMin_le⟩
  | move n hi hmove => exact h.move hi hahead hmove
  | add hi => exact h.addWorker hi
  | remove hi => exact h.removeWorker hi

/-- **Run lemma.** A run in which every check looks ahead stays within the limits. -/
theorem of_run {es : List Event} (hrun : (pool L r).run (.initial L) es = some p)
    (hahead : (pool L r).Meets (ChecksAhead L) (.initial L) es) : WithinLimits L p :=
  Machine.guarded_run (fun _ _ _ h hC hs => h.step hC hs) (initial L) hahead hrun

end WithinLimits

/-- **Pool size bounds.** Take any limits, and any order of arrivals, closes and steps of any
    number of callbacks, each ThreadManager call being indivisible.  If every limit check
    looks ahead, the number of workers requested stays between `t_min` and `t_max`. -/
theorem target_within_limits (L : Limits) (es : List Event) (p : ThreadManager)
    (hrun : (pool L .indivisible).run (.initial L) es = some p)
    (hahead : (pool L .indivisible).Meets (ChecksAhead L) (.initial L) es) :
    (L.tMin : Int) ≤ p.target ∧ p.target ≤ L.tMax := by
  obtain ⟨hmax, hmin⟩ := WithinLimits.of_run hrun hahead
  omega

/-- Two connections with the limits of the echo service, one callback after the other. -/
def successiveCallbacks : List Event :=
  [.arrive, .take 0, .step 0, .arrive, .take 1, .step 1, .step 1, .step 1,
    .close 0, .step 0, .step 0, .step 0, .step 0, .step 0]

/-- Successive callbacks look ahead, and end with as many workers as they started with. -/
theorem target_within_limits_sample :
    ∃ p, (pool echoLimits .indivisible).run (.initial echoLimits) successiveCallbacks = some p ∧
      (echoLimits.tMin : Int) ≤ p.target ∧ p.target ≤ echoLimits.tMax :=
  ⟨_, rfl, target_within_limits echoLimits successiveCallbacks _ rfl (by decide)⟩

/-- With the limits of the echo service, two connections that are created at the same time
    leave `5 > 4` workers requested, and two that are deleted at the same time `1 < 2`. -/
theorem pool_leaves_limits :
    (∃ p, (pool echoLimits .indivisible).run (.initial echoLimits)
        [.arrive, .take 0, .arrive, .take 1, .step 0, .step 0, .step 0, .arrive, .take 2,
          .step 1, .step 2, .step 1, .step 2, .step 1, .step 2] = some p ∧
      (echoLimits.tMax : Int) < p.target) ∧
    ∃ p, (pool echoLimits .indivisible).run (.initial echoLimits)
        [.arrive, .take 0, .step 0, .arrive, .take 1, .step 1, .step 1, .step 1,
          .close 0, .close 1, .step 0, .step 1, .step 0, .step 1, .step 0, .step 1,
          .step 0, .step 1] = some p ∧
      p.target < echoLimits.tMin :=
  ⟨⟨_, rfl, by decide⟩, ⟨_, rfl, by decide⟩⟩

end ThriftBench.Pool
