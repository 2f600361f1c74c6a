import ThriftBench.Pool.ThreadManager

namespace ThriftBench.Pool

open Lib

/-!
# Worker pool — `deleteContext` and the blocking `removeWorker`

`removeWorker` is called from a worker of the pool and returns only when idle workers have
exited.  Two closes that count the same idle worker both call it, and then wait for an exit
that never comes (`two_closes_hang`).

The other direction: `RemovesApart` asks of a run that `removeWorker` is called only while
nobody else is inside it, or while at least two more workers are requested than are inside
it.  Under it `CannotHang` is kept by every step (`pool_never_hung`); callbacks that run one
at a time keep it.  A call that breaks it leaves a `Crowded` pool, in which no `removeWorker`
returns as long as no worker is added (`crowding_call_never_returns`).
-/

/-- Every worker that has not exited is inside `removeWorker`, and there are still more of
    them than requested: nobody can exit and nobody can return. -/
def Hung (p : ThreadManager) : Prop :=
  (∀ w ∈ p.workers, w.live = true → w = .removing) ∧ p.target < p.workerCount

instance (p : ThreadManager) : Decidable (Hung p) :=
  inferInstanceAs (Decidable (_ ∧ _))

/-- The runs in which calls of `removeWorker` do not crowd. -/
def RemovesApart (p : ThreadManager) : Event → Prop
  | .step i => p.workers[i]? = some .deleteRemove →
      p.removingCount = 0 ∨ (p.removingCount : Int) + 2 ≤ p.target
  | .arrive | .take _ | .close _ | .exit _ => True

instance (p : ThreadManager) : ∀ e, Decidable (RemovesApart p e)
  | .step _ => inferInstanceAs (Decidable (_ → _))
  | .arrive | .take _ | .close _ | .exit _ => inferInstanceAs (Decidable True)

/-- The invariant of the runs in which removals do not crowd. -/
structure CannotHang (p : ThreadManager) : Prop where
  /-- With nobody inside `removeWorker`, there are as many workers as requested. -/
  settled : p.removingCount = 0 → (p.workerCount : Int) = p.target
  /-- A worker that is about to remove one is not the only one. -/
  spare : 0 < p.decidedCount → 2 ≤ p.workerCount
  removing_le : (p.removingCount : Int) ≤ p.target

/-- A pool whose requested workers are not all inside `removeWorker` is not hung. -/
theorem CannotHang.not_hung {p : ThreadManager} (h : CannotHang p) : ¬ Hung p := by
  rintro ⟨hall, hmore⟩
  have hle : p.workerCount ≤ p.removingCount := by
    apply List.countP_mono_left
    intro w hw hlive
    rw [hall w hw hlive]
    rfl
  have := h.removing_le
  omega

namespace CannotHang

variable {L : Limits} {p p' : ThreadManager} {i : Nat} {w w' : Worker}

theorem initial (L : Limits) : CannotHang (.initial L) := by
  have hlive : (ThreadManager.initial L).workerCount = L.tMin := countP_initial L _
  have hdecided : (ThreadManager.initial L).decidedCount = 0 := countP_initial L _
  have hremoving : (ThreadManager.initial L).removingCount = 0 := countP_initial L _
  refine ⟨fun _ => ?_, fun hpos => ?_, ?_⟩
  · rw [hlive]
    rfl
  · rw [hdecided] at hpos
    exact absurd hpos (by decide)
  · rw [hremoving]
    exact Int.natCast_nonneg L.tMin

/-- The workers inside `removeWorker` and those about to call it are different ones. -/
theorem removing_add_decided_le (p : ThreadManager) :
    p.removingCount + p.decidedCount ≤ p.workerCount := by
  refine countP_add_countP_le ?_ ?_ ?_ p.workers
  · intro w hw; cases w <;> simp_all [Worker.isRemoving, Worker.live]
  · intro w hw; cases w <;> simp_all [Worker.decidedRemove, Worker.live]
  · intro w hw; cases w <;> simp_all [Worker.isRemoving, Worker.decidedRemove]

/-- The invariant only looks at the censuses and at the target. -/
theorem of_counts (h : CannotHang p) (hlive : p'.workerCount = p.workerCount)
    (hdecided : p'.decidedCount = p.decidedCount)
    (hremoving : p'.removingCount = p.removingCount) (htarget : p'.target = p.target) :
    CannotHang p' := by
  refine ⟨?_, ?_, ?_⟩
  · rw [hlive, hremoving, htarget]
    exact h.settled
  · rw [hlive, hdecided]
    exact h.spare
  · rw [hremoving, htarget]
    exact h.removing_le

/-- A move of one worker. -/
theorem move {e : Event} (h : CannotHang p) (hi : p.workers[i]? = some w)
    (hmove : Moves L p i e w w') : CannotHang (p.move i w') := by
  have hlive : (p.move i w').workerCount + (if w.live then 1 else 0)
      = p.workerCount + (if w'.live then 1 else 0) := countP_set_add hi
  have hdecided : (p.move i w').decidedCount + (if w.decidedRemove then 1 else 0)
      = p.decidedCount + (if w'.decidedRemove then 1 else 0) := countP_set_add hi
  have hremoving : (p.move i w').removingCount + (if w.isRemoving then 1 else 0)
      = p.removingCount + (if w'.isRemoving then 1 else 0) := countP_set_add hi
  have hapart := removing_add_decided_le (p.move i w')
  have htarget : (p.move i w').target = p.target := rfl
  cases hmove <;> simp only [Worker.live, Worker.decidedRemove, Worker.isRemoving,
    Bool.false_eq_true, ↓reduceIte, Nat.add_zero] at hlive hdecided hremoving
  case exit hmore =>
    -- Somebody is inside `removeWorker`, so a worker about to call it is not left alone.
    have hbusy : p.removingCount ≠ 0 := fun hzero => by
      have := h.settled hzero
      omega
    refine ⟨fun hzero => absurd (hremoving ▸ hzero) hbusy, fun hpos => by omega, ?_⟩
    have := h.removing_le
    omega
  case removed heq =>
    -- The caller leaves once as many workers are left as requested: the pool is settled.
    have := h.removing_le
    refine ⟨fun _ => by omega, fun hpos => ?_, by omega⟩
    have := h.spare (hdecided ▸ hpos)
    omega
  case aboveMin hgt =>
    have := L.one_le_tMin
    have := h.removing_le
    refine ⟨fun hzero => ?_, fun _ => by omega, by omega⟩
    have := h.settled (hremoving ▸ hzero)
    omega
  all_goals exact h.of_counts (by omega) (by omega) (by omega) rfl

/-- `addWorker`: one more worker, and one more is requested. -/
theorem addWorker (h : CannotHang p) (hi : p.workers[i]? = some .createAdd) :
    CannotHang (p.addWorker i) := by
  have hlive : (p.addWorker i).workerCount = p.workerCount + 1 := by
    have := countP_addWorker (q := Worker.live) hi
    simp only [Worker.live, ↓reduceIte] at this
    exact Nat.add_right_cancel this
  have hdecided : (p.addWorker i).decidedCount = p.decidedCount := by
    have := countP_addWorker (q := Worker.decidedRemove) hi
    simp only [Worker.decidedRemove, Bool.false_eq_true, ↓reduceIte, Nat.add_zero] at this
    exact this
  have hremoving : (p.addWorker i).removingCount = p.removingCount := by
    have := countP_addWorker (q := Worker.isRemoving) hi
    simp only [Worker.isRemoving, Bool.false_eq_true, ↓reduceIte, Nat.add_zero] at this
    exact this
  have htarget : (p.addWorker i).target = p.target + 1 := rfl
  refine ⟨fun hzero => ?_, fun hpos => ?_, ?_⟩
  · have := h.settled (hremoving ▸ hzero)
    omega
  · have := h.spare (hdecided ▸ hpos)
    omega
  · have := h.removing_le
    omega

/-- `removeWorker`: the caller goes inside, and one worker less is requested. -/
theorem removeWorker (h : CannotHang p) (hi : p.workers[i]? = some .deleteRemove)
    (hroom : p.removingCount = 0 ∨ (p.removingCount : Int) + 2 ≤ p.target) :
    CannotHang (p.removeWorker i .blocking) := by
  have hlive : (p.removeWorker i .blocking).workerCount = p.workerCount := by
    have := countP_set_add (p := Worker.live) (b := .removing) hi
    simp only [Worker.live, ↓reduceIte] at this
    exact Nat.add_right_cancel this
  have hdecided : (p.removeWorker i .blocking).decidedCount + 1 = p.decidedCount :=
    countP_set_add (p := Worker.decidedRemove) (b := .removing) hi
  have hremoving : (p.removeWorker i .blocking).removingCount = p.removingCount + 1 :=
    countP_set_add (p := Worker.isRemoving) (b := .removing) hi
  have htarget : (p.removeWorker i .blocking).target = p.target - 1 := rfl
  have hspare := h.spare (by omega)
  refine ⟨fun hzero => by omega, fun _ => by omega, ?_⟩
  rcases hroom with hnobody | hroom
  · -- Nobody else is inside: the other worker is still requested.
    have := h.settled hnobody
    omega
  · omega

/-- **Step lemma.** A step that does not crowd removals keeps the invariant. -/
theorem step {e : Event} (h : CannotHang p) (hapart : RemovesApart p e)
    (hstep : (pool L .blocking).step p e = some p') : CannotHang p' := by
  cases pool_step_cases hstep with
  | arrive n => exact h.of_counts rfl rfl rfl rfl
  | move n hi hmove => exact (h.move hi hmove).of_counts rfl rfl rfl rfl
  | add hi => exact h.addWorker hi
  | remove hi => exact h.removeWorker hi (hapart hi)

/-- **Run lemma.** A run in which removals do not crowd ends in the invariant. -/
theorem of_run {es : List Event} (hrun : (pool L .blocking).run (.initial L) es = some p)
    (hapart : (pool L .blocking).Meets RemovesApart (.initial L) es) : CannotHang p :=
  Machine.guarded_run (fun _ _ _ h hC hs => h.step hC hs) (initial L) hapart hrun

end CannotHang

/-- **The pool does not hang itself.** Take any limits, and any order of arrivals, closes and
    steps of any number of callbacks, with a `removeWorker` that blocks its caller until
    enough idle workers have exited.  If removals do not crowd, the pool is never hung. -/
theorem pool_never_hung (L : Limits) (es : List Event) (p : ThreadManager)
    (hrun : (pool L .blocking).run (.initial L) es = some p)
    (hapart : (pool L .blocking).Meets RemovesApart (.initial L) es) : ¬ Hung p :=
  (CannotHang.of_run hrun hapart).not_hung

/-- A connection with the limits of the id service: the second worker is added when it opens
    and removed when it closes. -/
def oneRemoval : List Event :=
  [.arrive, .take 0, .step 0, .step 0, .step 0, .close 0, .step 0, .step 0, .step 0, .step 0,
    .exit 1, .step 0, .step 0]

/-- A removal that runs alone returns. -/
theorem pool_never_hung_sample :
    ∃ p, (pool uniqueIdLimits .blocking).run (.initial uniqueIdLimits) oneRemoval = some p ∧
      ¬ Hung p :=
  ⟨_, rfl, pool_never_hung uniqueIdLimits oneRemoval _ rfl (by decide)⟩

/-- With the limits of the id service, two connections that close at the same time hang the
    pool: both closes count the one idle worker, the target falls to `1`, the idle worker
    exits, and the two callers wait for each other. -/
theorem two_closes_hang :
    ∃ p, (pool uniqueIdLimits .blocking).run (.initial uniqueIdLimits)
        [.arrive, .take 0, .step 0, .step 0, .step 0, .arrive, .take 1, .step 1, .step 1,
          .step 1, .close 0, .close 1, .step 0, .step 1, .step 0, .step 1, .step 0, .step 1,
          .step 0, .step 1, .exit 2] = some p ∧ Hung p :=
  ⟨_, rfl, by decide⟩

/-! ### A crowded pool -/

/-- More workers are inside `removeWorker` than are requested. -/
def Crowded (p : ThreadManager) : Prop := p.target < p.removingCount

/-- The events that do not call `addWorker`. -/
def AddsNone (p : ThreadManager) : Event → Prop
  | .step i => p.workers[i]? ≠ some .createAdd
  | .arrive | .take _ | .close _ | .exit _ => True

instance (p : ThreadManager) : ∀ e, Decidable (AddsNone p e)
  | .step _ => inferInstanceAs (Decidable (¬ _))
  | .arrive | .take _ | .close _ | .exit _ => inferInstanceAs (Decidable True)

section

variable {L : Limits} {p p' : ThreadManager} {e : Event}

/-- A call of `removeWorker` that crowds leaves a crowded pool. -/
theorem crowded_of_not_removesApart (hnot : ¬ RemovesApart p e)
    (hstep : (pool L .blocking).step p e = some p') : Crowded p' := by
  cases e with
  | step i =>
    -- The guard says nothing about other steps, so this one calls `removeWorker`.
    simp only [RemovesApart, not_forall, not_or] at hnot
    obtain ⟨hi, hsome, hfew⟩ := hnot
    obtain rfl : p' = p.removeWorker i .blocking := by
      rw [pool, Option.bind_eq_some_iff] at hstep
      obtain ⟨w, hw, hstep⟩ := hstep
      obtain rfl := Option.some.inj (hw.symm.trans hi)
      exact (Option.some.inj hstep).symm
    have hremoving : (p.removeWorker i .blocking).removingCount = p.removingCount + 1 :=
      countP_set_add (p := Worker.isRemoving) (b := .removing) hi
    have htarget : (p.removeWorker i .blocking).target = p.target - 1 := rfl
    show (p.removeWorker i .blocking).target < (p.removeWorker i .blocking).removingCount
    omega
  | arrive | take _ | close _ | exit _ => exact absurd trivial hnot

/-- A crowded pool stays crowded until a worker is added, and nobody leaves `removeWorker`. -/
theorem Crowded.step {i : Nat} (h : Crowded p) (hi : p.workers[i]? = some .removing)
    (hadd : AddsNone p e) (hstep : (pool L .blocking).step p e = some p') :
    Crowded p' ∧ p'.workers[i]? = some .removing := by
  cases pool_step_cases hstep with
  | arrive n => exact ⟨h, hi⟩
  | @move _ j w w' n hj hmove =>
    have hremoving : (p.move j w').removingCount + (if w.isRemoving then 1 else 0)
        = p.removingCount + (if w'.isRemoving then 1 else 0) := countP_set_add hj
    have hapart := CannotHang.removing_add_decided_le p
    have hstays : w ≠ .removing := by
      rintro rfl
      cases hmove with
      | removed heq =>
        -- Nobody returns while there are more workers than requested.
        have : p.target < p.removingCount := h
        omega
    have hother : j ≠ i := by
      rintro rfl
      exact hstays (Option.some.inj (hj.symm.trans hi))
    refine ⟨?_, ?_⟩
    · show p.target < (p.move j w').removingCount
      have : p.target < p.removingCount := h
      have hw : w.isRemoving = false := by cases w <;> simp_all [Worker.isRemoving]
      rw [hw] at hremoving
      simp only [Bool.false_eq_true, ↓reduceIte, Nat.add_zero] at hremoving
      omega
    · show (p.workers.set j w')[i]? = some .removing
      rw [List.getElem?_set_ne hother]
      exact hi
  | add hj => exact absurd hj hadd
  | @remove j hj =>
    have hremoving : (p.removeWorker j .blocking).removingCount = p.removingCount + 1 :=
      countP_set_add (p := Worker.isRemoving) (b := .removing) hj
    have htarget : (p.removeWorker j .blocking).target = p.target - 1 := rfl
    have hother : j ≠ i := by
      rintro rfl
      exact absurd (hj.symm.trans hi) (by simp)
    refine ⟨?_, ?_⟩
    · show (p.removeWorker j .blocking).target < (p.removeWorker j .blocking).removingCount
      have : p.target < p.removingCount := h
      omega
    · show (p.workers.set j .removing)[i]? = some .removing
      rw [List.getElem?_set_ne hother]
      exact hi

/-- In a crowded pool no call of `removeWorker` returns as long as no worker is added. -/
theorem crowded_never_returns {i : Nat} {es : List Event} (h : Crowded p)
    (hi : p.workers[i]? = some .removing) (hadd : (pool L .blocking).Meets AddsNone p es)
    (hrun : (pool L .blocking).run p es = some p') : p'.workers[i]? = some .removing := by
  have hinv := Machine.guarded_run (I := fun p => Crowded p ∧ p.workers[i]? = some .removing)
    (fun _ _ _ h hC hs => h.1.step h.2 hC hs) ⟨h, hi⟩ hadd hrun
  exact hinv.2

/-- **Crowding.** A call of `removeWorker` that crowds does not return in any continuation in
    which no worker is added: its caller stays inside, whatever arrives, closes or exits. -/
theorem crowding_call_never_returns {i : Nat} {es : List Event}
    (hi : p.workers[i]? = some .deleteRemove) (hcrowds : ¬ RemovesApart p (.step i))
    (hrun : (pool L .blocking).run p (.step i :: es) = some p')
    (hadd : (pool L .blocking).Meets AddsNone (p.removeWorker i .blocking) es) :
    p'.workers[i]? = some .removing := by
  obtain ⟨p₁, hstep, hrest⟩ := Machine.run_cons_eq_some.mp hrun
  have hcall : (pool L .blocking).step p (.step i) = some (p.removeWorker i .blocking) := by
    simp only [pool, hi]
    rfl
  obtain rfl := Option.some.inj (hcall.symm.trans hstep)
  obtain ⟨hlt, -⟩ := List.getElem?_eq_some_iff.mp hi
  have hinside : (p.removeWorker i .blocking).workers[i]? = some .removing :=
    List.getElem?_set_self hlt
  exact crowded_never_returns (crowded_of_not_removesApart hcrowds hstep) hinside hadd hrest

end

/-- Two connections of which both close, up to the second call of `removeWorker`. -/
def twoRemovals : List Event :=
  [.arrive, .take 0, .step 0, .step 0, .step 0, .arrive, .take 1, .step 1, .step 1, .step 1,
    .close 0, .close 1, .step 0, .step 1, .step 0, .step 1, .step 0, .step 1, .step 0]

/-- The pool before that call. -/
def oneInside : ThreadManager :=
  { workers := [.removing, .deleteRemove, .idle], target := 2, pending := 0 }

/-- The second caller stays inside when the idle worker exits and a connection arrives. -/
theorem crowding_call_never_returns_sample :
    (pool uniqueIdLimits .blocking).run (.initial uniqueIdLimits) twoRemovals = some oneInside ∧
      ∃ p, (pool uniqueIdLimits .blocking).run oneInside [.step 1, .exit 2, .arrive] = some p ∧
        p.workers[1]? = some .removing := by
  obtain ⟨p, hrun⟩ : ∃ p, (pool uniqueIdLimits .blocking).run oneInside
      [.step 1, .exit 2, .arrive] = some p := ⟨_, rfl⟩
  have hcrowds : ¬ RemovesApart oneInside (.step 1) := by decide
  exact ⟨rfl, p, hrun, crowding_call_never_returns rfl hcrowds hrun (by decide)⟩

/-! ### Callbacks one at a time -/

/-- The runs in which a worker takes a step of a callback only while no other worker is in
    one. -/
def CallbacksAlone (p : ThreadManager) : Event → Prop
  | .step i => NoOther Worker.inCallback p.workers i
  | .arrive | .take _ | .close _ | .exit _ => True

/-- Callbacks that run alone do not crowd `removeWorker`. -/
theorem CallbacksAlone.removesApart {p : ThreadManager} {e : Event} (h : CallbacksAlone p e) :
    RemovesApart p e := by
  cases e with
  | step i =>
    intro hi
    -- A worker inside `removeWorker` is inside a callback, which only worker `i` is.
    refine Or.inl (List.countP_eq_zero.mpr fun w hw hremoving => ?_)
    obtain ⟨j, hj⟩ := List.getElem?_of_mem hw
    obtain rfl : w = .removing := by cases w <;> simp_all [Worker.isRemoving]
    by_cases hji : j = i
    · rw [hji, hi] at hj
      exact absurd hj (by simp)
    · exact absurd (h.eq_false hji hj) (by decide)
  | arrive | take _ | close _ | exit _ => trivial

/-- With callbacks that run alone the pool is never hung. -/
theorem callbacks_alone_never_hung (L : Limits) (es : List Event) (p : ThreadManager)
    (hrun : (pool L .blocking).run (.initial L) es = some p)
    (halone : (pool L .blocking).Meets CallbacksAlone (.initial L) es) : ¬ Hung p := by
  have hapart : (pool L .blocking).Meets RemovesApart (.initial L) es :=
    Machine.meets_of_invariant (I := fun _ => True) (fun _ _ _ _ _ _ => trivial)
      (fun _ _ _ h => h.removesApart) trivial halone
  exact (CannotHang.of_run hrun hapart).not_hung

end ThriftBench.Pool
