import ThriftBench.UniqueId.Threads

namespace ThriftBench.UniqueId

open Lib

/-!
# UniqueID service — uniqueness under interleaving

`compute_unique_id` locks a mutex that is local to the call, so nothing keeps two calls out
of `get_counter` at the same time, and a call that starts a new millisecond can be
overtaken between its assignments (`concurrent_calls_collide`).

The other direction: `ResetsAlone` asks of a schedule that the branch which starts a new
millisecond is run with no other call inside `get_counter`.  Under it `Inv` is kept by
every step, and no two calls obtain the same pair.  One mutex object for all calls
enforces it, which the local one does not.
-/

/-- Between the two assignments that start a new millisecond and its `counter++`. -/
def Phase.afterStore : Phase → Bool
  | .stored _ | .zeroed _ => true
  | _ => false

/-- Before `counter = 0`, with `CURRENT_TIMESTAMP` already assigned. -/
def Phase.isStored : Phase → Bool
  | .stored _ => true
  | _ => false

/-- The call has read the clock at millisecond `t`. -/
def readsAt (t : Int) (ph : Phase) : Bool := ph.reading? = some t

/-- The call has obtained a pair of millisecond `t`. -/
def issuedAt (t : Int) (ph : Phase) : Bool := ph.issued?.any fun p => p.1 = t

/-- A new millisecond is started by one call alone: call `i`, standing in `ph`, does not
    enter `get_counter` while another call resets the counter, and does not take the reset
    branch while another call is inside. -/
def CallResetsAlone (s : Server) (i : Nat) : Phase → Prop
  | .read _    => NoOther Phase.resetting s.calls i
  | .checked t => s.globals.currentTimestamp = t ∨ NoOther Phase.inside s.calls i
  | .start | .locked | .same _ | .differs _ | .stored _ | .zeroed _ => True
  | .counted _ _ | .done _ _ => True

instance (s : Server) (i : Nat) : ∀ ph, Decidable (CallResetsAlone s i ph)
  | .read _    => inferInstanceAs (Decidable (NoOther Phase.resetting s.calls i))
  | .checked _ => inferInstanceAs (Decidable (_ ∨ NoOther Phase.inside s.calls i))
  | .start | .locked | .same _ | .differs _ | .stored _ | .zeroed _ =>
      inferInstanceAs (Decidable True)
  | .counted _ _ | .done _ _ => inferInstanceAs (Decidable True)

/-- The schedules in which every new millisecond is started by one call alone. -/
def ResetsAlone (s : Server) : Action → Prop
  | .tick _ => True
  | .call i => ∀ ph ∈ s.calls[i]?, CallResetsAlone s i ph

instance (s : Server) : ∀ a, Decidable (ResetsAlone s a)
  | .tick _ => inferInstanceAs (Decidable True)
  | .call i => inferInstanceAs (Decidable (∀ ph ∈ s.calls[i]?, CallResetsAlone s i ph))

/-! ### The invariant -/

/-- What the globals say about the locals of one call. -/
def PhaseOk (g : Globals) : Phase → Prop
  | .start | .locked | .read _ => True
  | .checked t => g.currentTimestamp ≤ t
  | .same t => g.currentTimestamp = t
  | .differs t => g.currentTimestamp < t
  | .stored t => g.currentTimestamp = t
  | .zeroed t => g.currentTimestamp = t ∧ g.counter = 0
  | .counted t c | .done t c =>
      0 ≤ c ∧ c < 4096 ∧ t ≤ g.currentTimestamp ∧ (t = g.currentTimestamp → c < g.counter)

/-- What holds between two different calls while `cur` is the current millisecond. -/
structure PairOk (cur : Int) (a b : Phase) : Prop where
  /-- A reset is alone inside `get_counter`. -/
  alone : a.resetting = true → b.inside = false
  /-- A millisecond that is being started has issued nothing yet. -/
  unissued : a.afterStore = true → ∀ p, b.issued? = some p → p.1 < cur
  /-- The pairs issued so far are different. -/
  distinct : ∀ p q, a.issued? = some p → b.issued? = some q → p ≠ q

/-- The invariant of the runs in which resets are alone. -/
structure Inv (g : Globals) (calls : List Phase) : Prop where
  phases : Everywhere (PhaseOk g) calls
  pairs : Mutually (PairOk g.currentTimestamp) calls
  counter_nonneg : 0 ≤ g.counter
  /-- Outside a reset the counter does not run ahead of the pairs issued. -/
  counter_le : Everywhere (fun ph => ph.isStored = false) calls →
    g.counter ≤ calls.countP (issuedAt g.currentTimestamp)

theorem Phase.inside_of_resetting {ph : Phase} (h : ph.resetting = true) : ph.inside = true := by
  cases ph <;> simp_all [Phase.resetting, Phase.inside]

theorem Phase.resetting_of_isStored {ph : Phase} (h : ph.isStored = true) :
    ph.resetting = true := by
  cases ph <;> simp_all [Phase.resetting, Phase.isStored]

/-- Every pair comes from a reading. -/
theorem readsAt_of_issuedAt {t : Int} {ph : Phase} (h : issuedAt t ph = true) :
    readsAt t ph = true := by
  cases ph <;> simp_all [issuedAt, readsAt, Phase.issued?, Phase.reading?]

theorem issuedAt_eq_false {t : Int} {ph : Phase} (h : ph.issued? = none) :
    issuedAt t ph = false := by
  simp [issuedAt, h]

/-- A pair that was issued obeys its clause of `PhaseOk`. -/
theorem PhaseOk.of_issued {g : Globals} {ph : Phase} {p : Int × Int} (h : PhaseOk g ph)
    (hp : ph.issued? = some p) :
    0 ≤ p.2 ∧ p.2 < 4096 ∧ p.1 ≤ g.currentTimestamp ∧
      (p.1 = g.currentTimestamp → p.2 < g.counter) := by
  cases ph <;> simp only [Phase.issued?, reduceCtorEq, Option.some.injEq] at hp
  all_goals
    subst hp
    exact h

/-- A call outside `get_counter` only depends on the globals through its pair. -/
theorem PhaseOk.of_outside {g g' : Globals} {ph : Phase} (h : PhaseOk g ph)
    (hout : ph.inside = false)
    (hissued : ∀ p, ph.issued? = some p → p.1 ≤ g'.currentTimestamp ∧
      (p.1 = g'.currentTimestamp → p.2 < g'.counter)) : PhaseOk g' ph := by
  cases ph <;> simp_all [PhaseOk, Phase.inside, Phase.issued?]

namespace Inv

variable {g : Globals} {calls : List Phase} {i : Nat} {ph ph' : Phase}

/-- A fresh process. -/
theorem initial (n : Nat) : Inv {} (List.replicate n .start) where
  phases := everywhere_replicate trivial n
  pairs := mutually_replicate
    ⟨by simp [Phase.resetting], by simp [Phase.afterStore], by simp [Phase.issued?]⟩ n
  counter_nonneg := le_rfl
  counter_le _ := by simp

/-- While a call is inside `get_counter`, no other call is resetting. -/
theorem others_not_resetting (h : Inv g calls) (hi : calls[i]? = some ph)
    (hin : ph.inside = true) {j : Nat} {a : Phase} (hj : j ≠ i) (ha : calls[j]? = some a) :
    a.resetting = false := by
  by_contra hres
  have hout := (h.pairs j i a ph hj ha hi).alone (Bool.not_eq_false _ ▸ hres)
  rw [hin] at hout
  exact absurd hout (by decide)

/-- A move that leaves the globals and issues nothing keeps the invariant, provided the
    call does not enter a reset or `get_counter` against the guard. -/
theorem quiet (h : Inv g calls) (hi : calls[i]? = some ph) (hok : PhaseOk g ph')
    (hissued : ph'.issued? = ph.issued?) (hlate : ph'.afterStore = false)
    (hstored : ph.isStored = false)
    (hreset : ph'.resetting = true → ∀ j a, j ≠ i → calls[j]? = some a → a.inside = false)
    (hinside : ph'.inside = true → ∀ j a, j ≠ i → calls[j]? = some a → a.resetting = false) :
    Inv g (calls.set i ph') where
  phases := h.phases.set hok fun _ _ _ _ ha => ha
  pairs := by
    refine h.pairs.set (fun j a hj ha => ⟨⟨?_, ?_, ?_⟩, ⟨?_, ?_, ?_⟩⟩)
      (fun _ _ _ _ _ _ _ _ hR => hR)
    · intro hres
      by_contra hin
      have := hinside (Bool.not_eq_false _ ▸ hin) j a hj ha
      rw [hres] at this
      exact absurd this (by decide)
    · rw [hissued]; exact (h.pairs j i a ph hj ha hi).unissued
    · rw [hissued]; exact (h.pairs j i a ph hj ha hi).distinct
    · exact fun hres => hreset hres j a hj ha
    · exact fun hafter => absurd hafter (by rw [hlate]; decide)
    · rw [hissued]; exact (h.pairs i j ph a (Ne.symm hj) hi ha).distinct
  counter_nonneg := h.counter_nonneg
  counter_le hnone := by
    have hcount := countP_set_add (p := issuedAt g.currentTimestamp) (b := ph') hi
    have hsame : issuedAt g.currentTimestamp ph' = issuedAt g.currentTimestamp ph := by
      simp only [issuedAt, hissued]
    have hold : Everywhere (fun x => x.isStored = false) calls := by
      intro j a ha
      by_cases hj : j = i
      · subst hj; rw [hi] at ha; exact Option.some.inj ha ▸ hstored
      · exact hnone j a (by rwa [List.getElem?_set_ne (Ne.symm hj)])
    have hle := h.counter_le hold
    rw [hsame] at hcount
    omega

/-- No call is between its store and its reset, if the one that moves is not. -/
theorem none_stored (hi : calls[i]? = some ph) (hstored : ph.isStored = false)
    (hothers : ∀ j a, j ≠ i → calls[j]? = some a → a.resetting = false) :
    Everywhere (fun x => x.isStored = false) calls := by
  intro j a ha
  by_cases hj : j = i
  · subst hj
    rw [hi] at ha
    exact Option.some.inj ha ▸ hstored
  · by_contra hst
    have hres := Phase.resetting_of_isStored (Bool.not_eq_false _ ▸ hst)
    rw [hothers j a hj ha] at hres
    exact absurd hres (by decide)

/-- A call that takes a pair of millisecond `t` is one more there. -/
theorem countP_issuedAt_counted {t c : Int} (hi : calls[i]? = some ph) (hin : ph.inside = true) :
    (calls.set i (.counted t c)).countP (issuedAt t) = calls.countP (issuedAt t) + 1 := by
  have hnotissued : ph.issued? = none := by cases ph <;> simp_all [Phase.inside, Phase.issued?]
  have hcensus := countP_set_add (p := issuedAt t) (b := .counted t c) hi
  have hnew : issuedAt t (.counted t c) = true := by simp [issuedAt, Phase.issued?]
  rw [issuedAt_eq_false hnotissued, hnew] at hcensus
  simpa only [Bool.false_eq_true, ↓reduceIte, Nat.add_zero] using hcensus

/-- `return counter++;` — the call takes the next pair of the current millisecond. -/
theorem count {t : Int} (h : Inv g calls) (hi : calls[i]? = some ph) (hcur : g.currentTimestamp = t)
    (hin : ph.inside = true) (hstored : ph.isStored = false)
    (hothers : ∀ j a, j ≠ i → calls[j]? = some a → a.resetting = false)
    (hbound : (calls.set i (.counted t g.counter)).countP (readsAt t) ≤ 4096) :
    Inv g.postIncrement.2 (calls.set i (.counted t g.postIncrement.1)) := by
  subst hcur
  -- The census of the current millisecond: one more pair, and never more than readings.
  have hcensus := countP_issuedAt_counted (t := g.currentTimestamp) (c := g.counter) hi hin
  have hreads : (calls.set i (.counted g.currentTimestamp g.counter)).countP
        (issuedAt g.currentTimestamp)
      ≤ (calls.set i (.counted g.currentTimestamp g.counter)).countP
        (readsAt g.currentTimestamp) :=
    List.countP_mono_left fun a _ ha => readsAt_of_issuedAt ha
  have hle := h.counter_le (none_stored hi hstored hothers)
  have hnn := h.counter_nonneg
  have hnext : g.postIncrement.2 = { g with counter := g.counter + 1 } := by
    simp only [Globals.postIncrement]
    rw [wrapInt_of_lt (by omega) (by omega)]
  rw [hnext]
  show Inv { g with counter := g.counter + 1 }
    (calls.set i (.counted g.currentTimestamp g.counter))
  refine ⟨?_, ?_, ?_, ?_⟩
  · refine h.phases.set ⟨hnn, by omega, le_rfl, fun _ => by simp only; omega⟩ ?_
    intro j a hj ha hok
    have hres := hothers j a hj ha
    cases a <;> simp only [PhaseOk, Phase.resetting, Bool.true_eq_false] at hok hres ⊢
    all_goals first | trivial | omega
  · refine h.pairs.set ?_ (fun _ _ _ _ _ _ _ _ hR => hR)
    intro j a hj ha
    have hres := hothers j a hj ha
    have hfresh : ∀ p, a.issued? = some p → p ≠ (g.currentTimestamp, g.counter) := by
      rintro p hp rfl
      have := (PhaseOk.of_issued (h.phases j a ha) hp).2.2.2 rfl
      exact absurd this (lt_irrefl _)
    refine ⟨⟨by simp [Phase.inside], ?_, ?_⟩, ⟨by simp [Phase.resetting], ?_, ?_⟩⟩
    · intro hafter
      have : a.resetting = true := by cases a <;> simp_all [Phase.resetting, Phase.afterStore]
      rw [hres] at this
      exact absurd this (by decide)
    · intro p q hp hq
      simp only [Phase.issued?, Option.some.injEq] at hq
      exact hq ▸ hfresh p hp
    · simp [Phase.afterStore]
    · intro p q hp hq
      simp only [Phase.issued?, Option.some.injEq] at hp
      exact hp ▸ (hfresh q hq).symm
  · simp only; omega
  · intro _
    simp only [hcensus]
    omega

/-- `CURRENT_TIMESTAMP = timestamp;` — a later millisecond becomes the current one. -/
theorem store {t : Int} (h : Inv g calls) (hi : calls[i]? = some (.differs t)) :
    Inv { g with currentTimestamp := t } (calls.set i (.stored t)) := by
  have hlt : g.currentTimestamp < t := h.phases i _ hi
  have hout : ∀ j a, j ≠ i → calls[j]? = some a → a.inside = false := fun j a hj ha =>
    (h.pairs i j _ a (Ne.symm hj) hi ha).alone rfl
  have hold : ∀ j a p, j ≠ i → calls[j]? = some a → a.issued? = some p → p.1 < t := by
    intro j a p _ ha hp
    have := (PhaseOk.of_issued (h.phases j a ha) hp).2.2.1
    omega
  refine ⟨?_, ?_, h.counter_nonneg, ?_⟩
  · refine h.phases.set (Q := PhaseOk { g with currentTimestamp := t }) rfl ?_
    intro j a hj ha hok
    refine hok.of_outside (hout j a hj ha) fun p hp => ?_
    have := hold j a p hj ha hp
    exact ⟨this.le, fun heq => absurd heq this.ne⟩
  · refine h.pairs.set ?_ ?_
    · intro j a hj ha
      refine ⟨⟨?_, ?_, by simp [Phase.issued?]⟩, ⟨fun _ => hout j a hj ha, ?_, ?_⟩⟩
      · intro hres
        have := hout j a hj ha
        rw [Phase.inside_of_resetting hres] at this
        exact absurd this (by decide)
      · simp [Phase.issued?]
      · exact fun _ p hp => hold j a p hj ha hp
      · simp [Phase.issued?]
    · intro j k a c hj hk ha hc hR
      exact ⟨hR.alone, fun _ p hp => hold k c p hk hc hp, hR.distinct⟩
  · intro hnone
    obtain ⟨hlen, -⟩ := List.getElem?_eq_some_iff.mp hi
    have := hnone i (.stored t) (by rw [List.getElem?_set_self hlen])
    simp [Phase.isStored] at this

/-- `counter = 0;` — the new millisecond starts counting. -/
theorem zero {t : Int} (h : Inv g calls) (hi : calls[i]? = some (.stored t)) :
    Inv { g with counter := 0 } (calls.set i (.zeroed t)) := by
  have hcur : g.currentTimestamp = t := h.phases i _ hi
  have hout : ∀ j a, j ≠ i → calls[j]? = some a → a.inside = false := fun j a hj ha =>
    (h.pairs i j _ a (Ne.symm hj) hi ha).alone rfl
  have hold : ∀ j a p, j ≠ i → calls[j]? = some a → a.issued? = some p →
      p.1 < g.currentTimestamp := fun j a p hj ha hp =>
    (h.pairs i j _ a (Ne.symm hj) hi ha).unissued rfl p hp
  refine ⟨?_, ?_, le_rfl, ?_⟩
  · refine h.phases.set (Q := PhaseOk { g with counter := 0 }) ⟨hcur, rfl⟩ ?_
    intro j a hj ha hok
    refine hok.of_outside (hout j a hj ha) fun p hp => ?_
    have := hold j a p hj ha hp
    exact ⟨this.le, fun heq => absurd heq this.ne⟩
  · refine h.pairs.set ?_ (fun _ _ _ _ _ _ _ _ hR => hR)
    intro j a hj ha
    refine ⟨⟨?_, ?_, by simp [Phase.issued?]⟩, ⟨fun _ => hout j a hj ha, ?_, ?_⟩⟩
    · intro hres
      have := hout j a hj ha
      rw [Phase.inside_of_resetting hres] at this
      exact absurd this (by decide)
    · simp [Phase.issued?]
    · exact fun _ p hp => hold j a p hj ha hp
    · simp [Phase.issued?]
  · intro _
    simp

end Inv

/-! ### Steps and runs -/

section

variable {mutexOf : Nat → Nat}

/-- A call keeps the reading it has taken. -/
theorem stepCall_reads {s s' : Server} {i : Nat} {ph : Phase} (hi : s.calls[i]? = some ph)
    (h : stepCall mutexOf s i ph = some s') (t : Int) :
    s.calls.countP (readsAt t) ≤ s'.calls.countP (readsAt t) := by
  have hset : ∀ ph', (readsAt t ph = true → readsAt t ph' = true) →
      s.calls.countP (readsAt t) ≤ (s.calls.set i ph').countP (readsAt t) := by
    intro ph' himp
    have hcensus := countP_set_add (p := readsAt t) (b := ph') hi
    by_cases hr : readsAt t ph = true
    · rw [hr, himp hr] at hcensus; omega
    · rw [Bool.eq_false_iff.mpr hr] at hcensus
      simp only [Bool.false_eq_true, ↓reduceIte] at hcensus
      omega
  cases ph <;> simp only [stepCall, lockStep, unlockStep, countStep] at h
  case done => exact absurd h (by simp)
  case start =>
    split at h
    · exact absurd h (by simp)
    · obtain rfl := Option.some.inj h
      exact hset _ id
  case read =>
    split at h
    · obtain rfl := Option.some.inj h; exact le_rfl
    · obtain rfl := Option.some.inj h; exact hset _ id
  case checked =>
    split at h
    · obtain rfl := Option.some.inj h; exact hset _ id
    · obtain rfl := Option.some.inj h; exact hset _ id
  case locked =>
    obtain rfl := Option.some.inj h
    exact hset _ (by simp [readsAt, Phase.reading?])
  all_goals
    obtain rfl := Option.some.inj h
    exact hset _ id

/-- **Step lemma.** A step in which resets are alone keeps the invariant, as long as no
    millisecond is read by more than `4096` calls. -/
theorem stepCall_inv {s s' : Server} {i : Nat} {ph : Phase} (hinv : Inv s.globals s.calls)
    (hi : s.calls[i]? = some ph) (halone : CallResetsAlone s i ph)
    (h : stepCall mutexOf s i ph = some s')
    (hbound : ∀ t, s'.calls.countP (readsAt t) ≤ 4096) : Inv s'.globals s'.calls := by
  have hok := hinv.phases i ph hi
  cases ph <;> simp only [stepCall, lockStep, unlockStep, countStep] at h
  case start =>
    split at h
    · exact absurd h (by simp)
    · obtain rfl := Option.some.inj h
      exact hinv.quiet hi trivial rfl rfl rfl (by simp [Phase.resetting]) (by simp [Phase.inside])
  case locked =>
    obtain rfl := Option.some.inj h
    exact hinv.quiet hi trivial rfl rfl rfl (by simp [Phase.resetting]) (by simp [Phase.inside])
  case read t =>
    split at h
    · obtain rfl := Option.some.inj h
      exact hinv
    · next hle =>
      obtain rfl := Option.some.inj h
      -- The guard: nobody is resetting when the call enters `get_counter`.
      exact hinv.quiet hi (not_lt.mp hle) rfl rfl rfl (by simp [Phase.resetting])
        fun _ j a hj ha => halone.eq_false hj ha
  case checked t =>
    have hothers := fun j a (hj : j ≠ i) ha => hinv.others_not_resetting hi rfl hj (a := a) ha
    split at h
    · next heq =>
      obtain rfl := Option.some.inj h
      exact hinv.quiet hi heq rfl rfl rfl (by simp [Phase.resetting])
        fun _ j a hj ha => hothers j a hj ha
    · next hne =>
      obtain rfl := Option.some.inj h
      -- The guard: the call is alone inside `get_counter` when it takes the reset branch.
      have hempty := halone.resolve_left hne
      refine hinv.quiet hi ?_ rfl rfl rfl (fun _ j a hj ha => hempty.eq_false hj ha)
        fun _ j a hj ha => hothers j a hj ha
      exact lt_of_le_of_ne hok hne
  case same t =>
    obtain rfl := Option.some.inj h
    exact hinv.count hi hok rfl rfl (fun j a hj ha => hinv.others_not_resetting hi rfl hj ha)
      (hbound t)
  case differs t =>
    obtain rfl := Option.some.inj h
    exact hinv.store hi
  case stored t =>
    obtain rfl := Option.some.inj h
    exact hinv.zero hi
  case zeroed t =>
    obtain rfl := Option.some.inj h
    exact hinv.count hi hok.1 rfl rfl (fun j a hj ha => hinv.others_not_resetting hi rfl hj ha)
      (hbound t)
  case counted t c =>
    obtain rfl := Option.some.inj h
    exact hinv.quiet hi hok rfl rfl rfl (by simp [Phase.resetting]) (by simp [Phase.inside])
  case done => exact absurd h (by simp)

/-- **Run lemma.** A schedule in which resets are alone ends in the invariant. -/
theorem run_inv {n : Nat} {clock : Int} {acts : List Action} {s : Server}
    (hrun : (server mutexOf).run (.initial n clock) acts = some s)
    (halone : (server mutexOf).Meets ResetsAlone (.initial n clock) acts)
    (hcount : ∀ t, s.calls.countP (readsAt t) ≤ 4096) : Inv s.globals s.calls := by
  refine Machine.guarded_bounded_run (C := ResetsAlone)
    (B := fun s => ∀ t, s.calls.countP (readsAt t) ≤ 4096)
    (I := fun s => Inv s.globals s.calls) ?_ ?_ (Inv.initial n) halone hrun hcount
  · intro s a s' hstep hB t
    obtain ⟨-, ⟨d, -, rfl⟩ | ⟨i, ph, -, hi, hcall⟩⟩ := stepServer_cases hstep
    · exact hB t
    · exact le_trans (stepCall_reads hi hcall t) (hB t)
  · intro s a s' hinv hC hstep hB
    obtain ⟨-, ⟨d, -, rfl⟩ | ⟨i, ph, rfl, hi, hcall⟩⟩ := stepServer_cases hstep
    · exact hinv
    · exact stepCall_inv hinv hi (hC ph hi) hcall hB

end

/-! ### Replies -/

/-- No two completed calls obtained the same pair, and no two replies carry the same id. -/
def DistinctReplies (m : MachineId) (s : Server) : Prop :=
  ∀ (i j : Nat) (t c t' c' : Int), i ≠ j → s.calls[i]? = some (.done t c) →
    s.calls[j]? = some (.done t' c') →
    (t, c) ≠ (t', c') ∧ uniqueIdString m t c ≠ uniqueIdString m t' c'

/-- Readings below `2 ^ 40` turn different pairs into different replies. -/
theorem Inv.distinctReplies {s : Server} (m : MachineId) (hinv : Inv s.globals s.calls)
    (hrange : ∀ ph ∈ s.calls, ∀ t ∈ ph.reading?, 0 ≤ t ∧ t < 2 ^ 40) : DistinctReplies m s := by
  intro i j t c t' c' hij hi hj
  have hpair := (hinv.pairs i j _ _ hij hi hj).distinct (t, c) (t', c') rfl rfl
  obtain ⟨hc0, hc1, -⟩ := hinv.phases i _ hi
  obtain ⟨hd0, hd1, -⟩ := hinv.phases j _ hj
  have ht := hrange _ (List.mem_of_getElem? hi) t rfl
  have ht' := hrange _ (List.mem_of_getElem? hj) t' rfl
  refine ⟨hpair, fun heq => hpair ?_⟩
  obtain ⟨rfl, rfl⟩ := idNumber_inj ht ht' ⟨hc0, by omega⟩ ⟨hd0, by omega⟩
    (uniqueIdString_eq_iff.mp heq)
  rfl

/-- **Uniqueness under interleaving.** Take any number of calls, any clock that does not run
    backwards with readings in `[0, 2 ^ 40)`, at most `4096` calls reading one millisecond,
    and any interleaving of their statements that the code's own mutexes allow.  If every
    new millisecond is started by one call alone, no two completed calls obtain the same
    pair and no two replies carry the same id. -/
theorem concurrent_replies_distinct (m : MachineId) (n : Nat) (clock : Int)
    (acts : List Action) (s : Server)
    (hrun : (server ownMutex).run (.initial n clock) acts = some s)
    (halone : (server ownMutex).Meets ResetsAlone (.initial n clock) acts)
    (hrange : ∀ ph ∈ s.calls, ∀ t ∈ ph.reading?, 0 ≤ t ∧ t < 2 ^ 40)
    (hcount : ∀ t, s.calls.countP (readsAt t) ≤ 4096) : DistinctReplies m s :=
  (run_inv hrun halone hcount).distinctReplies m hrange

/-- Three calls in the same millisecond, all of them begun before the first one starts it; the
    other two are in `get_counter` at the same time. -/
def overlappingSchedule : List Action :=
  [.call 0, .call 1, .call 0, .call 2, .call 0, .call 0, .call 0, .call 0, .call 0,
    .call 1, .call 1, .call 2, .call 1, .call 2, .call 1, .call 2, .call 2, .call 1, .call 0,
    .call 2]

theorem concurrent_replies_distinct_sample :
    DistinctReplies (.ofHash 0x10af)
      { clock := 5, globals := { currentTimestamp := 5, counter := 3 }, held := [],
        calls := [.done 5 0, .done 5 1, .done 5 2], exited := false } :=
  concurrent_replies_distinct (.ofHash 0x10af) 3 5 overlappingSchedule _ rfl (by decide)
    (by decide) fun _ => le_trans List.countP_le_length (by decide)

/-- Two calls that read the same millisecond and both find a new one: the second resets
    the counter that the first has already used. -/
def collidingSchedule : List Action :=
  [.call 0, .call 1, .call 0, .call 1, .call 0, .call 1, .call 0, .call 1,
    .call 0, .call 0, .call 0, .call 0, .call 1, .call 1, .call 1, .call 1]

/-- The code's own mutexes allow the colliding schedule: both calls obtain `(5, 0)` and
    reply with the same id. -/
theorem concurrent_calls_collide :
    ∃ s, (server ownMutex).run (.initial 2 5) collidingSchedule = some s ∧
      (∀ ph ∈ s.calls, ∀ t ∈ ph.reading?, 0 ≤ t ∧ t < 2 ^ 40) ∧
      (∀ t, s.calls.countP (readsAt t) ≤ 4096) ∧ ¬ DistinctReplies (.ofHash 0x10af) s := by
  refine ⟨_, rfl, by decide, fun _ => le_trans List.countP_le_length (by decide), fun h => ?_⟩
  exact (h 0 1 5 0 5 0 (by decide) rfl rfl).1 rfl

end ThriftBench.UniqueId
