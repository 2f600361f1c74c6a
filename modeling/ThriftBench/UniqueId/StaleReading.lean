import ThriftBench.UniqueId.Threads

namespace ThriftBench.UniqueId

open Lib

/-!
# UniqueID service — exits on a stale clock reading

`compute_unique_id` reads the clock and calls `get_counter` in two steps, under a mutex
that is local to the call.  A reading that waits while a later one is counted is below
`CURRENT_TIMESTAMP` when its turn comes, and `get_counter` takes it for a clock that ran
backwards (`stale_reading_exits`).

`OldestFirst` asks that a call be counted only while no other call waits with a smaller
reading, and with a reading of at least `-1`, the initial `CURRENT_TIMESTAMP`.  Under it no
call exits; and a run that has counted every reading without an exit kept it
(`no_exit_oldest_first`).
-/

/-- The call has read the clock, to less than `t`, and has not called `get_counter` yet. -/
def waitsBelow (t : Int) : Phase → Bool
  | .read u => u < t
  | _ => false

/-- The call has read the clock and has not called `get_counter` yet. -/
def isWaiting : Phase → Bool
  | .read _ => true
  | _ => false

/-- Call `i`, standing in `ph`, calls `get_counter` only with a reading of at least `-1`
    and while no other call waits with a smaller one. -/
def CallOldestFirst (s : Server) (i : Nat) : Phase → Prop
  | .read t => -1 ≤ t ∧ NoOther (waitsBelow t) s.calls i
  | .start | .locked | .checked _ | .same _ | .differs _ | .stored _ | .zeroed _ => True
  | .counted _ _ | .done _ _ => True

instance (s : Server) (i : Nat) : ∀ ph, Decidable (CallOldestFirst s i ph)
  | .read t => inferInstanceAs (Decidable (-1 ≤ t ∧ NoOther (waitsBelow t) s.calls i))
  | .start | .locked | .checked _ | .same _ | .differs _ | .stored _ | .zeroed _ =>
      inferInstanceAs (Decidable True)
  | .counted _ _ | .done _ _ => inferInstanceAs (Decidable True)

/-- The schedules that count readings oldest first. -/
def OldestFirst (s : Server) : Action → Prop
  | .tick _ => True
  | .call i => ∀ ph ∈ s.calls[i]?, CallOldestFirst s i ph

instance (s : Server) : ∀ a, Decidable (OldestFirst s a)
  | .tick _ => inferInstanceAs (Decidable True)
  | .call i => inferInstanceAs (Decidable (∀ ph ∈ s.calls[i]?, CallOldestFirst s i ph))

/-! ### What a step does -/

section

variable {mutexOf : Nat → Nat}

/-- A step of a call that stands before or after `get_counter`: the globals stay, and the
    call either reads the clock or is not waiting afterwards. -/
theorem stepCallAtomic_quiet {s s' : Server} {i : Nat} {ph : Phase}
    (hwait : isWaiting ph = false) (h : stepCallAtomic mutexOf s i ph = some s') :
    ∃ ph', s'.calls = s.calls.set i ph' ∧ s'.globals = s.globals ∧ s'.clock = s.clock ∧
      s'.exited = s.exited ∧ (ph' = .read s.clock ∨ isWaiting ph' = false) := by
  cases ph <;> simp only [stepCallAtomic, lockStep, unlockStep] at h
  case read => exact absurd hwait (by simp [isWaiting])
  case start =>
    split at h
    · exact absurd h (by simp)
    · obtain rfl := Option.some.inj h
      exact ⟨.locked, rfl, rfl, rfl, rfl, Or.inr rfl⟩
  case locked =>
    obtain rfl := Option.some.inj h
    exact ⟨.read s.clock, rfl, rfl, rfl, rfl, Or.inl rfl⟩
  case counted t c =>
    obtain rfl := Option.some.inj h
    exact ⟨.done t c, rfl, rfl, rfl, rfl, Or.inr rfl⟩
  all_goals exact absurd h (by simp)

/-- `get_counter` exits on a reading below `CURRENT_TIMESTAMP` and otherwise makes the
    reading the current one. -/
theorem stepCallAtomic_read {s s' : Server} {i : Nat} {t : Int}
    (h : stepCallAtomic mutexOf s i (.read t) = some s') :
    (t < s.globals.currentTimestamp ∧ s' = { s with exited := true }) ∨
      (s.globals.currentTimestamp ≤ t ∧ ∃ c g, g.currentTimestamp = t ∧
        s' = s.move i (.counted t c) g) := by
  simp only [stepCallAtomic] at h
  cases hc : getCounter s.globals t with
  | none =>
    rw [hc] at h
    exact Or.inl ⟨getCounter_eq_none.mp hc, (Option.some.inj h).symm⟩
  | some r =>
    obtain ⟨c, g⟩ := r
    rw [hc] at h
    obtain ⟨hle, -, rfl⟩ := getCounter_eq_some hc
    exact Or.inr ⟨hle, c, _, rfl, (Option.some.inj h).symm⟩

/-! ### No exit while readings are counted oldest first -/

/-- Every waiting reading is between the current millisecond and the clock. -/
structure ReadingsAhead (s : Server) : Prop where
  running : s.exited = false
  initial_le : -1 ≤ s.globals.currentTimestamp
  current : s.globals.currentTimestamp = -1 ∨ s.globals.currentTimestamp ≤ s.clock
  waiting : Everywhere (fun ph => ∀ t, ph = .read t →
    t ≤ s.clock ∧ (s.globals.currentTimestamp = -1 ∨ s.globals.currentTimestamp ≤ t)) s.calls

theorem ReadingsAhead.initial (n : Nat) (clock : Int) : ReadingsAhead (.initial n clock) where
  running := rfl
  initial_le := le_rfl
  current := Or.inl rfl
  waiting := everywhere_replicate (fun t hread => absurd hread (by simp)) n

/-- The clock advances past no waiting reading. -/
theorem ReadingsAhead.tick {s : Server} (h : ReadingsAhead s) (d : Nat) :
    ReadingsAhead { s with clock := s.clock + d } where
  running := h.running
  initial_le := h.initial_le
  current := by
    rcases h.current with hcur | hcur
    · exact Or.inl hcur
    · exact Or.inr (by simp only; omega)
  waiting j a ha t ht := by
    obtain ⟨hle, hcur⟩ := h.waiting j a ha t ht
    exact ⟨by simp only; omega, hcur⟩

/-- **Step lemma.** A step that counts oldest first neither exits nor lets a reading fall
    behind. -/
theorem ReadingsAhead.step {s s' : Server} {i : Nat} {ph : Phase} (h : ReadingsAhead s)
    (hi : s.calls[i]? = some ph) (hfirst : CallOldestFirst s i ph)
    (hstep : stepCallAtomic mutexOf s i ph = some s') : ReadingsAhead s' := by
  by_cases hwait : isWaiting ph = true
  · obtain ⟨t, rfl⟩ : ∃ t, ph = .read t := by cases ph <;> simp_all [isWaiting]
    obtain ⟨hge, holdest⟩ := hfirst
    obtain ⟨hclock, hcur⟩ := h.waiting i _ hi t rfl
    obtain ⟨hlt, -⟩ | ⟨hle, c, g, rfl, rfl⟩ := stepCallAtomic_read hstep
    · -- The reading is at least the current millisecond, so the call does not exit.
      omega
    · refine ⟨h.running, hge, Or.inr hclock, ?_⟩
      refine h.waiting.set (fun u hu => absurd hu (by simp)) fun j a hj ha hold u hu => ?_
      obtain ⟨huclock, -⟩ := hold u hu
      have hnot := holdest.eq_false hj ha
      rw [hu] at hnot
      simp only [waitsBelow, decide_eq_false_iff_not, not_lt] at hnot
      exact ⟨huclock, Or.inr hnot⟩
  · obtain ⟨ph', hcalls, hglobals, hclock, hexited, hph'⟩ :=
      stepCallAtomic_quiet (Bool.eq_false_iff.mpr hwait) hstep
    refine ⟨hexited.trans h.running, by rw [hglobals]; exact h.initial_le,
      by rw [hglobals, hclock]; exact h.current, ?_⟩
    rw [hcalls, hglobals, hclock]
    refine h.waiting.set (fun t ht => ?_) fun _ _ _ _ hold => hold
    rcases hph' with rfl | hnot
    · obtain rfl := Phase.read.inj ht
      exact ⟨le_rfl, h.current⟩
    · rw [ht] at hnot
      exact absurd hnot (by simp [isWaiting])

/-- **Run lemma.** A run that counts oldest first ends with every waiting reading ahead. -/
theorem ReadingsAhead.of_run {n : Nat} {clock : Int} {acts : List Action} {s : Server}
    (hrun : (atomicServer mutexOf).run (.initial n clock) acts = some s)
    (hfirst : (atomicServer mutexOf).Meets OldestFirst (.initial n clock) acts) :
    ReadingsAhead s := by
  refine Machine.guarded_run (C := OldestFirst) ?_ (ReadingsAhead.initial n clock) hfirst hrun
  intro s a s' hinv hC hstep
  obtain ⟨-, ⟨d, -, rfl⟩ | ⟨i, ph, rfl, hi, hcall⟩⟩ := stepServer_cases hstep
  · exact hinv.tick d
  · exact hinv.step hi (hC ph hi) hcall

/-! ### A reading that falls behind is never counted -/

/-- The process has exited, or some call waits with a reading that `get_counter` rejects. -/
def Doomed (s : Server) : Prop :=
  s.exited = true ∨
    ∃ (i : Nat) (t : Int), s.calls[i]? = some (.read t) ∧ t < s.globals.currentTimestamp

/-- Nothing saves a reading that has fallen behind. -/
theorem Doomed.step {s s' : Server} {a : Action} (h : Doomed s)
    (hstep : (atomicServer mutexOf).step s a = some s') : Doomed s' := by
  obtain ⟨hrunning, hcase⟩ := stepServer_cases hstep
  rcases h with hexited | ⟨j, u, hj, hlt⟩
  · rw [hrunning] at hexited
    exact absurd hexited (by decide)
  rcases hcase with ⟨d, -, rfl⟩ | ⟨i, ph, -, hi, hcall⟩
  · exact Or.inr ⟨j, u, hj, hlt⟩
  by_cases hij : i = j
  · -- The waiting call itself calls `get_counter`, and exits.
    subst hij
    obtain rfl := Option.some.inj (hi.symm.trans hj)
    obtain ⟨-, rfl⟩ | ⟨hle, -⟩ := stepCallAtomic_read hcall
    · exact Or.inl rfl
    · omega
  · by_cases hwait : isWaiting ph = true
    · obtain ⟨t, rfl⟩ : ∃ t, ph = .read t := by cases ph <;> simp_all [isWaiting]
      obtain ⟨-, rfl⟩ | ⟨hle, c, g, hg, rfl⟩ := stepCallAtomic_read hcall
      · exact Or.inl rfl
      · refine Or.inr ⟨j, u, ?_, ?_⟩
        · rw [Server.move_calls, List.getElem?_set_ne hij]; exact hj
        · rw [Server.move_globals, hg]; omega
    · obtain ⟨ph', hcalls, hglobals, -, -, -⟩ :=
        stepCallAtomic_quiet (Bool.eq_false_iff.mpr hwait) hcall
      refine Or.inr ⟨j, u, ?_, by rw [hglobals]; exact hlt⟩
      rw [hcalls, List.getElem?_set_ne hij]
      exact hj

/-- A step that breaks the order dooms the process. -/
theorem doomed_of_not_oldestFirst {s s' : Server} {a : Action}
    (hcur : -1 ≤ s.globals.currentTimestamp) (hnot : ¬ OldestFirst s a)
    (hstep : (atomicServer mutexOf).step s a = some s') : Doomed s' := by
  obtain ⟨-, ⟨d, rfl, -⟩ | ⟨i, ph, rfl, hi, hcall⟩⟩ := stepServer_cases hstep
  · exact absurd trivial hnot
  have hnot' : ¬ CallOldestFirst s i ph := by
    intro hok
    apply hnot
    intro ph₀ hph₀
    rw [hi] at hph₀
    exact Option.some.inj hph₀ ▸ hok
  obtain ⟨t, rfl⟩ : ∃ t, ph = .read t := by cases ph <;> simp_all [CallOldestFirst]
  obtain ⟨-, rfl⟩ | ⟨hle, c, g, hg, rfl⟩ := stepCallAtomic_read hcall
  · exact Or.inl rfl
  · -- Not an exit, so the reading was at least `-1` and another call waits with less.
    have hother : ¬ NoOther (waitsBelow t) s.calls i := fun hno => hnot' ⟨by omega, hno⟩
    simp only [NoOther, not_forall] at hother
    obtain ⟨j, hlen, hj, hwaits⟩ := hother
    have hjph := List.getElem?_eq_getElem hlen
    cases hph : s.calls[j] <;> simp only [hph, waitsBelow, not_true_eq_false] at hwaits
    next u =>
      refine Or.inr ⟨j, u, ?_, ?_⟩
      · rw [Server.move_calls, List.getElem?_set_ne (Ne.symm hj), hjph, hph]
      · rw [Server.move_globals, hg]
        simpa using hwaits

/-- `CURRENT_TIMESTAMP` never falls below its initial value. -/
theorem initial_le_step {s s' : Server} {a : Action} (h : -1 ≤ s.globals.currentTimestamp)
    (hstep : (atomicServer mutexOf).step s a = some s') : -1 ≤ s'.globals.currentTimestamp := by
  obtain ⟨-, ⟨d, -, rfl⟩ | ⟨i, ph, -, hi, hcall⟩⟩ := stepServer_cases hstep
  · exact h
  by_cases hwait : isWaiting ph = true
  · obtain ⟨t, rfl⟩ : ∃ t, ph = .read t := by cases ph <;> simp_all [isWaiting]
    obtain ⟨-, rfl⟩ | ⟨hle, c, g, rfl, rfl⟩ := stepCallAtomic_read hcall
    · exact h
    · exact le_trans h hle
  · obtain ⟨ph', -, hglobals, -⟩ := stepCallAtomic_quiet (Bool.eq_false_iff.mpr hwait) hcall
    rw [hglobals]
    exact h

end

/-- **No exit without a stale reading.** Take any number of calls, any clock that does not
    run backwards, and any interleaving that the code's own mutexes allow.  If readings are
    at least `-1` and counted oldest first, no call exits; and if no call exited and none is
    left waiting, they were. -/
theorem no_exit_oldest_first (n : Nat) (clock : Int) (acts : List Action) (s : Server)
    (hrun : (atomicServer ownMutex).run (.initial n clock) acts = some s) :
    ((atomicServer ownMutex).Meets OldestFirst (.initial n clock) acts → s.exited = false) ∧
      (s.exited = false → (∀ ph ∈ s.calls, isWaiting ph = false) →
        (atomicServer ownMutex).Meets OldestFirst (.initial n clock) acts) := by
  constructor
  · exact fun hfirst => (ReadingsAhead.of_run hrun hfirst).running
  · intro hrunning hnone
    rcases Machine.meets_or_marked (C := OldestFirst) (D := Doomed)
      (I := fun s => -1 ≤ s.globals.currentTimestamp) (fun _ _ _ h hs => initial_le_step h hs)
      (fun _ _ _ h hC hs => doomed_of_not_oldestFirst h hC hs) (fun _ _ _ h hs => h.step hs)
      le_rfl hrun with hmeets | hexited | ⟨i, t, hi, -⟩
    · exact hmeets
    · rw [hrunning] at hexited
      exact absurd hexited (by decide)
    · exact absurd (hnone _ (List.mem_of_getElem? hi)) (by simp [isWaiting])

/-- Two calls that take the clock and the counter one after the other. -/
def orderlySchedule : List Action :=
  [.call 0, .call 0, .call 0, .tick 1, .call 1, .call 1, .call 1]

/-- The orderly schedule counts oldest first and ends without an exit. -/
theorem no_exit_oldest_first_sample :
    ∃ s, (atomicServer ownMutex).run (.initial 2 4) orderlySchedule = some s ∧
      (atomicServer ownMutex).Meets OldestFirst (.initial 2 4) orderlySchedule ∧
      s.exited = false :=
  ⟨_, rfl, by decide, (no_exit_oldest_first 2 4 orderlySchedule _ rfl).1 (by decide)⟩

/-- Call `0` reads `4`, call `1` reads `5` and is counted first: call `0` then exits the
    process, although the clock never ran backwards. -/
theorem stale_reading_exits :
    ∃ s, (atomicServer ownMutex).run (.initial 2 4)
        [.call 0, .call 0, .tick 1, .call 1, .call 1, .call 1, .call 0] = some s ∧
      s.exited = true :=
  ⟨_, rfl, rfl⟩

end ThriftBench.UniqueId
