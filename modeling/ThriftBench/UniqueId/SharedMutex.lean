import ThriftBench.UniqueId.Interleaving
import ThriftBench.UniqueId.StaleReading

namespace ThriftBench.UniqueId

open Lib

/-!
# UniqueID service — one mutex object for all calls

`lock` and `unlock` stand around the clock reading and `get_counter`.  With one mutex object
for all calls they do what the code wants of them: calls pass one at a time
(`Exclusive`), so every new millisecond is started alone and readings are counted oldest
first.  Both guarantees then hold of every run, with no condition on the schedule.
-/

/-- Between `lock` and `unlock`. -/
def Phase.locking : Phase → Bool
  | .start | .done _ _ => false
  | _ => true

/-- What the next step of call `i`, which stands in the given phase, does to the mutex and to
    the call. -/
inductive LockEffect (mutexOf : Nat → Nat) (s : Server) (i : Nat) : Phase → Server → Prop where
  | lock : mutexOf i ∉ s.held →
      LockEffect mutexOf s i .start
        { s.move i .locked s.globals with held := mutexOf i :: s.held }
  | unlock (t c : Int) : LockEffect mutexOf s i (.counted t c) (unlockStep mutexOf s i t c)
  | inside {ph ph' : Phase} (g : Globals) : ph.locking = true → ph'.locking = true →
      LockEffect mutexOf s i ph (s.move i ph' g)
  | exit {ph : Phase} : LockEffect mutexOf s i ph { s with exited := true }

section

variable {mutexOf : Nat → Nat} {s s' : Server} {i : Nat} {ph : Phase}

theorem lockStep_effect (h : lockStep mutexOf s i = some s') :
    LockEffect mutexOf s i .start s' := by
  rw [lockStep] at h
  split at h
  · exact absurd h (by simp)
  · next hfree => exact Option.some.inj h ▸ .lock hfree

theorem stepCall_effect (h : stepCall mutexOf s i ph = some s') : LockEffect mutexOf s i ph s' := by
  cases ph <;> simp only [stepCall, reduceCtorEq] at h
  case start => exact lockStep_effect h
  case counted t c => exact Option.some.inj h ▸ .unlock t c
  case read t =>
    split at h
    · exact Option.some.inj h ▸ .exit
    · exact Option.some.inj h ▸ .inside _ rfl rfl
  case checked t =>
    split at h
    · exact Option.some.inj h ▸ .inside _ rfl rfl
    · exact Option.some.inj h ▸ .inside _ rfl rfl
  all_goals exact Option.some.inj h ▸ .inside _ rfl rfl

theorem stepCallAtomic_effect (h : stepCallAtomic mutexOf s i ph = some s') :
    LockEffect mutexOf s i ph s' := by
  cases ph <;> simp only [stepCallAtomic, reduceCtorEq] at h
  case start => exact lockStep_effect h
  case locked => exact Option.some.inj h ▸ .inside _ rfl rfl
  case counted t c => exact Option.some.inj h ▸ .unlock t c
  case read t =>
    split at h
    · exact Option.some.inj h ▸ .exit
    · exact Option.some.inj h ▸ .inside _ rfl rfl

end

/-- The invariant of one mutex object for all calls. -/
structure Exclusive (s : Server) : Prop where
  alone : Mutually (fun a b => a.locking = true → b.locking = false) s.calls
  /-- A call between `lock` and `unlock` has the object locked. -/
  locked : Everywhere (fun ph => ph.locking = true → s.held = [0]) s.calls
  free_or_held : s.held = [] ∨ s.held = [0]

namespace Exclusive

variable {s s' : Server} {i : Nat} {ph : Phase}

theorem initial (n : Nat) (clock : Int) : Exclusive (.initial n clock) where
  alone := mutually_replicate (fun hlock => absurd hlock (by decide)) n
  locked := everywhere_replicate (fun hlock => absurd hlock (by decide)) n
  free_or_held := Or.inl rfl

/-- While a call is between `lock` and `unlock`, no other call is. -/
theorem noOther (h : Exclusive s) (hi : s.calls[i]? = some ph) (hlock : ph.locking = true)
    {q : Phase → Bool} (hq : ∀ a, q a = true → a.locking = true) : NoOther q s.calls i := by
  intro j hj hne
  by_contra hqj
  have hother := h.alone i j ph _ (Ne.symm hne) hi (List.getElem?_eq_getElem hj) hlock
  rw [hq _ (Bool.not_eq_false _ ▸ hqj)] at hother
  exact absurd hother (by decide)

/-- **Step lemma.** A step of a call keeps the calls apart. -/
theorem step (h : Exclusive s) (hi : s.calls[i]? = some ph)
    (heffect : LockEffect sharedMutex s i ph s') : Exclusive s' := by
  obtain ⟨halone, hlocked, hheld⟩ := h
  cases heffect with
  | lock hfree =>
    -- The object is free, so nobody is between `lock` and `unlock`.
    have hempty : s.held = [] := hheld.resolve_right fun hone => by
      rw [hone] at hfree
      exact hfree List.mem_cons_self
    have hnobody : ∀ (j : Nat) (a : Phase), s.calls[j]? = some a → a.locking = false := by
      intro j a ha
      by_contra hlock
      have := hlocked j a ha (Bool.not_eq_false _ ▸ hlock)
      rw [hempty] at this
      exact absurd this (by simp)
    have hone : sharedMutex i :: s.held = [0] := by rw [hempty]; rfl
    refine ⟨halone.set (fun j a _ ha => ⟨fun hlock => ?_, fun _ => hnobody j a ha⟩)
      (fun _ _ _ _ _ _ _ _ hR => hR), fun _ _ _ _ => hone, Or.inr hone⟩
    rw [hnobody j a ha] at hlock
    exact absurd hlock (by decide)
  | unlock t c =>
    have hone : s.held = [0] := hlocked i _ hi rfl
    have hother : ∀ (j : Nat) (a : Phase), j ≠ i → s.calls[j]? = some a → a.locking = false :=
      fun j a hj ha => halone i j _ a (Ne.symm hj) hi ha rfl
    have hempty : s.held.erase (sharedMutex i) = [] := by rw [hone]; rfl
    refine ⟨halone.set (fun j a hj ha => ⟨fun _ => rfl, fun _ => hother j a hj ha⟩)
      (fun _ _ _ _ _ _ _ _ hR => hR), ?_, Or.inl hempty⟩
    refine hlocked.set (fun hlock => absurd hlock (by simp [Phase.locking])) ?_
    intro j a hj ha _ hlock
    rw [hother j a hj ha] at hlock
    exact absurd hlock (by decide)
  | inside g hlock hlock' =>
    have hother : ∀ (j : Nat) (a : Phase), j ≠ i → s.calls[j]? = some a → a.locking = false :=
      fun j a hj ha => halone i j _ a (Ne.symm hj) hi ha hlock
    refine ⟨halone.set (fun j a hj ha => ⟨fun ha' => ?_, fun _ => hother j a hj ha⟩)
      (fun _ _ _ _ _ _ _ _ hR => hR), ?_, hheld⟩
    · rw [hother j a hj ha] at ha'
      exact absurd ha' (by decide)
    · exact hlocked.set (fun _ => hlocked i _ hi hlock) fun _ _ _ _ hold => hold
  | exit => exact ⟨halone, hlocked, hheld⟩

/-- Both machines keep the calls apart. -/
theorem stepServer {stepOf : Server → Nat → Phase → Option Server}
    (heffect : ∀ s i ph s', stepOf s i ph = some s' → LockEffect sharedMutex s i ph s')
    (h : Exclusive s) {a : Action} (hstep : UniqueId.stepServer stepOf s a = some s') :
    Exclusive s' := by
  obtain ⟨-, ⟨d, -, rfl⟩ | ⟨i, ph, -, hi, hcall⟩⟩ := stepServer_cases hstep
  · exact ⟨h.alone, h.locked, h.free_or_held⟩
  · exact h.step hi (heffect s i ph s' hcall)

end Exclusive

/-! ### Uniqueness -/

/-- Under one mutex object every new millisecond is started by one call alone. -/
theorem Exclusive.resetsAlone {s : Server} (h : Exclusive s) (a : Action) : ResetsAlone s a := by
  cases a with
  | tick d => trivial
  | call i =>
    intro ph hph
    have hi : s.calls[i]? = some ph := hph
    cases ph
    case read t =>
      exact h.noOther hi rfl fun a ha => by cases a <;> simp_all [Phase.resetting, Phase.locking]
    case checked t =>
      exact Or.inr (h.noOther hi rfl fun a ha => by
        cases a <;> simp_all [Phase.inside, Phase.locking])
    all_goals trivial

/-- **Uniqueness with one mutex object.** Take any number of calls, any clock that does not
    run backwards with readings in `[0, 2 ^ 40)`, at most `4096` calls reading one
    millisecond, and any interleaving that one mutex object for all calls allows.  No two
    completed calls obtain the same pair and no two replies carry the same id. -/
theorem shared_mutex_replies_distinct (m : MachineId) (n : Nat) (clock : Int)
    (acts : List Action) (s : Server)
    (hrun : (server sharedMutex).run (.initial n clock) acts = some s)
    (hrange : ∀ ph ∈ s.calls, ∀ t ∈ ph.reading?, 0 ≤ t ∧ t < 2 ^ 40)
    (hcount : ∀ t, s.calls.countP (readsAt t) ≤ 4096) : DistinctReplies m s := by
  have halone : (server sharedMutex).Meets ResetsAlone (.initial n clock) acts :=
    Machine.meets_of_invariant (C := fun _ _ => True) (I := Exclusive)
      (fun _ _ _ h _ hs => h.stepServer (fun _ _ _ _ hcall => stepCall_effect hcall) hs)
      (fun _ a h _ => h.resetsAlone a) (Exclusive.initial n clock) (Machine.meets_true _ _)
  exact (run_inv hrun halone hcount).distinctReplies m hrange

/-! ### No exit -/

/-- Every reading taken is at least `-1`. -/
structure ReadsFromEpoch (s : Server) : Prop where
  clock : -1 ≤ s.clock
  waiting : Everywhere (fun ph => ∀ t, ph = .read t → -1 ≤ t) s.calls

theorem ReadsFromEpoch.step {s s' : Server} {a : Action} (h : ReadsFromEpoch s)
    (hstep : (atomicServer sharedMutex).step s a = some s') : ReadsFromEpoch s' := by
  obtain ⟨-, ⟨d, -, rfl⟩ | ⟨i, ph, -, hi, hcall⟩⟩ := stepServer_cases hstep
  · have := h.clock
    exact ⟨by show -1 ≤ s.clock + d; omega, h.waiting⟩
  by_cases hwait : isWaiting ph = true
  · obtain ⟨t, rfl⟩ : ∃ t, ph = .read t := by cases ph <;> simp_all [isWaiting]
    obtain ⟨-, rfl⟩ | ⟨-, c, g, -, rfl⟩ := stepCallAtomic_read hcall
    · exact ⟨h.clock, h.waiting⟩
    · exact ⟨h.clock, h.waiting.set (fun t ht => absurd ht (by simp)) fun _ _ _ _ hold => hold⟩
  · obtain ⟨ph', hcalls, -, hclock, -, hph'⟩ :=
      stepCallAtomic_quiet (Bool.eq_false_iff.mpr hwait) hcall
    refine ⟨by rw [hclock]; exact h.clock, ?_⟩
    rw [hcalls]
    refine h.waiting.set (fun t ht => ?_) fun _ _ _ _ hold => hold
    rcases hph' with rfl | hnot
    · obtain rfl := Phase.read.inj ht
      exact h.clock
    · rw [ht] at hnot
      exact absurd hnot (by simp [isWaiting])

/-- Under one mutex object readings are counted oldest first: no other call has one. -/
theorem Exclusive.oldestFirst {s : Server} (h : Exclusive s) (hreads : ReadsFromEpoch s)
    (a : Action) : OldestFirst s a := by
  cases a with
  | tick d => trivial
  | call i =>
    intro ph hph
    have hi : s.calls[i]? = some ph := hph
    cases ph
    case read t =>
      exact ⟨hreads.waiting i _ hi t rfl, h.noOther hi rfl fun a ha => by
        cases a <;> simp_all [waitsBelow, Phase.locking]⟩
    all_goals trivial

/-- **No exit with one mutex object.** Take any number of calls, any clock that does not run
    backwards from at least `-1`, and any interleaving that one mutex object for all calls
    allows.  No call exits. -/
theorem shared_mutex_no_exit (n : Nat) (clock : Int) (hclock : -1 ≤ clock)
    (acts : List Action) (s : Server)
    (hrun : (atomicServer sharedMutex).run (.initial n clock) acts = some s) :
    s.exited = false := by
  have hreads : ReadsFromEpoch (.initial n clock) :=
    ⟨hclock, everywhere_replicate (fun t ht => absurd ht (by simp)) n⟩
  have hfirst : (atomicServer sharedMutex).Meets OldestFirst (.initial n clock) acts :=
    Machine.meets_of_invariant (C := fun _ _ => True)
      (I := fun s => Exclusive s ∧ ReadsFromEpoch s)
      (fun _ _ _ h _ hs =>
        ⟨h.1.stepServer (fun _ _ _ _ hcall => stepCallAtomic_effect hcall) hs, h.2.step hs⟩)
      (fun _ a h _ => h.1.oldestFirst h.2 a) ⟨Exclusive.initial n clock, hreads⟩
      (Machine.meets_true _ _)
  exact (ReadingsAhead.of_run hrun hfirst).running

end ThriftBench.UniqueId
