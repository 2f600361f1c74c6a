import Mathlib.Data.List.Nodup
import ThriftBench.Lib.Machine
import ThriftBench.UniqueId.Counter

namespace ThriftBench.UniqueId

open Lib

/-!
# UniqueID service — runs across restarts

`CURRENT_TIMESTAMP` and `counter` live in memory only.  A run of the service on one machine
is a sequence of calls and restarts; a call whose reading is below `CURRENT_TIMESTAMP`
exits the process, and a restarted one serves the calls after it.

* `service` — the machine, with a log of the pairs returned and the process lifetime that
  returned each of them;
* `LogInv` — the invariant: inside a lifetime pairs are issued in increasing order, and
  every millisecond starts from counter `0`;
* `restart_replies_nodup_iff` — ids stay distinct across restarts exactly when no
  millisecond is served by two lifetimes.
-/

/-- A pair that was returned, and the process lifetime that returned it. -/
structure Served where
  lifetime : Nat
  timestamp : Int
  counterValue : Int
  deriving DecidableEq, Repr

/-- The service on one machine: the running process and everything returned so far, the
    latest first. -/
structure Service where
  lifetime : Nat := 0
  globals : Globals := {}
  log : List Served := []
  deriving DecidableEq, Repr

/-- What happens to the service. -/
inductive Event where
  | call (reading : Int)
  | restart
  deriving DecidableEq, Repr

namespace Service

/-- A new process lifetime: the globals start over. -/
def restart (s : Service) : Service :=
  { s with lifetime := s.lifetime + 1, globals := {} }

/-- A call that `get_counter` returned to. -/
def serve (s : Service) (t c : Int) (g : Globals) : Service :=
  { s with globals := g, log := ⟨s.lifetime, t, c⟩ :: s.log }

/-- The replies, rendered for the machine id that all lifetimes share. -/
def replies (s : Service) (m : MachineId) : List (Except StdException (List Char)) :=
  s.log.map fun x => uniqueIdString m x.timestamp x.counterValue

end Service

/-- The service, one event at a time. -/
def service : Machine Service Event where
  step
    | s, .restart => some s.restart
    | s, .call t  =>
      match getCounter s.globals t with
      -- `exit(EXIT_FAILURE)`; the process that is started in its place serves what follows.
      | none        => some s.restart
      | some (c, g) => some (s.serve t c g)

/-- A step of the service: a new lifetime, or one more pair. -/
theorem service_step_cases {s s' : Service} {e : Event} (h : service.step s e = some s') :
    s' = s.restart ∨ ∃ t c g, getCounter s.globals t = some (c, g) ∧ s' = s.serve t c g := by
  cases e with
  | restart => exact Or.inl (Option.some.inj h).symm
  | call t =>
    simp only [service] at h
    cases hc : getCounter s.globals t with
    | none =>
      rw [hc] at h
      exact Or.inl (Option.some.inj h).symm
    | some r =>
      obtain ⟨c, g⟩ := r
      rw [hc] at h
      exact Or.inr ⟨t, c, g, hc, (Option.some.inj h).symm⟩

/-- How many pairs of millisecond `t` were returned. -/
def servedAt (t : Int) (log : List Served) : Nat := log.countP fun x => x.timestamp = t

/-- The invariant of the service. -/
structure LogInv (s : Service) : Prop where
  lifetime_le : ∀ x ∈ s.log, x.lifetime ≤ s.lifetime
  /-- The pairs of the running lifetime are behind its globals. -/
  behind : ∀ x ∈ s.log, x.lifetime = s.lifetime → x.timestamp ≤ s.globals.currentTimestamp ∧
    (x.timestamp = s.globals.currentTimestamp → x.counterValue < s.globals.counter)
  counter_nonneg : 0 ≤ s.globals.counter
  counter_le : s.globals.counter ≤ servedAt s.globals.currentTimestamp s.log
  /-- A millisecond that is being counted was started at `0` by the running lifetime. -/
  started : 0 < s.globals.counter → ⟨s.lifetime, s.globals.currentTimestamp, 0⟩ ∈ s.log
  counterValue_lt : ∀ x ∈ s.log, 0 ≤ x.counterValue ∧ x.counterValue < 4096
  /-- Every lifetime starts every millisecond it serves at `0`. -/
  first : ∀ x ∈ s.log, ⟨x.lifetime, x.timestamp, 0⟩ ∈ s.log
  nodup : s.log.Nodup

theorem LogInv.initial : LogInv {} where
  lifetime_le := by simp
  behind := by simp
  counter_nonneg := le_rfl
  counter_le := le_rfl
  started h := absurd h (lt_irrefl _)
  counterValue_lt := by simp
  first := by simp
  nodup := List.nodup_nil

/-- A new lifetime knows nothing of the pairs returned before it. -/
theorem LogInv.restart {s : Service} (h : LogInv s) : LogInv s.restart where
  lifetime_le x hx := Nat.le_succ_of_le (h.lifetime_le x hx)
  behind x hx hlife := by
    have hle := h.lifetime_le x hx
    simp only [Service.restart] at hlife
    omega
  counter_nonneg := le_rfl
  counter_le := by
    show (0 : Int) ≤ _
    exact Int.natCast_nonneg _
  started hpos := absurd hpos (lt_irrefl _)
  counterValue_lt := h.counterValue_lt
  first := h.first
  nodup := h.nodup

/-- **Step lemma.** One more pair keeps the invariant, as long as no millisecond is served
    more than `4096` times. -/
theorem LogInv.serve {s : Service} (h : LogInv s) {t c : Int} {g : Globals}
    (hc : getCounter s.globals t = some (c, g))
    (hbound : servedAt t (s.serve t c g).log ≤ 4096) : LogInv (s.serve t c g) := by
  obtain ⟨hle, hval, rfl⟩ := getCounter_eq_some hc
  have hnn := h.counter_nonneg
  have hcount : servedAt t (⟨s.lifetime, t, c⟩ :: s.log) = servedAt t s.log + 1 := by
    simp [servedAt]
  simp only [Service.serve, hcount] at hbound
  -- The counter value taken: `0`, or one that the current millisecond has reached.
  have htaken : 0 ≤ c ∧ c ≤ servedAt t s.log := by
    split at hval
    · next heq => subst heq; exact ⟨by omega, by have := h.counter_le; omega⟩
    · exact ⟨by omega, by omega⟩
  have hwrap : wrapInt (c + 1) = c + 1 := wrapInt_of_lt (by omega) (by omega)
  rw [hwrap]
  have hstart : ⟨s.lifetime, t, 0⟩ ∈ (⟨s.lifetime, t, c⟩ :: s.log : List Served) := by
    by_cases hzero : c = 0
    · rw [hzero]; exact List.mem_cons_self
    · split at hval
      · next heq =>
        have := h.started (by omega)
        rw [heq] at this
        exact List.mem_cons_of_mem _ this
      · exact absurd hval hzero
  refine ⟨?_, ?_, by simp only [Service.serve]; omega, ?_, fun _ => hstart, ?_, ?_, ?_⟩
  · intro x hx
    rcases List.mem_cons.mp hx with rfl | hx
    · exact le_rfl
    · exact h.lifetime_le x hx
  · intro x hx hlife
    rcases List.mem_cons.mp hx with rfl | hx
    · exact ⟨le_rfl, fun _ => by simp only [Service.serve]; omega⟩
    · obtain ⟨hts, hlt⟩ := h.behind x hx hlife
      refine ⟨le_trans hts hle, fun heq => ?_⟩
      have hcur : s.globals.currentTimestamp = t := by simp only [Service.serve] at heq; omega
      have := hlt (by simp only [Service.serve] at heq; omega)
      rw [if_pos hcur] at hval
      simp only [Service.serve]
      omega
  · simp only [Service.serve, hcount]
    omega
  · intro x hx
    rcases List.mem_cons.mp hx with rfl | hx
    · exact ⟨htaken.1, by simp only; omega⟩
    · exact h.counterValue_lt x hx
  · intro x hx
    rcases List.mem_cons.mp hx with rfl | hx
    · exact hstart
    · exact List.mem_cons_of_mem _ (h.first x hx)
  · -- A pair returned before in this lifetime lies below the counter that `c` was read from.
    refine List.nodup_cons.mpr ⟨fun hmem => ?_, h.nodup⟩
    obtain ⟨hts, hlt⟩ := h.behind _ hmem rfl
    have hcur : s.globals.currentTimestamp = t := by simp only at hts; omega
    rw [if_pos hcur] at hval
    have := hlt hcur.symm
    simp only at this
    omega

/-- **Run lemma.** The invariant of every run that serves no millisecond more than `4096`
    times. -/
theorem service_run_inv {evs : List Event} {s : Service} (hrun : service.run {} evs = some s)
    (hcount : ∀ t, servedAt t s.log ≤ 4096) : LogInv s := by
  refine Machine.guarded_bounded_run (C := fun _ _ => True)
    (B := fun s => ∀ t, servedAt t s.log ≤ 4096) ?_ ?_ LogInv.initial
    (Machine.meets_true _ _) hrun hcount
  · intro s e s' hstep hB t
    rcases service_step_cases hstep with rfl | ⟨u, c, g, -, rfl⟩
    · exact hB t
    · refine le_trans ?_ (hB t)
      exact (List.sublist_cons_self _ _).countP_le
  · intro s e s' hinv _ hstep hB
    rcases service_step_cases hstep with rfl | ⟨t, c, g, hc, rfl⟩
    · exact hinv.restart
    · exact hinv.serve hc (hB t)

/-- **Uniqueness across restarts, exactly.** Take any run of calls and restarts whose
    readings are in `[0, 2 ^ 40)`, with at most `4096` completed calls per millisecond.  No
    id is returned twice exactly when no millisecond is served by two different process
    lifetimes. -/
theorem restart_replies_nodup_iff (m : MachineId) (evs : List Event) (s : Service)
    (hrun : service.run {} evs = some s)
    (hrange : ∀ x ∈ s.log, 0 ≤ x.timestamp ∧ x.timestamp < 2 ^ 40)
    (hcount : ∀ t, servedAt t s.log ≤ 4096) :
    (s.replies m).Nodup ↔
      ∀ x ∈ s.log, ∀ y ∈ s.log, x.lifetime ≠ y.lifetime → x.timestamp ≠ y.timestamp := by
  have hinv := service_run_inv hrun hcount
  have hinj : ∀ x ∈ s.log, ∀ y ∈ s.log, uniqueIdString m x.timestamp x.counterValue
      = uniqueIdString m y.timestamp y.counterValue →
      x.timestamp = y.timestamp ∧ x.counterValue = y.counterValue := by
    intro x hx y hy heq
    have hcx := hinv.counterValue_lt x hx
    have hcy := hinv.counterValue_lt y hy
    exact idNumber_inj (hrange x hx) (hrange y hy) ⟨hcx.1, by omega⟩ ⟨hcy.1, by omega⟩
      (uniqueIdString_eq_iff.mp heq)
  constructor
  · -- Two lifetimes that serve one millisecond both return its first id.
    intro hnodup x hx y hy hlife hts
    have hmap := List.inj_on_of_nodup_map hnodup (hinv.first x hx) (hinv.first y hy)
      (by simp only [hts])
    injection hmap with hsame
    exact hlife hsame
  · -- Equal ids are equal pairs, and equal pairs of one lifetime are one entry of the log.
    intro hapart
    apply hinv.nodup.map_on
    intro x hx y hy heq
    obtain ⟨hts, hc⟩ := hinj x hx y hy heq
    have hlife : x.lifetime = y.lifetime := by
      by_contra hne
      exact hapart x hx y hy hne hts
    cases x; cases y
    simp only [Served.mk.injEq]
    exact ⟨hlife, hts, hc⟩

/-- A restart between two milliseconds. -/
theorem restart_replies_nodup_iff_sample :
    (Service.replies ⟨1, ⟨11, 1⟩, [⟨1, 11, 0⟩, ⟨0, 10, 1⟩, ⟨0, 10, 0⟩]⟩ (.ofHash 0x10af)).Nodup :=
  (restart_replies_nodup_iff (.ofHash 0x10af) [.call 10, .call 10, .restart, .call 11] _ rfl
    (by decide) fun _ => le_trans List.countP_le_length (by decide)).mpr (by decide)

/-- The clock steps back, the call that reads it exits the process, and the restarted
    process meets a millisecond that was served before: the same id is returned again. -/
theorem restart_repeats_id :
    ∃ s, service.run {} [.call 10, .call 5, .call 10] = some s ∧
      (∀ x ∈ s.log, 0 ≤ x.timestamp ∧ x.timestamp < 2 ^ 40) ∧
      (∀ t, servedAt t s.log ≤ 4096) ∧ ¬ (s.replies (.ofHash 0x10af)).Nodup := by
  refine ⟨_, rfl, by decide, fun _ => le_trans List.countP_le_length (by decide), fun h => ?_⟩
  exact (List.nodup_cons.mp h).1 List.mem_cons_self

end ThriftBench.UniqueId
