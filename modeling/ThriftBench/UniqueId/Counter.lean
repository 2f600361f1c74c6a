import ThriftBench.Lib.Rank
import ThriftBench.UniqueId.PostId

namespace ThriftBench.UniqueId

open Lib

/-!
# UniqueID service — `get_counter` and serial runs

The two file-scope globals `CURRENT_TIMESTAMP` and `counter`, the function that reads and
updates them, and the run of one server process whose calls execute one after another.

* `getCounter` — the code; `none` is `exit(EXIT_FAILURE)`;
* `serialRun` — the pairs that the calls of a run obtain, until one of them exits;
* `issued_getElem?` — the `i`-th pair is the `i`-th reading with its rank among the equal
  readings;
* `serialRun_exit` — a run ends early exactly at the first reading that steps back.
-/

/-- The file-scope globals, initially `CURRENT_TIMESTAMP = -1` and `counter = 0`. -/
structure Globals where
  currentTimestamp : Int := -1
  counter : Int := 0
  deriving DecidableEq, Repr

/-- The value of a 32-bit `int`: overflow, which C++ leaves undefined, is taken to wrap.
    No run with fewer than `2 ^ 31` calls per reading gets there. -/
def wrapInt (x : Int) : Int := (x + 2 ^ 31) % 2 ^ 32 - 2 ^ 31

/-- `return counter++;` — the value returned and the globals left behind. -/
def Globals.postIncrement (g : Globals) : Int × Globals :=
  (g.counter, { g with counter := wrapInt (g.counter + 1) })

/-- `get_counter(timestamp)`; `none` where it calls `exit(EXIT_FAILURE)`. -/
def getCounter (g : Globals) (timestamp : Int) : Option (Int × Globals) :=
  if g.currentTimestamp > timestamp then
    none
  else if g.currentTimestamp = timestamp then
    some g.postIncrement
  else
    some (Globals.postIncrement { currentTimestamp := timestamp, counter := 0 })

/-- `get_counter` exits exactly on a reading below `CURRENT_TIMESTAMP`. -/
theorem getCounter_eq_none {g : Globals} {t : Int} :
    getCounter g t = none ↔ t < g.currentTimestamp := by
  unfold getCounter
  split
  · next h => simpa using h
  · next h => split <;> simp <;> omega

/-- What a call that returns obtains and leaves: the next value of `counter` where the
    reading is the current one, else `0`; `CURRENT_TIMESTAMP` is the reading. -/
theorem getCounter_eq_some {g g' : Globals} {t c : Int} (h : getCounter g t = some (c, g')) :
    g.currentTimestamp ≤ t ∧ c = (if g.currentTimestamp = t then g.counter else 0) ∧
      g' = { currentTimestamp := t, counter := wrapInt (c + 1) } := by
  unfold getCounter at h
  split at h
  · exact absurd h (by simp)
  · next hle =>
    split at h
    · next heq =>
      subst heq
      obtain ⟨rfl, rfl⟩ := Prod.mk.inj (Option.some.inj h)
      simp
    · next hne =>
      obtain ⟨rfl, rfl⟩ := Prod.mk.inj (Option.some.inj h)
      exact ⟨by omega, by simp [hne], rfl⟩

/-! ### Serial runs -/

/-- The outcome of a serial run: the `(timestamp, counter_value)` pairs of the completed
    calls, and whether the last call exited the process. -/
structure SerialRun where
  issued : List (Int × Int)
  exited : Bool
  deriving DecidableEq, Repr

/-- The calls of one process, one after another, with the given clock readings. -/
def serialRun : Globals → List Int → SerialRun
  | _, []      => { issued := [], exited := false }
  | g, t :: ts =>
    match getCounter g t with
    | none         => { issued := [], exited := true }
    | some (c, g') =>
      let rest := serialRun g' ts
      { rest with issued := (t, c) :: rest.issued }

/-- The numeric ids of the completed calls. -/
def SerialRun.ids (r : SerialRun) (m : MachineId) : List (Except StdException Nat) :=
  r.issued.map fun p => postId m p.1 p.2

/-- The replies of the completed calls. -/
def SerialRun.replies (r : SerialRun) (m : MachineId) : List (Except StdException (List Char)) :=
  r.issued.map fun p => uniqueIdString m p.1 p.2

/-- A `counter` that fits an `int`. -/
theorem wrapInt_of_lt {x : Int} (h0 : 0 ≤ x) (h1 : x < 2 ^ 31) : wrapInt x = x := by
  unfold wrapInt; omega

/-- **Rank law.** The `i`-th pair issued is the `i`-th reading together with its rank
    among the equal readings, counted on from `counter` where it is still the current
    millisecond. -/
theorem issued_getElem? {ts : List Int} {g : Globals} {i : Nat} {p : Int × Int}
    (hg : wrapInt g.counter = g.counter) (h : (serialRun g ts).issued[i]? = some p) :
    ts[i]? = some p.1 ∧ g.currentTimestamp ≤ p.1 ∧
      p.2 = wrapInt (rank ts i p.1 + if p.1 = g.currentTimestamp then g.counter else 0) := by
  induction ts generalizing g i with
  | nil => simp [serialRun] at h
  | cons t ts ih =>
    unfold serialRun at h
    cases hc : getCounter g t with
    | none => simp [hc] at h
    | some r =>
      obtain ⟨c, g'⟩ := r
      obtain ⟨hle, hval, rfl⟩ := getCounter_eq_some hc
      simp only [hc] at h
      rcases i with _ | i
      · -- the call itself
        rw [List.getElem?_cons_zero, Option.some.injEq] at h
        subst h
        refine ⟨rfl, hle, ?_⟩
        rw [rank_zero, hval]
        by_cases heq : t = g.currentTimestamp
        · simp [heq, hg]
        · simp [heq, Ne.symm heq, wrapInt]
      · -- a later call, by the induction hypothesis from the globals left behind
        rw [List.getElem?_cons_succ] at h
        have hg' : wrapInt (wrapInt (c + 1)) = wrapInt (c + 1) := by unfold wrapInt; omega
        obtain ⟨hts, hcur, hp⟩ := ih hg' h
        simp only at hcur hp
        refine ⟨hts, le_trans hle hcur, ?_⟩
        rw [hp, rank_cons_succ]
        by_cases hpt : p.1 = t
        · by_cases hgt : t = g.currentTimestamp
          · simp only [hpt, hval, hgt, ↓reduceIte, wrapInt]
            push_cast; omega
          · simp only [hpt, hval, hgt, Ne.symm hgt, ↓reduceIte, wrapInt]
            push_cast; omega
        · have hgp : p.1 ≠ g.currentTimestamp := by omega
          simp [hpt, hgp, Ne.symm hpt]

/-- The reading at position `i` is below the start or below an earlier reading. -/
def StepsBack (start : Int) (ts : List Int) (i : Nat) : Prop :=
  ∃ t, ts[i]? = some t ∧ (t < start ∨ ∃ j < i, ∃ u, ts[j]? = some u ∧ t < u)

/-- Past a reading that does not step back, stepping back is measured from it. -/
theorem stepsBack_cons_succ {s t : Int} {ts : List Int} {i : Nat} (h : s ≤ t) :
    StepsBack s (t :: ts) (i + 1) ↔ StepsBack t ts i := by
  constructor
  · rintro ⟨x, hx, hback⟩
    refine ⟨x, hx, ?_⟩
    rcases hback with hlt | ⟨j, hj, u, hu, hlt⟩
    · exact Or.inl (by omega)
    · rcases j with _ | j
      · rw [List.getElem?_cons_zero, Option.some.injEq] at hu
        exact Or.inl (by omega)
      · exact Or.inr ⟨j, by omega, u, hu, hlt⟩
  · rintro ⟨x, hx, hback⟩
    refine ⟨x, hx, ?_⟩
    rcases hback with hlt | ⟨j, hj, u, hu, hlt⟩
    · exact Or.inr ⟨0, by omega, t, rfl, hlt⟩
    · exact Or.inr ⟨j + 1, by omega, u, hu, hlt⟩

theorem stepsBack_cons_zero {s t : Int} {ts : List Int} : StepsBack s (t :: ts) 0 ↔ t < s := by
  simp [StepsBack]

/-- **Exit law.** No completed call steps back; a run that did not exit completed every
    call; a run that exited did so on a reading that steps back. -/
theorem serialRun_exit (g : Globals) (ts : List Int) :
    (∀ i < (serialRun g ts).issued.length, ¬ StepsBack g.currentTimestamp ts i) ∧
      ((serialRun g ts).exited = false → (serialRun g ts).issued.length = ts.length) ∧
      ((serialRun g ts).exited = true →
        StepsBack g.currentTimestamp ts (serialRun g ts).issued.length) := by
  induction ts generalizing g with
  | nil => simp [serialRun]
  | cons t ts ih =>
    unfold serialRun
    cases hc : getCounter g t with
    | none =>
      refine ⟨by simp, by simp, fun _ => ?_⟩
      exact stepsBack_cons_zero.mpr (getCounter_eq_none.mp hc)
    | some r =>
      obtain ⟨c, g'⟩ := r
      obtain ⟨hle, -, rfl⟩ := getCounter_eq_some hc
      obtain ⟨hfirst, hall, hlast⟩ := ih { currentTimestamp := t, counter := wrapInt (c + 1) }
      simp only [List.length_cons]
      refine ⟨?_, fun he => congrArg (· + 1) (hall he), fun he => ?_⟩
      · intro i hi
        rcases i with _ | i
        · rw [stepsBack_cons_zero]; omega
        · rw [stepsBack_cons_succ hle]
          exact hfirst i (by omega)
      · rw [stepsBack_cons_succ hle]
        exact hlast he

end ThriftBench.UniqueId
