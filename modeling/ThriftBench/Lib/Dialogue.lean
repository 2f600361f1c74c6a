import ThriftBench.Lib.Remote

namespace Lib

/-!
# Clients that ask before they go on

A program calls a server in a loop, reads a line after every answer, and leaves the loop by a
line or by an exception.  What it calls next depends on the answers and lines so far, and on
nothing else that happens in the system.

* `Dialogue` — such a loop; `Dialogue.play` — its variables after some answers;
* `play_isSome_iff` — when it has not been left;
* `Drives` — the runs in which the calls on a connection are those of a loop;
* `Follows` — what can be said of such a connection; `follows_of_run` — and is true in every
  such run;
* `Follows.calls_le` — no call follows a line that leaves the loop.
-/

/-- A loop with variables `V`, that reads lines `Λ`. -/
structure Dialogue (V Λ ι ρ : Type) where
  /-- The call of an iteration. -/
  call : V → ι
  /-- The outcome is an exception. -/
  throws : ρ → Bool
  /-- The line leaves the loop. -/
  quits : Λ → Bool
  /-- The variables after an outcome and a line. -/
  got : V → ρ → Λ → V

namespace Dialogue

variable {V Λ L τ σ α β ε ι ρ : Type} {link : Link L τ} {B : Backend σ α β}
  (p : Dialogue V Λ ι ρ)

/-- The variables after some outcomes, with `line i` read after the `i`-th of them; `none` where
    the loop has been left. -/
def play (line : Nat → Λ) (v : V) : List ρ → Option V
  | []      => some v
  | r :: rs =>
    if p.throws r = true then none
    else if p.quits (line 0) = true then none
    else play (fun i => line (i + 1)) (p.got v r (line 0)) rs

/-- The next call. -/
def next (line : Nat → Λ) (v : V) (outcomes : List ρ) : Option ι :=
  (p.play line v outcomes).map p.call

/-- The loop goes on exactly if none of the outcomes is an exception and none of the lines read
    leaves it. -/
theorem play_isSome_iff {line : Nat → Λ} {v : V} {rs : List ρ} :
    (p.play line v rs).isSome = true ↔
      (∀ r ∈ rs, p.throws r = false) ∧ ∀ i < rs.length, p.quits (line i) = false := by
  induction rs generalizing line v with
  | nil => simp [play]
  | cons r rs ih =>
    rw [play]
    by_cases hthrows : p.throws r = true
    · rw [if_pos hthrows]
      refine iff_of_false Bool.false_ne_true fun h => ?_
      exact absurd ((h.1 r List.mem_cons_self).symm.trans hthrows) Bool.false_ne_true
    · rw [if_neg hthrows]
      by_cases hquits : p.quits (line 0) = true
      · rw [if_pos hquits]
        refine iff_of_false Bool.false_ne_true fun h => ?_
        exact absurd ((h.2 0 (Nat.succ_pos _)).symm.trans hquits) Bool.false_ne_true
      · rw [if_neg hquits, ih, List.forall_mem_cons]
        have hline : (∀ i < (r :: rs).length, p.quits (line i) = false) ↔
            p.quits (line 0) = false ∧ ∀ i < rs.length, p.quits (line (i + 1)) = false :=
          Nat.forall_lt_succ_left
        rw [hline, Bool.eq_false_iff.mpr hthrows, Bool.eq_false_iff.mpr hquits]
        simp only [true_and]

/-- Every call on connection `k` is the next one of the loop. -/
def Drives (line : Nat → Λ) (v : V) (k : Nat) {R : Remote link B ε ι ρ} (s : R.State)
    (a : R.Step) : Prop :=
  ∀ x c, a = .act k (.send x) → s.sessions[k]? = some c → p.next line v c.outcomes = some x

/-- The calls on a connection are those of the loop, one after the other. -/
structure Follows (line : Nat → Λ) (v : V) (c : Session L ι ρ) : Prop where
  calls : ∀ (i : Nat) x, c.sent[i]? = some x → p.next line v (c.outcomes.take i) = some x
  idle : c.pending = none → c.sent.length = c.outcomes.length
  waits : ∀ x, c.pending = some x → c.sent.length = c.outcomes.length + 1

variable {p} {line : Nat → Λ} {v : V} {c c' : Session L ι ρ}

/-- No call follows a line that leaves the loop. -/
theorem Follows.calls_le (h : p.Follows line v c) {j : Nat} (hquits : p.quits (line j) = true) :
    c.sent.length ≤ j + 1 := by
  by_contra hlt
  obtain ⟨x, hx⟩ : ∃ x, c.sent[j + 1]? = some x :=
    ⟨_, List.getElem?_eq_getElem (Nat.lt_of_not_le hlt)⟩
  obtain ⟨w, hw, -⟩ := Option.map_eq_some_iff.mp (h.calls (j + 1) x hx)
  have hplays := (p.play_isSome_iff.mp (Option.isSome_of_eq_some hw)).2
  -- Line `j` was read before call `j + 1`.
  have hread : j < (c.outcomes.take (j + 1)).length := by
    have hcount : c.sent.length ≤ c.outcomes.length + 1 := by
      cases hpending : c.pending with
      | none => exact Nat.le_succ_of_le (Nat.le_of_eq (h.idle hpending))
      | some x => exact Nat.le_of_eq (h.waits x hpending)
    rw [List.length_take]
    omega
  exact absurd ((hplays j hread).symm.trans hquits) Bool.false_ne_true

/-- **Step.** -/
theorem Follows.effect {a : Act ι} (h : p.Follows line v c) (heffect : Remote.Effect c c' a)
    (hnext : ∀ x, a = .send x → p.next line v c.outcomes = some x) : p.Follows line v c' := by
  cases heffect with
  | ended _ hpending hsent houtcomes | served _ hpending hsent houtcomes =>
    refine ⟨?_, ?_, ?_⟩
    · rw [hsent, houtcomes]
      exact h.calls
    · rw [hpending, hsent, houtcomes]
      exact h.idle
    · rw [hpending, hsent, houtcomes]
      exact h.waits
  | sent x hidle _ hpending hsent houtcomes =>
    have hcount := h.idle hidle
    refine ⟨fun i y hy => ?_, fun hnone => ?_, fun _ _ => ?_⟩
    · rw [hsent] at hy
      rw [houtcomes]
      rcases getElem?_concat_cases hy with hold | ⟨rfl, rfl⟩
      · exact h.calls i y hold
      · rw [hcount, List.take_length]
        exact hnext y rfl
    · exact absurd (hpending.symm.trans hnone) (by simp)
    · rw [hsent, houtcomes, List.length_append, hcount]
      rfl
  | received x r hwaits _ hpending hsent houtcomes =>
    have hcount := h.waits x hwaits
    refine ⟨fun i y hy => ?_, fun _ => ?_, fun z hsome => ?_⟩
    · rw [hsent] at hy
      have hlt := (List.getElem?_eq_some_iff.mp hy).1
      rw [houtcomes, List.take_append_of_le_length (by omega)]
      exact h.calls i y hy
    · rw [hsent, houtcomes, List.length_append, hcount]
      rfl
    · exact absurd (hpending.symm.trans hsome) (by simp)

/-- **Run.** A connection whose calls are those of a loop follows it, whatever happens on the
    others. -/
theorem follows_of_run {R : Remote link B ε ι ρ} {b : σ} {k : Nat} {as : List R.Step}
    {s : R.State} (hrun : R.system.run (R.start b) as = some s)
    (hdrives : R.system.Meets (p.Drives line v k) (R.start b) as)
    (hk : s.sessions[k]? = some c) : p.Follows line v c := by
  have hfresh : p.Follows line v R.wiring.fresh :=
    ⟨fun i x hx => absurd hx (by simp [Remote.wiring]), fun _ => rfl, fun x hx => by cases hx⟩
  refine Machine.guarded_run
    (I := fun s => ∀ c, s.sessions[k]? = some c → p.Follows line v c) ?_
    (fun c hc => absurd hc (by simp [Remote.start])) hdrives hrun c hk
  intro s a s' h hguard hstep c hc
  cases a with
  | connect =>
    rcases Remote.step_connect_cases hstep with ⟨-, hsessions⟩ | ⟨-, hsessions⟩
    · exact h c (hsessions ▸ hc)
    · rw [hsessions] at hc
      rcases getElem?_concat_cases hc with hold | ⟨-, rfl⟩
      · exact h c hold
      · exact hfresh
  | act j a =>
    obtain ⟨d, d', hj, -, heffect, hsessions⟩ := Remote.step_act_cases hstep
    rw [hsessions] at hc
    rcases getElem?_set_cases hc with ⟨rfl, rfl⟩ | ⟨-, hc⟩
    · exact (h d hj).effect heffect fun x hx => hguard x d (by rw [hx]) hj
    · exact h c hc

/-- The first iteration, by a loop that is alone. -/
def once {ι : Type} (x : ι) : List (Wiring.Action (Act ι)) :=
  [.connect, .act 0 (.send x), .act 0 .serve, .act 0 .recv]

/-- It is one of the loop. -/
theorem drives_once (p : Dialogue V Λ ι ρ) (line : Nat → Λ) (v : V) (R : Remote link B ε ι ρ)
    (b : σ) : R.system.Meets (p.Drives line v 0) (R.start b) (once (p.call v)) := by
  refine .cons (fun x c h => by cases h) fun s hconnect => ?_
  refine .cons (fun x c h hc => ?_) fun s₁ _ => ?_
  · cases h
    rcases Remote.step_connect_cases hconnect with ⟨-, hsessions⟩ | ⟨-, hsessions⟩
    · rw [hsessions] at hc
      exact absurd hc (by simp [Remote.start])
    · rw [hsessions] at hc
      obtain rfl : R.wiring.fresh = c := Option.some.inj hc
      rfl
  · refine .cons (fun x c h => by cases h) fun s₂ _ => ?_
    exact .cons (fun x c h => by cases h) fun s₃ _ => trivial

end Dialogue

end Lib
