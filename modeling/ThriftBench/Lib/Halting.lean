import ThriftBench.Lib.Machine

namespace Lib

/-!
# Machines that halt

`Halts M s Q` says two things about the runs of `M` from `s`: they cannot go on for ever, and
a run that cannot go on has ended in `Q`.

* `Halts.of_measure` — the rule for proving it: an invariant, and a measure that every step
  decreases;
* `Halts.exists_end` — what refutes it: some run does end in `Q`.
-/

namespace Machine

variable {σ α : Type*} {M : Machine σ α}

/-- No action is enabled. -/
def Stuck (M : Machine σ α) (s : σ) : Prop := ∀ a, M.step s a = none

/-- Every run from `s` can be continued to one that is stuck, after a bounded number of steps,
    and ends in `Q` there. -/
structure Halts (M : Machine σ α) (s : σ) (Q : σ → Prop) : Prop where
  bounded : ∃ bound, ∀ as t, M.run s as = some t → as.length ≤ bound
  ends : ∀ t, M.Reaches s t → M.Stuck t → Q t

/-- **Measure rule.** Every step of a run pays for itself. -/
theorem length_add_measure_le {I : σ → Prop} {μ : σ → Nat}
    (hstep : ∀ s a s', I s → M.step s a = some s' → I s' ∧ μ s' < μ s) {s t : σ}
    {as : List α} (hs : I s) (hrun : M.run s as = some t) : I t ∧ as.length + μ t ≤ μ s := by
  induction as generalizing s with
  | nil =>
    cases hrun
    exact ⟨hs, Nat.le_of_eq (Nat.zero_add _)⟩
  | cons a as ih =>
    obtain ⟨s', hs', hrest⟩ := run_cons_eq_some.mp hrun
    obtain ⟨hI, hlt⟩ := hstep s a s' hs hs'
    obtain ⟨ht, hle⟩ := ih hI hrest
    refine ⟨ht, ?_⟩
    rw [List.length_cons]
    omega

/-- A machine halts whose steps keep an invariant and decrease a measure, if the states of the
    invariant that are stuck are in `Q`. -/
theorem Halts.of_measure {I Q : σ → Prop} {μ : σ → Nat}
    (hstep : ∀ s a s', I s → M.step s a = some s' → I s' ∧ μ s' < μ s)
    (hstuck : ∀ t, I t → M.Stuck t → Q t) {s : σ} (hs : I s) : M.Halts s Q where
  bounded := ⟨μ s, fun as t hrun => by
    have hle := (length_add_measure_le hstep hs hrun).2
    omega⟩
  ends := by
    rintro t ⟨as, hrun⟩ ht
    exact hstuck t (length_add_measure_le hstep hs hrun).1 ht

/-- Where the runs are bounded, one of them gets stuck. -/
theorem exists_stuck_of_bounded {n : Nat} {s : σ}
    (h : ∀ as t, M.run s as = some t → as.length ≤ n) : ∃ t, M.Reaches s t ∧ M.Stuck t := by
  induction n generalizing s with
  | zero =>
    refine ⟨s, Reaches.refl s, fun a => ?_⟩
    cases hs' : M.step s a with
    | none => rfl
    | some s' =>
      have hone := h [a] s' (run_cons hs' rfl)
      exact absurd hone (by simp)
  | succ n ih =>
    by_cases hstuck : M.Stuck s
    · exact ⟨s, Reaches.refl s, hstuck⟩
    · -- Some step is enabled, and the runs after it are shorter by one.
      obtain ⟨a, ha⟩ := not_forall.mp hstuck
      obtain ⟨s', hs'⟩ := Option.ne_none_iff_exists'.mp ha
      obtain ⟨t, ht, htstuck⟩ := ih fun as t hrun => Nat.succ_le_succ_iff.mp <|
        h (a :: as) t (run_cons hs' hrun)
      exact ⟨t, ht.head hs', htstuck⟩

/-- A machine that halts has a run to the end. -/
theorem Halts.exists_end {s : σ} {Q : σ → Prop} (h : M.Halts s Q) : ∃ t, M.Reaches s t ∧ Q t := by
  obtain ⟨n, hbounded⟩ := h.bounded
  obtain ⟨t, ht, hstuck⟩ := exists_stuck_of_bounded hbounded
  exact ⟨t, ht, h.ends t ht hstuck⟩

/-- What is known of all states that are reached may be added to what holds at the end. -/
theorem Halts.and {s : σ} {Q R : σ → Prop} (h : M.Halts s Q)
    (hR : ∀ t, M.Reaches s t → Q t → R t) : M.Halts s fun t => Q t ∧ R t where
  bounded := h.bounded
  ends t ht hstuck := ⟨h.ends t ht hstuck, hR t ht (h.ends t ht hstuck)⟩

end Machine

end Lib
