import Mathlib.Logic.Basic

namespace Lib

/-!
# Counted loops that may fail

`forUpTo n body` is `for (int i = 0; i < n; i++) body`, whose body acts on a state and may
leave the loop with an error.

`Decides I E x P` says what a computation does where a proposition decides it: under `P` it
succeeds, in a state that satisfies `I`, and otherwise it fails, with an error that
satisfies `E`.  A loop whose bodies are decided by `P i` is decided by `∀ i < n, P i`
(`Decides.forUpTo`), so nested loops are decided level by level.
-/

variable {ε σ : Type*}

/-- The iterations `0`, …, `n - 1` of `body`, in this order. -/
def forUpTo : Nat → (Nat → σ → Except ε σ) → σ → Except ε σ
  | 0, _, s        => .ok s
  | n + 1, body, s => (forUpTo n body s).bind (body n)

/-- A loop only depends on what its bodies do. -/
theorem forUpTo_congr {n : Nat} {body body' : Nat → σ → Except ε σ}
    (h : ∀ i, i < n → body i = body' i) (s : σ) : forUpTo n body s = forUpTo n body' s := by
  induction n with
  | zero => rfl
  | succ n ih =>
    rw [forUpTo, forUpTo, ih fun i hi => h i (Nat.lt_succ_of_lt hi), h n (Nat.lt_succ_self n)]

/-- `P` decides whether `x` succeeds, with a state in `I`, or fails, with an error in `E`. -/
structure Decides (I : σ → Prop) (E : ε → Prop) (x : Except ε σ) (P : Prop) : Prop where
  ok : P → ∃ s, x = .ok s ∧ I s
  error : ¬ P → ∃ e, x = .error e ∧ E e

namespace Decides

variable {I J : σ → Prop} {E : ε → Prop} {x : Except ε σ} {P Q : Prop}

/-- The decision may be stated in another form. -/
theorem congr (h : Decides I E x P) (hPQ : P ↔ Q) : Decides I E x Q where
  ok hQ := h.ok (hPQ.mpr hQ)
  error hQ := h.error (mt hPQ.mp hQ)

/-- What is known of the state may be weakened. -/
theorem mono (h : Decides I E x P) (hIJ : ∀ s, I s → J s) : Decides J E x P where
  ok hP := by
    obtain ⟨s, hs, hI⟩ := h.ok hP
    exact ⟨s, hs, hIJ s hI⟩
  error := h.error

/-- Two computations in a row: both have to succeed. -/
theorem bind {f : σ → Except ε σ} (hx : Decides I E x P) (hf : ∀ s, I s → Decides J E (f s) Q) :
    Decides J E (x.bind f) (P ∧ Q) where
  ok hPQ := by
    obtain ⟨s, rfl, hs⟩ := hx.ok hPQ.1
    exact (hf s hs).ok hPQ.2
  error hPQ := by
    by_cases hP : P
    · obtain ⟨s, rfl, hs⟩ := hx.ok hP
      exact (hf s hs).error fun hQ => hPQ ⟨hP, hQ⟩
    · obtain ⟨e, rfl, he⟩ := hx.error hP
      exact ⟨e, rfl, he⟩

/-- **Loop rule.** `I i` describes the state before iteration `i`. -/
theorem forUpTo {I : Nat → σ → Prop} {P : Nat → Prop} {body : Nat → σ → Except ε σ} {n : Nat}
    {s : σ} (hs : I 0 s)
    (hbody : ∀ i s, i < n → I i s → Decides (I (i + 1)) E (body i s) (P i)) :
    Decides (I n) E (Lib.forUpTo n body s) (∀ i, i < n → P i) := by
  induction n with
  | zero =>
    refine ⟨fun _ => ⟨s, rfl, hs⟩, fun hP => absurd (fun i hi => ?_) hP⟩
    exact absurd hi (Nat.not_lt_zero i)
  | succ n ih =>
    -- The last iteration runs after all the others, as the recursion of `forUpTo` has it.
    have hinit := ih fun i s hi => hbody i s (Nat.lt_succ_of_lt hi)
    refine (hinit.bind fun s hs => hbody n s (Nat.lt_succ_self n) hs).congr ⟨?_, ?_⟩
    · rintro ⟨hfirst, hlast⟩ i hi
      rcases Nat.lt_succ_iff_lt_or_eq.mp hi with hlt | rfl
      · exact hfirst i hlt
      · exact hlast
    · exact fun hall => ⟨fun i hi => hall i (Nat.lt_succ_of_lt hi), hall n (Nat.lt_succ_self n)⟩

end Decides

end Lib
