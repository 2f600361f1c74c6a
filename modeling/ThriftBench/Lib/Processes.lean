import Mathlib.Algebra.Ring.Nat
import Mathlib.Data.List.Basic

namespace Lib

/-!
# Processes in a list

The local states of any number of concurrent processes are a list, and a step of
process `i` overwrites position `i` with `List.set`.  This file states what such a step
does to the kinds of fact an invariant is made of:

* `Everywhere P l` — every process satisfies `P`;
* `Mutually R l` — every two different processes are related by `R`;
* `l.countP p` — how many processes satisfy `p` (`countP_set_add`), and `(l.map f).sum`, what
  they have together (`sum_map_set_add`).

`NoOther p l i`, that no process but `i` satisfies `p`, is the form in which guards speak
about the rest of the processes.
-/

variable {α : Type*}

/-- Every process satisfies `P`. -/
def Everywhere (P : α → Prop) (l : List α) : Prop :=
  ∀ (i : Nat) a, l[i]? = some a → P a

/-- Every two different processes, in either order, are related by `R`. -/
def Mutually (R : α → α → Prop) (l : List α) : Prop :=
  ∀ (i j : Nat) a b, i ≠ j → l[i]? = some a → l[j]? = some b → R a b

/-- No process other than `i` satisfies `p`. -/
def NoOther (p : α → Bool) (l : List α) (i : Nat) : Prop :=
  ∀ (j : Nat) (h : j < l.length), j ≠ i → p l[j] = false

instance (p : α → Bool) (l : List α) (i : Nat) : Decidable (NoOther p l i) :=
  inferInstanceAs (Decidable (∀ (j : Nat) (h : j < l.length), j ≠ i → p l[j] = false))

theorem NoOther.eq_false {p : α → Bool} {l : List α} {i j : Nat} {a : α} (h : NoOther p l i)
    (hj : j ≠ i) (ha : l[j]? = some a) : p a = false := by
  obtain ⟨hlt, rfl⟩ := List.getElem?_eq_some_iff.mp ha
  exact h j hlt hj

/-- What process `i` does is its own affair. -/
theorem NoOther.set {p : α → Bool} {l : List α} {i : Nat} (h : NoOther p l i) (b : α) :
    NoOther p (l.set i b) i := by
  intro j hj hne
  rw [List.getElem_set_ne (Ne.symm hne)]
  exact h j (by rwa [List.length_set] at hj) hne

/-- What stands at position `j` after process `i` moved to `b`. -/
theorem getElem?_set_cases {l : List α} {i j : Nat} {b x : α}
    (h : (l.set i b)[j]? = some x) : (j = i ∧ x = b) ∨ (j ≠ i ∧ l[j]? = some x) := by
  by_cases hj : j = i
  · subst hj
    refine Or.inl ⟨rfl, ?_⟩
    rw [List.getElem?_set] at h
    simp only [↓reduceIte] at h
    split at h
    · exact (Option.some.inj h).symm
    · exact absurd h (by simp)
  · rw [List.getElem?_set_ne (Ne.symm hj)] at h
    exact Or.inr ⟨hj, h⟩

/-- What stands at position `j` after a process at `b` joined. -/
theorem getElem?_concat_cases {l : List α} {j : Nat} {b x : α}
    (h : (l ++ [b])[j]? = some x) : l[j]? = some x ∨ (j = l.length ∧ x = b) := by
  have hlt := (List.getElem?_eq_some_iff.mp h).1
  rw [List.length_append, List.length_singleton] at hlt
  rcases Nat.lt_succ_iff_lt_or_eq.mp hlt with hold | rfl
  · rw [List.getElem?_append_left hold] at h
    exact Or.inl h
  · rw [List.getElem?_concat_length] at h
    exact Or.inr ⟨rfl, (Option.some.inj h).symm⟩

/-- Processes that all start at the same place. -/
theorem everywhere_replicate {P : α → Prop} {a : α} (h : P a) (n : Nat) :
    Everywhere P (List.replicate n a) := by
  intro i b hb
  rw [(List.mem_replicate.mp (List.mem_of_getElem? hb)).2]
  exact h

theorem mutually_replicate {R : α → α → Prop} {a : α} (h : R a a) (n : Nat) :
    Mutually R (List.replicate n a) := by
  intro i j b c _ hb hc
  rw [(List.mem_replicate.mp (List.mem_of_getElem? hb)).2,
    (List.mem_replicate.mp (List.mem_of_getElem? hc)).2]
  exact h

/-- A step of process `i` to `b` keeps a local property, possibly strengthened from `P`
    to `Q`, when `b` has it and the step does not disturb the others. -/
theorem Everywhere.set {P Q : α → Prop} {l : List α} {i : Nat} {b : α} (h : Everywhere P l)
    (hb : Q b) (hrest : ∀ j a, j ≠ i → l[j]? = some a → P a → Q a) :
    Everywhere Q (l.set i b) := by
  intro j x hx
  rcases getElem?_set_cases hx with ⟨-, rfl⟩ | ⟨hj, hx⟩
  · exact hb
  · exact hrest j x hj hx (h j x hx)

/-- The same for a mutual property: the moved process is related to the others in both
    orders, and the others stay related among themselves. -/
theorem Mutually.set {R S : α → α → Prop} {l : List α} {i : Nat} {b : α} (h : Mutually R l)
    (hb : ∀ j a, j ≠ i → l[j]? = some a → S a b ∧ S b a)
    (hrest : ∀ j k a c, j ≠ i → k ≠ i → l[j]? = some a → l[k]? = some c → R a c → S a c) :
    Mutually S (l.set i b) := by
  intro j k x y hjk hx hy
  -- Either one of the two is the process that moved, or neither is; both cannot be.
  rcases getElem?_set_cases hx with ⟨rfl, rfl⟩ | ⟨hj, hx'⟩
  · rcases getElem?_set_cases hy with ⟨rfl, rfl⟩ | ⟨hk, hy'⟩
    · exact absurd rfl hjk
    · exact (hb k y hk hy').2
  · rcases getElem?_set_cases hy with ⟨rfl, rfl⟩ | ⟨hk, hy'⟩
    · exact (hb j x hj hx').1
    · exact hrest j k x y hj hk hx' hy' (h j k x y hjk hx' hy')

/-- A census after a step: process `i` leaves its old class and joins its new one. -/
theorem countP_set_add {p : α → Bool} {l : List α} {i : Nat} {a b : α} (h : l[i]? = some a) :
    (l.set i b).countP p + (if p a then 1 else 0) = l.countP p + (if p b then 1 else 0) := by
  obtain ⟨hi, rfl⟩ := List.getElem?_eq_some_iff.mp h
  -- `List.countP_set` subtracts the old class; that the census is positive there undoes it.
  have hpos : p l[i] = true → 0 < l.countP p := fun hp =>
    List.countP_pos_iff.mpr ⟨l[i], List.getElem_mem hi, hp⟩
  rw [List.countP_set hi]
  by_cases hp : p l[i] = true
  · have := hpos hp
    simp only [hp, ↓reduceIte]
    omega
  · simp only [hp]
    simp

/-- A total after a step: the share of process `i` changes, and no other one. -/
theorem sum_map_set_add {f : α → Nat} {l : List α} {i : Nat} {a b : α} (h : l[i]? = some a) :
    ((l.set i b).map f).sum + f a = (l.map f).sum + f b := by
  induction l generalizing i with
  | nil => exact absurd h (by simp)
  | cons c l ih =>
    cases i with
    | zero =>
      obtain rfl := Option.some.inj h
      simp only [List.set_cons_zero, List.map_cons, List.sum_cons]
      omega
    | succ i =>
      have hrest := ih h
      simp only [List.set_cons_succ, List.map_cons, List.sum_cons]
      omega

/-- Two classes that have no process in common and lie in a third one. -/
theorem countP_add_countP_le {p q r : α → Bool} (hp : ∀ a, p a = true → r a = true)
    (hq : ∀ a, q a = true → r a = true) (hdisj : ∀ a, p a = true → q a = false) (l : List α) :
    l.countP p + l.countP q ≤ l.countP r := by
  induction l with
  | nil => simp
  | cons a l ih =>
    simp only [List.countP_cons]
    by_cases hpa : p a = true
    · rw [hpa, hdisj a hpa, hp a hpa]
      simp only [Bool.false_eq_true, ↓reduceIte]
      omega
    · by_cases hqa : q a = true
      · rw [Bool.eq_false_iff.mpr hpa, hqa, hq a hqa]
        simp only [Bool.false_eq_true, ↓reduceIte]
        omega
      · rw [Bool.eq_false_iff.mpr hpa, Bool.eq_false_iff.mpr hqa]
        simp only [Bool.false_eq_true, ↓reduceIte]
        omega

end Lib
