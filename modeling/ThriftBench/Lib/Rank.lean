import Mathlib.Data.List.Basic

namespace Lib

/-!
# Occurrence ranks

The rank of a position is the number of earlier positions that hold the same value: the
first occurrence of a value has rank `0`, the next one rank `1`, and so on up to
`l.count x - 1`.
-/

variable {α : Type*} [DecidableEq α]

/-- How many of the first `i` entries of `l` are `x`. -/
def rank (l : List α) (i : Nat) (x : α) : Nat := (l.take i).count x

@[simp] theorem rank_zero (l : List α) (x : α) : rank l 0 x = 0 := by simp [rank]

theorem rank_cons_succ (a : α) (l : List α) (i : Nat) (x : α) :
    rank (a :: l) (i + 1) x = rank l i x + if a = x then 1 else 0 := by
  simp [rank, List.count_cons]

/-- Ranks only grow along the list. -/
theorem rank_le_of_le (l : List α) {i j : Nat} (h : i ≤ j) (x : α) : rank l i x ≤ rank l j x :=
  (List.take_sublist_take_left h).count_le x

/-- Passing an occurrence raises the rank. -/
theorem rank_succ_of_getElem? {l : List α} {i : Nat} {x : α} (h : l[i]? = some x) :
    rank l (i + 1) x = rank l i x + 1 := by
  obtain ⟨hi, rfl⟩ := List.getElem?_eq_some_iff.mp h
  rw [rank, List.take_succ_eq_append_getElem hi, List.count_append, rank]
  simp

/-- Two positions of one value have different ranks, in the order of the positions. -/
theorem rank_lt_of_lt {l : List α} {i j : Nat} {x : α} (h : l[i]? = some x) (hij : i < j) :
    rank l i x < rank l j x := by
  have hsucc := rank_succ_of_getElem? h
  have hle := rank_le_of_le l (Nat.succ_le_of_lt hij) x
  simp only [Nat.succ_eq_add_one] at hle
  omega

/-- A rank is below the number of occurrences. -/
theorem rank_lt_count {l : List α} {i : Nat} {x : α} (h : l[i]? = some x) :
    rank l i x < l.count x := by
  have hlt := rank_lt_of_lt h (Nat.lt_succ_self i)
  have hle : rank l (i + 1) x ≤ l.count x := (List.take_sublist (i + 1) l).count_le x
  simp only [Nat.succ_eq_add_one] at hlt
  omega

/-- Every rank below the number of occurrences is taken. -/
theorem exists_rank_eq {l : List α} {k : Nat} {x : α} (h : k < l.count x) :
    ∃ i, l[i]? = some x ∧ rank l i x = k := by
  induction l generalizing k with
  | nil => simp at h
  | cons a l ih =>
    by_cases ha : a = x
    · subst ha
      rcases k with _ | k
      · exact ⟨0, rfl, rank_zero _ _⟩
      · rw [List.count_cons_self] at h
        obtain ⟨i, hi, hk⟩ := ih (by omega : k < l.count a)
        refine ⟨i + 1, hi, ?_⟩
        rw [rank_cons_succ, hk]
        simp
    · rw [List.count_cons_of_ne ha] at h
      obtain ⟨i, hi, hk⟩ := ih h
      refine ⟨i + 1, hi, ?_⟩
      rw [rank_cons_succ, hk]
      simp [ha]

end Lib
