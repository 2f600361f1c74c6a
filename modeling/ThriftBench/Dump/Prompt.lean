import Mathlib.Data.List.Basic
import ThriftBench.Lib.Machine

namespace ThriftBench.Dump

open Lib

/-!
# TradeHistory — the prompt loops

The main programs of the server and of the client ask the user in a `do`-`while` loop, until
a line begins with `q`.  At the end of the input `std::getline` leaves an empty string, which
does not.

* `promptLoop` — the loop, one iteration at a time; `serverLoop` and `clientLoop` differ in
  what an iteration does before it asks;
* `ends_nil`, `ends_cons` — what the first iteration decides;
* `ends_iff` — when the loop is left in time; `run_asks` — it goes on for ever otherwise;
* `prompts_end_iff` — the two loops.
-/

/-- `std::getline`: the next line, or an empty string where none is left. -/
def getline : List (List Char) → List Char × List (List Char)
  | []            => ([], [])
  | line :: input => (line, input)

/-- `str[0]`, which is the terminating zero of an empty string. -/
def firstChar (str : List Char) : Char := str.headD (Char.ofNat 0)

/-- Where a loop stands. -/
structure Prompt where
  /-- The lines that were not read yet. -/
  input : List (List Char)
  /-- How many iterations were begun. -/
  iterations : Nat
  left : Bool
  deriving DecidableEq, Repr

/-- The loop.  The part of iteration `i` before `std::getline` returns if `returns i`, and
    leaves the loop by an exception otherwise. -/
def promptLoop (returns : Nat → Bool) : Machine Prompt Unit where
  step p _ :=
    if p.left = true then
      none
    else if returns p.iterations = false then
      some { p with iterations := p.iterations + 1, left := true }
    else
      let (str, input) := getline p.input
      some ⟨input, p.iterations + 1, firstChar str == 'q'⟩

/-- The loop of the server, which prints before it asks. -/
def serverLoop : Machine Prompt Unit := promptLoop fun _ => true

/-- The loop of the client, which calls `get_last_sale` before it asks. -/
def clientLoop (get_last_sale : Nat → Bool) : Machine Prompt Unit := promptLoop get_last_sale

/-- The loop is left after at most one iteration more than there are lines. -/
def EndsWithInput (loop : Machine Prompt Unit) (lines : List (List Char)) : Prop :=
  ∃ n ≤ lines.length + 1, ∃ p,
    loop.run ⟨lines, 0, false⟩ (List.replicate n ()) = some p ∧ p.left = true

/-- A line that answers the prompt. -/
def Quits (line : List Char) : Prop := line.head? = some 'q'

/-! ### The loop -/

section

variable {returns : Nat → Bool} {line : List Char} {lines : List (List Char)} {i : Nat}

theorem firstChar_eq_iff (line : List Char) : firstChar line = 'q' ↔ Quits line := by
  unfold firstChar Quits
  cases line with
  | nil => decide
  | cons c line => rw [List.headD_cons, List.head?_cons, Option.some.injEq]

theorem firstChar_beq_eq_false (h : ¬ Quits line) : (firstChar line == 'q') = false :=
  beq_eq_false_iff_ne.mpr fun heq => h ((firstChar_eq_iff line).mp heq)

/-- The loop is left in time when `i` iterations were begun and `lines` are to come. -/
def Ends (returns : Nat → Bool) (i : Nat) (lines : List (List Char)) : Prop :=
  ∃ n ≤ lines.length + 1, ∃ p,
    (promptLoop returns).run ⟨lines, i, false⟩ (List.replicate n ()) = some p ∧ p.left = true

/-- An iteration that throws. -/
theorem step_throws (h : returns i = false) :
    (promptLoop returns).step ⟨lines, i, false⟩ () = some ⟨lines, i + 1, true⟩ := by
  simp [promptLoop, h]

/-- An iteration that asks. -/
theorem step_asks (h : returns i = true) :
    (promptLoop returns).step ⟨lines, i, false⟩ ()
      = some ⟨(getline lines).2, i + 1, firstChar (getline lines).1 == 'q'⟩ := by
  simp [promptLoop, h]

/-- An exception leaves the loop. -/
theorem ends_of_throws (h : returns i = false) : Ends returns i lines :=
  ⟨1, Nat.succ_pos _, _, Machine.run_cons (step_throws h) rfl, rfl⟩

/-- So does a line that quits, unless an exception has done it before. -/
theorem ends_of_quits (hquits : Quits line) : Ends returns i (line :: lines) := by
  cases h : returns i with
  | false => exact ends_of_throws h
  | true =>
    refine ⟨1, Nat.succ_pos _, _, Machine.run_cons (step_asks h) rfl, ?_⟩
    exact beq_iff_eq.mpr ((firstChar_eq_iff line).mpr hquits)

/-- Nothing else leaves the loop at the end of the input. -/
theorem ends_nil : Ends returns i [] ↔ returns i = false := by
  constructor
  · rintro ⟨n, hn, p, hrun, hleft⟩
    apply Bool.eq_false_iff.mpr
    intro hreturns
    cases n with
    | zero =>
      cases hrun
      exact absurd hleft Bool.false_ne_true
    | succ n =>
      obtain rfl : n = 0 := Nat.le_zero.mp (Nat.le_of_succ_le_succ hn)
      obtain ⟨q, hq, hrest⟩ := Machine.run_cons_eq_some.mp hrun
      cases (step_asks hreturns).symm.trans hq
      cases hrest
      -- The empty string does not begin with `q`.
      exact absurd hleft (by decide : (firstChar [] == 'q') ≠ true)
  · exact ends_of_throws

/-- Any other line is passed. -/
theorem ends_cons (h : returns i = true) (hquits : ¬ Quits line) :
    Ends returns i (line :: lines) ↔ Ends returns (i + 1) lines := by
  have hstep : (promptLoop returns).step ⟨line :: lines, i, false⟩ ()
      = some ⟨lines, i + 1, firstChar line == 'q'⟩ := step_asks h
  rw [firstChar_beq_eq_false hquits] at hstep
  constructor
  · rintro ⟨n, hn, p, hrun, hleft⟩
    cases n with
    | zero =>
      cases hrun
      exact absurd hleft Bool.false_ne_true
    | succ n =>
      obtain ⟨q, hq, hrest⟩ := Machine.run_cons_eq_some.mp hrun
      cases hstep.symm.trans hq
      exact ⟨n, Nat.le_of_succ_le_succ hn, p, hrest, hleft⟩
  · rintro ⟨n, hn, p, hrun, hleft⟩
    exact ⟨n + 1, Nat.succ_le_succ hn, p, Machine.run_cons hstep hrun, hleft⟩

/-- **Loop.** The loop is left in time exactly by a line that quits, or by an exception in one
    of the iterations up to the end of the input. -/
theorem ends_iff : Ends returns i lines ↔
    (∃ line ∈ lines, Quits line) ∨ ∃ j ≤ lines.length, returns (i + j) = false := by
  induction lines generalizing i with
  | nil =>
    rw [ends_nil]
    simp
  | cons line lines ih =>
    by_cases hquits : Quits line
    · exact iff_of_true (ends_of_quits hquits) (Or.inl ⟨line, List.mem_cons_self, hquits⟩)
    · cases h : returns i with
      | false => exact iff_of_true (ends_of_throws h) (Or.inr ⟨0, Nat.zero_le _, h⟩)
      | true =>
        rw [ends_cons h hquits, ih]
        apply or_congr
        · constructor
          · rintro ⟨l, hl, hq⟩
            exact ⟨l, List.mem_cons_of_mem line hl, hq⟩
          · rintro ⟨l, hl, hq⟩
            rcases List.mem_cons.mp hl with rfl | hl
            · exact absurd hq hquits
            · exact ⟨l, hl, hq⟩
        · have hshift : ∀ j, i + 1 + j = i + (j + 1) := fun j => by omega
          simp only [hshift]
          constructor
          · rintro ⟨j, hj, hthrows⟩
            exact ⟨j + 1, Nat.succ_le_succ hj, hthrows⟩
          · rintro ⟨j, hj, hthrows⟩
            cases j with
            | zero => exact absurd (h.symm.trans hthrows) (by decide)
            | succ j => exact ⟨j, Nat.le_of_succ_le_succ hj, hthrows⟩

/-- Without an exception the input is all that matters; without a line that quits, the loop
    goes on for ever. -/
theorem run_asks (hreturns : ∀ j, returns j = true) (hlines : ∀ line ∈ lines, ¬ Quits line)
    (n : Nat) : (promptLoop returns).run ⟨lines, i, false⟩ (List.replicate n ())
      = some ⟨lines.drop n, i + n, false⟩ := by
  induction n generalizing lines i with
  | zero => rfl
  | succ n ih =>
    have hshift : i + 1 + n = i + (n + 1) := by omega
    apply Machine.run_cons (step_asks (hreturns i))
    cases lines with
    | nil =>
      show (promptLoop returns).run ⟨[], i + 1, false⟩ _ = _
      rw [ih hlines, List.drop_nil, List.drop_nil, hshift]
    | cons line lines =>
      show (promptLoop returns).run ⟨lines, i + 1, firstChar line == 'q'⟩ _ = _
      rw [firstChar_beq_eq_false (hlines line List.mem_cons_self),
        ih fun l hl => hlines l (List.mem_cons_of_mem line hl), List.drop_succ_cons, hshift]

end

/-- **Prompts, exactly.** For every input and every behaviour of the calls: the loop of the
    server is left in time if and only if some line begins with `q`; that of the client if and
    only if some line does, or one of the calls up to the end of the input throws. -/
theorem prompts_end_iff (lines : List (List Char)) (get_last_sale : Nat → Bool) :
    (EndsWithInput serverLoop lines ↔ ∃ line ∈ lines, Quits line) ∧
      (EndsWithInput (clientLoop get_last_sale) lines ↔
        (∃ line ∈ lines, Quits line) ∨ ∃ i ≤ lines.length, get_last_sale i = false) := by
  constructor
  · show Ends (fun _ => true) 0 lines ↔ _
    rw [ends_iff]
    simp
  · show Ends get_last_sale 0 lines ↔ _
    rw [ends_iff]
    simp only [Nat.zero_add]

/-- Without any input the server asks for ever. -/
theorem server_asks_for_ever :
    (∀ n, serverLoop.run ⟨[], 0, false⟩ (List.replicate n ()) = some ⟨[], n, false⟩) ∧
      ¬ EndsWithInput serverLoop [] := by
  have hrun : ∀ n, serverLoop.run ⟨[], 0, false⟩ (List.replicate n ()) = some ⟨[], n, false⟩ := by
    intro n
    have hasks : serverLoop.run ⟨[], 0, false⟩ (List.replicate n ())
        = some ⟨[].drop n, 0 + n, false⟩ :=
      run_asks (fun _ => rfl) (List.forall_mem_nil _) n
    rwa [List.drop_nil, Nat.zero_add] at hasks
  refine ⟨hrun, ?_⟩
  rintro ⟨n, -, p, hp, hleft⟩
  cases (hrun n).symm.trans hp
  exact absurd hleft Bool.false_ne_true

end ThriftBench.Dump
