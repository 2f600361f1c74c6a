import Mathlib.Data.List.Flatten
import Mathlib.Data.Nat.Basic

namespace Lib

/-!
# Writing through a pointer

`Cursor β` is a buffer and a pointer into it that moves on with every write
(`*data++ = x`).  A loop over a list, or over nested lists, that writes through a cursor
writes the elements one after the other: `foldlM_between` is the rule for one level, and its
result is again of the form that it asks of the loop's body.

`writeLogged` is the same write with a record of the positions written.  `foldlM_forget`
removes the record from a loop, and `writeLogged_logged` with `foldlM_keeps` says what it is.
-/

/-- A buffer, and the position of the next write. -/
structure Cursor (β : Type*) where
  buffer : List β
  position : Nat

namespace Cursor

variable {ε β γ : Type*} {pastEnd : ε}

/-- `*data++ = x`; a write outside the buffer is the error `pastEnd`. -/
def write (pastEnd : ε) (w : Cursor β) (x : β) : Except ε (Cursor β) :=
  if w.position < w.buffer.length then .ok ⟨w.buffer.set w.position x, w.position + 1⟩
  else .error pastEnd

/-- A cursor that has written `front` and has `back` still ahead of it. -/
def between (front back : List β) : Cursor β := ⟨front ++ back, front.length⟩

/-- A write moves one element from `back` to `front`. -/
theorem write_between (front back : List β) (b x : β) :
    write pastEnd (between front (b :: back)) x = .ok (between (front ++ [x]) back) := by
  have hlt : front.length < (front ++ b :: back).length := by
    rw [List.length_append, List.length_cons]
    omega
  rw [write, between, if_pos hlt, List.set_append_right _ _ le_rfl, Nat.sub_self,
    List.set_cons_zero, between, List.append_assoc, List.length_append]
  rfl

/-- **Loop rule.** A loop over `xs` whose body writes the elements `F x` for `x` writes all of
    them, as long as there is room. -/
theorem foldlM_between {f : Cursor β → γ → Except ε (Cursor β)} {F : γ → List β}
    (hf : ∀ x front back, (F x).length ≤ back.length →
      f (between front back) x = .ok (between (front ++ F x) (back.drop (F x).length)))
    (xs : List γ) (front back : List β) (hroom : (xs.flatMap F).length ≤ back.length) :
    xs.foldlM f (between front back)
      = .ok (between (front ++ xs.flatMap F) (back.drop (xs.flatMap F).length)) := by
  induction xs generalizing front back with
  | nil =>
    rw [List.flatMap_nil, List.append_nil, List.length_nil, List.drop_zero]
    rfl
  | cons x xs ih =>
    -- What the body wrote for `x` joins `front`, and the induction goes on from there.
    rw [List.flatMap_cons, List.length_append] at hroom
    rw [List.flatMap_cons, List.foldlM_cons, hf x front back (by omega)]
    show xs.foldlM f (between (front ++ F x) (back.drop (F x).length)) = _
    rw [ih _ _ (by rw [List.length_drop]; omega), List.append_assoc, List.drop_drop,
      List.length_append]

/-- A loop that writes the elements of a list. -/
theorem foldlM_write (xs front back : List β) (hroom : xs.length ≤ back.length) :
    xs.foldlM (write pastEnd) (between front back)
      = .ok (between (front ++ xs) (back.drop xs.length)) := by
  have hone : ∀ (x : β) (front back : List β), [x].length ≤ back.length →
      write pastEnd (between front back) x
        = .ok (between (front ++ [x]) (back.drop [x].length)) := by
    intro x front back hback
    cases back with
    | nil => exact absurd hback (by simp)
    | cons b back => exact write_between front back b x
  have hloop := foldlM_between (F := fun x => [x]) hone xs front back
  rw [List.flatMap_singleton'] at hloop
  exact hloop hroom

/-! ### The positions written -/

/-- `write`, and its position after those written before. -/
def writeLogged (pastEnd : ε) (w : Cursor β × List Nat) (x : β) :
    Except ε (Cursor β × List Nat) :=
  (write pastEnd w.1 x).map fun data => (data, w.2 ++ [w.1.position])

theorem writeLogged_fst (w : Cursor β × List Nat) (x : β) :
    (writeLogged pastEnd w x).map Prod.fst = write pastEnd w.1 x := by
  rw [writeLogged]
  cases write pastEnd w.1 x with
  | error e => rfl
  | ok data => rfl

/-- The positions before the next write were written once each, in this order. -/
def Logged (w : Cursor β × List Nat) : Prop := w.2 = List.range w.1.position

theorem writeLogged_logged {w w' : Cursor β × List Nat} {x : β} (h : Logged w)
    (hwrite : writeLogged pastEnd w x = .ok w') : Logged w' := by
  rw [writeLogged, write] at hwrite
  split at hwrite
  · obtain rfl := Except.ok.inj hwrite
    show w.2 ++ [w.1.position] = List.range (w.1.position + 1)
    rw [h, List.range_succ]
  · exact absurd hwrite (by simp [Except.map])

/-- A loop that carries a record along does to the rest of its state what the loop without
    the record does. -/
theorem foldlM_forget {σ τ : Type*} {f : σ → γ → Except ε σ}
    {f' : σ × τ → γ → Except ε (σ × τ)} (hf : ∀ s x, (f' s x).map Prod.fst = f s.1 x)
    (xs : List γ) (s : σ × τ) : (xs.foldlM f' s).map Prod.fst = xs.foldlM f s.1 := by
  induction xs generalizing s with
  | nil => rfl
  | cons x xs ih =>
    have hx := hf s x
    rw [List.foldlM_cons, List.foldlM_cons, ← hx]
    cases f' s x with
    | error e => rfl
    | ok s' => exact ih s'

/-- What the body keeps, the loop keeps. -/
theorem foldlM_keeps {σ : Type*} {I : σ → Prop} {f : σ → γ → Except ε σ}
    (hf : ∀ s x s', I s → f s x = .ok s' → I s') (xs : List γ) (s s' : σ) (hs : I s)
    (hloop : xs.foldlM f s = .ok s') : I s' := by
  induction xs generalizing s with
  | nil =>
    obtain rfl := Except.ok.inj hloop
    exact hs
  | cons x xs ih =>
    rw [List.foldlM_cons] at hloop
    cases hx : f s x with
    | error e =>
      rw [hx] at hloop
      exact absurd hloop (by simp [bind, Except.bind])
    | ok t =>
      rw [hx] at hloop
      exact ih t (hf s x t hs hx) hloop

end Cursor

end Lib
