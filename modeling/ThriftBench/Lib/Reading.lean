import Mathlib.Data.List.Forall2

namespace Lib

/-!
# Reading what was written

A writer leaves tokens, and a reader takes a value off the front of an input.  How an input
represents tokens is left open: `Holds i ts` says that `i` has the tokens `ts` still to be
read.

* `Reads Holds r ts a` — from every input that holds `ts` first, `r` returns `a` and leaves
  what comes after;
* `Reads.pure`, `Reads.bind`, `Reads.times` — the rules for sequences and for counted loops;
* `readFields` and `Reads.fields` — a record of tagged fields that ends with a stop: fields
  are read until the stop, in whatever order they come.
-/

/-- Takes a value off the front of an input, or fails. -/
abbrev Reader (I ε α : Type) := StateT I (Except ε) α

section

variable {I ε τ α β : Type} {Holds : I → List τ → Prop}

/-- From every input that holds `ts` and then anything, `r` takes `ts` and returns `a`. -/
def Reads (Holds : I → List τ → Prop) (r : Reader I ε α) (ts : List τ) (a : α) : Prop :=
  ∀ i rest, Holds i (ts ++ rest) → ∃ i', r i = .ok (a, i') ∧ Holds i' rest

namespace Reads

variable {r : Reader I ε α} {f : α → Reader I ε β} {ts ts' : List τ} {a : α} {b : β}

theorem pure (a : α) : Reads Holds (Pure.pure a : Reader I ε α) [] a :=
  fun i _ h => ⟨i, rfl, h⟩

/-- Two readers in a row read two pieces in a row. -/
theorem bind (h : Reads Holds r ts a) (hf : Reads Holds (f a) ts' b) :
    Reads Holds (r >>= f) (ts ++ ts') b := by
  intro i rest hi
  rw [List.append_assoc] at hi
  obtain ⟨j, hj, hrest⟩ := h i _ hi
  obtain ⟨k, hk, hk'⟩ := hf j rest hrest
  refine ⟨k, ?_, hk'⟩
  show (r i).bind (fun x => f x.1 x.2) = _
  rw [hj]
  exact hk

/-- What is returned may be computed from what was read. -/
theorem map {g : α → β} (h : Reads Holds r ts a) :
    Reads Holds (r >>= fun x => Pure.pure (g x)) ts (g a) := by
  have hpure : Reads Holds (Pure.pure (g a) : Reader I ε β) [] (g a) := pure _
  rw [← List.append_nil ts]
  exact h.bind hpure

end Reads

/-! ### Counted loops -/

/-- Reads `n` values. -/
def readTimes (r : Reader I ε α) : Nat → Reader I ε (List α)
  | 0     => pure []
  | n + 1 => do
    let x ← r
    let xs ← readTimes r n
    pure (x :: xs)

/-- **Counted loop.** As many pieces as are counted. -/
theorem Reads.times {r : Reader I ε α} {pieces : List (List τ)} {xs : List α}
    (h : List.Forall₂ (fun ts x => Reads Holds r ts x) pieces xs) :
    Reads Holds (readTimes r pieces.length) pieces.flatten xs := by
  induction h with
  | nil => exact Reads.pure []
  | cons hx _ ih =>
    rw [List.length_cons, List.flatten_cons]
    exact hx.bind ih.map

/-! ### Tagged fields -/

section

variable {σ κ φ : Type}

/-- Reads fields up to the stop, which `header` answers with `none`.  Every header takes some
    of the input, so that an input of `n` is exhausted after `n` of them. -/
def readFields (header : Reader I ε (Option κ)) (body : σ → κ → Reader I ε σ) (exhausted : ε) :
    Nat → σ → Reader I ε σ
  | 0,     _ => throw exhausted
  | n + 1, s => do
    match ← header with
    | none   => pure s
    | some k => do
      let s ← body s k
      readFields header body exhausted n s

variable {header : Reader I ε (Option κ)} {body : σ → κ → Reader I ε σ} {exhausted : ε}
  {opening content : φ → List τ} {key : φ → κ} {update : σ → φ → Option σ} {stop : List τ}

/-- **Fields.** If `body` does to the state what `update` says for every field on its own, the
    loop does it for all of them, in order. -/
theorem Reads.fields {fs : List φ} {s s' : σ} {n : Nat}
    (hopening : ∀ f ∈ fs, Reads Holds header (opening f) (some (key f)))
    (hcontent : ∀ f ∈ fs, ∀ s s', update s f = some s' →
      Reads Holds (body s (key f)) (content f) s')
    (hstop : Reads Holds header stop none) (hfold : fs.foldlM update s = some s')
    (hn : fs.length < n) :
    Reads Holds (readFields header body exhausted n s)
      (fs.flatMap (fun f => opening f ++ content f) ++ stop) s' := by
  induction fs generalizing s n with
  | nil =>
    obtain ⟨n, rfl⟩ : ∃ m, n = m + 1 := ⟨n - 1, by omega⟩
    obtain rfl := Option.some.inj hfold
    rw [readFields, List.flatMap_nil, List.nil_append, ← List.append_nil stop]
    exact hstop.bind (Reads.pure s)
  | cons f fs ih =>
    obtain ⟨n, rfl⟩ : ∃ m, n = m + 1 := ⟨n - 1, by omega⟩
    rw [List.foldlM_cons] at hfold
    obtain ⟨t, ht, hrest⟩ := Option.bind_eq_some_iff.mp hfold
    rw [List.length_cons] at hn
    have hlength : fs.length < n := Nat.lt_of_succ_lt_succ hn
    have hloop := ih (fun g hg => hopening g (List.mem_cons_of_mem f hg))
      (fun g hg => hcontent g (List.mem_cons_of_mem f hg)) hrest hlength
    rw [readFields, List.flatMap_cons, List.append_assoc, List.append_assoc]
    apply (hopening f List.mem_cons_self).bind
    exact (hcontent f List.mem_cons_self s t ht).bind hloop

end

end

end Lib
