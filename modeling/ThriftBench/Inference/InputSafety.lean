import ThriftBench.Inference.ComputeList

namespace ThriftBench.Inference

open Lib

/-!
# Inference server — requests of any size

The bounds of the copy loops are fixed, and nothing compares them with the size of the
request: a request that is too small is read past the end of one of its lists.
-/

section

variable {α β M T : Type*}

/-- A request is answered safely: it is not read past the end of a list, and if it does not
    contain the dimensions of `random_input`, the client gets an error reply. -/
def InputSafe (server : Server) (torch : Torch β M T) (cast : α → β) (one : β)
    (values : Grid α) : Prop :=
  (∀ i j k, computeList server torch cast one values ≠ .error (.readPastEnd i j k)) ∧
    (¬ values.Contains planes rows columns →
      computeList server torch cast one values = .error .exception)

/-- A request that is too small is read past the end of one of its lists. -/
theorem computeList_reads_past_end (server : Server) (torch : Torch β M T) (cast : α → β)
    (one : β) {values : Grid α} (hsmall : ¬ values.Contains planes rows columns) :
    ∃ i j k, computeList server torch cast one values = .error (.readPastEnd i j k) := by
  obtain ⟨e, herror, i, j, k, rfl⟩ := (copyValues_decides cast one values).error hsmall
  refine ⟨i, j, k, ?_⟩
  rw [computeList, herror]
  rfl

/-- **Input safety, exactly.** For every request, every libtorch and every conversion, each
    of the three servers answers safely if and only if the request contains `3` planes of
    `224` rows of `224` columns. -/
theorem inputSafe_iff (server : Server) (torch : Torch β M T) (cast : α → β) (one : β)
    (values : Grid α) :
    InputSafe server torch cast one values ↔ values.Contains planes rows columns := by
  constructor
  · rintro ⟨hreads, -⟩
    by_contra hsmall
    obtain ⟨i, j, k, hread⟩ := computeList_reads_past_end server torch cast one hsmall
    exact hreads i j k hread
  · intro hcontains
    obtain ⟨g, hok, hcopied⟩ := (copyValues_decides cast one values).ok hcontains
    refine ⟨fun i j k => ?_, fun hsmall => absurd hcontains hsmall⟩
    rw [computeList_eq hok hcopied.shape]
    split
    · simp
    · split <;> simp

end

/-- A libtorch whose model is the empty one and accepts every tensor. -/
def plainTorch : Torch Nat Unit Unit where
  module := ()
  load := some ()
  empty n := List.replicate n 0
  length_empty _ := List.length_replicate
  forward _ _ := some ()
  slice output := some output

/-- A request without any plane makes the copy loops read past the end of `values`. -/
theorem empty_request_reads_past_end :
    ¬ InputSafe .tthreaded plainTorch id 1 ([] : Grid Nat) := by
  rintro ⟨hreads, -⟩
  have hsmall : ¬ Grid.Contains planes rows columns ([] : Grid Nat) := by
    rintro ⟨hplanes, -⟩
    exact absurd hplanes (by decide)
  obtain ⟨i, j, k, hread⟩ := computeList_reads_past_end .tthreaded plainTorch id 1 hsmall
  exact hreads i j k hread

end ThriftBench.Inference
