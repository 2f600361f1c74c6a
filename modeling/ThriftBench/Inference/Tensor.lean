import ThriftBench.Inference.InputSafety

namespace ThriftBench.Inference

open Lib

/-!
# Inference server — what the tensor holds

The copy loops go through the request by index and the pointer walk goes through
`random_input` by iterator.  They agree on the order: `values[i][j][k]` ends up at position
`(i * 224 + j) * 224 + k` of the tensor's buffer.

* `loadTensor` — both loops, with a record of the positions that the pointer walk writes;
* `computeList_eq_loadTensor` — a request is answered from what `loadTensor` leaves;
* `tensor_row_by_row` — what that is.
-/

section

variable {α β M T : Type*}

/-- `fillTensor`, with the positions written. -/
def fillTensorLogged (random_input : Grid β) (buffer : List β) :
    Except Failure (Cursor β × List Nat) :=
  random_input.foldlM (fun data i => i.foldlM (fun data j =>
    j.foldlM (Cursor.writeLogged .writePastEnd) data) data) (⟨buffer, 0⟩, [])

/-- What `compute_list` does before it runs the model. -/
def loadTensor (cast : α → β) (one : β) (values : Grid α) (buffer : List β) :
    Except Failure (Cursor β × List Nat) :=
  (copyValues cast one values).bind fun random_input => fillTensorLogged random_input buffer

/-- The record does not change what is written. -/
theorem fillTensorLogged_fst (g : Grid β) (buffer : List β) :
    (fillTensorLogged g buffer).map Prod.fst = fillTensor g buffer := by
  have hrow : ∀ (w : Cursor β × List Nat) (row : List β),
      (row.foldlM (Cursor.writeLogged Failure.writePastEnd) w).map Prod.fst
        = row.foldlM (Cursor.write Failure.writePastEnd) w.1 := fun w row =>
    Cursor.foldlM_forget Cursor.writeLogged_fst row w
  -- One level of the walk at a time, as in `fillTensor_eq`.
  exact Cursor.foldlM_forget (fun w plane => Cursor.foldlM_forget hrow plane w) g _

/-- The positions written are those before the pointer, once each and in order. -/
theorem fillTensorLogged_logged {g : Grid β} {buffer : List β} {w : Cursor β × List Nat}
    (hfill : fillTensorLogged g buffer = .ok w) : Cursor.Logged w := by
  have hwrite : ∀ (w : Cursor β × List Nat) (x : β) (w' : Cursor β × List Nat),
      Cursor.Logged w → Cursor.writeLogged Failure.writePastEnd w x = .ok w' →
        Cursor.Logged w' := fun _ _ _ => Cursor.writeLogged_logged
  have hrow := fun w row w' hw => Cursor.foldlM_keeps hwrite row w w' hw
  have hplane := fun w plane w' hw => Cursor.foldlM_keeps hrow plane w w' hw
  have hstart : Cursor.Logged ((⟨buffer, 0⟩, []) : Cursor β × List Nat) := rfl
  exact Cursor.foldlM_keeps hplane g _ w hstart hfill

/-- A request is answered from the buffer that `loadTensor` leaves. -/
theorem computeList_eq_loadTensor (server : Server) (torch : Torch β M T) (cast : α → β)
    (one : β) (values : Grid α) :
    computeList server torch cast one values
      = (loadTensor cast one values (torch.empty (1 * planes * rows * columns))).bind
          fun data =>
            match torch.forward (torch.load.getD torch.module) data.1.buffer with
            | none        => .error .exception
            | some output =>
              if server.printsOutput = true ∧ torch.slice output = none then .error .exception
              else .ok server.reply := by
  rw [computeList, loadTensor]
  cases copyValues cast one values with
  | error e => rfl
  | ok g =>
    show Except.bind (fillTensor g _) _ = Except.bind (fillTensorLogged g _) _
    rw [← fillTensorLogged_fst]
    cases fillTensorLogged g (torch.empty (1 * planes * rows * columns)) with
    | error e => rfl
    | ok w => rfl

/-- The tensor is filled with the elements of `random_input`. -/
theorem fillTensorLogged_eq {g : Grid β} {buffer : List β}
    (hlen : g.elements.length = buffer.length) :
    fillTensorLogged g buffer = .ok (⟨g.elements, buffer.length⟩, List.range buffer.length) := by
  have hforget := fillTensorLogged_fst g buffer
  rw [fillTensor_eq hlen] at hforget
  cases hfill : fillTensorLogged g buffer with
  | error e =>
    rw [hfill] at hforget
    exact absurd hforget (by simp [Except.map])
  | ok w =>
    obtain ⟨data, log⟩ := w
    have hlogged := fillTensorLogged_logged hfill
    rw [hfill] at hforget
    obtain rfl := Except.ok.inj hforget
    rw [show log = List.range buffer.length from hlogged]

/-- Requests that agree inside the dimensions are copied alike. -/
theorem copyValues_congr {cast : α → β} {one : β} {values values' : Grid α}
    (h : ∀ i, i < planes → ∀ j, j < rows → ∀ k, k < columns →
      values'.get? i j k = values.get? i j k) :
    copyValues cast one values' = copyValues cast one values := by
  refine forUpTo_congr (fun i hi => ?_) _
  funext s
  refine forUpTo_congr (fun j hj => ?_) s
  funext s
  refine forUpTo_congr (fun k hk => ?_) s
  funext s
  unfold copyElement
  rw [h i hi j hj k hk]

/-- **Row by row.** For every request that contains `3` planes of `224` rows of `224` columns,
    every conversion and every libtorch: `compute_list` writes every position of the tensor's
    buffer once, in order, and none outside; `values[i][j][k]`, converted, is at position
    `(i * 224 + j) * 224 + k`; and a request that agrees with this one inside the dimensions
    leaves the same buffer. -/
theorem tensor_row_by_row (torch : Torch β M T) (cast : α → β) (one : β) (values : Grid α)
    (hcontains : values.Contains planes rows columns) :
    ∃ data : Cursor β,
      loadTensor cast one values (torch.empty (1 * planes * rows * columns))
        = .ok (data, List.range (planes * rows * columns)) ∧
      data.buffer.length = planes * rows * columns ∧
      (∀ i, i < planes → ∀ j, j < rows → ∀ k, k < columns → ∃ x, values.get? i j k = some x ∧
        data.buffer[(i * rows + j) * columns + k]? = some (cast x)) ∧
      ∀ values' : Grid α, (∀ i, i < planes → ∀ j, j < rows → ∀ k, k < columns →
          values'.get? i j k = values.get? i j k) →
        loadTensor cast one values' (torch.empty (1 * planes * rows * columns))
          = loadTensor cast one values (torch.empty (1 * planes * rows * columns)) := by
  obtain ⟨g, hcopy, hcopied⟩ := (copyValues_decides cast one values).ok hcontains
  have hbuffer : (torch.empty (1 * planes * rows * columns)).length = planes * rows * columns := by
    rw [torch.length_empty, Nat.one_mul]
  have helements : g.elements.length = planes * rows * columns := by
    rw [hcopied.shape.length_elements, Nat.mul_assoc]
  refine ⟨⟨g.elements, planes * rows * columns⟩, ?_, helements, ?_, fun values' hsame => ?_⟩
  · rw [loadTensor, hcopy]
    show fillTensorLogged g _ = _
    rw [fillTensorLogged_eq (helements.trans hbuffer.symm), hbuffer]
  · intro i hi j hj k hk
    obtain ⟨x, hx⟩ := Option.isSome_iff_exists.mp (hcontains.get?_isSome hi hj hk)
    refine ⟨x, hx, ?_⟩
    show g.elements[(i * rows + j) * columns + k]? = _
    rw [hcopied.shape.getElem?_elements hj hk, hcopied.element i j k ⟨hi, hj, hk⟩, hx,
      Option.map_some]
  · rw [loadTensor, copyValues_congr hsame]
    rfl

end

/-- A request whose elements show their indices, with rows that are longer and longer, and with a
    fourth plane that is empty. -/
def raggedRequest : Grid Nat :=
  ((List.range planes).map fun i => (List.range rows).map fun j =>
    (List.range (columns + j)).map fun k => 1000000 * i + 1000 * j + k) ++ [[]]

theorem raggedRequest_get? {i j k : Nat} (hi : i < planes) (hj : j < rows) (hk : k < columns) :
    raggedRequest.get? i j k = some (1000000 * i + 1000 * j + k) := by
  have hplane : raggedRequest[i]? = some ((List.range rows).map fun j =>
      (List.range (columns + j)).map fun k => 1000000 * i + 1000 * j + k) := by
    rw [raggedRequest, List.getElem?_append_left (by simpa using hi), List.getElem?_map,
      List.getElem?_range hi]
    rfl
  rw [Grid.get?, hplane, Option.bind_eq_bind, Option.bind_some, List.getElem?_map,
    List.getElem?_range hj, Option.map_some, Option.bind_eq_bind, Option.bind_some,
    List.getElem?_map, List.getElem?_range (Nat.lt_of_lt_of_le hk (Nat.le_add_right _ _)),
    Option.map_some]

/-- The tensor has the elements in their order, and nothing of the surplus. -/
theorem tensor_row_by_row_sample :
    ∃ data : Cursor Nat,
      loadTensor id 1 raggedRequest (plainTorch.empty (1 * planes * rows * columns))
        = .ok (data, List.range (planes * rows * columns)) ∧
      data.buffer.length = planes * rows * columns ∧
      ∀ i, i < planes → ∀ j, j < rows → ∀ k, k < columns →
        data.buffer[(i * rows + j) * columns + k]? = some (1000000 * i + 1000 * j + k) := by
  have hcontains : raggedRequest.Contains planes rows columns :=
    (Grid.contains_iff (by decide) (by decide)).mpr fun i hi j hj k hk => by
      rw [raggedRequest_get? hi hj hk]
      rfl
  obtain ⟨data, hload, hlength, helements, -⟩ :=
    tensor_row_by_row plainTorch id 1 raggedRequest hcontains
  refine ⟨data, hload, hlength, fun i hi j hj k hk => ?_⟩
  obtain ⟨x, hx, hbuffer⟩ := helements i hi j hj k hk
  rw [raggedRequest_get? hi hj hk] at hx
  rw [hbuffer, ← Option.some.inj hx]
  rfl

end ThriftBench.Inference
