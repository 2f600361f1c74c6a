import ThriftBench.Lib.CountedLoop
import ThriftBench.Lib.Cursor
import ThriftBench.Lib.Grid

namespace ThriftBench.Inference

open Lib

/-!
# Inference server — `compute_list`

`compute_list` copies a nested list of the request into `random_input`, walks a pointer over
a fresh tensor to fill it from there, and runs the model on the tensor.  The three servers
differ in the text of the reply and in what they print of the output.

* `copyValues` — the copy loops, with the reads of `values` that do not exist as errors;
* `fillTensor` — the pointer walk;
* `computeList` — the whole request.

libtorch is a parameter (`Torch`), and what it answers one request; the elements of the request
and of the tensor are of any types, with any conversion between them.
-/

/-- What ends a request without a reply. -/
inductive Failure where
  /-- `values[i][j][k]` does not exist: a read past the end of a list. -/
  | readPastEnd (i j k : Nat)
  /-- A write outside `random_input` or outside the tensor. -/
  | writePastEnd
  /-- An exception leaves the handler, and the client gets an error reply. -/
  | exception
  deriving DecidableEq, Repr

/-- The three servers that have a `compute_list`. -/
inductive Server where
  | tthreaded
  | threadpool
  | nonblocking
  deriving DecidableEq, Repr

namespace Server

/-- The text assigned to `_return`. -/
def reply : Server → String
  | .tthreaded => "processed"
  | .threadpool | .nonblocking => "Hello World"

/-- Whether `output.slice(1, 0, 5)` is printed. -/
def printsOutput : Server → Bool
  | .tthreaded => false
  | .threadpool | .nonblocking => true

end Server

/-- What a request uses of libtorch: modules `M`, outputs `T` and tensors of `β`.  These are the
    answers to one request; the next one may get others. -/
structure Torch (β M T : Type*) where
  /-- `torch::jit::script::Module module;` -/
  module : M
  /-- `torch::jit::load("./traced_resnet_model.pt")`; `none` where it throws. -/
  load : Option M
  /-- The uninitialised elements of `torch::empty({n})`. -/
  empty : Nat → List β
  length_empty : ∀ n, (empty n).length = n
  /-- `module.forward(inputs).toTensor()`; `none` where it throws. -/
  forward : M → List β → Option T
  /-- `output.slice(1, 0, 5)`; `none` where it throws. -/
  slice : T → Option T

/-- The dimensions of `random_input`. -/
def planes : Nat := 3
def rows : Nat := 224
def columns : Nat := 224

section

variable {α β M T : Type*}

/-- `random_input[i][j][k] = (float) values[i][j][k];` -/
def copyElement (cast : α → β) (values : Grid α) (i j k : Nat) (random_input : Grid β) :
    Except Failure (Grid β) :=
  match values.get? i j k with
  -- `operator[]` does not check its index.
  | none   => .error (.readPastEnd i j k)
  | some x =>
    match random_input.set? i j k (cast x) with
    | none   => .error .writePastEnd
    | some g => .ok g

/-- The copy loops, over a `random_input` of ones. -/
def copyValues (cast : α → β) (one : β) (values : Grid α) : Except Failure (Grid β) :=
  forUpTo planes (fun i => forUpTo rows fun j => forUpTo columns fun k =>
    copyElement cast values i j k) (Grid.replicate planes rows columns one)

/-- The pointer walk over the elements of `random_input`: `data` starts at the beginning of
    the tensor's buffer. -/
def fillTensor (random_input : Grid β) (buffer : List β) : Except Failure (Cursor β) :=
  random_input.foldlM (fun data i => i.foldlM (fun data j =>
    j.foldlM (Cursor.write .writePastEnd) data) data) ⟨buffer, 0⟩

/-- `ComputeHandler::compute_list`: the reply, or what ends the request without one. -/
def computeList (server : Server) (torch : Torch β M T) (cast : α → β) (one : β)
    (values : Grid α) : Except Failure String :=
  (copyValues cast one values).bind fun random_input =>
    (fillTensor random_input (torch.empty (1 * planes * rows * columns))).bind fun data =>
      -- A model that cannot be loaded is reported, and the empty one is run.
      match torch.forward (torch.load.getD torch.module) data.buffer with
      | none        => .error .exception
      | some output =>
        if server.printsOutput = true ∧ torch.slice output = none then .error .exception
        else .ok server.reply

/-! ### The copy loops -/

/-- A read past the end of a list of the request. -/
def Failure.IsReadPastEnd (e : Failure) : Prop := ∃ i j k, e = .readPastEnd i j k

variable {cast : α → β} {one : β} {values : Grid α}

/-- The elements of the request at the positions `done` are copied. -/
structure Copied (cast : α → β) (values : Grid α) (done : Nat → Nat → Nat → Prop)
    (random_input : Grid β) : Prop where
  shape : random_input.HasShape planes rows columns
  element : ∀ i j k, done i j k → random_input.get? i j k = (values.get? i j k).map cast

theorem Copied.mono {done done' : Nat → Nat → Nat → Prop} {random_input : Grid β}
    (h : Copied cast values done random_input) (hdone : ∀ i j k, done' i j k → done i j k) :
    Copied cast values done' random_input where
  shape := h.shape
  element i j k hk := h.element i j k (hdone i j k hk)

/-- One element is copied where it exists, and read past the end where it does not. -/
theorem copyElement_decides {done : Nat → Nat → Nat → Prop} {i j k : Nat} {random_input : Grid β}
    (h : Copied cast values done random_input) (hi : i < planes) (hj : j < rows)
    (hk : k < columns) :
    Decides (Copied cast values fun i' j' k' => (i' = i ∧ j' = j ∧ k' = k) ∨ done i' j' k')
      Failure.IsReadPastEnd (copyElement cast values i j k random_input)
      ((values.get? i j k).isSome = true) := by
  rw [copyElement]
  cases hvalue : values.get? i j k with
  | none => exact ⟨fun h => absurd h (by simp), fun _ => ⟨_, rfl, i, j, k, rfl⟩⟩
  | some x =>
    obtain ⟨g, hset, hg⟩ := h.shape.set? hi hj hk (cast x)
    refine ⟨fun _ => ⟨g, by simp only [hset], hg, fun i' j' k' hdone => ?_⟩,
      fun h => absurd rfl h⟩
    rw [Grid.get?_set? hset]
    split
    · next hhere =>
      obtain ⟨rfl, rfl, rfl⟩ := hhere
      rw [hvalue, Option.map_some]
    · next hother =>
      exact h.element i' j' k' (hdone.resolve_left hother)

/-- The copy loops succeed when the request contains the dimensions, and then have copied
    them; they read past the end of a list when it does not. -/
theorem copyValues_decides (cast : α → β) (one : β) (values : Grid α) :
    Decides (Copied cast values fun i j k => i < planes ∧ j < rows ∧ k < columns)
      Failure.IsReadPastEnd (copyValues cast one values)
      (values.Contains planes rows columns) := by
  -- Before the iteration `i`, `j`, `k` the positions before it, plane by plane and row by
  -- row, are copied.
  let planesDone : Nat → Nat → Nat → Nat → Prop := fun i i' j' k' =>
    i' < i ∧ j' < rows ∧ k' < columns
  let rowsDone : Nat → Nat → Nat → Nat → Nat → Prop := fun i j i' j' k' =>
    planesDone i i' j' k' ∨ (i' = i ∧ j' < j ∧ k' < columns)
  let elementsDone : Nat → Nat → Nat → Nat → Nat → Nat → Prop := fun i j k i' j' k' =>
    rowsDone i j i' j' k' ∨ (i' = i ∧ j' = j ∧ k' < k)
  have hloops : Decides (Copied cast values (planesDone planes)) Failure.IsReadPastEnd
      (copyValues cast one values)
      (∀ i, i < planes → ∀ j, j < rows → ∀ k, k < columns →
        (values.get? i j k).isSome = true) := by
    have hstart : Copied cast values (planesDone 0) (Grid.replicate planes rows columns one) :=
      ⟨Grid.hasShape_replicate planes rows columns one,
        fun _ _ _ hdone => absurd hdone.1 (Nat.not_lt_zero _)⟩
    refine Decides.forUpTo (I := fun i => Copied cast values (planesDone i)) hstart
      fun i s hi hs => ?_
    have hrows : Decides (Copied cast values (rowsDone i rows)) Failure.IsReadPastEnd
        (forUpTo rows (fun j => forUpTo columns fun k => copyElement cast values i j k) s)
        (∀ j, j < rows → ∀ k, k < columns → (values.get? i j k).isSome = true) := by
      refine Decides.forUpTo (I := fun j => Copied cast values (rowsDone i j))
        (hs.mono fun i' j' k' hdone => by omega) fun j s hj hs => ?_
      have hcolumns : Decides (Copied cast values (elementsDone i j columns))
          Failure.IsReadPastEnd (forUpTo columns (fun k => copyElement cast values i j k) s)
          (∀ k, k < columns → (values.get? i j k).isSome = true) := by
        refine Decides.forUpTo (I := fun k => Copied cast values (elementsDone i j k))
          (hs.mono fun i' j' k' hdone => by omega) fun k s hk hs => ?_
        exact (copyElement_decides hs hi hj hk).mono fun s hs =>
          hs.mono fun i' j' k' hdone => by omega
      exact hcolumns.mono fun s hs => hs.mono fun i' j' k' hdone => by omega
    exact hrows.mono fun s hs => hs.mono fun i' j' k' hdone => by omega
  exact hloops.congr (Grid.contains_iff (by decide) (by decide)).symm

/-! ### The pointer walk -/

/-- The pointer walk writes all elements of `random_input`, in order. -/
theorem fillTensor_eq {g : Grid β} {buffer : List β} (hlen : g.elements.length = buffer.length) :
    fillTensor g buffer = .ok ⟨g.elements, buffer.length⟩ := by
  have hrow : ∀ row front back : List β, row.length ≤ back.length →
      row.foldlM (Cursor.write Failure.writePastEnd) (.between front back)
        = .ok (.between (front ++ row) (back.drop row.length)) := Cursor.foldlM_write
  -- One application of the loop rule for each of the three levels.
  have hplane := Cursor.foldlM_between (F := fun row => row) hrow
  have hgrid := Cursor.foldlM_between (F := fun plane => plane.flatMap fun row => row) hplane g
    [] buffer
  simp only [List.flatMap_id'] at hgrid
  have hfill := hgrid (le_of_eq hlen)
  have hend : buffer.drop g.elements.length = [] := List.drop_eq_nil_of_le (le_of_eq hlen.symm)
  show g.foldlM _ (Cursor.between [] buffer) = _
  rw [hfill]
  show Except.ok (Cursor.between ([] ++ g.elements) (buffer.drop g.elements.length)) = _
  rw [hend, Cursor.between, List.nil_append, List.append_nil, hlen]

/-- What is left of a request whose copy loops have succeeded. -/
theorem computeList_eq {server : Server} {torch : Torch β M T} {g : Grid β}
    (hcopy : copyValues cast one values = .ok g) (hshape : g.HasShape planes rows columns) :
    computeList server torch cast one values
      = match torch.forward (torch.load.getD torch.module) g.elements with
        | none        => .error .exception
        | some output =>
          if server.printsOutput = true ∧ torch.slice output = none then .error .exception
          else .ok server.reply := by
  have hlen : g.elements.length = (torch.empty (1 * planes * rows * columns)).length := by
    rw [hshape.length_elements, torch.length_empty]
    rfl
  rw [computeList, hcopy]
  show Except.bind (fillTensor g _) _ = _
  rw [fillTensor_eq hlen]
  rfl

end

end ThriftBench.Inference
