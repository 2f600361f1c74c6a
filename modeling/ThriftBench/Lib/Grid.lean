import Mathlib.Data.List.Basic
import Mathlib.Data.Nat.Basic
import Mathlib.Tactic.Ring

namespace Lib

/-!
# Nested lists in three dimensions

`Grid α` is a list of planes of rows, each of any length (`vector<vector<vector<α>>>`).

* `get?` / `set?` — the element at `[i][j][k]`, read or overwritten, where it exists;
* `Contains p r c` — the grid has `p` planes of `r` rows of `c` columns, and possibly more;
* `HasShape p r c` — it has exactly these, as `replicate p r c` does;
* `elements` — all elements, plane by plane and row by row; that at `[i][j][k]` has the
  position `(i * r + j) * c + k` (`HasShape.getElem?_elements`).
-/

/-- Planes of rows of elements. -/
abbrev Grid (α : Type*) := List (List (List α))

namespace Grid

variable {α : Type*} {p r c i j k : Nat} {g : Grid α}

/-- `g[i][j][k]`, where it exists. -/
def get? (g : Grid α) (i j k : Nat) : Option α := do
  let plane ← g[i]?
  let row ← plane[j]?
  row[k]?

/-- `g[i][j][k] = x`, where it exists. -/
def set? (g : Grid α) (i j k : Nat) (x : α) : Option (Grid α) := do
  let plane ← g[i]?
  let row ← plane[j]?
  if k < row.length then some (g.set i (plane.set j (row.set k x))) else none

/-- `p` planes of `r` rows of `c` elements `x`. -/
def replicate (p r c : Nat) (x : α) : Grid α :=
  List.replicate p (List.replicate r (List.replicate c x))

/-- At least `p` planes, of which the first `p` have at least `r` rows, of which the first
    `r` have at least `c` columns. -/
def Contains (p r c : Nat) (g : Grid α) : Prop :=
  p ≤ g.length ∧ ∀ plane ∈ g.take p, r ≤ plane.length ∧ ∀ row ∈ plane.take r, c ≤ row.length

/-- Exactly `p` planes of `r` rows of `c` columns. -/
def HasShape (p r c : Nat) (g : Grid α) : Prop :=
  g.length = p ∧ ∀ plane ∈ g, plane.length = r ∧ ∀ row ∈ plane, row.length = c

/-- All elements, plane by plane and row by row. -/
def elements (g : Grid α) : List α := g.flatMap List.flatten

/-- An element exists where there are enough planes, rows and columns. -/
theorem get?_isSome : (g.get? i j k).isSome = true ↔
    ∃ plane row, g[i]? = some plane ∧ plane[j]? = some row ∧ k < row.length := by
  simp only [get?, Option.isSome_iff_exists]
  constructor
  · rintro ⟨x, hx⟩
    obtain ⟨plane, hplane, hx⟩ := Option.bind_eq_some_iff.mp hx
    obtain ⟨row, hrow, hx⟩ := Option.bind_eq_some_iff.mp hx
    exact ⟨plane, row, hplane, hrow, (List.getElem?_eq_some_iff.mp hx).1⟩
  · rintro ⟨plane, row, hplane, hrow, hk⟩
    refine ⟨row[k], ?_⟩
    rw [hplane, Option.bind_eq_bind, Option.bind_some, hrow, Option.bind_eq_bind,
      Option.bind_some]
    exact List.getElem?_eq_getElem hk

/-- The rows and columns of a grid that contains the dimensions. -/
theorem Contains.get?_isSome (h : g.Contains p r c) (hi : i < p) (hj : j < r) (hk : k < c) :
    (g.get? i j k).isSome = true := by
  obtain ⟨hp, hplanes⟩ := h
  have hig : i < g.length := lt_of_lt_of_le hi hp
  obtain ⟨hr, hrows⟩ := hplanes g[i] (List.mem_take_iff_getElem.mpr ⟨i, by omega, rfl⟩)
  have hjg : j < g[i].length := lt_of_lt_of_le hj hr
  have hc := hrows g[i][j] (List.mem_take_iff_getElem.mpr ⟨j, by omega, rfl⟩)
  exact Grid.get?_isSome.mpr ⟨g[i], g[i][j], List.getElem?_eq_getElem hig,
    List.getElem?_eq_getElem hjg, lt_of_lt_of_le hk hc⟩

/-- A grid contains dimensions exactly when all elements below them exist. -/
theorem contains_iff (hr : 0 < r) (hc : 0 < c) : g.Contains p r c ↔
    ∀ i, i < p → ∀ j, j < r → ∀ k, k < c → (g.get? i j k).isSome = true := by
  refine ⟨fun h i hi j hj k hk => h.get?_isSome hi hj hk, fun hall => ?_⟩
  -- The planes are read off the first column, the rows and columns off the last ones.
  have hplanes : p ≤ g.length := by
    by_contra hlt
    obtain ⟨plane, row, hplane, -⟩ :=
      Grid.get?_isSome.mp (hall g.length (not_le.mp hlt) 0 hr 0 hc)
    rw [List.getElem?_eq_none le_rfl] at hplane
    exact absurd hplane (by simp)
  refine ⟨hplanes, fun plane hplane => ?_⟩
  obtain ⟨i, hi, rfl⟩ := List.mem_take_iff_getElem.mp hplane
  have hip : i < p := by omega
  have hget : g[i]? = some g[i] := List.getElem?_eq_getElem (by omega)
  have hrows : r ≤ g[i].length := by
    by_contra hlt
    obtain ⟨plane, row, hplane, hrow, -⟩ :=
      Grid.get?_isSome.mp (hall i hip g[i].length (not_le.mp hlt) 0 hc)
    rw [hget, Option.some.injEq] at hplane
    rw [← hplane, List.getElem?_eq_none le_rfl] at hrow
    exact absurd hrow (by simp)
  refine ⟨hrows, fun row hrow => ?_⟩
  obtain ⟨j, hj, rfl⟩ := List.mem_take_iff_getElem.mp hrow
  by_contra hlt
  obtain ⟨plane, row, hplane, hrow, hk⟩ :=
    Grid.get?_isSome.mp (hall i hip j (by omega) g[i][j].length (not_le.mp hlt))
  rw [hget, Option.some.injEq] at hplane
  rw [← hplane, List.getElem?_eq_getElem (by omega), Option.some.injEq] at hrow
  rw [← hrow] at hk
  exact absurd hk (lt_irrefl _)

theorem HasShape.contains (h : g.HasShape p r c) : g.Contains p r c := by
  obtain ⟨hp, hplanes⟩ := h
  refine ⟨hp.ge, fun plane hplane => ?_⟩
  obtain ⟨hr, hrows⟩ := hplanes plane (List.mem_of_mem_take hplane)
  exact ⟨hr.ge, fun row hrow => (hrows row (List.mem_of_mem_take hrow)).ge⟩

theorem hasShape_replicate (p r c : Nat) (x : α) : (replicate p r c x).HasShape p r c := by
  refine ⟨List.length_replicate, fun plane hplane => ?_⟩
  rw [(List.mem_replicate.mp hplane).2]
  refine ⟨List.length_replicate, fun row hrow => ?_⟩
  rw [(List.mem_replicate.mp hrow).2]
  exact List.length_replicate

/-- A write inside the dimensions succeeds and keeps the shape. -/
theorem HasShape.set? (h : g.HasShape p r c) (hi : i < p) (hj : j < r) (hk : k < c) (x : α) :
    ∃ g', g.set? i j k x = some g' ∧ g'.HasShape p r c := by
  obtain ⟨hp, hplanes⟩ := h
  have hig : i < g.length := by omega
  obtain ⟨hr, hrows⟩ := hplanes g[i] (List.getElem_mem hig)
  have hjg : j < g[i].length := by omega
  have hc := hrows g[i][j] (List.getElem_mem hjg)
  refine ⟨g.set i (g[i].set j (g[i][j].set k x)), ?_, ?_, fun plane hplane => ?_⟩
  · rw [Grid.set?, List.getElem?_eq_getElem hig, Option.bind_eq_bind, Option.bind_some,
      List.getElem?_eq_getElem hjg, Option.bind_eq_bind, Option.bind_some,
      if_pos (by omega)]
  · rw [List.length_set]
    exact hp
  · -- Only the plane at `i` is new, and in it only the row at `j`.
    rcases List.mem_or_eq_of_mem_set hplane with hold | rfl
    · exact hplanes plane hold
    · refine ⟨by rw [List.length_set]; exact hr, fun row hrow => ?_⟩
      rcases List.mem_or_eq_of_mem_set hrow with hold | rfl
      · exact hrows row hold
      · rw [List.length_set]
        exact hc

/-- A write overwrites its element and no other one. -/
theorem get?_set? {g' : Grid α} {x : α} (h : g.set? i j k x = some g') (i' j' k' : Nat) :
    g'.get? i' j' k' = if i' = i ∧ j' = j ∧ k' = k then some x else g.get? i' j' k' := by
  obtain ⟨plane, hplane, h⟩ := Option.bind_eq_some_iff.mp h
  obtain ⟨row, hrow, h⟩ := Option.bind_eq_some_iff.mp h
  obtain ⟨hi, rfl⟩ := List.getElem?_eq_some_iff.mp hplane
  obtain ⟨hj, rfl⟩ := List.getElem?_eq_some_iff.mp hrow
  split at h
  · next hk =>
    obtain rfl := Option.some.inj h
    simp only [get?, List.getElem?_set]
    -- The first index that differs leaves the rest of the path as it was.
    by_cases hi' : i = i'
    · subst hi'
      by_cases hj' : j = j'
      · subst hj'
        by_cases hk' : k = k'
        · subst hk'
          simp [hi, hj, hk]
        · simp [hi, hj, hk', Ne.symm hk']
      · simp [hi, hj', Ne.symm hj']
    · simp [hi', Ne.symm hi']
  · exact absurd h (by simp)

/-- The number of elements of equally long lists. -/
private theorem length_flatMap_of_forall {β γ : Type*} {f : β → List γ} {n : Nat} {l : List β}
    (h : ∀ x ∈ l, (f x).length = n) : (l.flatMap f).length = l.length * n := by
  induction l with
  | nil => simp
  | cons x l ih =>
    rw [List.flatMap_cons, List.length_append, h x List.mem_cons_self,
      ih fun y hy => h y (List.mem_cons_of_mem _ hy), List.length_cons, Nat.add_mul, Nat.one_mul,
      Nat.add_comm]

/-- The elements of equally long lists, one list after the other. -/
private theorem getElem?_flatMap_of_forall {β γ : Type*} {f : β → List γ} {n m : Nat}
    {l : List β} (h : ∀ x ∈ l, (f x).length = n) (hm : m < n) (i : Nat) :
    (l.flatMap f)[i * n + m]? = l[i]?.bind fun x => (f x)[m]? := by
  induction l generalizing i with
  | nil => simp
  | cons x l ih =>
    have hx := h x List.mem_cons_self
    rw [List.flatMap_cons]
    cases i with
    | zero =>
      rw [Nat.zero_mul, Nat.zero_add, List.getElem?_append_left (by omega)]
      rfl
    | succ i =>
      have hskip : (i + 1) * n + m - (f x).length = i * n + m := by
        rw [hx, Nat.succ_mul]
        omega
      rw [List.getElem?_append_right (by rw [hx, Nat.succ_mul]; omega), hskip,
        ih fun y hy => h y (List.mem_cons_of_mem _ hy), List.getElem?_cons_succ]

theorem HasShape.length_plane (h : g.HasShape p r c) :
    ∀ plane ∈ g, plane.flatten.length = r * c := by
  intro plane hmem
  obtain ⟨hr, hrows⟩ := h.2 plane hmem
  rw [← List.flatMap_id', length_flatMap_of_forall hrows, hr]

theorem HasShape.length_elements (h : g.HasShape p r c) : g.elements.length = p * (r * c) := by
  rw [elements, length_flatMap_of_forall h.length_plane, h.1]

/-- The element at `[i][j][k]` comes after `i` planes, `j` rows and `k` elements. -/
theorem HasShape.getElem?_elements (h : g.HasShape p r c) (hj : j < r) (hk : k < c) (i : Nat) :
    g.elements[(i * r + j) * c + k]? = g.get? i j k := by
  have hinside : j * c + k < r * c :=
    calc j * c + k < j * c + c := by omega
      _ = (j + 1) * c := (Nat.succ_mul j c).symm
      _ ≤ r * c := Nat.mul_le_mul_right c hj
  have hposition : (i * r + j) * c + k = i * (r * c) + (j * c + k) := by ring
  rw [elements, hposition, getElem?_flatMap_of_forall h.length_plane hinside, get?,
    Option.bind_eq_bind]
  cases hi : g[i]? with
  | none => rfl
  | some plane =>
    have hrows := (h.2 plane (List.mem_of_getElem? hi)).2
    rw [Option.bind_some, Option.bind_some, ← List.flatMap_id',
      getElem?_flatMap_of_forall hrows hk, Option.bind_eq_bind]

/-- A grid of one element. -/
theorem HasShape.elements_eq_replicate (h : g.HasShape p r c) {x : α}
    (hall : ∀ i, i < p → ∀ j, j < r → ∀ k, k < c → g.get? i j k = some x) :
    g.elements = List.replicate (p * (r * c)) x := by
  refine List.eq_replicate_iff.mpr ⟨h.length_elements, fun y hy => ?_⟩
  obtain ⟨plane, hplane, hy⟩ := List.mem_flatMap.mp hy
  obtain ⟨row, hrow, hy⟩ := List.mem_flatten.mp hy
  obtain ⟨hr, hrows⟩ := h.2 plane hplane
  obtain ⟨i, hi, rfl⟩ := List.mem_iff_getElem.mp hplane
  obtain ⟨j, hj, rfl⟩ := List.mem_iff_getElem.mp hrow
  obtain ⟨k, hk, rfl⟩ := List.mem_iff_getElem.mp hy
  have hthere : g.get? i j k = some g[i][j][k] := by
    simp only [get?, List.getElem?_eq_getElem, hi, hj, hk, Option.bind_eq_bind, Option.bind_some]
  have hx := hall i (h.1 ▸ hi) j (hr ▸ hj) k (hrows _ hrow ▸ hk)
  exact Option.some.inj (hthere.symm.trans hx)

theorem get?_replicate (hi : i < p) (hj : j < r) (hk : k < c) (x : α) :
    (replicate p r c x).get? i j k = some x := by
  simp [get?, replicate, hi, hj, hk]

end Grid

end Lib
