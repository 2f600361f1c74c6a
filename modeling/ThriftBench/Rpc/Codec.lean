import ThriftBench.Rpc.Protocol

namespace ThriftBench.Rpc

open Lib

/-!
# Codecs — how the generated code reads and writes a type

* `Codec` — the calls that read and write a value of a type, and the value on the wire between
  them;
* `Codec.i32`, `Codec.i64`, `Codec.double`, `Codec.string` — the base types;
* `Codec.vector` — a vector of a type; its size is written with 32 bits, and the type of the
  elements is read and not looked at;
* `Codec.reads_write` — what was written is read back.
-/

section

variable {I D ε α : Type}

/-- How values of type `α` are read and written. -/
structure Codec (P : TProtocol I D ε) (α : Type) where
  type : TType
  read : Reader I ε α
  write : α → List (Token D)
  /-- The value that is written. -/
  wrap : α → Value D
  /-- What a value on the wire is read as; `none` where it is of another type. -/
  unwrap : Value D → Option α
  /-- The containers in it can be counted. -/
  Sendable : α → Prop
  /-- How deep it nests. -/
  depth : Nat
  type_wrap : ∀ a, (wrap a).type = type
  write_eq : ∀ a, write a = (wrap a).tokens
  unwrap_wrap : ∀ a, unwrap (wrap a) = some a
  fits_wrap : ∀ {a}, Sendable a → (wrap a).Fits depth
  reads_unwrap : ∀ {n v a}, v.Fits n → unwrap v = some a → Reads P.Holds read v.tokens a

namespace Codec

variable {P : TProtocol I D ε}

/-- **Round trip.** -/
theorem reads_write (c : Codec P α) {a : α} (hsend : c.Sendable a) :
    Reads P.Holds c.read (c.write a) a := by
  rw [c.write_eq]
  exact c.reads_unwrap (c.fits_wrap hsend) (c.unwrap_wrap a)

/-! ### Base types -/

/-- `readI32` and `writeI32` -/
def i32 (P : TProtocol I D ε) : Codec P (BitVec 32) where
  type := .i32
  read := P.readI32
  write a := [.i32 a]
  wrap := .i32
  unwrap
    | .i32 a => some a
    | _      => none
  Sendable _ := True
  depth := 1
  type_wrap _ := rfl
  write_eq _ := rfl
  unwrap_wrap _ := rfl
  fits_wrap _ := .i32 0 _
  reads_unwrap {n v a} _ h := by
    cases v <;> cases h
    exact P.reads_i32 a

/-- `readI64` and `writeI64` -/
def i64 (P : TProtocol I D ε) : Codec P (BitVec 64) where
  type := .i64
  read := P.readI64
  write a := [.i64 a]
  wrap := .i64
  unwrap
    | .i64 a => some a
    | _      => none
  Sendable _ := True
  depth := 1
  type_wrap _ := rfl
  write_eq _ := rfl
  unwrap_wrap _ := rfl
  fits_wrap _ := .i64 0 _
  reads_unwrap {n v a} _ h := by
    cases v <;> cases h
    exact P.reads_i64 a

/-- `readDouble` and `writeDouble` -/
def double (P : TProtocol I D ε) : Codec P D where
  type := .double
  read := P.readDouble
  write a := [.double a]
  wrap := .double
  unwrap
    | .double a => some a
    | _         => none
  Sendable _ := True
  depth := 1
  type_wrap _ := rfl
  write_eq _ := rfl
  unwrap_wrap _ := rfl
  fits_wrap _ := .double 0 _
  reads_unwrap {n v a} _ h := by
    cases v <;> cases h
    exact P.reads_double a

/-- `readString` and `writeString` -/
def string (P : TProtocol I D ε) : Codec P String where
  type := .string
  read := P.readString
  write a := [.string a]
  wrap := .string
  unwrap
    | .string a => some a
    | _         => none
  Sendable _ := True
  depth := 1
  type_wrap _ := rfl
  write_eq _ := rfl
  unwrap_wrap _ := rfl
  fits_wrap _ := .string 0 _
  reads_unwrap {n v a} _ h := by
    cases v <;> cases h
    exact P.reads_string a

/-! ### Vectors -/

/-- The loop that reads a vector, which was cleared and resized before. -/
def readVector (P : TProtocol I D ε) (read : Reader I ε α) : Reader I ε (List α) := do
  let (_, size) ← P.readListBegin
  let xs ← readTimes read size.toNat
  P.readListEnd
  pure xs

/-- The loop that writes a vector. -/
def writeVector (elem : TType) (write : α → List (Token D)) (xs : List α) : List (Token D) :=
  .listBegin elem (sizeOf32 xs.length) :: (xs.flatMap write ++ [.listEnd])

theorem toNat_sizeOf32 {n : Nat} (h : n < 2 ^ 32) : (sizeOf32 n).toNat = n := by
  rw [sizeOf32, BitVec.toNat_ofNat, Nat.mod_eq_of_lt h]

/-- The elements, one by one. -/
theorem forall₂_of_mapM {β : Type} {f : β → Option α} {R : β → α → Prop} {vs : List β}
    {xs : List α} (h : vs.mapM f = some xs) (hR : ∀ v ∈ vs, ∀ x, f v = some x → R v x) :
    List.Forall₂ R vs xs := by
  induction vs generalizing xs with
  | nil =>
    obtain rfl := Option.some.inj h
    exact .nil
  | cons v vs ih =>
    rw [List.mapM_cons] at h
    obtain ⟨x, hx, hrest⟩ := Option.bind_eq_some_iff.mp h
    obtain ⟨xs', hxs, hcons⟩ := Option.bind_eq_some_iff.mp hrest
    obtain rfl := Option.some.inj hcons
    apply List.Forall₂.cons (hR v List.mem_cons_self x hx)
    exact ih hxs fun w hw => hR w (List.mem_cons_of_mem v hw)

theorem mapM_map_eq {β : Type} {f : β → Option α} {g : α → β} (h : ∀ a, f (g a) = some a)
    (xs : List α) : (xs.map g).mapM f = some xs := by
  induction xs with
  | nil => rfl
  | cons x xs ih =>
    rw [List.map_cons, List.mapM_cons, h, ih]
    rfl

/-- The elements of a vector on the wire are read one after the other. -/
theorem readVector_reads {c : Codec P α} {n : Nat} {elem : TType} {vs : List (Value D)}
    {xs : List α} (hfits : (Value.list elem vs).Fits n) (h : vs.mapM c.unwrap = some xs) :
    Reads P.Holds (readVector P c.read) (Value.list elem vs).tokens xs := by
  obtain ⟨n, hsize, -, hitems⟩ : ∃ n, vs.length < 2 ^ 32 ∧ (∀ v ∈ vs, v.type = elem) ∧
      ∀ v ∈ vs, v.Fits n := by
    cases hfits with
    | list hsize htype hitems => exact ⟨_, hsize, htype, hitems⟩
  have hloop : Reads P.Holds (readTimes c.read (vs.map Value.tokens).length)
      (vs.map Value.tokens).flatten xs := by
    apply Reads.times
    rw [List.forall₂_map_left_iff]
    exact forall₂_of_mapM h fun v hv x hx => c.reads_unwrap (hitems v hv) hx
  -- The loop runs as often as the header says, which is the number of elements.
  rw [List.length_map, ← toNat_sizeOf32 hsize, ← List.flatMap_def, ← itemTokens_eq] at hloop
  rw [Value.tokens]
  apply (P.reads_listBegin elem (sizeOf32 vs.length)).bind
  apply hloop.bind
  exact P.reads_listEnd.map

/-- A vector. -/
def vector (c : Codec P α) : Codec P (List α) where
  type := .list
  read := readVector P c.read
  write := writeVector c.type c.write
  wrap xs := .list c.type (xs.map c.wrap)
  unwrap
    | .list _ vs => vs.mapM c.unwrap
    | _          => none
  Sendable xs := xs.length < 2 ^ 32 ∧ ∀ x ∈ xs, c.Sendable x
  depth := c.depth + 1
  type_wrap _ := rfl
  write_eq xs := by
    have hwrite : c.write = fun x => (c.wrap x).tokens := funext c.write_eq
    rw [writeVector, Value.tokens, itemTokens_eq, List.length_map, List.flatMap_map, hwrite]
  unwrap_wrap xs := mapM_map_eq c.unwrap_wrap xs
  fits_wrap {xs} hsend := by
    obtain ⟨hsize, hitems⟩ := hsend
    apply Value.Fits.list
    · rwa [List.length_map]
    · intro v hv
      obtain ⟨x, -, rfl⟩ := List.mem_map.mp hv
      exact c.type_wrap x
    · intro v hv
      obtain ⟨x, hx, rfl⟩ := List.mem_map.mp hv
      exact c.fits_wrap (hitems x hx)
  reads_unwrap {n v xs} hfits h := by
    cases v with
    | list elem vs => exact readVector_reads hfits h
    | _ => cases h

end Codec

end

end ThriftBench.Rpc
