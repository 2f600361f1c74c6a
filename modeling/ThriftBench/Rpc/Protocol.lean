import Mathlib.Algebra.Ring.Nat
import ThriftBench.Lib.Reading
import ThriftBench.Lib.Wire

namespace ThriftBench.Rpc

open Lib

/-!
# Thrift protocols — what the generated code relies on

The generated code calls a `TProtocol` for every piece that it writes, and calls it in the
same order to read the pieces back.  The servers use `TJSONProtocol` and `TCompactProtocol`,
which are not part of the repository, so the protocol is a parameter here.

* `Token` — a call that writes; `Value` — a value as it is on the wire, `Value.tokens` the
  calls that write it;
* `Value.Fits` — it can be skipped: it nests to a limited depth, and its containers are
  homogeneous and can be counted;
* `TProtocol` — the calls that read, and what they do on an input that holds what was
  written.  Nothing is said about an input that holds something else.
-/

/-- `TType` -/
inductive TType where
  | stop | bool | byte | i16 | i32 | i64 | double | string | struct | map | set | list
  deriving DecidableEq, Repr

/-- `TMessageType` -/
inductive TMessageType where
  | call | reply | exception | oneway
  deriving DecidableEq, Repr

/-- The types of a `TApplicationException` that the generated code constructs. -/
inductive TApplicationExceptionType where
  | unknown | unknownMethod | missingResult
  deriving DecidableEq, Repr

/-- `TApplicationException` -/
structure TApplicationException where
  type : TApplicationExceptionType
  message : String
  deriving DecidableEq, Repr

/-- A call that writes to a protocol; `D` is the type of a `double`. -/
inductive Token (D : Type) where
  | messageBegin (name : String) (type : TMessageType) (seqid : BitVec 32)
  | messageEnd
  | structBegin (name : String)
  | structEnd
  | fieldBegin (name : String) (type : TType) (id : BitVec 16)
  | fieldEnd
  | fieldStop
  | listBegin (elem : TType) (size : BitVec 32)
  | listEnd
  | setBegin (elem : TType) (size : BitVec 32)
  | setEnd
  | mapBegin (key value : TType) (size : BitVec 32)
  | mapEnd
  | bool (v : Bool)
  | byte (v : BitVec 8)
  | i16 (v : BitVec 16)
  | i32 (v : BitVec 32)
  | i64 (v : BitVec 64)
  | double (v : D)
  | string (v : String)
  deriving DecidableEq, Repr

/-- The name and the id of a field. -/
structure Tag where
  name : String
  id : BitVec 16
  deriving DecidableEq, Repr

/-- A value on the wire. -/
inductive Value (D : Type) where
  | bool (v : Bool)
  | byte (v : BitVec 8)
  | i16 (v : BitVec 16)
  | i32 (v : BitVec 32)
  | i64 (v : BitVec 64)
  | double (v : D)
  | string (v : String)
  | struct (name : String) (fields : List (Tag × Value D))
  | list (elem : TType) (items : List (Value D))
  | set (elem : TType) (items : List (Value D))
  | map (key value : TType) (entries : List (Value D × Value D))

section

variable {D : Type}

/-- The type in the header of a field with this value. -/
def Value.type : Value D → TType
  | .bool _     => .bool
  | .byte _     => .byte
  | .i16 _      => .i16
  | .i32 _      => .i32
  | .i64 _      => .i64
  | .double _   => .double
  | .string _   => .string
  | .struct _ _ => .struct
  | .list _ _   => .list
  | .set _ _    => .set
  | .map _ _ _  => .map

theorem Value.type_ne_stop (v : Value D) : v.type ≠ .stop := by
  cases v <;> simp [Value.type]

/-- A number of elements; `static_cast<uint32_t>`. -/
def sizeOf32 (n : Nat) : BitVec 32 := BitVec.ofNat 32 n

mutual

/-- The calls that write a value. -/
def Value.tokens : Value D → List (Token D)
  | .bool v           => [.bool v]
  | .byte v           => [.byte v]
  | .i16 v            => [.i16 v]
  | .i32 v            => [.i32 v]
  | .i64 v            => [.i64 v]
  | .double v         => [.double v]
  | .string v         => [.string v]
  | .struct name fs   => .structBegin name :: (fieldTokens fs ++ [.fieldStop, .structEnd])
  | .list elem vs     => .listBegin elem (sizeOf32 vs.length) :: (itemTokens vs ++ [.listEnd])
  | .set elem vs      => .setBegin elem (sizeOf32 vs.length) :: (itemTokens vs ++ [.setEnd])
  | .map key value es =>
      .mapBegin key value (sizeOf32 es.length) :: (entryTokens es ++ [.mapEnd])

/-- The calls that write fields. -/
def fieldTokens : List (Tag × Value D) → List (Token D)
  | []           => []
  | (t, v) :: fs => .fieldBegin t.name v.type t.id :: (v.tokens ++ .fieldEnd :: fieldTokens fs)

/-- The calls that write the elements of a list or a set. -/
def itemTokens : List (Value D) → List (Token D)
  | []      => []
  | v :: vs => v.tokens ++ itemTokens vs

/-- The calls that write the entries of a map. -/
def entryTokens : List (Value D × Value D) → List (Token D)
  | []           => []
  | (k, v) :: es => k.tokens ++ (v.tokens ++ entryTokens es)

end

/-- A value that nests at most `n` deep, and whose containers have elements of the types that
    their headers say, fewer than `2 ^ 32` of them. -/
inductive Value.Fits : Nat → Value D → Prop where
  | bool (n : Nat) (v : Bool) : Fits (n + 1) (.bool v)
  | byte (n : Nat) (v : BitVec 8) : Fits (n + 1) (.byte v)
  | i16 (n : Nat) (v : BitVec 16) : Fits (n + 1) (.i16 v)
  | i32 (n : Nat) (v : BitVec 32) : Fits (n + 1) (.i32 v)
  | i64 (n : Nat) (v : BitVec 64) : Fits (n + 1) (.i64 v)
  | double (n : Nat) (v : D) : Fits (n + 1) (.double v)
  | string (n : Nat) (v : String) : Fits (n + 1) (.string v)
  | struct {n : Nat} {name : String} {fs : List (Tag × Value D)} :
      (∀ f ∈ fs, Fits n f.2) → Fits (n + 1) (.struct name fs)
  | list {n : Nat} {elem : TType} {vs : List (Value D)} : vs.length < 2 ^ 32 →
      (∀ v ∈ vs, v.type = elem) → (∀ v ∈ vs, Fits n v) → Fits (n + 1) (.list elem vs)
  | set {n : Nat} {elem : TType} {vs : List (Value D)} : vs.length < 2 ^ 32 →
      (∀ v ∈ vs, v.type = elem) → (∀ v ∈ vs, Fits n v) → Fits (n + 1) (.set elem vs)
  | map {n : Nat} {key value : TType} {es : List (Value D × Value D)} : es.length < 2 ^ 32 →
      (∀ e ∈ es, e.1.type = key) → (∀ e ∈ es, e.2.type = value) → (∀ e ∈ es, Fits n e.1) →
      (∀ e ∈ es, Fits n e.2) → Fits (n + 1) (.map key value es)

theorem Value.Fits.mono {n m : Nat} {v : Value D} (h : v.Fits n) (hle : n ≤ m) : v.Fits m := by
  induction h generalizing m with
  | bool | byte | i16 | i32 | i64 | double | string =>
    obtain ⟨m, rfl⟩ : ∃ k, m = k + 1 := ⟨m - 1, by omega⟩
    constructor
  | struct _ ih =>
    obtain ⟨m, rfl⟩ : ∃ k, m = k + 1 := ⟨m - 1, by omega⟩
    exact .struct fun f hf => ih f hf (by omega)
  | list hsize htype _ ih =>
    obtain ⟨m, rfl⟩ : ∃ k, m = k + 1 := ⟨m - 1, by omega⟩
    exact .list hsize htype fun v hv => ih v hv (by omega)
  | set hsize htype _ ih =>
    obtain ⟨m, rfl⟩ : ∃ k, m = k + 1 := ⟨m - 1, by omega⟩
    exact .set hsize htype fun v hv => ih v hv (by omega)
  | map hsize hkey hvalue _ _ ihkey ihvalue =>
    obtain ⟨m, rfl⟩ : ∃ k, m = k + 1 := ⟨m - 1, by omega⟩
    exact .map hsize hkey hvalue (fun e he => ihkey e he (by omega))
      fun e he => ihvalue e he (by omega)

/-- A field header, or the stop in its place. -/
def Token.isHeader : Token D → Bool
  | .fieldBegin _ _ _ | .fieldStop => true
  | _ => false

theorem fieldTokens_eq (fs : List (Tag × Value D)) :
    fieldTokens fs = fs.flatMap fun f =>
      [.fieldBegin f.1.name f.2.type f.1.id] ++ (f.2.tokens ++ [.fieldEnd]) := by
  induction fs with
  | nil => rfl
  | cons f fs ih =>
    obtain ⟨t, v⟩ := f
    rw [fieldTokens, ih, List.flatMap_cons]
    simp

theorem itemTokens_eq (vs : List (Value D)) : itemTokens vs = vs.flatMap Value.tokens := by
  induction vs with
  | nil => rfl
  | cons v vs ih => rw [itemTokens, ih, List.flatMap_cons]

/-- Every field has a header. -/
theorem length_le_headers (fs : List (Tag × Value D)) :
    fs.length ≤ (fieldTokens fs).countP Token.isHeader := by
  induction fs with
  | nil => exact Nat.zero_le _
  | cons f fs ih =>
    obtain ⟨t, v⟩ := f
    have hhead : Token.isHeader (.fieldBegin t.name v.type t.id : Token D) = true := rfl
    rw [fieldTokens, List.countP_cons_of_pos hhead, List.countP_append, List.length_cons]
    have hend := List.countP_cons_of_neg (l := fieldTokens fs)
      (show ¬ Token.isHeader (.fieldEnd : Token D) = true from Bool.false_ne_true)
    omega

end

/-! ### The protocol -/

/-- A protocol over a connection.  `I` is what one end has received and not yet read, `ε` the
    exceptions of protocol and transport.

    What is sent is a message, once it is flushed, and `Holds i ts` says that the calls `ts` were
    made and are still to be read in `i`.  The second half says what the generated code relies
    on: a call reads back what the call of the same name has written. -/
structure TProtocol (I D ε : Type) extends Link I (Token D) where
  readMessageBegin : Reader I ε (String × TMessageType × BitVec 32)
  readMessageEnd : Reader I ε Unit
  readStructBegin : Reader I ε Unit
  readStructEnd : Reader I ε Unit
  readFieldBegin : Reader I ε (TType × BitVec 16)
  readFieldEnd : Reader I ε Unit
  readListBegin : Reader I ε (TType × BitVec 32)
  readListEnd : Reader I ε Unit
  readI32 : Reader I ε (BitVec 32)
  readI64 : Reader I ε (BitVec 64)
  readDouble : Reader I ε D
  readString : Reader I ε String
  skip : TType → Reader I ε Unit
  /-- `TApplicationException::read` -/
  readException : Reader I ε TApplicationException
  /-- `TApplicationException::write` -/
  writeException : TApplicationException → List (Token D)
  /-- What is thrown where the input ends. -/
  endOfFile : ε
  /-- What is thrown for a message that is not a call. -/
  invalidMessageType : ε
  /-- How much there is to read. -/
  remaining : I → Nat
  /-- How deep a value may nest that the generated code skips. -/
  recursionLimit : Nat
  five_le_recursionLimit : 5 ≤ recursionLimit
  reads_messageBegin : ∀ name type seqid,
    Reads Holds readMessageBegin [.messageBegin name type seqid] (name, type, seqid)
  reads_messageEnd : Reads Holds readMessageEnd [.messageEnd] ()
  reads_structBegin : ∀ name, Reads Holds readStructBegin [.structBegin name] ()
  reads_structEnd : Reads Holds readStructEnd [.structEnd] ()
  reads_fieldBegin : ∀ name type id,
    Reads Holds readFieldBegin [.fieldBegin name type id] (type, id)
  /-- The id that comes with a stop is anything. -/
  reads_fieldStop : ∀ {i rest}, Holds i (.fieldStop :: rest) →
    ∃ id i', readFieldBegin i = .ok ((.stop, id), i') ∧ Holds i' rest
  reads_fieldEnd : Reads Holds readFieldEnd [.fieldEnd] ()
  reads_listBegin : ∀ elem size, Reads Holds readListBegin [.listBegin elem size] (elem, size)
  reads_listEnd : Reads Holds readListEnd [.listEnd] ()
  reads_i32 : ∀ v, Reads Holds readI32 [.i32 v] v
  reads_i64 : ∀ v, Reads Holds readI64 [.i64 v] v
  reads_double : ∀ v, Reads Holds readDouble [.double v] v
  reads_string : ∀ v, Reads Holds readString [.string v] v
  reads_skip : ∀ v : Value D, v.Fits recursionLimit → Reads Holds (skip v.type) v.tokens ()
  reads_exception : ∀ x, Reads Holds readException (writeException x) x
  /-- A field header, or a stop and what follows it, is at least one byte. -/
  headers_le : ∀ {i ts}, Holds i ts → ts.countP Token.isHeader ≤ remaining i
  /-- Nothing can be read before it was sent. -/
  starved_messageBegin : ∀ {i}, Holds i [] → ∃ e, readMessageBegin i = .error e

end ThriftBench.Rpc
