import ThriftBench.Rpc.Protocol

namespace ThriftBench.Rpc

open Lib

/-!
# A protocol in memory

`loopback` passes the calls on as they are: an input is the list of the calls made at the other
end.  A value is skipped by counting what begins and ends, whatever its type.

* `skipTokens_eq` — the count passes exactly one value;
* `loopback` — the protocol, with everything that the generated code relies on.
-/

/-- The exceptions of `loopback`. -/
inductive LoopbackError where
  | endOfFile
  | unexpected
  deriving DecidableEq, Repr

section

variable {D : Type}

/-- Takes one token that `take` accepts. -/
def takeToken {α : Type} (take : Token D → Option α) : Reader (List (Token D)) LoopbackError α
  | []      => .error .endOfFile
  | t :: ts =>
    match take t with
    | none   => .error .unexpected
    | some a => .ok (a, ts)

theorem reads_takeToken {α : Type} {take : Token D → Option α} {t : Token D} {a : α}
    (h : take t = some a) : Reads (· = ·) (takeToken take) [t] a := by
  rintro _ rest rfl
  refine ⟨rest, ?_, rfl⟩
  show takeToken take (t :: rest) = _
  rw [takeToken, h]

namespace Token

/-- Begins a struct or a container. -/
def opens : Token D → Bool
  | .structBegin _ | .listBegin _ _ | .setBegin _ _ | .mapBegin _ _ _ => true
  | _ => false

/-- Ends a struct or a container. -/
def closes : Token D → Bool
  | .structEnd | .listEnd | .setEnd | .mapEnd => true
  | _ => false

/-- The number of structs and containers that are open after a token. -/
def nesting (n : Nat) (t : Token D) : Nat :=
  if t.opens = true then n + 1 else if t.closes = true then n - 1 else n

end Token

/-- Passes one value, of which `n` structs and containers are open. -/
def skipTokens : Nat → List (Token D) → Except LoopbackError (Unit × List (Token D))
  | _, []      => .error .endOfFile
  | n, t :: ts => if t.nesting n = 0 then .ok ((), ts) else skipTokens (t.nesting n) ts

/-- A token that neither begins nor ends anything. -/
theorem skipTokens_inner {t : Token D} (hopens : t.opens = false) (hcloses : t.closes = false)
    (n : Nat) (ts : List (Token D)) : skipTokens (n + 1) (t :: ts) = skipTokens (n + 1) ts := by
  have hnesting : t.nesting (n + 1) = n + 1 := by
    rw [Token.nesting, hopens, hcloses]
    rfl
  rw [skipTokens, hnesting, if_neg (Nat.succ_ne_zero n)]

mutual

/-- A value inside another one is passed. -/
theorem skipTokens_value (n : Nat) : ∀ (v : Value D) (rest : List (Token D)),
    skipTokens (n + 1) (v.tokens ++ rest) = skipTokens (n + 1) rest
  | .bool _, rest | .byte _, rest | .i16 _, rest | .i32 _, rest | .i64 _, rest
  | .double _, rest | .string _, rest => rfl
  | .struct name fs, rest => by
    rw [Value.tokens, List.cons_append, List.append_assoc]
    show skipTokens (n + 2) _ = _
    rw [skipTokens_fields (n + 1) fs]
    rfl
  | .list elem vs, rest => by
    rw [Value.tokens, List.cons_append, List.append_assoc]
    show skipTokens (n + 2) _ = _
    rw [skipTokens_items (n + 1) vs]
    rfl
  | .set elem vs, rest => by
    rw [Value.tokens, List.cons_append, List.append_assoc]
    show skipTokens (n + 2) _ = _
    rw [skipTokens_items (n + 1) vs]
    rfl
  | .map key value es, rest => by
    rw [Value.tokens, List.cons_append, List.append_assoc]
    show skipTokens (n + 2) _ = _
    rw [skipTokens_entries (n + 1) es]
    rfl

theorem skipTokens_fields (n : Nat) : ∀ (fs : List (Tag × Value D)) (rest : List (Token D)),
    skipTokens (n + 1) (fieldTokens fs ++ rest) = skipTokens (n + 1) rest
  | [], _ => rfl
  | (t, v) :: fs, rest => by
    rw [fieldTokens, List.cons_append, List.append_assoc, skipTokens_inner rfl rfl,
      skipTokens_value n v, List.cons_append, skipTokens_inner rfl rfl, skipTokens_fields n fs]

theorem skipTokens_items (n : Nat) : ∀ (vs : List (Value D)) (rest : List (Token D)),
    skipTokens (n + 1) (itemTokens vs ++ rest) = skipTokens (n + 1) rest
  | [], _ => rfl
  | v :: vs, rest => by
    rw [itemTokens, List.append_assoc, skipTokens_value n v, skipTokens_items n vs]

theorem skipTokens_entries (n : Nat) :
    ∀ (es : List (Value D × Value D)) (rest : List (Token D)),
    skipTokens (n + 1) (entryTokens es ++ rest) = skipTokens (n + 1) rest
  | [], _ => rfl
  | (k, v) :: es, rest => by
    rw [entryTokens, List.append_assoc, skipTokens_value n k, List.append_assoc,
      skipTokens_value n v, skipTokens_entries n es]

end

/-- A whole value is passed. -/
theorem skipTokens_eq (v : Value D) (rest : List (Token D)) :
    skipTokens 0 (v.tokens ++ rest) = .ok ((), rest) := by
  cases v with
  | bool | byte | i16 | i32 | i64 | double | string => rfl
  | struct name fs =>
    rw [Value.tokens, List.cons_append, List.append_assoc]
    show skipTokens 1 _ = _
    rw [skipTokens_fields 0 fs]
    rfl
  | list elem vs =>
    rw [Value.tokens, List.cons_append, List.append_assoc]
    show skipTokens 1 _ = _
    rw [skipTokens_items 0 vs]
    rfl
  | set elem vs =>
    rw [Value.tokens, List.cons_append, List.append_assoc]
    show skipTokens 1 _ = _
    rw [skipTokens_items 0 vs]
    rfl
  | map key value es =>
    rw [Value.tokens, List.cons_append, List.append_assoc]
    show skipTokens 1 _ = _
    rw [skipTokens_entries 0 es]
    rfl

/-- The calls of `TApplicationException::write`, with the number of a type. -/
def exceptionTokens (x : TApplicationException) : List (Token D) :=
  let type : BitVec 32 := match x.type with
    | .unknown       => 0
    | .unknownMethod => 1
    | .missingResult => 5
  [.structBegin "TApplicationException",
    .fieldBegin "message" .string 1, .string x.message, .fieldEnd,
    .fieldBegin "type" .i32 2, .i32 type, .fieldEnd, .fieldStop, .structEnd]

/-- Reads what `exceptionTokens` writes. -/
def takeException : Reader (List (Token D)) LoopbackError TApplicationException
  | .structBegin _ :: .fieldBegin _ .string 1 :: .string message :: .fieldEnd ::
      .fieldBegin _ .i32 2 :: .i32 type :: .fieldEnd :: .fieldStop :: .structEnd :: rest =>
    if type = 0 then .ok (⟨.unknown, message⟩, rest)
    else if type = 1 then .ok (⟨.unknownMethod, message⟩, rest)
    else .ok (⟨.missingResult, message⟩, rest)
  | _ => .error .unexpected

theorem takeException_eq (x : TApplicationException) (rest : List (Token D)) :
    takeException (exceptionTokens x ++ rest) = .ok (x, rest) := by
  obtain ⟨type, message⟩ := x
  cases type with
  | unknown | unknownMethod | missingResult => rfl

end

/-- The protocol whose input is the list of the calls made. -/
def loopback (D : Type) : TProtocol (List (Token D)) D LoopbackError where
  readMessageBegin := takeToken fun
    | .messageBegin name type seqid => some (name, type, seqid)
    | _ => none
  readMessageEnd := takeToken fun | .messageEnd => some () | _ => none
  readStructBegin := takeToken fun | .structBegin _ => some () | _ => none
  readStructEnd := takeToken fun | .structEnd => some () | _ => none
  readFieldBegin := takeToken fun
    | .fieldBegin _ type id => some (type, id)
    | .fieldStop => some (.stop, 0)
    | _ => none
  readFieldEnd := takeToken fun | .fieldEnd => some () | _ => none
  readListBegin := takeToken fun | .listBegin elem size => some (elem, size) | _ => none
  readListEnd := takeToken fun | .listEnd => some () | _ => none
  readI32 := takeToken fun | .i32 v => some v | _ => none
  readI64 := takeToken fun | .i64 v => some v | _ => none
  readDouble := takeToken fun | .double v => some v | _ => none
  readString := takeToken fun | .string v => some v | _ => none
  skip _ := skipTokens 0
  readException := takeException
  writeException := exceptionTokens
  endOfFile := .endOfFile
  invalidMessageType := .unexpected
  remaining := List.length
  empty := []
  send i ts := some (i ++ ts)
  recursionLimit := 64
  five_le_recursionLimit := by decide
  Holds := (· = ·)
  holds_empty := rfl
  holds_send hsend hholds := by
    rw [← hholds]
    exact (Option.some.inj hsend).symm
  reads_messageBegin _ _ _ := reads_takeToken rfl
  reads_messageEnd := reads_takeToken rfl
  reads_structBegin _ := reads_takeToken rfl
  reads_structEnd := reads_takeToken rfl
  reads_fieldBegin _ _ _ := reads_takeToken rfl
  reads_fieldStop h := by
    rw [h]
    exact ⟨0, _, rfl, rfl⟩
  reads_fieldEnd := reads_takeToken rfl
  reads_listBegin _ _ := reads_takeToken rfl
  reads_listEnd := reads_takeToken rfl
  reads_i32 _ := reads_takeToken rfl
  reads_i64 _ := reads_takeToken rfl
  reads_double _ := reads_takeToken rfl
  reads_string _ := reads_takeToken rfl
  reads_skip v _ := by
    rintro _ rest rfl
    exact ⟨rest, skipTokens_eq v rest, rfl⟩
  reads_exception x := by
    rintro _ rest rfl
    exact ⟨rest, takeException_eq x rest, rfl⟩
  headers_le h := by
    rw [h]
    exact List.countP_le_length
  starved_messageBegin h := by
    rw [h]
    exact ⟨_, rfl⟩

end ThriftBench.Rpc
