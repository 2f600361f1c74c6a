import ThriftBench.Lib.CString
import ThriftBench.Lib.Cursor
import ThriftBench.Lib.Numeral

namespace ThriftBench.Hindsight

open Lib

/-!
# Hindsight echo server — `EchoServerHandler::call`

The handler formats the request id into a local buffer and hands the whole buffer to the
tracer.  The text ends before the buffer does, and what follows it was never written.

* `call` — the calls that the handler makes to the tracer, in order;
* `tracepoint_text_fits` — the text always fits, and the request id can be read off it;
* `call_eq` — the tracepoint carries the text, its terminator and the bytes behind them as
  they were;
* `samePayload_iff` — hence which earlier contents can be told apart in the trace.
-/

/-- A write outside the buffer. -/
inductive Failure where
  | writePastEnd
  deriving DecidableEq, Repr

/-- A call of the tracer. -/
inductive TracerCall where
  | hindsightBegin (req_id : BitVec 64)
  | hindsightTracepoint (payload : List Byte)
  | hindsightTrigger (req_id : BitVec 64)
  | hindsightEnd
  deriving DecidableEq, Repr

/-- `char mess[32];`, with the contents that the stack happens to have. -/
structure Mess where
  bytes : List Byte
  length_bytes : bytes.length = 32

/-- `request_%ld` -/
def requestText (req_id : BitVec 64) : List Char := "request_".toList ++ decimal req_id.toInt

/-- `sprintf(memory, "%s", text)`: the text and its terminating zero, from the beginning of
    `memory` on. -/
def sprintf (memory : List Byte) (text : List Char) : Except Failure (List Byte) :=
  ((textBytes text ++ [0]).foldlM (Cursor.write Failure.writePastEnd) ⟨memory, 0⟩).map Cursor.buffer

/-- `EchoServerHandler::call` -/
def call (req_id : BitVec 64) (mess : Mess) : Except Failure (List TracerCall) :=
  (sprintf mess.bytes (requestText req_id)).map fun written =>
    -- `sizeof(mess)` bytes, that is, all of them.
    [.hindsightBegin req_id, .hindsightTracepoint written] ++
      (if req_id.toInt.tmod 2 = 1 then [.hindsightTrigger req_id] else []) ++
      [.hindsightEnd]

/-- What was handed to `hindsight_tracepoint`. -/
def payloads (calls : List TracerCall) : List (List Byte) :=
  calls.filterMap fun
    | .hindsightTracepoint payload => some payload
    | _ => none

/-- Two runs that differ in the earlier contents of `mess` hand the same bytes to
    `hindsight_tracepoint`. -/
def SamePayload (req_id : BitVec 64) (mess mess' : Mess) : Prop :=
  (call req_id mess).map payloads = (call req_id mess').map payloads

/-! ### What is written -/

/-- A text that fits is written, and the bytes behind its terminator stay. -/
theorem sprintf_eq {memory : List Byte} {text : List Char} (h : text.length < memory.length) :
    sprintf memory text = .ok (textBytes text ++ 0 :: memory.drop (text.length + 1)) := by
  have hlength : (textBytes text ++ [0]).length = text.length + 1 := by
    rw [List.length_append, length_textBytes]
    rfl
  have hwrite : (textBytes text ++ [0]).foldlM (Cursor.write Failure.writePastEnd)
        (.between [] memory)
      = .ok (.between ([] ++ (textBytes text ++ [0]))
          (memory.drop (textBytes text ++ [0]).length)) :=
    Cursor.foldlM_write (textBytes text ++ [0]) [] memory (by omega)
  unfold sprintf
  show Except.map Cursor.buffer (List.foldlM _ (Cursor.between [] memory) _) = _
  rw [hwrite, hlength]
  show Except.ok ([] ++ (textBytes text ++ [0]) ++ memory.drop (text.length + 1)) = _
  rw [List.nil_append, List.append_assoc]
  rfl

/-- An `int64_t` has at most nineteen digits. -/
theorem length_requestText_le (req_id : BitVec 64) : (requestText req_id).length ≤ 28 := by
  have hlow : -2 ^ 63 ≤ req_id.toInt := BitVec.le_toInt req_id
  have hhigh : req_id.toInt < 2 ^ 63 := BitVec.toInt_lt
  have hdigits : req_id.toInt.natAbs < 10 ^ 19 := by omega
  have hdecimal := length_decimal_le (k := 19) (by decide) hdigits
  have hprefix : ∀ l : List Char, ("request_".toList ++ l).length = 8 + l.length := by
    intro l
    rw [List.length_append]
    rfl
  calc (requestText req_id).length
      = 8 + (decimal req_id.toInt).length := hprefix _
    _ ≤ 8 + 20 := Nat.add_le_add_left hdecimal 8

/-- The text may stand in memory as a C string. -/
theorem isCText_requestText (req_id : BitVec 64) : IsCText (requestText req_id) := by
  have hdigits : ∀ d : Fin 10, d.val.digitChar.toNat ≠ 0 ∧ d.val.digitChar.toNat < 256 := by
    decide
  have hchars : "request_".toList.all (fun c => c.toNat != 0 && c.toNat < 256) = true := by
    decide
  have hstem : IsCText "request_".toList := by
    intro c hc
    simpa using List.all_eq_true.mp hchars c hc
  apply hstem.append
  intro c hc
  rcases mem_decimal hc with rfl | ⟨d, hd, rfl⟩
  · decide
  · exact hdigits ⟨d, hd⟩

/-- **The text fits.** For every `req_id` and whatever `mess` held before: the text and its
    terminating zero are at most 32 bytes, `sprintf` writes inside `mess`, and what stands there
    afterwards is the prefix and a decimal number that is read back as `req_id`. -/
theorem tracepoint_text_fits (req_id : BitVec 64) (mess : Mess) :
    (textBytes (requestText req_id) ++ [0]).length ≤ 32 ∧
      ∃ written digits, sprintf mess.bytes (requestText req_id) = .ok written ∧
        written.length = 32 ∧
        bytesText (cString written) = "request_".toList ++ digits ∧
        readDecimal digits = some req_id.toInt := by
  have hlength := length_requestText_le req_id
  have hmess := mess.length_bytes
  refine ⟨?_, _, decimal req_id.toInt, sprintf_eq (by omega), ?_, ?_, readDecimal_decimal _⟩
  · rw [List.length_append, length_textBytes, List.length_singleton]
    omega
  · rw [List.length_append, length_textBytes, List.length_cons, List.length_drop]
    omega
  · exact bytesText_cString (isCText_requestText req_id) _

/-- **Spec.** The handler's calls, and what the tracepoint carries. -/
theorem call_eq (req_id : BitVec 64) (mess : Mess) :
    call req_id mess = .ok ([.hindsightBegin req_id, .hindsightTracepoint
        (textBytes (requestText req_id) ++
          0 :: mess.bytes.drop ((requestText req_id).length + 1))] ++
      (if req_id.toInt.tmod 2 = 1 then [.hindsightTrigger req_id] else []) ++
      [.hindsightEnd]) := by
  have hfits : (requestText req_id).length < mess.bytes.length := by
    have hlength := length_requestText_le req_id
    rw [mess.length_bytes]
    omega
  rw [call, sprintf_eq hfits]
  rfl

theorem payloads_call (req_id : BitVec 64) (mess : Mess) :
    (call req_id mess).map payloads = .ok [textBytes (requestText req_id) ++
      0 :: mess.bytes.drop ((requestText req_id).length + 1)] := by
  rw [call_eq]
  show Except.ok (payloads _) = _
  split
  · rfl
  · rfl

/-- **The payload, exactly.** For every `req_id` and any two earlier contents of `mess`: the
    bytes handed to `hindsight_tracepoint` are the same if and only if the two contents agree
    behind the terminating zero of the text. -/
theorem samePayload_iff (req_id : BitVec 64) (mess mess' : Mess) :
    SamePayload req_id mess mess' ↔
      mess.bytes.drop ((requestText req_id).length + 1)
        = mess'.bytes.drop ((requestText req_id).length + 1) := by
  rw [SamePayload, payloads_call, payloads_call]
  constructor
  · intro hsame
    have hpayload := List.head_eq_of_cons_eq (Except.ok.inj hsame)
    exact List.tail_eq_of_cons_eq (List.append_cancel_left hpayload)
  · intro htail
    rw [htail]

/-- A buffer that holds one byte everywhere. -/
def Mess.filled (b : Byte) : Mess := ⟨List.replicate 32 b, List.length_replicate⟩

/-- No request id is long enough to hide the earlier contents. -/
theorem not_samePayload_filled (req_id : BitVec 64) {b b' : Byte} (hne : b ≠ b') :
    ¬ SamePayload req_id (.filled b) (.filled b') := by
  intro hsame
  rw [SamePayload, payloads_call, payloads_call] at hsame
  have hpayload := List.head_eq_of_cons_eq (Except.ok.inj hsame)
  have heq : (List.replicate 32 b).drop ((requestText req_id).length + 1)
      = (List.replicate 32 b').drop ((requestText req_id).length + 1) :=
    List.tail_eq_of_cons_eq (List.append_cancel_left hpayload)
  have hlength := length_requestText_le req_id
  rw [List.drop_replicate, List.drop_replicate] at heq
  have hrest : 32 - ((requestText req_id).length + 1) ≠ 0 := by omega
  exact hne ((List.replicate_inj.mp heq).2.resolve_left hrest)

/-- For request `7` the trace tells a buffer of zeros from one of ones. -/
theorem stack_reaches_trace : ¬ SamePayload 7 (.filled 0) (.filled 1) := by
  intro hsame
  unfold SamePayload at hsame
  rw [payloads_call, payloads_call] at hsame
  exact absurd hsame (by decide)

end ThriftBench.Hindsight
