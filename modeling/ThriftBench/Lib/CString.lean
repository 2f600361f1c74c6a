import Mathlib.Data.List.TakeWhile

namespace Lib

/-!
# Texts in memory

A `char` is a byte, and a C string is the bytes in front of the first zero.

* `cString` — the text that starts at the beginning of a piece of memory, as
  `std::string(const char *)` reads it;
* `textBytes` — the bytes of a text, and `bytesText`, which reads them; a text that a C
  string can hold comes back whole (`bytesText_cString`).
-/

/-- A `char`; its signed value is `BitVec.toInt`. -/
abbrev Byte := BitVec 8

/-- The bytes in front of the first zero. -/
def cString (memory : List Byte) : List Byte := memory.takeWhile (· ≠ 0)

theorem zero_notMem_cString (memory : List Byte) : (0 : Byte) ∉ cString memory := by
  intro hzero
  unfold cString at hzero
  have hne := List.mem_takeWhile_imp hzero
  exact of_decide_eq_true hne rfl

/-- A text without a zero byte is read up to its terminator. -/
theorem cString_append_zero {text : List Byte} (h : (0 : Byte) ∉ text) (rest : List Byte) :
    cString (text ++ 0 :: rest) = text := by
  unfold cString
  rw [List.takeWhile_append_of_pos]
  · simp
  · intro b hb
    have hne : b ≠ 0 := fun hzero => h (hzero ▸ hb)
    exact decide_eq_true hne

/-- The text is empty exactly when the memory starts with a zero. -/
theorem cString_cons_eq_nil {b : Byte} {rest : List Byte} : cString (b :: rest) = [] ↔ b = 0 := by
  unfold cString
  by_cases hb : b = 0 <;> simp [hb]

/-- The bytes of a text. -/
def textBytes (text : List Char) : List Byte := text.map fun c => BitVec.ofNat 8 c.toNat

@[simp] theorem length_textBytes (text : List Char) : (textBytes text).length = text.length :=
  List.length_map _

/-- The text that bytes stand for. -/
def bytesText (bytes : List Byte) : List Char := bytes.map fun b => Char.ofNat b.toNat

/-- A text that a C string can hold: its characters are bytes, and none of them is zero. -/
def IsCText (text : List Char) : Prop := ∀ c ∈ text, c.toNat ≠ 0 ∧ c.toNat < 256

theorem IsCText.append {text text' : List Char} (h : IsCText text) (h' : IsCText text') :
    IsCText (text ++ text') := by
  intro c hc
  rcases List.mem_append.mp hc with hc | hc
  · exact h c hc
  · exact h' c hc

theorem toNat_textByte {c : Char} (h : c.toNat < 256) :
    (BitVec.ofNat 8 c.toNat).toNat = c.toNat := by
  rw [BitVec.toNat_ofNat]
  exact Nat.mod_eq_of_lt h

theorem IsCText.zero_notMem {text : List Char} (h : IsCText text) :
    (0 : Byte) ∉ textBytes text := by
  intro hzero
  obtain ⟨c, hc, hbyte⟩ := List.mem_map.mp hzero
  apply (h c hc).1
  rw [← toNat_textByte (h c hc).2, hbyte]
  rfl

theorem bytesText_textBytes {text : List Char} (h : IsCText text) :
    bytesText (textBytes text) = text := by
  unfold bytesText textBytes
  rw [List.map_map]
  calc text.map _
      = text.map id := List.map_congr_left fun c hc => by
        show Char.ofNat (BitVec.ofNat 8 c.toNat).toNat = c
        rw [toNat_textByte (h c hc).2, Char.ofNat_toNat]
    _ = text := List.map_id text

/-- **Round trip.** A text, with its terminating zero in memory, is read back whole. -/
theorem bytesText_cString {text : List Char} (h : IsCText text) (rest : List Byte) :
    bytesText (cString (textBytes text ++ 0 :: rest)) = text := by
  rw [cString_append_zero h.zero_notMem, bytesText_textBytes h]

end Lib
