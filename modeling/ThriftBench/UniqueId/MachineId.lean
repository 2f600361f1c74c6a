import Mathlib.Tactic.NormNum
import ThriftBench.Lib.CxxString

namespace ThriftBench.UniqueId

open Lib

/-!
# UniqueID service — the machine id text

`GetMachineId` leaves a text of three lower-case hex digits in its out-parameter, rendered
from the 16-bit hash of MAC and PID; where it returns early the text stays empty.

* `MachineId` — such a text, carrying its own well-formedness;
* `machineIdHex` — the rendering at the end of `GetMachineId`;
* `machineIdHex_eq` — it always yields the `MachineId` of the hash.
-/

/-- The digits that `std::hex` writes. -/
def hexAlphabet : List Char := "0123456789abcdef".toList

/-- A machine id text: at most three lower-case hex digits. -/
structure MachineId where
  text : List Char
  length_le : text.length ≤ 3
  isHex : ∀ c ∈ text, c ∈ hexAlphabet

namespace MachineId

/-- The number a machine id stands for. -/
def value (m : MachineId) : Nat := numeral 16 m.text

theorem isDigit_of_mem (m : MachineId) : ∀ c ∈ m.text, isDigit 16 c = true := by
  have hall : hexAlphabet.all (isDigit 16) = true := by decide
  exact fun c hc => List.all_eq_true.mp hall c (m.isHex c hc)

theorem value_lt (m : MachineId) : m.value < 4096 := by
  calc m.value < 16 ^ m.text.length := numeral_lt m.isDigit_of_mem
    _ ≤ 16 ^ 3 := Nat.pow_le_pow_right (by decide) m.length_le
    _ = 4096 := by norm_num

end MachineId

/-- The end of `GetMachineId`: `stream << std::hex << hash`, then the front is erased from
    a longer text and zeros are put before a shorter one. -/
def machineIdHex (hash : BitVec 16) : Except StdException (List Char) :=
  let macHash := Nat.toDigits 16 hash.toNat
  if 3 < macHash.length then
    .ok (macHash.drop (sizeSub macHash.length 3))
  else if macHash.length < 3 then
    (stdString (sizeSub 3 macHash.length) '0').map (· ++ macHash)
  else
    .ok macHash

/-- Lower-case hex digits, brought to a width. -/
theorem mem_hexAlphabet_of_mem_fitTo {w n : Nat} :
    ∀ c ∈ fitTo w (Nat.toDigits 16 n), c ∈ hexAlphabet := by
  have hall : ∀ d < 16, d.digitChar ∈ hexAlphabet := by decide
  intro c hc
  rcases List.mem_append.mp hc with hc | hc
  · rw [(List.mem_replicate.mp hc).2]; decide
  · obtain ⟨d, hd, rfl⟩ := exists_digit_of_mem_toDigits (by decide) c (List.mem_of_mem_drop hc)
    exact hall d hd

/-- The machine id of a hash: its last three hex digits. -/
def MachineId.ofHash (hash : BitVec 16) : MachineId where
  text := fitTo 3 (Nat.toDigits 16 hash.toNat)
  length_le := (length_fitTo 3 _).le
  isHex := mem_hexAlphabet_of_mem_fitTo

/-- The rendering never throws and yields the machine id of the hash. -/
theorem machineIdHex_eq (hash : BitVec 16) :
    machineIdHex hash = .ok (MachineId.ofHash hash).text := by
  have hlen : (Nat.toDigits 16 hash.toNat).length ≤ 4 :=
    (Nat.length_toDigits_le_iff (by decide) (by decide)).mpr (by have := hash.isLt; omega)
  have hfit : padOrErase 3 (Nat.toDigits 16 hash.toNat) = .ok (MachineId.ofHash hash).text :=
    padOrErase_eq_ok (by decide) (by omega)
  rw [← hfit]
  simp only [machineIdHex, padOrErase]
  by_cases hlong : 3 < (Nat.toDigits 16 hash.toNat).length
  · rw [if_pos hlong, if_pos hlong]
  · rw [if_neg hlong, if_neg hlong]
    by_cases hshort : (Nat.toDigits 16 hash.toNat).length < 3
    · rw [if_pos hshort]
    · -- Exactly three digits: the padding that `padOrErase` adds is empty.
      have hthree : (Nat.toDigits 16 hash.toNat).length = 3 := by omega
      rw [if_neg hshort, hthree]
      rfl

/-- A rendered machine id has exactly three digits. -/
@[simp] theorem MachineId.length_ofHash (hash : BitVec 16) :
    (MachineId.ofHash hash).text.length = 3 := length_fitTo 3 _

end ThriftBench.UniqueId
