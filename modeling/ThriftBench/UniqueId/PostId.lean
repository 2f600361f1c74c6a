import Mathlib.Data.Nat.Bitwise
import ThriftBench.UniqueId.MachineId

namespace ThriftBench.UniqueId

open Lib

/-!
# UniqueID service — from `(timestamp, counter)` to the 64-bit id

`compute_unique_id` renders the two numbers that `get_counter` gave it as hex fields of
ten and three digits, puts the machine id in front, parses the sixteen digits back with
`stoul` and masks the sign bit away.

* `postId` / `uniqueIdString` — the code, with everything the standard library may throw;
* `postId_eq` — the code never throws and computes `idNumber`: eleven bits of machine id,
  forty of timestamp, twelve of counter;
* `idNumber_inj` — inside the field widths two ids are equal only where the fields are;
* `id_spaces_disjoint_iff` — which machine ids keep the id spaces of two processes apart.
-/

/-! ### The code -/

/-- `sstream << std::hex << x` for an `int64_t`: two's complement, no leading zeros. -/
def hexText (x : Int) : List Char := Nat.toDigits 16 (x % 2 ^ 64).toNat

/-- The ten-digit timestamp field. -/
def timestampHex (timestamp : Int) : Except StdException (List Char) :=
  padOrErase 10 (hexText timestamp)

/-- The three-digit counter field. -/
def counterHex (counterValue : Int) : Except StdException (List Char) :=
  padOrErase 3 (hexText counterValue)

/-- `post_id = stoul(machine_id + timestamp_hex + counter_hex, nullptr, 16)
    & 0x7FFFFFFFFFFFFFFF`. -/
def postId (m : MachineId) (timestamp counterValue : Int) : Except StdException Nat := do
  let timestampHex ← timestampHex timestamp
  let counterHex ← counterHex counterValue
  let uniqueId ← stoul16 (m.text ++ timestampHex ++ counterHex)
  return uniqueId &&& 0x7FFFFFFFFFFFFFFF

/-- `_return = std::to_string(post_id)`. -/
def uniqueIdString (m : MachineId) (timestamp counterValue : Int) :
    Except StdException (List Char) := do
  let postId ← postId m timestamp counterValue
  return Nat.toDigits 10 postId

/-! ### What the code computes -/

/-- Eleven bits of machine id, forty of timestamp, twelve of counter. -/
def idNumber (machine : Nat) (timestamp counterValue : Int) : Nat :=
  machine % 2 ^ 11 * 2 ^ 52 + (timestamp % 2 ^ 40).toNat * 2 ^ 12 + (counterValue % 2 ^ 12).toNat

theorem length_hexText_lt (x : Int) : (hexText x).length < 2 ^ 64 := by
  have hlt : (x % 2 ^ 64).toNat < 16 ^ 16 := by
    have := Int.emod_lt_of_pos x (show (0 : Int) < 2 ^ 64 by norm_num)
    have := Int.emod_nonneg x (show (2 ^ 64 : Int) ≠ 0 by norm_num)
    norm_num at *
    omega
  have : (hexText x).length ≤ 16 := (Nat.length_toDigits_le_iff (by decide) (by decide)).mpr hlt
  omega

theorem isDigit_of_mem_hexText (x : Int) : ∀ c ∈ hexText x, isDigit 16 c = true :=
  isDigit_of_mem_toDigits (by decide) (by decide)

theorem timestampHex_eq (t : Int) : timestampHex t = .ok (fitTo 10 (hexText t)) :=
  padOrErase_eq_ok (by decide) (length_hexText_lt t)

theorem counterHex_eq (c : Int) : counterHex c = .ok (fitTo 3 (hexText c)) :=
  padOrErase_eq_ok (by decide) (length_hexText_lt c)

/-- A fixed-width hex field of `w ≤ 16` digits holds its number modulo `16 ^ w`. -/
theorem numeral_fitTo_hexText {w : Nat} (hw : w ≤ 16) (x : Int) :
    numeral 16 (fitTo w (hexText x)) = (x % (16 : Int) ^ w).toNat := by
  rw [numeral_fitTo (isDigit_of_mem_hexText x), hexText,
    numeral_toDigits (by decide) (by decide)]
  have hdvd : (16 : Int) ^ w ∣ 2 ^ 64 := by
    have h64 : (2 : Int) ^ 64 = 16 ^ 16 := by norm_num
    rw [h64]; exact pow_dvd_pow 16 hw
  have hpos : (0 : Int) ≤ x % 2 ^ 64 := Int.emod_nonneg x (by norm_num)
  rw [← Int.emod_emod_of_dvd x hdvd]
  apply Int.ofNat.inj
  have hnn : (0 : Int) ≤ x % 2 ^ 64 % 16 ^ w := Int.emod_nonneg _ (by positivity)
  simp only [Int.ofNat_eq_natCast, Int.natCast_emod, Int.toNat_of_nonneg hpos,
    Int.toNat_of_nonneg hnn, Nat.cast_pow, Nat.cast_ofNat]

/-- The text that `compute_unique_id` parses. -/
def idText (m : MachineId) (t c : Int) : List Char :=
  m.text ++ fitTo 10 (hexText t) ++ fitTo 3 (hexText c)

theorem isDigit_of_mem_idText (m : MachineId) (t c : Int) :
    ∀ x ∈ idText m t c, isDigit 16 x = true := by
  intro x hx
  rw [idText, List.mem_append, List.mem_append] at hx
  rcases hx with (hx | hx) | hx
  · exact m.isDigit_of_mem x hx
  · exact isDigit_of_mem_fitTo (by decide) (isDigit_of_mem_hexText t) x hx
  · exact isDigit_of_mem_fitTo (by decide) (isDigit_of_mem_hexText c) x hx

/-- The sixteen digits, read as one number. -/
theorem numeral_idText (m : MachineId) (t c : Int) :
    numeral 16 (idText m t c)
      = m.value * 2 ^ 52 + (t % 2 ^ 40).toNat * 2 ^ 12 + (c % 2 ^ 12).toNat := by
  rw [idText, numeral_append, numeral_append, length_fitTo, length_fitTo,
    numeral_fitTo_hexText (by decide), numeral_fitTo_hexText (by decide)]
  norm_num [MachineId.value]
  ring

/-- A field value is below its modulus. -/
theorem toNat_emod_lt (x : Int) (n : Nat) : (x % 2 ^ n).toNat < 2 ^ n := by
  have hlt : x % 2 ^ n < 2 ^ n := Int.emod_lt_of_pos x (by positivity)
  have hnn : 0 ≤ x % 2 ^ n := Int.emod_nonneg x (by positivity)
  rw [Int.toNat_lt hnn]
  exact_mod_cast hlt

/-- `stoul` parses the digits. -/
theorem stoul16_idText (m : MachineId) (t c : Int) :
    stoul16 (idText m t c) = .ok (numeral 16 (idText m t c)) := by
  have hm := m.value_lt
  have ht := toNat_emod_lt t 40
  have hc := toNat_emod_lt c 12
  refine stoul16_of_digits ?_ (isDigit_of_mem_idText m t c) ?_
  · intro hnil
    have := congrArg List.length hnil
    simp [idText] at this
  · rw [numeral_idText]; omega

/-- **The id law.** `compute_unique_id` never throws, and the number it returns is
    `idNumber` of its three fields. -/
theorem postId_eq (m : MachineId) (t c : Int) : postId m t c = .ok (idNumber m.value t c) := by
  have hm := m.value_lt
  have ht := toNat_emod_lt t 40
  have hc := toNat_emod_lt c 12
  have hmask : ∀ n : Nat, n &&& 0x7FFFFFFFFFFFFFFF = n % 2 ^ 63 := fun n =>
    Nat.and_two_pow_sub_one_eq_mod n 63
  simp only [postId, timestampHex_eq, counterHex_eq]
  show (stoul16 (idText m t c)).bind _ = _
  rw [stoul16_idText]
  show Except.ok (numeral 16 (idText m t c) &&& 0x7FFFFFFFFFFFFFFF) = _
  rw [hmask, numeral_idText, idNumber]
  congr 1
  omega

/-- The reply text is the decimal form of `idNumber`. -/
theorem uniqueIdString_eq (m : MachineId) (t c : Int) :
    uniqueIdString m t c = .ok (Nat.toDigits 10 (idNumber m.value t c)) := by
  rw [uniqueIdString, postId_eq]; rfl

/-- Two replies are the same text exactly when their ids are the same number. -/
theorem uniqueIdString_eq_iff {m m' : MachineId} {t c t' c' : Int} :
    uniqueIdString m t c = uniqueIdString m' t' c'
      ↔ idNumber m.value t c = idNumber m'.value t' c' := by
  rw [uniqueIdString_eq, uniqueIdString_eq, Except.ok.injEq]
  exact (toDigits_injective (by decide) (by decide)).eq_iff

/-- The three fields do not overlap: equal ids have equal fields. -/
theorem idNumber_eq_iff {k k' : Nat} {t c t' c' : Int} :
    idNumber k t c = idNumber k' t' c'
      ↔ k % 2 ^ 11 = k' % 2 ^ 11 ∧ t % 2 ^ 40 = t' % 2 ^ 40 ∧ c % 2 ^ 12 = c' % 2 ^ 12 := by
  unfold idNumber
  omega

/-- **Injectivity.** Timestamps below `2 ^ 40` and counters below `2 ^ 12` are recovered
    from the id. -/
theorem idNumber_inj {k : Nat} {t c t' c' : Int} (ht : 0 ≤ t ∧ t < 2 ^ 40)
    (ht' : 0 ≤ t' ∧ t' < 2 ^ 40) (hc : 0 ≤ c ∧ c < 2 ^ 12) (hc' : 0 ≤ c' ∧ c' < 2 ^ 12)
    (h : idNumber k t c = idNumber k t' c') : t = t' ∧ c = c' := by
  obtain ⟨-, hts, hcs⟩ := idNumber_eq_iff.mp h
  omega

/-! ### Machine separation

The mask that keeps `post_id` non-negative removes the top bit of the first machine digit,
so the machine field of an id is the machine id modulo `2 ^ 11`. -/

/-- **Machine separation, exactly.** No id of one process is ever an id of the other,
    whatever their timestamps and counters, exactly when the two machine ids differ in
    their low eleven bits. -/
theorem id_spaces_disjoint_iff (m m' : MachineId) :
    (∀ t t' c c' : Int, 0 ≤ t ∧ t < 2 ^ 40 → 0 ≤ t' ∧ t' < 2 ^ 40 → 0 ≤ c ∧ c < 4096 →
        0 ≤ c' ∧ c' < 4096 → uniqueIdString m t c ≠ uniqueIdString m' t' c')
      ↔ m.value % 2 ^ 11 ≠ m'.value % 2 ^ 11 := by
  constructor
  · intro hdisjoint heq
    -- Machine ids that agree modulo `2 ^ 11` meet at the very first id.
    apply hdisjoint 0 0 0 0 (by norm_num) (by norm_num) (by norm_num) (by norm_num)
    rw [uniqueIdString_eq_iff, idNumber_eq_iff]
    exact ⟨heq, rfl, rfl⟩
  · intro hne t t' c c' _ _ _ _ heq
    rw [uniqueIdString_eq_iff, idNumber_eq_iff] at heq
    exact hne heq.1

/-- The machine ids `000` and `800` are different and yet give the same id. -/
theorem id_spaces_meet :
    (MachineId.ofHash 0x000).text.length = 3 ∧ (MachineId.ofHash 0x800).text.length = 3 ∧
      (MachineId.ofHash 0x000).text ≠ (MachineId.ofHash 0x800).text ∧
      uniqueIdString (.ofHash 0x000) 0 0 = uniqueIdString (.ofHash 0x800) 0 0 := by
  refine ⟨MachineId.length_ofHash _, MachineId.length_ofHash _, by decide, ?_⟩
  rw [uniqueIdString_eq_iff, idNumber_eq_iff]
  exact ⟨by decide, rfl, rfl⟩

end ThriftBench.UniqueId
