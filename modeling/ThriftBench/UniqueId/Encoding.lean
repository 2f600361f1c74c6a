import ThriftBench.UniqueId.PostId

namespace ThriftBench.UniqueId

open Lib

/-!
# UniqueID service — encoding and decoding of an id

The id of a 16-bit hash, a timestamp and a counter value, from the sixteen digits that
`compute_unique_id` builds to the decimal text it returns, and back.

* `splitId` — the three fields of an id;
* `PadsUpTo` — the padding of a field has the length that is missing, not a wrapped one;
* `encode_decode` — what is built, what is returned, and what is read back.
-/

/-- An id split into its machine, timestamp and counter fields. -/
def splitId (id : Nat) : Nat × Nat × Nat := (id / 2 ^ 52, id / 2 ^ 12 % 2 ^ 40, id % 2 ^ 12)

/-- Where `s` is not cut, `std::string(width - s.size(), '0')` adds exactly what is missing:
    the difference of the two sizes does not wrap. -/
def PadsUpTo (width : Nat) (s : List Char) : Prop :=
  ¬ width < s.length → s.length + sizeSub width s.length = width

theorem padsUpTo_of_lt {width : Nat} (hw : width < 2 ^ 64) (s : List Char) : PadsUpTo width s := by
  intro hshort
  unfold sizeSub
  omega

/-- The machine field of a hash is its last three hex digits. -/
theorem MachineId.value_ofHash (hash : BitVec 16) :
    (MachineId.ofHash hash).value = hash.toNat % 4096 := by
  have hdigits : ∀ c ∈ Nat.toDigits 16 hash.toNat, isDigit 16 c = true :=
    isDigit_of_mem_toDigits (by decide) (by decide)
  show numeral 16 (fitTo 3 (Nat.toDigits 16 hash.toNat)) = _
  rw [numeral_fitTo hdigits, numeral_toDigits (by decide) (by decide)]
  rfl

/-- Splitting undoes `idNumber`. -/
theorem splitId_idNumber (k : Nat) (t c : Int) :
    splitId (idNumber k t c) = (k % 2 ^ 11, (t % 2 ^ 40).toNat, (c % 2 ^ 12).toNat) := by
  have ht := toNat_emod_lt t 40
  have hc := toNat_emod_lt c 12
  unfold splitId idNumber
  simp only [Prod.mk.injEq]
  refine ⟨?_, ?_, ?_⟩
  · omega
  · omega
  · omega

/-- Only hex digits are built, and sixteen of them. -/
theorem idText_ofHash (hash : BitVec 16) (t c : Int) :
    (idText (.ofHash hash) t c).length = 16 ∧
      ∀ x ∈ idText (.ofHash hash) t c, x ∈ hexAlphabet := by
  constructor
  · rw [idText, List.length_append, List.length_append, MachineId.length_ofHash, length_fitTo,
      length_fitTo]
  · intro x hx
    rw [idText, List.mem_append, List.mem_append] at hx
    rcases hx with (hx | hx) | hx
    · exact (MachineId.ofHash hash).isHex x hx
    · exact mem_hexAlphabet_of_mem_fitTo x hx
    · exact mem_hexAlphabet_of_mem_fitTo x hx

/-- **Encoding and decoding.** For every hash, timestamp and counter value, negative ones
    included: the three fields are rendered without padding of negative length and make up
    sixteen hex digits, which `stoul` parses; the id is below `2 ^ 63` and has the remainders
    of the three numbers as its fields; and the decimal text that is returned reads back as
    the id and splits into the same fields. -/
theorem encode_decode (hash : BitVec 16) (t c : Int) :
    (PadsUpTo 3 (Nat.toDigits 16 hash.toNat) ∧ PadsUpTo 10 (hexText t) ∧ PadsUpTo 3 (hexText c)) ∧
    ∃ machine timestamp counter : List Char,
      machineIdHex hash = .ok machine ∧ machine = (MachineId.ofHash hash).text ∧
      timestampHex t = .ok timestamp ∧ counterHex c = .ok counter ∧
      (machine ++ timestamp ++ counter).length = 16 ∧
      (∀ x ∈ machine ++ timestamp ++ counter, x ∈ hexAlphabet) ∧
      (∃ n, stoul16 (machine ++ timestamp ++ counter) = .ok n) ∧
      ∃ id text, postId (.ofHash hash) t c = .ok id ∧ id < 2 ^ 63 ∧
        id = hash.toNat % 2 ^ 11 * 2 ^ 52 + (t % 2 ^ 40).toNat * 2 ^ 12 + (c % 2 ^ 12).toNat ∧
        uniqueIdString (.ofHash hash) t c = .ok text ∧ numeral 10 text = id ∧
        splitId (numeral 10 text)
          = (hash.toNat % 2 ^ 11, (t % 2 ^ 40).toNat, (c % 2 ^ 12).toNat) := by
  have hpads : ∀ {w : Nat} (s : List Char), w < 2 ^ 64 → PadsUpTo w s := fun s hw =>
    padsUpTo_of_lt hw s
  refine ⟨⟨hpads _ (by decide), hpads _ (by decide), hpads _ (by decide)⟩, ?_⟩
  have hvalue : (MachineId.ofHash hash).value % 2 ^ 11 = hash.toNat % 2 ^ 11 := by
    rw [MachineId.value_ofHash]
    omega
  obtain ⟨hlength, hhex⟩ := idText_ofHash hash t c
  have hid := postId_eq (.ofHash hash) t c
  have htext := uniqueIdString_eq (.ofHash hash) t c
  have hread : numeral 10 (Nat.toDigits 10 (idNumber (MachineId.ofHash hash).value t c))
      = idNumber (MachineId.ofHash hash).value t c := numeral_toDigits (by decide) (by decide) _
  refine ⟨_, _, _, machineIdHex_eq hash, rfl, timestampHex_eq t, counterHex_eq c, hlength, hhex,
    ⟨_, stoul16_idText _ t c⟩, _, _, hid, ?_, ?_, htext, hread, ?_⟩
  · have ht := toNat_emod_lt t 40
    have hc := toNat_emod_lt c 12
    unfold idNumber
    omega
  · rw [idNumber, hvalue]
  · rw [hread, splitId_idNumber, hvalue]

end ThriftBench.UniqueId
