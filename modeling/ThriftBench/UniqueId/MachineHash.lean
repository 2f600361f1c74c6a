import Mathlib.Data.List.GetD
import Mathlib.Tactic.NormNum
import ThriftBench.Lib.CString
import ThriftBench.Lib.Numeral

namespace ThriftBench.UniqueId

open Lib

/-!
# UniqueID service — the hash of MAC and PID

`HashMacAddressPid` puts the PID behind the MAC and loops over the length of the result,
but the loop reads `mac[i]`, not `mac_pid[i]`.

* `hashMacAddressPid` — the loop, with the positions of `mac` that it reads;
* `weightedSum` — the sum of a text's bytes, alternately times `1` and times `256`;
* `reads_inside_iff` — the reads stay inside `mac` exactly for a PID of one digit;
* `hash_misses_pid` — then the digit contributes nothing: the sum over MAC and PID is never
  what the loop computes.
-/

/-- `mac_pid = mac + std::to_string(getpid())`. -/
def macPid (mac : List Byte) (pid : Nat) : List Byte := mac ++ textBytes (Nat.toDigits 10 pid)

/-- `mac[i]`: the terminating zero at `mac.size()`, and behind it whatever memory holds
    (`beyond`). -/
def macByte (beyond : Nat → Byte) (mac : List Byte) (i : Nat) : Byte :=
  if i < mac.length then mac.getD i 0
  else if i = mac.length then 0
  else beyond (i - mac.length - 1)

/-- The variables of the loop, and the positions of `mac` it has read. -/
structure HashLoop where
  hash : BitVec 16
  reads : List Nat
  deriving DecidableEq

/-- `hash += ( mac[i] << (( i & 1 ) * 8 ));` — the byte is a signed `char`, the sum is cut to
    sixteen bits. -/
def hashStep (beyond : Nat → Byte) (mac : List Byte) (s : HashLoop) (i : Nat) : HashLoop where
  hash := s.hash + BitVec.ofInt 16 ((macByte beyond mac i).toInt * 2 ^ ((i &&& 1) * 8))
  reads := s.reads ++ [i]

/-- `HashMacAddressPid(mac)` in a process with the given PID. -/
def hashMacAddressPid (beyond : Nat → Byte) (mac : List Byte) (pid : Nat) : HashLoop :=
  (List.range (macPid mac pid).length).foldl (hashStep beyond mac) ⟨0, []⟩

/-! ### What the loop computes -/

/-- The first `n` bytes that `f` gives, each times `256 ^ (i mod 2)`. -/
def weightedSum (f : Nat → Byte) : Nat → Int
  | 0     => 0
  | n + 1 => weightedSum f n + (f n).toInt * 256 ^ (n % 2)

theorem weightedSum_congr {f g : Nat → Byte} {n : Nat} (h : ∀ i < n, f i = g i) :
    weightedSum f n = weightedSum g n := by
  induction n with
  | zero => rfl
  | succ n ih =>
    rw [weightedSum, weightedSum, ih fun i hi => h i (Nat.lt_succ_of_lt hi),
      h n (Nat.lt_succ_self n)]

/-- The shift by zero or eight bits is the weight of the position. -/
theorem shift_eq_weight (i : Nat) : (2 : Int) ^ ((i &&& 1) * 8) = 256 ^ (i % 2) := by
  rw [Nat.and_one_is_mod, Nat.mul_comm, pow_mul]
  norm_num

/-- The loop sums the bytes of `mac`, and reads the positions in order. -/
theorem foldl_hashStep (beyond : Nat → Byte) (mac : List Byte) (n : Nat) :
    (List.range n).foldl (hashStep beyond mac) ⟨0, []⟩
      = ⟨BitVec.ofInt 16 (weightedSum (macByte beyond mac) n), List.range n⟩ := by
  induction n with
  | zero => rfl
  | succ n ih =>
    rw [List.range_succ, List.foldl_append, ih, List.foldl_cons, List.foldl_nil, hashStep,
      shift_eq_weight, weightedSum, BitVec.ofInt_add]

/-- What `HashMacAddressPid` returns. -/
theorem hash_eq (beyond : Nat → Byte) (mac : List Byte) (pid : Nat) :
    (hashMacAddressPid beyond mac pid).hash
      = BitVec.ofInt 16 (weightedSum (macByte beyond mac) (macPid mac pid).length) := by
  rw [hashMacAddressPid, foldl_hashStep]

/-- What it reads. -/
theorem reads_eq (beyond : Nat → Byte) (mac : List Byte) (pid : Nat) :
    (hashMacAddressPid beyond mac pid).reads = List.range (macPid mac pid).length := by
  rw [hashMacAddressPid, foldl_hashStep]

theorem length_macPid (mac : List Byte) (pid : Nat) :
    (macPid mac pid).length = mac.length + (Nat.toDigits 10 pid).length := by
  rw [macPid, List.length_append, length_textBytes]

/-- The reads stay inside `mac`, its terminating zero included, exactly for a PID of one
    digit. -/
theorem reads_inside_iff (beyond : Nat → Byte) (mac : List Byte) (pid : Nat) :
    (∀ i ∈ (hashMacAddressPid beyond mac pid).reads, i ≤ mac.length) ↔ pid < 10 := by
  have hdigits : (Nat.toDigits 10 pid).length ≤ 1 ↔ pid < 10 ^ 1 :=
    Nat.length_toDigits_le_iff (by decide) (by decide)
  rw [reads_eq, length_macPid]
  rw [pow_one] at hdigits
  rw [← hdigits]
  constructor
  · intro hinside
    by_contra hlong
    have hlast := hinside (mac.length + 1) (List.mem_range.mpr (by omega))
    omega
  · intro hshort i hi
    have := List.mem_range.mp hi
    omega

/-! ### What is asked of it -/

/-- The loop reads inside `mac`, and the hash is the sum over MAC and PID. -/
def CoversMacAndPid (beyond : Nat → Byte) (mac : List Byte) (pid : Nat) : Prop :=
  (∀ i ∈ (hashMacAddressPid beyond mac pid).reads, i ≤ mac.length) ∧
    (hashMacAddressPid beyond mac pid).hash
      = BitVec.ofInt 16 (weightedSum ((macPid mac pid).getD · 0) (macPid mac pid).length)

/-- The byte of a decimal digit. -/
theorem toInt_digit {d : Nat} (hd : d < 10) :
    (BitVec.ofNat 8 d.digitChar.toNat : Byte).toInt = 48 + d := by
  have hall : ∀ d : Fin 10, (BitVec.ofNat 8 d.val.digitChar.toNat : Byte).toInt = 48 + d.val := by
    decide
  exact hall ⟨d, hd⟩

/-- A PID of one digit adds the digit's byte to the sum over MAC and PID, and a zero to what
    the loop computes. -/
theorem weightedSum_digit (beyond : Nat → Byte) (mac : List Byte) {d : Nat} (hd : d < 10) :
    weightedSum ((macPid mac d).getD · 0) (macPid mac d).length
      = weightedSum (macByte beyond mac) (macPid mac d).length
        + (48 + d) * 256 ^ (mac.length % 2) := by
  have hpid : macPid mac d = mac ++ [BitVec.ofNat 8 d.digitChar.toNat] := by
    rw [macPid, Nat.toDigits_of_lt_base hd]
    rfl
  have hlength : (macPid mac d).length = mac.length + 1 := by
    rw [hpid, List.length_append, List.length_singleton]
  have hmac : weightedSum ((macPid mac d).getD · 0) mac.length
      = weightedSum (macByte beyond mac) mac.length := by
    apply weightedSum_congr
    intro i hi
    rw [hpid, macByte, if_pos hi, List.getD_append _ _ _ _ hi]
  have hdigit : (macPid mac d).getD mac.length 0 = BitVec.ofNat 8 d.digitChar.toNat := by
    rw [hpid, List.getD_append_right _ _ _ _ le_rfl, Nat.sub_self]
    rfl
  have hterminator : macByte beyond mac mac.length = 0 := by
    rw [macByte, if_neg (lt_irrefl _), if_pos rfl]
  rw [hlength, weightedSum, weightedSum, hmac, hdigit, hterminator, toInt_digit hd]
  simp

/-- **The hash misses the PID.** For no MAC, no PID and no contents of the memory behind the
    MAC does the loop both read inside the MAC and return the sum over MAC and PID. -/
theorem hash_misses_pid (beyond : Nat → Byte) (mac : List Byte) (pid : Nat) :
    ¬ CoversMacAndPid beyond mac pid := by
  rintro ⟨hinside, hhash⟩
  have hdigit : pid < 10 := (reads_inside_iff beyond mac pid).mp hinside
  rw [hash_eq, weightedSum_digit beyond mac hdigit] at hhash
  have hmod := congrArg BitVec.toInt hhash
  rw [BitVec.toInt_ofInt, BitVec.toInt_ofInt] at hmod
  have hzero := Int.bmod_eq_bmod_iff_bmod_sub_eq_zero.mp hmod
  obtain ⟨k, hk⟩ := Int.dvd_of_bmod_eq_zero hzero
  -- One digit between `'0'` and `'9'`, in the low or in the high byte, is not zero.
  rcases Nat.mod_two_eq_zero_or_one mac.length with hlow | hhigh
  · rw [hlow, pow_zero] at hk
    push_cast at hk
    omega
  · rw [hhigh, pow_one] at hk
    push_cast at hk
    omega

/-- A MAC of six bytes and the PID `1` of a container: the digit `'1'` is not in the hash. -/
theorem container_hash_misses_pid :
    ¬ CoversMacAndPid (fun _ => 0) [0x02, 0x42, 0xac, 0x11, 0x01, 0x02] 1 := by
  rintro ⟨-, hhash⟩
  exact absurd hhash (by decide)

end ThriftBench.UniqueId
