import Mathlib.Data.List.TakeWhile
import ThriftBench.Lib.Numeral

namespace Lib

/-!
# The C++ string operations behind fixed-width hex fields

`std::string` is a list of characters; what the standard library throws is an
`Except` error.  Sizes are 64-bit unsigned, so a subtraction of sizes wraps
(`sizeSub`), and a string asked to be longer than `maxSize` throws.

* `padOrErase` — the idiom `if (s.size() > w) s.erase(0, s.size() - w); else
  s = std::string(w - s.size(), '0') + s;`, which `padOrErase_eq_ok` shows to be
  `fitTo`;
* `stoul16` — `std::stoul(s, nullptr, 16)` with its blanks, sign, `0x` prefix and both
  exceptions, which `stoul16_of_digits` shows to be `numeral 16` on plain digits.
-/

/-- What the string operations used here can throw. -/
inductive StdException where
  | lengthError
  | invalidArgument
  | outOfRange
  deriving DecidableEq, Repr

/-- `std::string::max_size()` on a 64-bit platform. -/
def maxSize : Nat := 2 ^ 63 - 1

/-- Subtraction of two sizes, wrapping like `std::size_t`. -/
def sizeSub (a b : Nat) : Nat := (a + 2 ^ 64 - b) % 2 ^ 64

/-- The constructor `std::string(n, c)`. -/
def stdString (n : Nat) (c : Char) : Except StdException (List Char) :=
  if maxSize < n then .error .lengthError else .ok (List.replicate n c)

/-- `s.erase(0, s.size() - width)` where `s` is longer than `width`, else
    `s = std::string(width - s.size(), '0') + s`. -/
def padOrErase (width : Nat) (s : List Char) : Except StdException (List Char) :=
  if width < s.length then
    .ok (s.drop (sizeSub s.length width))
  else
    (stdString (sizeSub width s.length) '0').map (· ++ s)

/-- On a text whose size is a `std::size_t`, the idiom never throws and brings the text
    to the width. -/
theorem padOrErase_eq_ok {width : Nat} {s : List Char} (hw : width ≤ maxSize)
    (hs : s.length < 2 ^ 64) : padOrErase width s = .ok (fitTo width s) := by
  simp only [maxSize] at hw
  unfold padOrErase fitTo lastDigits
  split
  · next hlong =>
    have hsub : sizeSub s.length width = s.length - width := by unfold sizeSub; omega
    rw [hsub, Nat.sub_eq_zero_of_le hlong.le, List.replicate_zero, List.nil_append]
  · next hshort =>
    have hsub : sizeSub width s.length = width - s.length := by unfold sizeSub; omega
    have hfits : ¬ maxSize < width - s.length := by simp only [maxSize]; omega
    rw [hsub, stdString, if_neg hfits, Nat.sub_eq_zero_of_le (by omega : s.length ≤ width)]
    rfl

/-- The blanks that `strtoul` skips. -/
def isSpace (c : Char) : Bool :=
  c = ' ' || c = '\t' || c = '\n' || c = '\r' || c.toNat = 11 || c.toNat = 12

/-- An optional sign; `true` for a minus. -/
def splitSign : List Char → Bool × List Char
  | '-' :: l => (true, l)
  | '+' :: l => (false, l)
  | l        => (false, l)

/-- An optional `0x`; `true` where there is one. -/
def splitPrefix : List Char → Bool × List Char
  | '0' :: 'x' :: l => (true, l)
  | '0' :: 'X' :: l => (true, l)
  | l               => (false, l)

/-- `std::stoul(s, nullptr, 16)`: the longest run of hex digits after blanks, sign and
    prefix.  A lone prefix reads as its `0`, a negative number is negated modulo
    `2 ^ 64`. -/
def stoul16 (s : List Char) : Except StdException Nat :=
  let (minus, s) := splitSign (s.dropWhile isSpace)
  let (hasPrefix, s) := splitPrefix s
  let digits := s.takeWhile (isDigit 16)
  if digits.isEmpty then
    if hasPrefix then .ok 0 else .error .invalidArgument
  else if 2 ^ 64 ≤ numeral 16 digits then
    .error .outOfRange
  else
    .ok (if minus then sizeSub 0 (numeral 16 digits) else numeral 16 digits)

/-- Every digit comes at or after `'0'` in the character order. -/
theorem zero_le_of_isDigit {b : Nat} {c : Char} (h : isDigit b c = true) : 48 ≤ c.toNat := by
  by_contra hlt
  have hbelow : ∀ x : Char, 48 ≤ x.toNat → ¬ x ≤ c := by
    intro x hx hxc
    have hxc' : x.toNat ≤ c.toNat := UInt32.le_iff_toNat_le.mp (Char.le_def.mp hxc)
    omega
  have hnone : digitValue c = none := by
    simp [digitValue, hbelow '0' (by decide), hbelow 'a' (by decide), hbelow 'A' (by decide)]
  simp [isDigit, hnone] at h

/-- All blanks come before `'0'`. -/
theorem toNat_lt_of_isSpace {c : Char} (h : isSpace c = true) : c.toNat < 48 := by
  simp only [isSpace, Bool.or_eq_true, decide_eq_true_eq] at h
  rcases h with ((((rfl | rfl) | rfl) | rfl) | h) | h
  · decide
  · decide
  · decide
  · decide
  · omega
  · omega

theorem isSpace_eq_false_of_isDigit {b : Nat} {c : Char} (h : isDigit b c = true) :
    isSpace c = false := by
  by_contra hc
  have hlow := toNat_lt_of_isSpace (Bool.not_eq_false _ ▸ hc)
  have hhigh := zero_le_of_isDigit h
  omega

/-- Hex digits carry no sign and no prefix. -/
theorem splitSign_of_digits {l : List Char} (h : ∀ c ∈ l, isDigit 16 c = true) :
    splitSign l = (false, l) := by
  unfold splitSign
  split
  · exact absurd (h '-' (by simp)) (by decide)
  · exact absurd (h '+' (by simp)) (by decide)
  · rfl

theorem splitPrefix_of_digits {l : List Char} (h : ∀ c ∈ l, isDigit 16 c = true) :
    splitPrefix l = (false, l) := by
  unfold splitPrefix
  split
  · exact absurd (h 'x' (by simp)) (by decide)
  · exact absurd (h 'X' (by simp)) (by decide)
  · rfl

/-- **`stoul` on plain digits.** A non-empty text of hex digits that stands for a 64-bit
    number is parsed to that number. -/
theorem stoul16_of_digits {l : List Char} (hne : l ≠ []) (h : ∀ c ∈ l, isDigit 16 c = true)
    (hlt : numeral 16 l < 2 ^ 64) : stoul16 l = .ok (numeral 16 l) := by
  have hblank : l.dropWhile isSpace = l := by
    rcases l with _ | ⟨c, l⟩
    · rfl
    · simp [isSpace_eq_false_of_isDigit (h c (by simp))]
  have htake : l.takeWhile (isDigit 16) = l := List.takeWhile_eq_self_iff.mpr h
  simp only [stoul16, hblank, splitSign_of_digits h, splitPrefix_of_digits h, htake,
    List.isEmpty_eq_false_iff.mpr hne, Nat.not_le.mpr hlt]
  simp

end Lib
