import Mathlib.Data.List.Induction
import Mathlib.Data.Nat.Digits.Defs
import Mathlib.Tactic.Ring

namespace Lib

/-!
# Numerals in a base up to sixteen

Text is a list of characters.  `Nat.toDigits b n` writes a number, `numeral b l` reads
one back; the two are related by the laws a fixed-width field needs:

* `numeral_append` / `numeral_lt` — a text is positional: a suffix of `k` digits
  contributes less than `b ^ k`;
* `numeral_toDigits` — writing then reading is the identity;
* `numeral_lastDigits` — keeping the last `k` digits is the remainder modulo `b ^ k`;
* `decimal` — a signed number, as `%ld` writes it, and `readDecimal`, which reads one
  (`readDecimal_decimal`);
* `toDigits_injective` — two texts of one length over the same digits that read the same
  are the same.
-/

/-- The value of a digit, letters of either case standing for ten and up. -/
def digitValue (c : Char) : Option Nat :=
  if '0' ≤ c ∧ c ≤ '9' then some (c.toNat - '0'.toNat)
  else if 'a' ≤ c ∧ c ≤ 'z' then some (c.toNat - 'a'.toNat + 10)
  else if 'A' ≤ c ∧ c ≤ 'Z' then some (c.toNat - 'A'.toNat + 10)
  else none

/-- Is `c` a digit in base `b`? -/
def isDigit (b : Nat) (c : Char) : Bool :=
  match digitValue c with
  | some d => decide (d < b)
  | none   => false

/-- The number that a text of digits stands for in base `b`, the first digit being the
    most significant one. -/
def numeral (b : Nat) (l : List Char) : Nat :=
  l.foldl (fun acc c => b * acc + (digitValue c).getD 0) 0

/-- The digits that `Nat.toDigits` writes are read back as their values. -/
theorem digitValue_digitChar {d : Nat} (h : d < 16) : digitValue d.digitChar = some d := by
  have hall : ∀ d : Fin 16, digitValue d.val.digitChar = some d.val := by decide
  exact hall ⟨d, h⟩

theorem isDigit_digitChar {b d : Nat} (hb : b ≤ 16) (h : d < b) : isDigit b d.digitChar = true := by
  simp [isDigit, digitValue_digitChar (Nat.lt_of_lt_of_le h hb), h]

theorem digitValue_lt {b : Nat} {c : Char} (h : isDigit b c = true) :
    (digitValue c).getD 0 < b := by
  unfold isDigit at h
  cases hc : digitValue c with
  | none   => simp [hc] at h
  | some d => simpa [hc] using h

/-- A positional text: appending shifts the front by the length of the back. -/
theorem numeral_append (b : Nat) (l m : List Char) :
    numeral b (l ++ m) = numeral b l * b ^ m.length + numeral b m := by
  induction m using List.reverseRecOn with
  | nil => simp [numeral]
  | append_singleton m c ih =>
    have hsnoc : ∀ l : List Char,
        numeral b (l ++ [c]) = b * numeral b l + (digitValue c).getD 0 := by
      intro l; simp [numeral]
    rw [← List.append_assoc, hsnoc, hsnoc, ih, List.length_append, List.length_singleton, pow_succ]
    ring

@[simp] theorem numeral_nil (b : Nat) : numeral b [] = 0 := rfl

theorem numeral_singleton (b : Nat) (c : Char) : numeral b [c] = (digitValue c).getD 0 := by
  simp [numeral]

/-- A text of `k` digits stands for a number below `b ^ k`. -/
theorem numeral_lt {b : Nat} {l : List Char} (h : ∀ c ∈ l, isDigit b c = true) :
    numeral b l < b ^ l.length := by
  induction l using List.reverseRecOn with
  | nil => simp
  | append_singleton l c ih =>
    have hl := ih (fun x hx => h x (by simp [hx]))
    have hc := digitValue_lt (h c (by simp))
    rw [numeral_append, numeral_singleton, List.length_append, List.length_singleton, pow_one,
      pow_succ]
    calc numeral b l * b + (digitValue c).getD 0
        < numeral b l * b + b := by omega
      _ = (numeral b l + 1) * b := by ring
      _ ≤ b ^ l.length * b := Nat.mul_le_mul_right b hl

/-- Leading zeros do not change the number. -/
theorem numeral_zeros_append (b k : Nat) (l : List Char) :
    numeral b (List.replicate k '0' ++ l) = numeral b l := by
  have hz : numeral b (List.replicate k '0') = 0 := by
    induction k with
    | zero => rfl
    | succ k ih =>
      rw [List.replicate_succ', numeral_append, ih, numeral_singleton]
      simp [digitValue]
  rw [numeral_append, hz, Nat.zero_mul, Nat.zero_add]

/-- Everything `Nat.toDigits` writes is the character of a digit below the base. -/
theorem exists_digit_of_mem_toDigits {b n : Nat} (hb : 1 < b) :
    ∀ c ∈ Nat.toDigits b n, ∃ d < b, c = d.digitChar := by
  induction n using Nat.strong_induction_on with
  | _ n ih =>
    intro c hc
    rw [Nat.toDigits_eq_if hb] at hc
    split at hc
    · next hn => exact ⟨n, hn, List.mem_singleton.mp hc⟩
    · next hn =>
      rcases List.mem_append.mp hc with hc | hc
      · exact ih (n / b) (Nat.div_lt_self (by omega) hb) c hc
      · exact ⟨n % b, Nat.mod_lt n (by omega), List.mem_singleton.mp hc⟩

theorem isDigit_of_mem_toDigits {b n : Nat} (hb : 1 < b) (hb' : b ≤ 16) :
    ∀ c ∈ Nat.toDigits b n, isDigit b c = true := by
  intro c hc
  obtain ⟨d, hd, rfl⟩ := exists_digit_of_mem_toDigits hb c hc
  exact isDigit_digitChar hb' hd

/-- **Round trip.** The text that `Nat.toDigits` writes is read back as the number. -/
theorem numeral_toDigits {b : Nat} (hb : 1 < b) (hb' : b ≤ 16) (n : Nat) :
    numeral b (Nat.toDigits b n) = n := by
  induction n using Nat.strong_induction_on with
  | _ n ih =>
    rw [Nat.toDigits_eq_if hb]
    split
    · next hn =>
      rw [numeral_singleton, digitValue_digitChar (Nat.lt_of_lt_of_le hn hb')]
      rfl
    · next hn =>
      have hmod : n % b < 16 := Nat.lt_of_lt_of_le (Nat.mod_lt n (by omega)) hb'
      rw [numeral_append, ih (n / b) (Nat.div_lt_self (by omega) hb), numeral_singleton,
        digitValue_digitChar hmod, List.length_singleton, pow_one, Option.getD_some]
      exact Nat.div_add_mod' n b

/-- Writing numbers is injective. -/
theorem toDigits_injective {b : Nat} (hb : 1 < b) (hb' : b ≤ 16) :
    Function.Injective (Nat.toDigits b) := by
  intro m n h
  rw [← numeral_toDigits hb hb' m, h, numeral_toDigits hb hb' n]

/-! ### Signed numbers -/

/-- A number in base ten, with its sign if it is negative. -/
def decimal : Int → List Char
  | .ofNat n   => Nat.toDigits 10 n
  | .negSucc n => '-' :: Nat.toDigits 10 (n + 1)

theorem length_decimal_le {x : Int} {k : Nat} (hk : 0 < k) (h : x.natAbs < 10 ^ k) :
    (decimal x).length ≤ k + 1 := by
  have hdigits : ∀ n, n < 10 ^ k → (Nat.toDigits 10 n).length ≤ k := fun n hn =>
    (Nat.length_toDigits_le_iff (by decide) hk).mpr hn
  cases x with
  | ofNat n => exact Nat.le_succ_of_le (hdigits n h)
  | negSucc n => exact Nat.succ_le_succ (hdigits (n + 1) h)

/-- A number read from a text that has a digit and nothing but digits. -/
def readDigits (b : Nat) (l : List Char) : Option Nat :=
  if l ≠ [] ∧ l.all (isDigit b) = true then some (numeral b l) else none

/-- A number read from a text in base ten, with a minus sign in front or without. -/
def readDecimal : List Char → Option Int
  | []     => none
  | c :: l =>
    if c = '-' then (readDigits 10 l).map fun n => -(n : Int)
    else (readDigits 10 (c :: l)).map fun n => (n : Int)

theorem readDigits_toDigits {b : Nat} (hb : 1 < b) (hb' : b ≤ 16) (n : Nat) :
    readDigits b (Nat.toDigits b n) = some n := by
  unfold readDigits
  have hall : (Nat.toDigits b n).all (isDigit b) = true :=
    List.all_eq_true.mpr (isDigit_of_mem_toDigits hb hb')
  rw [if_pos ⟨Nat.toDigits_ne_nil, hall⟩, numeral_toDigits hb hb']

/-- **Round trip.** The text that `decimal` writes is read back as the number. -/
theorem readDecimal_decimal (x : Int) : readDecimal (decimal x) = some x := by
  have hdigits : ∀ n, readDigits 10 (Nat.toDigits 10 n) = some n :=
    readDigits_toDigits (by decide) (by decide)
  cases x with
  | ofNat n =>
    show readDecimal (Nat.toDigits 10 n) = _
    cases htext : Nat.toDigits 10 n with
    | nil => exact absurd htext Nat.toDigits_ne_nil
    | cons c l =>
      -- The first character is a digit, so it is not taken for a sign.
      have hc : isDigit 10 c = true :=
        isDigit_of_mem_toDigits (by decide) (by decide) c (htext ▸ List.mem_cons_self)
      have hsign : c ≠ '-' := by
        rintro rfl
        exact absurd hc (by decide)
      rw [readDecimal, if_neg hsign, ← htext, hdigits]
      rfl
  | negSucc n =>
    rw [decimal, readDecimal, if_pos rfl, hdigits]
    rfl

/-- A signed number is written with digits and the minus sign. -/
theorem mem_decimal {x : Int} {c : Char} (hc : c ∈ decimal x) :
    c = '-' ∨ ∃ d < 10, c = d.digitChar := by
  cases x with
  | ofNat n => exact Or.inr (exists_digit_of_mem_toDigits (by decide) c hc)
  | negSucc n =>
    rcases List.mem_cons.mp hc with hc | hc
    · exact Or.inl hc
    · exact Or.inr (exists_digit_of_mem_toDigits (by decide) c hc)

/-! ### Fields of a fixed width -/

/-- The last `k` characters of a text. -/
def lastDigits (k : Nat) (l : List Char) : List Char := l.drop (l.length - k)

/-- A text brought to width `k`: zeros in front where it is short, its front cut off
    where it is long. -/
def fitTo (k : Nat) (l : List Char) : List Char :=
  List.replicate (k - l.length) '0' ++ lastDigits k l

@[simp] theorem length_fitTo (k : Nat) (l : List Char) : (fitTo k l).length = k := by
  simp only [fitTo, lastDigits, List.length_append, List.length_replicate, List.length_drop]
  omega

theorem isDigit_of_mem_fitTo {b k : Nat} (hb : 0 < b) {l : List Char}
    (h : ∀ c ∈ l, isDigit b c = true) : ∀ c ∈ fitTo k l, isDigit b c = true := by
  intro c hc
  rcases List.mem_append.mp hc with hc | hc
  · rw [(List.mem_replicate.mp hc).2]
    simpa [isDigit, digitValue] using hb
  · exact h c (List.mem_of_mem_drop hc)

/-- Keeping the last `k` digits takes the remainder modulo `b ^ k`. -/
theorem numeral_lastDigits {b k : Nat} {l : List Char} (h : ∀ c ∈ l, isDigit b c = true) :
    numeral b (lastDigits k l) = numeral b l % b ^ k := by
  by_cases hk : l.length ≤ k
  · have hlt : numeral b l < b ^ l.length := numeral_lt h
    have hb : 0 < b ∨ l = [] := by
      rcases l with _ | ⟨c, l⟩
      · exact Or.inr rfl
      · exact Or.inl (Nat.lt_of_le_of_lt (Nat.zero_le _) (digitValue_lt (h c (by simp))))
    rw [lastDigits, Nat.sub_eq_zero_of_le hk, List.drop_zero]
    rcases hb with hb | rfl
    · rw [Nat.mod_eq_of_lt (Nat.lt_of_lt_of_le hlt (Nat.pow_le_pow_right hb hk))]
    · simp
  · -- Cut the text into its front and its last `k` digits.
    have hlen : (lastDigits k l).length = k := by
      rw [lastDigits, List.length_drop]; omega
    have hcut := numeral_append b (l.take (l.length - k)) (lastDigits k l)
    rw [lastDigits, List.take_append_drop, ← lastDigits, hlen] at hcut
    have hlt : numeral b (lastDigits k l) < b ^ k := by
      have := numeral_lt (l := lastDigits k l) (fun c hc => h c (List.mem_of_mem_drop hc))
      rwa [hlen] at this
    rw [hcut, Nat.mul_add_mod_self_right, Nat.mod_eq_of_lt hlt]

/-- A fixed-width field of a text holds its number modulo `b ^ k`. -/
theorem numeral_fitTo {b k : Nat} {l : List Char} (h : ∀ c ∈ l, isDigit b c = true) :
    numeral b (fitTo k l) = numeral b l % b ^ k := by
  rw [fitTo, numeral_zeros_append, numeral_lastDigits h]

end Lib
