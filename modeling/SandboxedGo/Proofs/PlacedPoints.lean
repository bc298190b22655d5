import Mathlib.Algebra.Order.Field.Rat
import Mathlib.Data.List.Basic
import Mathlib.Tactic.FieldSimp
import Mathlib.Tactic.Ring
import SandboxedGo.Format.FloatText
import SandboxedGo.Proofs.IntegerTexts

/-!
# Numbers with their points in place

A number with an exponent is written positionally by moving the point: zeros come before the digits,
or behind them, or the point comes between them.  A decimal numeral has an exact rational value, and
moving the point multiplies it by the power of ten, whatever the digits are and however many.  The
number of zeros is counted in machine words; the count is exact for every exponent but the least.
Main statement: `placePoint_keeps_value`.
-/

set_option autoImplicit false

namespace SandboxedGo.Decimal

open Text (Numeral numeral_decimal)

/-! ## Decimal numerals -/

/-- A decimal numeral and its value: one digit or more, behind which a point and one digit or more
may follow. -/
inductive DecimalNumeral : List Char → ℚ → Prop
  | whole {digits : List Char} {n : Nat} (numeral : Numeral 10 digits n) : DecimalNumeral digits n
  | pointed {digits fraction : List Char} {n m : Nat} (numeral : Numeral 10 digits n)
      (behind : Numeral 10 fraction m) :
      DecimalNumeral (digits ++ '.' :: fraction) (n + m / 10 ^ fraction.length)

theorem point_notMem {digits : List Char} {n : Nat} (numeral : Numeral 10 digits n) :
    '.' ∉ digits :=
  fun isIn => numeral.digit isIn (by decide)

theorem DecimalNumeral.unique {chars : List Char} {v w : ℚ} (numeral : DecimalNumeral chars v)
    (again : DecimalNumeral chars w) : v = w := by
  generalize text : chars = chars' at again
  cases numeral with
  | whole numeral =>
      cases again with
      | whole again => rw [numeral.unique (text ▸ again)]
      | pointed again behind =>
          exact absurd (text ▸ List.mem_append_right _ List.mem_cons_self) (point_notMem numeral)
  | pointed numeral behind =>
      cases again with
      | whole again =>
          exact absurd (text ▸ List.mem_append_right _ List.mem_cons_self) (point_notMem again)
      | pointed again behind' =>
          obtain ⟨rfl, -, rfl⟩ := (List.append_cons_inj_of_notMem (point_notMem numeral)
            (point_notMem behind)).mp text
          rw [numeral.unique again, behind.unique behind']

/-! ## Values of digits -/

theorem naturalOf_append (digits more : List Char) :
    naturalOf (digits ++ more) = naturalOf digits * 10 ^ more.length + naturalOf more := by
  have behind (n : Nat) : more.foldl (fun n c => 10 * n + (c.toNat - '0'.toNat)) n =
      n * 10 ^ more.length + naturalOf more := by
    induction more generalizing n with
    | nil => simp [naturalOf]
    | cons c more ih =>
        rw [naturalOf, List.foldl_cons, List.foldl_cons, ih, ih, List.length_cons, Nat.pow_succ]
        ring
  rw [naturalOf, List.foldl_append, behind]
  rfl

theorem naturalOf_zeros (n : Nat) : naturalOf (List.replicate n '0') = 0 := by
  induction n with
  | zero => rfl
  | succ n ih => rw [List.replicate_succ', naturalOf_append, ih, Nat.zero_mul]; rfl

theorem isDigit_zeros {n : Nat} {c : Char} (isIn : c ∈ List.replicate n '0') :
    c.isDigit = true := by
  rw [List.eq_of_mem_replicate isIn]
  rfl

section

variable {digits fraction : List Char}

theorem decimalNumeral_whole (some_ : digits ≠ []) (each : ∀ c ∈ digits, c.isDigit = true) :
    DecimalNumeral digits (naturalOf digits) :=
  .whole (numeral_decimal some_ each)

/-- With a point among its digits a numeral has the value of the digits, divided by ten for each of
those behind the point. -/
theorem decimalNumeral_pointed (some_ : digits ≠ []) (some_' : fraction ≠ [])
    (each : ∀ c ∈ digits ++ fraction, c.isDigit = true) :
    DecimalNumeral (digits ++ '.' :: fraction)
      (naturalOf (digits ++ fraction) / 10 ^ fraction.length) := by
  have numeral := numeral_decimal some_ fun c isIn => each c (List.mem_append_left _ isIn)
  have behind := numeral_decimal some_' fun c isIn => each c (List.mem_append_right _ isIn)
  have value : (naturalOf (digits ++ fraction) / 10 ^ fraction.length : ℚ) =
      naturalOf digits + naturalOf fraction / 10 ^ fraction.length := by
    rw [naturalOf_append]
    push_cast
    field_simp
  rw [value]
  exact .pointed numeral behind

theorem decimalNumeral_mantissaText (some_ : digits ≠ [])
    (each : ∀ c ∈ digits, c.isDigit = true) :
    DecimalNumeral (Format.mantissaText digits) (naturalOf digits / 10 ^ (digits.length - 1)) := by
  match digits with
  | [d] => simpa [Format.mantissaText] using decimalNumeral_whole some_ each
  | d :: d' :: rest =>
      exact decimalNumeral_pointed (List.cons_ne_nil d []) (List.cons_ne_nil d' rest) each

/-! ## Placing the point -/

theorem placePoint_leadingZeros (some_ : digits ≠ []) (each : ∀ c ∈ digits, c.isDigit = true)
    {zeros : Nat} :
    DecimalNumeral (placePoint ⟨digits, -(zeros + 1 : Nat)⟩)
      (naturalOf digits / 10 ^ (zeros + digits.length)) := by
  have text : placePoint ⟨digits, -(zeros + 1 : Nat)⟩ =
      ['0'] ++ '.' :: (List.replicate zeros '0' ++ digits) := by
    rw [placePoint, if_pos (by simp; omega), Int.natAbs_neg, Int.natAbs_natCast]
    rfl
  have value : naturalOf (['0'] ++ (List.replicate zeros '0' ++ digits)) = naturalOf digits := by
    rw [naturalOf_append, naturalOf_append, naturalOf_zeros]
    simp [naturalOf]
  have each' : ∀ c ∈ ['0'] ++ (List.replicate zeros '0' ++ digits), c.isDigit = true := by
    intro c isIn
    rcases List.mem_append.mp isIn with isIn | isIn
    · rw [List.mem_singleton.mp isIn]
      rfl
    rcases List.mem_append.mp isIn with isIn | isIn
    · exact isDigit_zeros isIn
    · exact each c isIn
  have numeral := decimalNumeral_pointed (by simp) (by simp [some_]) each'
  rw [value, List.length_append, List.length_replicate] at numeral
  rw [text]
  exact numeral

theorem placePoint_trailingZeros (some_ : digits ≠ []) (each : ∀ c ∈ digits, c.isDigit = true)
    {exponent : Nat} (few : digits.length ≤ exponent + 1) :
    DecimalNumeral (placePoint ⟨digits, exponent⟩)
      (naturalOf digits * 10 ^ (exponent + 1 - digits.length)) := by
  have text : placePoint ⟨digits, exponent⟩ =
      digits ++ List.replicate (exponent + 1 - digits.length) '0' := by
    rw [placePoint, if_neg (by simp)]
    exact if_pos few
  have each' : ∀ c ∈ digits ++ List.replicate (exponent + 1 - digits.length) '0',
      c.isDigit = true := by
    intro c isIn
    rcases List.mem_append.mp isIn with isIn | isIn
    · exact each c isIn
    · exact isDigit_zeros isIn
  have numeral := decimalNumeral_whole (by simp [some_]) each'
  rw [naturalOf_append, naturalOf_zeros, Nat.add_zero, List.length_replicate] at numeral
  rw [text]
  exact_mod_cast numeral

theorem placePoint_between (each : ∀ c ∈ digits, c.isDigit = true) {exponent : Nat}
    (many : exponent + 1 < digits.length) :
    DecimalNumeral (placePoint ⟨digits, exponent⟩)
      (naturalOf digits / 10 ^ (digits.length - (exponent + 1))) := by
  have text : placePoint ⟨digits, exponent⟩ =
      digits.take (exponent + 1) ++ '.' :: digits.drop (exponent + 1) := by
    rw [placePoint, if_neg (by simp)]
    exact if_neg (by simpa using many)
  have before : digits.take (exponent + 1) ≠ [] :=
    List.ne_nil_of_length_pos (by rw [List.length_take]; omega)
  have behind : digits.drop (exponent + 1) ≠ [] :=
    List.ne_nil_of_length_pos (by rw [List.length_drop]; omega)
  have numeral := decimalNumeral_pointed before behind (by rwa [List.take_append_drop])
  rw [List.take_append_drop, List.length_drop] at numeral
  rw [text]
  exact numeral

/-- Placing the point multiplies the digits, with a point behind the first, by the power of ten. -/
theorem decimalNumeral_placePoint (some_ : digits ≠ []) (each : ∀ c ∈ digits, c.isDigit = true)
    (exponent : Int) :
    DecimalNumeral (placePoint ⟨digits, exponent⟩)
      (naturalOf digits / 10 ^ (digits.length - 1) * 10 ^ exponent) := by
  have positive := List.length_pos_of_ne_nil some_
  rcases lt_or_ge exponent 0 with negative | positive'
  · obtain ⟨zeros, rfl⟩ : ∃ zeros : Nat, exponent = -(zeros + 1 : Nat) :=
      ⟨exponent.natAbs - 1, by omega⟩
    convert placePoint_leadingZeros some_ each using 1
    rw [zpow_neg, zpow_natCast, ← div_eq_mul_inv, div_div, ← pow_add]
    congr 2
    omega
  · obtain ⟨exponent, rfl⟩ := Int.eq_ofNat_of_zero_le positive'
    rw [zpow_natCast]
    rcases Nat.lt_or_ge (exponent + 1) digits.length with many | few
    · convert placePoint_between each many using 1
      have split : digits.length - 1 = digits.length - (exponent + 1) + exponent := by omega
      rw [split, pow_add]
      field_simp
    · convert placePoint_trailingZeros some_ each few using 1
      have split : exponent = exponent + 1 - digits.length + (digits.length - 1) := by omega
      nth_rewrite 1 [split]
      rw [pow_add]
      field_simp

end

/-! ## Machine words -/

/-- A word of thirty-two bits that is not negative, taken for a length. -/
theorem toNat_length {word : Int32} (nonneg : 0 ≤ word.toInt) :
    word.toInt64.toUInt64.toNat = word.toInt.toNat := by
  have wide : 0 ≤ word.toInt64 := by
    rw [Int64.le_iff_toInt_le, Int32.toInt_toInt64]
    exact nonneg
  rw [Int64.toNat_toUInt64_of_le wide]
  exact congrArg Int.toNat (Int32.toInt_toInt64 word)

/-- The negative of an exponent is a word, unless the exponent is the least one. -/
theorem toInt_zeros {exponent : Int32} (inRange : Int32.minValue < exponent)
    (negative : exponent < 0) : (-exponent - 1).toInt = -exponent.toInt - 1 := by
  rw [Int32.lt_iff_toInt_lt] at inRange negative
  have least : Int32.minValue.toInt = -2 ^ 31 := Int32.toInt_minValue
  have zero : (0 : Int32).toInt = 0 := rfl
  have one : (1 : Int32).toInt = 1 := rfl
  rw [least] at inRange
  rw [zero] at negative
  rw [Int32.toInt_sub, Int32.toInt_neg, one, Int.bmod_eq_of_le (n := -exponent.toInt) (by omega)
    (by omega), Int.bmod_eq_of_le (by omega) (by omega)]

/-- Nothing overflows in the words, for every exponent but the least. -/
theorem placePointInWords_eq (digits : List Char) {exponent : Int32}
    (inRange : Int32.minValue < exponent) :
    placePointInWords digits exponent = placePoint ⟨digits, exponent.toInt⟩ := by
  have zero : (0 : Int32).toInt = 0 := rfl
  unfold placePointInWords placePoint
  dsimp only
  by_cases negative : exponent < 0
  · have below : exponent.toInt < 0 := by rwa [Int32.lt_iff_toInt_lt, zero] at negative
    have zeros := toInt_zeros inRange negative
    have count : (-exponent - 1).toInt64.toUInt64.toNat = exponent.toInt.natAbs - 1 := by
      rw [toNat_length (by omega)]
      omega
    rw [if_pos negative, if_pos below, count]
  · have nonneg : ¬exponent.toInt < 0 := by rwa [Int32.lt_iff_toInt_lt, zero] at negative
    have count : (exponent.toInt64.toUInt64 + 1).toNat = exponent.toInt.toNat + 1 := by
      have bounded := exponent.toInt_lt
      rw [UInt64.toNat_add, toNat_length (by omega), UInt64.toNat_one]
      omega
    rw [if_neg negative, if_neg nonneg, count]

/-- With its point placed, a number is a decimal numeral.  Its value is that of its digits, with a
point behind the first one, times the power of ten; and the lengths that this takes are exact in
machine words. -/
theorem placePoint_keeps_value {digits : List Char} {exponent : Int32} (some_ : digits ≠ [])
    (each : ∀ c ∈ digits, c.isDigit = true) (inRange : Int32.minValue < exponent) :
    placePointInWords digits exponent = placePoint ⟨digits, exponent.toInt⟩ ∧
      ∃ mantissa : ℚ, DecimalNumeral (Format.mantissaText digits) mantissa ∧
        ∀ v : ℚ, DecimalNumeral (placePoint ⟨digits, exponent.toInt⟩) v ↔
          v = mantissa * 10 ^ exponent.toInt := by
  have numeral := decimalNumeral_placePoint some_ each exponent.toInt
  refine ⟨placePointInWords_eq digits inRange, _, decimalNumeral_mantissaText some_ each,
    fun v => ⟨fun again => again.unique numeral, ?_⟩⟩
  rintro rfl
  exact numeral

/-- Zeros before the digits: `1.25 * 10 ^ -3`. -/
theorem placePoint_keeps_value_small :
    ['1', '2', '5'] ≠ [] ∧ (∀ c ∈ ['1', '2', '5'], c.isDigit = true) ∧ Int32.minValue < -3 ∧
      placePointInWords ['1', '2', '5'] (-3) = ['0', '.', '0', '0', '1', '2', '5'] ∧
      ∃ mantissa : ℚ, DecimalNumeral ['1', '.', '2', '5'] mantissa ∧
        ∀ v : ℚ, DecimalNumeral ['0', '.', '0', '0', '1', '2', '5'] v ↔
          v = mantissa * 10 ^ (-3 : Int) := by
  have some_ : ['1', '2', '5'] ≠ [] := by decide
  have each : ∀ c ∈ ['1', '2', '5'], c.isDigit = true := List.all_eq_true.mp rfl
  have inRange : Int32.minValue < -3 := by decide
  exact ⟨some_, each, inRange, by decide, (placePoint_keeps_value some_ each inRange).2⟩

end SandboxedGo.Decimal
