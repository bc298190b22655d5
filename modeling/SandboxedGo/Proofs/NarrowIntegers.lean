import Mathlib.Data.BitVec
import SandboxedGo.Types.NumberWidth

/-!
# Narrow integers

Reducing an integer modulo a width keeps its low bits and depends on nothing else; the result lies
in the range of the type, and an integer of that range stays as it is.  Sums, products, complements,
the operators on bits and shifts to the left agree with reducing: the low bits of what they give
depend on the low bits of their operands only.
-/

set_option autoImplicit false

namespace SandboxedGo

namespace IntWidth

/-! ## Ranges -/

def bits : IntWidth → Nat
  | int8 | uint8 => 8
  | int16 | uint16 => 16
  | int32 | uint32 => 32

def isSigned : IntWidth → Bool
  | int8 | int16 | int32 => true
  | uint8 | uint16 | uint32 => false

def least (w : IntWidth) : Int := if w.isSigned then -2 ^ (w.bits - 1) else 0

def greatest (w : IntWidth) : Int :=
  if w.isSigned then 2 ^ (w.bits - 1) - 1 else 2 ^ w.bits - 1

/-- The integer is in the range of the type. -/
def Fits (w : IntWidth) (n : Int64) : Prop :=
  w.least ≤ n.toInt ∧ n.toInt ≤ w.greatest

instance (w : IntWidth) (n : Int64) : Decidable (w.Fits n) := inferInstanceAs (Decidable (_ ∧ _))

/-- The bits of an integer that a width keeps. -/
def low (w : IntWidth) (n : Int64) : BitVec w.bits := n.toBitVec.setWidth w.bits

/-- Bits read as an integer of the type. -/
def read (w : IntWidth) (x : BitVec w.bits) : BitVec 64 :=
  if w.isSigned then x.signExtend 64 else x.setWidth 64

theorem bits_le (w : IntWidth) : w.bits ≤ 64 := by cases w <;> decide

theorem bits_pos (w : IntWidth) : 1 ≤ w.bits := by cases w <;> decide

theorem bits_lt (w : IntWidth) : w.bits < 64 := by cases w <;> decide

/-! ## Reducing -/

theorem and_ones (x : BitVec 64) {k : Nat} (small : k ≤ 64) :
    x &&& BitVec.ofNat 64 (2 ^ k - 1) = (x.setWidth k).setWidth 64 := by
  apply BitVec.eq_of_toNat_eq
  have ones : 2 ^ k - 1 < 2 ^ 64 := by
    have := Nat.pow_le_pow_right (by decide : 0 < 2) small
    omega
  have least : x.toNat % 2 ^ k < 2 ^ 64 := Nat.lt_of_le_of_lt (Nat.mod_le _ _) x.isLt
  rw [BitVec.toNat_and, BitVec.toNat_ofNat, Nat.mod_eq_of_lt ones, Nat.and_two_pow_sub_one_eq_mod,
    BitVec.toNat_setWidth, BitVec.toNat_setWidth, Nat.mod_eq_of_lt least]

theorem toBitVec_wrap (w : IntWidth) (n : Int64) : (w.wrap n).toBitVec = w.read (w.low n) := by
  have narrowed : ∀ k ≤ 64, n.toBitVec.signExtend k = n.toBitVec.setWidth k :=
    fun k small => BitVec.signExtend_eq_setWidth_of_le _ small
  cases w with
  | int8 =>
      show n.toInt8.toInt64.toBitVec = (n.toBitVec.setWidth 8).signExtend 64
      rw [Int8.toBitVec_toInt64, Int64.toBitVec_toInt8, narrowed 8 (by decide)]
  | int16 =>
      show n.toInt16.toInt64.toBitVec = (n.toBitVec.setWidth 16).signExtend 64
      rw [Int16.toBitVec_toInt64, Int64.toBitVec_toInt16, narrowed 16 (by decide)]
  | int32 =>
      show n.toInt32.toInt64.toBitVec = (n.toBitVec.setWidth 32).signExtend 64
      rw [Int32.toBitVec_toInt64, Int64.toBitVec_toInt32, narrowed 32 (by decide)]
  | uint8 => exact (Int64.toBitVec_and _ _).trans (and_ones _ (by decide : 8 ≤ 64))
  | uint16 => exact (Int64.toBitVec_and _ _).trans (and_ones _ (by decide : 16 ≤ 64))
  | uint32 => exact (Int64.toBitVec_and _ _).trans (and_ones _ (by decide : 32 ≤ 64))

/-- The result depends on the low bits only. -/
theorem wrap_congr {w : IntWidth} {a b : Int64} (same : w.low a = w.low b) :
    w.wrap a = w.wrap b := by
  rw [← Int64.toBitVec_inj, toBitVec_wrap, toBitVec_wrap, same]

theorem setWidth_read (w : IntWidth) (x : BitVec w.bits) : (w.read x).setWidth w.bits = x := by
  have small := w.bits_le
  apply BitVec.eq_of_getLsbD_eq
  intro i inside
  have within : i < 64 := Nat.lt_of_lt_of_le inside small
  unfold read
  split
  · simp only [BitVec.getLsbD_setWidth, BitVec.getLsbD_signExtend, inside, within, decide_true,
      Bool.true_and, if_true]
  · simp only [BitVec.getLsbD_setWidth, inside, within, decide_true, Bool.true_and]

theorem low_wrap (w : IntWidth) (n : Int64) : w.low (w.wrap n) = w.low n := by
  rw [low, toBitVec_wrap, setWidth_read]

theorem fits_wrap (w : IntWidth) (n : Int64) : w.Fits (w.wrap n) := by
  have value : (w.wrap n).toInt = (w.read (w.low n)).toInt := by
    rw [← toBitVec_wrap, Int64.toInt_toBitVec]
  unfold Fits least greatest
  rw [value, read]
  have small := w.bits_lt
  cases signed : w.isSigned with
  | true =>
      simp only [if_true, BitVec.toInt_signExtend_of_le w.bits_le]
      have above := BitVec.toInt_lt (x := w.low n)
      have below := BitVec.le_toInt (x := w.low n)
      omega
  | false =>
      simp only [if_false, Bool.false_eq_true]
      have bounded := (w.low n).isLt
      have wide : 2 ^ w.bits ≤ 2 ^ 63 := Nat.pow_le_pow_right (by decide) (by omega)
      have same : ((w.low n).setWidth 64).toNat = (w.low n).toNat := by
        rw [BitVec.toNat_setWidth, Nat.mod_eq_of_lt (by omega)]
      have positive : ((w.low n).setWidth 64).toInt = (w.low n).toNat := by
        rw [BitVec.toInt_eq_toNat_of_lt (by rw [same]; omega), same]
      have cast : ((2 ^ w.bits : Nat) : Int) = 2 ^ w.bits := by norm_cast
      rw [positive]
      omega

theorem wrap_of_fits {w : IntWidth} {n : Int64} (fits : w.Fits n) : w.wrap n = n := by
  have small := w.bits_le
  have value := Int64.toInt_toBitVec n
  obtain ⟨above, below⟩ := fits
  rw [← Int64.toBitVec_inj, toBitVec_wrap]
  unfold least at above
  unfold greatest at below
  unfold read low
  cases signed : w.isSigned with
  | true =>
      simp only [signed, if_true] at above below ⊢
      apply BitVec.eq_of_toInt_eq
      rw [BitVec.toInt_signExtend_of_le small, ← BitVec.signExtend_eq_setWidth_of_le _ small,
        BitVec.toInt_signExtend, Nat.min_eq_left small, value]
      have double : ((2 ^ w.bits : Nat) : Int) = 2 * 2 ^ (w.bits - 1) := by
        rw [← Nat.sub_add_cancel w.bits_pos]
        simp [pow_succ, mul_comm]
      apply Int.bmod_eq_of_le_mul_two <;> omega
  | false =>
      simp only [signed, Bool.false_eq_true, if_false] at above below ⊢
      apply BitVec.eq_of_toNat_eq
      have cast : ((2 ^ w.bits : Nat) : Int) = 2 ^ w.bits := by norm_cast
      have positive : n.toInt = n.toBitVec.toNat := by
        rw [← value, BitVec.toInt_eq_toNat_of_lt (BitVec.toInt_pos_iff.mp (value ▸ above))]
      have inside : n.toBitVec.toNat < 2 ^ w.bits := by omega
      rw [BitVec.toNat_setWidth, BitVec.toNat_setWidth, Nat.mod_eq_of_lt inside,
        Nat.mod_eq_of_lt n.toBitVec.isLt]

/-! ## Operators that agree with reducing -/

variable {w : IntWidth} {a b c d : Int64}

theorem low_neg (same : w.low a = w.low b) : w.low (-a) = w.low (-b) := by
  unfold low at *
  rw [Int64.toBitVec_neg, Int64.toBitVec_neg, BitVec.setWidth_neg_of_le w.bits_le,
    BitVec.setWidth_neg_of_le w.bits_le, same]

theorem low_not (same : w.low a = w.low b) : w.low (~~~a) = w.low (~~~b) := by
  unfold low at *
  rw [Int64.toBitVec_not, Int64.toBitVec_not, BitVec.setWidth_not w.bits_le,
    BitVec.setWidth_not w.bits_le, same]

theorem low_shiftLeft (same : w.low a = w.low b) (count : Int64) :
    w.low (a <<< count) = w.low (b <<< count) := by
  unfold low at *
  rw [Int64.toBitVec_shiftLeft, Int64.toBitVec_shiftLeft, BitVec.shiftLeft_eq',
    BitVec.shiftLeft_eq', BitVec.setWidth_shiftLeft_of_le w.bits_le,
    BitVec.setWidth_shiftLeft_of_le w.bits_le, same]

theorem low_add (left : w.low a = w.low b) (right : w.low c = w.low d) :
    w.low (a + c) = w.low (b + d) := by
  unfold low at *
  rw [Int64.toBitVec_add, Int64.toBitVec_add, BitVec.setWidth_add _ _ w.bits_le,
    BitVec.setWidth_add _ _ w.bits_le, left, right]

theorem low_sub (left : w.low a = w.low b) (right : w.low c = w.low d) :
    w.low (a - c) = w.low (b - d) := by
  rw [Int64.sub_eq_add_neg, Int64.sub_eq_add_neg]
  exact low_add left (low_neg right)

theorem low_mul (left : w.low a = w.low b) (right : w.low c = w.low d) :
    w.low (a * c) = w.low (b * d) := by
  unfold low at *
  rw [Int64.toBitVec_mul, Int64.toBitVec_mul, BitVec.setWidth_mul _ _ w.bits_le,
    BitVec.setWidth_mul _ _ w.bits_le, left, right]

theorem low_and (left : w.low a = w.low b) (right : w.low c = w.low d) :
    w.low (a &&& c) = w.low (b &&& d) := by
  unfold low at *
  rw [Int64.toBitVec_and, Int64.toBitVec_and, BitVec.setWidth_and, BitVec.setWidth_and, left, right]

theorem low_or (left : w.low a = w.low b) (right : w.low c = w.low d) :
    w.low (a ||| c) = w.low (b ||| d) := by
  unfold low at *
  rw [Int64.toBitVec_or, Int64.toBitVec_or, BitVec.setWidth_or, BitVec.setWidth_or, left, right]

theorem low_xor (left : w.low a = w.low b) (right : w.low c = w.low d) :
    w.low (a ^^^ c) = w.low (b ^^^ d) := by
  unfold low at *
  rw [Int64.toBitVec_xor, Int64.toBitVec_xor, BitVec.setWidth_xor, BitVec.setWidth_xor, left, right]

end IntWidth

end SandboxedGo
