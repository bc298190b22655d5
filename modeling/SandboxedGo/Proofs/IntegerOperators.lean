import Mathlib.Algebra.Order.Ring.Int
import Mathlib.Data.Int.ModEq
import SandboxedGo.Proofs.Following

/-!
# Operators between integers

Integers are 64 bits wide.  Every operator between them gives what it gives for integers without
bounds, reduced modulo `2 ^ 64`; a division by zero and a shift by a negative count panic, and
nothing else does.  Main statement: `integers_twos_complement`.
-/

set_option autoImplicit false

namespace SandboxedGo

open Source Operators

/-- Operators that give an integer for two integers. -/
def Source.BinaryOp.isArithmetic : BinaryOp → Bool
  | .add | .sub | .mul | .div | .rem | .and | .or | .xor | .andNot | .shl | .shr => true
  | _ => false

/-- The panics of operators between integers. -/
inductive OperatorPanics (b : Int64) : BinaryOp → Panic → Prop
  | div (zero : b = 0) : OperatorPanics b .div .divisionByZero
  | rem (zero : b = 0) : OperatorPanics b .rem .divisionByZero
  | shl (negative : b < 0) : OperatorPanics b .shl .negativeShift
  | shr (negative : b < 0) : OperatorPanics b .shr .negativeShift

variable {a b : Int64}

/-! ## Division -/

/-- A quotient is the one without bounds, cut off towards zero.  There is one that 64 bits cannot
hold. -/
theorem toInt_quotient (a b : Int64) :
    (a / b).toInt = a.toInt.tdiv b.toInt ∨
      a = Int64.minValue ∧ b = -1 ∧ a / b = Int64.minValue := by
  by_cases least : a = Int64.minValue
  · by_cases minusOne : b = -1
    · subst least minusOne
      exact .inr ⟨rfl, rfl, by decide⟩
    · exact .inl (Int64.toInt_div_of_ne_right a b minusOne)
  · exact .inl (Int64.toInt_div_of_ne_left a b least)

theorem quotient_modEq (a b : Int64) :
    (a / b).toInt ≡ a.toInt.tdiv b.toInt [ZMOD 2 ^ 64] := by
  rw [Int64.toInt_div]
  exact Int.bmod_emod

theorem quotient_remainder (a b : Int64) :
    (a / b).toInt * b.toInt + (a % b).toInt ≡ a.toInt [ZMOD 2 ^ 64] :=
  calc (a / b).toInt * b.toInt + (a % b).toInt
      ≡ a.toInt.tdiv b.toInt * b.toInt + (a % b).toInt [ZMOD 2 ^ 64] :=
        ((quotient_modEq a b).mul_right _).add_right _
    _ = a.toInt := by rw [Int64.toInt_mod, Int.tdiv_mul_add_tmod]

theorem sign_remainder (a b : Int64) : (a % b).toInt = 0 ∨ (a % b).toInt.sign = a.toInt.sign := by
  rw [Int64.toInt_mod, Int.sign_tmod]
  by_cases divides : b.toInt ∣ a.toInt
  · exact .inl (Int.tmod_eq_zero_of_dvd divides)
  · exact .inr (if_neg divides)

theorem natAbs_remainder (nonzero : b ≠ 0) (a : Int64) :
    (a % b).toInt.natAbs < b.toInt.natAbs := by
  have divisor : b.toInt ≠ 0 := fun zero => nonzero (Int64.toInt_inj.mp zero)
  rw [Int64.toInt_mod, Int.natAbs_tmod]
  exact Nat.mod_lt _ (Int.natAbs_pos.mpr divisor)

/-! ## Shifts -/

theorem toNat_of_not_negative (notNegative : ¬ b < 0) : b.toBitVec.toNat = b.toInt.toNat := by
  have positive : 0 ≤ b.toInt := by
    rw [Int64.lt_iff_toInt_lt] at notNegative
    simpa using notNegative
  rw [← Int64.toInt_toBitVec] at positive ⊢
  rw [BitVec.toInt_eq_toNat_of_lt (BitVec.toInt_pos_iff.mp positive)]
  rfl

theorem wide_of_le (large : 64 ≤ b) : 64 ≤ b.toInt.toNat := by
  rw [Int64.le_iff_toInt_le] at large
  have width : (64 : Int64).toInt = 64 := rfl
  omega

theorem count_of_lt (notNegative : ¬ b < 0) (small : ¬ 64 ≤ b) :
    (b.toBitVec.smod 64).toNat = b.toInt.toNat := by
  have below : b.toInt.toNat < 64 := by
    rw [Int64.le_iff_toInt_le] at small
    have width : (64 : Int64).toInt = 64 := rfl
    omega
  have count := toNat_of_not_negative notNegative
  have upper : b.toBitVec.msb = false := by
    rw [BitVec.msb_eq_false_iff_two_mul_lt]
    omega
  have unsigned : b.toBitVec.smod 64 = b.toBitVec.umod 64 := by
    rw [BitVec.smod, upper]
    rfl
  rw [unsigned, BitVec.umod_eq, BitVec.toNat_umod, count]
  exact Nat.mod_eq_of_lt below

theorem shiftedLeft (notNegative : ¬ b < 0) (a : Int64) :
    (if 64 ≤ b then 0 else a <<< b).toInt ≡ a.toInt * 2 ^ b.toInt.toNat [ZMOD 2 ^ 64] := by
  by_cases large : 64 ≤ b
  · rw [if_pos large]
    have divides : (2 : Int) ^ 64 ∣ a.toInt * 2 ^ b.toInt.toNat :=
      Dvd.dvd.mul_left (pow_dvd_pow 2 (wide_of_le large)) _
    exact (Int.modEq_zero_iff_dvd.mpr divides).symm
  · rw [if_neg large]
    have bits : (a <<< b).toInt = (a.toBitVec <<< b.toInt.toNat).toInt := by
      rw [← Int64.toInt_toBitVec, Int64.toBitVec_shiftLeft, BitVec.shiftLeft_eq',
        count_of_lt notNegative large]
    have unsigned : (a.toBitVec.toNat : Int) ≡ a.toInt [ZMOD 2 ^ 64] := by
      rw [← Int64.toInt_toBitVec, BitVec.toInt_eq_toNat_bmod]
      exact Int.bmod_emod.symm
    calc (a <<< b).toInt
        = ((a.toBitVec.toNat <<< b.toInt.toNat : Nat) : Int).bmod (2 ^ 64) := by
          rw [bits, BitVec.toInt_shiftLeft]
      _ ≡ (a.toBitVec.toNat <<< b.toInt.toNat : Nat) [ZMOD 2 ^ 64] := by
          exact Int.bmod_emod (m := 2 ^ 64)
      _ = a.toBitVec.toNat * 2 ^ b.toInt.toNat := by
          rw [Nat.shiftLeft_eq]
          norm_cast
      _ ≡ a.toInt * 2 ^ b.toInt.toNat [ZMOD 2 ^ 64] := unsigned.mul_right _

/-- Division by a power of two that exceeds every integer leaves the sign only. -/
theorem fdiv_wide {k : Nat} (wide : 64 ≤ k) (a : Int64) :
    a.toInt.fdiv (2 ^ k) = if a < 0 then -1 else 0 := by
  have power : (2 : Int) ^ 64 ≤ 2 ^ k := pow_le_pow_right₀ (by decide) wide
  have above := Int64.toInt_lt a
  have below := Int64.le_toInt a
  have sign : a < 0 ↔ a.toInt < 0 := Int64.lt_iff_toInt_lt
  rw [Int.fdiv_eq_ediv_of_nonneg _ (by omega)]
  by_cases negative : a < 0
  · rw [if_pos negative, Int.ediv_eq_neg_one_of_neg_of_le (sign.mp negative) (by omega)]
  · have positive : 0 ≤ a.toInt := not_lt.mp (mt sign.mpr negative)
    rw [if_neg negative, Int.ediv_eq_zero_of_lt positive (by omega)]

theorem shiftedRight (notNegative : ¬ b < 0) (a : Int64) :
    (if 64 ≤ b then (if a < 0 then -1 else 0) else a >>> b).toInt =
      a.toInt.fdiv (2 ^ b.toInt.toNat) := by
  by_cases large : 64 ≤ b
  · rw [if_pos large, fdiv_wide (wide_of_le large)]
    split
    · rfl
    · rfl
  · rw [if_neg large, ← Int64.toInt_toBitVec, Int64.toBitVec_shiftRight, BitVec.sshiftRight_eq',
      BitVec.toInt_sshiftRight, count_of_lt notNegative large, Int.shiftRight_eq_div_pow,
      Int64.toInt_toBitVec, Int.fdiv_eq_ediv_of_nonneg _ (Int.pow_nonneg (by decide))]
    norm_cast

/-! ## All operators -/

/-- What the operators do with two integers. -/
structure TwosComplement (a b : Int64) : Prop where
  /-- An operator gives an integer or panics, and leaves everything as it is. -/
  evaluated {op : BinaryOp} (arithmetic : op.isArithmetic = true) (ev : Evaluator) (m : Machine) :
    (∃ n, intOp op a b = .ok n ∧ (Eval.binary op (.int a) (.int b)).run ev m = .ok (.int n) m) ∨
      ∃ cause, OperatorPanics b op cause ∧
        (Eval.binary op (.int a) (.int b)).run ev m = .error (.signal (.panic cause)) m
  panics (op : BinaryOp) (cause : Panic) :
    intOp op a b = .error ⟨.panic cause, rfl⟩ ↔ OperatorPanics b op cause
  sum : ∃ n, intOp .add a b = .ok n ∧ n.toInt ≡ a.toInt + b.toInt [ZMOD 2 ^ 64]
  difference : ∃ n, intOp .sub a b = .ok n ∧ n.toInt ≡ a.toInt - b.toInt [ZMOD 2 ^ 64]
  product : ∃ n, intOp .mul a b = .ok n ∧ n.toInt ≡ a.toInt * b.toInt [ZMOD 2 ^ 64]
  /-- The quotient is cut off towards zero, and the remainder goes with it. -/
  division (nonzero : b ≠ 0) : ∃ q r, intOp .div a b = .ok q ∧ intOp .rem a b = .ok r ∧
    q.toInt ≡ a.toInt.tdiv b.toInt [ZMOD 2 ^ 64] ∧
    (q.toInt = a.toInt.tdiv b.toInt ∨ a = Int64.minValue ∧ b = -1 ∧ q = Int64.minValue) ∧
    q.toInt * b.toInt + r.toInt ≡ a.toInt [ZMOD 2 ^ 64] ∧
    (r.toInt = 0 ∨ r.toInt.sign = a.toInt.sign) ∧ r.toInt.natAbs < b.toInt.natAbs
  shiftLeft (notNegative : ¬ b < 0) :
    ∃ n, intOp .shl a b = .ok n ∧ n.toInt ≡ a.toInt * 2 ^ b.toInt.toNat [ZMOD 2 ^ 64]
  /-- Shifting to the right divides, and rounds down. -/
  shiftRight (notNegative : ¬ b < 0) :
    ∃ n, intOp .shr a b = .ok n ∧ n.toInt = a.toInt.fdiv (2 ^ b.toInt.toNat)

theorem intOp_panics_iff (op : BinaryOp) (a b : Int64) (cause : Panic) :
    intOp op a b = .error ⟨.panic cause, rfl⟩ ↔ OperatorPanics b op cause := by
  constructor
  · intro panics
    cases op with
    | div | rem =>
        simp only [intOp] at panics
        split at panics
        · cases panics
          constructor
          assumption
        · cases panics
    | shl | shr =>
        simp only [intOp] at panics
        split at panics
        · cases panics
          constructor
          assumption
        · cases panics
    | _ => cases panics
  · rintro (zero | zero | negative | negative)
    · exact if_pos zero
    · exact if_pos zero
    · exact if_pos negative
    · exact if_pos negative

theorem intOp_cases {op : BinaryOp} (arithmetic : op.isArithmetic = true) (a b : Int64) :
    (∃ n, intOp op a b = .ok n) ∨ ∃ cause, OperatorPanics b op cause := by
  cases op with
  | div =>
      by_cases zero : b = 0
      · exact .inr ⟨_, .div zero⟩
      · exact .inl ⟨_, if_neg zero⟩
  | rem =>
      by_cases zero : b = 0
      · exact .inr ⟨_, .rem zero⟩
      · exact .inl ⟨_, if_neg zero⟩
  | shl =>
      by_cases negative : b < 0
      · exact .inr ⟨_, .shl negative⟩
      · exact .inl ⟨_, if_neg negative⟩
  | shr =>
      by_cases negative : b < 0
      · exact .inr ⟨_, .shr negative⟩
      · exact .inl ⟨_, if_neg negative⟩
  | add | sub | mul | and | or | xor | andNot => exact .inl ⟨_, rfl⟩
  | _ => cases arithmetic

theorem binary_integers {op : BinaryOp} (arithmetic : op.isArithmetic = true) (a b : Int64) :
    Eval.binary op (.int a) (.int b) =
      (do return .int (← Eval.ofExcept (intOp op a b)) : Eval Value) := by
  cases op with
  | add | sub | mul | div | rem | and | or | xor | andNot | shl | shr => rfl
  | _ => cases arithmetic

/-- For all integers of 64 bits: an operator panics for a zero divisor or a negative count and gives
an integer otherwise, the one without bounds reduced modulo `2 ^ 64`. -/
theorem integers_twos_complement (a b : Int64) : TwosComplement a b where
  evaluated arithmetic ev m := by
    rw [binary_integers arithmetic]
    rcases intOp_cases arithmetic a b with ⟨n, given⟩ | ⟨cause, panics⟩
    · refine .inl ⟨n, given, ?_⟩
      rw [given]
      rfl
    · refine .inr ⟨cause, panics, ?_⟩
      rw [(intOp_panics_iff _ a b cause).mpr panics]
      rfl
  panics op cause := intOp_panics_iff op a b cause
  sum := ⟨a + b, rfl, by rw [Int64.toInt_add]; exact Int.bmod_emod⟩
  difference := ⟨a - b, rfl, by rw [Int64.toInt_sub]; exact Int.bmod_emod⟩
  product := ⟨a * b, rfl, by rw [Int64.toInt_mul]; exact Int.bmod_emod⟩
  division nonzero :=
    ⟨a / b, a % b, if_neg nonzero, if_neg nonzero, quotient_modEq a b, toInt_quotient a b,
      quotient_remainder a b, sign_remainder a b, natAbs_remainder nonzero a⟩
  shiftLeft notNegative := ⟨_, if_neg notNegative, shiftedLeft notNegative a⟩
  shiftRight notNegative := ⟨_, if_neg notNegative, shiftedRight notNegative a⟩

end SandboxedGo
