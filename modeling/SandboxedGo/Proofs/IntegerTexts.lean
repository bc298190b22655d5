import Mathlib.Data.Nat.Digits.Defs
import SandboxedGo.Library.Call
import SandboxedGo.Proofs.DocumentTexts
import SandboxedGo.Run

/-!
# Integers as texts

A numeral is one digit or more of a base, and has an exact value however long it is.  Reading an
integer gives the value of the numeral behind the sign if the value has the wanted number of bits,
and otherwise the nearest integer that has.  The number of bits is forgotten for values that do not
fit into the accumulator; that is the only exception.

A text that an integer is formatted as is a numeral behind an optional sign.  So it is parsed as the
same integer, in every base, the least integer included; with too few bits it is parsed as the
nearest integer that has them.
Main statements: `readInteger_nearest_iff`, `parse_format_integer`.
-/

set_option autoImplicit false

namespace SandboxedGo

namespace Text

/-! ## Numerals -/

/-- One digit or more of a base, letters in either case, and the number that they write. -/
structure Numeral (base : Nat) (digits : List Char) (n : Nat) : Prop where
  some_ : digits ≠ []
  value : ∃ ds : List Nat, digits.map (digitValue? base) = ds.map some ∧
    n = Nat.ofDigits base ds.reverse

/-- The digits of a number, most significant first, add up from the left. -/
theorem ofDigits_reverse (base : Nat) (ds : List Nat) :
    Nat.ofDigits base ds.reverse = ds.foldl (fun n d => base * n + d) 0 := by
  rw [Nat.ofDigits_eq_foldr, List.foldr_reverse]
  simp only [Nat.cast_id, Nat.add_comm]

theorem digitValue_lt {base d : Nat} {c : Char} (value : digitValue? base c = some d) :
    d < base := by
  obtain ⟨_, below⟩ := Option.filter_eq_some_iff.mp value
  simpa using below

theorem Numeral.base_pos {base n : Nat} {digits : List Char} (numeral : Numeral base digits n) :
    0 < base := by
  obtain ⟨some_, ds, values, _⟩ := numeral
  cases digits with
  | nil => exact absurd rfl some_
  | cons c digits =>
      cases ds with
      | nil => cases values
      | cons d ds => exact Nat.zero_lt_of_lt (digitValue_lt (List.cons.inj values).1)

theorem numeral_of_values {base : Nat} (value : Char → Nat) {digits : List Char}
    (some_ : digits ≠ []) (each : ∀ c ∈ digits, digitValue? base c = some (value c)) :
    Numeral base digits (digits.foldl (fun n c => base * n + value c) 0) where
  some_ := some_
  value := by
    refine ⟨digits.map value, ?_, ?_⟩
    · rw [List.map_map]
      exact List.map_congr_left each
    · rw [ofDigits_reverse, List.foldl_map]

theorem digitValue_isDigit {c : Char} (digit : c.isDigit = true) :
    digitValue? 10 c = some (c.toNat - '0'.toNat) := by
  have below : c.toNat - '0'.toNat < 10 := by
    simp only [Char.isDigit, Bool.and_eq_true, decide_eq_true_eq] at digit
    have most : c.toNat ≤ '9'.toNat := digit.2
    have nine : '9'.toNat - '0'.toNat = 9 := by decide
    omega
  simp only [digitValue?, digit, if_true, Option.filter_some, below, decide_true]

theorem numeral_decimal {digits : List Char} (some_ : digits ≠ [])
    (each : ∀ c ∈ digits, c.isDigit = true) : Numeral 10 digits (Decimal.naturalOf digits) :=
  numeral_of_values _ some_ fun c member => digitValue_isDigit (each c member)

/-- Characters are digits of a base, or there is one among them that is none. -/
theorem numeral_or_foreign (base : Nat) {digits : List Char} (some_ : digits ≠ []) :
    (∃ n, Numeral base digits n) ∨ ∃ c ∈ digits, digitValue? base c = none := by
  by_cases each : ∀ c ∈ digits, digitValue? base c ≠ none
  · refine .inl ⟨_, numeral_of_values (fun c => (digitValue? base c).getD 0) some_ ?_⟩
    intro c member
    obtain ⟨d, value⟩ := Option.ne_none_iff_exists'.mp (each c member)
    rw [value]
    rfl
  · right
    simpa using each

theorem Numeral.digit {base n : Nat} {digits : List Char} (numeral : Numeral base digits n)
    {c : Char} (member : c ∈ digits) : digitValue? base c ≠ none := by
  obtain ⟨_, ds, values, _⟩ := numeral
  intro foreign
  have isNone : none ∈ digits.map (digitValue? base) := List.mem_map.mpr ⟨c, member, foreign⟩
  rw [values] at isNone
  simp at isNone

theorem Numeral.unique {base n n' : Nat} {digits : List Char} (numeral : Numeral base digits n)
    (again : Numeral base digits n') : n = n' := by
  obtain ⟨_, ds, values, rfl⟩ := numeral
  obtain ⟨_, es, values', rfl⟩ := again
  have same : ds = es :=
    (List.map_inj_right fun _ _ => Option.some.inj).mp (values.symm.trans values')
  rw [same]

/-! ### Writing -/

theorem digitValue_base {base base' d : Nat} {c : Char} (value : digitValue? base c = some d)
    (below : d < base') : digitValue? base' c = some d := by
  obtain ⟨given, _⟩ := Option.filter_eq_some_iff.mp value
  exact Option.filter_eq_some_iff.mpr ⟨given, by simpa using below⟩

theorem digitValue_digitChar_all : ∀ d < 36, digitValue? 36 (digitChar d) = some d := by decide

theorem digitValue_digitChar {base d : Nat} (based : base ≤ 36) (below : d < base) :
    digitValue? base (digitChar d) = some d :=
  digitValue_base (digitValue_digitChar_all d (by omega)) below

/-- Digits in front of others write the number that the others go on with. -/
theorem digitsBefore_values {base : Nat} (based : 2 ≤ base ∧ base ≤ 36) (n : Nat)
    (others : List Char) : ∀ ds : List Nat, others.map (digitValue? base) = ds.map some →
      ∃ es : List Nat, (digitsBefore base n others).map (digitValue? base) = es.map some ∧
        es.foldl (fun n d => base * n + d) 0 = ds.foldl (fun n d => base * n + d) n := by
  fun_induction digitsBefore base n others with
  | case1 n others last =>
      intro ds values
      have value := digitValue_digitChar based.2 (show n < base by omega)
      exact ⟨n :: ds, by simp [value, values], by simp⟩
  | case2 n others _ ih =>
      intro ds values
      have value := digitValue_digitChar based.2 (Nat.mod_lt n (show 0 < base by omega))
      obtain ⟨es, written, number⟩ := ih (n % base :: ds) (by simp [value, values])
      refine ⟨es, written, number.trans ?_⟩
      rw [List.foldl_cons, Nat.div_add_mod]

theorem digitsBefore_ne_nil (base n : Nat) (others : List Char) :
    digitsBefore base n others ≠ [] := by
  fun_induction digitsBefore base n others with
  | case1 n others last => simp
  | case2 n others _ ih => exact ih

theorem numeral_digitsIn {base : Nat} (based : 2 ≤ base ∧ base ≤ 36) (n : Nat) :
    Numeral base (digitsIn base 1 n) n := by
  have some_ := digitsBefore_ne_nil base n []
  obtain ⟨es, written, number⟩ := digitsBefore_values based n [] [] rfl
  have long : 0 < (digitsBefore base n []).length := List.length_pos_iff.mpr some_
  have plain : digitsIn base 1 n = digitsBefore base n [] := by
    have none_ : 1 - (digitsBefore base n []).length = 0 := Nat.sub_eq_zero_of_le long
    unfold digitsIn
    simp only [none_]
    rfl
  rw [plain]
  exact ⟨some_, es, written, by rw [ofDigits_reverse, number]; rfl⟩

end Text

namespace Library

open Text (Numeral digitValue?)

/-! ## Magnitudes -/

theorem le_foldl_digits {base : Nat} (positive : 0 < base) (ds : List Nat) (read : Nat) :
    read ≤ ds.foldl (fun n d => base * n + d) read := by
  induction ds generalizing read with
  | nil => exact Nat.le_refl _
  | cons d ds ih =>
      have one : read ≤ base * read := Nat.le_mul_of_pos_left read positive
      exact Nat.le_trans (by omega) (ih (base * read + d))

/-- Digits are read to their end, unless the number becomes too large on the way; then it is too
large at the end. -/
theorem magnitude_digits {base : Nat} (positive : 0 < base) : ∀ (digits : List Char)
    (ds : List Nat) (read : Nat), digits.map (digitValue? base) = ds.map some →
      read < magnitudeLimit →
      magnitude base read digits =
        if ds.foldl (fun n d => base * n + d) read < magnitudeLimit then
          .ok (ds.foldl (fun n d => base * n + d) read)
        else .error .outOfRange := by
  intro digits
  induction digits with
  | nil =>
      intro ds read values small
      obtain rfl : ds = [] := by simpa using values.symm
      exact (if_pos small).symm
  | cons c digits ih =>
      intro ds read values small
      cases ds with
      | nil => cases values
      | cons d ds =>
          obtain ⟨value, values⟩ := List.cons.inj values
          simp only [magnitude, value, List.foldl_cons]
          split
          · rename_i small
            exact ih ds _ values small
          · rename_i large
            have grows := le_foldl_digits positive ds (base * read + d)
            exact (if_neg (by omega)).symm

theorem magnitude_numeral {base n : Nat} {digits : List Char} (numeral : Numeral base digits n) :
    magnitude base 0 digits = if n < magnitudeLimit then .ok n else .error .outOfRange := by
  have positive := numeral.base_pos
  obtain ⟨_, ds, values, rfl⟩ := numeral
  rw [Text.ofDigits_reverse]
  exact magnitude_digits positive digits ds 0 values (by decide)

theorem magnitude_foreign {base : Nat} {digits : List Char} (read : Nat)
    (foreign : ∃ c ∈ digits, digitValue? base c = none) :
    ∃ fault, magnitude base read digits = .error fault := by
  induction digits generalizing read with
  | nil => simp at foreign
  | cons c digits ih =>
      unfold magnitude
      cases value : digitValue? base c with
      | none => exact ⟨_, rfl⟩
      | some d =>
          dsimp only
          split
          · refine ih _ ?_
            obtain ⟨d, member, isNone⟩ := foreign
            rcases List.mem_cons.mp member with rfl | later
            · rw [value] at isNone
              cases isNone
            · exact ⟨d, later, isNone⟩
          · exact ⟨_, rfl⟩

/-! ## Integers of a number of bits -/

/-- Whether an integer has a number of bits, the sign among them. -/
def Fits (bits : Nat) (v : Int) : Prop := -2 ^ (bits - 1) ≤ v ∧ v < 2 ^ (bits - 1)

instance (bits : Nat) (v : Int) : Decidable (Fits bits v) := by unfold Fits; infer_instance

/-- The integer of a number of bits that is nearest to an integer. -/
def nearest (bits : Nat) (v : Int) : Int := max (-2 ^ (bits - 1)) (min v (2 ^ (bits - 1) - 1))

/-- An integer if it has a number of bits, or else the nearest one that has, with a fault. -/
def withBits (bits : Nat) (v : Int) : Except (Int × NumberFault) Int :=
  if Fits bits v then .ok v else .error (nearest bits v, .outOfRange)

/-- A numeral behind an optional sign, and the integer that they write. -/
inductive WritesInteger (base : Nat) : List Char → Int → Prop
  | unsigned {digits : List Char} {n : Nat} (numeral : Numeral base digits n) :
      WritesInteger base digits n
  | plus {digits : List Char} {n : Nat} (numeral : Numeral base digits n) :
      WritesInteger base ('+' :: digits) n
  | minus {digits : List Char} {n : Nat} (numeral : Numeral base digits n) :
      WritesInteger base ('-' :: digits) (-n)

/-- What a magnitude with a sign comes to. -/
def signed (negative : Bool) (bits : Nat) :
    Except NumberFault Nat → Except (Int × NumberFault) Int
  | .error .outOfRange => .error (if negative then -2 ^ 63 else 2 ^ 63 - 1, .outOfRange)
  | .error fault => .error (0, fault)
  | .ok n => withBits bits (if negative then -(n : Int) else n)

theorem fits_iff {bits bound : Nat} (is : bound = 2 ^ (bits - 1)) (v : Int) :
    Fits bits v ↔ -(bound : Int) ≤ v ∧ v < bound := by
  simp [Fits, is]

theorem nearest_eq {bits bound : Nat} (is : bound = 2 ^ (bits - 1)) (v : Int) :
    nearest bits v = max (-(bound : Int)) (min v (bound - 1)) := by
  simp [nearest, is]

/-- The bound of one side is all there is to check of a magnitude with a sign. -/
theorem withBits_signed {bits bound : Nat} (negative : Bool) (n : Nat)
    (is : bound = 2 ^ (bits - 1)) :
    (if negative then
      if bound < n then .error (-(bound : Int), .outOfRange) else .ok (-(n : Int))
    else if bound ≤ n then .error ((bound : Int) - 1, .outOfRange)
    else .ok (n : Int)) = withBits bits (if negative then -(n : Int) else n) := by
  have positive : 0 < bound := is ▸ Nat.two_pow_pos _
  unfold withBits
  cases negative with
  | false =>
      have fits := fits_iff is n
      have least : bound ≤ n → nearest bits n = bound - 1 := by rw [nearest_eq is]; omega
      simp only [Bool.false_eq_true, if_false]
      split
      · rename_i large
        rw [if_neg (mt fits.mp (by omega)), least large]
      · rw [if_pos (fits.mpr (by omega))]
  | true =>
      have fits := fits_iff is (-n)
      have least : bound < n → nearest bits (-n) = -bound := by rw [nearest_eq is]; omega
      simp only [if_true]
      split
      · rename_i large
        rw [if_neg (mt fits.mp (by omega)), least large]
      · rw [if_pos (fits.mpr (by omega))]

/-- Behind the sign and the prefix, an integer is its magnitude with the sign. -/
theorem readInteger_eq {text digits : List Char} {base bits radix : Nat} {separated : Bool}
    (sized : 1 ≤ bits ∧ bits ≤ 64)
    (parts : (if base = 0 then splitBase (Decimal.splitSign text).2
      else (base, (Decimal.splitSign text).2, false)) = (radix, digits, separated)) :
    readInteger text base bits =
      if (if separated then digits.filter (· ≠ '_') else digits).isEmpty then
        .error (0, .invalidSyntax)
      else signed (Decimal.splitSign text).1 bits
        (magnitude radix 0 (if separated then digits.filter (· ≠ '_') else digits)) := by
  have limit : Nat.pow 2 (max 1 (min 64 bits) - 1) = 2 ^ (bits - 1) := by
    rw [Nat.min_eq_right sized.2, Nat.max_eq_right sized.1]
    rfl
  unfold readInteger
  simp only [parts]
  refine ite_congr rfl (fun _ => rfl) fun _ => ?_
  generalize magnitude radix 0 _ = read
  match read with
  | .error .outOfRange => rfl
  | .error .invalidSyntax => rfl
  | .error .invalidBase => rfl
  | .ok n => exact withBits_signed _ n limit

/-- In a base that is given, the characters behind the sign are the digits. -/
theorem readInteger_given {text : List Char} {base bits : Nat} (sized : 1 ≤ bits ∧ bits ≤ 64)
    (given : base ≠ 0) :
    readInteger text base bits =
      if (Decimal.splitSign text).2.isEmpty then .error (0, .invalidSyntax)
      else signed (Decimal.splitSign text).1 bits (magnitude base 0 (Decimal.splitSign text).2) :=
  @readInteger_eq text _ base bits _ _ sized (if_neg given)

/-! ## Exact values -/

theorem splitSign_unsigned {base n : Nat} {digits : List Char} (numeral : Numeral base digits n) :
    Decimal.splitSign digits = (false, digits) := by
  unfold Decimal.splitSign
  split
  · exact absurd rfl (numeral.digit List.mem_cons_self)
  · exact absurd rfl (numeral.digit List.mem_cons_self)
  · rfl

/-- The accumulator holds the magnitude, or the integer has not got sixty-four bits either. -/
theorem signed_magnitude {base n bits : Nat} {digits : List Char} (negative : Bool)
    (numeral : Numeral base digits n) :
    signed negative bits (magnitude base 0 digits) =
      withBits (if n < 2 ^ 128 then bits else 64) (if negative then -(n : Int) else n) := by
  rw [magnitude_numeral numeral]
  unfold magnitudeLimit
  split
  · rename_i small
    rw [if_pos (show n < 2 ^ 128 from small)]
    rfl
  · rename_i large
    have large : ¬n < 2 ^ 128 := large
    rw [if_neg large, ← withBits_signed negative n (show 2 ^ 63 = 2 ^ (64 - 1) from rfl)]
    cases negative with
    | false => exact (if_pos (show 2 ^ 63 ≤ n by omega)).symm
    | true => exact (if_pos (show 2 ^ 63 < n by omega)).symm

/-- An integer is read as its exact value, which has to have the wanted number of bits; sixty-four
are wanted if the accumulator does not hold it. -/
theorem readInteger_of_writes {base bits : Nat} {text : List Char} {v : Int}
    (sized : 1 ≤ bits ∧ bits ≤ 64) (writes : WritesInteger base text v) :
    readInteger text base bits = withBits (if v.natAbs < 2 ^ 128 then bits else 64) v := by
  cases writes with
  | @unsigned digits n numeral =>
      rw [readInteger_given sized (Nat.ne_of_gt numeral.base_pos), splitSign_unsigned numeral,
        if_neg (by simpa using numeral.some_), signed_magnitude false numeral]
      simp
  | @plus digits n numeral =>
      rw [readInteger_given sized (Nat.ne_of_gt numeral.base_pos)]
      simp only [Decimal.splitSign]
      rw [if_neg (by simpa using numeral.some_), signed_magnitude false numeral]
      simp
  | @minus digits n numeral =>
      rw [readInteger_given sized (Nat.ne_of_gt numeral.base_pos)]
      simp only [Decimal.splitSign]
      rw [if_neg (by simpa using numeral.some_), signed_magnitude true numeral]
      simp

/-- Behind the sign of a text there is a numeral, or the text writes no integer. -/
theorem writes_of_numeral {base n : Nat} {text : List Char}
    (numeral : Numeral base (Decimal.splitSign text).2 n) : ∃ v, WritesInteger base text v := by
  unfold Decimal.splitSign at numeral
  split at numeral
  · exact ⟨_, .minus numeral⟩
  · exact ⟨_, .plus numeral⟩
  · exact ⟨_, .unsigned numeral⟩

theorem readInteger_refuses {base bits : Nat} {text : List Char} (given : base ≠ 0)
    (sized : 1 ≤ bits ∧ bits ≤ 64) (noInteger : ¬∃ v, WritesInteger base text v) :
    ∃ fault, readInteger text base bits = .error fault := by
  rw [readInteger_given sized given]
  split
  · exact ⟨_, rfl⟩
  · rename_i some_
    rcases Text.numeral_or_foreign base (by simpa using some_) with ⟨n, numeral⟩ | foreign
    · exact absurd (writes_of_numeral numeral) noInteger
    · obtain ⟨fault, failed⟩ := magnitude_foreign 0 foreign
      rw [failed]
      cases fault <;> exact ⟨_, rfl⟩

theorem withBits_eq_iff {bits : Nat} {v : Int} (sized : 1 ≤ bits ∧ bits ≤ 64)
    (large : 2 ^ 128 ≤ v.natAbs) : withBits 64 v = withBits bits v ↔ bits = 64 := by
  refine ⟨fun same => ?_, fun is => is ▸ rfl⟩
  have positive : 0 < 2 ^ (bits - 1) := Nat.two_pow_pos _
  have least : 2 ^ (bits - 1) ≤ 2 ^ 63 := Nat.pow_le_pow_right (by omega) (by omega)
  have most : 2 ^ 63 = 2 ^ (64 - 1) := rfl
  have outside : ¬Fits 64 v := by rw [fits_iff most]; omega
  have outsideToo : ¬Fits bits v := by rw [fits_iff rfl]; omega
  have equal : 2 ^ (bits - 1) = 2 ^ 63 := by
    rw [withBits, if_neg outside, withBits, if_neg outsideToo, nearest_eq most,
      nearest_eq (rfl : 2 ^ (bits - 1) = _)] at same
    simp only [Except.error.injEq, Prod.mk.injEq, and_true] at same
    omega
  have exponents := Nat.pow_right_injective (Nat.le_refl 2) equal
  omega

/-- An integer is read as its exact value if it has the wanted number of bits, and otherwise as the
nearest integer that has, exactly if the accumulator holds it or all sixty-four bits are wanted; one
that the accumulator does not hold is always read as if sixty-four bits were wanted.  A text that
writes no integer is refused. -/
theorem readInteger_nearest_iff {base bits : Nat} (based : 2 ≤ base ∧ base ≤ 36)
    (sized : 1 ≤ bits ∧ bits ≤ 64) (text : List Char) :
    (∀ v, WritesInteger base text v →
      (readInteger text base bits = withBits bits v ↔ v.natAbs < 2 ^ 128 ∨ bits = 64) ∧
        readInteger text base bits = withBits (if v.natAbs < 2 ^ 128 then bits else 64) v) ∧
    ((¬∃ v, WritesInteger base text v) → ∃ fault, readInteger text base bits = .error fault) := by
  refine ⟨fun v writes => ?_, readInteger_refuses (by omega) sized⟩
  have read := readInteger_of_writes sized writes
  refine ⟨?_, read⟩
  rw [read]
  by_cases small : v.natAbs < 2 ^ 128
  · rw [if_pos small]
    exact iff_of_true rfl (.inl small)
  · rw [if_neg small, withBits_eq_iff sized (Nat.le_of_not_lt small)]
    exact (or_iff_right small).symm

/-- The least power of two that the accumulator does not hold comes out with the bound of sixty-four
bits where eight were wanted; a separator is refused. -/
theorem readInteger_nearest_iff_power :
    WritesInteger 10 "340282366920938463463374607431768211456".toList (2 ^ 128) ∧
      (readInteger "340282366920938463463374607431768211456".toList 10 8 =
          withBits 8 (2 ^ 128) ↔ (2 ^ 128 : Int).natAbs < 2 ^ 128 ∨ 8 = 64) ∧
      readInteger "340282366920938463463374607431768211456".toList 10 8 =
        .error (2 ^ 63 - 1, .outOfRange) ∧
      nearest 8 (2 ^ 128) = 127 ∧
      (¬∃ v, WritesInteger 10 "1_0".toList v) ∧
      ∃ fault, readInteger "1_0".toList 10 8 = .error fault := by
  have writes : WritesInteger 10 "340282366920938463463374607431768211456".toList (2 ^ 128) :=
    .unsigned ⟨by decide, [3, 4, 0, 2, 8, 2, 3, 6, 6, 9, 2, 0, 9, 3, 8, 4, 6, 3, 4, 6, 3, 3, 7, 4,
      6, 0, 7, 4, 3, 1, 7, 6, 8, 2, 1, 1, 4, 5, 6], by decide, by decide⟩
  have noInteger : ¬∃ v, WritesInteger 10 "1_0".toList v := by
    rintro ⟨v, writes⟩
    have numeral : ∃ n, Numeral 10 ['1', '_', '0'] n := by
      cases writes with
      | unsigned numeral => exact ⟨_, numeral⟩
    obtain ⟨n, numeral⟩ := numeral
    exact numeral.digit (c := '_') (by decide) (by decide)
  have based : 2 ≤ 10 ∧ 10 ≤ 36 := by decide
  have sized : 1 ≤ 8 ∧ 8 ≤ 64 := by decide
  have power := (readInteger_nearest_iff based sized _).1 _ writes
  exact ⟨writes, power.1, power.2, by decide, noInteger,
    (readInteger_nearest_iff based sized _).2 noInteger⟩

/-! ## Written integers -/

/-- A numeral of the magnitude, behind a minus if the integer is negative. -/
theorem writesInteger_magnitude {base : Nat} {digits : List Char} {v : Int}
    (numeral : Numeral base digits v.natAbs) :
    WritesInteger base ((if v < 0 then ['-'] else []) ++ digits) v := by
  split
  · have writes := WritesInteger.minus numeral
    rwa [show -(v.natAbs : Int) = v by omega] at writes
  · have writes := WritesInteger.unsigned numeral
    rwa [show (v.natAbs : Int) = v by omega] at writes

theorem writesInteger_integerText {base : Nat} (based : 2 ≤ base ∧ base ≤ 36) (v : Int) :
    WritesInteger base (integerText v base) v :=
  writesInteger_magnitude (Text.numeral_digitsIn based v.natAbs)

theorem numeral_toDigits (n : Nat) : Numeral 10 (Nat.toDigits 10 n) n := by
  have numeral := Text.numeral_decimal (Nat.toDigits_ne_nil (b := 10) (n := n)) fun c member =>
    Nat.isDigit_of_mem_toDigits (by omega) (by omega) member
  rwa [Json.naturalOf_toDigits] at numeral

theorem writesInteger_toString (v : Int) : WritesInteger 10 (toString v).toList v := by
  have written := writesInteger_magnitude (numeral_toDigits v.natAbs)
  cases v with
  | ofNat n =>
      rw [Int.ofNat_eq_natCast] at written ⊢
      rw [if_neg (Int.not_lt.mpr (Int.natCast_nonneg n))] at written
      rw [Json.toList_toString_natural]
      exact written
  | negSucc n =>
      rw [if_pos (Int.negSucc_lt_zero n)] at written
      rw [Json.toList_toString_negative]
      exact written

/-! ## Calls -/

section

variable (ev : Evaluator) (m : Machine)

theorem failed_run (f : StrconvFunction) (v : Value) (text : String) (fault : NumberFault) :
    ∃ id m', (f.failed v text fault).run ev m =
      .ok (.tuple [v, .error id ((Function.strconv f).label ++ ": parsing " ++ Text.quote text ++
        ": " ++ fault.message) none]) m' :=
  ⟨_, _, rfl⟩

theorem base_argument : ∀ base ≤ 36, 2 ≤ base → (Int64.ofNat base).toInt.toNat = base ∧
    (Int64.ofNat base = 1 || Int64.ofNat base < 0 || 36 < Int64.ofNat base) = false ∧
    (Int64.ofNat base < 2 || 36 < Int64.ofNat base) = false := by
  decide

theorem bits_argument : ∀ bits ≤ 64, 1 ≤ bits →
    (if Int64.ofNat bits = 0 then 64 else (Int64.ofNat bits).toUInt64.toUInt32.toNat) = bits := by
  decide

theorem parseInt_run (text : String) (base bits : Int64) :
    ((Function.strconv .parseInt).call [.string text, .int base, .int bits]).run ev m =
      (if base = 1 || base < 0 || 36 < base then
        StrconvFunction.failed .parseInt (.int 0) text .invalidBase
      else StrconvFunction.integerResult .parseInt text (readInteger text.toList base.toInt.toNat
        (if bits = 0 then 64 else bits.toUInt64.toUInt32.toNat))).run ev m := rfl

theorem formatInt_run {base : Nat} (based : 2 ≤ base ∧ base ≤ 36) (i : Int64) :
    ((Function.strconv .formatInt).call [.int i, .int (Int64.ofNat base)]).run ev m =
      .ok (.string (String.ofList (integerText i.toInt base))) m := by
  obtain ⟨value, _, allowed⟩ := base_argument base based.2 based.1
  have asked : ((Function.strconv .formatInt).call [.int i, .int (Int64.ofNat base)]).run ev m =
      (do
        if Int64.ofNat base < 2 || 36 < Int64.ofNat base then Eval.panic .integerBase
        return .string (String.ofList (integerText i.toInt (Int64.ofNat base).toInt.toNat)) :
          Eval Value).run ev m := rfl
  rw [asked, allowed, value]
  rfl

/-- What is parsed from a text that writes an integer, with the library's report if it has not got
the wanted number of bits. -/
theorem integerResult_run (f : StrconvFunction) {text : String} {base bits : Nat} {i : Int64}
    (sized : 1 ≤ bits ∧ bits ≤ 64) (writes : WritesInteger base text.toList i.toInt) :
    (Fits bits i.toInt →
      (f.integerResult text (readInteger text.toList base bits)).run ev m =
        .ok (success (.int i)) m) ∧
    (¬Fits bits i.toInt → ∃ id m',
      (f.integerResult text (readInteger text.toList base bits)).run ev m =
        .ok (.tuple [.int (Int64.ofInt (nearest bits i.toInt)),
          .error id ((Function.strconv f).label ++ ": parsing " ++ Text.quote text ++
            ": value out of range") none]) m') := by
  have small : i.toInt.natAbs < 2 ^ 128 := by
    have least := i.le_toInt
    have most := i.toInt_lt
    omega
  rw [readInteger_of_writes sized writes, if_pos small, withBits]
  constructor
  · intro fits
    rw [if_pos fits]
    simp only [StrconvFunction.integerResult, Int64.ofInt_toInt]
    rfl
  · intro outside
    have message : ": " ++ NumberFault.outOfRange.message = ": value out of range" := by decide
    rw [if_neg outside, ← message, ← String.append_assoc]
    exact failed_run ev m f _ text .outOfRange

end

/-- A formatted integer is parsed as itself if it has the wanted number of bits, and otherwise as
the nearest integer that has, with an error that says so; and the decimal text of an integer is
converted back to it. -/
theorem parse_format_integer (ev : Evaluator) (m : Machine) (i : Int64) {base bits : Nat}
    (based : 2 ≤ base ∧ base ≤ 36) (sized : 1 ≤ bits ∧ bits ≤ 64) :
    (∃ text,
      ((Function.strconv .formatInt).call [.int i, .int (Int64.ofNat base)]).run ev m =
        .ok (.string text) m ∧
      (Fits bits i.toInt →
        ((Function.strconv .parseInt).call
          [.string text, .int (Int64.ofNat base), .int (Int64.ofNat bits)]).run ev m =
            .ok (success (.int i)) m) ∧
      (¬Fits bits i.toInt → ∃ id m',
        ((Function.strconv .parseInt).call
          [.string text, .int (Int64.ofNat base), .int (Int64.ofNat bits)]).run ev m =
            .ok (.tuple [.int (Int64.ofInt (nearest bits i.toInt)),
              .error id ("strconv.ParseInt: parsing " ++ Text.quote text ++
                ": value out of range") none]) m')) ∧
    ∃ text,
      ((Function.strconv .itoa).call [.int i]).run ev m = .ok (.string text) m ∧
      ((Function.strconv .atoi).call [.string text]).run ev m = .ok (success (.int i)) m := by
  constructor
  · obtain ⟨value, allowed, _⟩ := base_argument base based.2 based.1
    have writes : WritesInteger base (String.ofList (integerText i.toInt base)).toList i.toInt := by
      rw [String.toList_ofList]
      exact writesInteger_integerText based i.toInt
    have parsed := integerResult_run ev m .parseInt sized writes
    refine ⟨_, formatInt_run ev m based i, ?_⟩
    rw [parseInt_run, allowed, value, bits_argument bits sized.2 sized.1]
    exact parsed
  · have fits : Fits 64 i.toInt := ⟨i.le_toInt, i.toInt_lt⟩
    exact ⟨_, rfl, (integerResult_run ev m .atoi (by decide)
      (writesInteger_toString i.toInt)).1 fits⟩

/-- The least integer, whose magnitude is no integer of the language, in base thirty-six. -/
theorem parse_format_integer_least :
    let ev := Evaluator.ofDepth 0
    let m := Machine.initial {}
    (2 ≤ 36 ∧ 36 ≤ 36) ∧ (1 ≤ 8 ∧ 8 ≤ 64) ∧ ¬Fits 8 Int64.minValue.toInt ∧
      nearest 8 Int64.minValue.toInt = -128 ∧
      (∃ text,
        ((Function.strconv .formatInt).call
          [.int Int64.minValue, .int (Int64.ofNat 36)]).run ev m = .ok (.string text) m ∧
        (Fits 8 Int64.minValue.toInt →
          ((Function.strconv .parseInt).call
            [.string text, .int (Int64.ofNat 36), .int (Int64.ofNat 8)]).run ev m =
              .ok (success (.int Int64.minValue)) m) ∧
        (¬Fits 8 Int64.minValue.toInt → ∃ id m',
          ((Function.strconv .parseInt).call
            [.string text, .int (Int64.ofNat 36), .int (Int64.ofNat 8)]).run ev m =
              .ok (.tuple [.int (Int64.ofInt (nearest 8 Int64.minValue.toInt)),
                .error id ("strconv.ParseInt: parsing " ++ Text.quote text ++
                  ": value out of range") none]) m')) ∧
      ∃ text,
        ((Function.strconv .itoa).call [.int Int64.minValue]).run ev m = .ok (.string text) m ∧
        ((Function.strconv .atoi).call [.string text]).run ev m =
          .ok (success (.int Int64.minValue)) m :=
  ⟨by decide, by decide, by decide, by decide,
    parse_format_integer (Evaluator.ofDepth 0) (Machine.initial {}) Int64.minValue (by decide)
      (by decide)⟩

end Library

end SandboxedGo
