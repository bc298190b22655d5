/-!
# Dyadic magnitudes

A finite float has the magnitude `mantissa * 2 ^ exponent`.  This file decodes that pair from the
bits of a float and goes the other way: from an exact quotient of natural numbers to the nearest
float.  All rounding is done on natural numbers, so nothing here depends on the float unit.
-/

set_option autoImplicit false

namespace SandboxedGo.Decimal

/-- The quotient `num / den` rounded to the nearest integer; a tie goes to the even neighbour. -/
def roundHalfEven (num den : Nat) : Nat :=
  let quotient := num / den
  let twice := 2 * (num % den)
  if den < twice ∨ (twice = den ∧ quotient % 2 = 1) then quotient + 1 else quotient

/-- The non-negative number `mantissa * 2 ^ exponent`. -/
structure Dyadic where
  mantissa : Nat
  exponent : Int

namespace Dyadic

/-- The magnitude of a finite float.  The exponent of a subnormal number is the least one. -/
def ofFloat (f : Float) : Dyadic :=
  let bits := f.toBits.toNat
  let fraction := bits % Nat.pow 2 52
  let biased := bits / Nat.pow 2 52 % Nat.pow 2 11
  if biased = 0 then ⟨fraction, -1074⟩ else ⟨Nat.pow 2 52 + fraction, Int.ofNat biased - 1075⟩

def ratio (x : Dyadic) : Nat × Nat :=
  if x.exponent < 0 then (x.mantissa, Nat.pow 2 x.exponent.natAbs)
  else (x.mantissa * Nat.pow 2 x.exponent.natAbs, 1)

end Dyadic

/-- Whether the sign bit of a float is set; true of the negative zero. -/
def signBit (f : Float) : Bool := f.toBits.toNat / Nat.pow 2 63 % 2 = 1

def infinityBits : Nat := 2047 * Nat.pow 2 52

/-- The float nearest to `num / den`; ties go to the even mantissa, too large a quotient to
infinity.  The bits of a float count the floats in order, so the exponent and the rounded mantissa
add up, and a mantissa that rounds up to the next power of two carries into the exponent. -/
def nearestFloat (num den : Nat) : Float :=
  if num = 0 ∨ den = 0 then 0
  else
    let guess : Int := (num.log2 : Int) - (den.log2 : Int) - 52
    let scaled (e : Int) : Nat × Nat :=
      if e < 0 then (num * Nat.pow 2 e.natAbs, den) else (num, den * Nat.pow 2 e.natAbs)
    let exponent :=
      max (-1074)
        (if (scaled guess).1 < (scaled guess).2 * Nat.pow 2 52 then guess - 1 else guess)
    let mantissa := roundHalfEven (scaled exponent).1 (scaled exponent).2
    let bits := (exponent + 1074).toNat * Nat.pow 2 52 + mantissa
    Float.ofBits (UInt64.ofNat (min bits infinityBits))

end SandboxedGo.Decimal
