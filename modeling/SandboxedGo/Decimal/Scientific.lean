import SandboxedGo.Decimal.Dyadic

/-!
# Decimal digits of a float

Two ways to write a positive finite float as `d₁.d₂…dₖ * 10 ^ exponent`: with a given number of
digits, and with the fewest digits that read back as the same float.  Both work on exact quotients
of natural numbers.
-/

set_option autoImplicit false

namespace SandboxedGo.Decimal

/-- The number `d₁.d₂…dₖ * 10 ^ exponent` for the decimal digits `d₁ … dₖ`. -/
structure Scientific where
  digits : List Char
  exponent : Int
  deriving Repr, DecidableEq

def digitsOf (n : Nat) : List Char := Nat.toDigits 10 n

/-- `10 ^ k` as a quotient, for any integer `k`. -/
def powerOfTen (k : Int) : Nat × Nat :=
  if k < 0 then (1, Nat.pow 10 k.natAbs) else (Nat.pow 10 k.natAbs, 1)

/-- The greatest `k` with `10 ^ k ≤ num / den`, for a positive quotient. -/
def decimalExponent (num den : Nat) : Int :=
  -- the number of digits differs from this estimate by at most one
  let estimate : Int := ((digitsOf num).length : Int) - ((digitsOf den).length : Int)
  let fits (k : Int) : Bool := (powerOfTen k).1 * den ≤ num * (powerOfTen k).2
  if fits estimate then estimate else estimate - 1

namespace Scientific

/-- `num / den` rounded to `places + 1` digits, ties to the even digit. -/
def ofRatio (num den places : Nat) : Scientific :=
  if num = 0 then ⟨List.replicate (places + 1) '0', 0⟩
  else
    let exponent := decimalExponent num den
    let unit := powerOfTen (exponent - places)
    let rounded := roundHalfEven (num * unit.2) (den * unit.1)
    if rounded < Nat.pow 10 (places + 1) then ⟨digitsOf rounded, exponent⟩
    else ⟨digitsOf (rounded / 10), exponent + 1⟩

/-- The magnitude of a finite float rounded to `places + 1` digits. -/
def ofFloat (f : Float) (places : Nat) : Scientific :=
  let (num, den) := (Dyadic.ofFloat f).ratio
  ofRatio num den places

/-- The reals that round to the dyadic `x`, as numerators of the two ends over one denominator,
and whether the ends themselves belong to them. -/
def roundingInterval (x : Dyadic) : Nat × Nat × Nat × Bool :=
  -- below a power of two the floats are twice as dense
  let below := if x.mantissa = Nat.pow 2 52 ∧ -1074 < x.exponent then 1 else 2
  let (num, den) := x.ratio
  let (unit, _) := (Dyadic.mk 1 x.exponent).ratio
  (4 * num - below * unit, 4 * num + 2 * unit, 4 * den, x.mantissa % 2 = 0)

/-- The digits of `num / den` on the grid of `places + 1` digits, if one of the two grid points
beside it lies in the interval from `low / scale` to `high / scale`.  Of two such points the
nearer one is taken, and the upper one of two equally near. -/
def onGrid (num den low high scale : Nat) (closed : Bool) (exponent : Int) (places : Nat) :
    Option Scientific :=
  let unit := powerOfTen (exponent - places)
  let down := num * unit.2 / (den * unit.1)
  let rest := num * unit.2 % (den * unit.1)
  let inside (point : Nat) : Bool :=
    let left := point * unit.1 * scale
    (low * unit.2 < left ∧ left < high * unit.2) ∨
      (closed ∧ (left = low * unit.2 ∨ left = high * unit.2))
  let point? :=
    if inside down ∧ (2 * rest < den * unit.1 ∨ ¬ inside (down + 1)) then some down
    else if inside (down + 1) then some (down + 1)
    else none
  point?.map fun point =>
    if point < Nat.pow 10 (places + 1) then ⟨digitsOf point, exponent⟩
    else ⟨digitsOf (point / 10), exponent + 1⟩

/-- The fewest digits that read back as the positive finite float `f`, and of those the nearest. -/
def shortest (f : Float) : Scientific :=
  let x := Dyadic.ofFloat f
  if x.mantissa = 0 then ⟨['0'], 0⟩
  else
    let (num, den) := x.ratio
    let (low, high, scale, closed) := roundingInterval x
    let exponent := decimalExponent num den
    ((List.range 17).findSome? (onGrid num den low high scale closed exponent)).getD
      (ofRatio num den 16)

end Scientific

/-- A natural number in units of `10 ^ -places`, written with its decimal point. -/
def pointed (units places : Nat) : List Char :=
  let digits := digitsOf units
  let padded := List.replicate (places + 1 - digits.length) '0' ++ digits
  let whole := padded.take (padded.length - places)
  if places = 0 then whole else whole ++ '.' :: padded.drop (padded.length - places)

/-- The magnitude of a finite float with exactly `places` digits after the point, ties to even. -/
def fixedPlaces (f : Float) (places : Nat) : List Char :=
  let (num, den) := (Dyadic.ofFloat f).ratio
  pointed (roundHalfEven (num * Nat.pow 10 places) den) places

/-!
## Positional notation

Placing the decimal point in a string of digits, without an exponent.
-/

/-- The number `d₁.d₂…dₖ * 10 ^ exponent` written without an exponent. -/
def placePoint (x : Scientific) : List Char :=
  if x.exponent < 0 then
    '0' :: '.' :: List.replicate (x.exponent.natAbs - 1) '0' ++ x.digits
  else
    let whole := x.exponent.toNat + 1
    if x.digits.length ≤ whole then x.digits ++ List.replicate (whole - x.digits.length) '0'
    else x.digits.take whole ++ '.' :: x.digits.drop whole

def placePointInWords (digits : List Char) (exponent : Int32) : List Char :=
  if exponent < 0 then
    '0' :: '.' :: List.replicate (-exponent - 1).toInt64.toUInt64.toNat '0' ++ digits
  else
    let whole := (exponent.toInt64.toUInt64 + 1).toNat
    if digits.length ≤ whole then digits ++ List.replicate (whole - digits.length) '0'
    else digits.take whole ++ '.' :: digits.drop whole

/-- The fewest digits that read back as the magnitude of a finite float, without an exponent. -/
def shortestPositional (f : Float) : List Char := placePoint (Scientific.shortest f)

def diagnosticFloat (f : Float) : String :=
  if f.isNaN then "NaN"
  else
    let sign := if signBit f then "-" else ""
    if f.isInf then sign ++ "inf" else sign ++ String.ofList (shortestPositional f)

end SandboxedGo.Decimal
