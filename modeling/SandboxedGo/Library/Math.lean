import SandboxedGo.Decimal.Dyadic
import SandboxedGo.Library.Arguments

/-!
# Functions on floats

Remainder and hypotenuse are computed exactly on dyadic numbers and rounded once.
-/

set_option autoImplicit false

namespace SandboxedGo.Library

open Decimal

def notANumber : Float := Float.ofBits 0x7ff8000000000000

def infinity : Float := Float.ofBits 0x7ff0000000000000

def withSign (negative : Bool) (magnitude : Float) : Float :=
  if negative then -magnitude else magnitude

def copySign (x y : Float) : Float := withSign (signBit y) x.abs

/-- The integer next to a float on the side of zero. -/
def truncate (x : Float) : Float := if x < 0 then x.ceil else x.floor

/-- The integer nearest to a float; a tie goes to the even one. -/
def roundTieEven (x : Float) : Float :=
  let nearest := x.round
  let isTie := (x - truncate x).abs == 0.5
  let isOdd := (nearest / 2).floor * 2 != nearest
  if isTie && isOdd then (if x < 0 then nearest + 1 else nearest - 1) else nearest

/-- Two magnitudes as integers in the same unit, and the exponent of the unit. -/
def commonUnit (x y : Float) : Nat × Nat × Int :=
  let a := Dyadic.ofFloat x
  let b := Dyadic.ofFloat y
  let exponent := min a.exponent b.exponent
  (a.mantissa * Nat.pow 2 (a.exponent - exponent).toNat,
    b.mantissa * Nat.pow 2 (b.exponent - exponent).toNat, exponent)

/-- The remainder of a division toward zero; it has the sign of the dividend. -/
def remainder (x y : Float) : Float :=
  if !x.isFinite || y.isNaN || y == 0 then notANumber
  else if y.isInf then x
  else
    let (a, b, exponent) := commonUnit x y
    let (num, den) := (Dyadic.mk (a % b) exponent).ratio
    withSign (signBit x) (nearestFloat num den)

/-- The square root of a natural number, rounded down. -/
def squareRoot (n : Nat) : Nat :=
  if n = 0 then 0 else refine n (n.log2 + 2) (Nat.pow 2 (n.log2 / 2 + 1))
where
  /-- Newton's step from above, which decreases until it has arrived. -/
  refine (n : Nat) : Nat → Nat → Nat
    | 0, guess => guess
    | steps + 1, guess =>
      let next := (guess + n / guess) / 2
      if guess ≤ next then guess else refine n steps next

def hypotenuse (x y : Float) : Float :=
  if x.isInf || y.isInf then infinity
  else if x.isNaN || y.isNaN then notANumber
  else
    let (a, b, exponent) := commonUnit x y
    let square := a * a + b * b
    if square = 0 then 0
    else
      -- enough digits behind the point for one rounding to be decisive
      let shift : Nat := 64
      let root := squareRoot (square * Nat.pow 4 shift)
      let exact := root * root = square * Nat.pow 4 shift
      let doubled := 2 * root + (if exact then 0 else 1)
      let (num, den) := (Dyadic.mk doubled (exponent - (shift : Int) - 1)).ratio
      nearestFloat num den

/-- The logarithm of one more than a float.  What adding one loses of a small float is made up for
by a quotient. -/
def logOnePlus (x : Float) : Float :=
  let sum := 1 + x
  if sum == 1 then x
  else if sum.isInf then sum.log
  else sum.log * (x / (sum - 1))

/-- The greater of two floats; a zero with the sign bit is the smaller zero. -/
def greater (x y : Float) : Float :=
  if x.isNaN || y.isNaN then notANumber
  else if x == 0 && y == 0 then (if signBit x then y else x)
  else if x < y then y else x

/-- The smaller of two floats; a zero with the sign bit is the smaller zero. -/
def smaller (x y : Float) : Float :=
  if x.isNaN || y.isNaN then notANumber
  else if x == 0 && y == 0 then (if signBit x then x else y)
  else if y < x then y else x

/-- How far the first float is above the second, and zero if it is not. -/
def excess (x y : Float) : Float := if 0 < x - y then x - y else 0

namespace MathFunction

def ofOne? : MathFunction → Option (Float → Float)
  | sqrt => some Float.sqrt
  | abs => some Float.abs
  | floor => some Float.floor
  | ceil => some Float.ceil
  | round => some Float.round
  | roundToEven => some roundTieEven
  | trunc => some truncate
  | cbrt => some Float.cbrt
  | exp => some Float.exp
  | exp2 => some Float.exp2
  | log => some Float.log
  | log2 => some Float.log2
  | log10 => some Float.log10
  | log1p => some logOnePlus
  | sin => some Float.sin
  | cos => some Float.cos
  | tan => some Float.tan
  | asin => some Float.asin
  | acos => some Float.acos
  | atan => some Float.atan
  | tanh => some Float.tanh
  | _ => none

def ofTwo? : MathFunction → Option (Float → Float → Float)
  | pow => some Float.pow
  | atan2 => some Float.atan2
  | hypot => some hypotenuse
  | mod => some remainder
  | max => some greater
  | min => some smaller
  | dim => some excess
  | copysign => some copySign
  | _ => none

def call (f : MathFunction) (arguments : List Value) : Eval Value := do
  let self : Function := .math f
  match ofOne? f with
  | some g =>
    checkCount self arguments 1
    return .float (g (← floatArgument self arguments 0))
  | none =>
    match ofTwo? f with
    | some g =>
      checkCount self arguments 2
      let x ← floatArgument self arguments 0
      return .float (g x (← floatArgument self arguments 1))
    | none =>
      match f with
      | inf =>
        checkCount self arguments 1
        let sign ← intArgument self arguments 0
        return .float (withSign (sign < 0) infinity)
      | isNaN =>
        checkCount self arguments 1
        return .bool (← floatArgument self arguments 0).isNaN
      | isInf =>
        checkCount self arguments 2
        let x ← floatArgument self arguments 0
        let sign ← intArgument self arguments 1
        return .bool ((0 ≤ sign && x == infinity) || (sign ≤ 0 && x == -infinity))
      | signbit =>
        checkCount self arguments 1
        return .bool (signBit (← floatArgument self arguments 0))
      | _ => return .float notANumber

end MathFunction

end SandboxedGo.Library
