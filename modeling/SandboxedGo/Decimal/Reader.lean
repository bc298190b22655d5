import SandboxedGo.Decimal.Dyadic

/-!
# Reading decimal numbers

The grammar of a decimal float: an optional sign, digits with at most one point, an optional
exponent, or one of the words `inf`, `infinity` and `nan` in any case.  The value is the nearest
float of the exact decimal number.
-/

set_option autoImplicit false

namespace SandboxedGo.Decimal

def naturalOf (digits : List Char) : Nat :=
  digits.foldl (fun n c => 10 * n + (c.toNat - '0'.toNat)) 0

/-- The float nearest to `mantissa * 10 ^ exponent`.  Magnitudes far outside the range of floats
are answered without computing the power. -/
def nearestDecimal (mantissa : Nat) (exponent : Int) : Float :=
  if mantissa = 0 then 0
  else
    let magnitude : Int := (Nat.toDigits 10 mantissa).length + exponent
    if magnitude > 400 then Float.ofBits (UInt64.ofNat infinityBits)
    else if magnitude < -400 then 0
    else if exponent < 0 then nearestFloat mantissa (Nat.pow 10 exponent.natAbs)
    else nearestFloat (mantissa * Nat.pow 10 exponent.natAbs) 1

/-- An optional sign and the rest; true stands for minus. -/
def splitSign : List Char → Bool × List Char
  | '-' :: rest => (true, rest)
  | '+' :: rest => (false, rest)
  | chars => (false, chars)

/-- The exponent after `e`: an optional sign and at least one digit, to the end. -/
def readExponent (chars : List Char) : Option Int :=
  let (negative, digits) := splitSign chars
  if digits.isEmpty ∨ !digits.all Char.isDigit then none
  else some (if negative then -(naturalOf digits : Int) else naturalOf digits)

def readMagnitude (chars : List Char) : Option Float :=
  let whole := chars.takeWhile Char.isDigit
  let afterWhole := chars.dropWhile Char.isDigit
  let (fraction, afterFraction) := match afterWhole with
    | '.' :: rest => (rest.takeWhile Char.isDigit, rest.dropWhile Char.isDigit)
    | rest => ([], rest)
  if whole.isEmpty ∧ fraction.isEmpty then none
  else
    let value (exponent : Int) : Float :=
      nearestDecimal (naturalOf (whole ++ fraction)) (exponent - fraction.length)
    match afterFraction with
    | [] => some (value 0)
    | c :: rest => if c = 'e' ∨ c = 'E' then (readExponent rest).map value else none

def readFloat? (text : List Char) : Option Float :=
  let (negative, body) := splitSign text
  let magnitude? :=
    match body.map Char.toLower with
    | ['i', 'n', 'f'] | ['i', 'n', 'f', 'i', 'n', 'i', 't', 'y'] =>
        some (Float.ofBits (UInt64.ofNat infinityBits))
    | ['n', 'a', 'n'] => some (Float.ofBits 0x7ff8000000000000)
    | _ => readMagnitude body
  magnitude?.map fun magnitude => if negative then -magnitude else magnitude

end SandboxedGo.Decimal
