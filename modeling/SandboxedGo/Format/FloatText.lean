import SandboxedGo.Decimal.Scientific

/-!
# Floats as text

The forms of a float in the output of guest programs: positional, with an exponent, and the shorter
of the two.  An absent precision asks for the fewest digits that read back.
-/

set_option autoImplicit false

namespace SandboxedGo.Format

open Decimal

inductive FloatForm
  | exponent (upper : Bool)
  | fixed
  | general (upper : Bool)
  deriving DecidableEq, Repr

namespace FloatForm

/-- The form of a verb; verbs without a form of their own have the general one. -/
def ofVerb (verb : Char) : FloatForm :=
  match verb with
  | 'e' => exponent false
  | 'E' => exponent true
  | 'f' | 'F' => fixed
  | 'G' => general true
  | _ => general false

end FloatForm

def nonFinite? (f : Float) : Option String :=
  if f.isNaN then some "NaN"
  else if f.isInf then some (if signBit f then "-Inf" else "+Inf")
  else none

/-- An exponent: its mark, its sign and at least two digits. -/
def exponentText (upper : Bool) (exponent : Int) : List Char :=
  let digits := digitsOf exponent.natAbs
  (if upper then 'E' else 'e') :: (if exponent < 0 then '-' else '+') ::
    List.replicate (2 - digits.length) '0' ++ digits

def mantissaText : List Char → List Char
  | [] => []
  | [d] => [d]
  | d :: rest => d :: '.' :: rest

def exponentForm (f : Float) (precision : Option Nat) (upper : Bool) : List Char :=
  let x := match precision with
    | some places => Scientific.ofFloat f places
    | none => Scientific.shortest f
  mantissaText x.digits ++ exponentText upper x.exponent

def dropTrailingZeros (digits : List Char) : List Char :=
  match (digits.reverse.dropWhile (· = '0')).reverse with
  | [] => ['0']
  | rest => rest

/-- The magnitude of a finite float, with an exponent if it is less than `-4` or not less than the
precision; the precision counts all digits. -/
def generalForm (f : Float) (precision : Option Nat) (upper : Bool) : List Char :=
  if f == 0 then ['0']
  else
    let x := match precision with
      | some p =>
        let rounded := Scientific.ofFloat f (max p 1 - 1)
        { rounded with digits := dropTrailingZeros rounded.digits }
      | none => Scientific.shortest f
    let limit : Int := match precision with
      | some p => max p 1
      | none => 6
    if x.exponent < -4 ∨ limit ≤ x.exponent then
      mantissaText x.digits ++ exponentText upper x.exponent
    else placePoint x

def floatText (f : Float) (form : FloatForm) (precision : Option Nat) : String :=
  match nonFinite? f with
  | some text => text
  | none =>
    let body := match form with
      | .exponent upper => exponentForm f precision upper
      | .fixed =>
        match precision with
        | some places => fixedPlaces f places
        | none => shortestPositional f
      | .general upper => generalForm f precision upper
    String.ofList (if signBit f then '-' :: body else body)

def floatValue (f : Float) : String := floatText f (.general false) none

/-- A float as the predeclared print functions write it: always signed, six places and at least
three digits of exponent. -/
def builtinFloat (f : Float) : String :=
  match nonFinite? f with
  | some text => text
  | none =>
    let x := Scientific.ofFloat f 6
    let digits := digitsOf x.exponent.natAbs
    String.ofList
      ((if signBit f then '-' else '+') :: mantissaText x.digits ++
        'e' :: (if x.exponent < 0 then '-' else '+') ::
          List.replicate (3 - digits.length) '0' ++ digits)

end SandboxedGo.Format
