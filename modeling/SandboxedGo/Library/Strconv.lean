import SandboxedGo.Decimal.Reader
import SandboxedGo.Format.Layout
import SandboxedGo.Library.Arguments
import SandboxedGo.Types.NumberWidth

/-!
# Numbers as texts

Reading integers in any base with a range, reading floats, and writing both.
-/

set_option autoImplicit false

namespace SandboxedGo.Library

/-! ## Integers -/

inductive NumberFault
  | invalidSyntax | outOfRange | invalidBase
  deriving DecidableEq, Repr

namespace NumberFault

def message : NumberFault → String
  | invalidSyntax => "invalid syntax"
  | outOfRange => "value out of range"
  | invalidBase => "invalid base"

end NumberFault

/-- Magnitudes from here on are not read to their end. -/
def magnitudeLimit : Nat := Nat.pow 2 128

/-- The number that digits write behind the number `read`; none inside if it becomes too large
before a character that is no digit. -/
def magnitude (base : Nat) (read : Nat) : List Char → Except NumberFault Nat
  | [] => .ok read
  | c :: rest =>
    match Text.digitValue? base c with
    | none => .error .invalidSyntax
    | some d =>
      if base * read + d < magnitudeLimit then magnitude base (base * read + d) rest
      else .error .outOfRange

/-- The base that a text begins with, its digits, and whether the digits may be separated. -/
def splitBase (body : List Char) : Nat × List Char × Bool :=
  match body with
  | '0' :: 'x' :: rest | '0' :: 'X' :: rest => (16, rest, true)
  | '0' :: 'b' :: rest | '0' :: 'B' :: rest => (2, rest, true)
  | '0' :: 'o' :: rest | '0' :: 'O' :: rest => (8, rest, true)
  | '0' :: c :: rest => (8, c :: rest, true)
  | _ => (10, body, false)

/-- The integer of a number of bits that a text writes in a base; base zero takes the base from the
text.  A fault comes with the nearest integer there is. -/
def readInteger (text : List Char) (base bits : Nat) : Except (Int × NumberFault) Int :=
  let (negative, body) := Decimal.splitSign text
  let (base, digits, separated) := if base = 0 then splitBase body else (base, body, false)
  let digits := if separated then digits.filter (· ≠ '_') else digits
  if digits.isEmpty then .error (0, .invalidSyntax)
  else
    match magnitude base 0 digits with
    | .error .outOfRange =>
        .error (if negative then -0x8000000000000000 else 0x7fffffffffffffff, .outOfRange)
    | .error fault => .error (0, fault)
    | .ok n =>
      let limit : Nat := Nat.pow 2 (max 1 (min 64 bits) - 1)
      if negative then
        if limit < n then .error (-(limit : Int), .outOfRange) else .ok (-(n : Int))
      else if limit ≤ n then .error ((limit : Int) - 1, .outOfRange)
      else .ok n

def integerText (n : Int) (base : Nat) : List Char :=
  (if n < 0 then ['-'] else []) ++ Text.digitsIn base 1 n.natAbs

/-! ## Floats -/

/-- The float that a text writes; digits may be separated. -/
def readFloat (text : String) (single : Bool) : Except (Float × NumberFault) Float :=
  let chars := text.toList
  let cleaned := chars.filter (· ≠ '_')
  let wellFormed :=
    !chars.isEmpty && chars.head? ≠ some '_' && chars.getLast? ≠ some '_' &&
      chars.all fun c => c.isAlphanum || ['+', '-', '.', '_'].contains c
  match Decimal.readFloat? cleaned with
  | some f =>
    if !wellFormed then .error (0, .invalidSyntax)
    else
      let f := if single then toSingle f else f
      if f.isInf && !Text.containsText ['i', 'n', 'f'] (cleaned.map Char.toLower) then
        .error (f, .outOfRange)
      else .ok f
  | none => .error (0, .invalidSyntax)

def readBool? : String → Option Bool
  | "1" | "t" | "T" | "true" | "TRUE" | "True" => some true
  | "0" | "f" | "F" | "false" | "FALSE" | "False" => some false
  | _ => none

namespace StrconvFunction

def failed (f : StrconvFunction) (v : Value) (text : String) (fault : NumberFault) :
    Eval Value := do
  let message :=
    (Function.strconv f).label ++ ": parsing " ++ Text.quote text ++ ": " ++ fault.message
  return .tuple [v, ← Eval.newError message none]

def integerResult (f : StrconvFunction) (text : String)
    (result : Except (Int × NumberFault) Int) : Eval Value :=
  match result with
  | .ok n => pure (success (.int (Int64.ofInt n)))
  | .error (nearest, fault) => failed f (.int (Int64.ofInt nearest)) text fault

def floatVerb? (n : Int64) : Option Char :=
  (['b', 'e', 'E', 'f', 'g', 'G', 'x', 'X'].find? fun c => n.toInt = c.toNat)

def call (f : StrconvFunction) (arguments : List Value) : Eval Value := do
  let self : Function := .strconv f
  match f with
  | itoa =>
    checkCount self arguments 1
    return .string (toString (← intArgument self arguments 0).toInt)
  | atoi =>
    let s ← oneText self arguments
    integerResult f s (readInteger s.toList 10 64)
  | parseInt =>
    checkCount self arguments 3
    let s ← textArgument self arguments 0
    let base ← intArgument self arguments 1
    let bits ← intArgument self arguments 2
    if base = 1 || base < 0 || 36 < base then failed f (.int 0) s .invalidBase
    else
      let bits := if bits = 0 then 64 else bits.toUInt64.toUInt32.toNat
      integerResult f s (readInteger s.toList base.toInt.toNat bits)
  | parseFloat =>
    checkCount self arguments 2
    let s ← textArgument self arguments 0
    let bits ← intArgument self arguments 1
    match readFloat s (bits = 32) with
    | .ok x => return success (.float x)
    | .error (nearest, fault) => failed f (.float nearest) s fault
  | parseBool =>
    let s ← oneText self arguments
    match readBool? s with
    | some b => return success (.bool b)
    | none => failed f (.bool false) s .invalidSyntax
  | formatInt =>
    checkCount self arguments 2
    let n ← intArgument self arguments 0
    let base ← intArgument self arguments 1
    if base < 2 || 36 < base then Eval.panic .integerBase
    return .string (String.ofList (integerText n.toInt base.toInt.toNat))
  | formatFloat =>
    checkCount self arguments 4
    let x ← floatArgument self arguments 0
    let verb ← intArgument self arguments 1
    let precision ← intArgument self arguments 2
    let bits ← intArgument self arguments 3
    match floatVerb? verb with
    | none => Eval.error .floatFormat
    | some verb =>
      let x := if bits = 32 then toSingle x else x
      let places := precision.toUInt64.toUInt32.toInt32.toInt
      return .string (Format.floatText x (.ofVerb verb)
        (if places < 0 then none else some places.toNat))
  | formatBool =>
    checkCount self arguments 1
    let b ← Eval.asBool (← argument self arguments 0)
    return .string (if b then "true" else "false")
  | quote => return .string (Text.quote (← oneText self arguments))

end StrconvFunction

end SandboxedGo.Library
