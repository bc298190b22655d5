import Mathlib.Algebra.Group.Int.Defs
import SandboxedGo.Decimal.Reader
import SandboxedGo.Json
import SandboxedGo.Text.Character
import SandboxedGo.Text.Digits

/-!
# Reading JSON texts

The grammar that all readers of JSON agree on: literals, numbers, texts with escapes, arrays and
objects, with blanks around each of them.  The entries of an object are read as they are written.
An integer of 64 bits is read as an integer, any other number as the nearest float.

Every reader takes the characters from its place on, and gives the characters behind what it read.
-/

set_option autoImplicit false

namespace SandboxedGo.Json

def skipBlanks (text : List Char) : List Char :=
  text.dropWhile fun c => c = ' ' || c = '\t' || c = '\n' || c = '\r'

/-! ## Texts -/

def codeUnit? : List Char → Option (Nat × List Char)
  | a :: b :: c :: d :: rest => (Text.numberIn? 16 [a, b, c, d]).map fun unit => (unit, rest)
  | _ => none

/-- The character that the code unit behind `\u` stands for, or that two of them stand for which
form a pair; one of a pair alone stands for none. -/
def unitChar? (text : List Char) : Option (Char × List Char) := do
  let (unit, rest) ← codeUnit? text
  if 0xD800 ≤ unit ∧ unit < 0xDC00 then
    match rest with
    | '\\' :: 'u' :: rest =>
      let (second, rest) ← codeUnit? rest
      if 0xDC00 ≤ second ∧ second < 0xE000 then
        let code := 0x10000 + (unit - 0xD800) * 0x400 + (second - 0xDC00)
        return (← Text.charOfCode? code, rest)
      else none
    | _ => none
  else return (← Text.charOfCode? unit, rest)

/-- The character that an escape stands for, behind its backslash. -/
def escapedChar? : List Char → Option (Char × List Char)
  | '"' :: rest => some ('"', rest)
  | '\\' :: rest => some ('\\', rest)
  | '/' :: rest => some ('/', rest)
  | 'b' :: rest => some ('\x08', rest)
  | 'f' :: rest => some ('\x0c', rest)
  | 'n' :: rest => some ('\n', rest)
  | 'r' :: rest => some ('\r', rest)
  | 't' :: rest => some ('\t', rest)
  | 'u' :: rest => unitChar? rest
  | _ => none

/-- One character of a text; control characters have to be escaped. -/
def textChar? : List Char → Option (Char × List Char)
  | '\\' :: rest => escapedChar? rest
  | c :: rest => if c.toNat < 0x20 then none else some (c, rest)
  | [] => none

/-- A text of fewer than `rounds` characters, behind its opening quote. -/
def quotedWithin : (rounds : Nat) → List Char → Option (List Char × List Char)
  | 0, _ => none
  | rounds + 1, text =>
    match text with
    | '"' :: rest => some ([], rest)
    | _ => do
      let (c, rest) ← textChar? text
      let (more, rest) ← quotedWithin rounds rest
      return (c :: more, rest)

def quoted? (text : List Char) : Option (String × List Char) :=
  (quotedWithin text.length text).map fun (chars, rest) => (String.ofList chars, rest)

/-! ## Numbers -/

/-- Digits, at least one of them. -/
def digits? (text : List Char) : Option (List Char × List Char) :=
  let digits := text.takeWhile Char.isDigit
  if digits.isEmpty then none else some (digits, text.dropWhile Char.isDigit)

/-- The digits in front of the point, without needless zeros. -/
def whole? (text : List Char) : Option (List Char × List Char) := do
  let (digits, rest) ← digits? text
  if digits.head? = some '0' ∧ digits.length ≠ 1 then none else return (digits, rest)

def fraction? : List Char → Option (List Char × List Char)
  | '.' :: rest => digits? rest
  | rest => some ([], rest)

def exponent? (text : List Char) : Option (Option Int × List Char) :=
  match text with
  | [] => some (none, [])
  | c :: behind =>
    if c = 'e' ∨ c = 'E' then do
      let (negative, behind) := Decimal.splitSign behind
      let (digits, rest) ← digits? behind
      let n : Int := Decimal.naturalOf digits
      return (some (if negative then -n else n), rest)
    else some (none, text)

def ofDigits? (negative : Bool) (whole fraction : List Char) (exponent : Option Int) :
    Option Json :=
  let n : Int := if negative then -(Decimal.naturalOf whole : Int) else Decimal.naturalOf whole
  if fraction.isEmpty ∧ exponent.isNone ∧ -2 ^ 63 ≤ n ∧ n < 2 ^ 64 then some (.int n)
  else
    let magnitude := Decimal.nearestDecimal (Decimal.naturalOf (whole ++ fraction))
      (exponent.getD 0 - fraction.length)
    if magnitude.isFinite then some (.float (if negative then -magnitude else magnitude)) else none

def unsigned? (negative : Bool) (text : List Char) : Option (Json × List Char) := do
  let (whole, rest) ← whole? text
  let (fraction, rest) ← fraction? rest
  let (exponent, rest) ← exponent? rest
  return (← ofDigits? negative whole fraction exponent, rest)

def number? : List Char → Option (Json × List Char)
  | '-' :: rest => unsigned? true rest
  | text => unsigned? false text

/-! ## Arrays and objects -/

section Lists

variable {α : Type} (item? : List Char → Option (α × List Char)) (close : Char)

/-- Items with commas between them and a closing bracket, at most `rounds` of them. -/
def itemsWithin : (rounds : Nat) → List Char → Option (List α × List Char)
  | 0, _ => none
  | rounds + 1, text => do
    let (item, rest) ← item? (skipBlanks text)
    match skipBlanks rest with
    | [] => none
    | c :: rest =>
      if c = close then return ([item], rest)
      else if c = ',' then
        let (more, rest) ← itemsWithin rounds rest
        return (item :: more, rest)
      else none

def items? (text : List Char) : Option (List α × List Char) :=
  match skipBlanks text with
  | [] => none
  | c :: rest => if c = close then some ([], rest) else itemsWithin item? close text.length text

end Lists

def member? (value? : List Char → Option (Json × List Char)) :
    List Char → Option ((String × Json) × List Char)
  | '"' :: rest => do
    let (key, rest) ← quoted? rest
    match skipBlanks rest with
    | ':' :: rest =>
      let (j, rest) ← value? (skipBlanks rest)
      return ((key, j), rest)
    | _ => none
  | _ => none

/-! ## Documents -/

/-- A document that is fewer than `depth` documents deep. -/
def valueWithin : (depth : Nat) → List Char → Option (Json × List Char)
  | 0, _ => none
  | depth + 1, text =>
    match text with
    | 'n' :: 'u' :: 'l' :: 'l' :: rest => some (.null, rest)
    | 't' :: 'r' :: 'u' :: 'e' :: rest => some (.bool true, rest)
    | 'f' :: 'a' :: 'l' :: 's' :: 'e' :: rest => some (.bool false, rest)
    | '"' :: rest => (quoted? rest).map fun (s, rest) => (.string s, rest)
    | '[' :: rest =>
      (items? (valueWithin depth) ']' rest).map fun (items, rest) => (.array items, rest)
    | '\x7b' :: rest =>
      (items? (member? (valueWithin depth)) '\x7d' rest).map fun (entries, rest) =>
        (.object entries, rest)
    | _ => number? text

def ofText? (text : String) : Option Json :=
  match valueWithin text.toList.length (skipBlanks text.toList) with
  | some (j, rest) => if (skipBlanks rest).isEmpty then some j else none
  | none => none

example : ofText? " [1, \x7b\"b\" : -20, \"a\":\"\\u0041\\/\"\x7d, [ ]]" =
    some (.array [.int 1, .object [("b", .int (-20)), ("a", .string "A/")], .array []]) := by rfl

example : ofText? "\"\\ud83d\"" = none := by rfl

end SandboxedGo.Json
