import SandboxedGo.Decimal.Reader
import SandboxedGo.Text.Digits
import SandboxedGo.Toml

/-!
# Numbers, dates and words in TOML

Everything that is written without quotes and brackets.  Integers have sixty-four bits; a float may
not be too large to be written.
-/

set_option autoImplicit false

namespace SandboxedGo.Toml

/-- The digits of a number without the underscores between them; none if one of the characters is
no digit or an underscore does not stand between digits. -/
def joinDigits? (isDigit : Char → Bool) : List Char → Option (List Char)
  | [] => none
  | [c] => if isDigit c then some [c] else none
  | c :: '_' :: rest => if isDigit c then (joinDigits? isDigit rest).map (c :: ·) else none
  | c :: rest => if isDigit c then (joinDigits? isDigit rest).map (c :: ·) else none

def isHexDigit (c : Char) : Bool := (Text.digitValue? 16 c).isSome

/-- Whether digits are written without needless zeros in front. -/
def isPlain (digits : List Char) : Bool := digits.length = 1 || digits.head? ≠ some '0'

def intInRange? (n : Int) : Option Toml :=
  if -0x8000000000000000 ≤ n ∧ n < 0x8000000000000000 then some (.int n) else none

def basedInt? (base : Nat) (chars : List Char) : Option Toml := do
  let digits ← joinDigits? (fun c => (Text.digitValue? base c).isSome) chars
  intInRange? (← Text.numberIn? base digits)

def decimalInt? (chars : List Char) : Option Toml := do
  let (negative, body) := Decimal.splitSign chars
  let digits ← joinDigits? Char.isDigit body
  if !isPlain digits then none
  let n : Int := Decimal.naturalOf digits
  intInRange? (if negative then -n else n)

def int? (chars : List Char) : Option Toml :=
  match chars with
  | '0' :: 'x' :: digits => basedInt? 16 digits
  | '0' :: 'o' :: digits => basedInt? 8 digits
  | '0' :: 'b' :: digits => basedInt? 2 digits
  | chars => decimalInt? chars

/-- The text of an exponent without underscores, with its `e`. -/
def exponentText? (chars : List Char) : Option (List Char) :=
  match chars with
  | [] => some []
  | '+' :: digits => (joinDigits? Char.isDigit digits).map fun d => 'e' :: '+' :: d
  | '-' :: digits => (joinDigits? Char.isDigit digits).map fun d => 'e' :: '-' :: d
  | digits => (joinDigits? Char.isDigit digits).map ('e' :: ·)

/-- The text of a number without sign and underscores, if it has a fraction or an exponent. -/
def floatText? (body : List Char) : Option (List Char) := do
  let isMark (c : Char) : Bool := c = 'e' || c = 'E'
  let mantissa := body.takeWhile fun c => !isMark c
  let marked := body.dropWhile fun c => !isMark c
  let whole ← joinDigits? Char.isDigit (mantissa.takeWhile (· ≠ '.'))
  if !isPlain whole then none
  let fraction ← match mantissa.dropWhile (· ≠ '.') with
    | [] => some []
    | point :: digits => (joinDigits? Char.isDigit digits).map (point :: ·)
  let exponent ← match marked with
    | [] => some []
    | [_] => none
    | _ :: rest => exponentText? rest
  if fraction.isEmpty && exponent.isEmpty then none
  return whole ++ fraction ++ exponent

def float? (chars : List Char) : Option Toml := do
  let (negative, body) := Decimal.splitSign chars
  if body = "inf".toList || body = "nan".toList then
    return .float (← Decimal.readFloat? chars)
  let magnitude ← Decimal.readFloat? (← floatText? body)
  let value := if negative then -magnitude else magnitude
  if value.isInf && !negative then none else some (.float value)

/-! ## Dates and times -/

/-- The number that exactly `width` digits at the beginning write, if it is in a range, and the
rest. -/
def fixedNumber? (width low high : Nat) (chars : List Char) : Option (Nat × List Char) :=
  let digits := chars.take width
  if digits.length = width && digits.all Char.isDigit then
    let n := Decimal.naturalOf digits
    if low ≤ n && n ≤ high then some (n, chars.drop width) else none
  else none

def afterChar? (c : Char) : List Char → Option (List Char)
  | d :: rest => if d = c then some rest else none
  | [] => none

def isLeapYear (year : Nat) : Bool := year % 4 = 0 && (year % 100 ≠ 0 || year % 400 = 0)

def daysIn (year month : Nat) : Nat :=
  if month = 2 then if isLeapYear year then 29 else 28
  else if month = 4 || month = 6 || month = 9 || month = 11 then 30
  else 31

def afterDate? (chars : List Char) : Option (List Char) := do
  let (year, rest) ← fixedNumber? 4 0 9999 chars
  let (month, rest) ← fixedNumber? 2 1 12 (← afterChar? '-' rest)
  let (_, rest) ← fixedNumber? 2 1 (daysIn year month) (← afterChar? '-' rest)
  return rest

def afterTime? (chars : List Char) : Option (List Char) := do
  let (_, rest) ← fixedNumber? 2 0 23 chars
  let (_, rest) ← fixedNumber? 2 0 59 (← afterChar? ':' rest)
  let (_, rest) ← fixedNumber? 2 0 60 (← afterChar? ':' rest)
  match rest with
  | '.' :: places =>
    if (places.takeWhile Char.isDigit).isEmpty then none else some (places.dropWhile Char.isDigit)
  | rest => some rest

/-- Whether a text is an offset from universal time, or empty. -/
def isOffset (chars : List Char) : Bool :=
  match chars with
  | [] => true
  | [c] => c = 'Z' || c = 'z'
  | sign :: rest =>
    (sign = '+' || sign = '-') &&
      (do
        let (_, rest) ← fixedNumber? 2 0 23 rest
        let (_, rest) ← fixedNumber? 2 0 59 (← afterChar? ':' rest)
        return rest : Option (List Char)) = some []

def isOffsetTime (chars : List Char) : Bool := (afterTime? chars).any isOffset

def isDate (chars : List Char) : Bool := afterDate? chars = some []

def isDateOrTime (chars : List Char) : Bool :=
  afterTime? chars = some [] ||
    (match afterDate? chars with
     | some [] => true
     | some (c :: time) => (c = 'T' || c = 't') && isOffsetTime time
     | none => false)

def scalar? (word : List Char) : Option Toml :=
  if word = "true".toList then some (.bool true)
  else if word = "false".toList then some (.bool false)
  else if isDateOrTime word then some .date
  else int? word <|> float? word

end SandboxedGo.Toml
