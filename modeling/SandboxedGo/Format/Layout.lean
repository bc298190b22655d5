import SandboxedGo.Decimal.Reader
import SandboxedGo.Format.FloatText
import SandboxedGo.Text.Quoted

/-!
# Format texts

A format text is read as a list of pieces: characters that stand for themselves, and directives
that print an operand.  Widths and precisions that are too large are ignored.
-/

set_option autoImplicit false

namespace SandboxedGo.Format

inductive Measure
  | absent
  | given (n : Nat)
  /-- The next operand says it. -/
  | operand
  deriving DecidableEq, Repr

structure Flags where
  minus : Bool := false
  plus : Bool := false
  sharp : Bool := false
  space : Bool := false
  zero : Bool := false
  deriving DecidableEq, Repr

inductive Piece
  | literal (c : Char)
  | directive (flags : Flags) (width precision : Measure) (verb : Char)
  /-- A directive that the text ends in; it may still ask for operands. -/
  | unfinished (width precision : Measure)
  deriving DecidableEq, Repr

namespace Piece

def measureLimit : Nat := 1000000

def takeFlags (flags : Flags) : List Char → Flags × List Char
  | '-' :: rest => takeFlags { flags with minus := true } rest
  | '+' :: rest => takeFlags { flags with plus := true } rest
  | '#' :: rest => takeFlags { flags with sharp := true } rest
  | ' ' :: rest => takeFlags { flags with space := true } rest
  | '0' :: rest => takeFlags { flags with zero := true } rest
  | rest => (flags, rest)

def takeNumber (chars : List Char) : Option Nat × List Char :=
  let digits := chars.takeWhile Char.isDigit
  let n := Decimal.naturalOf digits
  (if digits.isEmpty || measureLimit < n then none else some n, chars.dropWhile Char.isDigit)

def takeWidth : List Char → Measure × List Char
  | '*' :: rest => (.operand, rest)
  | chars =>
    match takeNumber chars with
    | (some n, rest) => (.given n, rest)
    | (none, rest) => (.absent, rest)

/-- The precision behind a point; no number means zero. -/
def takePrecision : List Char → Measure × List Char
  | '.' :: '*' :: rest => (.operand, rest)
  | '.' :: chars =>
    let (n, rest) := takeNumber chars
    (.given (n.getD 0), rest)
  | chars => (.absent, chars)

/-- The directive behind a percent sign, and the rest. -/
def takeDirective (chars : List Char) : Piece × List Char :=
  let (flags, chars) := takeFlags {} chars
  let (width, chars) := takeWidth chars
  let (precision, chars) := takePrecision chars
  match chars with
  | [] => (.unfinished width precision, [])
  | verb :: rest => (.directive flags width precision verb, rest)

/-! Nothing is added to the text by taking something off it. -/

theorem length_takeFlags (flags : Flags) (chars : List Char) :
    (takeFlags flags chars).2.length ≤ chars.length := by
  fun_induction takeFlags flags chars <;> simp_all <;> omega

theorem length_dropWhile_le (p : Char → Bool) (chars : List Char) :
    (chars.dropWhile p).length ≤ chars.length :=
  (List.dropWhile_sublist p).length_le

theorem length_takeWidth (chars : List Char) :
    (takeWidth chars).2.length ≤ chars.length := by
  unfold takeWidth
  split
  · simp
  · have h := length_dropWhile_le Char.isDigit chars
    simp only [takeNumber]
    split <;> simp_all

theorem length_takePrecision (chars : List Char) :
    (takePrecision chars).2.length ≤ chars.length := by
  unfold takePrecision
  split
  · simp
    omega
  · rename_i rest _
    have h := length_dropWhile_le Char.isDigit rest
    simp only [takeNumber, List.length_cons]
    omega
  · simp

theorem length_takeDirective (chars : List Char) :
    (takeDirective chars).2.length ≤ chars.length := by
  have h₁ := length_takeFlags {} chars
  have h₂ := length_takeWidth (takeFlags {} chars).2
  have h₃ := length_takePrecision (takeWidth (takeFlags {} chars).2).2
  simp only [takeDirective]
  split
  · simp_all
  · simp_all
    omega

def ofText : List Char → List Piece
  | [] => []
  | c :: rest =>
    if c = '%' then
      (takeDirective rest).1 :: ofText (takeDirective rest).2
    else .literal c :: ofText rest
termination_by chars => chars.length
decreasing_by
  · have := length_takeDirective rest
    simp
    omega
  · simp

end Piece

/-! ## Padding -/

/-- A directive with its measures known. -/
structure Spec where
  flags : Flags := {}
  width : Option Nat := none
  precision : Option Nat := none

/-- A number with its sign shown where the flags ask for it. -/
def signed (text : List Char) (nonNegative : Bool) (flags : Flags) : List Char :=
  if nonNegative && text.head? ≠ some '+' then
    if flags.plus then '+' :: text else if flags.space then ' ' :: text else text
  else text

/-- A text filled up to a width: with blanks, or with zeros behind the sign. -/
def pad (body : List Char) (spec : Spec) (zeroAllowed : Bool) : List Char :=
  match spec.width with
  | none => body
  | some width =>
    let fill := width - body.length
    if spec.flags.minus then body ++ List.replicate fill ' '
    else if spec.flags.zero && zeroAllowed && fill ≠ 0 then
      match body with
      | c :: rest =>
        if c = '-' || c = '+' || c = ' ' then c :: List.replicate fill '0' ++ rest
        else List.replicate fill '0' ++ body
      | [] => List.replicate fill '0'
    else List.replicate fill ' ' ++ body

/-! ## Numbers -/

def capitals (digits : List Char) : List Char := digits.map Char.toUpper

/-- An integer in base two, eight or sixteen, with the mark of the base if it is asked for. -/
def radixText (n : Int64) (base : Nat) (upper : Bool) (flags : Flags) : List Char :=
  let digits := Text.digitsIn base 1 n.toInt.natAbs
  let mark :=
    if !flags.sharp then []
    else if base = 2 then ['0', 'b']
    else if base = 8 then ['0']
    else if upper then ['0', 'X'] else ['0', 'x']
  let sign := if n < 0 then ['-'] else if flags.plus then ['+'] else []
  sign ++ mark ++ (if upper then capitals digits else digits)

/-- Two digits in base sixteen for each byte of a text. -/
def hexBytes (text : String) (upper : Bool) : List Char :=
  let digits := (Text.bytesOf text).flatMap fun b => Text.digitsIn 16 2 b.toNat
  if upper then capitals digits else digits

def codePointText (n : Int64) : List Char :=
  ['U', '+'] ++ capitals (Text.digitsIn 16 4 n.toUInt64.toNat)

end SandboxedGo.Format
