import SandboxedGo.Library.Arguments
import SandboxedGo.Text.Case

/-!
# Functions on characters

A number stands for the character whose code point is its low half; some numbers stand for none.
-/

set_option autoImplicit false

namespace SandboxedGo.Library

/-- Digits are the ten of the basic alphabet and all numeric characters outside it. -/
def isDigit (c : Char) : Bool := c.isDigit || (0x80 ≤ c.toNat && Text.isNumeric c)

/-- The punctuation of the basic alphabet, which excludes signs of arithmetic and the like. -/
def basicPunctuation : List Char :=
  ['!', '"', '#', '%', '&', '\'', '(', ')', '*', ',', '-', '.', '/', ':', ';', '?', '@', '[', '\\',
   ']', '_', '\x7b', '\x7d']

/-- Outside the basic alphabet every character that is nothing else is punctuation. -/
def isPunctuation (c : Char) : Bool :=
  if c.toNat < 0x80 then basicPunctuation.contains c
  else !(Text.isAlphanumeric c || Text.isBlank c || Text.isControl c)

def runeArgument? (f : Function) (arguments : List Value) : Eval (Option Char) := do
  checkCount f arguments 1
  return runeOf? (← intArgument f arguments 0)

namespace UnicodeFunction

def class? : UnicodeFunction → Option (Char → Bool)
  | isLetter => some Text.isAlphabetic
  | isDigit => some Library.isDigit
  | isNumber => some Text.isNumeric
  | isSpace => some Text.isBlank
  | isUpper => some Text.isUpper
  | isLower => some Text.isLower
  | isPunct => some isPunctuation
  | isControl => some Text.isControl
  | toUpper | toLower => none

def changed (map : Text.CaseMap) (f : Function) (arguments : List Value) : Eval Value := do
  match ← runeArgument? f arguments with
  | some c => return countValue ((map.apply c).headD c).toNat
  | none => argument f arguments 0

def call (f : UnicodeFunction) (arguments : List Value) : Eval Value := do
  let self : Function := .unicode f
  match class? f with
  | some holds => return .bool ((← runeArgument? self arguments).any holds)
  | none =>
    match f with
    | toUpper => changed Text.CaseMap.upper self arguments
    | _ => changed Text.CaseMap.lower self arguments

end UnicodeFunction

namespace Utf8Function

def call (f : Utf8Function) (arguments : List Value) : Eval Value := do
  let self : Function := .utf8 f
  match f with
  | runeCountInString => return countValue (← oneText self arguments).length
  | runeLen =>
    match ← runeArgument? self arguments with
    | some c => return countValue c.utf8Size
    | none => return .int (-1)
  | validString => return .bool !((← oneText self arguments).toList.contains Text.replacement)

end Utf8Function

end SandboxedGo.Library
