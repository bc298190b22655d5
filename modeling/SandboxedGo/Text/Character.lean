import SandboxedGo.Text.CharClass.Casing
import SandboxedGo.Text.CharClass.Display
import SandboxedGo.Text.CharClass.Words

/-!
# Questions about one character

Names for the classes that the rest of the library asks about, and the conversion of a code point
to a character.
-/

set_option autoImplicit false

namespace SandboxedGo.Text

def isAlphabetic (c : Char) : Bool := CharClass.alphabetic.contains c
def isNumeric (c : Char) : Bool := CharClass.numeric.contains c
def isAlphanumeric (c : Char) : Bool := isAlphabetic c || isNumeric c
def isBlank (c : Char) : Bool := CharClass.blank.contains c
def isUpper (c : Char) : Bool := CharClass.uppercase.contains c
def isLower (c : Char) : Bool := CharClass.lowercase.contains c

def isControl (c : Char) : Bool := c.toNat < 0x20 || (0x7f ≤ c.toNat && c.toNat < 0xa0)

/-- The character that stands for a code point or byte sequence that is none. -/
def replacement : Char := '\ufffd'

/-- The character with the given code point; surrogates and numbers out of range have none. -/
def charOfCode? (code : Nat) : Option Char :=
  if h : code.isValidChar then some (Char.ofNatAux code h) else none

/-- The character with the given code point, or the replacement character. -/
def charOfCode (code : Nat) : Char := (charOfCode? code).getD replacement

def trim (chars : List Char) : List Char :=
  ((chars.dropWhile isBlank).reverse.dropWhile isBlank).reverse

end SandboxedGo.Text
