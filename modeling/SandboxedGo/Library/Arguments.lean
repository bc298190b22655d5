import SandboxedGo.Eval.Conversion
import SandboxedGo.Library.Catalog

/-!
# Arguments of library functions

The library checks the number of arguments and the kind of each one when it uses them.
-/

set_option autoImplicit false

namespace SandboxedGo.Library

/-- Refuse a call without exactly `wanted` arguments. -/
def checkCount (f : Function) (arguments : List Value) (wanted : Nat) : Eval Unit :=
  if arguments.length = wanted then pure ()
  else Eval.error (.libraryArgumentCount f.label arguments.length wanted)

def argument (f : Function) (arguments : List Value) (place : Nat) : Eval Value :=
  match arguments[place]? with
  | some v => pure v
  | none => Eval.error (.libraryTooFew f.label)

def textArgument (f : Function) (arguments : List Value) (place : Nat) : Eval String := do
  match ← argument f arguments place with
  | .string s => return s
  | other => Eval.error (.libraryArgument (← Eval.typeName other) "string" f.label)

def intArgument (f : Function) (arguments : List Value) (place : Nat) : Eval Int64 := do
  Eval.asInt (← argument f arguments place)

def floatArgument (f : Function) (arguments : List Value) (place : Nat) : Eval Float := do
  Eval.asFloat (← argument f arguments place)

/-- The only argument, a text. -/
def oneText (f : Function) (arguments : List Value) : Eval String := do
  checkCount f arguments 1
  textArgument f arguments 0

/-- The only two arguments, texts. -/
def twoTexts (f : Function) (arguments : List Value) : Eval (String × String) := do
  checkCount f arguments 2
  let first ← textArgument f arguments 0
  return (first, ← textArgument f arguments 1)

def success (v : Value) : Value := .tuple [v, .nil]

def lengthValue (s : String) : Value := .int (Int64.ofNat s.utf8ByteSize)

def countValue (n : Nat) : Value := .int (Int64.ofNat n)

/-- The character with the low half of a number as its code point, if there is one. -/
def runeOf? (n : Int64) : Option Char := Text.charOfCode? n.toUInt64.toUInt32.toNat

end SandboxedGo.Library
