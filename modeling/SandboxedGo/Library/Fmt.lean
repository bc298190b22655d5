import SandboxedGo.Eval.Methods
import SandboxedGo.Format.Printing
import SandboxedGo.Library.Arguments

/-!
# Printing functions

Printing to the output streams, to a text and to a string builder, and errors made from a format
text.
-/

set_option autoImplicit false

namespace SandboxedGo.Library.FmtFunction

/-- Write to a stream; the number of bytes is the result. -/
def written (stream : Stream) (text : String) : Eval Value := do
  Eval.write stream text
  return success (lengthValue text)

/-- Write to what the program names as the destination. -/
def emit (destination : Value) (text : String) : Eval Value := do
  let refuse : Eval Value := do Eval.error (.notWriter (← Eval.typeName destination))
  match destination with
  | .stream stream => written stream text
  | .struct o | .pointer o =>
    if (← Eval.viewStore (·.structName o)) = builderType then
      Eval.appendBuilt o text
      return success (lengthValue text)
    else refuse
  | _ => refuse

/-- The operand that the first directive for a wrapped error asks for, behind `index` operands;
`inside` tells whether the text begins within a directive. -/
def wrappedPlaceFrom : (inside : Bool) → (index : Nat) → List Char → Option Nat
  | _, _, [] => none
  | false, index, '%' :: '%' :: rest => wrappedPlaceFrom false index rest
  | false, index, c :: rest => wrappedPlaceFrom (c = '%') index rest
  | true, index, c :: rest =>
    if c = '*' then wrappedPlaceFrom true (index + 1) rest
    else if c.isDigit || ['+', '-', '#', ' ', '.'].contains c then
      wrappedPlaceFrom true index rest
    else if c = 'w' then some index
    else wrappedPlaceFrom false (index + 1) rest

/-- The operand that the first directive for a wrapped error asks for. -/
def wrappedPlace (format : String) : Option Nat := wrappedPlaceFrom false 0 format.toList

def errorOf (format : String) (operands : List Value) : Eval Value := do
  let message ← Format.sprintf format operands
  let wrapped := ((wrappedPlace format).bind (operands[·]?)).filter (!·.isNil)
  Eval.newError message wrapped

def splitDestination (f : FmtFunction) (arguments : List Value) : Eval (Value × List Value) := do
  return (← argument (.fmt f) arguments 0, arguments.drop 1)

def formatted (f : FmtFunction) (arguments : List Value) : Eval String := do
  let format ← textArgument (.fmt f) arguments 0
  Format.sprintf format (arguments.drop 1)

def call (f : FmtFunction) (arguments : List Value) : Eval Value := do
  match f with
  | println => written .stdout (← Format.sprintln arguments)
  | print => written .stdout (← Format.sprint arguments)
  | printf => written .stdout (← formatted f arguments)
  | sprintln => return .string (← Format.sprintln arguments)
  | sprint => return .string (← Format.sprint arguments)
  | sprintf => return .string (← formatted f arguments)
  | errorf => errorOf (← textArgument (.fmt f) arguments 0) (arguments.drop 1)
  | fprintln =>
    let (destination, operands) ← splitDestination f arguments
    emit destination (← Format.sprintln operands)
  | fprint =>
    let (destination, operands) ← splitDestination f arguments
    emit destination (← Format.sprint operands)
  | fprintf =>
    let (destination, operands) ← splitDestination f arguments
    emit destination (← formatted f operands)

end SandboxedGo.Library.FmtFunction
