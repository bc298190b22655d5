import SandboxedGo.Eval.Conversion
import SandboxedGo.Eval.Basic

/-!
# Operators

Integers are 64 bits wide and wrap around; where an integer meets a float, both are floats.
-/

set_option autoImplicit false

namespace SandboxedGo

open Source

namespace Operators

/-- An operator between two integers.  Only division by zero and negative shifts panic. -/
def intOp (op : BinaryOp) (a b : Int64) : Except Fault Int64 :=
  match op with
  | .add => .ok (a + b)
  | .sub => .ok (a - b)
  | .mul => .ok (a * b)
  | .div => if b = 0 then .error ⟨.panic .divisionByZero, rfl⟩ else .ok (a / b)
  | .rem => if b = 0 then .error ⟨.panic .divisionByZero, rfl⟩ else .ok (a % b)
  | .and => .ok (a &&& b)
  | .or => .ok (a ||| b)
  | .xor => .ok (a ^^^ b)
  | .andNot => .ok (a &&& ~~~b)
  | .shl =>
    if b < 0 then .error ⟨.panic .negativeShift, rfl⟩
    else .ok (if 64 ≤ b then 0 else a <<< b)
  | .shr =>
    if b < 0 then .error ⟨.panic .negativeShift, rfl⟩
    else .ok (if 64 ≤ b then (if a < 0 then -1 else 0) else a >>> b)
  | _ => .error ⟨.error (.operatorOn op.symbol "int"), rfl⟩

def floatOp (op : BinaryOp) (a b : Float) : Except Fault Float :=
  match op with
  | .add => .ok (a + b)
  | .sub => .ok (a - b)
  | .mul => .ok (a * b)
  | .div => .ok (a / b)
  | _ => .error ⟨.error (.operatorOn op.symbol "float64"), rfl⟩

/-- The order of two floats; none if one of them is not a number. -/
def floatOrder (a b : Float) : Option Ordering :=
  if a < b then some .lt
  else if b < a then some .gt
  else if a == b then some .eq
  else none

/-- The order of two numbers or two texts; `none` inside if they are not ordered, and outside if
they are not of such kinds. -/
def order? (a b : Value) : Option (Option Ordering) :=
  match a, b with
  | .int x, .int y => some (some (compare x y))
  | .string x, .string y => some (some (compare x y))
  | .int x, .float y => some (floatOrder x.toFloat y)
  | .float x, .int y => some (floatOrder x y.toFloat)
  | .float x, .float y => some (floatOrder x y)
  | _, _ => none

def comparisonHolds (op : BinaryOp) : Option Ordering → Bool
  | none => false
  | some o =>
    match op with
    | .lt => o == .lt
    | .le => o != .gt
    | .gt => o == .gt
    | _ => o != .lt

end Operators

namespace Eval

open Operators

def refuseOperands (op : BinaryOp) (a b : Value) : Eval Value := do
  let left ← typeName a
  error (.binaryOperator op.symbol left (← typeName b))

/-- An operator between two values; the logical ones are not operators on values. -/
def binary (op : BinaryOp) (a b : Value) : Eval Value := do
  match op with
  | .eq => return .bool (← equal a b)
  | .ne => return .bool !(← equal a b)
  | .lt | .le | .gt | .ge =>
    match order? a b with
    | some order => return .bool (comparisonHolds op order)
    | none => refuseOperands op a b
  | _ =>
    match a, b with
    | .int x, .int y => return .int (← ofExcept (intOp op x y))
    | .string x, .string y =>
      match op with
      | .add =>
        checkAlloc (x.utf8ByteSize + y.utf8ByteSize) .stringTooLong
        return .string (x ++ y)
      | _ => refuseOperands op a b
    | .int x, .float y => return .float (← ofExcept (floatOp op x.toFloat y))
    | .float x, .int y => return .float (← ofExcept (floatOp op x y.toFloat))
    | .float x, .float y => return .float (← ofExcept (floatOp op x y))
    | _, _ => refuseOperands op a b

/-- An operator before a value; taking an address is no operator on values. -/
def unary (op : UnaryOp) (v : Value) : Eval Value := do
  match op, v with
  | .neg, .int n => return .int (-n)
  | .neg, .float f => return .float (-f)
  | .plus, .int n => return .int n
  | .plus, .float f => return .float f
  | .not, .bool b => return .bool !b
  | .bitNot, .int n => return .int (~~~n)
  | .deref, .pointer o => return .struct o
  | .deref, .ref c => readCell c
  | .deref, .nil => panic .nilDereference
  | _, _ => error (.unaryOperator op.symbol (← typeName v))

end Eval

end SandboxedGo
