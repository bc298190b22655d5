import SandboxedGo.Eval.Basic
import SandboxedGo.Store.Contents
import SandboxedGo.Types.Resolution

/-!
# Reading values

An operation asks for a value of some kind and ends with a runtime error if it gets another one.
-/

set_option autoImplicit false

namespace SandboxedGo

namespace Value

/-- What a call without results gives, and what a bare `return` carries. -/
def noResults : Value := .tuple []

/-- A value as it is stored over an old one: a float stays a float. -/
def keepingFloat (old new : Value) : Value :=
  match old, new with
  | .float _, .int n => .float n.toFloat
  | _, _ => new

end Value

namespace Store

/-- The value behind at most `steps` pointers to variables. -/
def behind (s : Store) : Nat → Value → Value
  | steps + 1, .ref c => behind s steps (s.cell c)
  | _, v => v

/-- The value behind pointers to variables. -/
def target (s : Store) (v : Value) : Value := s.behind (s.cells.size + 1) v

end Store

namespace Eval

def typeName (v : Value) : Eval String := walkStore (·.typeName? v)

/-- A value as it is when it has been assigned. -/
def copied (v : Value) : Eval Value :=
  if Store.hasContents v then onStore (·.copied v) else pure v

def copiedAll (values : List Value) : Eval (List Value) := values.mapM copied

/-- A value as it is kept in a place of a type. -/
def adapt (ty : Source.TypeExpr) (v : Value) : Eval Value := view (·.types.adapt ty v)

def asBool (v : Value) : Eval Bool :=
  match v with
  | .bool b => pure b
  | _ => do error (.notBoolean (← typeName v))

def asInt (v : Value) : Eval Int64 :=
  let refuse : Eval Int64 := do error (.notUsable (← typeName v) "int")
  match v with
  | .int n => pure n
  | .float f =>
    match wholeNumber? f with
    | some n => pure n
    | none => refuse
  | _ => refuse

def asFloat (v : Value) : Eval Float :=
  match v with
  | .int n => pure n.toFloat
  | .float f => pure f
  | _ => do error (.notUsable (← typeName v) "float64")

def asString (v : Value) : Eval String :=
  match v with
  | .string s => pure s
  | _ => do error (.notUsable (← typeName v) "string")

def asInts (values : List Value) : Eval (List Int64) := values.mapM asInt

def asStrings (values : List Value) : Eval (List String) := values.mapM asString

/-- The key that a value is. -/
def asKey (v : Value) : Eval MapKey :=
  match MapKey.ofValue? v with
  | some key => pure key
  | none => do error (.notMapKey (← typeName v))

/-- The place that an index names among `length` places. -/
def asIndex (v : Value) (length : Nat) : Eval Nat := do
  let i ← asInt v
  if i < 0 || length ≤ i.toInt.toNat then panic (.indexOutOfRange i.toInt length)
  else return i.toInt.toNat

def equal (a b : Value) : Eval Bool := do
  match ← viewStore (·.equal a b) with
  | .ok answer => return answer
  | .error kind => error (.notComparable kind.kind)

/-- Arguments with the last one, which must be a slice, replaced by its elements. -/
def expandSpread (arguments : List Value) : Eval (List Value) :=
  match arguments.getLast? with
  | some (.slice view) => do return arguments.dropLast ++ (← elements view)
  | some .nil => pure arguments.dropLast
  | _ => error .spreadNonSlice

def byteSlice (text : String) : Eval Value :=
  newSlice ((Text.bytesOf text).map fun b => .int (Int64.ofNat b.toNat))

end Eval

end SandboxedGo
