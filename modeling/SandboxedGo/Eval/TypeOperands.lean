import SandboxedGo.Eval.Builtins
import SandboxedGo.Text.Utf8
import SandboxedGo.Types.NumberWidth

/-!
# Operations on types

Making slices and maps, allocating variables, and converting values.
-/

set_option autoImplicit false

namespace SandboxedGo.Eval

open Source

def typeOperand : Expr → Eval TypeExpr
  | .type ty => pure ty
  | .name name => pure (.named name)
  | .select (.name package) name => pure (.qualified package name)
  | .unary .deref inner => do return .pointer (← typeOperand inner)
  | _ => error .expectedType

/-! ## Making -/

/-- How many elements are filled in for one step. -/
def fillStep : Nat := 4096

def tickTimes : Nat → Eval Unit
  | 0 => pure ()
  | n + 1 => do
    tick
    tickTimes n

/-- The elements of a new slice; filling them in takes steps. -/
def filled (count : Nat) (zero : Eval Value) : Eval (Array Value) :=
  match count with
  | 0 => pure #[]
  | n + 1 => do
    tick
    let first ← zero
    tickTimes (n / fillStep)
    if Store.hasContents first then repeated n zero #[first]
    else return Array.replicate (n + 1) first

def makeSlice (element : TypeExpr) (length capacity : Int) : Eval Value := do
  if length < 0 then panic .makeLength
  if capacity < length then panic .makeCapacity
  checkAlloc length.toNat .makeLength
  checkAlloc capacity.toNat .makeCapacity
  let items ← filled length.toNat (zeroValue element)
  return .slice { (← onStore (·.newSlice items)) with capacity := capacity.toNat }

def make (ty : TypeExpr) (sizes : List Int64) : Eval Value := do
  match ← view (·.types.underlying ty) with
  | .slice element =>
    match sizes with
    | [] => error .makeWithoutLength
    | [length] => makeSlice element length.toInt length.toInt
    | length :: capacity :: _ => makeSlice element length.toInt capacity.toInt
  | .map _ value => newMap (← zeroValue value)
  | other => error (.notMakeable other.display)

def allocate (ty : TypeExpr) : Eval Value := do
  match ← zeroValue ty with
  | .struct o => return .pointer o
  | v => newRef v

/-! ## Converting -/

def charOfInt (n : Int64) : Char :=
  if n < 0 then Text.replacement else Text.charOfCode n.toInt.toNat

/-- The text that integers stand for: bytes, if they are well-formed as such, or else characters. -/
def textOfInts (codes : List Int64) : String :=
  let chars := String.ofList (codes.map charOfInt)
  if codes.all fun c => 0 ≤ c && c < 256 then
    (String.fromUTF8? ⟨(codes.map fun c => c.toUInt64.toUInt8).toArray⟩).getD chars
  else chars

def refuseConversion (v : Value) (ty : TypeExpr) : Eval Value := do
  let text ← Format.builtinText v
  error (.notConvertible text (← typeName v) ty.display)

def truncated (f : Float) : Int64 := if f.isNaN then Int64.minValue else f.toInt64

def convertBasic (kind : BasicType) (name : String) (v : Value) (ty : TypeExpr) : Eval Value := do
  match kind, v with
  | .int, .int n => return .int (IntWidth.wrapTo (IntWidth.ofName? name) n)
  | .int, .float f => return .int (IntWidth.wrapTo (IntWidth.ofName? name) (truncated f))
  | .float, .int n => return .float (if name = "float32" then toSingle n.toFloat else n.toFloat)
  | .float, .float f => return .float (if name = "float32" then toSingle f else f)
  | .string, .string s => return .string s
  | .string, .int n => return .string (charOfInt n).toString
  | .string, .slice view => return .string (textOfInts (← asInts (← elements view)))
  | .string, .nil => return .string ""
  | .bool, .bool b => return .bool b
  | _, _ => refuseConversion v ty

def convertStruct (def_ : StructDef) (v : Value) (ty : TypeExpr) : Eval Value := do
  match v with
  | .struct o | .pointer o =>
    let object ← viewStore (·.structObject o)
    newStruct def_ (← copiedAll object.fields.toList)
  | _ => refuseConversion v ty

def convert (v : Value) (ty : TypeExpr) : Eval Value := do
  match ← view (·.types.underlying ty) with
  | .named name =>
    match BasicType.ofName? name with
    | some kind => convertBasic kind name v ty
    | none =>
      match ← view (·.types.get? name) with
      | some (.struct def_ _) => convertStruct def_ v ty
      | _ => return v
  | .slice element =>
    match element, v with
    | .named "byte", .string s | .named "uint8", .string s => byteSlice s
    | .named "rune", .string s | .named "int32", .string s =>
      newSlice (s.toList.map fun c => .int (Int64.ofNat c.toNat))
    | _, .slice view => return .slice view
    | _, .nil => return .nil
    | _, _ => refuseConversion v ty
  | _ => return v

end SandboxedGo.Eval
