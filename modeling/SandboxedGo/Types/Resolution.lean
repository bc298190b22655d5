import SandboxedGo.Machine

/-!
# Resolving types

A declared name may stand for another type.  Resolution follows such names, at most thirty-two of
them, so it also ends for names that are declared in a circle.  What a type is under its names
decides how a value is adapted to it when it is assigned.
-/

set_option autoImplicit false

namespace SandboxedGo

open Source

inductive BasicType
  | int | float | string | bool
  deriving DecidableEq, Repr

namespace BasicType

def ofName? : String → Option BasicType
  | "int" | "int8" | "int16" | "int32" | "int64" | "uint" | "uint8" | "uint16" | "uint32"
  | "uint64" | "uintptr" | "byte" | "rune" => some int
  | "float32" | "float64" => some float
  | "string" => some string
  | "bool" => some bool
  | _ => none

end BasicType

namespace IntWidth

def wrapTo (width : Option IntWidth) (n : Int64) : Int64 :=
  match width with
  | some w => w.wrap n
  | none => n

end IntWidth

/-- The integer that a float is, saturated at the ends of the range; none if it has a fraction or
is not finite. -/
def wholeNumber? (f : Float) : Option Int64 :=
  if f.isFinite && f.floor == f then some f.toInt64 else none

namespace TypeTable

/-- A type with at most `steps` names replaced by what they are declared as. -/
def underlyingWithin (types : TypeTable) : Nat → TypeExpr → TypeExpr
  | steps + 1, .named name =>
    match types.get? name with
    | some (.synonym inner) => underlyingWithin types steps inner
    | _ => .named name
  | _, ty => ty

def resolutionLimit : Nat := 32

def underlying (types : TypeTable) (ty : TypeExpr) : TypeExpr :=
  types.underlyingWithin resolutionLimit ty

def basic? (types : TypeTable) (ty : TypeExpr) : Option BasicType :=
  match types.underlying ty with
  | .named name => BasicType.ofName? name
  | _ => none

def width? (types : TypeTable) (ty : TypeExpr) : Option IntWidth :=
  match types.underlying ty with
  | .named name => IntWidth.ofName? name
  | _ => none

/-- A value as it is kept in a place of a type: numbers take the kind and the width of the type, as
far as they can; anything else is kept as it is. -/
def adapt (types : TypeTable) (ty : TypeExpr) (v : Value) : Value :=
  match v with
  | .int n =>
    match types.basic? ty with
    | some .float => .float n.toFloat
    | some .int => .int (IntWidth.wrapTo (types.width? ty) n)
    | _ => v
  | .float f =>
    match types.basic? ty with
    | some .int =>
      match wholeNumber? f with
      | some n => .int (IntWidth.wrapTo (types.width? ty) n)
      | none => v
    | _ => v
  | _ => v

end TypeTable

end SandboxedGo
