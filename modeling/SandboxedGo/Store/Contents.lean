import SandboxedGo.Store

/-!
# Names of types, copies and equality

What looks into the contents of values: the name of the type that a value has while the program
runs, the copy that an assignment makes, and the equality of two values.
-/

set_option autoImplicit false

namespace SandboxedGo

/-- The kinds of values that can be compared to nil only. -/
inductive Incomparable
  | slice | map | func | endless
  deriving DecidableEq, Repr

namespace Incomparable

def kind : Incomparable → String
  | slice => "slice"
  | map => "map"
  | func => "func"
  | endless => "value"

end Incomparable

namespace Store

/-!
## Names of dynamic types

A slice takes the name of its elements from the first one.
-/

/-- The name of a value's type, by way of the first element of a slice and of the variable behind a
pointer. -/
def typeNameVisit (s : Store) (v : Value) : Visit (fun _ : Value => String) String :=
  match v with
  | .nil => pure "<nil>"
  | .bool _ => pure "bool"
  | .int _ => pure "int"
  | .float _ => pure "float64"
  | .string _ => pure "string"
  | .slice view => do
    let element ←
      if view.length = 0 then pure "interface \x7b\x7d" else Visit.consult (s.element view 0)
    return if view.isArray then "[" ++ toString view.length ++ "]" ++ element else "[]" ++ element
  | .map _ _ => pure "map[string]interface \x7b\x7d"
  | .struct o => pure ("main." ++ s.structName o)
  | .pointer o => pure ("*main." ++ s.structName o)
  | .ref c => do return "*" ++ (← Visit.consult (s.cell c))
  | .func _ => pure "func()"
  | .error _ _ _ => pure "*errors.errorString"
  | .tuple _ => pure "tuple"
  | .stream _ => pure "*os.File"

def typeName? (s : Store) (v : Value) : Option String := walk s.typeNameVisit v

/-!
## Copies

Structs and arrays are values: assigning one makes a copy of its contents.  Everything else is
shared.
-/

def copyAll (copy : Value → Store → Value × Store) (values : List Value) (s : Store) :
    Array Value × Store :=
  values.foldl
    (fun done v =>
      let (v, s) := copy v done.2
      (done.1.push v, s))
    (#[], s)

/-- A copy of a value whose structs and arrays are nested at most `depth` deep. -/
def copyWithin : Nat → Value → Store → Value × Store
  | 0, v, s => (v, s)
  | depth + 1, v, s =>
    match v with
    | .struct o =>
      let object := s.structObject o
      let (fields, s) := copyAll (copyWithin depth) object.fields.toList s
      let (copy, s) := s.newStruct object.type fields
      (.struct copy, s)
    | .slice view =>
      if view.isArray then
        let (items, s) := copyAll (copyWithin depth) (s.elements view) s
        let (copy, s) := s.newSlice items
        (.slice { copy with isArray := true, isNil := view.isNil }, s)
      else (v, s)
    | _ => (v, s)

/-- Whether a value is copied when it is assigned. -/
def hasContents : Value → Bool
  | .struct _ => true
  | .slice view => view.isArray
  | _ => false

/-- A value as it is when it has been assigned: structs and arrays are objects of their own. -/
def copied (v : Value) (s : Store) : Value × Store :=
  if hasContents v then copyWithin (s.objectCount + 1) v s else (v, s)

/-!
## Equality

Structs and arrays are compared by their contents, pointers and errors by identity.  Slices, maps
and functions can be compared to nil only.
-/

/-- Whether the pairs of two lists are all equal, asked from the left. -/
def allEqual (equal : Value → Value → Except Incomparable Bool) :
    List (Value × Value) → Except Incomparable Bool
  | [] => .ok true
  | (a, b) :: rest =>
    match equal a b with
    | .ok true => allEqual equal rest
    | result => result

/-- Equality of values that are at most `depth` structs and arrays deep. -/
def equalWithin (s : Store) : Nat → Value → Value → Except Incomparable Bool
  | 0, _, _ => .error .endless
  | depth + 1, a, b =>
    match a, b with
    | .nil, other => .ok other.isNil
    | other, .nil => .ok other.isNil
    | .bool x, .bool y => .ok (x = y)
    | .int x, .int y => .ok (x = y)
    | .int x, .float y => .ok (x.toFloat == y)
    | .float x, .int y => .ok (x == y.toFloat)
    | .float x, .float y => .ok (x == y)
    | .string x, .string y => .ok (x = y)
    | .struct x, .struct y =>
      if x = y then .ok true
      else
        let left := s.structObject x
        let right := s.structObject y
        if left.type.id ≠ right.type.id then .ok false
        else allEqual (s.equalWithin depth) (left.fields.toList.zip right.fields.toList)
    | .pointer x, .pointer y => .ok (x = y)
    | .ref x, .ref y => .ok (x = y)
    | .error x _ _, .error y _ _ => .ok (x = y)
    | .stream x, .stream y => .ok (x = y)
    | .slice x, .slice y =>
      if x.isArray && y.isArray then
        if x.length ≠ y.length then .ok false
        else allEqual (s.equalWithin depth) ((s.elements x).zip (s.elements y))
      else .error .slice
    | .slice _, _ => .error .slice
    | _, .slice _ => .error .slice
    | .map _ _, _ => .error .map
    | _, .map _ _ => .error .map
    | .func _, _ => .error .func
    | _, .func _ => .error .func
    | _, _ => .ok false

def equal (s : Store) (a b : Value) : Except Incomparable Bool :=
  s.equalWithin (s.objectCount + 1) a b

end Store

end SandboxedGo
