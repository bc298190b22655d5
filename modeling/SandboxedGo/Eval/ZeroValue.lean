import SandboxedGo.Eval.Conversion

/-!
# Zero values

The value that a variable of a type has before anything is stored in it.  A type may be nested at
most thirty-two types deep, so types that contain themselves are refused.
-/

set_option autoImplicit false

namespace SandboxedGo

open Source

/-- The name of the type for building strings. -/
def builderType : String := "strings.Builder"

namespace Eval

def qualifiedName (package name : String) : Eval String := do
  match ← view (·.imports.get? package) with
  | some p => return p.path ++ "." ++ name
  | none => error (.undefined package)

/-- A struct type of its own. -/
def freshStructDef (name : String) (fields : List FieldDecl) : Eval StructDef := do
  return ⟨← freshId, name, fields.map fun f => FieldDef.ofTag f.name f.embedded f.tag⟩

def declareType (spec : TypeSpec) : Eval Unit := do
  let decl ← match spec.type with
    | .struct fields => do
      let def_ ← freshStructDef spec.name fields
      pure (TypeDecl.struct def_ (fields.map FieldDecl.type))
    | other => pure (.synonym other)
  changeGuest fun g => { g with types := g.types.put spec.name decl }

/-- The values of a computation run several times. -/
def repeated (count : Nat) (x : Eval Value) (acc : Array Value) : Eval (Array Value) :=
  match count with
  | 0 => pure acc
  | n + 1 => do
    let v ← x
    repeated n x (acc.push v)

/-- Several zero values; those that are structs or arrays are objects of their own. -/
def zeros (count : Nat) (zero : Eval Value) : Eval (Array Value) :=
  match count with
  | 0 => pure #[]
  | n + 1 => do
    let first ← zero
    if Store.hasContents first then repeated n zero #[first]
    else return Array.replicate (n + 1) first

/-- The zero value of a type that is nested less than `levels` types deep. -/
def zeroWithin : Nat → TypeExpr → Eval Value
  | 0, _ => error .recursiveType
  | levels + 1, ty => do
    match ty with
    | .named name =>
      match BasicType.ofName? name with
      | some .int => return .int 0
      | some .float => return .float 0
      | some .string => return .string ""
      | some .bool => return .bool false
      | none =>
        if name = "error" || name = "any" then return .nil
        match ← view (·.types.get? name) with
        | some (.struct def_ types) => newStruct def_ (← types.mapM (zeroWithin levels))
        | some (.synonym inner) => zeroWithin levels inner
        | none => error (.undefined name)
    | .qualified package name =>
      let qualified ← qualifiedName package name
      match ← view (·.types.get? qualified) with
      | some (.struct def_ types) => newStruct def_ (← types.mapM (zeroWithin levels))
      | _ => error (.undefined (package ++ "." ++ name))
    | .slice _ => nilSlice
    | .array length element =>
      let count := length.getD 0
      checkAlloc count .arrayTooLong
      let items ← zeros count (zeroWithin levels element)
      return .slice { (← onStore (·.newSlice items)) with isArray := true }
    | .map _ value => return .map none (← zeroWithin levels value)
    | .pointer _ | .func | .interface _ => return .nil
    | .struct fields =>
      let def_ ← freshStructDef "struct" fields
      newStruct def_ (← fields.mapM fun f => zeroWithin levels f.type)

def nestingLimit : Nat := 33

def zeroValue (ty : TypeExpr) : Eval Value := zeroWithin nestingLimit ty

end Eval

end SandboxedGo
