import SandboxedGo.Eval.Basic
import SandboxedGo.Eval.ZeroValue

/-!
# Composite literals

A literal of a slice, an array, a map or a struct lists elements, with or without their places.
Places that are not listed hold zero values.
-/

set_option autoImplicit false

namespace SandboxedGo.Eval

open Source

def kept (ty : TypeExpr) (v : Value) : Eval Value := do adapt ty (← copied v)

def element (e : Expr) (ty : TypeExpr) (scope : ScopeId) : Eval Value := do
  kept ty (← eval e scope)

/-- Put a value into a place at the end of items or before it. -/
def putItem (items : Array Value) (place : Nat) (v : Value) : Array Value :=
  if place < items.size then items.setIfInBounds place v else items.push v

/-- The elements of a slice or an array; an element without an index follows the one before it. -/
def sequence (ty : TypeExpr) (scope : ScopeId) :
    List (Option Expr × Expr) → (next : Nat) → Array Value → Eval (Array Value)
  | [], _, items => pure items
  | (key, e) :: rest, next, items => do
    let place ← match key with
      | none => pure next
      | some key => do
        let at_ ← asInt (← eval key scope)
        if at_ < 0 then error (.negativeLiteralIndex at_.toInt)
        checkAlloc at_.toInt.toNat .literalIndexTooLarge
        pure at_.toInt.toNat
    let v ← element e ty scope
    let gap ← zeros (place - items.size) (zeroValue ty)
    sequence ty scope rest (place + 1) (putItem (items ++ gap) place v)

/-- The value of an array literal; an absent length counts the elements. -/
def arrayLiteral (length : Option Nat) (ty : TypeExpr)
    (elements : List (Option Expr × Expr)) (scope : ScopeId) : Eval Value := do
  let items ← sequence ty scope elements 0 #[]
  let items ← match length with
    | none => pure items
    | some length => do
      if length < items.size then error (.literalIndexOutOfBounds (items.size - 1) length)
      checkAlloc length .arrayTooLong
      pure (items ++ (← zeros (length - items.size) (zeroValue ty)))
  return .slice { (← onStore (·.newSlice items)) with isArray := true }

def addEntry (m : MapId) (key v : Value) : Eval Unit := do
  let key ← asKey key
  changeStore (·.mapInsert m key v)

def mapEntries (m : MapId) (keyType valueType : TypeExpr) (scope : ScopeId) :
    List (Option Expr × Expr) → Eval Unit
  | [] => pure ()
  | (none, _) :: _ => error .missingMapKey
  | (some key, e) :: rest => do
    let key ← element key keyType scope
    let v ← element e valueType scope
    addEntry m key v
    mapEntries m keyType valueType scope rest

def structParts (name : String) : Eval (StructDef × List TypeExpr) := do
  match ← view (·.types.get? name) with
  | some (.struct def_ types) => return (def_, types)
  | some (.synonym _) => error (.literalType name)
  | none => error (.undefined name)

def namedFields (def_ : StructDef) (types : List TypeExpr) (scope : ScopeId) :
    List (Option Expr × Expr) → List Value → Eval (List Value)
  | [], fields => pure fields
  | (key, e) :: rest, fields => do
    match key with
    | some (.name field) =>
      match Store.fieldPlace? def_ field with
      | none => error (.unknownField field def_.name)
      | some place =>
        let v ← element e ((types[place]?).getD .func) scope
        namedFields def_ types scope rest (fields.set place v)
    | _ => error (.mixedLiteral def_.name)

def orderedFields (scope : ScopeId) :
    List (Option Expr × Expr) → List TypeExpr → Eval (List Value)
  | (_, e) :: rest, ty :: types => do
    let v ← element e ty scope
    return v :: (← orderedFields scope rest types)
  | _, _ => pure []

/-- The value of a struct literal: either all elements name their fields, or there is one for every
field. -/
def structLiteral (def_ : StructDef) (types : List TypeExpr)
    (elements : List (Option Expr × Expr)) (scope : ScopeId) : Eval Value := do
  let zeroFields ← types.mapM zeroValue
  if elements.any fun e => e.1.isSome then
    newStruct def_ (← namedFields def_ types scope elements zeroFields)
  else if elements.isEmpty then newStruct def_ zeroFields
  else if elements.length ≠ types.length then error (.fewLiteralValues def_.name)
  else newStruct def_ (← orderedFields scope elements types)

def composite (ty : TypeExpr) (elements : List (Option Expr × Expr))
    (scope : ScopeId) : Eval Value := do
  match ← view (·.types.underlying ty) with
  | .slice element =>
    return .slice (← onStore (·.newSlice (← sequence element scope elements 0 #[])))
  | .array length element => arrayLiteral length element elements scope
  | .map key value =>
    let zero ← zeroValue value
    let m ← onStore Store.newMap
    mapEntries m key value scope elements
    return .map (some m) zero
  | .named name =>
    let (def_, types) ← structParts name
    structLiteral def_ types elements scope
  | .qualified package name =>
    let (def_, types) ← structParts (← qualifiedName package name)
    structLiteral def_ types elements scope
  | .struct fields =>
    let def_ ← freshStructDef "struct" fields
    structLiteral def_ (fields.map FieldDecl.type) elements scope
  | other => error (.literalType other.display)

end SandboxedGo.Eval
