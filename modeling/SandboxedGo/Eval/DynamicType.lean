import SandboxedGo.Eval.ZeroValue

/-!
# Dynamic types

Which type a value has while the program runs, as far as type assertions, type switches and methods
ask.
-/

set_option autoImplicit false

namespace SandboxedGo

open Source

namespace Guest

def method? (g : Guest) (type name : String) : Option FuncDecl := g.methods.lookup (type, name)

def methodType? (g : Guest) (v : Value) : Option String :=
  match v with
  | .struct o | .pointer o => some (g.store.structName o)
  | _ => none

def methodOf? (g : Guest) (v : Value) (name : String) : Option FuncDecl := do
  g.method? (← g.methodType? v) name

def hasMethod (g : Guest) (v : Value) (name : String) : Bool :=
  match v with
  | .error _ _ _ => name = "Error"
  | _ => (g.methodOf? v name).isSome

def hasMethods (g : Guest) (v : Value) (names : List String) : Bool :=
  match v with
  | .nil => false
  | _ => names.all (g.hasMethod v)

def isBasic (kind : BasicType) (v : Value) : Bool :=
  match kind, v with
  | .int, .int _ | .float, .float _ | .string, .string _ | .bool, .bool _ => true
  | _, _ => false

/-- Whether a value has a type, by way of the type that a name stands for and of the variable behind
a pointer. -/
def hasTypeVisit (g : Guest) (place : Value × TypeExpr) :
    Visit (fun _ : Value × TypeExpr => Bool) Bool :=
  let (v, ty) := place
  match ty with
  | .named name =>
    match BasicType.ofName? name with
    | some kind => pure (isBasic kind v)
    | none =>
      if name = "error" then pure (g.hasMethod v "Error")
      else if name = "any" then
        match v with
        | .nil => pure false
        | _ => pure true
      else
        match g.types.get? name with
        | some (.struct def_ _) =>
          match v with
          | .struct o => pure ((g.store.structObject o).type.id = def_.id)
          | _ => pure false
        | some (.synonym (.interface methods)) => pure (g.hasMethods v methods)
        | some (.synonym inner) => Visit.consult (v, inner)
        | none => pure false
  | .qualified package name =>
    if name = "Stringer" then pure (g.hasMethod v "String")
    else
      match g.imports.get? package, v with
      | some p, .struct o => pure (g.store.structName o = p.path ++ "." ++ name)
      | _, _ => pure false
  | .pointer inner =>
    match inner, v with
    | .named name, .pointer o => pure (g.store.structName o = name)
    | _, .ref c => Visit.consult (g.store.cell c, inner)
    | _, _ => pure false
  | .slice _ =>
    match v with
    | .slice view => pure !view.isArray
    | _ => pure false
  | .array length _ =>
    match v with
    | .slice view => pure (view.isArray && (length.isNone || length = some view.length))
    | _ => pure false
  | .map _ _ =>
    match v with
    | .map _ _ => pure true
    | _ => pure false
  | .func =>
    match v with
    | .func _ => pure true
    | _ => pure false
  | .interface methods => pure (g.hasMethods v methods)
  | .struct _ =>
    match v with
    | .struct _ => pure true
    | _ => pure false

def hasType? (g : Guest) (v : Value) (ty : TypeExpr) : Option Bool := walk g.hasTypeVisit (v, ty)

/-- Whether a value, or a struct embedded in it, has a method. -/
def promotedVisit (g : Guest) (name : String) (v : Value) :
    Visit (fun _ : Value => Bool) Bool :=
  match v with
  | .struct o | .pointer o =>
    if g.store.structName o = builderType || (g.method? (g.store.structName o) name).isSome then
      pure true
    else
      (g.store.structFields o).anyM fun (field, inner) =>
        if field.embedded then Visit.consult inner else pure false
  | .error _ _ _ => pure (name = "Error")
  | _ => pure false

def hasPromotedMethod? (g : Guest) (name : String) (v : Value) : Option Bool :=
  walk (g.promotedVisit name) v

end Guest

end SandboxedGo
