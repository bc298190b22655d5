import SandboxedGo.Eval.Literals
import SandboxedGo.Eval.Methods
import SandboxedGo.Eval.TypeOperands

/-!
# Expressions

Operands are evaluated from the left.  A name stands for the innermost variable of that name, or
else for something predeclared.
-/

set_option autoImplicit false

namespace SandboxedGo.Eval

open Source

/-! ## Names -/

def predeclared (name : String) : Eval Value := do
  match name with
  | "true" => return .bool true
  | "false" => return .bool false
  | "nil" => return .nil
  | _ =>
    match Builtin.ofName? name with
    | some b => return .func (.builtin b)
    | none =>
      if ← view (·.imports.contains name) then error (.packageWithoutSelector name)
      else error (.undefined name)

def nameValue (name : String) (scope : ScopeId) : Eval Value := do
  match ← resolve? scope name with
  | some found => readCell found.cell
  | none => predeclared name

/-- The package that an expression names, which no variable hides. -/
def packageName? (e : Expr) (scope : ScopeId) : Eval (Option String) := do
  match e with
  | .name name =>
    if ← view (·.imports.contains name) then
      return if (← resolve? scope name).isNone then some name else none
    else return none
  | _ => return none

def packageMember (package name : String) : Eval Value := do
  match ← view (·.imports.get? package) with
  | none => error (.undefined package)
  | some p =>
    match Library.member? p name with
    | some (.function f) => return .func (.library f)
    | some (.int n) => return .int n
    | some (.float f) => return .float f
    | some (.stream s) => return .stream s
    | none => error (.undefined (package ++ "." ++ name))

/-! ## Elements -/

def index (v key : Value) : Eval Value := do
  match ← viewStore (·.target v) with
  | .slice items =>
    let i ← asIndex key items.length
    viewStore (·.element items i)
  | .string s =>
    let i ← asIndex key s.utf8ByteSize
    return .int (Int64.ofNat ((Text.byteAt? s i).getD 0).toNat)
  | .map entries zero =>
    let key ← asKey key
    match ← viewStore fun s => entries.bind (s.mapLookup · key) with
    | some found => return found
    | none => copied zero
  | .nil =>
    let i ← asInt key
    panic (.indexOutOfRange i.toInt 0)
  | other => error (.notIndexable (← typeName other))

def bound (given : Option Int64) (default : Nat) : Eval Nat := do
  match given with
  | none => return default
  | some i => if i < 0 then panic (.negativeBound i.toInt) else return i.toInt.toNat

/-- A slice of a slice or an array; it may reach up to the capacity. -/
def reslice (items : SliceView) (low high : Nat) : Except Panic SliceView :=
  if high < low ∨ items.capacity < high then
    .error (.boundsBeyondCapacity low high items.capacity)
  else
    .ok
      { items with
        start := items.start + low
        length := high - low
        capacity := items.capacity - low
        isArray := false
        isNil := items.isNil && high = 0 }

def cutText (s : String) (low high : Nat) : Except Panic String :=
  if high < low ∨ s.utf8ByteSize < high then .error (.boundsBeyondLength low high s.utf8ByteSize)
  else .ok (Text.byteSlice s low high)

def slice (v : Value) (low high : Option Int64) : Eval Value := do
  match ← viewStore (·.target v) with
  | .slice items =>
    let low ← bound low 0
    let high ← bound high items.length
    match reslice items low high with
    | .ok part => return .slice part
    | .error cause => panic cause
  | .string s =>
    let low ← bound low 0
    let high ← bound high s.utf8ByteSize
    match cutText s low high with
    | .ok part => return .string part
    | .error cause => panic cause
  | .nil =>
    let low := low.getD 0
    let high := high.getD 0
    if low = 0 && high = 0 then nilSlice
    else panic (.boundsBeyondCapacity low.toInt high.toInt 0)
  | other => error (.notSliceable (← typeName other))

def boundOperand (e : Option Expr) (scope : ScopeId) : Eval (Option Int64) := do
  match e with
  | none => return none
  | some e => return some (← asInt (← eval e scope))

/-! ## Pointers and types -/

def pointerTo (v : Value) : Eval Value := do
  match v with
  | .struct o => return .pointer o
  | _ => newRef v

def address (operand : Expr) (scope : ScopeId) : Eval Value := do
  match operand with
  | .name name =>
    match ← resolve? scope name with
    | none => error (.undefined name)
    | some found =>
      match ← readCell found.cell with
      | .struct o => return .pointer o
      | _ => return .ref found.cell
  | _ => pointerTo (← eval operand scope)

def hasType (v : Value) (ty : TypeExpr) : Eval Bool := do ofWalk (← view (·.hasType? v ty))

def assertType (v : Value) (ty : TypeExpr) : Eval Value := do
  if ← hasType v ty then adapt ty v
  else
    let dynamic ← match v with
      | .nil => pure "nil"
      | _ => typeName v
    panic (.conversion dynamic ty.display)

/-! ## Calls -/

def single (v : Value) : Eval Value :=
  match v with
  | .tuple _ => error .manyValuesInList
  | _ => pure v

/-- The arguments of a call; the results of one call may be all arguments of another. -/
def arguments (es : List Expr) (scope : ScopeId) : Eval (List Value) := do
  match es with
  | [only] =>
    match ← eval only scope with
    | .tuple items => return items
    | v => return [v]
  | _ => es.mapM fun e => do single (← eval e scope)

/-- The elements of the last argument of a spread append, which may be a text. -/
def appendedItems (arguments : List Value) : Eval (List Value) := do
  match arguments.getLast? with
  | some (.slice view) => return arguments.dropLast ++ (← elements view)
  | some (.string s) => return arguments.dropLast ++ byteValues s
  | some .nil => return arguments.dropLast
  | _ => error .spreadNonSlice

def callBuiltin (b : Builtin) (es : List Expr) (spread : Bool)
    (scope : ScopeId) : Eval Value := do
  match b with
  | .make =>
    match es with
    | [] => error (.builtinTooFew b.name)
    | first :: sizes =>
      let ty ← typeOperand first
      let sizes ← sizes.mapM fun e => do asInt (← eval e scope)
      make ty sizes
  | .new =>
    match es with
    | [operand] => allocate (← typeOperand operand)
    | _ => wrongArity b
  | _ =>
    let given ← arguments es scope
    let given ←
      if spread then (if b = .append then appendedItems given else expandSpread given)
      else pure given
    builtin b given

/-- Convert the only operand to a type. -/
def conversion (ty : TypeExpr) (es : List Expr) (scope : ScopeId) :
    Eval Value := do
  match es with
  | [operand] => convert (← eval operand scope) ty
  | _ => error (.conversionArguments ty.display)

def callValue (callee : Expr) (es : List Expr) (spread : Bool)
    (scope : ScopeId) : Eval Value := do
  let f ← eval callee scope
  let given ← arguments es scope
  perform (.call f given spread) rfl

def callMember (package name : String) (es : List Expr) (spread : Bool)
    (scope : ScopeId) : Eval Value := do
  let qualified ← qualifiedName package name
  if ← view (·.types.contains qualified) then
    conversion (.qualified package name) es scope
  else
    let f ← packageMember package name
    let given ← arguments es scope
    perform (.call f given spread) rfl

/-- Call what a name stands for; one that no variable has may be a predeclared function or a
type. -/
def callName (name : String) (es : List Expr) (spread : Bool)
    (scope : ScopeId) : Eval Value := do
  if (← resolve? scope name).isSome then callValue (.name name) es spread scope
  else
    match Builtin.ofName? name with
    | some b => callBuiltin b es spread scope
    | none =>
      if (BasicType.ofName? name).isSome || (← view (·.types.contains name)) then
        conversion (.named name) es scope
      else callValue (.name name) es spread scope

def callSelected (base : Expr) (name : String) (es : List Expr) (spread : Bool)
    (scope : ScopeId) : Eval Value := do
  match ← packageName? base scope with
  | some package => callMember package name es spread scope
  | none =>
    let receiver ← eval base scope
    let given ← arguments es scope
    callMethod receiver name given spread

def call (callee : Expr) (es : List Expr) (spread : Bool) (scope : ScopeId) :
    Eval Value :=
  match callee with
  | .name name => callName name es spread scope
  | .type ty => conversion ty es scope
  | .select base name => callSelected base name es spread scope
  | _ => callValue callee es spread scope

/-! ## All together -/

/-- A truth value that depends on the right operand only if the left one is `decisive`. -/
def logical (decisive : Bool) (left right : Expr) (scope : ScopeId) :
    Eval Value := do
  if (← asBool (← eval left scope)) = decisive then
    return .bool (← asBool (← eval right scope))
  else return .bool !decisive

/-- What stands behind a point: a member of a package, a field or a method. -/
def selected (base : Expr) (name : String) (scope : ScopeId) : Eval Value := do
  match ← packageName? base scope with
  | some package => packageMember package name
  | none => select (← eval base scope) name

def evaluate (e : Expr) (scope : ScopeId) : Eval Value := do
  match e with
  | .name name => nameValue name scope
  | .int n => return .int n
  | .float f => return .float f
  | .string s => return .string s
  | .rune c => return .int (Int64.ofNat c.toNat)
  | .composite ty elements => composite ty elements scope
  | .function f => return .func (.closure "func" f scope)
  | .unary .addr operand => address operand scope
  | .unary op operand => unary op (← eval operand scope)
  | .binary .logAnd left right => logical true left right scope
  | .binary .logOr left right => logical false left right scope
  | .binary op left right =>
    let a ← eval left scope
    let b ← eval right scope
    binary op a b
  | .call callee es spread => call callee es spread scope
  | .select base name => selected base name scope
  | .index base key =>
    let v ← eval base scope
    let key ← eval key scope
    index v key
  | .slice base low high =>
    let v ← eval base scope
    let low ← boundOperand low scope
    let high ← boundOperand high scope
    slice v low high
  | .assert subject ty => assertType (← eval subject scope) ty
  | .type ty => error (.typeAsExpression ty.display)

end SandboxedGo.Eval
