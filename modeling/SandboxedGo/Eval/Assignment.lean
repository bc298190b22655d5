import SandboxedGo.Eval.Expressions

/-!
# Assignments and declarations

The right side of an assignment is evaluated to as many values as there are targets on the left; the
values are then stored from left to right.
-/

set_option autoImplicit false

namespace SandboxedGo.Eval

open Source

/-! ## Right sides -/

def isCommaOk : Expr → Bool
  | .index _ _ | .assert _ _ => true
  | _ => false

/-- A value and whether it is there: the entry of a key, or a value of a type. -/
def commaOk (e : Expr) (scope : ScopeId) : Eval (List Value) := do
  match e with
  | .index base key =>
    let v ← eval base scope
    let key ← eval key scope
    match v with
    | .map entries zero =>
      let key ← asKey key
      match ← viewStore fun s => entries.bind (s.mapLookup · key) with
      | some found => return [found, .bool true]
      | none => return [← copied zero, .bool false]
    | .nil => return [.nil, .bool false]
    | other => error (.commaOkIndex (← typeName other))
  | .assert subject ty =>
    let v ← eval subject scope
    if ← hasType v ty then return [← adapt ty v, .bool true]
    else return [← zeroValue ty, .bool false]
  | _ => error (.assignmentMismatch 2 1)

/-- The value of an expression that is assigned to one of `targets` targets. -/
def assigned (targets : Nat) (scope : ScopeId) (e : Expr) : Eval Value := do
  match ← eval e scope with
  | .tuple items =>
    if 1 < targets || !items.isEmpty then error (.manyValues items.length)
    else return .tuple items
  | v => return v

def rightSide (es : List Expr) (targets : Nat) (scope : ScopeId) :
    Eval (List Value) := do
  if es.length = targets then es.mapM (assigned targets scope)
  else
    match es with
    | [e] =>
      if targets = 2 && isCommaOk e then commaOk e scope
      else
        match ← eval e scope with
        | .tuple items =>
          if items.length = targets then return items
          else error (.assignmentMismatch targets items.length)
        | _ => error (.assignmentMismatch targets 1)
    | _ => error (.assignmentMismatch targets es.length)

/-! ## Targets -/

/-- Store a value in a variable; the name of the variable decides about its width. -/
def assignVariable (name : String) (v : Value) (scope : ScopeId) : Eval Unit := do
  if name = "_" then return
  match ← resolve? scope name with
  | none => error (.undefined name)
  | some found =>
    let old ← readCell found.cell
    match old.keepingFloat v with
    | .int n => writeCell found.cell (.int (IntWidth.wrapTo found.width n))
    | v => writeCell found.cell v

def assignElement (container key v : Value) : Eval Unit := do
  match ← viewStore (·.target container) with
  | .slice items =>
    let i ← asIndex key items.length
    let old ← viewStore (·.element items i)
    changeStore (·.setElement items i (old.keepingFloat v))
  | .map entries zero =>
    let key ← asKey key
    match entries with
    | some m => changeStore (·.mapInsert m key (zero.keepingFloat v))
    | none => panic .nilMapAssignment
  | .nil => panic .nilMapAssignment
  | .string _ => error .stringIndex
  | other => error (.notIndexable (← typeName other))

/-- Write a field of a struct; what it held before decides about the form of a number. -/
def assignField (base : Value) (field : String) (v : Value) : Eval Unit := do
  match base with
  | .struct o | .pointer o =>
    let old ← walkStore (·.lookupField o field)
    let (written, s) ← walkStore (·.writeField o field ((old.getD .nil).keepingFloat v))
    changeStore fun _ => s
    if !written then error (.missingField (← viewStore (·.structName o)) field)
  | .nil => panic .nilDereference
  | other => error (.fieldOf field (← typeName other))

def assignThrough (pointer v : Value) : Eval Unit := do
  match pointer with
  | .ref c =>
    let old ← readCell c
    writeCell c (old.keepingFloat v)
  | .pointer destination =>
    match v with
    | .struct source | .pointer source =>
      if destination = source then return
      let object ← viewStore (·.structObject source)
      let fields ← copiedAll object.fields.toList
      changeStore (·.setFields destination fields.toArray)
    | other => error (.throughStructPointer (← typeName other))
  | .nil => panic .nilDereference
  | other => error (.notIndirect (← typeName other))

def assign (target : Expr) (v : Value) (scope : ScopeId) : Eval Unit := do
  match target with
  | .name name => assignVariable name v scope
  | .index base key =>
    let container ← eval base scope
    let key ← eval key scope
    assignElement container key v
  | .select base field => assignField (← eval base scope) field v
  | .unary .deref operand => assignThrough (← eval operand scope) v
  | _ => error .notAssignable

def assignEach (scope : ScopeId) : List Expr → List Value → Eval Unit
  | target :: targets, v :: values => do
    assign target (← copied v) scope
    assignEach scope targets values
  | _, _ => pure ()

/-! ## Declarations -/

def defineEach (scope : ScopeId) (ty : Option TypeExpr) (width : Option IntWidth) :
    List String → List Value → Eval Unit
  | name :: names, v :: values => do
    let v ← copied v
    let v ← match ty with
      | some ty => adapt ty v
      | none => pure v
    define scope name v width
    defineEach scope ty width names values
  | _, _ => pure ()

def zeroValues (ty : TypeExpr) : List String → Eval (List Value)
  | [] => pure []
  | _ :: rest => do
    let v ← zeroValue ty
    return v :: (← zeroValues ty rest)

def declare (spec : ValueSpec) (isConstant : Bool) (scope : ScopeId) :
    Eval Unit := do
  setLine spec.line
  let values ←
    if spec.values.isEmpty then
      match spec.type with
      | none => error .missingInitializer
      | some ty => zeroValues ty spec.names
    else if isConstant then do
      let inner ← newScope scope
      define inner "iota" (.int (Int64.ofNat spec.iota)) none
      rightSide spec.values spec.names.length inner
    else rightSide spec.values spec.names.length scope
  let width ← match spec.type with
    | some ty => view (·.types.width? ty)
    | none => pure none
  defineEach scope spec.type width spec.names values

def conversionWidth? (scope : ScopeId) (e : Expr) : Eval (Option IntWidth) := do
  match e with
  | .call (.name name) _ _ =>
    if (← resolve? scope name).isSome then return none
    else view (·.types.width? (.named name))
  | .call (.type ty) _ _ => view (·.types.width? ty)
  | _ => return none

/-- Store values in the variables of a scope itself; names without one are declared.  The result
tells whether some were. -/
def defineNew (scope : ScopeId) : List String → List Value → List (Option IntWidth) →
    (anyNew : Bool) → Eval Bool
  | name :: names, v :: values, width :: widths, anyNew => do
    if name = "_" then defineNew scope names values widths anyNew
    else
      let v ← copied v
      match ← viewStore (·.localVariable? scope name) with
      | some found =>
        writeCell found.cell ((← readCell found.cell).keepingFloat v)
        defineNew scope names values widths anyNew
      | none =>
        define scope name v width
        defineNew scope names values widths true
  | _, _, _, anyNew => pure anyNew

def defineShort (names : List String) (es : List Expr) (scope : ScopeId) :
    Eval Unit := do
  let widths ←
    if es.length = names.length then es.mapM (conversionWidth? scope)
    else pure (names.map fun _ => none)
  let values ← rightSide es names.length scope
  let anyNew ← defineNew scope names values widths false
  if !anyNew && names.any (· ≠ "_") then error .noNewVariables

end SandboxedGo.Eval
