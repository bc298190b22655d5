import SandboxedGo.Eval.DynamicType
import SandboxedGo.Eval.Basic
import SandboxedGo.Store.Boundary

/-!
# Calls

A call binds its arguments in a scope of its own, executes the body, and then the deferred calls of
the body, last one first.  Deferred calls run when the body ended normally or panicked; one that
recovers turns the panic into a normal end.
-/

set_option autoImplicit false

namespace SandboxedGo

open Source

namespace FuncLit

def namedResults? (f : FuncLit) : Option (List String) :=
  if f.results.isEmpty then none else f.results.mapM Param.name

end FuncLit

namespace Eval

/-! ## Parameters and results -/

def bindEach (scope : ScopeId) : List Param → List Value → Eval Unit
  | p :: params, v :: arguments => do
    let v ← adapt p.type (← copied v)
    match p.name with
    | some name => define scope name v (← view (·.types.width? p.type))
    | none => pure ()
    bindEach scope params arguments
  | _, _ => pure ()

/-- Bind arguments to the parameters of a function; the last parameter of a variadic function takes
a slice of the arguments that are left, unless the arguments were spread already. -/
def bindParameters (f : FuncLit) (scope : ScopeId) (arguments : List Value) (spread : Bool) :
    Eval Unit := do
  let wanted := f.params.length
  let arguments ←
    if f.variadic && !spread then
      let fixed := wanted - 1
      if arguments.length < fixed then error (.tooFewArguments arguments.length fixed)
      let rest := arguments.drop fixed
      let packed ← if rest.isEmpty then nilSlice else newSlice rest
      pure (arguments.take fixed ++ [packed])
    else pure arguments
  if arguments.length ≠ wanted then error (.argumentCount arguments.length wanted)
  bindEach scope f.params arguments

def defineResults (scope : ScopeId) : List Param → Eval Unit
  | [] => pure ()
  | r :: rest => do
    define scope (r.name.getD "_") (← zeroValue r.type) none
    defineResults scope rest

def assignResults (scope : ScopeId) : List String → List Value → Eval Unit
  | name :: names, v :: values => do
    match ← viewStore (·.localVariable? scope name) with
    | some found => writeCell found.cell v
    | none => pure ()
    assignResults scope names values
  | _, _ => pure ()

/-- The value of a variable of a scope itself. -/
def localValue (scope : ScopeId) (name : String) : Eval Value := do
  match ← viewStore (·.localVariable? scope name) with
  | some found => readCell found.cell
  | none => return .nil

def namedValue (scope : ScopeId) (names : List String) : Eval Value := do
  match ← names.mapM (localValue scope) with
  | [v] => return v
  | values => return .tuple values

/-- Whether a value is what a `return` without operands carries. -/
def isBareReturn : Value → Bool
  | .tuple [] => true
  | _ => false

def adaptResults (results : List Param) (v : Value) : Eval Value :=
  match results, v with
  | [r], v => adapt r.type v
  | results, .tuple items =>
    if results.length = items.length then do
      return .tuple (← (items.zip results).mapM fun (v, r) => adapt r.type v)
    else pure v
  | _, v => pure v

/-! ## Bodies -/

/-- Execute a block; what it returns, if it comes to a `return`. -/
def returnedBy (body : List Stmt) (scope : ScopeId) : Flow (Option Value) := do
  match ← outcome (block body scope) with
  | .ok _ => return none
  | .error (.return v) => return some v
  | .error s => Flow.raise s

def storeResults (scope : ScopeId) (named : Option (List String)) : Option Value → Eval Unit
  | none => pure ()
  | some v =>
    match named with
    | none => pure ()
    | some names =>
      if isBareReturn v then pure ()
      else
        match v with
        | .tuple items => assignResults scope names (if names.length = 1 then [v] else items)
        | _ => assignResults scope names [v]

/-- Execute a body; what it returns is kept in its named results. -/
def runBody (body : List Stmt) (scope : ScopeId) (named : Option (List String)) :
    Flow (Option Value) := do
  let returned ← returnedBy body scope
  storeResults scope named returned
  return returned

/-! ## Calls of declared functions -/

def openScope (f : FuncLit) (env : ScopeId) (receiver : Option (String × Value))
    (arguments : List Value) (spread : Bool) : Eval ScopeId := do
  let scope ← newScope env
  match receiver with
  | some (name, v) => define scope name v none
  | none => pure ()
  bindParameters f scope arguments spread
  if (FuncLit.namedResults? f).isSome then defineResults scope f.results
  return scope

/-- The value of a call whose body has ended normally, with or without a `return`. -/
def resultValue (f : FuncLit) (scope : ScopeId) (returned : Option Value) : Eval Value := do
  let v ←
    match FuncLit.namedResults? f with
    | some names => namedValue scope names
    | none =>
      match returned with
      | some v => pure (if isBareReturn v then .nil else v)
      | none => pure .nil
  adaptResults f.results v

/-- Execute a function declared by the program: the scope of the call, and how the function ends. -/
def execution (f : FuncLit) (env : ScopeId) (receiver : Option (String × Value))
    (arguments : List Value) (spread : Bool) : Eval (ScopeId × Ending) :=
  invocation (openScope f env receiver arguments spread) fun scope =>
    runBody f.body scope (FuncLit.namedResults? f)

def invoke (f : FuncLit) (env : ScopeId) (receiver : Option (String × Value))
    (arguments : List Value) (spread : Bool) : Flow Value := do
  let (scope, ended) ← execution f env receiver arguments spread
  resultValue f scope (← Flow.ofExcept ended)

/-- The receiver as a method sees it: itself for a pointer, a copy for a value. -/
def boundReceiver (receiver : Receiver) (v : Value) : Eval Value :=
  match v with
  | .struct o => if receiver.isPointer then pure (.pointer o) else copied v
  | .pointer o => if receiver.isPointer then pure v else copied (.struct o)
  | _ => copied v

def invokeMethod (decl : FuncDecl) (v : Value) (arguments : List Value)
    (spread : Bool) : Flow Value :=
  match decl.receiver with
  | none => error (.notMethod decl.name)
  | some receiver => do
    let bound ← boundReceiver receiver v
    invoke decl.function globalScope (receiver.name.map (·, bound)) arguments spread

/-! ## Calls of host functions -/

def hostArgument (name : String) (v : Value) : Eval Json := do
  match ← walkStore (·.toJson? v) with
  | .ok j => return j
  | .error fault => error (.hostArgument name fault.message)

/-- Call a function of the host: a value and nil, or nil and an error. -/
def invokeHost (name : String) (place : Nat) (arguments : List Value) : Eval Value := do
  match ← askHost name place (arguments.mapM (hostArgument name)) with
  | .ok j => return .tuple [← onStore j.toValue, .nil]
  | .error message => return .tuple [.nil, ← newError message none]

end Eval

end SandboxedGo
