import SandboxedGo.Eval.Methods
import SandboxedGo.Library.Arguments

/-!
# Errors that wrap errors

An error may wrap another one; declared types do so with a method `Unwrap`.  A chain of wrapped
errors is followed for a hundred errors, since it may run in a circle.
-/

set_option autoImplicit false

namespace SandboxedGo.Library.ErrorsFunction

def unwrapOnce (v : Value) : Eval Value := do
  match v with
  | .error _ _ wrapped => return wrapped.getD .nil
  | _ =>
    match ← Eval.view (·.methodOf? v "Unwrap") with
    | some decl => Eval.callMethodDecl decl v [] false
    | none => return .nil

/-- Whether the target is among the first `steps` errors of a chain that begins with an error that
is not nil. -/
def chainContains (target : Value) : Nat → Value → Eval Bool
  | 0, _ => pure false
  | steps + 1, current => do
    if (← Eval.viewStore (·.equal current target)) matches .ok true then return true
    let next ← unwrapOnce current
    if next.isNil then return false
    chainContains target steps next

/-- How many errors of a chain are looked at. -/
def chainLimit : Nat := 100

def call (f : ErrorsFunction) (arguments : List Value) : Eval Value := do
  let self : Function := .errors f
  match f with
  | new => Eval.newError (← oneText self arguments) none
  | is =>
    checkCount self arguments 2
    let first ← argument self arguments 0
    let target ← argument self arguments 1
    if first.isNil then return .bool target.isNil
    return .bool (← chainContains target chainLimit first)
  | unwrap =>
    checkCount self arguments 1
    unwrapOnce (← argument self arguments 0)

end SandboxedGo.Library.ErrorsFunction
