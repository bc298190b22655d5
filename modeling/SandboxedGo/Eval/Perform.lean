import SandboxedGo.Eval.Builtins
import SandboxedGo.Eval.Call
import SandboxedGo.Eval.Statements
import SandboxedGo.Library.Call

/-!
# Tying the knot

All work is put together here, calls of functions of every kind among it.  An evaluator of some
depth does work whose parts are nested less deep.  Work that is nested too deep is left unfinished,
and so are loops with too many rounds.  What evaluation of some depth finishes, all deeper
evaluation finishes in the same way.
-/

set_option autoImplicit false

namespace SandboxedGo

/-- Call a function.  What that does depends on where the function comes from: the program, the
language, the library or the host. -/
def Eval.apply (function : Value) (arguments : List Value) (spread : Bool) :
    Flow Value := do
  match function with
  | .func (.closure _ f scope) => invoke f scope none arguments spread
  | .func (.method receiver decl) => invokeMethod decl receiver arguments spread
  | .func (.builtin b) =>
    let arguments ← if spread then expandSpread arguments else pure arguments
    builtin b arguments
  | .func (.library f) =>
    let arguments ← if spread then expandSpread arguments else pure arguments
    undertake .libraryCall (pure ())
    f.call arguments
  | .func (.host name place) =>
    let arguments ← if spread then expandSpread arguments else pure arguments
    invokeHost name place arguments
  | .nil => panic .nilDereference
  | other => error (.notFunction (← typeName other))

def Work.step : Work → Flow Value
  | .evaluate e scope => Eval.evaluate e scope
  | .execute s scope => do
    Eval.execute s scope
    return .nil
  | .call function arguments spread => Eval.apply function arguments spread
  | .render v => do return .string (← Format.innerText v)
  | .directive verb v spec => do
    return .string (String.ofList (← Format.directiveText verb v spec))

/-- Do work that is nested less than `depth` deep. -/
def perform : (depth : Nat) → Work → Action Value
  | 0, _ => Action.halt .unfinished
  | depth + 1, w => w.step.run ⟨depth, perform depth⟩

def Evaluator.ofDepth (depth : Nat) : Evaluator := ⟨depth, SandboxedGo.perform depth⟩

end SandboxedGo
