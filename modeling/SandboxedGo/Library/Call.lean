import SandboxedGo.Library.Errors
import SandboxedGo.Library.Fmt
import SandboxedGo.Library.Json
import SandboxedGo.Library.Math
import SandboxedGo.Library.Sort
import SandboxedGo.Library.Strconv
import SandboxedGo.Library.Strings
import SandboxedGo.Library.Unicode

/-!
# Calling the library

What each function of the library does with its arguments.
-/

set_option autoImplicit false

namespace SandboxedGo.Library

/-- End the program with a status of 32 bits; deferred calls do not run. -/
def exit (arguments : List Value) : Eval Value := do
  let self : Function := .os .exit
  checkCount self arguments 1
  let status ← intArgument self arguments 0
  Eval.exit status.toUInt64.toUInt32.toInt32.toInt

def Function.call (f : Function) (arguments : List Value) : Eval Value :=
  match f with
  | .fmt f => f.call arguments
  | .strings f => f.call arguments
  | .strconv f => f.call arguments
  | .math f => f.call arguments
  | .errors f => f.call arguments
  | .sort f => f.call arguments
  | .unicode f => f.call arguments
  | .utf8 f => f.call arguments
  | .os _ => exit arguments
  | .json f => f.call arguments

end SandboxedGo.Library
