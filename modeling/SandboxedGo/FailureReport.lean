import SandboxedGo.Source.Token

/-!
# Reports of failed runs

What a host is told about a run that failed: the kind of failure and, where the program is to
blame, a text.
-/

set_option autoImplicit false

namespace SandboxedGo

open Source

inductive FailureReport
  | syntaxError (position : Position) (message : String)
  | panic (message : String)
  | runtime (message : String)
  | interrupted
  | budgetExhausted (budget : Nat)
  | stackOverflow (depth : Nat)
  | exit (code : Int)
  /-- The interpreter itself broke down, with a text if there is one. -/
  | crash (detail : Option String)
  | unfinished
  deriving DecidableEq, Repr

namespace FailureReport

/-- What stands for the text of a breakdown that has none. -/
def unknownCrash : String := "unknown panic payload"

def message : FailureReport → String
  | syntaxError position message =>
    "syntax error: " ++ toString position.line ++ ":" ++ toString position.column ++ ": " ++ message
  | panic message => message
  | runtime message => message
  | interrupted => "evaluation interrupted"
  | budgetExhausted budget => "step budget of " ++ toString budget ++ " exhausted"
  | stackOverflow depth => "stack overflow: call depth exceeded " ++ toString depth
  | exit code => "exit status " ++ toString code
  | crash detail => "interpreter panic: " ++ detail.getD unknownCrash
  | unfinished => "evaluation unfinished"

end FailureReport

end SandboxedGo
