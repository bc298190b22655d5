import SandboxedGo.Duration
import SandboxedGo.FailureReport
import SandboxedGo.Text.Search

/-!
# Failed executions

The kinds of failure that a caller tells apart, and how the failure of an interpreted program and
the failure of a compiled module become one of them.  If the host stopped an interpreted program,
that is the failure whatever the interpreter says.  Of a compiled module, what the machine itself
reports comes first, and only the text of an error without a type of its own is searched.
-/

set_option autoImplicit false

namespace SandboxedGo

/-!
## Stopping an execution

The host stops an execution when its time is over or when the caller cancels it.  The first reason
that is recorded stays.
-/

/-- Why the host stopped an execution, if it did. -/
inductive StopReason
  | running
  | deadline
  | canceled
  deriving DecidableEq, Repr

/-- The reason that is recorded. -/
structure StopFlag where
  reason : StopReason := .running
  deriving DecidableEq, Repr

namespace StopFlag

def isStopped (f : StopFlag) : Bool := f.reason ≠ .running

/-- Record a reason unless there is one, and say whether it was recorded. -/
def stop (f : StopFlag) (reason : StopReason) : Bool × StopFlag :=
  if f.isStopped then (false, f) else (true, ⟨reason⟩)

end StopFlag

inductive FailureKind
  /-- The time or the step budget was used up. -/
  | timeout
  /-- The caller canceled the execution. -/
  | canceled
  /-- The memory limit was hit, or memory out of bounds was used. -/
  | memory
  /-- A panic, an illegal instruction or a stack overflow of the program. -/
  | trap
  | runtime
  deriving DecidableEq, Repr

def FailureKind.name : FailureKind → String
  | timeout => "timeout"
  | canceled => "canceled"
  | memory => "memory"
  | trap => "trap"
  | runtime => "runtime"

structure ExecutionFailure where
  kind : FailureKind
  message : String
  deriving DecidableEq, Repr

namespace ExecutionFailure

def text (f : ExecutionFailure) : String := f.kind.name ++ ": " ++ f.message

def timeout (limit : Duration) : ExecutionFailure :=
  ⟨.timeout, "execution exceeded timeout of " ++ limit.text⟩

def canceled : ExecutionFailure := ⟨.canceled, "execution canceled"⟩

def stopped (reason : StopReason) (limit : Duration) : ExecutionFailure :=
  match reason with
  | .canceled => canceled
  | _ => timeout limit

end ExecutionFailure

structure ExecutionResult where
  stdout : String
  stderr : String
  failure : Option ExecutionFailure

/-! ## Interpreted programs -/

/-- The kind of a failure that the interpreter reports; none for a run that was asked to stop. -/
def FailureReport.kind? : FailureReport → Option FailureKind
  | .interrupted => none
  | .budgetExhausted _ => some .timeout
  | .panic _ | .stackOverflow _ | .crash _ => some .trap
  | .exit _ | .syntaxError _ _ | .runtime _ | .unfinished => some .runtime

/-- The failure of an interpreted program, given what the interpreter reports and whether the host
stopped it. -/
def classifyRun (report : Option FailureReport) (reason : StopReason) (limit : Duration) :
    Option ExecutionFailure :=
  if reason ≠ .running then some (.stopped reason limit)
  else
    report.map fun r =>
      match r.kind? with
      | some kind => ⟨kind, r.message⟩
      | none => .stopped reason limit

/-! ## Compiled modules -/

inductive ModuleTrap
  | interrupt | memoryOutOfBounds | misaligned | unreachable | stackOverflow | divisionByZero
  deriving DecidableEq, Repr

def ModuleTrap.message : ModuleTrap → String
  | interrupt => "wasm trap: interrupt"
  | memoryOutOfBounds => "wasm trap: out of bounds memory access"
  | misaligned => "wasm trap: unaligned atomic"
  | unreachable => "wasm trap: wasm \x60unreachable\x60 instruction executed"
  | stackOverflow => "wasm trap: call stack exhausted"
  | divisionByZero => "wasm trap: integer divide by zero"

inductive ModuleFailure
  | exit (code : Int)
  | trap (t : ModuleTrap)
  /-- An error of which only a text is known, with the contexts it passed through, outermost
  first. -/
  | other (contexts : List String) (message : String)
  deriving DecidableEq, Repr

/-- The texts that tell that memory could not grow, in lower case. -/
def memoryTexts : List String :=
  ["forcing trap when growing memory", "exceeds memory limits", "memory growth failure"]

def mentions (text part : String) : Bool :=
  Text.containsText part.toList (text.toList.map Char.toLower)

def classifyText (text : String) (reason : StopReason) (limit : Duration) : ExecutionFailure :=
  if memoryTexts.any (mentions text) then ⟨.memory, text⟩
  else if mentions text "write beyond capacity" then ⟨.runtime, "output limit exceeded"⟩
  else if reason ≠ .running then .stopped reason limit
  else ⟨.runtime, text⟩

/-- The failure of a compiled module; leaving with status zero is none. -/
def classifyModule (failure : ModuleFailure) (reason : StopReason) (limit : Duration) :
    Option ExecutionFailure :=
  match failure with
  | .exit code => if code = 0 then none else some ⟨.runtime, "exit status " ++ toString code⟩
  | .trap .interrupt => some (.stopped reason limit)
  | .trap .memoryOutOfBounds => some ⟨.memory, ModuleTrap.memoryOutOfBounds.message⟩
  | .trap .misaligned => some ⟨.memory, ModuleTrap.misaligned.message⟩
  | .trap t => some ⟨.trap, t.message⟩
  | .other contexts message =>
    some (classifyText (": ".intercalate (contexts ++ [message])) reason limit)

end SandboxedGo
