import SandboxedGo.Artifact.Compiler
import SandboxedGo.Execution.Interpreted
import SandboxedGo.Submission.HostCalls

/-!
# The sandbox

Generated text goes in, the result of its execution comes out.  The code in the text is checked for
an entry point and against the policy before anything else happens to it.  It is then interpreted,
or compiled for the machine of compiled modules.
-/

set_option autoImplicit false

namespace SandboxedGo

open Submission

inductive SandboxError
  | malformed (fault : StructureFault)
  | forbidden (violation : Violation)
  | compilation (e : CompilationError)
  deriving DecidableEq, Repr

namespace SandboxError

def message : SandboxError → String
  | malformed fault => "malformed program: " ++ fault.message
  | forbidden violation => "validation failed: " ++ violation.message
  | compilation e => e.message

end SandboxError

structure Sandbox where
  policy : Policy
  bridgeName : String
  compiler : Compiler
  interpreted : InterpretedBackend

namespace Sandbox

def ofSettings (s : Settings) (host : HostMachine := {}) : Sandbox where
  policy := s.validation.policy
  bridgeName := s.interpreter.bridgeName
  compiler := { cache := { maxEntries := s.cache.maxEntries, maxBytes := s.cache.maxBytes } }
  interpreted := .make s.limits s.interpreter host

def accept (s : Sandbox) (code : String) : Except SandboxError Unit :=
  match checkStructure code with
  | .error fault => .error (.malformed fault)
  | .ok () =>
    match s.policy.validate code with
    | .error violation => .error (.forbidden violation)
    | .ok () => .ok ()

def interpret (s : Sandbox) (raw : String) (bridge : Option Bridge) (canceled : Bool) :
    Except SandboxError ExecutionResult × Sandbox :=
  let code := prepare raw s.bridgeName
  match s.accept code with
  | .error e => (.error e, s)
  | .ok () =>
    let (result, interpreted) := s.interpreted.execute { source := code, bridge, canceled }
    (.ok result, { s with interpreted })

/-- Compile the program in generated text.  A compiled program has no bridge, so the calls of the
host stay as they are. -/
def compile (s : Sandbox) (toolchain : Toolchain) (raw : String) :
    Except SandboxError Artifact × Sandbox :=
  let code := extractCode raw
  match s.accept code with
  | .error e => (.error e, s)
  | .ok () =>
    let (result, compiler) := s.compiler.compile toolchain code
    (result.mapError .compilation, { s with compiler })

def forbidImport (s : Sandbox) (path : String) : Sandbox :=
  { s with policy := s.policy.forbidImport path }

def forbidDirective (s : Sandbox) (directive : String) : Sandbox :=
  { s with policy := s.policy.forbidDirective directive }

end Sandbox

end SandboxedGo
