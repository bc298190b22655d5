import SandboxedGo.Json

/-!
# The host of a run

A host lends functions to a guest program.  What a function answers depends on its arguments and
on the calls made before.  While it works it may ask the run to stop.
-/

set_option autoImplicit false

namespace SandboxedGo

structure HostCall where
  function : String
  arguments : List Json

inductive HostOutcome
  | value (j : Json)
  /-- A failure; the guest sees an error with this text. -/
  | failure (message : String)
  /-- The function itself broke down; the guest sees nothing more. -/
  | crash (message : String)

structure HostReply where
  outcome : HostOutcome
  /-- Whether the run was asked to stop meanwhile. -/
  interrupts : Bool := false

structure HostFunction where
  name : String
  respond : (history : Array HostCall) → (arguments : List Json) → HostReply

end SandboxedGo
