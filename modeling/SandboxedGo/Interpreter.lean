import SandboxedGo.Library.Catalog
import SandboxedGo.Text.Quoted

/-!
# Interpreter instances

An instance offers packages to the programs that it runs.  It keeps nothing from one run to the
next, so any instance is as good as another.
-/

set_option autoImplicit false

namespace SandboxedGo

structure Interpreter where
  /-- The packages that its programs may import. -/
  packages : List Library.Package := Library.Package.all

namespace Interpreter

def paths (i : Interpreter) : List String := i.packages.map Library.Package.path

def member? (i : Interpreter) (path name : String) : Option Library.Member := do
  Library.member? (← i.packages.find? (·.path = path)) name

def diagnostic (i : Interpreter) : String :=
  "Interpreter \x7b packages: " ++ Text.quoteDiagnosticList i.paths ++ " \x7d"

end Interpreter

end SandboxedGo
