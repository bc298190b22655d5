import SandboxedGo.Artifact.Cache
import SandboxedGo.Duration
import SandboxedGo.Text.CharClass.Words
import SandboxedGo.Text.Character
import SandboxedGo.Text.Quoted
import SandboxedGo.Text.Search

/-!
# Compilation

A source is compiled by a toolchain, unless the cache has the artifact of the same text.  Only
artifacts enter the cache; a failed build leaves it as it is.
-/

set_option autoImplicit false

namespace SandboxedGo

/-!
## The first diagnostic

Of everything that a toolchain writes, the one line worth showing: the first that speaks of an
error or names a place by line and column, else the first that is not blank.
-/

def isDecimalDigit (c : Char) : Bool := Text.CharClass.decimalDigit.contains c

def beginsPlace : List Char → Bool
  | ':' :: rest =>
    match rest.takeWhile isDecimalDigit, rest.dropWhile isDecimalDigit with
    | _ :: _, ':' :: d :: _ => isDecimalDigit d
    | _, _ => false
  | _ => false

def namesPlace : List Char → Bool
  | [] => false
  | c :: rest => beginsPlace (c :: rest) || namesPlace rest

def isDiagnostic (line : List Char) : Bool :=
  Text.containsText "error".toList (line.map Char.toLower) || namesPlace line

def shownLines (output : String) : List (List Char) :=
  ((Text.splitAll ['\n'] output.toList).map Text.trim).filter (!·.isEmpty)

def firstDiagnostic (output : String) : String :=
  let lines := shownLines output
  match lines.find? isDiagnostic <|> lines.head? with
  | some line => String.ofList line
  | none => "compilation failed"

inductive CompilationError
  /-- The toolchain rejected the program; this is all that it wrote. -/
  | rejected (output : String)
  | toolchainUnavailable (program : String)
  | timedOut (limit : Duration)
  | missingArtifact
  deriving DecidableEq, Repr

namespace CompilationError

def message : CompilationError → String
  | rejected output => "compilation failed: " ++ firstDiagnostic output
  | toolchainUnavailable program =>
    "toolchain " ++ Text.quoteDiagnostic program ++ " is not installed or not in PATH"
  | timedOut limit => "toolchain timed out after " ++ limit.text
  | missingArtifact => "toolchain reported success but produced no artifact"

def diagnostics? : CompilationError → Option String
  | rejected output => some output
  | _ => none

end CompilationError

structure Workspace where
  source : String
  /-- The description of its module. -/
  manifest : String

def Workspace.ofSource (source : String) : Workspace := ⟨source, "module guest\n\ngo 1.21\n"⟩

abbrev Toolchain := Workspace → Except CompilationError Artifact

structure Compiler where
  cache : ArtifactCache
  builds : Nat := 0

namespace Compiler

def store (c : Compiler) (source : String) : Except CompilationError Artifact → Compiler
  | .ok artifact => { c with cache := c.cache.insert (Digest.ofText source) artifact }
  | .error _ => c

def build (c : Compiler) (toolchain : Toolchain) (source : String) :
    Except CompilationError Artifact × Compiler :=
  let result := toolchain (.ofSource source)
  (result, { c with builds := c.builds + 1 }.store source result)

def compile (c : Compiler) (toolchain : Toolchain) (source : String) :
    Except CompilationError Artifact × Compiler :=
  match c.cache.get? (Digest.ofText source) with
  | (some artifact, cache) => (.ok artifact, { c with cache })
  | (none, _) => c.build toolchain source

def clear (c : Compiler) : Compiler := { c with cache := c.cache.clear }

end Compiler

end SandboxedGo
