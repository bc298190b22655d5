import SandboxedGo.Submission.Scan
import SandboxedGo.Text.Quoted
import SandboxedGo.Text.Search

/-!
# What programs may not contain

A policy bounds the size of a program and forbids imports and compiler directives.  The first
violation counts: size, emptiness, imports, directives.  A policy can be extended but not relaxed.
-/

set_option autoImplicit false

namespace SandboxedGo.Submission

/-!
## The imports of a source text

Every import path is found, wherever the word `import` stands: alone, behind another name for the
package or a dot, or in parentheses.
-/

def Piece.isClosing (p : Piece) : Bool := p.kind = .rParen

def Piece.text? (p : Piece) : Option String :=
  match p.kind with
  | .text value => some value
  | _ => none

def importPathsIn : List Piece → List String
  | [] => []
  | t :: rest =>
    if t.isWord "import" then
      match rest with
      | ⟨.lParen, _⟩ :: more =>
        (more.takeWhile (!·.isClosing)).filterMap Piece.text? ++
          importPathsIn (more.dropWhile (!·.isClosing))
      | ⟨.text path, _⟩ :: more => path :: importPathsIn more
      | ⟨.name, _⟩ :: ⟨.text path, _⟩ :: more => path :: importPathsIn more
      | ⟨.dot, _⟩ :: ⟨.text path, _⟩ :: more => path :: importPathsIn more
      | more => importPathsIn more
    else importPathsIn rest
termination_by tokens => tokens.length
decreasing_by
  · have shorter := (List.dropWhile_sublist (fun p : Piece => !p.isClosing) (l := more)).length_le
    simp only [List.length_cons]
    omega
  all_goals simp only [List.length_cons]; omega

def importPaths (source : String) : List String := importPathsIn (tokens source.toList)

/-! ## Policies -/

structure Policy where
  maxSourceBytes : Nat
  /-- A path is forbidden if it is one of these or lies under one; in increasing order. -/
  forbiddenImports : List String
  /-- Texts that may not occur anywhere. -/
  forbiddenDirectives : List String

inductive Violation
  | sizeExceeded (size limit : Nat)
  | empty
  | forbiddenImport (path : String)
  | forbiddenDirective (directive : String)
  deriving DecidableEq, Repr

namespace Violation

def message : Violation → String
  | sizeExceeded size limit =>
    "source is " ++ toString size ++ " bytes, exceeding the limit of " ++ toString limit ++ " bytes"
  | empty => "source is empty"
  | forbiddenImport path => "import of " ++ Text.quoteDiagnostic path ++ " is not allowed"
  | forbiddenDirective directive =>
    "directive " ++ Text.quoteDiagnostic directive ++ " is not allowed"

end Violation

/-- Whether a path is another one or lies under it. -/
def isUnder (path parent : String) : Bool :=
  path = parent || (parent.toList ++ ['/']).isPrefixOf path.toList

def insertSorted (text : String) : List String → List String
  | [] => [text]
  | t :: rest =>
    if text < t then text :: t :: rest
    else if text = t then t :: rest
    else t :: insertSorted text rest

namespace Policy

/-- The policy with the given limits; the order of the imports does not matter. -/
def make (maxSourceBytes : Nat) (imports directives : List String) : Policy where
  maxSourceBytes
  forbiddenImports := imports.foldl (fun sorted path => insertSorted path sorted) []
  forbiddenDirectives := directives

def forbidsImport (p : Policy) (path : String) : Bool := p.forbiddenImports.any (isUnder path)

def violation? (p : Policy) (source : String) : Option Violation :=
  let chars := source.toList
  if p.maxSourceBytes < source.utf8ByteSize then
    some (.sizeExceeded source.utf8ByteSize p.maxSourceBytes)
  else if (Text.trim chars).isEmpty then some .empty
  else
    ((importPaths source).find? p.forbidsImport).map .forbiddenImport <|>
      (p.forbiddenDirectives.find? fun d => Text.containsText d.toList chars).map
        .forbiddenDirective

def validate (p : Policy) (source : String) : Except Violation Unit :=
  match p.violation? source with
  | some v => .error v
  | none => .ok ()

def forbidImport (p : Policy) (path : String) : Policy :=
  { p with forbiddenImports := insertSorted path p.forbiddenImports }

def forbidDirective (p : Policy) (directive : String) : Policy :=
  if p.forbiddenDirectives.contains directive then p
  else { p with forbiddenDirectives := p.forbiddenDirectives ++ [directive] }

end Policy

end SandboxedGo.Submission
