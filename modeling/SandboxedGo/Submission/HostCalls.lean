import SandboxedGo.Submission.Scan
import SandboxedGo.Text.CharClass.Words
import SandboxedGo.Text.Character
import SandboxedGo.Text.Search

/-!
# The entry point and the calls of the host

A program needs an entry point.  Programs call the host under a fixed name.  Before a run the name
is replaced by the one that the host is bound to, and declarations of the program that would hide
the binding are removed.  Literals and comments keep their text.
-/

set_option autoImplicit false

namespace SandboxedGo.Submission

/-!
## The entry point of a program

A program needs a line with the clause `package main`, behind which only a line comment may stand,
and a line that begins with the function `main` without parameters.  White space may stand between
the words, and lines may end there.  The check looks at lines only; comments and literals are not
told apart from code.
-/

def afterWord? (word : String) (chars : List Char) : Option (List Char) :=
  if word.toList.isPrefixOf chars then some (chars.drop word.toList.length) else none

/-- The text behind white space, of which there may be none. -/
def afterBlanks (chars : List Char) : List Char := chars.dropWhile Text.isBlank

/-- The text behind white space that it begins with. -/
def afterSomeBlanks? (chars : List Char) : Option (List Char) :=
  match chars with
  | c :: rest => if Text.isBlank c then some (afterBlanks rest) else none
  | [] => none

/-- Whether some line of a text begins with something; it is asked of the rest of the text from the
beginning of each line on.  `atStart` says whether a line begins here. -/
def anyLineFrom (p : List Char → Bool) (atStart : Bool) : List Char → Bool
  | [] => atStart && p []
  | c :: rest => (atStart && p (c :: rest)) || anyLineFrom p (c = '\n') rest

def anyLine (p : List Char → Bool) (chars : List Char) : Bool := anyLineFrom p true chars

/-- The text behind white space on the same line. -/
def afterIndent (chars : List Char) : List Char :=
  chars.dropWhile fun c => Text.isBlank c && c ≠ '\n'

/-- Whether a line ends after white space or begins a line comment behind it. -/
def endsLine (chars : List Char) : Bool :=
  (chars.takeWhile Text.isBlank).contains '\n' || (afterBlanks chars).isEmpty ||
    ['/', '/'].isPrefixOf (afterBlanks chars)

def beginsPackageMain (chars : List Char) : Bool :=
  match
    (do
      let rest ← afterWord? "package" (afterIndent chars)
      let rest ← afterSomeBlanks? rest
      afterWord? "main" rest : Option (List Char)) with
  | some rest => endsLine rest
  | none => false

/-- Whether a text begins with the head of the function `main`. -/
def beginsMainFunction (chars : List Char) : Bool :=
  (do
    let rest ← afterWord? "func" (afterIndent chars)
    let rest ← afterSomeBlanks? rest
    let rest ← afterWord? "main" rest
    let rest ← afterWord? "(" (afterBlanks rest)
    afterWord? ")" (afterBlanks rest) : Option (List Char)).isSome

def hasPackageMain (chars : List Char) : Bool := anyLine beginsPackageMain chars

inductive StructureFault
  | missingPackageMain
  | missingMainFunction
  deriving DecidableEq, Repr

namespace StructureFault

def message : StructureFault → String
  | missingPackageMain => "missing \x60package main\x60 clause"
  | missingMainFunction => "missing \x60func main()\x60 entry point"

end StructureFault

def checkStructure (code : String) : Except StructureFault Unit :=
  if !hasPackageMain code.toList then .error .missingPackageMain
  else if !anyLine beginsMainFunction code.toList then .error .missingMainFunction
  else .ok ()

/-!
## Matching braces

Where the block ends that a brace opens, with literals and comments left out of account, and where
the body of a function begins behind its parameters and results.
-/

/-- The kinds of text that a reader of braces is in. -/
inductive Region
  | code
  /-- A literal that ends with this quote. -/
  | quoted (delimiter : Char)
  /-- Behind a backslash in such a literal. -/
  | escaped (delimiter : Char)
  | raw
  | lineComment
  | blockComment
  deriving DecidableEq, Repr

/-- The text behind the brace that closes the outermost of `depth` open blocks; none if it is never
closed. -/
def afterClosing : Region → (depth : Nat) → List Char → Option (List Char)
  | _, _, [] => none
  | .code, depth, '/' :: '/' :: rest => afterClosing .lineComment depth rest
  | .code, depth, '/' :: '*' :: rest => afterClosing .blockComment depth rest
  | .code, depth, c :: rest =>
    if c = '\x7b' then afterClosing .code (depth + 1) rest
    else if c = '\x7d' then if depth ≤ 1 then some rest else afterClosing .code (depth - 1) rest
    else if c = '"' || c = '\'' then afterClosing (.quoted c) depth rest
    else if c = '\x60' then afterClosing .raw depth rest
    else afterClosing .code depth rest
  | .quoted delimiter, depth, c :: rest =>
    if c = delimiter then afterClosing .code depth rest
    else if c = '\\' then afterClosing (.escaped delimiter) depth rest
    else afterClosing (.quoted delimiter) depth rest
  | .escaped delimiter, depth, _ :: rest => afterClosing (.quoted delimiter) depth rest
  | .raw, depth, c :: rest => afterClosing (if c = '\x60' then .code else .raw) depth rest
  | .lineComment, depth, c :: rest =>
    afterClosing (if c = '\n' then .code else .lineComment) depth rest
  | .blockComment, depth, '*' :: '/' :: rest => afterClosing .code depth rest
  | .blockComment, depth, _ :: rest => afterClosing .blockComment depth rest

def afterBlock? (chars : List Char) : Option (List Char) := afterClosing .code 0 chars

/-- The offset behind the block that the brace at an offset opens. -/
def matchingBrace? (code : List Char) (opening : Nat) : Option Nat := do
  let rest ← afterBlock? (← Text.behind? opening code)
  some (Text.byteLength code - Text.byteLength rest)

/-- Whether the code read last, in reverse, is the beginning of a type with braces. -/
def opensType (read : List Char) : Bool :=
  let read := read.dropWhile Text.isBlank
  "interface".toList.reverse.isPrefixOf read || "struct".toList.reverse.isPrefixOf read

/-- The text from the brace on that opens the body of a function, behind the open parentheses of
its parameters; braces inside parentheses and of result types do not count.  `read` is the code
behind the last block in reverse.  The steps are bounded by the number of characters. -/
def bodyFrom : Nat → (parens : Nat) → (read : List Char) → List Char → Option (List Char)
  | 0, _, _, _ => none
  | _, _, _, [] => none
  | steps + 1, parens, read, c :: rest =>
    if c = '\x7b' && parens = 0 then
      if opensType read then
        match afterBlock? (c :: rest) with
        | some after => bodyFrom steps 0 [] after
        | none => none
      else some (c :: rest)
    else
      let parens := if c = '(' then parens + 1 else if c = ')' then parens - 1 else parens
      bodyFrom steps parens (c :: read) rest

/-- The text behind a function whose parameters begin here; all of it if the function does not
end. -/
def afterFunction (chars : List Char) : List Char :=
  ((bodyFrom chars.length 1 [] chars).bind afterBlock?).getD []

/-!
## Code inside prose

Generated text often holds a program between fences of three backquotes, the first of which may
carry the name of a language.  Without fences the whole text is the program.
-/

def fence : List Char := ['\x60', '\x60', '\x60']

/-- The code of a text that has only one fence, given what stands before it, behind it on its line,
and on later lines.  A fence with a tag opens the code, and so does one with nothing before it or
with a package clause behind it; any other closes it. -/
def besideFence (before tag after : List Char) : List Char :=
  if !tag.isEmpty || before.isEmpty || (!after.isEmpty && hasPackageMain after) then after
  else before

def codeIn (chars : List Char) : List Char :=
  match Text.breakOn fence chars with
  | none => Text.trim chars
  | some (before, behind) =>
    let after := behind.dropWhile (· ≠ '\n')
    match Text.breakOn fence after with
    | some (inside, _) => Text.trim inside
    | none =>
      besideFence (Text.trim before) (Text.trim (behind.takeWhile (· ≠ '\n'))) (Text.trim after)

def extractCode (raw : String) : String := String.ofList (codeIn raw.toList)

def canonicalHostCall : String := "callTool"

def renameIdentifier (code : List Char) (old new : String) : List Char :=
  (pieces code).flatMap fun p => if p.isWord old then new.toList else p.chars

/-! ## Functions -/

/-- The text behind the opening parenthesis of a function with a certain name that the text begins
with. -/
def afterFunctionHead? (name : String) (chars : List Char) : Option (List Char) := do
  let rest ← afterWord? "func" chars
  let rest ← afterSomeBlanks? rest
  let rest ← afterWord? name rest
  afterWord? "(" (afterBlanks rest)

def dropNewline (chars : List Char) : List Char :=
  match chars with
  | '\n' :: rest => rest
  | rest => rest

/-- The text without the first function of a name that begins a line; what was passed before is
given in reverse. -/
def removeFunctionFrom (name : String) (atStart : Bool) (passed : List Char) :
    List Char → Option (List Char)
  | [] => none
  | c :: rest =>
    match if atStart then afterFunctionHead? name (c :: rest) else none with
    | some behind => some (passed.reverse ++ dropNewline (afterFunction behind))
    | none => removeFunctionFrom name (c = '\n') (c :: passed) rest

/-- The text without the functions of a name that begin lines.  Removing one can put the parts of
another together, so the search starts anew each time; every round makes the text shorter, so the
number of characters bounds the number of rounds. -/
def removeFunctions (name : String) : Nat → List Char → List Char
  | 0, code => code
  | rounds + 1, code =>
    match removeFunctionFrom name true [] code with
    | some shorter => removeFunctions name rounds shorter
    | none => code

/-! ## Variables -/

def isWordChar (c : Char) : Bool := Text.CharClass.word.contains c

/-- Whether a word begins or ends between two characters, of which either may be missing. -/
def isWordBoundary (before after : Option Char) : Bool :=
  before.any isWordChar != after.any isWordChar

/-- The text behind the line of a variable with a certain name that the text begins with. -/
def afterVariable? (name : String) (chars : List Char) : Option (List Char) := do
  let rest ← afterWord? "var" chars
  let rest ← afterSomeBlanks? rest
  let rest ← afterWord? name rest
  if isWordBoundary name.toList.getLast? rest.head? then
    some (dropNewline (rest.dropWhile (· ≠ '\n')))
  else none

/-- The text without the lines of variables of a name, added in reverse to what was kept before.
The steps are bounded by the number of characters. -/
def removeVariables (name : String) : Nat → (atStart : Bool) → (kept : List Char) → List Char →
    List Char
  | 0, _, kept, rest => kept.reverse ++ rest
  | _ + 1, _, kept, [] => kept.reverse
  | steps + 1, atStart, kept, c :: rest =>
    match if atStart then afterVariable? name (c :: rest) else none with
    | some after => removeVariables name steps true kept after
    | none => removeVariables name steps (c = '\n') (c :: kept) rest

/-- The code without the functions and variables of a name that are declared at the beginning of a
line. -/
def stripDeclarations (code : List Char) (name : String) : List Char :=
  let code := removeFunctions name code.length code
  removeVariables name code.length true [] code

/-- The code with its calls of the host bound to a name.  Nothing happens if that is no
identifier. -/
def bindHostCalls (code : List Char) (name : String) : List Char :=
  if !isIdentifier name then code
  else if name = canonicalHostCall then stripDeclarations code name
  else stripDeclarations (renameIdentifier code canonicalHostCall name) name

def withHostCallsBound (code bound : String) : String :=
  String.ofList (bindHostCalls code.toList bound)

/-- The program in generated text, ready to call the host under the name `bound`. -/
def prepare (raw bound : String) : String := withHostCallsBound (extractCode raw) bound

end SandboxedGo.Submission
