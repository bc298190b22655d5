import SandboxedGo.Source.Fault
import SandboxedGo.Source.Tree

/-!
# The parser's tools

A parser reads from a list of tokens whose last one marks the end of the text and is never
consumed.  Besides the tokens it knows how deep it is nested, and whether a brace after a name may
open a composite literal.

The grammar is recursive.  `Grammar` collects the parsers that it recurs to; every other parser is
an ordinary definition that takes a grammar for the constructs nested inside it.  Each recursion
happens behind a consumed token, so a grammar as deep as the token list is long never runs out.
-/

set_option autoImplicit false

namespace SandboxedGo.Source

structure Reading where
  rest : List Located
  /-- At least as many as there are tokens left; no loop makes more rounds. -/
  bound : Nat
  /-- Negative inside the headers of statements, where a brace opens the body. -/
  level : Int := 0
  depth : Nat := 0

abbrev Parser := EStateM ParseError Reading

structure Grammar where
  type : Parser TypeExpr
  expr : Parser Expr
  unary : Parser Expr
  /-- Operators that bind at least this tightly. -/
  binary : Nat → Parser Expr
  composite : TypeExpr → Parser Expr
  ifStmt : Parser Stmt
  /-- The statements of one declaration, or one other statement. -/
  stmts : Parser (List Stmt)
  block : Parser (List Stmt)

namespace Parser

/-- How deep types, expressions, statements and blocks may be nested. -/
def maxNesting : Nat := 200

def next : Parser Located := do
  match (← get).rest with
  | t :: _ => pure t
  | [] => pure ⟨.endOfText, ⟨0, 0⟩⟩

def peek : Parser Token := return (← next).token

def peekSecond : Parser Token := do
  match (← get).rest with
  | _ :: t :: _ => pure t.token
  | _ => peek

def line : Parser Nat := return (← next).position.line

def fail {α : Type} (fault : Fault) : Parser α := do
  throw ⟨(← next).position, fault⟩

def unexpected {α : Type} (expecting : String) : Parser α := do
  fail (.unexpected (← peek) expecting)

/-- Consume the next token; the last one stays. -/
def advance : Parser Unit := modify fun s =>
  match s.rest with
  | _ :: t :: rest => { s with rest := t :: rest }
  | _ => s

def atMark (m : Mark) : Parser Bool := return (← peek).isMark m

def atKeyword (k : Keyword) : Parser Bool := return (← peek).isKeyword k

def eat (m : Mark) : Parser Bool := do
  if ← atMark m then
    advance
    pure true
  else pure false

def eatKeyword (k : Keyword) : Parser Bool := do
  if ← atKeyword k then
    advance
    pure true
  else pure false

def expect (m : Mark) (what : String) : Parser Unit := do
  unless ← eat m do unexpected what

def name : Parser String := do
  match ← peek with
  | .name word =>
    advance
    pure word
  | _ => unexpected "name"

def skipSemicolons : Parser Unit := modify fun s =>
  { s with rest := s.rest.dropWhile (·.token.isMark .semi) }

/-- The end of a statement; a closing bracket or the end of the text may follow without one. -/
def endOfStatement : Parser Unit := do
  match ← peek with
  | .mark .semi => advance
  | .mark .rParen | .mark .rBrace | .endOfText => pure ()
  | _ => unexpected "newline or ;"

/-- A parser one level deeper in the program. -/
def nested {α : Type} (p : Parser α) : Parser α := do
  modify fun s => { s with depth := s.depth + 1 }
  if maxNesting < (← get).depth then fail .nestedTooDeeply
  let result ← p
  modify fun s => { s with depth := s.depth - 1 }
  pure result

/-- A parser under another expression level. -/
def withLevel {α : Type} (change : Int → Int) (p : Parser α) : Parser α := do
  let saved := (← get).level
  modify fun s => { s with level := change saved }
  let result ← p
  modify fun s => { s with level := saved }
  pure result

/-- The headers of statements, where a brace opens the body. -/
def inHeader {α : Type} (p : Parser α) : Parser α := withLevel (fun _ => -1) p

/-- The inside of brackets. -/
def inBrackets {α : Type} (p : Parser α) : Parser α := withLevel (· + 1) p

/-- One round of a list. -/
inductive Piece (α : Type)
  | stop
  | last (a : α)
  | more (a : α)

/-- Repeat until a round stops; each round sees what was read so far, in reverse.  A round that
goes on has consumed a token. -/
def collectFrom {α : Type} (round : List α → Parser (Piece α)) : Nat → List α → Parser (List α)
  | 0, _ => fail .nestedTooDeeply
  | rounds + 1, read => do
    match ← round read with
    | .stop => pure read.reverse
    | .last a => pure (a :: read).reverse
    | .more a => collectFrom round rounds (a :: read)

def collectWith {α : Type} (round : List α → Parser (Piece α)) : Parser (List α) := do
  collectFrom round ((← get).bound + 1) []

def collect {α : Type} (round : Parser (Piece α)) : Parser (List α) := collectWith fun _ => round

def entriesTo {α : Type} (closing : Mark) (entry : Parser α) : Parser (List α) := collect do
  skipSemicolons
  if ← eat closing then pure .stop
  else
    let a ← entry
    endOfStatement
    pure (.more a)

def itemsTo {α : Type} (closing : Mark) (spelling : String) (item : List α → Parser α) :
    Parser (List α) := collectWith fun read => do
  skipSemicolons
  if ← eat closing then pure .stop
  else
    let a ← item read
    if ← eat .comma then pure (.more a)
    else
      skipSemicolons
      expect closing spelling
      pure (.last a)

def commaSeparated {α : Type} (item : Parser α) : Parser (List α) := collect do
  let a ← item
  if ← eat .comma then pure (.more a) else pure (.last a)

end Parser

end SandboxedGo.Source
