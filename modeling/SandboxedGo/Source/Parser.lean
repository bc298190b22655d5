import SandboxedGo.Source.Lexer
import SandboxedGo.Source.Parser.Statements

/-!
# Parsing programs

The declarations of a file, and `parseProgram`, which reads a whole source text.
-/

set_option autoImplicit false

namespace SandboxedGo.Source

namespace Grammar

/-- The grammar that may recur `depth` times. -/
def ofDepth : Nat → Grammar
  | 0 =>
    { type := Parser.fail .nestedTooDeeply
      expr := Parser.fail .nestedTooDeeply
      unary := Parser.fail .nestedTooDeeply
      binary := fun _ => Parser.fail .nestedTooDeeply
      composite := fun _ => Parser.fail .nestedTooDeeply
      ifStmt := Parser.fail .nestedTooDeeply
      stmts := Parser.fail .nestedTooDeeply
      block := Parser.fail .nestedTooDeeply }
  | depth + 1 =>
    { type := fun s => Parser.type (ofDepth depth) s
      expr := fun s => Parser.expr (ofDepth depth) s
      unary := fun s => Parser.unary (ofDepth depth) s
      binary := fun least s => Parser.binary (ofDepth depth) least s
      composite := fun type s => Parser.composite (ofDepth depth) type s
      ifStmt := fun s => Parser.ifStmt (ofDepth depth) s
      stmts := fun s => Parser.stmts (ofDepth depth) s
      block := fun s => Parser.block (ofDepth depth) s }

end Grammar

namespace Parser

def importSpec : Parser Import := do
  let given ← match ← peek with
    | .name word =>
      advance
      pure (some word)
    | .mark .dot =>
      advance
      pure (some ".")
    | _ => pure none
  let token ← peek
  advance
  match token with
  | .string path => pure ⟨given, path⟩
  | _ => fail .importPathNotString

def imports : Parser (List Import) := do
  let groups ← collect do
    skipSemicolons
    if ← eatKeyword .import then
      let group ← if ← eat .lParen then entriesTo .rParen importSpec else pure [← importSpec]
      endOfStatement
      pure (.more group)
    else pure .stop
  pure groups.flatten

def receiver : Parser (Option Receiver) := do
  if ← eat .lParen then
    let word ← match ← peek, ← peekSecond with
      | .name word, .name _ | .name word, .mark .star =>
        advance
        pure (some word)
      | _, _ => pure none
    let isPointer ← eat .star
    let typeName ← name
    expect .rParen ")"
    pure (some ⟨word, typeName, isPointer⟩)
  else pure none

def funcDecl (g : Grammar) : Parser FuncDecl := do
  let start ← line
  unless ← eatKeyword .func do unexpected "func"
  let recv ← receiver
  let word ← name
  let (parameters, variadic) ← params g
  let outcome ← results g
  unless ← atMark .lBrace do fail (.missingBody word)
  let body ← withLevel (fun _ => 0) g.block
  pure ⟨start, word, recv, .mk parameters outcome variadic body⟩

/-- One declaration; none at the end of the text. -/
def decl (g : Grammar) : Parser (Piece Decl) := do
  skipSemicolons
  match ← peek with
  | .endOfText => pure .stop
  | token =>
    let d ← match token with
      | .keyword .func => .func <$> funcDecl g
      | .keyword .var =>
        advance
        .var <$> valueSpecs g false
      | .keyword .const =>
        advance
        .const <$> valueSpecs g true
      | .keyword .type =>
        advance
        .types <$> typeSpecs g
      | .keyword .import => fail .importAfterDeclarations
      | _ => unexpected "declaration"
    endOfStatement
    pure (.more d)

def program (g : Grammar) : Parser Program := do
  skipSemicolons
  unless ← eatKeyword .package do unexpected "package clause"
  let package ← name
  endOfStatement
  let imported ← imports
  let decls ← collect (decl g)
  pure ⟨package, imported, decls⟩

end Parser

def parseProgram (source : String) : Except ParseError Program := do
  let tokens ← tokenize source
  let start : Reading := { rest := tokens, bound := tokens.length }
  match (Parser.program (.ofDepth tokens.length)).run start with
  | .ok program _ => pure program
  | .error e _ => throw e

end SandboxedGo.Source
