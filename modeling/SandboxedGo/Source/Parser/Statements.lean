import SandboxedGo.Source.Parser.Expressions

/-!
# Parsing statements
-/

set_option autoImplicit false

namespace SandboxedGo.Source.Parser

inductive Simple
  | stmt (s : Stmt)
  | range (key value : Option Expr) (define : Bool) (subject : Expr)

def valueSpec (g : Grammar) (isConst : Bool) : Parser ValueSpec := do
  let start ← line
  let names ← commaSeparated name
  let type ← match ← peek with
    | .mark .assign | .mark .semi | .mark .rParen | .mark .rBrace => pure none
    | _ => some <$> type g
  let values ← if ← eat .assign then exprList g else pure []
  if !isConst && type.isNone && values.isEmpty then fail .missingTypeOrInitializer
  pure (.mk start names type values 0)

/-- A group of constants: each knows its place, and one without values repeats the type and the
values of the last one that has some. -/
def numberConstants (previous : Option (Option TypeExpr × List Expr)) (iota : Nat) :
    List ValueSpec → List ValueSpec
  | [] => []
  | .mk start names type values _ :: rest =>
    match values, previous with
    | [], some (type', values') =>
      .mk start names type' values' iota :: numberConstants previous (iota + 1) rest
    | [], none => .mk start names type [] iota :: numberConstants previous (iota + 1) rest
    | values, _ =>
      .mk start names type values iota :: numberConstants (some (type, values)) (iota + 1) rest

def valueSpecs (g : Grammar) (isConst : Bool) : Parser (List ValueSpec) := do
  if ← eat .lParen then
    let specs ← entriesTo .rParen (valueSpec g isConst)
    pure (if isConst then numberConstants none 0 specs else specs)
  else return [← valueSpec g isConst]

def typeSpec (g : Grammar) : Parser TypeSpec := do
  let word ← name
  let _ ← eat .assign
  return ⟨word, ← type g⟩

def typeSpecs (g : Grammar) : Parser (List TypeSpec) := do
  if ← eat .lParen then entriesTo .rParen (typeSpec g) else return [← typeSpec g]

/-- The only element of a list of expressions. -/
def single (exprs : List Expr) : Parser Expr :=
  match exprs with
  | [e] => pure e
  | _ => fail .notOneExpression

def definedNames : List Expr → Option (List String)
  | [] => some []
  | .name word :: rest => (definedNames rest).map (word :: ·)
  | _ :: _ => none

def definition (g : Grammar) (start : Nat) (rangeAllowed isDefine : Bool) (targets : List Expr) :
    Parser Simple := do
  if rangeAllowed then
    if ← eatKeyword .range then
      if 2 < targets.length then fail .rangeVariables
      return .range targets[0]? targets[1]? isDefine (← expr g)
  let values ← exprList g
  if isDefine then
    match definedNames targets with
    | some names => pure (.stmt (.mk start (.define names values)))
    | none => fail .defineWithoutName
  else pure (.stmt (.mk start (.assign targets values)))

def simple (g : Grammar) (rangeAllowed : Bool) : Parser Simple := do
  let start ← line
  if rangeAllowed then
    if ← eatKeyword .range then return .range none none false (← expr g)
  let targets ← exprList g
  match ← peek with
  | .mark .define =>
    advance
    definition g start rangeAllowed true targets
  | .mark .assign =>
    advance
    definition g start rangeAllowed false targets
  | .mark .inc =>
    advance
    return .stmt (.mk start (.increment (← single targets)))
  | .mark .dec =>
    advance
    return .stmt (.mk start (.decrement (← single targets)))
  | .mark m =>
    match BinaryOp.ofAssignment? m with
    | some op =>
      advance
      let target ← single targets
      return .stmt (.mk start (.opAssign op target (← expr g)))
    | none => return .stmt (.mk start (.expr (← single targets)))
  | _ => return .stmt (.mk start (.expr (← single targets)))

def plain (g : Grammar) (rangeFault : Fault) : Parser Stmt := do
  match ← simple g false with
  | .stmt s => pure s
  | .range .. => fail rangeFault

def ifHeader (g : Grammar) : Parser (Option Stmt × Expr) := do
  let first ← plain g .rangeInIfHeader
  if ← eat .semi then return (some first, ← expr g)
  match first.kind with
  | .expr condition => pure (none, condition)
  | _ => fail .assignmentAsCondition

def elseBranch (g : Grammar) : Parser Stmt := do
  let start ← line
  match ← peek with
  | .keyword .if => g.ifStmt
  | .mark .lBrace => return .mk start (.block (← g.block))
  | _ => unexpected "if statement or block"

def ifStmt (g : Grammar) : Parser Stmt := do
  let start ← line
  unless ← eatKeyword .if do unexpected "if"
  let (init, condition) ← inHeader (ifHeader g)
  let body ← g.block
  let otherwise ← if ← eatKeyword .else then some <$> elseBranch g else pure none
  pure (.mk start (.if init condition body otherwise))

def loopClauses (g : Grammar) (init : Option Stmt) : Parser (List Stmt → StmtKind) := do
  let condition ← if ← atMark .semi then pure none else some <$> expr g
  expect .semi ";"
  let post ← if ← atMark .lBrace then pure none else some <$> plain g .unexpectedRange
  pure (.for init condition post)

/-- The header of a loop: what it makes of the body. -/
def forHeader (g : Grammar) : Parser (List Stmt → StmtKind) := do
  if ← atMark .lBrace then return .for none none none
  if ← eat .semi then return ← loopClauses g none
  match ← simple g true with
  | .range key value define subject => pure (.range key value define subject)
  | .stmt first =>
    if ← eat .semi then loopClauses g (some first)
    else
      match first.kind with
      | .expr condition => pure (.for none (some condition) none)
      | _ => fail .loopCondition

def forStmt (g : Grammar) : Parser Stmt := do
  let start ← line
  unless ← eatKeyword .for do unexpected "for"
  let header ← inHeader (forHeader g)
  return .mk start (header (← g.block))

/-- The header of a switch: the initial statement and the tag, which may be a type guard. -/
def switchHeader (g : Grammar) : Parser (Option Stmt × Option Stmt) := do
  if ← atMark .lBrace then return (none, none)
  let first ← if ← atMark .semi then pure none else some <$> plain g .unexpectedRange
  if ← eat .semi then
    let tag ← if ← atMark .lBrace then pure none else some <$> plain g .unexpectedRange
    pure (first, tag)
  else pure (none, first)

/-- The variable and the subject of the type guard that the tag of a switch is, if it is one. -/
def typeGuard? (tag : Option StmtKind) : Parser (Option (Option String × Expr)) :=
  match tag with
  | some (.expr (.assert subject (.named "type"))) => pure (some (none, subject))
  | some (.define [word] [.assert subject (.named "type")]) => pure (some (some word, subject))
  | some (.define [_] [_]) => fail .switchHeader
  | _ => pure none

/-- Statements up to a token that ends them, which stays. -/
def stmtsTo (g : Grammar) (ends : Token → Bool) : Parser (List Stmt) := do
  let groups ← collect do
    skipSemicolons
    match ← peek with
    | .endOfText => pure .stop
    | token =>
      if ends token then pure .stop
      else
        let group ← g.stmts
        unless ends (← peek) do endOfStatement
        pure (.more group)
  pure groups.flatten

def block (g : Grammar) : Parser (List Stmt) := nested do
  expect .lBrace "\x7b"
  let body ← stmtsTo g (·.isMark .rBrace)
  expect .rBrace "\x7d"
  pure body

def endsCase (t : Token) : Bool :=
  t.isKeyword .case || t.isKeyword .default || t.isMark .rBrace

/-- A type in a case of a type switch; the name `nil` stands for no type. -/
def caseType (g : Grammar) : Parser (Option TypeExpr) := do
  match ← peek with
  | .name "nil" =>
    advance
    pure none
  | _ => some <$> type g

/-- The cases of a switch up to its closing brace.  `labels` reads what follows the word `case`. -/
def cases {α β : Type} (g : Grammar) (labels : Parser (List α))
    (make : Bool → List α → List Stmt → β) : Parser (List β) := collect do
  skipSemicolons
  if ← eat .rBrace then pure .stop
  else
    let isDefault ← eatKeyword .default
    let values ←
      if isDefault then pure []
      else
        unless ← eatKeyword .case do unexpected "case or default"
        labels
    expect .colon ":"
    return .more (make isDefault values (← stmtsTo g endsCase))

def switchStmt (g : Grammar) : Parser Stmt := do
  let start ← line
  unless ← eatKeyword .switch do unexpected "switch"
  let (init, tag) ← inHeader (switchHeader g)
  let guard ← typeGuard? (tag.map Stmt.kind)
  expect .lBrace "\x7b"
  match guard with
  | some (binding, subject) =>
    let list ← cases g (commaSeparated (caseType g)) TypeCase.mk
    pure (.mk start (.typeSwitch init binding subject list))
  | none =>
    let value ← match tag.map Stmt.kind with
      | some (.expr e) => pure (some e)
      | none => pure none
      | some _ => fail .switchHeader
    let list ← cases g (exprList g) SwitchCase.mk
    pure (.mk start (.switch init value list))

/-- A jump takes no label. -/
def noLabel : Parser Unit := do
  if (← peek).isName then fail .labels

/-- The statements that a keyword does not begin.  A block is read from its brace on, before a token
is consumed, so the grammar does not recur for it. -/
def otherStmt (g : Grammar) (start : Nat) : Parser Stmt := do
  match ← peek, ← peekSecond with
  | .mark .lBrace, _ => return .mk start (.block (← block g))
  | .mark .semi, _ => pure (.mk start .empty)
  | .name _, .mark .colon => fail .labels
  | _, _ => plain g .rangeOutsideFor

def flatStmt (g : Grammar) : Parser Stmt := do
  let start ← line
  match ← peek with
  | .keyword .return =>
    advance
    match ← peek with
    | .mark .semi | .mark .rBrace => pure (.mk start (.return []))
    | _ => return .mk start (.return (← exprList g))
  | .keyword .break =>
    advance
    noLabel
    pure (.mk start .break)
  | .keyword .continue =>
    advance
    noLabel
    pure (.mk start .continue)
  | .keyword .fallthrough =>
    advance
    pure (.mk start .fallthrough)
  | .keyword .defer =>
    advance
    match ← expr g with
    | .call callee arguments spread => pure (.mk start (.defer (.call callee arguments spread)))
    | _ => fail .deferWithoutCall
  | .keyword .go => fail .goroutines
  | .keyword .select => fail .selectStatement
  | .keyword .goto => fail .gotoStatement
  | .keyword .if => ifStmt g
  | .keyword .for => forStmt g
  | .keyword .switch => switchStmt g
  | _ => otherStmt g start

def stmts (g : Grammar) : Parser (List Stmt) := do
  let start ← line
  if ← eatKeyword .var then
    return (← valueSpecs g false).map fun spec => .mk start (.var spec)
  else if ← eatKeyword .const then
    return (← valueSpecs g true).map fun spec => .mk start (.const spec)
  else if ← eatKeyword .type then
    return (← typeSpecs g).map fun spec => .mk start (.typeDecl spec)
  else return [← nested (flatStmt g)]

end SandboxedGo.Source.Parser
