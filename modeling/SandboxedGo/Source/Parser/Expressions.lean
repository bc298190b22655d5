import SandboxedGo.Source.Parser.Types

/-!
# Parsing expressions

Operators are read by precedence climbing; behind an operand come selectors, indices, calls, type
assertions and the elements of composite literals.
-/

set_option autoImplicit false

namespace SandboxedGo.Source.Parser

/-- A function literal, or the type `func` where no body follows; behind the keyword. -/
def functionLiteral (g : Grammar) : Parser Expr := do
  let (parameters, variadic) ← params g
  let outcome ← results g
  if ← atMark .lBrace then
    return .function (.mk parameters outcome variadic (← withLevel (fun _ => 0) g.block))
  else pure (.type .func)

def operand (g : Grammar) : Parser Expr := do
  match ← peek with
  | .int value =>
    advance
    pure (.int value)
  | .float value =>
    advance
    pure (.float value)
  | .string value =>
    advance
    pure (.string value)
  | .rune value =>
    advance
    pure (.rune value)
  | .name word =>
    advance
    pure (.name word)
  | .mark .lParen =>
    advance
    let e ← inBrackets g.expr
    expect .rParen ")"
    pure e
  | .keyword .func =>
    advance
    functionLiteral g
  | .mark .lBrack | .keyword .map | .keyword .struct | .keyword .interface =>
    return .type (← type g)
  | _ => unexpected "expression"

/-- The inside of index brackets: an index or the bounds of a slice. -/
def indexOrSlice (g : Grammar) (base : Expr) : Parser Expr := do
  let low ← if ← atMark .colon then pure none else some <$> g.expr
  if ← eat .colon then
    let high ← if ← atMark .rBrack then pure none else some <$> g.expr
    if ← atMark .colon then fail .threeIndexSlice
    pure (.slice base low high)
  else
    match low with
    | some key => pure (.index base key)
    | none => fail .missingIndex

def callArguments (g : Grammar) : Parser (List Expr × Bool) := do
  let arguments ← itemsTo .rParen ")" fun _ => do
    let e ← g.expr
    return (e, ← eat .ellipsis)
  pure (arguments.map Prod.fst, arguments.any Prod.snd)

/-- An element of a composite literal.  A brace opens a literal of the elided type. -/
def element (g : Grammar) (elided : Option TypeExpr) : Parser Expr := do
  if ← atMark .lBrace then
    match elided with
    | some (.pointer target) => return .unary .addr (← g.composite target)
    | some type => g.composite type
    | none => fail .missingLiteralType
  else g.expr

def elidedTypes : TypeExpr → Option TypeExpr × Option TypeExpr
  | .slice element => (none, some element)
  | .array _ element => (none, some element)
  | .map key value => (some key, some value)
  | _ => (none, none)

def composite (g : Grammar) (type : TypeExpr) : Parser Expr :=
  nested <| withLevel (fun _ => 1) do
    expect .lBrace "\x7b"
    let (keyType, elementType) := elidedTypes type
    let elements ← itemsTo .rBrace "\x7d" fun _ => do
      let first ← element g (keyType <|> elementType)
      if ← eat .colon then return (some first, ← element g elementType)
      else pure (none, first)
    pure (.composite type elements)

/-- The type that an expression before a brace names, if the brace opens a composite literal. -/
def literalType? (e : Expr) (level : Int) : Option TypeExpr :=
  match e with
  | .type type => some type
  | .name word => if 0 ≤ level then some (.named word) else none
  | .select (.name package) member =>
    if 0 ≤ level then some (.qualified package member) else none
  | _ => none

/-- A type assertion or a selector, behind its point. -/
def selector (g : Grammar) (base : Expr) : Parser Expr := do
  if ← eat .lParen then
    let type ← if ← eatKeyword .type then pure (.named "type") else g.type
    expect .rParen ")"
    pure (.assert base type)
  else return .select base (← name)

/-- What follows an operand; none where the expression ends. -/
def postfix? (g : Grammar) (base : Expr) : Parser (Option Expr) := do
  match ← peek with
  | .mark .dot =>
    advance
    some <$> selector g base
  | .mark .lBrack =>
    advance
    let e ← inBrackets (indexOrSlice g base)
    expect .rBrack "]"
    pure (some e)
  | .mark .lParen =>
    advance
    let (arguments, spread) ← inBrackets (callArguments g)
    pure (some (.call base arguments spread))
  | .mark .lBrace =>
    match literalType? base (← get).level with
    | some type => some <$> composite g type
    | none => pure none
  | _ => pure none

/-- Everything that follows an operand; each round consumes a token. -/
def postfixes (g : Grammar) : Nat → Expr → Parser Expr
  | 0, _ => fail .nestedTooDeeply
  | rounds + 1, base => do
    match ← postfix? g base with
    | some e => postfixes g rounds e
    | none => pure base

def primary (g : Grammar) : Parser Expr := do
  let e ← operand g
  postfixes g ((← get).bound + 1) e

def unary (g : Grammar) : Parser Expr := nested do
  match ← peek with
  | .mark .arrow => fail .channels
  | .mark m =>
    match UnaryOp.ofMark? m with
    | some op =>
      advance
      return .unary op (← g.unary)
    | none => primary g
  | _ => primary g

/-- The operators after a left operand that bind at least as tightly as `least`, each with its
right operand; operators of one precedence associate to the left. -/
def operators (g : Grammar) (least : Nat) : Nat → Expr → Parser Expr
  | 0, _ => fail .nestedTooDeeply
  | rounds + 1, left => do
    match ← peek with
    | .mark m =>
      match BinaryOp.ofMark? m with
      | some op =>
        if op.precedence < least then pure left
        else
          advance
          let right ← g.binary (op.precedence + 1)
          operators g least rounds (.binary op left right)
      | none => pure left
    | _ => pure left

def binary (g : Grammar) (least : Nat) : Parser Expr := do
  let left ← unary g
  operators g least ((← get).bound + 1) left

def expr (g : Grammar) : Parser Expr := nested (binary g 1)

def exprList (g : Grammar) : Parser (List Expr) := commaSeparated (expr g)

end SandboxedGo.Source.Parser
