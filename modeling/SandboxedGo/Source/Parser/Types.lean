import SandboxedGo.Source.Parser.Basic

/-!
# Parsing types and signatures
-/

set_option autoImplicit false

namespace SandboxedGo.Source.Parser

def beginsType : Token → Bool
  | .name _ => true
  | .mark m => m = .lBrack ∨ m = .star ∨ m = .lParen
  | .keyword k => k = .map ∨ k = .func ∨ k = .interface ∨ k = .struct ∨ k = .chan
  | _ => false

/-- An entry of a parameter list: a name, a type, or both. -/
structure ParamEntry where
  name : Option String
  type : Option TypeExpr
  variadic : Bool

def paramEntry (g : Grammar) (read : List ParamEntry) : Parser ParamEntry := do
  if read.any (·.variadic) then fail .variadicNotLast
  match ← peek, ← peekSecond with
  | .name word, .mark .comma | .name word, .mark .rParen =>
    advance
    pure ⟨some word, none, false⟩
  | .name _, .mark .dot => return ⟨none, some (← g.type), false⟩
  | .name word, _ =>
    advance
    let variadic ← eat .ellipsis
    return ⟨some word, some (← g.type), variadic⟩
  | .mark .ellipsis, _ =>
    advance
    return ⟨none, some (← g.type), true⟩
  | _, _ => return ⟨none, some (← g.type), false⟩

/-- The parameters of entries some of which have both a name and a type: a name alone has the type
of the next entry with one.  None if the entries cannot be read so. -/
def namedParams (pending : List String) : List ParamEntry → Option (List Param)
  | [] => if pending.isEmpty then some [] else none
  | entry :: rest =>
    match entry.name, entry.type with
    | some word, none => namedParams (pending ++ [word]) rest
    | some word, some type =>
      (namedParams [] rest).map ((pending ++ [word]).map (fun n => ⟨some n, type⟩) ++ ·)
    | none, _ => none

/-- The parameters of entries without names: a name alone is a type. -/
def unnamedParams (entries : List ParamEntry) : List Param :=
  entries.filterMap fun entry =>
    match entry.type, entry.name with
    | some type, _ => some ⟨none, type⟩
    | none, some word => some ⟨none, .named word⟩
    | none, none => none

/-- The last parameter takes a slice. -/
def sliceLast : List Param → List Param
  | [] => []
  | [p] => [⟨p.name, .slice p.type⟩]
  | p :: rest => p :: sliceLast rest

/-- A parameter list, and whether its last parameter takes any number of arguments. -/
def params (g : Grammar) : Parser (List Param × Bool) := do
  expect .lParen "("
  let entries ← itemsTo .rParen ")" (paramEntry g)
  let variadic := entries.any (·.variadic)
  let list ←
    if entries.any fun e => e.name.isSome && e.type.isSome then
      match namedParams [] entries with
      | some list => pure list
      | none => fail .mixedParameters
    else pure (unnamedParams entries)
  pure (if variadic then sliceLast list else list, variadic)

/-- The results of a signature: none, one type, or a list like that of the parameters. -/
def results (g : Grammar) : Parser (List Param) := do
  if ← atMark .lParen then return (← params g).1
  else if beginsType (← peek) then return [⟨none, ← g.type⟩]
  else pure []

/-- One entry of an interface: the method it asks for, if any. -/
def interfaceEntry (g : Grammar) : Parser (List String) := do
  let word ← name
  if ← atMark .lParen then
    let _ ← params g
    let _ ← results g
    pure [word]
  else if ← eat .dot then
    pure (if (← name) = "Stringer" then ["String"] else [])
  else pure (if word = "error" then ["Error"] else [])

/-- One entry of a struct: fields of one type, or an embedded field. -/
def structEntry (g : Grammar) : Parser (List FieldDecl) := do
  let first ← name
  match ← peek with
  | .mark .semi | .mark .rBrace => pure [.mk first (.named first) none true]
  | _ =>
    let more ← if ← eat .comma then commaSeparated name else pure []
    let type ← g.type
    let tag ← match ← peek with
      | .string tag =>
        advance
        pure (some tag)
      | _ => pure none
    endOfStatement
    pure ((first :: more).map fun n => .mk n type tag false)

/-- The entries of a struct.  Behind an embedded field the semicolon belongs to the next round. -/
def structFields (g : Grammar) : Parser (List FieldDecl) := do
  let entries ← collect do
    skipSemicolons
    if ← eat .rBrace then pure .stop else return .more (← structEntry g)
  pure entries.flatten

def namedType (word : String) : Parser TypeExpr := do
  advance
  if ← atMark .dot then
    if let .name member ← peekSecond then
      advance
      advance
      return .qualified word member
  pure (if word = "any" then .interface [] else .named word)

def bracketType (g : Grammar) : Parser TypeExpr := do
  if ← eat .rBrack then return .slice (← g.type)
  let token ← peek
  advance
  let length ← match token with
    | .int n => pure (some n.toNatClampNeg)
    | .mark .ellipsis => pure none
    | _ => fail .arrayLength
  expect .rBrack "]"
  return .array length (← g.type)

def flatType (g : Grammar) : Parser TypeExpr := do
  match ← peek with
  | .name word => namedType word
  | .mark .lBrack =>
    advance
    bracketType g
  | .keyword .map =>
    advance
    expect .lBrack "["
    let key ← g.type
    expect .rBrack "]"
    return .map key (← g.type)
  | .mark .star =>
    advance
    return .pointer (← g.type)
  | .keyword .func =>
    advance
    let _ ← params g
    let _ ← results g
    pure .func
  | .keyword .interface =>
    advance
    expect .lBrace "\x7b"
    return .interface (← entriesTo .rBrace (interfaceEntry g)).flatten
  | .keyword .struct =>
    advance
    expect .lBrace "\x7b"
    return .struct (← structFields g)
  | .mark .lParen =>
    advance
    let type ← g.type
    expect .rParen ")"
    pure type
  | .keyword .chan => fail .channels
  | _ => unexpected "type"

def type (g : Grammar) : Parser TypeExpr := nested (flatType g)

end SandboxedGo.Source.Parser
