import SandboxedGo.Format.FloatText
import SandboxedGo.Library.Arguments
import SandboxedGo.Store.Boundary
import SandboxedGo.Text.Quoted

/-!
# Documents as texts

A value is written as a JSON document: keys of maps in the order of their texts, fields of structs
in the order of their declaration, and characters that mean something in web pages escaped.  A
document is written at most a hundred values deep.
-/

set_option autoImplicit false

namespace SandboxedGo.Library

inductive DocumentFault
  | cycle
  | unsupportedType (type : String)
  | unsupportedFloat (text : String)
  deriving DecidableEq, Repr

namespace DocumentFault

def message : DocumentFault → String
  | cycle => "json: unsupported value: encountered a cycle"
  | unsupportedType type => "json: unsupported type: " ++ type
  | unsupportedFloat text => "json: unsupported value: " ++ text

end DocumentFault

/-- What begins every line of a document, and what indents it once. -/
structure Indentation where
  lineStart : String
  unit : String

/-- The line end in front of something that is nested `level` deep; none in a compact document. -/
def lineBreak (indentation : Option Indentation) (level : Nat) : String :=
  match indentation with
  | none => ""
  | some i => "\n" ++ i.lineStart ++ String.join (List.replicate level i.unit)

def escapedChar (c : Char) : List Char :=
  match c with
  | '"' => ['\\', '"']
  | '\\' => ['\\', '\\']
  | '\n' => ['\\', 'n']
  | '\r' => ['\\', 'r']
  | '\t' => ['\\', 't']
  | '\x08' => ['\\', 'b']
  | '\x0c' => ['\\', 'f']
  | _ =>
    if ['<', '>', '&', '\u2028', '\u2029'].contains c || c.toNat < 0x20 then
      '\\' :: 'u' :: Text.digitsIn 16 4 c.toNat
    else [c]

def documentText (s : String) : String :=
  String.ofList ('"' :: s.toList.flatMap escapedChar ++ ['"'])

/-- A negative exponent without the zero in front of its only digit. -/
def shortenExponent (chars : List Char) : List Char :=
  match chars.reverse with
  | d :: '0' :: '-' :: 'e' :: rest => (d :: '-' :: 'e' :: rest).reverse
  | _ => chars

/-- A float in a document: positional for common magnitudes, and with an exponent for others. -/
def documentFloat (f : Float) : Except DocumentFault String :=
  if !f.isFinite then .error (.unsupportedFloat (Format.floatText f (.general false) none))
  else
    let magnitude := f.abs
    if magnitude != 0 && !(1e-6 ≤ magnitude && magnitude < 1e21) then
      .ok (String.ofList (shortenExponent (Format.floatText f (.exponent false) none).toList))
    else .ok (Format.floatText f .fixed none)

def enclosed (open_ close : String) (indentation : Option Indentation) (level : Nat)
    (parts : List String) : String :=
  if parts.isEmpty then open_ ++ close
  else
    let start := lineBreak indentation (level + 1)
    open_ ++ String.intercalate "," (parts.map (start ++ ·)) ++ lineBreak indentation level ++ close

def documentEntry (indentation : Option Indentation) (key text : String) : String :=
  documentText key ++ (if indentation.isSome then ": " else ":") ++ text

/-- A document, or why there is none; absent if it does not come to an end. -/
abbrev Documented := ExceptT DocumentFault Option

/-- The document of a value that stands `level` deep, written at most `depth` values deep. -/
def documentWithin (s : Store) (indentation : Option Indentation) :
    (depth : Nat) → (level : Nat) → Value → Documented String
  | 0, _, _ => throw .cycle
  | depth + 1, level, v =>
    let entries (pairs : List (String × Value)) : Documented String := do
      let parts ← pairs.mapM fun (key, item) => do
        let text ← documentWithin s indentation depth (level + 1) item
        pure (documentEntry indentation key text)
      pure (enclosed "\x7b" "\x7d" indentation level parts)
    match v with
    | .nil => pure "null"
    | .bool b => pure (if b then "true" else "false")
    | .int n => pure (toString n.toInt)
    | .float f => ExceptT.mk (some (documentFloat f))
    | .string t => pure (documentText t)
    | .slice view =>
      if view.isNil then pure "null"
      else do
        let parts ← (s.elements view).mapM (documentWithin s indentation depth (level + 1))
        pure (enclosed "[" "]" indentation level parts)
    | .map m _ =>
      if m.isNone then pure "null"
      else
        let pairs := (s.mapList m).map fun (key, item) => (key.text, item)
        entries (pairs.mergeSort fun a b => compare a.1 b.1 != .gt)
    | .struct o | .pointer o => do entries (← s.jsonFields? o)
    | .ref c => documentWithin s indentation depth (level + 1) (s.cell c)
    | .error _ _ _ => pure "\x7b\x7d"
    | .func f =>
      match f with
      | .closure _ _ _ | .method _ _ => throw (.unsupportedType "func()")
      | _ => throw (.unsupportedType "func")
    | .tuple _ => throw (.unsupportedType "tuple")
    | .stream _ => throw (.unsupportedType "*os.File")

def documentDepth : Nat := 101

def document (s : Store) (indentation : Option Indentation) (v : Value) : Documented String :=
  documentWithin s indentation documentDepth 0 v

namespace JsonFunction

def result (r : Documented String) : Eval Value := do
  match ← Eval.ofWalk r.run with
  | .ok text => return success (← Eval.byteSlice text)
  | .error fault => return .tuple [.nil, ← Eval.newError fault.message none]

def call (f : JsonFunction) (arguments : List Value) : Eval Value := do
  let self : Function := .json f
  match f with
  | marshal =>
    checkCount self arguments 1
    let v ← argument self arguments 0
    result (← Eval.viewStore (document · none v))
  | marshalIndent =>
    checkCount self arguments 3
    let lineStart ← textArgument self arguments 1
    let unit ← textArgument self arguments 2
    let v ← argument self arguments 0
    result (← Eval.viewStore (document · (some ⟨lineStart, unit⟩) v))

end JsonFunction

end SandboxedGo.Library
