import SandboxedGo.Eval.DynamicType
import SandboxedGo.Eval.Basic
import SandboxedGo.Format.Layout
import SandboxedGo.Store.Boundary

/-!
# Printing values

A value whose type declares `Error` or `String` is printed by calling that method; all other values
have a text of their own.  Values inside values are printed at most sixty-four deep.

The fields of a struct are those that it has when its text is begun.  A method that prints one of
them may assign to the struct meanwhile, and that takes effect here.  Where a struct is locked while
it is printed such a run breaks down instead; that is no outcome here.
-/

set_option autoImplicit false

namespace SandboxedGo.Format

open Source

def addressText (p : Pointee) : Eval String := do
  return "0x" ++ String.ofList (Text.digitsIn 16 1 (← Eval.addressOf p))

def braced (text : String) : String := "\x7b" ++ text ++ "\x7d"

/-- The method without parameters that prints a value. -/
def displayMethod? (g : Guest) (v : Value) : Option FuncDecl :=
  ["Error", "String"].findSome? fun name =>
    (g.methodOf? v name).filter fun decl => decl.function.params.isEmpty

def displayed? (v : Value) : Eval (Option String) := do
  match ← Eval.view (displayMethod? · v) with
  | none => return none
  | some decl =>
    match ← Eval.callMethodDecl decl v [] false with
    | .string s => return some s
    | other =>
      match ← Eval.perform (.render other) rfl with
      | .string s => return some s
      | _ => return none

structure Detail where
  /-- Whether fields are named. -/
  fieldNames : Bool := false
  /-- Whether values are shown as the program would write them. -/
  literal : Bool := false

def printingDepth : Nat := 65

/-- The text of a value, printed at most `levels` values deep; `outermost` is false inside another
value. -/
def textWithin (detail : Detail) : Nat → Bool → Value → Eval String
  | 0, _, _ => pure "..."
  | levels + 1, outermost, v => do
    let own ← if detail.literal then pure none else displayed? v
    match own with
    | some text => return text
    | none =>
      match v with
      | .nil => return "<nil>"
      | .bool b => return if b then "true" else "false"
      | .int n => return toString n.toInt
      | .float f => return floatValue f
      | .string s => return if detail.literal then Text.quote s else s
      | .slice items =>
        let parts ← (← Eval.elements items).mapM (textWithin detail levels false)
        if detail.literal then
          return (← Eval.typeName v) ++ braced (String.intercalate ", " parts)
        else return "[" ++ String.intercalate " " parts ++ "]"
      | .map entries _ =>
        let parts ← (← Eval.viewStore (·.mapList entries)).mapM fun (key, item) => do
          let left ← textWithin detail levels false key.toValue
          let right ← textWithin detail levels false item
          return left ++ ":" ++ right
        if detail.literal then
          return "map[string]interface \x7b\x7d" ++ braced (String.intercalate ", " parts)
        else return "map[" ++ String.intercalate " " parts ++ "]"
      | .struct o =>
        let parts ← (← Eval.viewStore (·.structFields o)).mapM fun (field, item) => do
          let text ← textWithin detail levels false item
          return if detail.fieldNames || detail.literal then field.name ++ ":" ++ text else text
        if detail.literal then
          let name ← Eval.viewStore (·.structName o)
          return "main." ++ name ++ braced (String.intercalate ", " parts)
        else return braced (String.intercalate " " parts)
      | .pointer o =>
        if outermost then return "&" ++ (← textWithin detail levels false (.struct o))
        else addressText (.struct o)
      | .ref c => addressText (.cell c)
      | .error _ message _ => return message
      | .func f => return "func " ++ f.name
      | .tuple items =>
        return String.intercalate " " (← items.mapM (textWithin detail levels false))
      | .stream _ => return "&" ++ braced "file"

def text (detail : Detail) (v : Value) : Eval String :=
  textWithin detail printingDepth true v

def plainText (v : Value) : Eval String := text {} v

def innerText (v : Value) : Eval String :=
  textWithin {} (printingDepth - 1) false v

/-! ## Lists of operands -/

def isText : Value → Bool
  | .string _ => true
  | _ => false

/-- Operands one after another, with a blank between two that are both no texts. -/
def joined : (afterText : Bool) → List Value → Eval String
  | _, [] => pure ""
  | afterText, v :: rest => do
    let own ← plainText v
    let others ← joined (isText v) rest
    return (if afterText || isText v then own else " " ++ own) ++ others

def sprint (operands : List Value) : Eval String := joined true operands

def sprintln (operands : List Value) : Eval String := do
  return String.intercalate " " (← operands.mapM (plainText)) ++ "\n"

/-! ## Directives -/

/-- The text of a number, a truth value or a text under a verb that is made for it. -/
def scalarText? (verb : Char) (v : Value) (spec : Spec) : Option (List Char) :=
  let floatForm (f : Float) : List Char :=
    let precision :=
      if verb = 'g' || verb = 'G' then spec.precision else some (spec.precision.getD 6)
    signed (floatText f (.ofVerb verb) precision).toList (0 ≤ f || f.isNaN) spec.flags
  let isFloatVerb := ['e', 'E', 'f', 'F', 'g', 'G'].contains verb
  match v with
  | .bool b => if verb = 't' then some (if b then "true" else "false").toList else none
  | .int n =>
    if isFloatVerb then some (floatForm n.toFloat)
    else
      match verb with
      | 'd' => some (signed (toString n.toInt).toList (0 ≤ n) spec.flags)
      | 'b' => some (radixText n 2 false spec.flags)
      | 'o' => some (radixText n 8 false spec.flags)
      | 'x' => some (radixText n 16 false spec.flags)
      | 'X' => some (radixText n 16 true spec.flags)
      | 'c' => some [Text.charOfCode n.toUInt64.toUInt32.toNat]
      | 'q' => some (Text.quoteRune (Text.charOfCode n.toUInt64.toUInt32.toNat)).toList
      | 'U' => some (codePointText n)
      | _ => none
  | .float f =>
    if isFloatVerb then some (floatForm f)
    else if verb = 'd' then
      (wholeNumber? f).map fun n => signed (toString n.toInt).toList (0 ≤ f) spec.flags
    else none
  | .string s =>
    match verb with
    | 'x' => some (hexBytes s false)
    | 'X' => some (hexBytes s true)
    | _ => none
  | _ => none

def textForm? (v : Value) : Eval (Option String) := do
  match ← displayed? v with
  | some own => return some own
  | none =>
    match v with
    | .string s => return some s
    | .error _ message _ => return some message
    | .struct _ | .pointer _ | .map _ _ => return some (← plainText v)
    | _ => return none

def mismatch (verb : Char) (v : Value) : Eval (List Char) := do
  match v with
  | .nil => return ['%', '!', verb] ++ "(<nil>)".toList
  | _ =>
    let type ← Eval.typeName v
    return ['%', '!', verb, '('] ++ type.toList ++ ['='] ++ (← plainText v).toList ++ [')']

/-- Whether zeros may fill up what a verb prints. -/
def isNumericVerb (verb : Char) : Bool :=
  ['d', 'b', 'o', 'x', 'X', 'e', 'E', 'f', 'F', 'g', 'G'].contains verb

/-- Whether a verb is applied to the elements of a slice. -/
def isElementVerb (verb : Char) : Bool :=
  ['d', 'b', 'o', 'x', 'X', 'e', 'f', 'g'].contains verb

def bracketed (parts : List (List Char)) : List Char :=
  '[' :: (List.flatten (parts.intersperse [' '])) ++ [']']

def elementText (verb : Char) (spec : Spec) (item : Value) : Eval (List Char) := do
  match ← Eval.perform (.directive verb item { spec with width := none }) rfl with
  | .string own => return own.toList
  | _ => return []

def elementwise (verb : Char) (spec : Spec) (items : SliceView) : Eval (List Char) := do
  return bracketed (← (← Eval.elements items).mapM (elementText verb spec))

def directiveBody (verb : Char) (v : Value) (spec : Spec) : Eval (List Char) := do
  if verb = 'v' || verb = 'w' then
    return (← text ⟨spec.flags.plus, spec.flags.sharp⟩ v).toList
  else if verb = 'T' then return (← Eval.typeName v).toList
  else
    match scalarText? verb v spec with
    | some own => return own
    | none =>
      if verb = 's' || verb = 'q' then
        match ← textForm? v with
        | some own =>
          let cut := match spec.precision with
            | some p => own.toList.take p
            | none => own.toList
          return if verb = 'q' then (Text.quote (String.ofList cut)).toList else cut
        | none =>
          match v with
          | .slice items => elementwise verb spec items
          | _ => mismatch verb v
      else
        match v with
        | .slice items =>
          if isElementVerb verb then elementwise verb spec items else mismatch verb v
        | .pointer o =>
          if verb = 'p' then return (← addressText (.struct o)).toList else mismatch verb v
        | .ref c => if verb = 'p' then return (← addressText (.cell c)).toList else mismatch verb v
        | _ => mismatch verb v

def directiveText (verb : Char) (v : Value) (spec : Spec) : Eval (List Char) := do
  let body ← directiveBody verb v spec
  return pad body spec (isNumericVerb verb && !spec.flags.minus)

/-- A measure with the operands that are left: what it is, and the operands behind it. -/
def measure (operands : List Value) : Measure → Option Nat × List Value
  | .absent => (none, operands)
  | .given n => (some n, operands)
  | .operand =>
    match operands with
    | .int n :: rest =>
      (if 0 ≤ n && n.toInt ≤ Piece.measureLimit then some n.toInt.toNat else none, rest)
    | _ :: rest => (none, rest)
    | [] => (none, [])

/-- Print the pieces of a format text behind `out`; the operands that are left over. -/
def printPieces : List Piece → List Value → String → Eval (String × List Value)
  | [], operands, out => pure (out, operands)
  | .literal c :: pieces, operands, out => printPieces pieces operands (out.push c)
  | .unfinished width precision :: _, operands, out =>
    let (_, operands) := measure operands width
    let (_, operands) := measure operands precision
    pure (out ++ "%!(NOVERB)", operands)
  | .directive flags width precision verb :: pieces, operands, out => do
    let (width, operands) := measure operands width
    let (precision, operands) := measure operands precision
    if verb = '%' then printPieces pieces operands (out.push '%')
    else
      match operands with
      | [] => printPieces pieces [] (((out ++ "%!").push verb) ++ "(MISSING)")
      | v :: rest =>
        let own ← directiveText verb v ⟨flags, width, precision⟩
        printPieces pieces rest (out ++ String.ofList own)

/-- What is printed for operands that no directive asked for. -/
def extraOperand (v : Value) : Eval String := do
  let type ← Eval.typeName v
  return type ++ "=" ++ (← plainText v)

def sprintf (format : String) (operands : List Value) : Eval String := do
  let (out, extra) ← printPieces (Piece.ofText format.toList) operands ""
  if extra.isEmpty then return out
  else
    let texts ← extra.mapM (extraOperand)
    return out ++ "%!(EXTRA " ++ String.intercalate ", " texts ++ ")"

/-! ## The predeclared print functions -/

def builtinText (v : Value) : Eval String := do
  match v with
  | .float f => return builtinFloat f
  | .nil => return "nil"
  | .string text => return text
  | .int n => return toString n.toInt
  | .bool b => return if b then "true" else "false"
  | .error id _ _ => return "(" ++ (← addressText (.error id)) ++ ")"
  | _ => return "(" ++ (← Eval.typeName v) ++ ")"

end SandboxedGo.Format
