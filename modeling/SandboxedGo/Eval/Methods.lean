import SandboxedGo.Eval.Call

/-!
# Fields and methods

What stands behind the point in `x.name`: a field, a declared method, a method of an embedded
struct, or one of the methods of errors and string builders.
-/

set_option autoImplicit false

namespace SandboxedGo

open Source

namespace Eval

def missing {α : Type} (v : Value) (name : String) : Eval α := do
  error (.missingMember (← typeName v) name)

/-! ## String builders -/

def builtText (s : Store) (o : StructId) : String :=
  match (s.structObject o).fields[0]? with
  | some (Value.string text) => text
  | _ => ""

def appendBuilt (o : StructId) (text : String) : Eval Unit :=
  changeStore fun s => s.setFieldAt o 0 (.string (builtText s o ++ text))

/-- How many bytes a call may add to a builder. -/
def incomingSize : List Value → Nat
  | [.string text] => text.utf8ByteSize
  | [.slice view] => view.length
  | _ => 4

inductive BuilderRequest
  /-- Add a text, and answer with a number if there is one. -/
  | append (text : String) (count : Option Int64)
  | appendBytes (view : SliceView)
  | text
  | length
  | reset
  | grow

def builderRequest? (name : String) (arguments : List Value) : Option BuilderRequest :=
  match name, arguments with
  | "WriteString", [.string text] =>
    some (.append text (some (Int64.ofNat text.utf8ByteSize)))
  | "WriteByte", [.int b] =>
    some (.append (Text.charOfCode b.toUInt64.toUInt8.toNat).toString none)
  | "WriteRune", [.int r] =>
    let c := Text.charOfCode r.toUInt64.toUInt32.toNat
    some (.append c.toString (some (Int64.ofNat c.utf8Size)))
  | "Write", [.slice view] => some (.appendBytes view)
  | "String", [] => some .text
  | "Len", [] => some .length
  | "Reset", [] => some .reset
  | "Grow", [_] => some .grow
  | _, _ => none

def builderMethod (o : StructId) (name : String) (arguments : List Value) : Eval Value := do
  let current ← viewStore (builtText · o)
  if name.startsWith "Write" then
    checkAlloc (current.utf8ByteSize + incomingSize arguments) .builderTooLong
  match builderRequest? name arguments with
  | some (.append text count) =>
    appendBuilt o text
    return match count with
      | some n => .tuple [.int n, .nil]
      | none => .nil
  | some (.appendBytes view) =>
    let bytes ← asInts (← elements view)
    appendBuilt o (Text.ofBytes ⟨(bytes.map fun b => b.toUInt64.toUInt8).toArray⟩)
    return .tuple [.int (Int64.ofNat bytes.length), .nil]
  | some .text => return .string current
  | some .length => return .int (Int64.ofNat current.utf8ByteSize)
  | some .reset =>
    changeStore (·.setFieldAt o 0 (.string ""))
    return .nil
  | some .grow => return .nil
  | none => error (.builderArguments name)

/-! ## Selecting -/

def methodValue (v : Value) (name : String) : Eval Value := do
  match ← view (·.methodOf? v name) with
  | some decl => return .func (.method v decl)
  | none =>
    let refuse : Eval Value := do error (.notMethodValue (← typeName v) name)
    match v with
    | .struct o | .pointer o =>
      match ← walkStore (·.lookupField o name) with
      | some field => return field
      | none => refuse
    | .nil => panic .nilDereference
    | _ => refuse

/-- What `v.name` is: a field, or a method with its receiver bound. -/
def select (v : Value) (name : String) : Eval Value := do
  let v ← viewStore (·.target v)
  match v with
  | .struct o | .pointer o =>
    match ← walkStore (·.lookupField o name) with
    | some field => return field
    | none =>
      match ← view (·.methodOf? v name) with
      | some decl => return .func (.method v decl)
      | none =>
        let type ← viewStore (·.structName o)
        error (.missingMember type name)
  | .nil => panic .nilDereference
  | _ => missing v name

/-! ## Calling methods -/

/-- The first struct or error embedded in a struct that has a method, if there is one. -/
def promotedReceiver (g : Guest) (o : StructId) (name : String) : Option (Option Value) := do
  let found ← (g.store.structFields o).findM? fun (field, v) =>
    if field.embedded then g.hasPromotedMethod? name v else some false
  return found.map Prod.snd

/-- Call a method that is declared for a value or promoted from a struct embedded in it at most
`depth` deep. -/
def callMethodWithin (name : String) (arguments : List Value) (spread : Bool) :
    Nat → Value → Eval Value
  | 0, v => missing v name
  | depth + 1, v => do
    match v with
    | .error _ message wrapped =>
      match name with
      | "Error" => return .string message
      | "Unwrap" => return wrapped.getD .nil
      | _ => error (.missingMethod "error" name)
    | .struct o | .pointer o =>
      let type ← viewStore (·.structName o)
      if type = builderType then builderMethod o name arguments
      else
        match ← view (·.method? type name) with
        | some decl => callMethodDecl decl v arguments spread
        | none =>
          match ← walkStore (·.lookupField o name) with
          | some (.func f) => perform (.call (.func f) arguments spread) rfl
          | _ =>
            match ← ofWalk (← view (promotedReceiver · o name)) with
            | some inner => callMethodWithin name arguments spread depth inner
            | none => error (.missingMember type name)
    | .nil => panic .nilDereference
    | .func _ => error (.missingMethod "func" name)
    | _ => missing v name

def callMethod (v : Value) (name : String) (arguments : List Value)
    (spread : Bool) : Eval Value := do
  let structs ← viewStore (·.structs.size)
  callMethodWithin name arguments spread (structs + 1) v

end Eval

end SandboxedGo
