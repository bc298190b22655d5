import SandboxedGo.Eval.Call
import SandboxedGo.Eval.Operators
import SandboxedGo.Format.Printing

/-!
# The predeclared functions

Functions on values that were evaluated already.  Those that take a type as an operand are evaluated
with it.
-/

set_option autoImplicit false

namespace SandboxedGo.Eval

open Source

/-! ## Refusals -/

def wrongArity (b : Builtin) : Eval Value := error (.builtinArity b.name)

def refuseOperand {α : Type} (b : Builtin) (v : Value) : Eval α := do
  let text ← Format.builtinText v
  error (.builtinArgument b.name text (← typeName v))

/-! ## Slices and maps -/

def lengthOf (v : Value) : Eval Value := do
  match v with
  | .string s => return .int (Int64.ofNat s.utf8ByteSize)
  | .slice view => return .int (Int64.ofNat view.length)
  | .map entries _ => return .int (Int64.ofNat (← viewStore (·.mapSize entries)))
  | .nil => return .int 0
  | .ref c =>
    match ← readCell c with
    | .slice view => return .int (Int64.ofNat view.length)
    | other => refuseOperand .len other
  | other => refuseOperand .len other

def appendItems (view : SliceView) (items : List Value) : Eval Value := do
  let limit ← maxAlloc
  match ← onStore (·.append view items limit) with
  | some longer => return .slice longer
  | none => panic .sliceTooLong

def appendTo (v : Value) (items : List Value) : Eval Value := do
  let items ← copiedAll items
  match v with
  | .slice view => appendItems view items
  | .nil =>
    let empty ← onStore (·.newSlice #[])
    appendItems { empty with isNil := true } items
  | other =>
    let text ← Format.builtinText other
    error (.notSlice text (← typeName other))

def deleteFrom (v key : Value) : Eval Value := do
  match v with
  | .map entries _ =>
    let key ← asKey key
    match entries with
    | some m => changeStore (·.mapErase m key)
    | none => pure ()
    return .nil
  | .nil => return .nil
  | other => refuseOperand .delete other

def byteValues (s : String) : List Value :=
  (Text.bytesOf s).map fun b => .int (Int64.ofNat b.toNat)

def overwrite (view : SliceView) (place : Nat) : List Value → Eval Unit
  | [] => pure ()
  | v :: rest => do
    let v ← copied v
    changeStore (·.setElement view place v)
    overwrite view (place + 1) rest

def copyElements (destination source : Value) : Eval Value := do
  let items ← match source with
    | .slice view => elements view
    | .string s => pure (byteValues s)
    | .nil => pure []
    | other => refuseOperand .copy other
  match destination with
  | .slice view =>
    let count := min view.length items.length
    overwrite view 0 (items.take count)
    return .int (Int64.ofNat count)
  | .nil => return .int 0
  | other => refuseOperand .copy other

def clearedValue : Value → Value
  | .int _ => .int 0
  | .float _ => .float 0
  | .string _ => .string ""
  | .bool _ => .bool false
  | _ => .nil

def clearAll (v : Value) : Eval Value := do
  match v with
  | .map entries _ =>
    match entries with
    | some m => changeStore (·.mapClear m)
    | none => pure ()
    return .nil
  | .slice view =>
    overwrite view 0 ((← elements view).map clearedValue)
    return .nil
  | .nil => return .nil
  | other => refuseOperand .clear other

/-! ## Panics -/

/-- What the method `Error` of a declared type says of a value. -/
def errorText? (v : Value) : Eval (Option String) := do
  match ← view (·.methodOf? v "Error") with
  | none => return none
  | some decl =>
    match ← callMethodDecl decl v [] false with
    | .string s => return some s
    | _ => return none

def panicText (v : Value) : Eval String := do
  match v with
  | .string s => return s
  | .error _ message _ => return message
  | .nil => return "panic called with nil argument (use runtime.PanicNilError)"
  | other =>
    match ← errorText? other with
    | some s => return s
    | none => Format.plainText other

/-! ## Least and greatest -/

/-- The better of two values: the least if `least`, or else the greatest; none if they cannot be
compared.  Numbers of both kinds are compared as floats, and what is no number wins. -/
def better? (least : Bool) (best v : Value) : Option Value :=
  let floats (a b : Float) (bAsIs : Value) : Value :=
    if a.isNaN || b.isNaN then .float (0 / 0)
    else if (if least then b < a else a < b) then bAsIs
    else .float a
  match best, v with
  | .int a, .int b => some (if (if least then b < a else a < b) then v else best)
  | .string a, .string b => some (if (if least then b < a else a < b) then v else best)
  | .int a, .float b => some (floats a.toFloat b v)
  | .float a, .int b => some (floats a b.toFloat (.float b.toFloat))
  | .float a, .float b => some (floats a b v)
  | _, _ => none

def bestOf (b : Builtin) (least : Bool) (best : Value) : List Value → Eval Value
  | [] => pure best
  | v :: rest =>
    match better? least best v with
    | some best => bestOf b least best rest
    | none => refuseOperand b v

/-! ## All together -/

def builtin (b : Builtin) (arguments : List Value) : Eval Value := do
  match b with
  | .len =>
    match arguments with
    | [v] => lengthOf v
    | _ => wrongArity b
  | .cap =>
    match arguments with
    | [.slice view] => return .int (Int64.ofNat view.capacity)
    | [.nil] => return .int 0
    | [v] => refuseOperand b v
    | _ => wrongArity b
  | .append =>
    match arguments with
    | v :: items => appendTo v items
    | [] => error (.builtinTooFew b.name)
  | .delete =>
    match arguments with
    | [v, key] => deleteFrom v key
    | _ => wrongArity b
  | .copy =>
    match arguments with
    | [destination, source] => copyElements destination source
    | _ => wrongArity b
  | .clear =>
    match arguments with
    | [v] => clearAll v
    | _ => wrongArity b
  | .panic =>
    match arguments with
    | [v] => panic (.raised (← panicText v))
    | _ => wrongArity b
  | .recover => recover
  | .print =>
    write .stderr (String.join (← arguments.mapM Format.builtinText))
    return .nil
  | .println =>
    write .stderr (String.intercalate " " (← arguments.mapM Format.builtinText) ++ "\n")
    return .nil
  | .min | .max =>
    match arguments with
    | v :: rest => bestOf b (b = .min) v rest
    | [] => wrongArity b
  | .close => error .channels
  | .make | .new => error (.undefined b.name)

end SandboxedGo.Eval
