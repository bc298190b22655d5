import SandboxedGo.Format.FloatText
import SandboxedGo.Json
import SandboxedGo.Store.Contents

/-!
# Values at the boundary to the host

A guest value becomes a JSON document when it is passed to the host; a JSON document becomes a
guest value when it comes back.  All numbers of the host are floats to the guest.
-/

set_option autoImplicit false

namespace SandboxedGo

namespace MapKey

def text : MapKey → String
  | bool b => if b then "true" else "false"
  | int n => toString n.toInt
  | float f => Format.floatValue f
  | string s => s

end MapKey

/-- Why a value cannot be passed to the host. -/
inductive BoundaryFault
  | unsupportedValue (text : String)
  | unsupportedType (type : String)
  deriving DecidableEq, Repr

namespace BoundaryFault

def message : BoundaryFault → String
  | unsupportedValue text => "json: unsupported value: " ++ text
  | unsupportedType type => "json: unsupported type: " ++ type

end BoundaryFault

namespace Store

/-- Whether a field with this value is left out where empty fields are. -/
def isEmptyValue (s : Store) : Value → Bool
  | .nil => true
  | .bool b => !b
  | .int n => n = 0
  | .float f => f == 0
  | .string t => t.isEmpty
  | .slice view => view.length = 0
  | .map entries _ => s.mapSize entries = 0
  | _ => false

inductive DocumentPlace
  /-- The document of a value. -/
  | value (v : Value)
  /-- The fields that a struct has in JSON. -/
  | fields (o : StructId)

abbrev DocumentPlace.Answer : DocumentPlace → Type
  | value _ => Except BoundaryFault Json
  | fields _ => List (String × Value)

abbrev DocumentVisit := Visit DocumentPlace.Answer

def consultDocument (v : Value) : DocumentVisit (Except BoundaryFault Json) :=
  Visit.consult (DocumentPlace.value v)

def consultFields (o : StructId) : DocumentVisit (List (String × Value)) :=
  Visit.consult (DocumentPlace.fields o)

/-- What one field adds to the fields of a struct in JSON: those of an embedded struct stand in the
place of the embedding. -/
def jsonField (s : Store) (field : FieldDef) (v : Value) :
    DocumentVisit (List (String × Value)) :=
  let own :=
    match field.jsonName with
    | none => []
    | some key => if field.omitEmpty && s.isEmptyValue v then [] else [(key, v)]
  match field.embedded, v with
  | true, .struct inner => consultFields inner
  | true, .pointer inner => consultFields inner
  | _, _ => pure own

def jsonFieldsVisit (s : Store) (o : StructId) : DocumentVisit (List (String × Value)) :=
  (s.structFields o).foldlM
    (fun read (field, v) => do return read ++ (← s.jsonField field v)) []

def entriesVisit (entries : List (String × Value)) :
    DocumentVisit (Except BoundaryFault Json) := do
  let documents ← Visit.collect
    (fun (key, v) => do return (← consultDocument v).map fun j => (key, j)) entries
  return documents.map Json.ofEntries

def documentVisit (s : Store) (v : Value) : DocumentVisit (Except BoundaryFault Json) :=
  match v with
  | .nil => pure (.ok .null)
  | .bool b => pure (.ok (.bool b))
  | .int n => pure (.ok (.int n.toInt))
  | .float f =>
    if f.isFinite then pure (.ok (.float f))
    else pure (.error (.unsupportedValue (Decimal.diagnosticFloat f)))
  | .string t => pure (.ok (.string t))
  | .slice view =>
    if view.isNil then pure (.ok .null)
    else do
      let documents ← Visit.collect consultDocument (s.elements view)
      return documents.map Json.array
  | .map entries _ =>
    if entries.isNone then pure (.ok .null)
    else entriesVisit ((s.mapList entries).map fun (key, v) => (key.text, v))
  | .struct o | .pointer o => do entriesVisit (← consultFields o)
  | .ref c => consultDocument (s.cell c)
  | .error _ message _ => pure (.ok (.string message))
  | .func _ => pure (.error (.unsupportedType "func()"))
  | .tuple _ => pure (.error (.unsupportedType "tuple"))
  | .stream _ => pure (.error (.unsupportedType "*os.File"))

def boundaryVisit (s : Store) : (place : DocumentPlace) → DocumentVisit place.Answer
  | .value v => s.documentVisit v
  | .fields o => s.jsonFieldsVisit o

def jsonFields? (s : Store) (o : StructId) : Option (List (String × Value)) :=
  walk s.boundaryVisit (.fields o)

def toJson? (s : Store) (v : Value) : Option (Except BoundaryFault Json) :=
  walk s.boundaryVisit (.value v)

end Store

namespace Json

def floatOfInt (n : Int) : Float :=
  let magnitude := Decimal.nearestFloat n.natAbs 1
  if n < 0 then -magnitude else magnitude

mutual

def toValue (j : Json) (s : Store) : Value × Store :=
  match j with
  | .null => (.nil, s)
  | .bool b => (.bool b, s)
  | .int n => (.float (floatOfInt n), s)
  | .float f => (.float f, s)
  | .string t => (.string t, s)
  | .array items =>
    let (values, s) := toValues items s
    let (view, s) := s.newSlice values.toArray
    (.slice view, s)
  | .object entries =>
    let (values, s) := toEntries entries s
    let (m, s) := s.newMap
    (.map (some m) .nil, values.foldl (fun s e => s.mapInsert m (.string e.1) e.2) s)

def toValues (items : List Json) (s : Store) : List Value × Store :=
  match items with
  | [] => ([], s)
  | j :: rest =>
    let (v, s) := j.toValue s
    let (more, s) := toValues rest s
    (v :: more, s)

def toEntries (entries : List (String × Json)) (s : Store) : List (String × Value) × Store :=
  match entries with
  | [] => ([], s)
  | (key, j) :: rest =>
    let (v, s) := j.toValue s
    let (more, s) := toEntries rest s
    ((key, v) :: more, s)

end

end Json

end SandboxedGo
