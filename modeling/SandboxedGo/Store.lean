import Std.Data.TreeMap
import SandboxedGo.Table
import SandboxedGo.Types.NumberWidth
import SandboxedGo.Value
import SandboxedGo.Walk

/-!
# Stores

A store holds the objects that values refer to: variable cells, scopes, backing arrays, maps and
structs.  Objects are only ever added, so a reference stays valid.
-/

set_option autoImplicit false

namespace SandboxedGo

/-- A variable of a scope: its cell, and its type if that is a narrow integer type. -/
structure Variable where
  cell : CellId
  width : Option IntWidth

/-- The variables declared in one block, inside those of the enclosing block. -/
structure Scope where
  declared : List (String × Variable) := []
  parent : Option ScopeId := none

structure StructObject where
  type : StructDef
  fields : Array Value

abbrev MapEntries := Std.TreeMap MapKey Value MapKey.compare

structure Store where
  cells : Array Value := #[]
  scopes : Array Scope := #[]
  backings : Array (Array Value) := #[]
  maps : Array MapEntries := #[]
  structs : Array StructObject := #[]

namespace Store

/-- The number of objects that a value can reach another value through. -/
def objectCount (s : Store) : Nat :=
  s.cells.size + s.backings.size + s.maps.size + s.structs.size

/-! ## Cells -/

def newCell (v : Value) (s : Store) : CellId × Store :=
  (⟨s.cells.size⟩, { s with cells := s.cells.push v })

def cell (s : Store) (c : CellId) : Value := s.cells[c.index]?.getD .nil

def setCell (c : CellId) (v : Value) (s : Store) : Store :=
  { s with cells := s.cells.setIfInBounds c.index v }

/-! ## Scopes -/

def newScope (parent : Option ScopeId) (s : Store) : ScopeId × Store :=
  (⟨s.scopes.size⟩, { s with scopes := s.scopes.push { parent } })

/-- The variable of a name in a scope itself. -/
def localVariable? (s : Store) (scope : ScopeId) (name : String) : Option Variable := do
  (← s.scopes[scope.index]?).declared.lookup name

/-- The variable that a name stands for: that of the innermost scope with one.  A scope is always
younger than the scope around it. -/
def resolve? (s : Store) (scope : ScopeId) (name : String) : Option Variable :=
  match s.scopes[scope.index]? with
  | none => none
  | some found =>
    match found.declared.lookup name with
    | some v => some v
    | none =>
      match found.parent with
      | none => none
      | some parent =>
        if parent.index < scope.index then resolve? s parent name else none
termination_by scope.index

/-- Declare a name in a scope, with a cell of its own; an earlier variable of the same name in the
same scope is forgotten.  The blank name declares nothing. -/
def define (scope : ScopeId) (name : String) (v : Value) (width : Option IntWidth) (s : Store) :
    Store :=
  if name = "_" then s
  else
    let entry : Variable := ⟨⟨s.cells.size⟩, width⟩
    { s with
      cells := s.cells.push v
      scopes := s.scopes.modify scope.index fun found =>
        { found with declared := Table.putEntry name entry found.declared } }

/-! ## Slices -/

def newBacking (items : Array Value) (s : Store) : BackingId × Store :=
  (⟨s.backings.size⟩, { s with backings := s.backings.push items })

def newSlice (items : Array Value) (s : Store) : SliceView × Store :=
  let (backing, s) := s.newBacking items
  (⟨backing, 0, items.size, items.size, false, false⟩, s)

def backing (s : Store) (b : BackingId) : Array Value := s.backings[b.index]?.getD #[]

/-- An element; one that has not been written yet is nil. -/
def element (s : Store) (view : SliceView) (i : Nat) : Value :=
  (s.backing view.backing)[view.start + i]?.getD .nil

def elements (s : Store) (view : SliceView) : List Value :=
  let items := s.backing view.backing
  (List.range view.length).map fun i => items[view.start + i]?.getD .nil

/-- An array with one place written; the places up to it are filled with nil. -/
def writeAt (items : Array Value) (place : Nat) (v : Value) : Array Value :=
  if place < items.size then items.setIfInBounds place v
  else (items ++ Array.replicate (place - items.size) Value.nil).push v

def setElement (view : SliceView) (i : Nat) (v : Value) (s : Store) : Store :=
  if i < view.length then
    { s with backings := s.backings.modify view.backing.index (writeAt · (view.start + i) v) }
  else s

def writeFrom (items : Array Value) (place : Nat) : List Value → Array Value
  | [] => items
  | v :: rest => writeFrom (writeAt items place v) (place + 1) rest

/-- The capacity of a slice that has outgrown the old one. -/
def grownCapacity (needed old limit : Nat) : Nat :=
  min (max needed (max (2 * old) 4)) (max limit needed)

/-- A slice with items added behind it: in place while the capacity allows, else in a backing array
of its own.  None if it would be longer than the limit. -/
def append (view : SliceView) (items : List Value) (limit : Nat) (s : Store) :
    Option SliceView × Store :=
  let needed := view.length + items.length
  if limit < needed then (none, s)
  else if needed ≤ view.capacity && !view.isArray then
    (some { view with length := needed, isNil := view.isNil && needed = 0 },
      { s with backings :=
          s.backings.modify view.backing.index (writeFrom · (view.start + view.length) items) })
  else
    let (fresh, s) := s.newBacking ((s.elements view).toArray ++ items.toArray)
    (some ⟨fresh, 0, needed, grownCapacity needed view.capacity limit, false, false⟩, s)

/-! ## Maps -/

def newMap (s : Store) : MapId × Store :=
  (⟨s.maps.size⟩, { s with maps := s.maps.push ∅ })

def mapEntries (s : Store) (m : MapId) : MapEntries := s.maps[m.index]?.getD ∅

def mapLookup (s : Store) (m : MapId) (key : MapKey) : Option Value := (s.mapEntries m)[key]?

def mapInsert (m : MapId) (key : MapKey) (v : Value) (s : Store) : Store :=
  { s with maps := s.maps.modify m.index (·.insert key v) }

def mapErase (m : MapId) (key : MapKey) (s : Store) : Store :=
  { s with maps := s.maps.modify m.index (·.erase key) }

def mapClear (m : MapId) (s : Store) : Store :=
  { s with maps := s.maps.modify m.index fun _ => ∅ }

/-- The entries of a map in the order of their keys; the nil map has none. -/
def mapList (s : Store) (m : Option MapId) : List (MapKey × Value) :=
  match m with
  | some m => (s.mapEntries m).toList
  | none => []

def mapSize (s : Store) (m : Option MapId) : Nat :=
  match m with
  | some m => (s.mapEntries m).size
  | none => 0

/-! ## Structs -/

def newStruct (type : StructDef) (fields : Array Value) (s : Store) : StructId × Store :=
  (⟨s.structs.size⟩, { s with structs := s.structs.push ⟨type, fields⟩ })

def structObject (s : Store) (o : StructId) : StructObject :=
  s.structs[o.index]?.getD ⟨⟨0, "", []⟩, #[]⟩

def structName (s : Store) (o : StructId) : String := (s.structObject o).type.name

def setFieldAt (o : StructId) (place : Nat) (v : Value) (s : Store) : Store :=
  { s with structs := s.structs.modify o.index fun object =>
      { object with fields := object.fields.setIfInBounds place v } }

def setFields (o : StructId) (fields : Array Value) (s : Store) : Store :=
  { s with structs := s.structs.modify o.index fun object => { object with fields } }

def structFields (s : Store) (o : StructId) : List (FieldDef × Value) :=
  let object := s.structObject o
  object.type.fields.zip object.fields.toList

def fieldPlace? (type : StructDef) (name : String) : Option Nat :=
  type.fields.findIdx? (·.name = name)

def embeddedStructs (s : Store) (o : StructId) : List StructId :=
  (s.structFields o).filterMap fun entry =>
    match entry.1.embedded, entry.2 with
    | true, .struct inner => some inner
    | true, .pointer inner => some inner
    | _, _ => none

/-- Where a field is stored, if anywhere: in the struct itself, or in the first embedded struct that
has it. -/
def fieldVisit (s : Store) (name : String) (o : StructId) :
    Visit (fun _ : StructId => Option (StructId × Nat)) (Option (StructId × Nat)) :=
  match fieldPlace? (s.structObject o).type name with
  | some place => pure (some (o, place))
  | none => (s.embeddedStructs o).findSomeM? Visit.consult

/-- Where a field of a struct is stored, embedded structs included. -/
def findField (s : Store) (o : StructId) (name : String) : Option (Option (StructId × Nat)) :=
  walk (s.fieldVisit name) o

def lookupField (s : Store) (o : StructId) (name : String) : Option (Option Value) :=
  (s.findField o name).map fun found => do
    let (owner, place) ← found
    (s.structObject owner).fields[place]?

/-- Try to write a field in one struct after another, each time in the store that the attempts
before have left, until it succeeds. -/
def writeFirst : List StructId → Store →
    Visit (fun _ : StructId × Store => Bool × Store) (Bool × Store)
  | [], s => pure (false, s)
  | inner :: rest, s => do
    let (written, s) ← Visit.consult (inner, s)
    if written then pure (true, s) else writeFirst rest s

/-- Write a field in the struct itself, or in the first embedded struct in which that succeeds. -/
def writeVisit (name : String) (v : Value) :
    StructId × Store → Visit (fun _ : StructId × Store => Bool × Store) (Bool × Store)
  | (o, s) =>
    match fieldPlace? (s.structObject o).type name with
    | some place => pure (true, s.setFieldAt o place v)
    | none => writeFirst (s.embeddedStructs o) s

/-- Write a field of a struct, embedded structs included: whether there is one, and the store
then. -/
def writeField (s : Store) (o : StructId) (name : String) (v : Value) : Option (Bool × Store) :=
  walk (writeVisit name v) (o, s)

end Store

end SandboxedGo
