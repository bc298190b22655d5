import SandboxedGo.Library.Catalog
import SandboxedGo.Source.Tree
import SandboxedGo.Text.Character
import SandboxedGo.Text.Search

/-!
# Values of guest programs

Numbers, texts and functions are values by themselves.  Slices, maps, structs and pointers refer to
objects in a store, which they may share; a struct or an array that is assigned is copied into an
object of its own.
-/

set_option autoImplicit false

namespace SandboxedGo

open Source

/-! ## Objects of a store, by their numbers -/

structure CellId where
  index : Nat
  deriving DecidableEq, Repr

structure ScopeId where
  index : Nat
  deriving DecidableEq, Repr

structure BackingId where
  index : Nat
  deriving DecidableEq, Repr

structure MapId where
  index : Nat
  deriving DecidableEq, Repr

structure StructId where
  index : Nat
  deriving DecidableEq, Repr

/-- A slice of a backing array, or a whole array.  The backing may be shorter than the capacity;
what lies beyond its end has not been written yet. -/
structure SliceView where
  backing : BackingId
  start : Nat
  length : Nat
  capacity : Nat
  isArray : Bool := false
  /-- The nil slice, as opposed to an empty one. -/
  isNil : Bool := false
  deriving DecidableEq, Repr

/-! ## Struct types -/

structure FieldDef where
  name : String
  embedded : Bool
  /-- The key of the field in JSON; absent where the field is left out. -/
  jsonName : Option String
  /-- Whether an empty value is left out of JSON. -/
  omitEmpty : Bool
  deriving DecidableEq, Repr

/-- A struct type.  Two types with the same fields differ if they were declared separately; the
number tells them apart. -/
structure StructDef where
  id : Nat
  name : String
  fields : List FieldDef
  deriving DecidableEq, Repr

/-! ## Predeclared functions -/

inductive Builtin
  | append | cap | clear | close | copy | delete | len | make | max | min | new | panic | print
  | println | recover
  deriving DecidableEq, Repr

namespace Builtin

def spellings : List (String × Builtin) :=
  [("append", append), ("cap", cap), ("clear", clear), ("close", close), ("copy", copy),
   ("delete", delete), ("len", len), ("make", make), ("max", max), ("min", min), ("new", new),
   ("panic", panic), ("print", print), ("println", println), ("recover", recover)]

def ofName? (name : String) : Option Builtin := spellings.lookup name

def name (b : Builtin) : String := ((spellings.find? (·.2 = b)).map Prod.fst).getD ""

end Builtin

/-! ## Values -/

mutual

inductive Value
  | nil
  | bool (b : Bool)
  | int (n : Int64)
  | float (f : Float)
  | string (s : String)
  | slice (view : SliceView)
  /-- A map, absent if it is the nil map, and the value of the keys it does not have. -/
  | map (entries : Option MapId) (zero : Value)
  | struct (object : StructId)
  | pointer (object : StructId)
  /-- A pointer to a variable that does not hold a struct. -/
  | ref (cell : CellId)
  | func (f : Callable)
  /-- An error; the number tells errors of the same text apart. -/
  | error (id : Nat) (message : String) (wrapped : Option Value)
  /-- Several results of one call. -/
  | tuple (items : List Value)
  | stream (s : Library.Stream)

inductive Callable
  | closure (name : String) (function : FuncLit) (scope : ScopeId)
  /-- A method with its receiver. -/
  | method (receiver : Value) (decl : FuncDecl)
  | builtin (b : Builtin)
  | library (f : Library.Function)
  /-- A function of the host, by its place in the list of host functions. -/
  | host (name : String) (place : Nat)

end

instance : Inhabited Value := ⟨.nil⟩

namespace Callable

def name : Callable → String
  | closure name _ _ => name
  | method _ decl => decl.name
  | builtin b => b.name
  | library f => f.name
  | host name _ => name

end Callable

namespace Value

def isNil : Value → Bool
  | nil => true
  | slice view => view.isNil
  | map entries _ => entries.isNone
  | _ => false

end Value

/-! ## Struct tags -/

namespace FieldDef

/-- The text between the quotes behind `key:` in a struct tag. -/
def tagValue? (tag key : String) : Option (List Char) := do
  let (_, rest) ← Text.breakOn (key.toList ++ [':', '"']) tag.toList
  let (value, _) ← Text.breakOn ['"'] rest
  pure value

/-- A field with its JSON key and options: exported fields have one, the tag may rename or remove
it. -/
def ofTag (name : String) (embedded : Bool) (tag : Option String) : FieldDef :=
  let exported := match name.toList with
    | c :: _ => Text.isUpper c
    | [] => false
  let own := if exported then some name else none
  match tag.bind (tagValue? · "json") with
  | none => ⟨name, embedded, own, false⟩
  | some spec =>
    let parts := Text.splitAll [','] spec
    let renamed := match parts with
      | ['-'] :: _ => none
      | [] :: _ | [] => own
      | key :: _ => if exported then some (String.ofList key) else own
    ⟨name, embedded, renamed, (parts.drop 1).contains "omitempty".toList⟩

end FieldDef

/-! ## Keys of maps -/

/-- The keys in the order in which maps are printed. -/
inductive MapKey
  | bool (b : Bool)
  | int (n : Int64)
  | float (f : Float)
  | string (s : String)

namespace MapKey

/-- The place of a float in the order of all floats by sign and magnitude. -/
def floatRank (f : Float) : Int :=
  let bits := f.toBits.toNat
  if bits < Nat.pow 2 63 then bits else -(bits - Nat.pow 2 63 : Nat) - 1

def kindRank : MapKey → Nat
  | bool _ => 0
  | int _ => 1
  | float _ => 2
  | string _ => 3

def compare : MapKey → MapKey → Ordering
  | bool a, bool b => Ord.compare a b
  | int a, int b => Ord.compare a b
  | float a, float b => Ord.compare (floatRank a) (floatRank b)
  | string a, string b => Ord.compare a b
  | a, b => Ord.compare a.kindRank b.kindRank

instance : Ord MapKey := ⟨compare⟩

def ofValue? : Value → Option MapKey
  | .bool b => some (.bool b)
  | .int n => some (.int n)
  | .float f => some (.float f)
  | .string s => some (.string s)
  | _ => none

def toValue : MapKey → Value
  | bool b => .bool b
  | int n => .int n
  | float f => .float f
  | string s => .string s

end MapKey

end SandboxedGo
