import SandboxedGo.Eval.Computation

/-!
# Basic computations

Signals with their causes, variables, and the objects of the store.
-/

set_option autoImplicit false

namespace SandboxedGo

open Source

namespace Eval

@[inline] def viewStore {α : Type} (f : Store → α) : Eval α := view fun g => f g.store

@[inline] def changeGuest (f : Guest → Guest) : Eval Unit := onGuest fun g => ((), f g)

@[inline] def changeStore (f : Store → Store) : Eval Unit :=
  changeGuest fun g => { g with store := f g.store }

@[inline] def onStore {α : Type} (f : Store → α × Store) : Eval α :=
  onGuest fun g =>
    let result := f g.store
    (result.1, { g with store := result.2 })

def panic {α : Type} (cause : Panic) : Eval α := raise ⟨.panic cause, rfl⟩

def error {α : Type} (cause : RuntimeError) : Eval α := raise ⟨.error cause, rfl⟩

@[inline] def ofExcept {α : Type} (r : Except Fault α) : Eval α :=
  match r with
  | .ok a => pure a
  | .error s => raise s

/-- The answer of a walk; a walk without one does not come to an end. -/
@[inline] def ofWalk {α : Type} (answer : Option α) : Eval α :=
  match answer with
  | some a => pure a
  | none => unfinished

@[inline] def walkStore {α : Type} (f : Store → Option α) : Eval α := do ofWalk (← viewStore f)

/-- Panic if something of this size may not be built. -/
def checkAlloc (size : Nat) (cause : Panic) : Eval Unit := do
  if (← maxAlloc) < size then panic cause

def setLine (line : Nat) : Eval Unit := changeGuest fun g => { g with line }

/-! ## Work of the evaluator -/

@[inline] def eval (e : Expr) (scope : ScopeId) : Eval Value := perform (.evaluate e scope) rfl

@[inline] def callFunction (function : Value) (arguments : List Value) : Eval Value :=
  perform (.call function arguments false) rfl

@[inline] def callMethodDecl (decl : FuncDecl) (receiver : Value) (arguments : List Value)
    (spread : Bool) : Eval Value :=
  perform (.call (.func (.method receiver decl)) arguments spread) rfl

def block : List Stmt → ScopeId → Flow Unit
  | [], _ => pure ()
  | s :: rest, scope => do
    Flow.exec s scope
    block rest scope

/-! ## Numbers for errors and struct types -/

def freshId : Eval Nat := onGuest fun g => (g.nextId, { g with nextId := g.nextId + 1 })

def newError (message : String) (wrapped : Option Value) : Eval Value := do
  return .error (← freshId) message wrapped

/-! ## Variables -/

def newScope (parent : ScopeId) : Eval ScopeId := onStore (·.newScope (some parent))

def define (scope : ScopeId) (name : String) (v : Value) (width : Option IntWidth) : Eval Unit :=
  changeStore (·.define scope name v width)

def resolve? (scope : ScopeId) (name : String) : Eval (Option Variable) :=
  viewStore (·.resolve? scope name)

def readCell (c : CellId) : Eval Value := viewStore (·.cell c)

def writeCell (c : CellId) (v : Value) : Eval Unit := changeStore (·.setCell c v)

/-! ## Objects -/

def newSlice (items : List Value) : Eval Value := do
  return .slice (← onStore (·.newSlice items.toArray))

def nilSlice : Eval Value := do
  return .slice { (← onStore (·.newSlice #[])) with isNil := true }

/-- An empty map whose missing keys have the value `zero`. -/
def newMap (zero : Value) : Eval Value := do
  return .map (some (← onStore Store.newMap)) zero

def newStruct (type : StructDef) (fields : List Value) : Eval Value := do
  return .struct (← onStore (·.newStruct type fields.toArray))

def newRef (v : Value) : Eval Value := do
  return .ref (← onStore (·.newCell v))

def elements (view : SliceView) : Eval (List Value) := viewStore (·.elements view)

end Eval

end SandboxedGo
