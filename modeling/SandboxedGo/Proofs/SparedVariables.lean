import SandboxedGo.Eval.Conversion
import SandboxedGo.Library.Sort
import SandboxedGo.Proofs.Holders
import SandboxedGo.Source.Tree
import SandboxedGo.Store.Boundary

/-!
# Variables that nothing refers to

The variable that a host function is lent in lies in a cell of the store.  As long as no value is a
pointer to that cell, and no function among the values contains a statement that assigns to the name
or points to it, the cell can be reached by the name alone.  Every change that evaluation makes to a
store leaves it so, and leaves the cell and the top-level declarations as they are.
-/

set_option autoImplicit false

/-!
## Names that are left alone

A program spares a name if none of its statements assigns to the name and no expression points to
what the name stands for.  Declaring the name again, inside a function or at the top level, is no
assignment.
-/

namespace SandboxedGo.Source

/-- Whether an expression is a name by itself. -/
def Expr.isName (name : String) : Expr → Bool
  | .name word => word = name
  | _ => false

section Spares

variable (name : String)

mutual

/-- Whether an expression neither assigns to a name, in a function that it contains, nor points to
what the name stands for. -/
def Expr.spares : Expr → Bool
  | .composite _ elements => elementsSpare elements
  | .function literal => literal.spares
  | .unary op operand => !(op = .addr && operand.isName name) && operand.spares
  | .binary _ left right => left.spares && right.spares
  | .call callee arguments _ => callee.spares && exprsSpare arguments
  | .select base _ => base.spares
  | .index base key => base.spares && key.spares
  | .slice base low high => base.spares && optionSpares low && optionSpares high
  | .assert subject _ => subject.spares
  | _ => true

def FuncLit.spares : FuncLit → Bool
  | .mk _ _ _ body => bodySpares body

def Stmt.spares : Stmt → Bool
  | .mk _ kind => kind.spares

def StmtKind.spares : StmtKind → Bool
  | .expr e => e.spares
  | .var spec | .const spec => spec.spares
  | .define _ values => exprsSpare values
  | .assign targets values => targetsSpare targets && exprsSpare values
  | .opAssign _ target value => !target.isName name && target.spares && value.spares
  | .increment target | .decrement target => !target.isName name && target.spares
  | .block body => bodySpares body
  | .if init condition body otherwise =>
    stmtOptionSpares init && condition.spares && bodySpares body && stmtOptionSpares otherwise
  | .for init condition post body =>
    stmtOptionSpares init && optionSpares condition && stmtOptionSpares post && bodySpares body
  | .range key value define subject body =>
    (define || targetOptionSpares key && targetOptionSpares value) && subject.spares &&
      bodySpares body
  | .switch init tag cases => stmtOptionSpares init && optionSpares tag && casesSpare cases
  | .typeSwitch init _ subject cases =>
    stmtOptionSpares init && subject.spares && typeCasesSpare cases
  | .return values => exprsSpare values
  | .defer call => call.spares
  | _ => true

def ValueSpec.spares : ValueSpec → Bool
  | .mk _ _ _ values _ => exprsSpare values

def SwitchCase.spares : SwitchCase → Bool
  | .mk _ values body => exprsSpare values && bodySpares body

def TypeCase.spares : TypeCase → Bool
  | .mk _ _ body => bodySpares body

def optionSpares : Option Expr → Bool
  | none => true
  | some e => e.spares

def targetOptionSpares : Option Expr → Bool
  | none => true
  | some e => !e.isName name && e.spares

def exprsSpare : List Expr → Bool
  | [] => true
  | e :: rest => e.spares && exprsSpare rest

def targetsSpare : List Expr → Bool
  | [] => true
  | e :: rest => !e.isName name && e.spares && targetsSpare rest

def elementSpares : Option Expr × Expr → Bool
  | (key, value) => optionSpares key && value.spares

def elementsSpare : List (Option Expr × Expr) → Bool
  | [] => true
  | element :: rest => elementSpares element && elementsSpare rest

def stmtOptionSpares : Option Stmt → Bool
  | none => true
  | some s => s.spares

def bodySpares : List Stmt → Bool
  | [] => true
  | s :: rest => s.spares && bodySpares rest

def casesSpare : List SwitchCase → Bool
  | [] => true
  | c :: rest => c.spares && casesSpare rest

def typeCasesSpare : List TypeCase → Bool
  | [] => true
  | c :: rest => c.spares && typeCasesSpare rest

end

/-- Whether an expression spares a name when it is assigned to. -/
def Expr.sparesAsTarget (target : Expr) : Bool := !target.isName name && target.spares name

def Decl.spares : Decl → Bool
  | .func decl => decl.function.spares name
  | .var specs | .const specs => specs.all (ValueSpec.spares name)
  | .types _ => true

/-- Whether no statement of a program assigns to a name and no expression points to what it stands
for. -/
def Program.spares (p : Program) : Bool := p.decls.all (Decl.spares name)

/-- The names of the variables and constants that a declaration declares. -/
def Decl.valueNames : Decl → List String
  | .var specs | .const specs => specs.flatMap ValueSpec.names
  | _ => []

/-- The names of the variables and constants that are declared at the top level. -/
def Program.valueNames (p : Program) : List String := p.decls.flatMap Decl.valueNames

variable {name : String}

/-! ## Trees that are made of several -/

theorem exprsSpare_iff {es : List Expr} :
    exprsSpare name es = true ↔ ∀ e ∈ es, e.spares name = true := by
  induction es with
  | nil => simp [exprsSpare]
  | cons e rest ih => simp [exprsSpare, ih]

theorem targetsSpare_iff {es : List Expr} :
    targetsSpare name es = true ↔ ∀ e ∈ es, e.sparesAsTarget name = true := by
  induction es with
  | nil => simp [targetsSpare]
  | cons e rest ih => simp [targetsSpare, Expr.sparesAsTarget, ih]

theorem elementsSpare_iff {elements : List (Option Expr × Expr)} :
    elementsSpare name elements = true ↔
      ∀ element ∈ elements, (∀ key ∈ element.1, key.spares name = true) ∧
        element.2.spares name = true := by
  induction elements with
  | nil => simp [elementsSpare]
  | cons element rest ih =>
      obtain ⟨key, value⟩ := element
      cases key <;> simp [elementsSpare, elementSpares, optionSpares, ih]

theorem casesSpare_iff {cases : List SwitchCase} :
    casesSpare name cases = true ↔ ∀ c ∈ cases, c.spares name = true := by
  induction cases with
  | nil => simp [casesSpare]
  | cons c rest ih => simp [casesSpare, ih]

theorem typeCasesSpare_iff {cases : List TypeCase} :
    typeCasesSpare name cases = true ↔ ∀ c ∈ cases, c.spares name = true := by
  induction cases with
  | nil => simp [typeCasesSpare]
  | cons c rest ih => simp [typeCasesSpare, ih]

end Spares

end SandboxedGo.Source

namespace SandboxedGo

open Source

/-- A binding at the top level: a name and the cell of its variable. -/
structure NamedCell where
  name : String
  cell : CellId

/-! ## Values -/

section

variable (b : NamedCell)

mutual

/-- A value that contains no pointer to the variable of a binding, and no function that assigns to
its name or points to it. -/
def Value.Spares : Value → Prop
  | .map _ zero => zero.Spares
  | .ref c => c ≠ b.cell
  | .func f => f.Spares
  | .error _ _ wrapped => OptionSpares wrapped
  | .tuple items => ItemsSpare items
  | _ => True

def Callable.Spares : Callable → Prop
  | .closure _ f _ => f.spares b.name = true
  | .method receiver decl => receiver.Spares ∧ decl.function.spares b.name = true
  | _ => True

def OptionSpares : Option Value → Prop
  | none => True
  | some v => v.Spares

def ItemsSpare : List Value → Prop
  | [] => True
  | v :: rest => v.Spares ∧ ItemsSpare rest

end

/-- Several such values. -/
abbrev AllSpare (values : List Value) : Prop := ∀ v ∈ values, v.Spares b

end

variable {b : NamedCell} {u v w : Value} {values : List Value}

theorem Value.spares_tuple : (Value.tuple values).Spares b ↔ AllSpare b values := by
  rw [Value.Spares]
  induction values with
  | nil => exact iff_of_true trivial nofun
  | cons v rest ih => rw [ItemsSpare, ih, AllSpare, AllSpare, List.forall_mem_cons]

theorem Value.spares_error {id : Nat} {message : String} {wrapped : Option Value} :
    (Value.error id message wrapped).Spares b ↔ ∀ v ∈ wrapped, v.Spares b := by
  rw [Value.Spares]
  cases wrapped with
  | none => exact iff_of_true trivial nofun
  | some v => simp [OptionSpares]

theorem Value.spares_int (n : Int64) : (Value.int n).Spares b := trivial

theorem Value.spares_nil : Value.nil.Spares b := trivial

theorem allSpare_nil : AllSpare b [] := nofun

theorem AllSpare.cons (first : v.Spares b) (rest : AllSpare b values) : AllSpare b (v :: values) :=
  List.forall_mem_cons.mpr ⟨first, rest⟩

theorem allSpare_one (spares : v.Spares b) : AllSpare b [v] := spares |> (.cons · nofun)

theorem AllSpare.append {others : List Value} (first : AllSpare b values)
    (rest : AllSpare b others) : AllSpare b (values ++ others) :=
  List.forall_mem_append.mpr ⟨first, rest⟩

theorem AllSpare.getD (spare : AllSpare b values) (i : Nat) : (values[i]?.getD .nil).Spares b := by
  cases is : values[i]? with
  | none => exact trivial
  | some v => exact spare v (List.mem_of_getElem? is)

theorem spares_toValue (key : MapKey) : key.toValue.Spares b := by cases key <;> exact trivial

theorem spares_keepingFloat (old : Value) (spares : v.Spares b) :
    (old.keepingFloat v).Spares b := by
  unfold Value.keepingFloat
  split
  · exact trivial
  · exact spares

theorem spares_adapt (types : TypeTable) (ty : TypeExpr) (spares : v.Spares b) :
    (types.adapt ty v).Spares b := by
  unfold TypeTable.adapt
  split
  · split
    · exact trivial
    · exact trivial
    · exact spares
  · split
    · split
      · exact trivial
      · exact spares
    · exact spares
  · exact spares

/-! ## Stores -/

namespace Store

/-- A store in which the variable of a binding is reached by its name alone. -/
structure Spares (b : NamedCell) (s : Store) : Prop where
  bound : b.cell.index < s.cells.size
  rooted : 0 < s.scopes.size
  holds {h : Holder} {v : Value} : s.HoldsAt h v → v.Spares b
  named {i : Nat} {found : Scope} {name : String} {v : Variable} :
    s.scopes[i]? = some found → found.declared.lookup name = some v → v.cell = b.cell →
      i = 0 ∧ name = b.name

/-- A change that leaves a store so, and does not touch the variable or the declarations at the top
level. -/
structure Keeps (b : NamedCell) (s s' : Store) : Prop where
  spares : s'.Spares b
  globals : s'.scopes[0]? = s.scopes[0]?
  value : s'.cell b.cell = s.cell b.cell

/-- Such a change together with a result that has a property. -/
def Making (b : NamedCell) {α : Type} (P : α → Prop) (s : Store) (made : α × Store) : Prop :=
  s.Keeps b made.2 ∧ P made.1

variable {s s' s'' : Store} {scope : ScopeId} {name : String}

theorem Spares.keeps (spares : s.Spares b) : s.Keeps b s := ⟨spares, rfl, rfl⟩

theorem Keeps.trans (first : s.Keeps b s') (second : s'.Keeps b s'') : s.Keeps b s'' :=
  ⟨second.spares, second.globals.trans first.globals, second.value.trans first.value⟩

/-! ### What is read -/

theorem Spares.cell (spares : s.Spares b) (c : CellId) : (s.cell c).Spares b := by
  unfold Store.cell
  cases is : s.cells[c.index]? with
  | none => exact trivial
  | some v => exact spares.holds (.cell is)

theorem Spares.backing (spares : s.Spares b) (id : BackingId) :
    AllSpare b (s.backing id).toList := by
  intro v mem
  obtain ⟨i, holds⟩ := mem_parts_iff.mp (show v ∈ s.parts (.items id) from mem)
  exact spares.holds holds

theorem Spares.element (spares : s.Spares b) (view : SliceView) (i : Nat) :
    (s.element view i).Spares b := by
  unfold Store.element
  rw [← Array.getElem?_toList]
  exact (spares.backing _).getD _

theorem Spares.elements (spares : s.Spares b) (view : SliceView) :
    AllSpare b (s.elements view) := by
  intro v mem
  obtain ⟨i, -, rfl⟩ := List.mem_map.mp mem
  exact spares.element view i

theorem Spares.fields (spares : s.Spares b) (o : StructId) :
    AllSpare b (s.structObject o).fields.toList := by
  intro v mem
  obtain ⟨i, holds⟩ := mem_parts_iff.mp (show v ∈ s.parts (.fields o) from mem)
  exact spares.holds holds

theorem Spares.field? (spares : s.Spares b) {o : StructId} {place : Nat}
    (is : (s.structObject o).fields[place]? = some v) : v.Spares b :=
  spares.fields o v (Array.mem_toList_iff.mpr (Array.mem_of_getElem? is))

theorem Spares.structFields (spares : s.Spares b) (o : StructId) :
    ∀ entry ∈ s.structFields o, entry.2.Spares b :=
  fun entry mem => spares.fields o _ (List.of_mem_zip (a := entry.1) (b := entry.2) mem).2

theorem Spares.lookupField (spares : s.Spares b) {o : StructId}
    (is : s.lookupField o name = some (some v)) : v.Spares b := by
  obtain ⟨found, -, is⟩ := Option.map_eq_some_iff.mp is
  obtain ⟨⟨owner, place⟩, -, is⟩ := Option.bind_eq_some_iff.mp is
  exact spares.field? is

theorem Spares.mapLookup (spares : s.Spares b) {m : MapId} {key : MapKey}
    (is : s.mapLookup m key = some v) : v.Spares b := by
  unfold Store.mapLookup mapEntries at is
  cases stored : s.maps[m.index]? with
  | none => simp [stored] at is
  | some entries =>
      rw [stored, Option.getD_some] at is
      exact spares.holds (.entry stored is)

theorem Spares.mapList (spares : s.Spares b) (m : Option MapId) :
    ∀ entry ∈ s.mapList m, entry.2.Spares b := by
  intro entry mem
  cases m with
  | none => cases mem
  | some m =>
      have is : s.mapLookup m entry.1 = some entry.2 :=
        (Std.TreeMap.mem_toList_iff_getKey?_eq_some_and_getElem?_eq_some.mp mem).2
      exact spares.mapLookup is

theorem Spares.behind (spares : s.Spares b) (steps : Nat) (value : v.Spares b) :
    (s.behind steps v).Spares b := by
  fun_induction Store.behind s steps v with
  | case1 steps c ih => exact ih (spares.cell c)
  | case2 => exact value

theorem Spares.target (spares : s.Spares b) (value : v.Spares b) : (s.target v).Spares b :=
  spares.behind _ value

/-- Only the name itself stands for the variable. -/
theorem Spares.resolve? (spares : s.Spares b) {found : Variable}
    (is : s.resolve? scope name = some found) (other : name ≠ b.name) : found.cell ≠ b.cell := by
  fun_induction Store.resolve? s scope name with
  | case1 => cases is
  | case2 scope inside stored v declared =>
      cases is
      exact fun same => other (spares.named stored declared same).2
  | case3 => cases is
  | case4 scope inside stored undeclared parent isParent older ih => exact ih is
  | case5 => cases is

theorem Spares.localVariable? (spares : s.Spares b) {found : Variable}
    (is : s.localVariable? scope name = some found) (inner : scope ≠ globalScope) :
    found.cell ≠ b.cell := by
  obtain ⟨inside, stored, declared⟩ := Option.bind_eq_some_iff.mp is
  intro same
  refine inner ?_
  obtain ⟨i⟩ := scope
  exact congrArg ScopeId.mk (spares.named stored declared same).1

/-! ### What is changed -/

theorem Spares.changed (spares : s.Spares b) (cells : s'.cells = s.cells)
    (scopes : s'.scopes = s.scopes)
    (holds : ∀ {h v}, s'.HoldsAt h v → s.HoldsAt h v ∨ v.Spares b) : s.Keeps b s' where
  spares :=
    { bound := by rw [cells]; exact spares.bound
      rooted := by rw [scopes]; exact spares.rooted
      holds := fun held => (holds held).elim spares.holds id
      named := by rw [scopes]; exact spares.named }
  globals := by rw [scopes]
  value := by unfold Store.cell; rw [cells]

theorem Spares.newBacking (spares : s.Spares b) {items : Array Value}
    (spare : AllSpare b items.toList) : s.Keeps b (s.newBacking items).2 :=
  spares.changed rfl rfl fun held => (holdsAt_newBacking held).imp_right fun ⟨_, _, is⟩ =>
    spare _ (Array.mem_toList_iff.mpr (Array.mem_of_getElem? is))

theorem Spares.newStruct (spares : s.Spares b) (type : StructDef) {fields : Array Value}
    (spare : AllSpare b fields.toList) : s.Keeps b (s.newStruct type fields).2 :=
  spares.changed rfl rfl fun held => (holdsAt_newStruct held).imp_right fun ⟨_, _, is⟩ =>
    spare _ (Array.mem_toList_iff.mpr (Array.mem_of_getElem? is))

theorem Spares.modifyBacking (spares : s.Spares b) (id : BackingId) {f : Array Value → Array Value}
    (spare : ∀ items, AllSpare b items.toList → AllSpare b (f items).toList) :
    s.Keeps b { s with backings := s.backings.modify id.index f } := by
  refine spares.changed rfl rfl fun held => (holdsAt_modifyBacking held).imp And.left ?_
  rintro ⟨items, i, stored, -, is⟩
  refine spare items ?_ _ (Array.mem_toList_iff.mpr (Array.mem_of_getElem? is))
  have before := spares.backing id
  rwa [Store.backing, stored, Option.getD_some] at before

theorem allSpare_writeAt {items : Array Value} (spare : AllSpare b items.toList) (place : Nat)
    (value : v.Spares b) : AllSpare b (writeAt items place v).toList := by
  intro u mem
  unfold writeAt at mem
  split at mem
  · rw [Array.toList_setIfInBounds] at mem
    rcases List.mem_or_eq_of_mem_set mem with before | rfl
    · exact spare u before
    · exact value
  · rw [Array.toList_push, Array.toList_append, Array.toList_replicate] at mem
    rcases List.mem_append.mp mem with mem | mem
    · rcases List.mem_append.mp mem with mem | mem
      · exact spare u mem
      · rw [(List.mem_replicate.mp mem).2]
        exact trivial
    · rw [List.mem_singleton.mp mem]
      exact value

theorem allSpare_writeFrom (spare : AllSpare b values) {items : Array Value} {place : Nat}
    (before : AllSpare b items.toList) : AllSpare b (writeFrom items place values).toList := by
  induction values generalizing items place with
  | nil => exact before
  | cons v rest ih =>
      obtain ⟨first, rest⟩ := List.forall_mem_cons.mp spare
      exact ih rest (allSpare_writeAt before place first)

theorem Spares.setElement (spares : s.Spares b) (view : SliceView) (i : Nat)
    (value : v.Spares b) : s.Keeps b (s.setElement view i v) := by
  unfold Store.setElement
  split
  · exact spares.modifyBacking _ fun items spare => allSpare_writeAt spare _ value
  · exact spares.keeps

theorem Spares.writeElements (spares : s.Spares b) (view : SliceView) (place : Nat)
    (spare : AllSpare b values) : s.Keeps b (Library.writeElements view place values s) := by
  induction values generalizing s place with
  | nil => exact spares.keeps
  | cons v rest ih =>
      obtain ⟨first, rest⟩ := List.forall_mem_cons.mp spare
      have written := spares.setElement view place first
      exact written.trans (ih written.spares (place + 1) rest)

theorem Spares.append (spares : s.Spares b) (view : SliceView) (spare : AllSpare b values)
    (limit : Nat) : s.Keeps b (s.append view values limit).2 := by
  unfold Store.append
  dsimp only
  split
  · exact spares.keeps
  · split
    · exact spares.modifyBacking _ fun items before => allSpare_writeFrom spare before
    · refine spares.newBacking ?_
      rw [Array.toList_append]
      exact (spares.elements view).append spare

theorem Spares.modifyStruct (spares : s.Spares b) (o : StructId) {f : StructObject → StructObject}
    (spare : ∀ object, AllSpare b object.fields.toList → AllSpare b (f object).fields.toList) :
    s.Keeps b { s with structs := s.structs.modify o.index f } := by
  refine spares.changed rfl rfl fun held => (holdsAt_modifyStruct held).imp_right ?_
  rintro ⟨object, i, stored, -, is⟩
  refine spare object ?_ _ (Array.mem_toList_iff.mpr (Array.mem_of_getElem? is))
  have before := spares.fields o
  rwa [structObject, stored, Option.getD_some] at before

theorem Spares.setFieldAt (spares : s.Spares b) (o : StructId) (place : Nat)
    (value : v.Spares b) : s.Keeps b (s.setFieldAt o place v) := by
  refine spares.modifyStruct o fun object spare u mem => ?_
  rw [Array.toList_setIfInBounds] at mem
  rcases List.mem_or_eq_of_mem_set mem with before | rfl
  · exact spare u before
  · exact value

theorem Spares.setFields (spares : s.Spares b) (o : StructId) {fields : Array Value}
    (spare : AllSpare b fields.toList) : s.Keeps b (s.setFields o fields) :=
  spares.modifyStruct o fun _ _ => spare

/-! ### Maps -/

theorem Spares.newMap (spares : s.Spares b) : s.Keeps b s.newMap.2 :=
  spares.changed rfl rfl fun held => .inl (holdsAt_newMap held)

theorem Spares.mapInsert (spares : s.Spares b) (m : MapId) (key : MapKey) (value : v.Spares b) :
    s.Keeps b (s.mapInsert m key v) :=
  spares.changed rfl rfl fun held => (holdsAt_mapInsert held).imp_right fun ⟨_, is⟩ => is ▸ value

theorem Spares.mapErase (spares : s.Spares b) (m : MapId) (key : MapKey) :
    s.Keeps b (s.mapErase m key) :=
  spares.changed rfl rfl fun held => .inl (holdsAt_mapErase held)

theorem Spares.mapClear (spares : s.Spares b) (m : MapId) : s.Keeps b (s.mapClear m) :=
  spares.changed rfl rfl fun held => .inl (holdsAt_mapClear held)

/-! ### Variables and scopes -/

theorem cell_push (bound : b.cell.index < s.cells.size) (v : Value) (scopes : Array Scope) :
    Store.cell { s with cells := s.cells.push v, scopes } b.cell = s.cell b.cell := by
  unfold Store.cell
  rw [Array.getElem?_push_lt bound, ← Array.getElem?_eq_getElem bound]

theorem Spares.newCell (spares : s.Spares b) (value : v.Spares b) :
    Making b (fun c => c ≠ b.cell) s (s.newCell v) := by
  refine ⟨⟨⟨?_, spares.rooted, fun held => ?_, spares.named⟩, rfl, cell_push spares.bound v _⟩, ?_⟩
  · exact Nat.lt_of_lt_of_le spares.bound (by simp [Store.newCell])
  · rcases holdsAt_pushCell held with before | ⟨-, rfl⟩
    · exact spares.holds before
    · exact value
  · intro same
    have bound := spares.bound
    rw [← same] at bound
    exact Nat.lt_irrefl _ bound

theorem Spares.setCell (spares : s.Spares b) {c : CellId} (other : c ≠ b.cell)
    (value : v.Spares b) : s.Keeps b (s.setCell c v) := by
  have different : c.index ≠ b.cell.index := by
    intro same
    obtain ⟨i⟩ := c
    exact other (congrArg CellId.mk same)
  refine ⟨⟨?_, spares.rooted, fun held => ?_, spares.named⟩, rfl, ?_⟩
  · exact Nat.lt_of_lt_of_le spares.bound (by simp [Store.setCell])
  · rcases holdsAt_setCell held with before | ⟨-, rfl⟩
    · exact spares.holds before
    · exact value
  · unfold Store.cell Store.setCell
    rw [Array.getElem?_setIfInBounds_ne different]

theorem Spares.newScope (spares : s.Spares b) (parent : Option ScopeId) :
    Making b (fun scope => scope ≠ globalScope) s (s.newScope parent) := by
  have rooted := spares.rooted
  refine ⟨⟨⟨spares.bound, ?_, fun held => ?_, ?_⟩, ?_, rfl⟩, ?_⟩
  · simp [Store.newScope]
  · cases held with
    | cell is => exact spares.holds (.cell is)
    | field stored is => exact spares.holds (.field stored is)
    | element stored is => exact spares.holds (.element stored is)
    | entry stored is => exact spares.holds (.entry stored is)
  · intro i found name v stored declared
    rw [Store.newScope, Array.getElem?_push] at stored
    split at stored
    · cases stored
      cases declared
    · exact spares.named stored declared
  · exact Array.getElem?_push_lt rooted |>.trans (Array.getElem?_eq_getElem rooted).symm
  · intro same
    exact Nat.ne_of_gt rooted (congrArg ScopeId.index same)

/-- Declaring a name anywhere leaves the variable as it is, also if it is the name of the
binding: the new variable has a cell of its own. -/
theorem Spares.define (spares : s.Spares b) (scope : ScopeId) (name : String)
    (width : Option IntWidth) (value : v.Spares b) :
    (s.define scope name v width).Spares b ∧
      (s.define scope name v width).cell b.cell = s.cell b.cell := by
  unfold Store.define
  split
  · exact ⟨spares, rfl⟩
  · refine ⟨⟨?_, ?_, fun held => ?_, ?_⟩, cell_push spares.bound v _⟩
    · exact Nat.lt_of_lt_of_le spares.bound (by simp)
    · rw [Array.size_modify]
      exact spares.rooted
    · rcases holdsAt_pushCell held with before | ⟨-, rfl⟩
      · exact spares.holds before
      · exact value
    · intro i found other v stored declared same
      rw [Array.getElem?_modify] at stored
      split at stored
      · obtain ⟨before, was, rfl⟩ := Option.map_eq_some_iff.mp stored
        rw [Table.lookup_putEntry] at declared
        split at declared
        · cases declared
          have bound := spares.bound
          rw [← same] at bound
          exact absurd bound (Nat.lt_irrefl _)
        · exact spares.named was declared same
      · exact spares.named stored declared same

theorem Spares.defineInside (spares : s.Spares b) (inner : scope ≠ globalScope) (name : String)
    (width : Option IntWidth) (value : v.Spares b) :
    s.Keeps b (s.define scope name v width) := by
  obtain ⟨later, same⟩ := spares.define scope name width value
  refine ⟨later, ?_, same⟩
  unfold Store.define
  split
  · rfl
  · rw [Array.getElem?_modify, if_neg]
    intro isGlobal
    cases scope
    cases isGlobal
    exact inner rfl

/-! ### Copies and documents -/

theorem Spares.copyAll {copy : Value → Store → Value × Store}
    (each : ∀ {v s}, Store.Spares b s → v.Spares b → Making b (Value.Spares b) s (copy v s))
    (spares : s.Spares b) (spare : AllSpare b values) :
    Making b (fun items => AllSpare b items.toList) s (copyAll copy values s) := by
  unfold Store.copyAll
  have none : AllSpare b (#[] : Array Value).toList := nofun
  generalize #[] = done at none ⊢
  induction values generalizing done s with
  | nil => exact ⟨spares.keeps, none⟩
  | cons v rest ih =>
      obtain ⟨first, rest⟩ := List.forall_mem_cons.mp spare
      obtain ⟨kept, made⟩ := each spares first
      rw [List.foldl_cons]
      obtain ⟨later, copies⟩ := ih kept.spares rest (done.push (copy v s).1) (by
        rw [Array.toList_push]
        exact none.append (allSpare_one made))
      exact ⟨kept.trans later, copies⟩

theorem Spares.copyWithin (depth : Nat) {v : Value} {s : Store} (spares : s.Spares b)
    (value : v.Spares b) : Making b (Value.Spares b) s (copyWithin depth v s) := by
  induction depth generalizing v s with
  | zero => exact ⟨spares.keeps, value⟩
  | succ depth ih =>
      unfold Store.copyWithin
      split
      · rename_i o
        obtain ⟨kept, fields⟩ := Spares.copyAll ih spares (spares.fields o)
        exact ⟨kept.trans (kept.spares.newStruct _ fields), trivial⟩
      · rename_i view
        split
        · obtain ⟨kept, items⟩ := Spares.copyAll ih spares (spares.elements view)
          exact ⟨kept.trans (kept.spares.newBacking items), trivial⟩
        · exact ⟨spares.keeps, value⟩
      · exact ⟨spares.keeps, value⟩

theorem Spares.copied (spares : s.Spares b) (value : v.Spares b) :
    Making b (Value.Spares b) s (s.copied v) := by
  unfold Store.copied
  split
  · exact spares.copyWithin _ value
  · exact ⟨spares.keeps, value⟩

theorem Spares.insertAll (m : MapId) {entries : List (String × Value)}
    (spare : ∀ e ∈ entries, e.2.Spares b) {s : Store} (spares : s.Spares b) :
    s.Keeps b (entries.foldl (fun s e => s.mapInsert m (.string e.1) e.2) s) := by
  induction entries generalizing s with
  | nil => exact spares.keeps
  | cons e rest ih =>
      obtain ⟨first, rest⟩ := List.forall_mem_cons.mp spare
      have inserted := spares.mapInsert m (.string e.1) first
      exact inserted.trans (ih rest inserted.spares)

mutual

theorem Spares.toValue (j : Json) {s : Store} (spares : s.Spares b) :
    Making b (Value.Spares b) s (j.toValue s) := by
  unfold Json.toValue
  cases j with
  | array items =>
      obtain ⟨kept, values⟩ := Spares.toValues items spares
      exact ⟨kept.trans (kept.spares.newBacking values), trivial⟩
  | object entries =>
      obtain ⟨kept, values⟩ := Spares.toEntries entries spares
      have made := kept.trans kept.spares.newMap
      exact ⟨made.trans (Spares.insertAll _ values made.spares), trivial⟩
  | _ => exact ⟨spares.keeps, trivial⟩

theorem Spares.toValues (items : List Json) {s : Store} (spares : s.Spares b) :
    Making b (AllSpare b) s (Json.toValues items s) := by
  unfold Json.toValues
  cases items with
  | nil => exact ⟨spares.keeps, nofun⟩
  | cons j rest =>
      obtain ⟨kept, first⟩ := Spares.toValue j spares
      obtain ⟨later, more⟩ := Spares.toValues rest kept.spares
      exact ⟨kept.trans later, .cons first more⟩

theorem Spares.toEntries (entries : List (String × Json)) {s : Store} (spares : s.Spares b) :
    Making b (fun entries => ∀ e ∈ entries, e.2.Spares b) s (Json.toEntries entries s) := by
  unfold Json.toEntries
  cases entries with
  | nil => exact ⟨spares.keeps, nofun⟩
  | cons e rest =>
      obtain ⟨key, j⟩ := e
      obtain ⟨kept, first⟩ := Spares.toValue j spares
      obtain ⟨later, more⟩ := Spares.toEntries rest kept.spares
      exact ⟨kept.trans later, List.forall_mem_cons.mpr ⟨first, more⟩⟩

end

end Store

end SandboxedGo
