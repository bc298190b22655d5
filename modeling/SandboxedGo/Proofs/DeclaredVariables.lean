import SandboxedGo.Store

/-!
# Declared variables

What opening a scope, declaring a name and storing a value do to the variables that scopes declare
and to what their cells hold.  A declared variable has a cell of its own, which no other declared
variable has; that stays so, since a declaration always takes a new cell.
-/

set_option autoImplicit false

namespace SandboxedGo.Store

variable {s s' : Store} {scope scope' : ScopeId} {name name' : String} {v : Value}

/-! ## Cells -/

theorem cell_setCell_self {c : CellId} (inside : c.index < s.cells.size) (v : Value) :
    (s.setCell c v).cell c = v := by
  simp [cell, setCell, inside]

theorem cell_setCell_of_ne {c d : CellId} (apart : c ≠ d) (v : Value) :
    (s.setCell d v).cell c = s.cell c := by
  have places : d.index ≠ c.index := fun same => apart (by cases c; cases d; cases same; rfl)
  simp [cell, setCell, Array.getElem?_setIfInBounds_ne places]

theorem cell_newCell_of_ne {c : CellId} (apart : c ≠ ⟨s.cells.size⟩) (v : Value) :
    (s.newCell v).2.cell c = s.cell c := by
  have places : c.index ≠ s.cells.size := fun same => apart (by cases c; cases same; rfl)
  rw [cell, newCell, Array.getElem?_push, if_neg places, cell]

theorem cell_newCell {c : CellId} (inside : c.index < s.cells.size) (v : Value) :
    (s.newCell v).2.cell c = s.cell c :=
  cell_newCell_of_ne (fun last => Nat.ne_of_lt inside (congrArg CellId.index last)) v

theorem cell_newCell_self (s : Store) (v : Value) : (s.newCell v).2.cell (s.newCell v).1 = v := by
  simp [cell, newCell]

/-! ## Scopes -/

theorem localVariable?_newScope (s : Store) (parent : Option ScopeId) (scope : ScopeId)
    (name : String) :
    (s.newScope parent).2.localVariable? scope name = s.localVariable? scope name := by
  unfold localVariable? newScope
  by_cases last : scope.index = s.scopes.size
  · simp [last]
  · rw [Array.getElem?_push, if_neg last]

theorem resolve?_of_scopes {bound : Nat} (same : ∀ i < bound, s'.scopes[i]? = s.scopes[i]?)
    (older : scope.index < bound) (name : String) :
    s'.resolve? scope name = s.resolve? scope name := by
  fun_induction Store.resolve? s scope name with
  | case1 scope none => rw [Store.resolve?, same _ older, none]
  | case2 scope found is v declared =>
      rw [Store.resolve?, same _ older, is]
      simp only [declared]
  | case3 scope found is undeclared top =>
      rw [Store.resolve?, same _ older, is]
      simp only [undeclared, top]
  | case4 scope found is undeclared parent inside younger ih =>
      rw [Store.resolve?, same _ older, is]
      simp only [undeclared, inside, younger, if_true, ih (Nat.lt_trans younger older)]
  | case5 scope found is undeclared parent inside notYounger =>
      rw [Store.resolve?, same _ older, is]
      simp only [undeclared, inside, notYounger, if_false]

/-- A name stands for the variable of the scope itself, if there is one. -/
theorem resolve?_of_local {found : Variable} (is : s.localVariable? scope name = some found) :
    s.resolve? scope name = some found := by
  obtain ⟨there, stored, declared⟩ := Option.bind_eq_some_iff.mp is
  rw [resolve?, stored]
  simp only [declared]

/-- A name without a variable of the scope stands for what it stands for around it. -/
theorem resolve?_around {outer : ScopeId} (none : s.localVariable? scope name = none)
    (around : (s.scopes[scope.index]?).map (·.parent) = some (some outer))
    (older : outer.index < scope.index) : s.resolve? scope name = s.resolve? outer name := by
  obtain ⟨there, stored, parent⟩ := Option.map_eq_some_iff.mp around
  rw [localVariable?, stored] at none
  have undeclared : there.declared.lookup name = .none := none
  rw [resolve?, stored]
  simp only [undeclared, parent, older, if_true]

/-! ## Declarations -/

theorem define_named {width : Option IntWidth} (known : name ≠ "_") :
    s.define scope name v width =
      { s with
        cells := s.cells.push v
        scopes := s.scopes.modify scope.index fun found =>
          { found with declared := Table.putEntry name ⟨⟨s.cells.size⟩, width⟩ found.declared } } :=
  if_neg known

theorem cells_define {width : Option IntWidth} (known : name ≠ "_") :
    (s.define scope name v width).cells = (s.newCell v).2.cells := by
  rw [define_named known]
  rfl

/-- The name that is declared stands for the new variable, and other names for what they stood
for. -/
theorem localVariable?_define {other : String} {width : Option IntWidth} (known : other ≠ "_")
    (rooted : scope.index < s.scopes.size) :
    (s.define scope other v width).localVariable? scope name =
      if name = other then some ⟨⟨s.cells.size⟩, width⟩ else s.localVariable? scope name := by
  have stored : s.scopes[scope.index]? = some s.scopes[scope.index] :=
    Array.getElem?_eq_getElem rooted
  rw [define_named known]
  unfold Store.localVariable?
  rw [Array.getElem?_modify, if_pos rfl, stored]
  exact Table.lookup_putEntry other name _ _

theorem localVariable?_define_of_ne {other : String} {width : Option IntWidth}
    (apart : scope' ≠ scope) :
    (s.define scope other v width).localVariable? scope' name = s.localVariable? scope' name := by
  have places : scope.index ≠ scope'.index := by
    intro same
    apply apart
    cases scope
    cases scope'
    cases same
    rfl
  by_cases blank : other = "_"
  · rw [define, if_pos blank]
  · rw [define_named blank]
    unfold Store.localVariable?
    rw [Array.getElem?_modify, if_neg places]

theorem localVariable?_define_outside {other : String} {width : Option IntWidth}
    (outside : ¬ scope.index < s.scopes.size) :
    (s.define scope other v width).localVariable? scope' name = s.localVariable? scope' name := by
  by_cases same : scope' = scope
  · subst same
    have missing : s.scopes[scope'.index]? = none := Array.getElem?_eq_none (Nat.not_lt.mp outside)
    by_cases blank : other = "_"
    · rw [define, if_pos blank]
    · rw [define_named blank]
      unfold Store.localVariable?
      rw [Array.getElem?_modify, if_pos rfl, missing]
      rfl
  · exact localVariable?_define_of_ne same

/-- A variable that is declared behind a declaration is the new one or was declared before. -/
theorem localVariable?_define_cases {other : String} {width : Option IntWidth} {found : Variable}
    (is : (s.define scope other v width).localVariable? scope' name = some found) :
    s.localVariable? scope' name = some found ∨
      other ≠ "_" ∧ scope.index < s.scopes.size ∧ scope' = scope ∧ name = other ∧
        found = ⟨⟨s.cells.size⟩, width⟩ := by
  by_cases blank : other = "_"
  · rw [define, if_pos blank] at is
    exact .inl is
  · by_cases there : scope' = scope ∧ scope.index < s.scopes.size
    · obtain ⟨rfl, rooted⟩ := there
      rw [localVariable?_define blank rooted] at is
      by_cases same : name = other
      · rw [if_pos same] at is
        exact .inr ⟨blank, rooted, rfl, same, (Option.some.inj is).symm⟩
      · rw [if_neg same] at is
        exact .inl is
    · by_cases same : scope' = scope
      · have outside : ¬ scope.index < s.scopes.size := fun rooted => there ⟨same, rooted⟩
        exact .inl ((localVariable?_define_outside outside).symm.trans is)
      · exact .inl ((localVariable?_define_of_ne same).symm.trans is)

theorem exists_localVariable? {found : Variable} (is : s.resolve? scope name = some found) :
    ∃ outer, s.localVariable? outer name = some found := by
  fun_induction Store.resolve? s scope name with
  | case1 => cases is
  | case2 scope inside stored v declared =>
      refine ⟨scope, ?_⟩
      unfold localVariable?
      rw [stored]
      exact declared.trans is
  | case3 => cases is
  | case4 scope inside stored undeclared parent isParent older ih => exact ih is
  | case5 => cases is

/-! ## Cells of their own -/

/-- Every declared variable has a cell, and no other declared variable has it. -/
structure OwnCells (s : Store) : Prop where
  inside {scope : ScopeId} {name : String} {found : Variable} :
    s.localVariable? scope name = some found → found.cell.index < s.cells.size
  own {scope scope' : ScopeId} {name name' : String} {found found' : Variable} :
    s.localVariable? scope name = some found → s.localVariable? scope' name' = some found' →
      found.cell = found'.cell → scope = scope' ∧ name = name'

theorem OwnCells.same (own : s.OwnCells) {found found' : Variable}
    (is : s.localVariable? scope name = some found)
    (is' : s.localVariable? scope' name' = some found') (cell : found.cell = found'.cell) :
    found = found' := by
  obtain ⟨rfl, rfl⟩ := own.own is is' cell
  exact Option.some.inj (is.symm.trans is')

theorem OwnCells.grown (own : s.OwnCells)
    (locals : ∀ scope name, s'.localVariable? scope name = s.localVariable? scope name)
    (cells : s.cells.size ≤ s'.cells.size) : s'.OwnCells where
  inside is := Nat.lt_of_lt_of_le (own.inside ((locals _ _).symm.trans is)) cells
  own is is' := own.own ((locals _ _).symm.trans is) ((locals _ _).symm.trans is')

theorem OwnCells.define (own : s.OwnCells) (scope : ScopeId) (name : String) (v : Value)
    (width : Option IntWidth) : (s.define scope name v width).OwnCells := by
  by_cases blank : name = "_"
  · rw [Store.define, if_pos blank]
    exact own
  · have size : (s.define scope name v width).cells.size = s.cells.size + 1 := by
      simp [cells_define blank, newCell]
    refine ⟨fun is => ?_, fun is is' cell => ?_⟩
    · rw [size]
      rcases localVariable?_define_cases is with before | ⟨-, -, -, -, rfl⟩
      · exact Nat.lt_succ_of_lt (own.inside before)
      · exact Nat.lt_succ_self _
    · have new {scope : ScopeId} {name : String} {found : Variable}
          (is : s.localVariable? scope name = some found) : found.cell ≠ ⟨s.cells.size⟩ := by
        intro last
        have inside := own.inside is
        rw [last] at inside
        exact Nat.lt_irrefl _ inside
      rcases localVariable?_define_cases is with before | ⟨-, -, rfl, rfl, rfl⟩
      · rcases localVariable?_define_cases is' with before' | ⟨-, -, rfl, rfl, rfl⟩
        · exact own.own before before' cell
        · exact absurd cell (new before)
      · rcases localVariable?_define_cases is' with before' | ⟨-, -, rfl, rfl, rfl⟩
        · exact absurd cell.symm (new before')
        · exact ⟨rfl, rfl⟩

end SandboxedGo.Store
