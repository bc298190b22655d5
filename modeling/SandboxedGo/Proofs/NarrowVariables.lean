import SandboxedGo.Proofs.DeclaredVariables
import SandboxedGo.Proofs.NarrowIntegers
import SandboxedGo.Proofs.WovenStatements

/-!
# Narrow variables

A variable that is declared with a narrow integer type remembers its width, and an integer that is
assigned to its name is reduced to the range of the type.  Declarations with a type reduce as well;
declarations without one declare variables without a width.  Four changes store what they are given:
a short declaration, whether the name is new or not, a `return`, and a store through a pointer.
Main statement: `program_inRange_iff`.
-/

set_option autoImplicit false

namespace SandboxedGo

open Source Eval

/-! ## Ranges -/

/-- The integer that a value is. -/
def Value.integer? : Value → Option Int64
  | .int n => some n
  | _ => none

/-- A value that a variable of a width may hold: an integer of the type, or no integer. -/
def Value.Fits (v : Value) (width : Option IntWidth) : Prop :=
  ∀ w ∈ width, ∀ n ∈ v.integer?, w.Fits n

-- Of all ways to decide this, the one that looks at the members is meant: there are too many
-- numbers of 64 bits to try them all.
instance (v : Value) (width : Option IntWidth) : Decidable (v.Fits width) :=
  haveI (w : IntWidth) : Decidable (∀ n ∈ v.integer?, w.Fits n) :=
    Option.decidableForallMem v.integer?
  Option.decidableForallMem width

theorem Value.fits_none (v : Value) : v.Fits none := nofun

theorem Value.fits_wrap (w : IntWidth) (n : Int64) : (Value.int (w.wrap n)).Fits (some w) := by
  intro _ isWidth _ isInteger
  cases isWidth
  cases isInteger
  exact w.fits_wrap n

theorem fits_storedOver (width : Option IntWidth) (old v : Value) :
    (storedOver width old v).Fits width := by
  cases width with
  | none => exact Value.fits_none _
  | some w =>
      unfold storedOver
      cases old.keepingFloat v with
      | int n => exact Value.fits_wrap w n
      | _ => exact nofun

theorem TypeTable.basic?_of_width? {types : TypeTable} {ty : TypeExpr} {w : IntWidth}
    (narrow : types.width? ty = some w) : types.basic? ty = some .int := by
  unfold TypeTable.width? at narrow
  unfold TypeTable.basic?
  cases under : types.underlying ty with
  | named name =>
      simp only [under] at narrow
      unfold IntWidth.ofName? at narrow
      split at narrow <;> first | rfl | cases narrow
  | _ => simp [under] at narrow

theorem TypeTable.fits_adapt (types : TypeTable) (ty : TypeExpr) (v : Value) :
    (types.adapt ty v).Fits (types.width? ty) := by
  cases narrow : types.width? ty with
  | none => exact Value.fits_none _
  | some w =>
      have integers := basic?_of_width? narrow
      cases v with
      | int n =>
          simp only [adapt, integers, narrow]
          exact Value.fits_wrap w n
      | float f =>
          simp only [adapt, integers, narrow]
          cases wholeNumber? f with
          | none => exact nofun
          | some n => exact Value.fits_wrap w n
      | _ => exact nofun

namespace Store

variable {s : Store} {scope : ScopeId} {name : String} {v : Value}

/-- Every declared variable holds a value of its width. -/
def InRange (s : Store) : Prop :=
  ∀ scope name found, s.localVariable? scope name = some found →
    (s.cell found.cell).Fits found.width

theorem InRange.setCell (inRange : s.InRange) (c : CellId)
    (fits : ∀ scope name found, s.localVariable? scope name = some found → found.cell = c →
      v.Fits found.width) : (s.setCell c v).InRange := by
  intro scope name found is
  have before : s.localVariable? scope name = some found := is
  by_cases same : found.cell = c
  · by_cases inside : c.index < s.cells.size
    · rw [same, cell_setCell_self inside]
      exact fits scope name found before same
    · rw [Store.setCell, Array.setIfInBounds, dif_neg inside]
      exact inRange scope name found before
  · rw [cell_setCell_of_ne same]
    exact inRange scope name found before

theorem InRange.define {width : Option IntWidth} (own : s.OwnCells) (inRange : s.InRange)
    (fits : name ≠ "_" → scope.index < s.scopes.size → v.Fits width) :
    (s.define scope name v width).InRange := by
  intro scope' name' found is
  by_cases blank : name = "_"
  · rw [Store.define, if_pos blank] at is ⊢
    exact inRange scope' name' found is
  · have cells (c : CellId) : (s.define scope name v width).cell c = (s.newCell v).2.cell c := by
      simp only [cell, cells_define blank]
    rw [cells]
    rcases localVariable?_define_cases is with before | ⟨-, rooted, rfl, rfl, rfl⟩
    · rw [cell_newCell (own.inside before)]
      exact inRange scope' name' found before
    · rw [show (⟨s.cells.size⟩ : CellId) = (s.newCell v).1 from rfl, cell_newCell_self]
      exact fits blank rooted

end Store

/-! ## Changes -/

namespace VariableChange

variable {s : Store} {types : TypeTable}

/-- What a change stores as it is fits the variables that it is stored in. -/
def Fitting (s : Store) : VariableChange → Prop
  | .introduce scope name v width => name ≠ "_" → scope.index < s.scopes.size → v.Fits width
  | .redeclare scope name v => ∀ found, s.localVariable? scope name = some found →
      ((s.cell found.cell).keepingFloat v).Fits found.width
  | .result scope name v => ∀ found, s.localVariable? scope name = some found → v.Fits found.width
  | .pointee c v => ∀ scope name found, s.localVariable? scope name = some found →
      found.cell = c → ((s.cell c).keepingFloat v).Fits found.width
  | .newScope _ | .newCell _ | .define _ _ _ | .declare _ _ _ _ | .assign _ _ _ => True

theorem ownCells (own : s.OwnCells) (types : TypeTable) (change : VariableChange) :
    (change.onStore types s).OwnCells := by
  have stored (c : CellId) (v : Value) : (s.setCell c v).OwnCells :=
    own.grown (fun _ _ => rfl) (by simp [Store.setCell])
  cases change with
  | newScope parent => exact own.grown (s.localVariable?_newScope _) (Nat.le_refl _)
  | newCell v => exact own.grown (fun _ _ => rfl) (by simp [onStore, Store.newCell])
  | define scope name v => exact own.define _ _ _ _
  | declare scope name ty v => exact own.define _ _ _ _
  | introduce scope name v width => exact own.define _ _ _ _
  | assign scope name v =>
      unfold onStore
      dsimp only
      split
      · exact stored _ _
      · exact own
  | redeclare scope name v | result scope name v =>
      unfold onStore
      dsimp only
      split
      · exact stored _ _
      · exact own
  | pointee c v => exact stored c _

/-- A variable that a value is stored in is the only one that holds it. -/
theorem inRange_stored (own : s.OwnCells) (inRange : s.InRange) {outer : ScopeId} {name : String}
    {found : Variable} (declared : s.localVariable? outer name = some found) (v : Value) :
    (s.setCell found.cell v).InRange ↔ v.Fits found.width := by
  constructor
  · intro after
    have fits := after outer name found declared
    rwa [Store.cell_setCell_self (own.inside declared)] at fits
  · intro fits
    refine inRange.setCell found.cell fun scope name other is same => ?_
    rw [own.same is declared same]
    exact fits

theorem inRange_iff (own : s.OwnCells) (inRange : s.InRange) (types : TypeTable)
    (change : VariableChange) : (change.onStore types s).InRange ↔ change.Fitting s := by
  cases change with
  | newScope parent =>
      refine iff_of_true (fun scope name found is => ?_) trivial
      exact inRange scope name found ((s.localVariable?_newScope _ scope name).symm.trans is)
  | newCell v =>
      refine iff_of_true (fun scope name found is => ?_) trivial
      have before : s.localVariable? scope name = some found := is
      rw [onStore, Store.cell_newCell (own.inside before)]
      exact inRange scope name found before
  | define scope name v => exact iff_of_true (inRange.define own fun _ _ => v.fits_none) trivial
  | declare scope name ty v =>
      exact iff_of_true (inRange.define own fun _ _ => types.fits_adapt ty v) trivial
  | assign scope name v =>
      refine iff_of_true ?_ trivial
      unfold onStore
      dsimp only
      cases resolved : s.resolve? scope name with
      | none => exact inRange
      | some found =>
          obtain ⟨outer, declared⟩ := Store.exists_localVariable? resolved
          exact (inRange_stored own inRange declared _).mpr (fits_storedOver _ _ _)
  | introduce scope name v width =>
      refine ⟨fun after named rooted => ?_, fun fits => inRange.define own fits⟩
      have declared : (s.define scope name v width).localVariable? scope name =
          some ⟨⟨s.cells.size⟩, width⟩ := by
        rw [Store.localVariable?_define named rooted, if_pos rfl]
      have fits := after scope name _ declared
      have holds : (s.define scope name v width).cell ⟨s.cells.size⟩ = v := by
        simp only [Store.cell, Store.cells_define named]
        exact Store.cell_newCell_self s v
      rwa [onStore, holds] at fits
  | redeclare scope name v | result scope name v =>
      unfold onStore Fitting
      dsimp only
      cases declared : s.localVariable? scope name with
      | none => exact iff_of_true inRange fun _ is => by cases is
      | some found => exact (inRange_stored own inRange declared _).trans (by simp)
  | pointee c v =>
      refine ⟨fun after scope name found is same => ?_, fun fits => inRange.setCell c fits⟩
      subst same
      exact (inRange_stored own inRange is _).mp after

end VariableChange

/-! ## Runs -/

namespace Step

variable {step : Step}

def Fitting (step : Step) : Prop := ∀ change ∈ step.change, change.Fitting step.before.store

theorem ownCells (does : step.Does) (own : step.before.store.OwnCells) :
    step.after.store.OwnCells := by
  unfold Step.Does at does
  split at does
  · exact own.grown (fun scope name => by rw [Store.localVariable?, does.scopes]; rfl)
      (Nat.le_of_eq (congrArg Array.size does.cells.symm))
  · rw [does]
    exact VariableChange.ownCells own _ _

theorem inRange_iff (does : step.Does) (own : step.before.store.OwnCells)
    (inRange : step.before.store.InRange) : step.after.store.InRange ↔ step.Fitting := by
  unfold Step.Does at does
  split at does
  · rename_i other
    refine iff_of_true (fun scope name found is => ?_) (by simp [Fitting, other])
    rw [does.cell]
    rw [Store.localVariable?, does.scopes] at is
    exact inRange scope name found is
  · rename_i change made
    rw [does, Fitting, made]
    exact (VariableChange.inRange_iff own inRange _ change).trans (by simp)

end Step

/-- All variables stay in range as long as what is stored as it is fits. -/
theorem Leading.inRange_iff {g g' : Guest} {steps : List Step} (leading : Leading g steps g')
    (own : g.store.OwnCells) (inRange : g.store.InRange) :
    (∀ step ∈ steps, step.after.store.InRange) ↔ ∀ step ∈ steps, step.Fitting := by
  induction leading with
  | none => exact iff_of_true nofun nofun
  | step does rest ih =>
      rw [List.forall_mem_cons, List.forall_mem_cons, Step.inRange_iff does own inRange]
      refine and_congr_right fun fitting => ?_
      exact ih (Step.ownCells does own) ((Step.inRange_iff does own inRange).mpr fitting)

/-- What holds of the first world and behind every step holds of the last world. -/
theorem Leading.last {P : Guest → Prop} {g g' : Guest} {steps : List Step}
    (leading : Leading g steps g') (first : P g) (each : ∀ step ∈ steps, P step.after) : P g' := by
  induction leading with
  | none => exact first
  | step does rest ih =>
      obtain ⟨next, others⟩ := List.forall_mem_cons.mp each
      exact ih next others

theorem initial_declares_nothing (options : RunOptions) (scope : ScopeId) (name : String) :
    (Machine.initial options).store.localVariable? scope name = none := by
  show (({} : Store).newScope none).2.localVariable? scope name = none
  rw [Store.localVariable?_newScope]
  rfl

/-- Every run of a program goes through steps from the initial world to the last one, and in all
worlds on the way every variable holds an integer of its width exactly if every integer that is
stored without being reduced fits: one that a short declaration gives to a name, that a `return`
gives to a named result, or that is stored through a pointer. -/
theorem program_inRange_iff (options : RunOptions) (hostFunctions : List HostFunction) (p : Program)
    (depth : Nat) :
    (∃ steps, Action.Passes ((program hostFunctions p).run (.ofDepth depth))
      (Machine.initial options) steps) ∧
    ∀ steps, Action.Passes ((program hostFunctions p).run (.ofDepth depth))
        (Machine.initial options) steps →
      Leading (Machine.initial options).toGuest steps (machineAfter
        ((program hostFunctions p).run (.ofDepth depth) (Machine.initial options))).toGuest ∧
      (Machine.initial options).store.InRange ∧
      ((∀ step ∈ steps, step.after.store.InRange) ↔ ∀ step ∈ steps, step.Fitting) := by
  refine ⟨(program_woven hostFunctions p).exists_passes depth _, fun steps passes => ?_⟩
  have nothing := initial_declares_nothing options
  have inRange : (Machine.initial options).store.InRange := by
    intro scope name found is
    rw [nothing] at is
    cases is
  have own : (Machine.initial options).store.OwnCells := by
    refine ⟨fun {scope name found} is => ?_, fun {scope scope' name name' found found'} is => ?_⟩
    · rw [nothing] at is
      cases is
    · rw [nothing] at is
      cases is
  exact ⟨passes.leading, inRange, passes.leading.inRange_iff own inRange⟩

/-- A byte that a short declaration gives a larger number: `var b byte = 1`, and then
`b, c := 300, 1`. -/
def redeclaredByte : Program where
  package := "main"
  imports := []
  decls := [.func ⟨1, "main", none, .mk [] [] false [
    .mk 2 (.var (.mk 2 ["b"] (some (.named "byte")) [.int 1] 0)),
    .mk 3 (.define ["b", "c"] [.int 300, .int 1])]⟩]

/-- The machine that the run leaves. -/
def redeclaredByteAfter : Machine :=
  machineAfter ((program [] redeclaredByte).run (.ofDepth 4) (Machine.initial {}))

theorem program_inRange_iff_redeclaredByte :
    ∃ steps, Action.Passes ((program [] redeclaredByte).run (.ofDepth 4)) (Machine.initial {})
        steps ∧
      ¬ ∀ step ∈ steps, step.Fitting := by
  obtain ⟨⟨steps, passes⟩, every⟩ := program_inRange_iff {} [] redeclaredByte 4
  obtain ⟨leading, first, stays⟩ := every steps passes
  rw [← redeclaredByteAfter] at leading
  refine ⟨steps, passes, fun fitting => ?_⟩
  have last : redeclaredByteAfter.store.InRange :=
    leading.last (P := fun g => g.store.InRange) first (stays.mpr fitting)
  have large : ∃ found ∈ redeclaredByteAfter.store.localVariable? ⟨1⟩ "b",
      ¬ (redeclaredByteAfter.store.cell found.cell).Fits found.width := by
    decide +kernel
  obtain ⟨found, declared, outside⟩ := large
  exact outside (last ⟨1⟩ "b" found declared)

end SandboxedGo
