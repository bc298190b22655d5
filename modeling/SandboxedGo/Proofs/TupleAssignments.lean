import Mathlib.Data.List.Forall2
import SandboxedGo.Proofs.Accounts
import SandboxedGo.Proofs.LateWrapping

/-!
# Assignments to several targets

An assignment evaluates its right side first, and then goes through its targets: it evaluates the
operands of a target and stores a value there before it looks at the next one.  Taken together, the
operands of all targets would be evaluated before anything is stored.  Both come to the same if no
target in front disturbs one behind it, that is if the operands of every target still give what they
gave before, and every value still has the contents that it had before.
Main statement: `execute_assign_together`.
-/

set_option autoImplicit false

namespace SandboxedGo

open Source

/-! ## Contents from before -/

namespace Store

/-- A copy of a value whose structs and arrays are nested at most `depth` deep, with the contents
that they have in the store `old`. -/
def copyOf (old : Store) : Nat → Value → Store → Value × Store
  | 0, v, s => (v, s)
  | depth + 1, v, s =>
    match v with
    | .struct o =>
      let object := old.structObject o
      let (fields, s) := copyAll (copyOf old depth) object.fields.toList s
      let (copy, s) := s.newStruct object.type fields
      (.struct copy, s)
    | .slice view =>
      if view.isArray then
        let (items, s) := copyAll (copyOf old depth) (old.elements view) s
        let (copy, s) := s.newSlice items
        (.slice { copy with isArray := true, isNil := view.isNil }, s)
      else (v, s)
    | _ => (v, s)

/-- A value as it is when it has been assigned, with the contents that it has in the store `old`. -/
def copiedFrom (old : Store) (v : Value) (s : Store) : Value × Store :=
  if hasContents v then copyOf old (old.objectCount + 1) v s else (v, s)

end Store

/-- Where a target keeps a value, with its operands evaluated. -/
inductive Place
  | named (name : String)
  | element (container key : Value)
  | field (base : Value) (name : String)
  | pointee (pointer : Value)

namespace Eval

/-! ## Two phases -/

/-- Evaluate the operands of a target. -/
def placeOf (target : Expr) (scope : ScopeId) : Eval Place := do
  match target with
  | .name name => return .named name
  | .index base key =>
    let container ← eval base scope
    return .element container (← eval key scope)
  | .select base field => return .field (← eval base scope) field
  | .unary .deref operand => return .pointee (← eval operand scope)
  | _ => error .notAssignable

def storeAt (scope : ScopeId) (place : Place) (v : Value) : Eval Unit :=
  match place with
  | .named name => assignVariable name v scope
  | .element container key => assignElement container key v
  | .field base name => assignField base name v
  | .pointee pointer => assignThrough pointer v

/-- Store values in places, from left to right, with the contents that they have in the store
`old`. -/
def storeEach (scope : ScopeId) (old : Store) : List Place → List Value → Eval Unit
  | place :: places, v :: values => do
    storeAt scope place (← onStore (Store.copiedFrom old v))
    storeEach scope old places values
  | _, _ => pure ()

/-- An assignment whose operands and right side are all evaluated before anything is stored. -/
def assignTogether (targets es : List Expr) (scope : ScopeId) : Eval Unit := do
  let places ← targets.mapM (placeOf · scope)
  let values ← rightSide es targets.length scope
  storeEach scope (← viewStore id) places values

/-- What a statement does before anything else: it counts as a step. -/
def beginStatement (line : Nat) : Eval Unit := do
  setLine line
  undertake .statement (pure ())

/-- The statement of such an assignment. -/
def executeTogether (line : Nat) (targets es : List Expr) (scope : ScopeId) : Eval Unit := do
  beginStatement line
  assignTogether targets es scope

/-- An assignment to one target evaluates its operands and then stores the value. -/
theorem assign_eq (target : Expr) (v : Value) (scope : ScopeId) :
    assign target v scope = (do storeAt scope (← placeOf target scope) v) := by
  cases target with
  | name name => rfl
  | index base key =>
      simp only [assign, placeOf, bind_assoc, pure_bind]
      rfl
  | select base field =>
      simp only [assign, placeOf, bind_assoc, pure_bind]
      rfl
  | unary op operand =>
      cases op with
      | deref =>
          simp only [assign, placeOf, bind_assoc, pure_bind]
          rfl
      | _ => rfl
  | _ => rfl

/-! ## Targets that are not disturbed -/

variable {depth : Nat} {scope : ScopeId} {m m' : Machine}

/-- Evaluating the operands of a target gives a place and changes nothing. -/
def StandsFor (depth : Nat) (scope : ScopeId) (m : Machine) (target : Expr)
    (place : Place) : Prop :=
  EndsAlike ((placeOf target scope).run (Evaluator.ofDepth depth) m) (.ok place m)

/-- In the course of an assignment, when the turn of a target comes: its value still has the
contents that it has in the store `old`, and its operands, evaluated when the value has been copied,
still give its place. -/
def Undisturbed (depth : Nat) (scope : ScopeId) (old : Store) :
    List Expr → List Place → List Value → Machine → Prop
  | target :: targets, place :: places, v :: values, m =>
    Store.copied v m.store = Store.copiedFrom old v m.store ∧
      StandsFor depth scope { m with store := (Store.copied v m.store).2 } target place ∧
      ∀ next, (do assign target (← copied v) scope).run (Evaluator.ofDepth depth) m = .ok () next →
        Undisturbed depth scope old targets places values next
  | _, _, _, _ => True

theorem StandsFor.congr {target : Expr} {place : Place}
    (stands : StandsFor depth scope m target place) (agree : m.unaccounted = m'.unaccounted) :
    EndsAlike ((placeOf target scope).run (Evaluator.ofDepth depth) m') (.ok place m) :=
  ((placeOf target scope).run_alike depth agree.symm).trans stands

theorem places_run {targets : List Expr} {places : List Place}
    (stand : List.Forall₂ (StandsFor depth scope m) targets places)
    (agree : m.unaccounted = m'.unaccounted) :
    EndsAlike ((targets.mapM (placeOf · scope)).run (Evaluator.ofDepth depth) m')
      (.ok places m) := by
  induction stand generalizing m' with
  | nil => exact .ok [] agree.symm
  | @cons target place targets places stands _ ih =>
      rw [List.mapM_cons, bind_run]
      have first := stands.congr agree
      generalize (placeOf target scope).run (Evaluator.ofDepth depth) m' = r at first
      cases first with
      | ok _ same => exact (ih same.symm).map (place :: ·)

/-- One target in its turn stores what the second phase stores in its place. -/
theorem assign_alike {old : Store} {target : Expr} {place : Place} {v : Value}
    (contents : Store.copied v m.store = Store.copiedFrom old v m.store)
    (stands : StandsFor depth scope { m with store := (Store.copied v m.store).2 } target place)
    (agree : m.unaccounted = m'.unaccounted) :
    EndsAlike ((do assign target (← copied v) scope).run (Evaluator.ofDepth depth) m)
      ((do storeAt scope place (← onStore (Store.copiedFrom old v))).run (Evaluator.ofDepth depth)
        m') := by
  have store : m'.store = m.store := (congrArg (fun m => m.store) agree).symm
  rw [bind_run_ok (copied_run v _ m), bind_run_ok (onStore_run _ _ m'), store, ← contents,
    assign_eq]
  have after : Machine.unaccounted { m with store := (Store.copied v m.store).2 } =
      Machine.unaccounted { m' with store := (Store.copied v m.store).2 } :=
    congrArg (fun n : Machine => { n with store := (Store.copied v m.store).2 }) agree
  rw [bind_run]
  unfold StandsFor at stands
  generalize (placeOf target scope).run (Evaluator.ofDepth depth) _ = r at stands
  cases stands with
  | ok _ same => exact (storeAt scope place _).run_alike depth (same.trans after)

theorem storeEach_alike {old : Store} {targets : List Expr} {places : List Place}
    {values : List Value} (length : targets.length = places.length)
    (undisturbed : Undisturbed depth scope old targets places values m)
    (agree : m.unaccounted = m'.unaccounted) :
    EndsAlike ((assignEach scope targets values).run (Evaluator.ofDepth depth) m)
      ((storeEach scope old places values).run (Evaluator.ofDepth depth) m') := by
  induction targets generalizing places values m m' with
  | nil =>
      obtain rfl := List.eq_nil_of_length_eq_zero length.symm
      exact .ok () agree
  | cons target targets ih =>
      obtain ⟨place, places, rfl⟩ := List.exists_cons_of_length_eq_add_one length.symm
      cases values with
      | nil => exact .ok () agree
      | cons v values =>
          obtain ⟨contents, stands, goesOn⟩ := undisturbed
          rw [assignEach, storeEach, ← bind_assoc, ← bind_assoc]
          refine (assign_alike contents stands agree).bind fun _ n n' ran agree => ?_
          exact ih (Nat.succ.inj length) (goesOn n ran) agree

/-- An assignment in whose course no target is disturbed ends as if all of its operands had been
evaluated before anything was stored. -/
theorem assign_together {targets es : List Expr} {places : List Place}
    (stand : List.Forall₂ (StandsFor depth scope m) targets places)
    (undisturbed : ∀ values old,
      (rightSide es targets.length scope).run (Evaluator.ofDepth depth) m = .ok values old →
        Undisturbed depth scope old.store targets places values old) :
    EndsAlike
      ((do assignEach scope targets (← rightSide es targets.length scope)).run
        (Evaluator.ofDepth depth) m)
      ((assignTogether targets es scope).run (Evaluator.ofDepth depth) m) := by
  unfold assignTogether
  rw [bind_run (targets.mapM _)]
  have operands := places_run stand rfl
  generalize (targets.mapM (placeOf · scope)).run (Evaluator.ofDepth depth) m = r at operands
  cases operands with
  | @ok _ m' _ agree =>
      have right := (rightSide es targets.length scope).run_alike depth agree.symm
      refine right.bind fun values old old' ran agree => ?_
      have store : old'.store = old.store := (congrArg (fun m => m.store) agree).symm
      rw [bind_run_ok rfl]
      show EndsAlike _ ((storeEach scope old'.store places values).run _ old')
      rw [store]
      exact storeEach_alike stand.length_eq (undisturbed values old ran) agree

/-- The statement of an assignment in whose course no target is disturbed does what it would do if
all operands were evaluated before anything is stored: it ends in the same way, with the same store
and the same output. -/
theorem execute_assign_together {line : Nat} {targets es : List Expr} (places : List Place)
    (undisturbed : ∀ start,
      (beginStatement line).run (Evaluator.ofDepth depth) m = .ok () start →
        List.Forall₂ (StandsFor depth scope start) targets places ∧
          ∀ values old, (rightSide es targets.length scope).run (Evaluator.ofDepth depth) start =
              .ok values old →
            Undisturbed depth scope old.store targets places values old) :
    EndsAlike ((execute (.mk line (.assign targets es)) scope).run (Evaluator.ofDepth depth) m)
      ((executeTogether line targets es scope).run (Evaluator.ofDepth depth) m) := by
  show EndsAlike ((do
    setLine line
    undertake .statement (pure ())
    assignEach scope targets (← rightSide es targets.length scope) : Eval Unit).run _ m) _
  have grouped : (do
      setLine line
      undertake .statement (pure ())
      assignEach scope targets (← rightSide es targets.length scope) : Eval Unit) =
        (do beginStatement line; assignEach scope targets (← rightSide es targets.length scope)) :=
    (bind_assoc _ _ _).symm
  rw [grouped]
  refine EndsAlike.bind (.refl _) fun _ start start' begun agree => ?_
  obtain ⟨stand, steady⟩ := undisturbed start begun
  exact (assign_together stand steady).trans
    ((assignTogether targets es scope).run_alike depth agree)

end Eval

/-! ## Operands that only variables decide about -/

namespace Source

/-- The names in a tree of operators. -/
def Expr.names : Expr → List String
  | .name x => [x]
  | .unary _ operand => operand.names
  | .binary _ left right => left.names ++ right.names
  | _ => []

/-- The names in the operands of a target. -/
def Expr.operandNames : Expr → List String
  | .index base key => base.names ++ key.names
  | .select base _ => base.names
  | .unary _ operand => operand.names
  | _ => []

end Source

section Operands

variable {s s' : Store} {scope : ScopeId} {e : Expr} {v : Value}

/-- A name stands for the same variable with the same value in two stores. -/
structure SameReading (scope : ScopeId) (s s' : Store) (name : String) : Prop where
  declared : s'.resolve? scope name = s.resolve? scope name
  value : ∀ found, s.resolve? scope name = some found → s'.cell found.cell = s.cell found.cell

theorem SameReading.integers {name : String} (same : SameReading scope s s' name) :
    s'.integers scope name = s.integers scope name := by
  unfold Store.integers
  rw [same.declared]
  cases declared : s.resolve? scope name with
  | none => rfl
  | some found =>
      dsimp only
      rw [same.value found declared]

/-- A tree reads nothing but the variables that it names. -/
theorem Source.RingTree.congr {values values' : String → Option Int64} (tree : RingTree values e)
    (same : ∀ x ∈ e.names, values' x = values x) :
    RingTree values' e ∧ e.integer? values' id = e.integer? values id := by
  have leaf : ∀ {e : Expr}, (∀ x ∈ e.names, values' x = values x) →
      e.leaf? values' = e.leaf? values := by
    intro e same
    cases e with
    | name x => exact same x List.mem_cons_self
    | _ => rfl
  induction tree with
  | leaf is =>
      have is' := (leaf same).trans is
      exact ⟨.leaf is', (Expr.integer?_leaf is').trans (Expr.integer?_leaf is).symm⟩
  | negative _ ih =>
      obtain ⟨tree, value⟩ := ih same
      exact ⟨.negative tree, by rw [Expr.integer?, Expr.integer?, value]⟩
  | complement _ ih =>
      obtain ⟨tree, value⟩ := ih same
      exact ⟨.complement tree, by rw [Expr.integer?, Expr.integer?, value]⟩
  | operator ring _ _ left right =>
      obtain ⟨tree, value⟩ := left fun x isIn => same x (List.mem_append_left _ isIn)
      obtain ⟨tree', value'⟩ := right fun x isIn => same x (List.mem_append_right _ isIn)
      exact ⟨.operator ring tree tree', by rw [Expr.integer?, Expr.integer?, value, value']⟩
  | @shift a count n _ constant notNegative ih =>
      obtain ⟨tree, value⟩ := ih fun x isIn => same x (List.mem_append_left _ isIn)
      have constant' := (leaf fun x isIn => same x (List.mem_append_right _ isIn)).trans constant
      refine ⟨.shift tree constant' notNegative, ?_⟩
      rw [Expr.integer?, Expr.integer?, value, Expr.integer?_leaf constant,
        Expr.integer?_leaf constant']

/-- An operand that stands for a value because of what variables hold: a name, or a tree of integer
operators. -/
inductive Steady (s : Store) (scope : ScopeId) : Expr → Value → Prop
  | name {x : String} {found : Variable} (declared : s.resolve? scope x = some found) :
      Steady s scope (.name x) (s.cell found.cell)
  | tree {e : Expr} {n : Int64} (tree : RingTree (s.integers scope) e)
      (is : e.integer? (s.integers scope) id = some n) : Steady s scope e (.int n)

theorem Steady.congr (steady : Steady s scope e v)
    (same : ∀ x ∈ e.names, SameReading scope s s' x) : Steady s' scope e v := by
  cases steady with
  | @name x found declared =>
      have reading := same x List.mem_cons_self
      rw [← reading.value found declared]
      exact .name (reading.declared.trans declared)
  | tree tree is =>
      obtain ⟨tree', value⟩ := tree.congr fun x isIn => (same x isIn).integers
      exact .tree tree' (value.trans is)

theorem Steady.run {m : Machine} (steady : Steady m.store scope e v) {depth : Nat}
    (enough : e.levels 1 1 ≤ depth) :
    EndsAlike ((Eval.eval e scope).run (Evaluator.ofDepth depth) m) (.ok v m) := by
  cases steady with
  | name declared =>
      obtain ⟨depth, rfl⟩ := Nat.exists_eq_add_of_le' (show 1 ≤ depth from enough)
      rw [eval_name_run declared]
      exact .ok _ rfl
  | tree tree is =>
      obtain ⟨n, works, ran, value⟩ := Eval.eval_ring_run tree depth m rfl enough
      obtain rfl := Option.some.inj (value.symm.trans is)
      rw [ran]
      exact .ok _ rfl

/-- A target whose operands are steady, and its place. -/
inductive Settled (s : Store) (scope : ScopeId) : Expr → Place → Prop
  | named (x : String) : Settled s scope (.name x) (.named x)
  | element {base key : Expr} {container k : Value} (first : Steady s scope base container)
      (second : Steady s scope key k) : Settled s scope (.index base key) (.element container k)
  | field {base : Expr} {object : Value} (first : Steady s scope base object) (name : String) :
      Settled s scope (.select base name) (.field object name)
  | pointee {operand : Expr} {pointer : Value} (first : Steady s scope operand pointer) :
      Settled s scope (.unary .deref operand) (.pointee pointer)

theorem Settled.congr {target : Expr} {place : Place} (settled : Settled s scope target place)
    (same : ∀ x ∈ target.operandNames, SameReading scope s s' x) :
    Settled s' scope target place := by
  cases settled with
  | named x => exact .named x
  | element first second =>
      exact .element (first.congr fun x isIn => same x (List.mem_append_left _ isIn))
        (second.congr fun x isIn => same x (List.mem_append_right _ isIn))
  | field first name => exact .field (first.congr same) name
  | pointee first => exact .pointee (first.congr same)

theorem Settled.stands {m : Machine} {depth : Nat} {target : Expr} {place : Place}
    (settled : Settled m.store scope target place) (enough : target.levels 1 1 ≤ depth) :
    Eval.StandsFor depth scope m target place := by
  cases settled with
  | named x => exact .refl _
  | @element base key container k first second =>
      rw [Expr.levels] at enough
      have enoughBase : base.levels 1 1 ≤ depth := by omega
      have enoughKey : key.levels 1 1 ≤ depth := by omega
      unfold Eval.StandsFor Eval.placeOf
      rw [Eval.bind_run]
      have container := first.run enoughBase
      generalize (Eval.eval base scope).run (Evaluator.ofDepth depth) m = r at container
      cases container with
      | ok _ agree =>
          have key := ((Eval.eval key scope).run_alike depth agree).trans (second.run enoughKey)
          exact key.map (Place.element _)
  | @field base object first name =>
      rw [Expr.levels] at enough
      have enoughBase : base.levels 1 1 ≤ depth := by omega
      exact (first.run enoughBase).map (Place.field · name)
  | @pointee operand pointer first =>
      rw [Expr.levels] at enough
      have enoughOperand : operand.levels 1 1 ≤ depth := by omega
      exact (first.run enoughOperand).map Place.pointee

theorem stand_of_settled {m : Machine} {depth : Nat} {targets : List Expr} {places : List Place}
    (settled : List.Forall₂ (Settled m.store scope) targets places)
    (enough : ∀ target ∈ targets, target.levels 1 1 ≤ depth) :
    List.Forall₂ (Eval.StandsFor depth scope m) targets places := by
  induction settled with
  | nil => exact .nil
  | @cons target place targets places here _ ih =>
      exact .cons (here.stands (enough target List.mem_cons_self))
        (ih fun t later => enough t (List.mem_cons_of_mem target later))

/-- The variable that a place is, or the one that it points to. -/
def Place.cell? (s : Store) (scope : ScopeId) : Place → Option CellId
  | .named x => (s.resolve? scope x).map (·.cell)
  | .pointee (.ref c) => some c
  | _ => none

/-- Stores with the same variables, all but one of which hold the same. -/
structure ChangesOnly (written : Option CellId) (s s' : Store) : Prop where
  scopes : s'.scopes = s.scopes
  cell : ∀ c, written ≠ some c → s'.cell c = s.cell c

theorem SameVariables.changes (same : SameVariables s s') (written : Option CellId) :
    ChangesOnly written s s' := ⟨same.scopes, fun c _ => same.cell c⟩

theorem changes_setCell (s : Store) (c : CellId) (w : Value) :
    ChangesOnly (some c) s (s.setCell c w) :=
  ⟨rfl, fun _ other => Store.cell_setCell_of_ne (fun same => other (congrArg some same.symm)) w⟩

/-- Storing a value changes no variable but that of the place. -/
theorem storeAt_changes {m m' : Machine} {ev : Evaluator} {place : Place}
    (ran : (Eval.storeAt scope place v).run ev m = .ok () m') :
    ChangesOnly (place.cell? m.store scope) m.store m'.store := by
  cases place with
  | named name =>
      by_cases blank : name = "_"
      · subst blank
        cases ran
        exact (SameVariables.refl _).changes _
      · cases declared : m.store.resolve? scope name with
        | none =>
            have undefined : (Eval.assignVariable name v scope).run ev m =
                (Eval.error (.undefined name)).run ev m := by
              unfold Eval.assignVariable
              rw [if_neg blank, Eval.bind_run_ok (Eval.resolve_run scope name m), declared]
            exact absurd (undefined.symm.trans ran) nofun
        | some found =>
            have stored := (Eval.assignVariable_run blank declared v).symm.trans ran
            cases stored
            rw [Place.cell?, declared]
            exact changes_setCell _ _ _
  | element container key =>
      exact ((Eval.keeps_assignElement container key v).of_ok ran).changes _
  | field base name => exact ((Eval.keeps_assignField base name v).of_ok ran).changes _
  | pointee pointer =>
      cases pointer with
      | ref c =>
          cases ran
          exact changes_setCell _ _ _
      | pointer o => exact ((Eval.keeps_assignThrough o v).of_ok ran).changes _
      | nil => cases ran
      | _ => exact ((Eval.reads_refusal _ RuntimeError.notIndirect).keeps.of_ok ran).changes _

theorem ChangesOnly.reading {written : Option CellId} (changes : ChangesOnly written s s')
    {x : String} (other : ∀ found, s.resolve? scope x = some found → written ≠ some found.cell) :
    SameReading scope s s' x where
  declared := Store.resolve?_congr changes.scopes scope x
  value found is := changes.cell found.cell (other found is)

/-- No target stores into a variable that the operands of a target behind it name. -/
def OperandsSpared (s : Store) (scope : ScopeId) : List Expr → List Place → Prop
  | _ :: targets, place :: places =>
    (∀ target ∈ targets, ∀ x ∈ target.operandNames, ∀ found, s.resolve? scope x = some found →
        place.cell? s scope ≠ some found.cell) ∧
      OperandsSpared s scope targets places
  | _, _ => True

theorem Place.cell?_congr (same : s'.scopes = s.scopes) (place : Place) :
    place.cell? s' scope = place.cell? s scope := by
  cases place with
  | named x => rw [Place.cell?, Place.cell?, Store.resolve?_congr same]
  | pointee pointer => cases pointer <;> rfl
  | _ => rfl

theorem OperandsSpared.congr (same : s'.scopes = s.scopes) {targets : List Expr}
    {places : List Place} (spared : OperandsSpared s scope targets places) :
    OperandsSpared s' scope targets places := by
  induction targets generalizing places with
  | nil => trivial
  | cons target targets ih =>
      cases places with
      | nil => trivial
      | cons place places =>
          refine ⟨fun t isIn x named found is => ?_, ih spared.2⟩
          rw [Place.cell?_congr same]
          exact spared.1 t isIn x named found ((Store.resolve?_congr same scope x).symm.trans is)

theorem ChangesOnly.settled {written : Option CellId} (changes : ChangesOnly written s s')
    {targets : List Expr} {places : List Place}
    (settled : List.Forall₂ (Settled s scope) targets places)
    (spared : ∀ target ∈ targets, ∀ x ∈ target.operandNames, ∀ found,
      s.resolve? scope x = some found → written ≠ some found.cell) :
    List.Forall₂ (Settled s' scope) targets places := by
  induction settled with
  | nil => exact .nil
  | @cons target place targets places here _ ih =>
      refine .cons (here.congr fun x named => ?_) (ih fun t later => ?_)
      · exact changes.reading (spared target List.mem_cons_self x named)
      · exact spared t (List.mem_cons_of_mem target later)

/-- Targets with steady operands are not disturbed as long as no target in front of them stores into
a variable that the operands name: elements and fields may be targets in any order. -/
theorem undisturbed_of_settled {m : Machine} {depth : Nat} {old : Store} {targets : List Expr}
    {places : List Place} {values : List Value}
    (settled : List.Forall₂ (Settled m.store scope) targets places)
    (spared : OperandsSpared m.store scope targets places)
    (enough : ∀ target ∈ targets, target.levels 1 1 ≤ depth)
    (plain : ∀ v ∈ values, Store.hasContents v = false) :
    Eval.Undisturbed depth scope old targets places values m := by
  induction targets generalizing places values m with
  | nil => trivial
  | cons target targets ih =>
      cases settled with
      | @cons _ place _ places here behind =>
          cases values with
          | nil => trivial
          | cons v values =>
              have whole := plain v List.mem_cons_self
              have uncopied : Store.copied v m.store = (v, m.store) := by
                simp [Store.copied, whole]
              have stands := here.stands (enough target List.mem_cons_self)
              refine ⟨by simp [Store.copied, Store.copiedFrom, whole], by rwa [uncopied], ?_⟩
              intro next ran
              rw [Eval.bind_run_ok (Eval.copied_run v _ m), uncopied, Eval.assign_eq] at ran
              obtain ⟨found, between, operands, stored⟩ := Eval.bind_ok ran
              unfold Eval.StandsFor at stands
              rw [operands] at stands
              cases stands with
              | ok _ agree =>
                  have store : between.store = m.store := congrArg (fun m => m.store) agree
                  have changes := storeAt_changes stored
                  rw [store] at changes
                  exact ih (changes.settled behind spared.1) (spared.2.congr changes.scopes)
                    (fun t later => enough t (List.mem_cons_of_mem target later))
                    (fun w later => plain w (List.mem_cons_of_mem v later))

theorem tick_store (m : Machine) : (machineAfter (Action.tick m)).store = m.store := by
  have stops : (machineAfter (Action.checkStop m.stepped)).store = m.store := by
    unfold Action.checkStop
    split <;> rfl
  unfold Action.tick Action.checkBudget
  split
  · split
    · rfl
    · exact stops
  · exact stops

theorem beginStatement_store {m start : Machine} {line : Nat} {ev : Evaluator}
    (begun : (Eval.beginStatement line).run ev m = .ok () start) : start.store = m.store := by
  obtain ⟨_, between, setting, counting⟩ := Eval.bind_ok begun
  cases setting
  change (EStateM.bind Action.tick _) _ = _ at counting
  have ticked := tick_store { m with line := line }
  unfold EStateM.bind at counting
  split at counting
  · rename_i n ran
    rw [ran] at ticked
    cases counting
    exact ticked
  · cases counting

/-- An assignment whose right side leaves the variables as they are and gives values without
contents does the same as if all operands were evaluated first, whatever elements, fields and
variables its targets are, if no target stores into a variable that operands behind it name. -/
theorem execute_settled_together {m : Machine} {depth line : Nat} {targets es : List Expr}
    {places : List Place} (settled : List.Forall₂ (Settled m.store scope) targets places)
    (spared : OperandsSpared m.store scope targets places)
    (enough : ∀ target ∈ targets, target.levels 1 1 ≤ depth)
    (right : ∀ start values old, start.store = m.store →
      (Eval.rightSide es targets.length scope).run (Evaluator.ofDepth depth) start =
        .ok values old →
        SameVariables m.store old.store ∧ ∀ v ∈ values, Store.hasContents v = false) :
    EndsAlike ((Eval.execute (.mk line (.assign targets es)) scope).run (Evaluator.ofDepth depth) m)
      ((Eval.executeTogether line targets es scope).run (Evaluator.ofDepth depth) m) := by
  refine Eval.execute_assign_together places fun start begun => ?_
  have same := beginStatement_store begun
  refine ⟨stand_of_settled (same ▸ settled) enough, fun values old ran => ?_⟩
  obtain ⟨kept, plain⟩ := right start values old same ran
  refine undisturbed_of_settled ?_ (spared.congr kept.scopes) enough plain
  exact (kept.changes none).settled settled fun _ _ _ _ _ _ => nofun

end Operands

/-! ## Two elements of a slice -/

/-- A machine with a slice of two numbers and two indices. -/
def sliceMachine : Machine :=
  { Machine.initial {} with
    store :=
      { cells := #[.slice { backing := ⟨0⟩, start := 0, length := 2, capacity := 2 }, .int 0, .int 1]
        scopes := #[{ declared := [("a", ⟨⟨0⟩, none⟩), ("i", ⟨⟨1⟩, none⟩), ("j", ⟨⟨2⟩, none⟩)] }]
        backings := #[#[.int 5, .int 7]] } }

def sliceTargets : List Expr := [.index (.name "a") (.name "i"), .index (.name "a") (.name "j")]

def slicePlaces : List Place :=
  [.element (sliceMachine.store.cell ⟨0⟩) (sliceMachine.store.cell ⟨1⟩),
    .element (sliceMachine.store.cell ⟨0⟩) (sliceMachine.store.cell ⟨2⟩)]

theorem sliceMachine_declares (name : String) {found : Variable}
    (declared : sliceMachine.store.localVariable? globalScope name = some found) :
    sliceMachine.store.resolve? globalScope name = some found := by
  have entry : [("a", (⟨⟨0⟩, none⟩ : Variable)), ("i", ⟨⟨1⟩, none⟩), ("j", ⟨⟨2⟩, none⟩)].lookup name =
      some found := declared
  have scope : sliceMachine.store.scopes[globalScope.index]? = some { declared :=
      [("a", (⟨⟨0⟩, none⟩ : Variable)), ("i", ⟨⟨1⟩, none⟩), ("j", ⟨⟨2⟩, none⟩)] } := rfl
  rw [Store.resolve?, scope]
  simp only [entry]

theorem sliceMachine_settled :
    List.Forall₂ (Settled sliceMachine.store globalScope) sliceTargets slicePlaces := by
  have slice := Steady.name (sliceMachine_declares "a" rfl)
  have first := Steady.name (sliceMachine_declares "i" rfl)
  have second := Steady.name (sliceMachine_declares "j" rfl)
  exact .cons (.element slice first) (.cons (.element slice second) .nil)

/-- The statement `a[i], a[j] = 7, 5`. -/
theorem execute_assign_together_elements :
    EndsAlike
      ((Eval.execute (.mk 1 (.assign sliceTargets [.int 7, .int 5])) globalScope).run
        (Evaluator.ofDepth 2) sliceMachine)
      ((Eval.executeTogether 1 sliceTargets [.int 7, .int 5] globalScope).run
        (Evaluator.ofDepth 2) sliceMachine) := by
  refine Eval.execute_assign_together slicePlaces fun start begun => ?_
  have same : start.store = sliceMachine.store := by
    cases begun
    rfl
  have settled : List.Forall₂ (Settled start.store globalScope) sliceTargets slicePlaces :=
    same ▸ sliceMachine_settled
  refine ⟨stand_of_settled settled (by decide), fun values old ran => ?_⟩
  cases ran
  refine undisturbed_of_settled settled ?_ (by decide) (by decide)
  exact ⟨fun _ _ _ _ _ _ => nofun, fun _ _ => nofun, trivial⟩

end SandboxedGo
