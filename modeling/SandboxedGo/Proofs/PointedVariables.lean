import SandboxedGo.Proofs.Copies
import SandboxedGo.Proofs.DeclaredVariables
import SandboxedGo.Proofs.Following
import SandboxedGo.Run

/-!
# Variables that are pointed to

A pointer to a variable that does not hold a struct is the cell of the variable; a pointer to one
that holds a struct is the struct.  Assignments to fields and elements and assignments through the
pointer change what is inside the cell or the struct, so both stay in step.  Assigning the variable
as a whole puts another struct into its cell, and a pointer to the struct stays behind.
Main statement: `pointer_agrees_iff`.
-/

set_option autoImplicit false

namespace SandboxedGo

open Source

/-! ## Leaving the variables alone -/

/-- Stores with the same variables, the later one with more structs. -/
structure SameVariables (s s' : Store) : Prop where
  cells : s'.cells = s.cells
  scopes : s'.scopes = s.scopes
  structs : s.structs.size ≤ s'.structs.size

theorem SameVariables.refl (s : Store) : SameVariables s s := ⟨rfl, rfl, Nat.le_refl _⟩

theorem SameVariables.trans {a b c : Store} (first : SameVariables a b)
    (second : SameVariables b c) : SameVariables a c :=
  ⟨second.cells.trans first.cells, second.scopes.trans first.scopes,
    Nat.le_trans first.structs second.structs⟩

theorem SameVariables.cell {s s' : Store} (same : SameVariables s s') (c : CellId) :
    s'.cell c = s.cell c := by
  rw [Store.cell, same.cells]
  rfl

/-- What a name stands for depends on the scopes only. -/
theorem Store.resolve?_congr {s s' : Store} (same : s'.scopes = s.scopes) (scope : ScopeId)
    (name : String) : s'.resolve? scope name = s.resolve? scope name :=
  Store.resolve?_of_scopes (fun _ _ => by rw [same]) (Nat.lt_succ_self scope.index) name

namespace Store

theorem Extends.sameVariables {s s' : Store} (extends_ : Extends s s') : SameVariables s s' := by
  refine ⟨extends_.cells, extends_.scopes, Nat.le_of_not_lt fun fewer => ?_⟩
  have last := extends_.structs (Array.getElem?_eq_getElem fewer)
  exact Nat.lt_irrefl _ (Array.getElem?_eq_some_iff.mp last).1

theorem sameVariables_newStruct (type : StructDef) (fields : Array Value) (s : Store) :
    SameVariables s (s.newStruct type fields).2 :=
  ⟨rfl, rfl, by simp [newStruct]⟩

theorem copied_fresh {v : Value} {o : StructId} {s : Store} (copy : (s.copied v).1 = .struct o) :
    s.structs.size ≤ o.index := by
  unfold copied at copy
  split at copy
  · unfold copyWithin at copy
    split at copy
    · obtain rfl := Value.struct.inj copy
      exact (extends_copyAll (extends_copyWithin _) _ s).sameVariables.structs
    · split at copy <;> cases copy
    · rename_i contents noStruct noSlice
      cases copy
      exact absurd rfl (noStruct o)
  · rename_i noContents
    cases copy
    exact absurd rfl noContents

end Store

namespace Eval

variable {α β : Type} {ev : Evaluator}

/-- A computation that leaves the variables as they are. -/
def KeepsVariables (ev : Evaluator) (x : Eval α) : Prop :=
  ∀ m, SameVariables m.store (x.left ev m).store

theorem Reads.keeps {x : Eval α} (reads : Reads x) : KeepsVariables ev x := by
  intro m
  rw [reads.store]
  exact .refl _

theorem KeepsVariables.bind {x : Eval α} {f : α → Eval β} (first : KeepsVariables ev x)
    (rest : ∀ a, KeepsVariables ev (f a)) : KeepsVariables ev (x >>= f) := by
  intro m
  rcases left_bind x f ev m with ends | ⟨a, goesOn⟩
  · rw [ends]
    exact first m
  · rw [goesOn]
    exact (first m).trans (rest a _)

theorem KeepsVariables.of_ok {x : Eval α} {a : α} {m m' : Machine} (keeps : KeepsVariables ev x)
    (ran : x.run ev m = .ok a m') : SameVariables m.store m'.store := by
  have kept := keeps m
  rwa [left_of_ok ran] at kept

theorem keeps_changeStore {f : Store → Store} (same : ∀ s, SameVariables s (f s)) :
    KeepsVariables ev (changeStore f) := fun m => same m.store

theorem keeps_copied (v : Value) : KeepsVariables ev (copied v) := by
  unfold copied
  split
  · rename_i contents
    intro m
    show SameVariables m.store (m.store.copied v).2
    rw [Store.copied, if_pos contents]
    exact (Store.extends_copyWithin _ v m.store).sameVariables
  · exact (reads_pure v).keeps

theorem keeps_copiedAll : ∀ values : List Value, KeepsVariables ev (copiedAll values) := by
  intro values
  unfold copiedAll
  induction values with
  | nil => exact (reads_pure _).keeps
  | cons v rest ih =>
      rw [List.mapM_cons]
      exact .bind (keeps_copied v) fun _ => .bind ih fun _ => (reads_pure _).keeps

/-! ## Operands -/

theorem keeps_index (v key : Value) : KeepsVariables ev (index v key) := by
  refine .bind (reads_view _).keeps fun v => ?_
  split
  · exact .bind (reads_asIndex _ _).keeps fun _ => (reads_view _).keeps
  · exact .bind (reads_asIndex _ _).keeps fun _ => (reads_pure _).keeps
  · refine .bind (reads_asKey _).keeps fun key => .bind (reads_view _).keeps fun found => ?_
    split
    · exact (reads_pure _).keeps
    · exact keeps_copied _
  · exact .bind (reads_asInt _).keeps fun _ => (reads_panic _).keeps
  · exact .bind (reads_typeName _).keeps fun _ => (reads_error _).keeps

end Eval

/-- Expressions that only read: no calls, no literals with contents and no addresses. -/
def Source.Expr.isPlain : Expr → Bool
  | .name _ | .int _ | .float _ | .string _ | .rune _ => true
  | .unary op operand => op != .addr && operand.isPlain
  | .binary _ left right => left.isPlain && right.isPlain
  | .select base _ => base.isPlain
  | .index base key => base.isPlain && key.isPlain
  | _ => false

namespace Eval

variable {ev : Evaluator} {scope : ScopeId}

theorem keeps_logical (decisive : Bool) {a b : Expr} (first : KeepsVariables ev (eval a scope))
    (second : KeepsVariables ev (eval b scope)) :
    KeepsVariables ev (logical decisive a b scope) := by
  refine .bind first fun v => .bind (reads_asBool v).keeps fun holds => ?_
  split
  · exact .bind second fun w => .bind (reads_asBool w).keeps fun _ => (reads_pure _).keeps
  · exact (reads_pure _).keeps

theorem keeps_selected {base : Expr} (name : String) (inner : KeepsVariables ev (eval base scope)) :
    KeepsVariables ev (selected base name scope) := by
  refine .bind (reads_packageName? base scope).keeps fun package => ?_
  split
  · exact (reads_packageMember _ name).keeps
  · exact .bind inner fun v => (reads_select v name).keeps

/-- Reading leaves the variables as they are if reading the operands does. -/
theorem keeps_evaluate
    (operands : ∀ e : Expr, e.isPlain = true → KeepsVariables ev (eval e scope)) :
    ∀ e : Expr, e.isPlain = true → KeepsVariables ev (evaluate e scope) := by
  intro e plain
  cases e with
  | name name => exact (reads_nameValue name scope).keeps
  | int n => exact (reads_pure _).keeps
  | float f => exact (reads_pure _).keeps
  | string s => exact (reads_pure _).keeps
  | rune c => exact (reads_pure _).keeps
  | unary op operand =>
      simp only [Expr.isPlain, Bool.and_eq_true, bne_iff_ne] at plain
      have other : evaluate (.unary op operand) scope =
          (do unary op (← eval operand scope)) := by
        cases op with
        | addr => exact absurd rfl plain.1
        | _ => rfl
      rw [other]
      exact .bind (operands operand plain.2) fun v => (reads_unary op v).keeps
  | binary op left right =>
      simp only [Expr.isPlain, Bool.and_eq_true] at plain
      have first := operands left plain.1
      have second := operands right plain.2
      have values : KeepsVariables ev (do
          let a ← eval left scope
          let b ← eval right scope
          binary op a b) :=
        .bind first fun a => .bind second fun b => (reads_binary op a b).keeps
      cases op with
      | logAnd => exact keeps_logical true first second
      | logOr => exact keeps_logical false first second
      | _ => exact values
  | select base name => exact keeps_selected name (operands base plain)
  | index base key =>
      simp only [Expr.isPlain, Bool.and_eq_true] at plain
      exact .bind (operands base plain.1) fun v => .bind (operands key plain.2) fun key =>
        keeps_index v key
  | composite => cases plain
  | function => cases plain
  | call => cases plain
  | slice => cases plain
  | assert => cases plain
  | type => cases plain

/-- A plain expression leaves the variables as they are, however deep it is nested. -/
theorem keeps_eval (depth : Nat) {e : Expr} (plain : e.isPlain = true) :
    KeepsVariables (Evaluator.ofDepth depth) (eval e scope) := by
  induction depth generalizing e with
  | zero => exact fun m => .refl m.store
  | succ depth ih => exact fun m => keeps_evaluate (fun e plain => ih plain) e plain m.working

/-! ## Assignments -/

theorem keeps_assignElement (container key v : Value) :
    KeepsVariables ev (assignElement container key v) := by
  refine .bind (reads_view _).keeps fun container => ?_
  split
  · refine .bind (reads_asIndex _ _).keeps fun i => .bind (reads_view _).keeps fun old => ?_
    refine keeps_changeStore fun s => ?_
    unfold Store.setElement
    split <;> exact ⟨rfl, rfl, Nat.le_refl _⟩
  · refine .bind (reads_asKey _).keeps fun key => ?_
    split
    · exact keeps_changeStore fun s => ⟨rfl, rfl, Nat.le_refl _⟩
    · exact (reads_panic _).keeps
  · exact (reads_panic _).keeps
  · exact (reads_error _).keeps
  · exact .bind (reads_typeName _).keeps fun _ => (reads_error _).keeps

theorem sameVariables_modifyStruct (s : Store) (place : Nat) (f : StructObject → StructObject) :
    SameVariables s { s with structs := s.structs.modify place f } :=
  ⟨rfl, rfl, by simp⟩

theorem keeps_assignField (base : Value) (field : String) (v : Value) :
    KeepsVariables ev (assignField base field v) := by
  rw [assignField_eq]
  split
  iterate 2
    · refine .bind (reads_walkStore _).keeps fun found => ?_
      split
      · exact .bind (reads_view _).keeps fun old =>
          keeps_changeStore fun s => sameVariables_modifyStruct s _ _
      · exact .bind (reads_view _).keeps fun _ => (reads_error _).keeps
  · exact (reads_panic _).keeps
  · exact .bind (reads_typeName _).keeps fun _ => (reads_error _).keeps

theorem keeps_assignThrough (o : StructId) (v : Value) :
    KeepsVariables ev (assignThrough (.pointer o) v) := by
  have fill (source : StructId) : KeepsVariables ev (do
      if o = source then return
      let object ← viewStore (·.structObject source)
      let fields ← copiedAll object.fields.toList
      changeStore (·.setFields o fields.toArray)) := by
    split
    · exact (reads_pure _).keeps
    · exact .bind (reads_view _).keeps fun object => .bind (keeps_copiedAll _) fun fields =>
        keeps_changeStore fun s => sameVariables_modifyStruct s _ _
  unfold assignThrough
  dsimp only
  split
  · exact fill _
  · exact fill _
  · exact .bind (reads_typeName _).keeps fun _ => (reads_error _).keeps

/-! ## Whole variables -/

/-- What a variable holds after a value was stored over an old one. -/
def storedOver (width : Option IntWidth) (old v : Value) : Value :=
  match old.keepingFloat v with
  | .int n => .int (IntWidth.wrapTo width n)
  | v => v

theorem storedOver_struct {width : Option IntWidth} {old v : Value} {o : StructId}
    (holds : storedOver width old v = .struct o) : v = .struct o := by
  have kept : old.keepingFloat v = .struct o := by
    unfold storedOver at holds
    split at holds
    · cases holds
    · exact holds
  unfold Value.keepingFloat at kept
  split at kept
  · cases kept
  · exact kept

theorem resolve_run (scope : ScopeId) (name : String) (m : Machine) :
    (resolve? scope name).run ev m = .ok (m.store.resolve? scope name) m := rfl

theorem readCell_run (c : CellId) (m : Machine) :
    (readCell c).run ev m = .ok (m.store.cell c) m := rfl

theorem assignVariable_run {name : String} (named : name ≠ "_") {m : Machine} {found : Variable}
    (declared : m.store.resolve? scope name = some found) (v : Value) :
    (assignVariable name v scope).run ev m =
      .ok () { m with
        store := m.store.setCell found.cell
          (storedOver found.width (m.store.cell found.cell) v) } := by
  unfold assignVariable storedOver
  rw [if_neg named, bind_run_ok (resolve_run scope name m), declared]
  dsimp only
  rw [bind_run_ok (readCell_run found.cell m)]
  generalize (m.store.cell found.cell).keepingFloat v = kept
  cases kept <;> rfl

theorem copied_fresh {v : Value} {o : StructId} {m m' : Machine}
    (ran : (copied v).run ev m = .ok (.struct o) m') : m.store.structs.size ≤ o.index := by
  unfold copied at ran
  split at ran
  · obtain ⟨copy, -⟩ := EStateM.Result.ok.inj ran
    exact Store.copied_fresh copy
  · rename_i noContents
    cases ran
    exact absurd rfl noContents

/-- The assignment of a value to a target in a scope. -/
structure Assigned where
  scope : ScopeId
  target : Expr
  value : Value

/-- Assignments one after another. -/
def assignments : List Assigned → Eval Unit
  | [] => pure ()
  | step :: rest => do
    assignEach step.scope [step.target] [step.value]
    assignments rest

/-- The value of an expression, if it has one. -/
def valueOf (depth : Nat) (scope : ScopeId) (e : Expr) (m : Machine) : Option Value :=
  match (eval e scope).run (Evaluator.ofDepth depth) m with
  | .ok v _ => some v
  | .error _ _ => none

theorem assignEach_ok {target : Expr} {v : Value} {m m' : Machine}
    (ran : (assignEach scope [target] [v]).run ev m = .ok () m') :
    ∃ w between, (copied v).run ev m = .ok w between ∧
      (assign target w scope).run ev between = .ok () m' := by
  obtain ⟨w, between, copy, ran⟩ := bind_ok ran
  obtain ⟨_, after, stored, ended⟩ := bind_ok ran
  obtain ⟨-, rfl⟩ := pure_ok ended
  exact ⟨w, between, copy, stored⟩

end Eval

/-! ## Pointers and their variables -/

open Eval

/-- In some scopes the name `x` stands for the variable `place`, and `p` for another one, which
holds `target`. -/
structure Names (scopes : List ScopeId) (p x : String) (pointer place : Variable) (target : Value)
    (s : Store) : Prop where
  named : x ≠ "_"
  declared : ∀ scope ∈ scopes, s.resolve? scope x = some place
  pointed : ∀ scope ∈ scopes, s.resolve? scope p = some pointer
  apart : pointer.cell ≠ place.cell
  holds : s.cell pointer.cell = target

/-- The variable `p` holds the address of the variable `x`; both can be seen in some scopes. -/
structure PointsAt (scopes : List ScopeId) (p x : String) (pointer place : Variable) (m : Machine) :
    Prop extends Names scopes p x pointer place (m.store.cell pointer.cell) m.store where
  taken : ∀ scope ∈ scopes, ∀ ev,
    (address (.name x) scope).run ev m = .ok (m.store.cell pointer.cell) m
  stored : ∀ o, m.store.cell place.cell = .struct o → o.index < m.store.structs.size

/-- What may be assigned while `p` points at `x`: the variable as a whole, what `p` points at, and
any field or element, of `x` or of something else. -/
inductive IsTarget (p x : String) : Expr → Prop
  | whole : IsTarget p x (.name x)
  | pointee : IsTarget p x (.unary .deref (.name p))
  | field {base : Expr} (plain : base.isPlain = true) (name : String) :
      IsTarget p x (.select base name)
  | element {base key : Expr} (plain : base.isPlain = true) (plainKey : key.isPlain = true) :
      IsTarget p x (.index base key)

theorem Store.resolve?_setCell (s : Store) (c : CellId) (v : Value) (scope : ScopeId)
    (name : String) : (s.setCell c v).resolve? scope name = s.resolve? scope name :=
  have scopes : (s.setCell c v).scopes = s.scopes := rfl
  resolve?_congr scopes scope name

section

variable {depth : Nat} {scopes : List ScopeId} {scope : ScopeId} {p x : String}
  {pointer place : Variable}
variable {target : Value} {s s' : Store} {m m' : Machine}

theorem Names.kept (names : Names scopes p x pointer place target s) (same : SameVariables s s') :
    Names scopes p x pointer place target s' where
  named := names.named
  declared scope seen :=
    (Store.resolve?_congr same.scopes scope x).trans (names.declared scope seen)
  pointed scope seen :=
    (Store.resolve?_congr same.scopes scope p).trans (names.pointed scope seen)
  apart := names.apart
  holds := (same.cell pointer.cell).trans names.holds

theorem Names.written (names : Names scopes p x pointer place target s) (v : Value) :
    Names scopes p x pointer place target (s.setCell place.cell v) where
  named := names.named
  declared scope seen :=
    (Store.resolve?_setCell s place.cell v scope x).trans (names.declared scope seen)
  pointed scope seen :=
    (Store.resolve?_setCell s place.cell v scope p).trans (names.pointed scope seen)
  apart := names.apart
  holds := (Store.cell_setCell_of_ne names.apart v).trans names.holds

/-! ## What the expressions stand for -/

theorem eval_name_run {name : String} {found : Variable}
    (declared : m.store.resolve? scope name = some found) :
    (eval (.name name) scope).run (Evaluator.ofDepth (depth + 1)) m =
      .ok (m.store.cell found.cell) m.working := by
  show (nameValue name scope).run _ m.working = _
  have declared' : m.working.store.resolve? scope name = some found := declared
  unfold nameValue
  rw [bind_run_ok (resolve_run scope name m.working), declared']
  rfl

theorem eval_deref_run {name : String} {found : Variable}
    (declared : m.store.resolve? scope name = some found) :
    (eval (.unary .deref (.name name)) scope).run (Evaluator.ofDepth (depth + 2)) m =
      (unary .deref (m.store.cell found.cell)).run (Evaluator.ofDepth (depth + 1))
        m.working.working := by
  show (do unary .deref (← eval (.name name) scope)).run (Evaluator.ofDepth (depth + 1))
    m.working = _
  have declared' : m.working.store.resolve? scope name = some found := declared
  rw [bind_run_ok (eval_name_run declared')]
  rfl

theorem Names.valueOf_name (names : Names scopes p x pointer place target m.store)
    (seen : scope ∈ scopes) :
    valueOf (depth + 1) scope (.name x) m = some (m.store.cell place.cell) := by
  rw [valueOf, eval_name_run (names.declared scope seen)]

theorem Names.valueOf_pointer {o : StructId}
    (names : Names scopes p x pointer place (.pointer o) m.store) (seen : scope ∈ scopes) :
    valueOf (depth + 2) scope (.unary .deref (.name p)) m = some (.struct o) := by
  rw [valueOf, eval_deref_run (names.pointed scope seen), names.holds]
  rfl

theorem Names.valueOf_ref {c : CellId} (names : Names scopes p x pointer place (.ref c) m.store)
    (seen : scope ∈ scopes) :
    valueOf (depth + 2) scope (.unary .deref (.name p)) m = some (m.store.cell c) := by
  rw [valueOf, eval_deref_run (names.pointed scope seen), names.holds]
  rfl

theorem PointsAt.target_cases (points : PointsAt scopes p x pointer place m)
    (seen : scope ∈ scopes) :
    (∃ o, m.store.cell place.cell = .struct o ∧ m.store.cell pointer.cell = .pointer o) ∨
      (∀ o, m.store.cell place.cell ≠ .struct o) ∧
        m.store.cell pointer.cell = .ref place.cell := by
  have taken := points.taken scope seen (Evaluator.ofDepth 0)
  unfold address at taken
  rw [bind_run_ok (resolve_run scope x m), points.declared scope seen] at taken
  dsimp only at taken
  rw [bind_run_ok (readCell_run place.cell m)] at taken
  split at taken
  · rename_i o holds
    obtain ⟨same, -⟩ := EStateM.Result.ok.inj taken
    exact .inl ⟨o, holds, same.symm⟩
  · rename_i noStruct
    obtain ⟨same, -⟩ := EStateM.Result.ok.inj taken
    exact .inr ⟨noStruct, same.symm⟩

/-! ## One assignment -/

/-- What an assignment does to the store: the variable gets another value, or the variables stay as
they are. -/
inductive Effect (p x : String) (place : Variable) (target : Value) (s s' : Store) : Expr → Prop
  | whole {w : Value} {between : Store} (same : SameVariables s between)
      (fresh : ∀ o, w = .struct o → s.structs.size ≤ o.index)
      (left : s' = between.setCell place.cell w) : Effect p x place target s s' (.name x)
  | through {w : Value} {between : Store} (isRef : target = .ref place.cell)
      (same : SameVariables s between) (left : s' = between.setCell place.cell w) :
      Effect p x place target s s' (.unary .deref (.name p))
  | inside {e : Expr} (same : SameVariables s s') (part : e ≠ .name x) :
      Effect p x place target s s' e

theorem assignThrough_pointee {v : Value} (names : Names scopes p x pointer place target m.store)
    (seen : scope ∈ scopes)
    (ran : (assign (.unary .deref (.name p)) v scope).run (Evaluator.ofDepth depth) m = .ok () m') :
    (assignThrough target v).run (Evaluator.ofDepth depth) m.working = .ok () m' := by
  obtain ⟨read, after, evaluated, ran⟩ := bind_ok ran
  cases depth with
  | zero => cases evaluated
  | succ depth =>
      rw [eval_name_run (names.pointed scope seen), names.holds] at evaluated
      cases evaluated
      exact ran

theorem effect_of_assign {e : Expr} {v : Value}
    (names : Names scopes p x pointer place target m.store) (seen : scope ∈ scopes)
    (isAddress : target = .ref place.cell ∨ ∃ o, target = .pointer o) (isTarget : IsTarget p x e)
    (ran : (assignEach scope [e] [v]).run (Evaluator.ofDepth depth) m = .ok () m') :
    Effect p x place target m.store m'.store e := by
  obtain ⟨w, between, copy, ran⟩ := assignEach_ok ran
  have copied := (keeps_copied v).of_ok copy
  cases isTarget with
  | whole =>
      have there := names.kept copied
      rw [assign, assignVariable_run names.named (there.declared scope seen)] at ran
      obtain ⟨-, left⟩ := EStateM.Result.ok.inj ran
      refine .whole copied (fun o stored => ?_) (congrArg (fun m => m.store) left).symm
      have isStruct := storedOver_struct stored
      subst isStruct
      exact copied_fresh copy
  | pointee =>
      have ran := assignThrough_pointee (names.kept copied) seen ran
      rcases isAddress with rfl | ⟨o, rfl⟩
      · obtain ⟨-, left⟩ := EStateM.Result.ok.inj ran
        exact .through rfl copied (congrArg (fun m => m.store) left).symm
      · have filled : SameVariables between.working.store m'.store :=
          (keeps_assignThrough o w).of_ok ran
        exact .inside (copied.trans filled) (by simp)
  | field plain name =>
      have keeps : KeepsVariables (Evaluator.ofDepth depth) (assign (.select _ name) w scope) :=
        .bind (keeps_eval depth plain) fun base => keeps_assignField base name w
      exact .inside (copied.trans (keeps.of_ok ran)) (by simp)
  | element plain plainKey =>
      have keeps : KeepsVariables (Evaluator.ofDepth depth) (assign (.index _ _) w scope) :=
        .bind (keeps_eval depth plain) fun base => .bind (keeps_eval depth plainKey) fun key =>
          keeps_assignElement base key w
      exact .inside (copied.trans (keeps.of_ok ran)) (by simp)

/-! ## A whole history -/

theorem Names.after {e : Expr} (names : Names scopes p x pointer place target s)
    (effect : Effect p x place target s s' e) : Names scopes p x pointer place target s' := by
  cases effect with
  | whole same _ left => exact left ▸ (names.kept same).written _
  | through _ same left => exact left ▸ (names.kept same).written _
  | inside same => exact names.kept same

/-- The variable holds a certain struct, which exists, unless it was assigned as a whole. -/
theorem holds_after {e : Expr} {o : StructId} (exists_ : o.index < s.structs.size)
    (inside : place.cell.index < s.cells.size)
    (effect : Effect p x place (.pointer o) s s' e) :
    o.index < s'.structs.size ∧ place.cell.index < s'.cells.size ∧
      (s'.cell place.cell = .struct o ↔ s.cell place.cell = .struct o ∧ e ≠ .name x) := by
  cases effect with
  | @whole w between same fresh left =>
      subst left
      have there : place.cell.index < between.cells.size := same.cells ▸ inside
      have other : (between.setCell place.cell w).cell place.cell ≠ .struct o := by
        rw [Store.cell_setCell_self there]
        intro isStruct
        have older := fresh o isStruct
        omega
      refine ⟨Nat.lt_of_lt_of_le exists_ same.structs, ?_, by simp [other]⟩
      simpa [Store.setCell] using there
  | through isRef => cases isRef
  | inside same part =>
      refine ⟨Nat.lt_of_lt_of_le exists_ same.structs, same.cells ▸ inside, ?_⟩
      rw [same.cell]
      exact ⟨fun holds => ⟨holds, part⟩, And.left⟩

theorem names_afterAll (isAddress : target = .ref place.cell ∨ ∃ o, target = .pointer o) :
    ∀ (steps : List Assigned) (m : Machine),
      (∀ step ∈ steps, step.scope ∈ scopes ∧ IsTarget p x step.target) →
      Names scopes p x pointer place target m.store →
      (assignments steps).run (Evaluator.ofDepth depth) m = .ok () m' →
      Names scopes p x pointer place target m'.store := by
  intro steps
  induction steps with
  | nil =>
      intro m _ names ran
      cases ran
      exact names
  | cons step rest ih =>
      intro m targets names ran
      obtain ⟨_, between, first, others⟩ := bind_ok ran
      obtain ⟨seen, isTarget⟩ := targets step List.mem_cons_self
      have effect := effect_of_assign names seen isAddress isTarget first
      exact ih between (fun later member => targets later (List.mem_cons_of_mem step member))
        (names.after effect) others

theorem holds_afterAll {o : StructId} :
    ∀ (steps : List Assigned) (m : Machine),
      (∀ step ∈ steps, step.scope ∈ scopes ∧ IsTarget p x step.target) →
      Names scopes p x pointer place (.pointer o) m.store → o.index < m.store.structs.size →
      place.cell.index < m.store.cells.size →
      (assignments steps).run (Evaluator.ofDepth depth) m = .ok () m' →
      (m'.store.cell place.cell = .struct o ↔
        m.store.cell place.cell = .struct o ∧ ∀ step ∈ steps, step.target ≠ .name x) := by
  intro steps
  induction steps with
  | nil =>
      intro m _ _ _ _ ran
      cases ran
      simp
  | cons step rest ih =>
      intro m targets names exists_ inside ran
      obtain ⟨_, between, first, others⟩ := bind_ok ran
      obtain ⟨seen, isTarget⟩ := targets step List.mem_cons_self
      have effect := effect_of_assign names seen (.inr ⟨o, rfl⟩) isTarget first
      obtain ⟨stillExists, stillInside, holds⟩ := holds_after exists_ inside effect
      rw [ih between (fun later member => targets later (List.mem_cons_of_mem step member))
        (names.after effect) stillExists stillInside others, holds, List.forall_mem_cons, and_assoc]

theorem Store.inside_of_struct {c : CellId} {o : StructId} (holds : s.cell c = .struct o) :
    c.index < s.cells.size := by
  refine Nat.lt_of_not_le fun outside => ?_
  rw [cell, Array.getElem?_eq_none outside] at holds
  cases holds

/-- After any assignments that succeed, a variable and what a pointer to it points at are the same
value exactly if the variable held no struct when its address was taken, or was never assigned as a
whole since. -/
theorem pointer_agrees_iff (points : PointsAt scopes p x pointer place m) (seen : scope ∈ scopes)
    {steps : List Assigned}
    (targets : ∀ step ∈ steps, step.scope ∈ scopes ∧ IsTarget p x step.target)
    (ran : (assignments steps).run (Evaluator.ofDepth depth) m = .ok () m') :
    (∃ v, valueOf (depth + 2) scope (.name x) m' = some v ∧
        valueOf (depth + 2) scope (.unary .deref (.name p)) m' = some v) ↔
      (∀ o, m.store.cell place.cell ≠ .struct o) ∨ ∀ step ∈ steps, step.target ≠ .name x := by
  rcases points.target_cases seen with ⟨o, isStruct, address⟩ | ⟨noStruct, address⟩
  · have names := address ▸ points.toNames
    have after := names_afterAll (.inr ⟨o, rfl⟩) steps m targets names ran
    have holds := holds_afterAll steps m targets names (points.stored o isStruct)
      (Store.inside_of_struct isStruct) ran
    rw [after.valueOf_name seen, after.valueOf_pointer seen]
    constructor
    · rintro ⟨v, same, isStruct⟩
      cases isStruct
      exact .inr (holds.mp (Option.some.inj same)).2
    · rintro (noStruct | neverWhole)
      · exact absurd isStruct (noStruct o)
      · exact ⟨_, congrArg some (holds.mpr ⟨isStruct, neverWhole⟩), rfl⟩
  · have names := address ▸ points.toNames
    have after := names_afterAll (.inl rfl) steps m targets names ran
    rw [after.valueOf_name seen, after.valueOf_ref seen]
    exact ⟨fun _ => .inl noStruct, fun _ => ⟨_, rfl, rfl⟩⟩

end

theorem Eval.assignEach_whole_returns {ev : Evaluator} {m : Machine} {scope : ScopeId}
    {name : String} {found : Variable} (named : name ≠ "_")
    (declared : m.store.resolve? scope name = some found) (v : Value) :
    ∃ m', (assignEach scope [.name name] [v]).run ev m = .ok () m' := by
  obtain ⟨w, between, copy⟩ : ∃ w between, (copied v).run ev m = .ok w between := by
    unfold copied
    split
    · exact ⟨_, _, rfl⟩
    · exact ⟨_, _, rfl⟩
  have same := ((keeps_copied v).of_ok copy).scopes
  have still := (Store.resolve?_congr same scope name).trans declared
  have stored : (assignVariable name w scope).run ev between = .ok () _ :=
    assignVariable_run named still w
  exact ⟨_, (bind_run_ok copy _).trans (bind_run_ok stored _)⟩

/-- A machine whose variable `x` holds a struct and whose variable `p` points at it. -/
def pointedMachine : Machine :=
  { Machine.initial {} with
    store :=
      { cells := #[.struct ⟨0⟩, .pointer ⟨0⟩]
        scopes := #[{ declared := [("x", ⟨⟨0⟩, none⟩), ("p", ⟨⟨1⟩, none⟩)] }]
        structs := #[⟨⟨1, "T", [⟨"a", false, none, false⟩]⟩, #[.int 1]⟩] } }

theorem pointedMachine_pointsAt :
    PointsAt [globalScope] "p" "x" ⟨⟨1⟩, none⟩ ⟨⟨0⟩, none⟩ pointedMachine where
  named := by decide
  declared scope seen := by
    rw [List.mem_singleton.mp seen, Store.resolve?]
    rfl
  pointed scope seen := by
    rw [List.mem_singleton.mp seen, Store.resolve?]
    rfl
  apart := by decide
  holds := rfl
  taken scope seen ev := by
    have declared : pointedMachine.store.resolve? scope "x" = some ⟨⟨0⟩, none⟩ := by
      rw [List.mem_singleton.mp seen, Store.resolve?]
      rfl
    unfold address
    rw [bind_run_ok (resolve_run scope "x" pointedMachine), declared]
    rfl
  stored := by
    rintro o holds
    cases holds
    decide

/-- After `x = x` the pointer points at the struct that `x` held before. -/
theorem pointer_agrees_iff_whole :
    ∃ m', (assignments [⟨globalScope, .name "x", .struct ⟨0⟩⟩]).run (Evaluator.ofDepth 0)
        pointedMachine = .ok () m' ∧
      ¬ ∃ v, valueOf 2 globalScope (.name "x") m' = some v ∧
        valueOf 2 globalScope (.unary .deref (.name "p")) m' = some v := by
  have seen : globalScope ∈ [globalScope] := List.mem_singleton_self _
  have declared := pointedMachine_pointsAt.declared globalScope seen
  have ran : ∃ m', (assignments [⟨globalScope, .name "x", .struct ⟨0⟩⟩]).run (Evaluator.ofDepth 0)
      pointedMachine = .ok () m' := by
    obtain ⟨m', ran⟩ := assignEach_whole_returns (by decide) declared (.struct ⟨0⟩)
    exact ⟨m', bind_run_ok ran _⟩
  obtain ⟨m', ran⟩ := ran
  refine ⟨m', ran, ?_⟩
  rw [pointer_agrees_iff pointedMachine_pointsAt seen (by
    rintro step member
    rw [List.mem_singleton.mp member]
    exact ⟨seen, .whole⟩) ran]
  rintro (noStruct | neverWhole)
  · exact noStruct ⟨0⟩ rfl
  · exact neverWhole _ (List.mem_singleton_self _) rfl

end SandboxedGo
