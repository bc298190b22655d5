import SandboxedGo.Eval.Assignment
import SandboxedGo.Proofs.Courses
import SandboxedGo.Proofs.Limits

/-!
# Following a computation

A computation is followed from one step to the next: where the first part of it ends normally, the
second part goes on from there.  The limits of a run stay the same all the way.

A field is read by looking for the place where it is stored, and written by trying to write it in
one struct after another.  Both go through the embedded structs in the same order, and an attempt
that fails leaves the store as it is, so both come to the same place.

Most computations ask the program's world something and leave it as it is.  Such a computation may
end with a signal, but whatever was true of the store and of the pending calls is true afterwards.

Where it is known what the program's world is like, a computation is followed from one world to
another one: it leads to a certain ending there, or it fails, or the run is cut off.
-/

set_option autoImplicit false

namespace SandboxedGo

namespace Eval

variable {α β : Type} {jumps : Bool} {ev : Evaluator} {m m' : Machine}

/-! ## Sequences -/

theorem bind_run (x : Computation jumps α) (f : α → Computation jumps β) (ev : Evaluator)
    (m : Machine) :
    (x >>= f).run ev m =
      match x.run ev m with
      | .ok a m => (f a).run ev m
      | .error e m => .error e m := by
  show EStateM.bind (x.run ev) (fun a => (f a).run ev) m = _
  unfold EStateM.bind
  cases x.run ev m <;> rfl

theorem bind_run_ok {x : Computation jumps α} {a : α} (first : x.run ev m = .ok a m')
    (f : α → Computation jumps β) :
    (x >>= f).run ev m = (f a).run ev m' := by
  rw [bind_run, first]

theorem bind_run_error {x : Computation jumps α} {stop : Stop}
    (first : x.run ev m = .error stop m') (f : α → Computation jumps β) :
    (x >>= f).run ev m = .error stop m' := by
  rw [bind_run, first]

theorem bind_ok {x : Eval α} {f : α → Eval β} {b : β} (ran : (x >>= f).run ev m = .ok b m') :
    ∃ a between, x.run ev m = .ok a between ∧ (f a).run ev between = .ok b m' := by
  rw [bind_run] at ran
  cases first : x.run ev m with
  | ok a between =>
      rw [first] at ran
      exact ⟨a, between, rfl, ran⟩
  | error e between =>
      rw [first] at ran
      cases ran

theorem pure_ok {a b : α} (ran : (pure a : Eval α).run ev m = .ok b m') : a = b ∧ m = m' := by
  cases ran
  exact ⟨rfl, rfl⟩

theorem run_ext {x y : Eval α} (same : ∀ ev m, x.run ev m = y.run ev m) : x = y := by
  obtain ⟨run, built⟩ := x
  obtain ⟨run', built'⟩ := y
  have runs : run = run' := funext fun ev => funext fun m => same ev m
  subst runs
  rfl

instance : LawfulMonad Eval :=
  LawfulMonad.mk' Eval
    (fun x => run_ext fun ev m => by
      show (x >>= fun a => pure a).run ev m = x.run ev m
      rw [bind_run]
      cases x.run ev m <;> rfl)
    (fun _ _ => rfl)
    (fun x f g => run_ext fun ev m => by
      rw [bind_run, bind_run, bind_run]
      cases x.run ev m with
      | ok a between => exact (bind_run (f a) g ev between).symm
      | error e between => rfl)

theorem onStore_run (f : Store → α × Store) (ev : Evaluator) (m : Machine) :
    (onStore f).run ev m = .ok (f m.store).1 { m with store := (f m.store).2 } := rfl

/-- Copying a value always succeeds. -/
theorem copied_run (v : Value) (ev : Evaluator) (m : Machine) :
    (copied v).run ev m =
      .ok (Store.copied v m.store).1 { m with store := (Store.copied v m.store).2 } := by
  unfold copied Store.copied
  split
  · rfl
  · rfl

/-- A walk through the program's world that has no answer does not come to an end. -/
theorem ofWalk_endless {f : Guest → Option α} (endless : f m.toGuest = none) :
    ∃ m', (do ofWalk (← Eval.view f)).run ev m = .error (.halt .unfinished) m' := by
  rw [bind_run_ok rfl, endless]
  exact ⟨_, rfl⟩

/-! ## Lists -/

/-- A computation for every item of a list ends normally if each of them does. -/
theorem mapM_returns {f : α → Eval β} (each : ∀ a m, ∃ b m', (f a).run ev m = .ok b m')
    (items : List α) (m : Machine) :
    ∃ results m', (items.mapM f).run ev m = .ok results m' ∧ results.length = items.length := by
  induction items generalizing m with
  | nil => exact ⟨[], m, rfl, rfl⟩
  | cons a rest ih =>
      obtain ⟨b, between, first⟩ := each a m
      obtain ⟨results, m', others, length⟩ := ih between
      refine ⟨b :: results, m', ?_, congrArg (· + 1) length⟩
      rw [List.mapM_cons, bind_run_ok first, bind_run_ok others]
      rfl

theorem mapM_reads {f : α → Eval β} {g : α → β} {items : List α}
    (each : ∀ a ∈ items, (f a).run ev m = .ok (g a) m) :
    (items.mapM f).run ev m = .ok (items.map g) m := by
  induction items with
  | nil => rfl
  | cons a rest ih =>
      have others := ih fun b isIn => each b (List.mem_cons_of_mem a isIn)
      rw [List.mapM_cons, bind_run_ok (each a List.mem_cons_self), bind_run_ok others]
      rfl

theorem asInts_run (codes : List Int64) (ev : Evaluator) (m : Machine) :
    (asInts (codes.map .int)).run ev m = .ok codes m := by
  have reads : (codes.mapM (asInt ∘ Value.int)).run ev m = .ok (codes.map id) m :=
    mapM_reads fun _ _ => rfl
  unfold asInts
  rwa [List.map_id, ← List.mapM_map] at reads

theorem asStrings_run (texts : List String) (ev : Evaluator) (m : Machine) :
    (asStrings (texts.map .string)).run ev m = .ok texts m := by
  have reads : (texts.mapM (asString ∘ Value.string)).run ev m = .ok (texts.map id) m :=
    mapM_reads fun _ _ => rfl
  unfold asStrings
  rwa [List.map_id, ← List.mapM_map] at reads

theorem underlying_run {ty under : Source.TypeExpr} (is : m.types.underlying ty = under) :
    (view (·.types.underlying ty)).run ev m = .ok under m := by
  rw [← is]
  rfl

/-! ## The cap -/

theorem checkAlloc_run (size : Nat) (cause : Panic) (ev : Evaluator) (m : Machine) :
    (checkAlloc size cause).run ev m =
      if m.limits.maxAlloc < size then .error (.signal (.panic cause)) m else .ok () m := by
  unfold checkAlloc
  rw [bind_run_ok rfl]
  split <;> rfl

theorem checkAlloc_panics {size : Nat} (large : m.limits.maxAlloc < size) (cause : Panic) :
    (checkAlloc size cause).run ev m = .error (.signal (.panic cause)) m := by
  rw [checkAlloc_run, if_pos large]

theorem checkAlloc_passes {size : Nat} (enough : size ≤ m.limits.maxAlloc) (cause : Panic) :
    (checkAlloc size cause).run ev m = .ok () m := by
  rw [checkAlloc_run, if_neg (by omega)]

theorem checkAlloc_ok {size : Nat} {cause : Panic} {u : Unit}
    (ran : (checkAlloc size cause).run ev m = .ok u m') : size ≤ m.limits.maxAlloc ∧ m = m' := by
  rw [checkAlloc_run] at ran
  split at ran
  · cases ran
  · cases ran
    exact ⟨by omega, rfl⟩

theorem limits_kept {x : Eval α} {a : α} {depth : Nat}
    (ran : x.run (Evaluator.ofDepth depth) m = .ok a m') : m'.limits = m.limits := by
  -- A run agrees with itself under its own limits, and agreement fixes the limits.
  have within : m.limits.Within m.limits := .refl _
  have itself : (Evaluator.ofDepth depth).Simulates m.limits m.limits (Evaluator.ofDepth depth) :=
    ⟨Nat.le_refl _, perform_simulates within (Nat.le_refl depth), perform_extends depth⟩
  have agrees := x.built.simulates within itself m rfl
  rw [ran] at agrees
  generalize x.run (Evaluator.ofDepth depth) (m.under m.limits) = again at agrees
  cases agrees with
  | ok _ limits => exact limits

end Eval

/-! ## Writing fields -/

namespace Store

variable {s : Store} {o : StructId} {name : String} {found : Option (StructId × Nat)}

/-- What writing a field comes to, by where it is found. -/
def writtenAt (s : Store) (v : Value) : Option (StructId × Nat) → Bool × Store
  | some (owner, place) => (true, s.setFieldAt owner place v)
  | none => (false, s)

/-- Attempts in one struct after another end with the first one that finds the field, if each of
them ends in the store in which it begins or finds it. -/
theorem follow_writeFirst {part : StructId → Option (Option (StructId × Nat))}
    {answer : StructId × Store → Option (Bool × Store)} {v : Value} {embedded : List StructId}
    (each : ∀ inner found, part inner = some found → answer (inner, s) = some (s.writtenAt v found))
    (searched : (embedded.findSomeM? (Visit.consult (ρ := fun _ => Option (StructId × Nat)))).follow
      part = some found) :
    (writeFirst embedded s).follow answer = some (s.writtenAt v found) := by
  induction embedded with
  | nil =>
      cases searched
      rfl
  | cons inner rest ih =>
      change (Visit.ask inner fun r => _).follow part = _ at searched
      simp only [Visit.follow] at searched
      split at searched
      · rename_i r answered
        change (Visit.ask (inner, s) fun r => _).follow answer = _
        simp only [Visit.follow, each inner r answered]
        cases r with
        | some slot =>
            cases searched
            rfl
        | none => exact ih searched
      · cases searched

theorem writeField_of_findField (is : s.findField o name = some found) (v : Value) :
    s.writeField o name v = some (s.writtenAt v found) := by
  refine walk.partial_correctness (s.fieldVisit name)
    (fun o found => s.writeField o name v = some (s.writtenAt v found)) ?_ o found is
  intro part each o found followed
  rw [writeField, walk, writeVisit]
  rw [fieldVisit] at followed
  cases declared : fieldPlace? (s.structObject o).type name with
  | some place =>
      rw [declared] at followed
      cases followed
      rfl
  | none =>
      rw [declared] at followed
      exact follow_writeFirst each followed

end Store

namespace Eval

/-- Reading a field and then writing it is looking for it and then changing its place. -/
theorem writeField_found (o : StructId) (field : String) (v : Value) :
    (do
      let old ← walkStore (·.lookupField o field)
      let (written, s) ← walkStore (·.writeField o field ((old.getD .nil).keepingFloat v))
      changeStore fun _ => s
      if !written then error (.missingField (← viewStore (·.structName o)) field) : Eval Unit) =
    (do
      match ← walkStore (·.findField o field) with
      | some (owner, place) =>
        let old ← viewStore fun s => ((s.structObject owner).fields[place]?).getD .nil
        changeStore (·.setFieldAt owner place (old.keepingFloat v))
      | none => error (.missingField (← viewStore (·.structName o)) field)) := by
  refine run_ext fun ev m => ?_
  have searched : (walkStore (·.findField o field)).run ev m =
      (ofWalk (m.store.findField o field)).run ev m := rfl
  have read : (walkStore (·.lookupField o field)).run ev m =
      (ofWalk (m.store.lookupField o field)).run ev m := rfl
  rw [bind_run, bind_run, searched, read, Store.lookupField]
  cases is : m.store.findField o field with
  | none => rfl
  | some found =>
      have wrote (w : Value) : (walkStore (·.writeField o field w)).run ev m =
          .ok (m.store.writtenAt w found) m := by
        show (ofWalk (m.store.writeField o field w)).run ev m = _
        rw [Store.writeField_of_findField is]
        rfl
      cases found with
      | none => exact bind_run_ok (wrote _) _
      | some slot => exact bind_run_ok (wrote _) _

/-- An assignment to a field looks for the field and then changes the place where it is. -/
theorem assignField_eq (base : Value) (field : String) (v : Value) :
    assignField base field v = (do
      match base with
      | .struct o | .pointer o =>
        match ← walkStore (·.findField o field) with
        | some (owner, place) =>
          let old ← viewStore fun s => ((s.structObject owner).fields[place]?).getD .nil
          changeStore (·.setFieldAt owner place (old.keepingFloat v))
        | none => error (.missingField (← viewStore (·.structName o)) field)
      | .nil => panic .nilDereference
      | other => error (.fieldOf field (← typeName other))) := by
  cases base with
  | struct o => exact writeField_found o field v
  | pointer o => exact writeField_found o field v
  | _ => rfl

/-! ## What a computation leaves -/

open Source

variable {α β : Type} {ev : Evaluator}

/-- The machine that a computation leaves, however it ends. -/
def left (x : Eval α) (ev : Evaluator) (m : Machine) : Machine :=
  match x.run ev m with
  | .ok _ m => m
  | .error _ m => m

theorem left_of_ok {x : Eval α} {a : α} {m m' : Machine} (ran : x.run ev m = .ok a m') :
    x.left ev m = m' := by
  rw [left, ran]

theorem left_bind (x : Eval α) (f : α → Eval β) (ev : Evaluator) (m : Machine) :
    (x >>= f).left ev m = x.left ev m ∨ ∃ a, (x >>= f).left ev m = (f a).left ev (x.left ev m) := by
  unfold left
  rw [bind_run]
  cases x.run ev m with
  | ok a between => exact .inr ⟨a, rfl⟩
  | error e between => exact .inl rfl

/-! ## Reading -/

/-- A computation that leaves the store and the deferred calls as they are. -/
structure Reads (x : Eval α) : Prop where
  store : ∀ ev m, (x.left ev m).store = m.store
  deferred : ∀ ev m, (x.left ev m).deferred = m.deferred

theorem Reads.bind {x : Eval α} {f : α → Eval β} (first : Reads x) (rest : ∀ a, Reads (f a)) :
    Reads (x >>= f) := by
  constructor
  · intro ev m
    rcases left_bind x f ev m with ends | ⟨a, goesOn⟩
    · rw [ends, first.store]
    · rw [goesOn, (rest a).store, first.store]
  · intro ev m
    rcases left_bind x f ev m with ends | ⟨a, goesOn⟩
    · rw [ends, first.deferred]
    · rw [goesOn, (rest a).deferred, first.deferred]

theorem reads_pure (a : α) : Reads (pure a : Eval α) := ⟨fun _ _ => rfl, fun _ _ => rfl⟩

theorem reads_view (f : Guest → α) : Reads (view f) := ⟨fun _ _ => rfl, fun _ _ => rfl⟩

theorem reads_error (cause : RuntimeError) : Reads (error cause : Eval α) :=
  ⟨fun _ _ => rfl, fun _ _ => rfl⟩

theorem reads_panic (cause : Panic) : Reads (panic cause : Eval α) :=
  ⟨fun _ _ => rfl, fun _ _ => rfl⟩

theorem reads_ofWalk (answer : Option α) : Reads (ofWalk answer) := by
  cases answer <;> exact ⟨fun _ _ => rfl, fun _ _ => rfl⟩

theorem reads_ofExcept (r : Except Fault α) : Reads (ofExcept r) := by
  cases r <;> exact ⟨fun _ _ => rfl, fun _ _ => rfl⟩

theorem reads_addressOf (p : Pointee) : Reads (addressOf p) := by
  constructor
  all_goals
    intro ev m
    unfold left addressOf
    dsimp only
    rcases Action.addressOf_cases p m with ⟨place, given⟩ | lacking
    · rw [given]
    · rw [lacking]
      rfl

theorem reads_checkAlloc (size : Nat) (cause : Panic) : Reads (checkAlloc size cause) := by
  refine .bind (⟨fun _ _ => rfl, fun _ _ => rfl⟩) fun limit => ?_
  split
  · exact reads_panic cause
  · exact reads_pure ()

theorem reads_walkStore (f : Store → Option α) : Reads (walkStore f) :=
  .bind (reads_view _) reads_ofWalk

theorem reads_typeName (v : Value) : Reads (typeName v) := reads_walkStore _

theorem reads_refusal (v : Value) (cause : String → RuntimeError) :
    Reads (do error (cause (← typeName v)) : Eval α) :=
  .bind (reads_typeName v) fun _ => reads_error _

theorem reads_asBool (v : Value) : Reads (asBool v) := by
  unfold asBool
  split
  · exact reads_pure _
  · exact reads_refusal _ _

theorem reads_asInt (v : Value) : Reads (asInt v) := by
  unfold asInt
  dsimp only
  split
  · exact reads_pure _
  · split
    · exact reads_pure _
    · exact reads_refusal _ _
  · exact reads_refusal _ _

theorem reads_asKey (v : Value) : Reads (asKey v) := by
  unfold asKey
  split
  · exact reads_pure _
  · exact reads_refusal _ _

theorem reads_asIndex (v : Value) (length : Nat) : Reads (asIndex v length) := by
  refine .bind (reads_asInt v) fun i => ?_
  split
  · exact reads_panic _
  · exact reads_pure _

theorem reads_equal (a b : Value) : Reads (equal a b) := by
  refine .bind (reads_view _) fun answer => ?_
  split
  · exact reads_pure _
  · exact reads_error _

theorem reads_refuseOperands (op : BinaryOp) (a b : Value) : Reads (refuseOperands op a b) :=
  .bind (reads_typeName a) fun _ => .bind (reads_typeName b) fun _ => reads_error _

theorem reads_binary (op : BinaryOp) (a b : Value) : Reads (binary op a b) := by
  unfold binary
  split
  · exact .bind (reads_equal a b) fun _ => reads_pure _
  · exact .bind (reads_equal a b) fun _ => reads_pure _
  iterate 4
    split
    · exact reads_pure _
    · exact reads_refuseOperands _ _ _
  split
  · exact .bind (reads_ofExcept _) fun _ => reads_pure _
  · split
    · exact .bind (reads_checkAlloc _ _) fun _ => reads_pure _
    · exact reads_refuseOperands _ _ _
  · exact .bind (reads_ofExcept _) fun _ => reads_pure _
  · exact .bind (reads_ofExcept _) fun _ => reads_pure _
  · exact .bind (reads_ofExcept _) fun _ => reads_pure _
  · exact reads_refuseOperands _ _ _

theorem reads_unary (op : UnaryOp) (v : Value) : Reads (unary op v) := by
  unfold unary
  split
  iterate 7 exact reads_pure _
  · exact reads_view _
  · exact reads_panic _
  · exact .bind (reads_typeName _) fun _ => reads_error _

/-! ## Operands -/

theorem reads_predeclared (name : String) : Reads (predeclared name) := by
  unfold predeclared
  split
  iterate 3 exact reads_pure _
  split
  · exact reads_pure _
  · refine .bind (reads_view _) fun isPackage => ?_
    split
    · exact reads_error _
    · exact reads_error _

theorem reads_nameValue (name : String) (scope : ScopeId) : Reads (nameValue name scope) := by
  refine .bind (reads_view _) fun found => ?_
  split
  · exact reads_view _
  · exact reads_predeclared name

theorem reads_packageName? (e : Expr) (scope : ScopeId) : Reads (packageName? e scope) := by
  unfold packageName?
  split
  · refine .bind (reads_view _) fun isPackage => ?_
    split
    · exact .bind (reads_view _) fun _ => reads_pure _
    · exact reads_pure _
  · exact reads_pure _

theorem reads_packageMember (package name : String) : Reads (packageMember package name) := by
  refine .bind (reads_view _) fun found => ?_
  split
  · exact reads_error _
  · split
    iterate 4 exact reads_pure _
    exact reads_error _

theorem reads_select (v : Value) (name : String) : Reads (select v name) := by
  refine .bind (reads_view _) fun v => ?_
  split
  iterate 2
    · refine .bind (reads_walkStore _) fun field => ?_
      split
      · exact reads_pure _
      · refine .bind (reads_view _) fun decl => ?_
        split
        · exact reads_pure _
        · exact .bind (reads_view _) fun _ => reads_error _
  · exact reads_panic _
  · exact .bind (reads_typeName _) fun _ => reads_error _

end Eval

/-! ## From one world to another -/

/-- What an action comes to that leads to an ending in a world, unless it fails. -/
inductive Reaches {α : Type} (g : Guest) (pending : List (List Deferred)) :
    Except Signal α → EStateM.Result Stop Machine α → Prop
  | ends (a : α) {m : Machine} (is : m.toGuest = g) (same : m.deferred = pending) :
      Reaches g pending (.ok a) (.ok a m)
  | raises (s : Signal) {m : Machine} (is : m.toGuest = g) (same : m.deferred = pending) :
      Reaches g pending (.error s) (.error (.signal s) m)
  | fails (ending : Except Signal α) {s : Signal} {m : Machine} (fault : s.isFault = true)
      (same : m.deferred = pending) : Reaches g pending ending (.error (.signal s) m)
  | halts (ending : Except Signal α) (h : Halt) (m : Machine) :
      Reaches g pending ending (.error (.halt h) m)

open Source

namespace Action

/-- An action that leads from one world to an ending in another one, and puts off no call. -/
def Leads {α : Type} (x : Action α) (g : Guest) (ending : Except Signal α) (g' : Guest) : Prop :=
  ∀ m : Machine, m.toGuest = g → Reaches g' m.deferred ending (x m)

variable {α β : Type} {g g' g'' opened : Guest} {a : α} {ending : Except Signal β} {s : Signal}

theorem pure_leads (a : α) : Leads (EStateM.pure a) g (.ok a) g := fun _ is => .ends a is rfl

theorem raise_leads (s : Signal) : Leads (raise (α := α) s) g (.error s) g :=
  fun _ is => .raises s is rfl

theorem bind_leads {x : Action α} {f : α → Action β} (first : Leads x g (.ok a) g')
    (rest : Leads (f a) g' ending g'') : Leads (EStateM.bind x f) g ending g'' := by
  intro m is
  have begun := first m is
  unfold EStateM.bind
  generalize x m = r at begun
  cases begun with
  | ends _ is same => exact same ▸ rest _ is
  | fails _ fault same => exact .fails _ fault same
  | halts _ h m => exact .halts _ h m

theorem bind_raises {x : Action α} (f : α → Action β) (first : Leads x g (.error s) g') :
    Leads (EStateM.bind x f) g (.error s) g' := by
  intro m is
  have begun := first m is
  unfold EStateM.bind
  generalize x m = r at begun
  cases begun with
  | raises _ is same => exact .raises s is same
  | fails _ fault same => exact .fails _ fault same
  | halts _ h m => exact .halts _ h m

/-- What goes on behind the end of an action, whatever it is, leads on from there if it lets faults
pass. -/
theorem bind_outcome_leads {x : Action α} {inner : Except Signal α}
    {f : Except Signal α → Action β} (first : Leads x g inner g')
    (rest : Leads (f inner) g' ending g'')
    (passes : ∀ s, s.isFault = true → f (.error s) = raise s) :
    Leads (EStateM.bind (outcome x) f) g ending g'' := by
  intro m is
  have begun := first m is
  unfold EStateM.bind outcome
  generalize x m = r at begun
  cases begun with
  | ends _ is same => exact same ▸ rest _ is
  | raises _ is same => exact same ▸ rest _ is
  | @fails _ s m fault same =>
      show Reaches g'' _ ending (f (.error s) m)
      rw [passes s fault]
      exact .fails _ fault same
  | halts _ h m => exact .halts _ h m

theorem checkStop_leads : Leads checkStop g (.ok ()) g := by
  intro m is
  unfold checkStop
  split
  · exact .halts _ _ _
  · exact .ends () is rfl

theorem tick_leads : Leads tick g (.ok ()) g := by
  intro m is
  unfold tick checkBudget
  split
  · split
    · exact .halts _ _ _
    · exact checkStop_leads m.stepped is
  · exact checkStop_leads m.stepped is

theorem checkDepth_leads : Leads checkDepth g (.ok ()) g := by
  intro m is
  unfold checkDepth
  split
  · exact .halts _ _ _
  · exact .ends () is rfl

theorem undertake_leads (u : Undertaking) : Leads (undertake u) g (.ok ()) g :=
  fun _ is => .ends () is rfl

theorem paid_leads {ready : Action α} {act : α → Action β} (first : Leads ready g (.ok a) g')
    (rest : Leads (act a) g' ending g'') : Leads (paid ready act) g ending g'' :=
  bind_leads tick_leads (bind_leads first rest)

/-- A call of a body that leads somewhere has nothing to do behind it, since nothing is put off. -/
theorem bind_activation_leads {call : Deferred → Action Value} {body : Action (Option Value)}
    {v : Option Value} {f : Ending → Action β} (inner : Leads body g (.ok v) g')
    (rest : Leads (f (.ok v)) g' ending g'')
    (passes : ∀ s, s.isFault = true → f (.error s) = raise s) :
    Leads (EStateM.bind (activation call body) f) g ending g'' := by
  intro m is
  have begun := inner m.deeper.framed is
  have settles {ended : Ending} {m' : Machine} (same : m'.deferred = [] :: m.deferred)
      (settled : outcome body m.deeper.framed = .ok ended m') :
      activation call body m = .ok ended ((m'.unframed.withPanic m'.panicking).shallower) := by
    rw [activation_settled settled, Machine.innermost, same]
    rfl
  unfold EStateM.bind
  cases ran : body m.deeper.framed with
  | ok u m' =>
      have settled : outcome body m.deeper.framed = .ok (.ok u) m' := by rw [outcome, ran]
      rw [ran] at begun
      cases begun with
      | ends _ is same =>
          rw [settles same settled]
          have left : m'.deferred.tail = m.deferred := congrArg List.tail same
          exact left ▸ rest ((m'.unframed.withPanic m'.panicking).shallower) is
  | error stop m' =>
      rw [ran] at begun
      cases begun with
      | @fails _ s _ fault same =>
          have settled : outcome body m.deeper.framed = .ok (.error s) m' := by rw [outcome, ran]
          rw [settles same settled]
          dsimp only
          rw [passes s fault]
          exact .fails _ fault (congrArg List.tail same)
      | halts _ h _ =>
          have stopped : outcome body m.deeper.framed = .error (.halt h) m' := by rw [outcome, ran]
          rw [activation_cutOff stopped]
          exact .halts _ h _

theorem bind_invocation_leads {call : Deferred → Action Value} {opening : Action α}
    {body : α → Action (Option Value)} {v : Option Value} {f : α × Ending → Action β}
    (opens : Leads opening g (.ok a) opened) (inner : Leads (body a) opened (.ok v) g')
    (rest : Leads (f (a, .ok v)) g' ending g'')
    (passes : ∀ s, s.isFault = true → f (a, .error s) = raise s) :
    Leads (EStateM.bind (invocation call opening body) f) g ending g'' := by
  have entering : Leads (entered opening) g (.ok a) opened :=
    bind_leads (paid_leads checkDepth_leads (undertake_leads .function)) opens
  have rearranged : EStateM.bind (invocation call opening body) f =
      EStateM.bind (entered opening) fun a =>
        EStateM.bind (activation call (body a)) fun ended => f (a, ended) := by
    funext m
    unfold invocation
    simp only [bind, EStateM.bind]
    cases entered opening m with
    | error stop m' => rfl
    | ok a m' =>
        simp only [pure, EStateM.pure]
        cases activation call (body a) m' <;> rfl
  rw [rearranged]
  exact bind_leads entering (bind_activation_leads inner rest passes)

end Action

/-- A computation that leads from one world to an ending in another one. -/
def Computation.Leads {jumps : Bool} {α : Type} (x : Computation jumps α) (ev : Evaluator)
    (g : Guest) (ending : Except Signal α) (g' : Guest) : Prop :=
  Action.Leads (x.run ev) g ending g'

namespace Eval

section

variable {jumps : Bool} {α β : Type} {ev : Evaluator} {g g' g'' : Guest} {a : α}
  {ending : Except Signal β}

theorem bind_leads {x : Computation jumps α} {f : α → Computation jumps β}
    (first : x.Leads ev g (.ok a) g') (rest : (f a).Leads ev g' ending g'') :
    (x >>= f).Leads ev g ending g'' :=
  Action.bind_leads first rest

theorem pure_leads (a : α) : (pure a : Computation jumps α).Leads ev g (.ok a) g :=
  Action.pure_leads a

theorem view_leads (f : Guest → α) : (view f).Leads ev g (.ok (f g)) g :=
  fun _ is => is ▸ .ends _ rfl rfl

theorem view_leads_eq {f : Guest → α} (same : f g = a) : (view f).Leads ev g (.ok a) g :=
  same ▸ view_leads f

theorem viewStore_leads (f : Store → α) : (viewStore f).Leads ev g (.ok (f g.store)) g :=
  view_leads _

theorem onGuest_leads (f : Guest → α × Guest) : (onGuest f).Leads ev g (.ok (f g).1) (f g).2 :=
  fun _ is => is ▸ .ends _ rfl rfl

theorem changeStore_leads (f : Store → Store) :
    (changeStore f).Leads ev g (.ok ()) { g with store := f g.store } := onGuest_leads _

/-- A computation that does not jump leads to the same place among those that may. -/
theorem lift_leads {x : Eval α} {ending : Except Signal α} (leads : x.Leads ev g ending g') :
    (liftM x : Flow α).Leads ev g ending g' := leads

theorem undertake_leads (u : Undertaking) : (undertake u (pure ())).Leads ev g (.ok ()) g :=
  Action.paid_leads (pure_leads ()) (Action.undertake_leads u)

end

section

variable {depth : Nat} {g g' opened left : Guest} {scope : ScopeId} {e : Expr} {v w : Value}

theorem perform_leads {w : Work} {calm : w.isStatement = false}
    (step : w.step.Leads (.ofDepth depth) g (.ok v) g') :
    (perform w calm).Leads (.ofDepth (depth + 1)) g (.ok v) g' :=
  fun m is => step m.working is

/-- A body that is one `return` comes to what its operand gives. -/
theorem runBody_leads {line : Nat}
    (operand : (eval e scope).Leads (.ofDepth depth) { g with line } (.ok v) g') :
    (runBody [.mk line (.return [e])] scope none).Leads (.ofDepth (depth + 1)) g (.ok (some v))
      g' := by
  have executed : (execute (.mk line (.return [e])) scope).Leads (.ofDepth depth) g
      (.error (.return v)) g' := by
    have raised : (Flow.raise (α := Unit) (.return v)).Leads (.ofDepth depth) g'
        (.error (.return v)) g' := Action.raise_leads _
    have stated : execute (.mk line (.return [e])) scope = (do
        setLine line
        undertake .statement (pure ())
        let v ← returned [e] scope
        Flow.raise (.return v)) := rfl
    rw [stated]
    exact bind_leads (lift_leads (onGuest_leads _)) (bind_leads (lift_leads (undertake_leads _))
      (bind_leads (lift_leads operand) raised))
  have performed : (Flow.exec (.mk line (.return [e])) scope).Leads (.ofDepth (depth + 1)) g
      (.error (.return v)) g' := by
    have step : (Work.execute (.mk line (.return [e])) scope).step.Leads (.ofDepth depth) g
        (.error (.return v)) g' := Action.bind_raises _ executed
    exact Action.bind_raises _ fun m is => step m.working is
  have blocked : (block [.mk line (.return [e])] scope).Leads (.ofDepth (depth + 1)) g
      (.error (.return v)) g' := Action.bind_raises _ performed
  have caught : (returnedBy [.mk line (.return [e])] scope).Leads (.ofDepth (depth + 1)) g
      (.ok (some v)) g' := by
    refine Action.bind_outcome_leads blocked (pure_leads (some v)) ?_
    intro s fault
    cases s <;> first | rfl | cases fault
  exact bind_leads caught (bind_leads (lift_leads (pure_leads ())) (pure_leads _))

theorem invoke_leads {f : FuncLit} {env : ScopeId} {receiver : Option (String × Value)}
    {arguments : List Value} {spread : Bool} {returned : Option Value}
    (opens : (openScope f env receiver arguments spread).Leads (.ofDepth depth) g
      (.ok scope) opened)
    (inner : (runBody f.body scope (FuncLit.namedResults? f)).Leads (.ofDepth depth) opened
      (.ok returned) left)
    (result : (resultValue f scope returned).Leads (.ofDepth depth) left (.ok w) g') :
    (invoke f env receiver arguments spread).Leads (.ofDepth depth) g (.ok w) g' := by
  refine Action.bind_invocation_leads opens inner ?_ fun s fault => rfl
  have ended : (do resultValue f scope (← Flow.ofExcept (.ok returned)) : Flow Value).Leads
      (.ofDepth depth) left (.ok w) g' := bind_leads (pure_leads returned) result
  exact ended

/-! ### Operands -/

theorem name_leads {name : String} {x : Variable}
    (declared : g.store.resolve? scope name = some x) :
    (eval (.name name) scope).Leads (.ofDepth (depth + 1)) g (.ok (g.store.cell x.cell)) g := by
  have found : (resolve? scope name).Leads (.ofDepth depth) g (.ok (some x)) g :=
    declared ▸ viewStore_leads _
  have read : (nameValue name scope).Leads (.ofDepth depth) g (.ok (g.store.cell x.cell)) g :=
    bind_leads found (viewStore_leads _)
  exact perform_leads read

theorem number_leads (n : Int64) :
    (eval (.int n) scope).Leads (.ofDepth (depth + 1)) g (.ok (.int n)) g :=
  perform_leads (w := .evaluate (.int n) scope) (pure_leads (Value.int n))

theorem binary_leads (op : BinaryOp) {left right : Expr} {a b c : Value}
    (strict : op ≠ .logAnd ∧ op ≠ .logOr)
    (first : (eval left scope).Leads (.ofDepth depth) g (.ok a) g)
    (second : (eval right scope).Leads (.ofDepth depth) g (.ok b) g)
    (both : (binary op a b).Leads (.ofDepth depth) g (.ok c) g) :
    (eval (.binary op left right) scope).Leads (.ofDepth (depth + 1)) g (.ok c) g := by
  have step : (evaluate (.binary op left right) scope).Leads (.ofDepth depth) g (.ok c) g := by
    cases op with
    | logAnd => exact absurd rfl strict.1
    | logOr => exact absurd rfl strict.2
    | _ => exact bind_leads first (bind_leads second both)
  exact perform_leads step

theorem index_leads {base key : Expr} {items : SliceView} {i : Int64}
    (slice : (eval base scope).Leads (.ofDepth depth) g (.ok (.slice items)) g)
    (place : (eval key scope).Leads (.ofDepth depth) g (.ok (.int i)) g)
    (nonneg : 0 ≤ i) (within : i.toInt.toNat < items.length) :
    (eval (.index base key) scope).Leads (.ofDepth (depth + 1)) g
      (.ok (g.store.element items i.toInt.toNat)) g := by
  have found : (index (.slice items) (.int i)).Leads (.ofDepth depth) g
      (.ok (g.store.element items i.toInt.toNat)) g := by
    have inside : (asIndex (.int i) items.length).Leads (.ofDepth depth) g
        (.ok i.toInt.toNat) g := by
      have passes : ¬(i < 0 || decide (items.length ≤ i.toInt.toNat)) = true := by
        simp only [Bool.or_eq_true, decide_eq_true_eq, not_or]
        exact ⟨Int64.not_lt.mpr nonneg, by omega⟩
      refine bind_leads (pure_leads i) ?_
      rw [if_neg passes]
      exact pure_leads _
    have target : g.store.target (.slice items) = .slice items := rfl
    refine bind_leads (viewStore_leads _) ?_
    rw [target]
    exact bind_leads inside (viewStore_leads _)
  have step : (evaluate (.index base key) scope).Leads (.ofDepth depth) g
      (.ok (g.store.element items i.toInt.toNat)) g :=
    bind_leads slice (bind_leads place found)
  exact perform_leads step

end

end Eval

end SandboxedGo
