import SandboxedGo.Proofs.DeclaredVariables
import SandboxedGo.Proofs.SparingStatements

/-!
# The functions that the host lends

A run declares the functions of the program at the top level, then those of the host, and then the
variables and constants of the program, all in one scope where the last declaration of a name
counts.  A function of the host hides a function of the program, therefore, and is hidden by a
variable or a constant.  Nothing else takes its name away as long as no statement assigns to the
name.  Main statement: `lent_function_stands_iff`.
-/

set_option autoImplicit false

namespace SandboxedGo

open Source Eval

variable {name : String} {b : NamedCell} {scope : ScopeId} {v : Value} {m m' m'' : Machine}
  {ev : Evaluator} {names others : List String}

/-! ## The parts of a run -/

namespace Eval

/-- What comes first in a run: everything is declared but the variables and constants.  The `init`
functions. -/
def load (hostFunctions : List HostFunction) (p : Program) : Eval (List FuncDecl) := do
  if p.package ≠ "main" then error (.notMainPackage p.package)
  p.imports.forM importPackage
  p.decls.forM declareTypes
  let inits ← p.decls.filterMapM declareFunction
  lendFunctions 0 hostFunctions
  return inits

/-- What comes second: variables and constants get their values, and the `init` functions run. -/
def initialise (p : Program) (inits : List FuncDecl) : Eval Unit := do
  p.decls.forM declareValues
  inits.forM start

/-- What comes last. -/
def callMain : Eval Unit := do
  match ← viewStore (·.localVariable? globalScope "main") with
  | none => error .missingMain
  | some found =>
    let _ ← callFunction (← readCell found.cell) []

theorem program_eq (hostFunctions : List HostFunction) (p : Program) :
    program hostFunctions p = (do
      let inits ← load hostFunctions p
      initialise p inits
      callMain) := by
  unfold program load initialise
  by_cases isMain : p.package = "main"
  · simp only [isMain, ne_eq, not_true_eq_false, if_false, bind_assoc, pure_bind]
    rfl
  · simp only [isMain, ne_eq, not_false_eq_true, if_true, bind_assoc, pure_bind]
    rfl

end Eval

/-- A run whose first two parts end normally goes on with the call of `main`. -/
theorem runProgram_from {source : String} {p : Program} {options : RunOptions}
    {inits : List FuncDecl} {loaded started : Machine} {u : Unit}
    (loading : (load options.hostFunctions p).run
      (Evaluator.ofDepth (evaluationDepth source options.limits)) (Machine.initial options) =
        .ok inits loaded)
    (initialising : (initialise p inits).run
      (Evaluator.ofDepth (evaluationDepth source options.limits)) loaded = .ok u started) :
    runProgram source p options =
      callMain.run (Evaluator.ofDepth (evaluationDepth source options.limits)) started := by
  unfold runProgram runProgramTo
  rw [program_eq, bind_run_ok loading, bind_run_ok initialising]

/-! ## Declarations at the top level -/

/-- What the declaration of several names at the top level does: the variable of the binding keeps
its value, and its name gets another variable exactly if it is among them. -/
structure Machine.Declares (b : NamedCell) (names : List String) (m m' : Machine) : Prop where
  spares : m'.Spares b
  value : m'.store.cell b.cell = m.store.cell b.cell
  kept : b.name ∉ names →
    m'.store.localVariable? globalScope b.name = m.store.localVariable? globalScope b.name
  hidden : b.name ∈ names →
    ∃ v, m'.store.localVariable? globalScope b.name = some v ∧ v.cell ≠ b.cell

/-- A computation that, where it ends normally, declares names at the top level. -/
def Eval.Declares {α : Type} (b : NamedCell) (names : List String) (x : Eval α) : Prop :=
  ∀ ev : Evaluator, ev.Spares b → ∀ m m' : Machine, m.Spares b →
    ∀ a, x.run ev m = .ok a m' → m.Declares b names m'

theorem Machine.Keeps.declares (kept : m.Keeps b m') : m.Declares b [] m' where
  spares := kept.spares
  value := kept.value
  kept := fun _ => by
    unfold Store.localVariable? globalScope
    rw [kept.globals]
  hidden := nofun

theorem Machine.Declares.trans (first : m.Declares b names m') (second : m'.Declares b others m'') :
    m.Declares b (names ++ others) m'' where
  spares := second.spares
  value := second.value.trans first.value
  kept := fun other => by
    rw [List.mem_append, not_or] at other
    exact (second.kept other.2).trans (first.kept other.1)
  hidden := fun mem => by
    by_cases later : b.name ∈ others
    · exact second.hidden later
    · obtain ⟨v, is, other⟩ := first.hidden ((List.mem_append.mp mem).resolve_right later)
      exact ⟨v, (second.kept later).trans is, other⟩

namespace Eval

variable {α β : Type} {P : α → Prop} {x : Eval α} {f : α → Eval β}

theorem Declares.of_spares (spares : x.Spares b P) : Declares b [] x := by
  intro ev parts m m' before a ran
  have ended := spares ev parts m before
  rw [ran] at ended
  exact ended.1.declares

theorem Declares.bind (first : x.Spares b P) (rest : ∀ a, P a → Declares b names (f a)) :
    Declares b names (x >>= f) := by
  intro ev parts m m' before c ran
  obtain ⟨a, between, ran, later⟩ := bind_ok ran
  have ended := first ev parts m before
  rw [ran] at ended
  exact ended.1.declares.trans (rest a ended.2 ev parts between m' ended.1.spares c later)

theorem Declares.then (first : Declares b names x) (rest : ∀ a, Declares b others (f a)) :
    Declares b (names ++ others) (x >>= f) := by
  intro ev parts m m' before c ran
  obtain ⟨a, between, ran, later⟩ := bind_ok ran
  have declared := first ev parts m between before a ran
  exact declared.trans (rest a ev parts between m' declared.spares c later)

theorem Declares.forM {γ : Type} {f : γ → Eval Unit} {items : List γ} {names : γ → List String}
    (each : ∀ item ∈ items, Declares b (names item) (f item)) :
    Declares b (items.flatMap names) (items.forM f) := by
  induction items with
  | nil => exact .of_spares (P := fun _ => True) done_spares
  | cons item rest ih =>
      obtain ⟨first, others⟩ := List.forall_mem_cons.mp each
      exact .then first fun _ => ih others

theorem define_declares (known : b.name ≠ "_") (name : String) (width : Option IntWidth)
    (value : v.Spares b) : Declares b [name] (define globalScope name v width) := by
  intro ev parts m m' before u ran
  cases ran
  obtain ⟨later, same⟩ := before.store.define globalScope name width value
  have rooted : globalScope.index < m.store.scopes.size := before.store.rooted
  refine ⟨{ before with store := later }, same, fun other => ?_, fun mem => ?_⟩
  · rw [List.mem_singleton] at other
    by_cases blank : name = "_"
    · have same : m.store.define globalScope name v width = m.store := if_pos blank
      exact congrArg (Store.localVariable? · globalScope b.name) same
    · exact (Store.localVariable?_define blank rooted).trans (if_neg other)
  · obtain rfl := List.mem_singleton.mp mem
    refine ⟨_, (Store.localVariable?_define known rooted).trans (if_pos rfl), fun same => ?_⟩
    have bound := before.store.bound
    rw [← same] at bound
    exact Nat.lt_irrefl _ bound

theorem defineEach_declares (known : b.name ≠ "_") (ty : Option TypeExpr) (width : Option IntWidth)
    {names : List String} {values : List Value} (spare : AllSpare b values)
    (enough : values.length = names.length) :
    Declares b names (defineEach globalScope ty width names values) := by
  induction names generalizing values with
  | nil => exact .of_spares (P := fun _ => True) done_spares
  | cons name names ih =>
      cases values with
      | nil => cases enough
      | cons v values =>
          obtain ⟨value, more⟩ := List.forall_mem_cons.mp spare
          have defined {v : Value} (value : v.Spares b) : Declares b (name :: names) (do
              define globalScope name v width
              defineEach globalScope ty width names values) :=
            .then (define_declares known name width value) fun _ =>
              ih more (Nat.succ.inj enough)
          refine .bind (copied_spares value) fun v value => ?_
          cases ty with
          | none => exact defined value
          | some ty => exact .bind (adapt_spares ty value) fun _ value => defined value

theorem declare_declares (known : b.name ≠ "_") {spec : ValueSpec}
    (spares : spec.spares b.name = true) (isConstant : Bool) :
    Declares b spec.names (declare spec isConstant globalScope) := by
  rw [declare_eq]
  exact .bind (setLine_spares _) fun _ _ =>
    .bind (declaredValues_spares spares isConstant globalScope) fun values known' =>
      .bind (declaredWidth_spares spec) fun width _ =>
        defineEach_declares known _ width known'.1 known'.2

theorem declareValues_declares (known : b.name ≠ "_") {d : Decl} (spares : d.spares b.name = true) :
    Declares b d.valueNames (declareValues d) := by
  cases d with
  | var specs =>
      exact .forM fun spec mem => declare_declares known (List.all_eq_true.mp spares spec mem) false
  | const specs =>
      exact .forM fun spec mem => declare_declares known (List.all_eq_true.mp spares spec mem) true
  | func decl => exact .of_spares (P := fun _ => True) done_spares
  | types specs => exact .of_spares (P := fun _ => True) done_spares

theorem start_spares {decl : FuncDecl} (spares : decl.function.spares b.name = true) :
    (start decl).Spares b fun _ => True := by
  have callee : (Value.func (.closure decl.name decl.function globalScope)).Spares b := spares
  exact then_spares (setLine_spares _) fun _ =>
    bind_spares (callFunction_spares callee nofun) fun _ _ => done_spares

/-- All that happens between the lending of functions and the call of `main`. -/
theorem initialise_declares (known : b.name ≠ "_") {p : Program} (spares : p.spares b.name = true)
    {inits : List FuncDecl} (calls : ∀ decl ∈ inits, decl.function.spares b.name = true) :
    Declares b p.valueNames (initialise p inits) := by
  have declared : Declares b p.valueNames (p.decls.forM declareValues) :=
    .forM fun d mem => declareValues_declares known (List.all_eq_true.mp spares d mem)
  have started : Declares b [] (inits.forM start) :=
    .of_spares (forM_spares fun decl mem => start_spares (calls decl mem))
  rw [← List.append_nil p.valueNames]
  exact .then declared fun _ => started

end Eval

/-! ## Loading -/

/-- A machine that functions have not been lent to yet: there is no pointer to a variable, and no
function of the program assigns to the name or points to it. -/
structure Machine.Loading (name : String) (m : Machine) : Prop where
  rooted : 0 < m.store.scopes.size
  holds {h : Holder} {v : Value} : m.store.HoldsAt h v → ∀ c, v.Spares ⟨name, c⟩
  bound {i : Nat} {found : Scope} {other : String} {v : Variable} :
    m.store.scopes[i]? = some found → found.declared.lookup other = some v →
      v.cell.index < m.store.cells.size
  methods : ∀ entry ∈ m.methods, entry.2.function.spares name = true
  deferred : m.deferred = []
  panicking : m.panicking = none

theorem Machine.initial_loading (name : String) (options : RunOptions) :
    (Machine.initial options).Loading name where
  rooted := Nat.one_pos
  holds := fun held => by
    cases held with
    | cell is => simp [initial, Store.newScope] at is
    | field stored => simp [initial, Store.newScope] at stored
    | element stored => simp [initial, Store.newScope] at stored
    | entry stored => simp [initial, Store.newScope] at stored
  bound := fun {i found _ _} stored declared => by
    have only : #[({} : Scope)][i]? = some found := stored
    rw [Array.getElem?_singleton] at only
    split at only
    · cases only
      cases declared
    · cases only
  methods := nofun
  deferred := rfl
  panicking := rfl

theorem Machine.Loading.define (loading : m.Loading name) (other : String)
    (width : Option IntWidth) (value : ∀ c, v.Spares ⟨name, c⟩) :
    Machine.Loading name { m with store := m.store.define scope other v width } := by
  by_cases blank : other = "_"
  · have same : m.store.define scope other v width = m.store := if_pos blank
    rw [same]
    exact loading
  · rw [Store.define_named blank]
    refine { loading with rooted := ?_, holds := fun held => ?_, bound := fun stored is => ?_ }
    · rw [Array.size_modify]
      exact loading.rooted
    · rcases Store.holdsAt_pushCell held with before | ⟨-, rfl⟩
      · exact loading.holds before
      · exact value
    · rw [Array.size_push]
      rw [Array.getElem?_modify] at stored
      split at stored
      · obtain ⟨before, was, rfl⟩ := Option.map_eq_some_iff.mp stored
        rw [Table.lookup_putEntry] at is
        split at is
        · cases is
          exact Nat.lt_succ_self _
        · exact Nat.lt_succ_of_lt (loading.bound was is)
      · exact Nat.lt_succ_of_lt (loading.bound stored is)

/-- The first variable that nothing else leads to: the one in the next cell. -/
theorem Machine.Loading.lend (loading : m.Loading name) (known : name ≠ "_")
    (width : Option IntWidth) (value : ∀ c, v.Spares ⟨name, c⟩) :
    Machine.Spares ⟨name, ⟨m.store.cells.size⟩⟩
      { m with store := m.store.define globalScope name v width } := by
  rw [Store.define_named known]
  refine ⟨⟨?_, ?_, fun held => ?_, fun stored is same => ?_⟩, loading.methods, ?_, ?_⟩
  · simp
  · rw [Array.size_modify]
    exact loading.rooted
  · rcases Store.holdsAt_pushCell held with before | ⟨-, rfl⟩
    · exact loading.holds before _
    · exact value _
  · have older {u : Variable} (bound : u.cell.index < m.store.cells.size) :
        u.cell ≠ ⟨m.store.cells.size⟩ := by
      intro same
      rw [same] at bound
      exact Nat.lt_irrefl _ bound
    rw [Array.getElem?_modify] at stored
    split at stored
    · rename_i isGlobal
      obtain ⟨before, was, rfl⟩ := Option.map_eq_some_iff.mp stored
      rw [Table.lookup_putEntry] at is
      split at is
      · rename_i isName
        exact ⟨isGlobal.symm, isName⟩
      · exact absurd same (older (loading.bound was is))
    · exact absurd same (older (loading.bound stored is))
  · rw [loading.deferred]
    exact nofun
  · rw [loading.panicking]
    exact nofun

namespace Eval

variable {α β : Type} {P : α → Prop} {R : β → Prop} {x : Eval α} {f : α → Eval β}

/-- A computation that keeps a machine ready to be lent functions, where it ends normally. -/
def Loads {α : Type} (name : String) (P : α → Prop) (x : Eval α) : Prop :=
  ∀ ev : Evaluator, ∀ m m' : Machine, m.Loading name →
    ∀ a, x.run ev m = .ok a m' → m'.Loading name ∧ P a

theorem Loads.pure {a : α} (result : P a) : Loads name P (pure a : Eval α) := by
  intro ev m m' loading c ran
  cases ran
  exact ⟨loading, result⟩

theorem Loads.error (cause : RuntimeError) : Loads name P (error cause : Eval α) := by
  intro ev m m' loading c ran
  cases ran

theorem Loads.bind (first : Loads name P x) (rest : ∀ a, P a → Loads name R (f a)) :
    Loads name R (x >>= f) := by
  intro ev m m' loading c ran
  obtain ⟨a, between, ran, later⟩ := bind_ok ran
  obtain ⟨loading, result⟩ := first ev m between loading a ran
  exact rest a result ev between m' loading c later

theorem Loads.forM {γ : Type} {f : γ → Eval Unit} {items : List γ}
    (each : ∀ item ∈ items, Loads name (fun _ => True) (f item)) :
    Loads name (fun _ => True) (items.forM f) := by
  induction items with
  | nil => exact .pure trivial
  | cons item rest ih =>
      obtain ⟨first, others⟩ := List.forall_mem_cons.mp each
      exact .bind first fun _ _ => ih others

theorem Loads.filterMapM {γ : Type} {f : γ → Eval (Option α)} {items : List γ}
    (each : ∀ item ∈ items, Loads name (fun found => ∀ a ∈ found, P a) (f item)) :
    Loads name (fun found => ∀ a ∈ found, P a) (items.filterMapM f) := by
  induction items with
  | nil => exact .pure nofun
  | cons item rest ih =>
      obtain ⟨first, others⟩ := List.forall_mem_cons.mp each
      rw [List.filterMapM_cons]
      refine .bind first fun found known => ?_
      cases found with
      | none => exact ih others
      | some a =>
          exact .bind (ih others) fun _ more =>
            .pure (List.forall_mem_cons.mpr ⟨known a rfl, more⟩)

theorem loads_beside {g : Guest → α × Guest} (store : ∀ w, (g w).2.store = w.store)
    (methods : ∀ w, (g w).2.methods = w.methods) : Loads name (fun _ => True) (onGuest g) := by
  intro ev m m' loading c ran
  cases ran
  refine ⟨?_, trivial⟩
  obtain ⟨rooted, holds, bound, spares, deferred, panicking⟩ := loading
  rw [← store m.toGuest] at rooted holds bound
  rw [← methods m.toGuest] at spares
  exact ⟨rooted, holds, bound, spares, deferred, panicking⟩

theorem importPackage_loads (i : Import) : Loads name (fun _ => True) (importPackage i) := by
  unfold importPackage
  split
  · exact .error _
  · dsimp only
    split
    · exact .pure trivial
    · split
      · exact .bind (P := fun _ => True) (.error _) fun _ _ =>
          loads_beside (fun _ => rfl) fun _ => rfl
      · exact loads_beside (fun _ => rfl) fun _ => rfl

theorem declareTypes_loads (d : Decl) : Loads name (fun _ => True) (declareTypes d) := by
  have declared (spec : TypeSpec) : Loads name (fun _ => True) (declareType spec) := by
    have put (decl : TypeDecl) : Loads name (fun _ => True)
        (changeGuest fun g => { g with types := g.types.put spec.name decl }) :=
      loads_beside (fun _ => rfl) fun _ => rfl
    unfold declareType
    split
    · rename_i fields _
      have fresh : Loads name (fun _ => True) (freshStructDef spec.name fields) :=
        .bind (loads_beside (fun _ => rfl) fun _ => rfl) fun _ _ => .pure trivial
      exact .bind fresh fun _ _ => .bind (P := fun _ => True) (.pure trivial) fun _ _ => put _
    · exact .bind (P := fun _ => True) (.pure trivial) fun _ _ => put _
  unfold declareTypes
  split
  · exact .forM fun spec _ => declared spec
  · exact .pure trivial

theorem define_loads (other : String) (width : Option IntWidth)
    (value : ∀ c, v.Spares ⟨name, c⟩) :
    Loads name (fun _ => True) (define scope other v width) := by
  intro ev m m' loading c ran
  cases ran
  exact ⟨loading.define other width value, trivial⟩

theorem declareMethod_loads (type : String) {decl : FuncDecl}
    (spares : decl.function.spares name = true) :
    Loads name (fun _ => True) (declareMethod type decl) := by
  intro ev m m' loading c ran
  cases ran
  have kept : ∀ entry ∈ m.methods.filter (·.1 ≠ (type, decl.name)),
      entry.2.function.spares name = true :=
    fun entry mem => loading.methods entry (List.mem_filter.mp mem).1
  exact ⟨{ loading with methods := List.forall_mem_cons.mpr ⟨spares, kept⟩ }, trivial⟩

theorem declareFunction_loads {d : Decl} (spares : d.spares name = true) :
    Loads name (fun found => ∀ decl ∈ found, decl.function.spares name = true)
      (declareFunction d) := by
  unfold declareFunction
  split
  · rename_i decl
    have function : decl.function.spares name = true := spares
    split
    · exact .bind (declareMethod_loads _ function) fun _ _ => .pure nofun
    · split
      · exact .pure fun found is => Option.some.inj is ▸ function
      · exact .bind (define_loads _ none fun _ => function) fun _ _ => .pure nofun
  · exact .pure nofun

end Eval

/-! ## Lending -/

/-- A function of the host stands under its name: in a variable that is reached by the name
alone. -/
structure Machine.Lent (f : HostFunction) (place : Nat) (v : Variable) (m : Machine) : Prop where
  spares : m.Spares ⟨f.name, v.cell⟩
  found : m.store.localVariable? globalScope f.name = some v
  held : m.store.cell v.cell = .func (.host f.name place)

namespace Eval

theorem lendFunctions_declares (known : b.name ≠ "_") (place : Nat) (fs : List HostFunction) :
    Declares b (fs.map (·.name)) (lendFunctions place fs) := by
  induction fs generalizing place with
  | nil => exact .of_spares (P := fun _ => True) done_spares
  | cons f rest ih =>
      exact .then (define_declares (v := .func (.host f.name place)) known f.name none trivial)
        fun _ => ih (place + 1)

theorem lendFunctions_lends {before after : List HostFunction} {f : HostFunction} {place : Nat}
    (parts : ∀ b, ev.Spares b) (named : f.name ≠ "_") (last : ∀ g ∈ after, g.name ≠ f.name)
    (loading : m.Loading f.name) {u : Unit}
    (ran : (lendFunctions place (before ++ f :: after)).run ev m = .ok u m') :
    ∃ v, m'.Lent f (place + before.length) v := by
  induction before generalizing place m with
  | nil =>
      obtain ⟨_, between, defined, others⟩ := bind_ok ran
      cases defined
      have lent := loading.lend (v := .func (.host f.name place)) named none fun _ => trivial
      have later := lendFunctions_declares named (place + 1) after ev (parts _) _ m' lent _ others
      have absent : f.name ∉ after.map (·.name) := by
        intro mem
        obtain ⟨g, isIn, same⟩ := List.mem_map.mp mem
        exact last g isIn same
      refine ⟨⟨⟨m.store.cells.size⟩, none⟩, later.spares, ?_, ?_⟩
      · refine (later.kept absent).trans ?_
        exact (Store.localVariable?_define named loading.rooted).trans (if_pos rfl)
      · refine later.value.trans ?_
        show (Store.define globalScope _ _ _ _).cell _ = _
        rw [Store.define_named named]
        simp [Store.cell]
  | cons g before ih =>
      obtain ⟨_, between, defined, others⟩ := bind_ok ran
      have ready := define_loads (v := .func (.host g.name place)) g.name none (fun _ => trivial)
        ev m between loading _ defined
      obtain ⟨v, lent⟩ := ih ready.1 others
      refine ⟨v, ?_⟩
      rwa [List.length_cons, Nat.add_comm before.length, ← Nat.add_assoc]

theorem load_lends {before after : List HostFunction} {f : HostFunction} {p : Program}
    (parts : ∀ b, ev.Spares b) (named : f.name ≠ "_") (last : ∀ g ∈ after, g.name ≠ f.name)
    (spares : p.spares f.name = true) (loading : m.Loading f.name) {inits : List FuncDecl}
    (ran : (load (before ++ f :: after) p).run ev m = .ok inits m') :
    (∀ decl ∈ inits, decl.function.spares f.name = true) ∧ ∃ v, m'.Lent f before.length v := by
  -- What is done before functions are lent.
  have declared : Loads f.name (fun inits => ∀ decl ∈ inits, decl.function.spares f.name = true)
      (p.decls.filterMapM declareFunction) :=
    .filterMapM fun d mem => declareFunction_loads (List.all_eq_true.mp spares d mem)
  have imported : Loads f.name (fun _ => True) (p.imports.forM importPackage) :=
    .forM fun i _ => importPackage_loads i
  have typed : Loads f.name (fun _ => True) (p.decls.forM declareTypes) :=
    .forM fun d _ => declareTypes_loads d
  unfold load at ran
  split at ran
  · cases ran
  · obtain ⟨_, m₁, first, ran⟩ := bind_ok ran
    obtain ⟨_, m₂, second, ran⟩ := bind_ok ran
    obtain ⟨found, m₃, third, ran⟩ := bind_ok ran
    obtain ⟨_, m₄, fourth, ran⟩ := bind_ok ran
    obtain ⟨rfl, rfl⟩ := pure_ok ran
    have ready₁ := imported ev m m₁ loading _ first
    have ready₂ := typed ev m₁ m₂ ready₁.1 _ second
    have ready₃ := declared ev m₂ m₃ ready₂.1 _ third
    refine ⟨ready₃.2, ?_⟩
    have lent := lendFunctions_lends parts named last ready₃.1 fourth
    rwa [Nat.zero_add] at lent

end Eval

theorem Store.resolve?_global (s : Store) (name : String) :
    s.resolve? globalScope name = s.localVariable? globalScope name := by
  unfold Store.resolve? Store.localVariable? globalScope
  cases s.scopes[(0 : Nat)]? with
  | none => rfl
  | some found =>
      dsimp only
      show _ = found.declared.lookup name
      cases found.declared.lookup name with
      | some v => rfl
      | none => cases found.parent <;> simp

/-- A program whose statements do not assign to the name of a function of the host begins its `main`
with the name standing for the variable of this function, the last one of the name, which still
holds it, exactly if the program declares no variable and no constant of the name. -/
theorem lent_function_stands_iff (source : String) (p : Program) (options : RunOptions)
    (before after : List HostFunction) (f : HostFunction)
    (lent : options.hostFunctions = before ++ f :: after) (last : ∀ g ∈ after, g.name ≠ f.name)
    (named : f.name ≠ "_") (spares : p.spares f.name = true) (inits : List FuncDecl)
    (loaded started : Machine)
    (loading : (load options.hostFunctions p).run
      (Evaluator.ofDepth (evaluationDepth source options.limits)) (Machine.initial options) =
        .ok inits loaded)
    (initialising : (initialise p inits).run
      (Evaluator.ofDepth (evaluationDepth source options.limits)) loaded = .ok () started) :
    runProgram source p options =
        callMain.run (Evaluator.ofDepth (evaluationDepth source options.limits)) started ∧
      ∃ v, loaded.store.resolve? globalScope f.name = some v ∧
        started.store.cell v.cell = .func (.host f.name before.length) ∧
        (started.store.resolve? globalScope f.name = some v ↔ f.name ∉ p.valueNames) := by
  refine ⟨runProgram_from loading initialising, ?_⟩
  have parts (b : NamedCell) := Evaluator.ofDepth_spares b (evaluationDepth source options.limits)
  rw [lent] at loading
  obtain ⟨calls, v, stands⟩ :=
    load_lends parts named last spares (Machine.initial_loading f.name options) loading
  have declared : loaded.Declares ⟨f.name, v.cell⟩ p.valueNames started :=
    initialise_declares named spares calls _ (parts _) loaded started stands.spares () initialising
  simp only [Store.resolve?_global]
  refine ⟨v, stands.found, declared.value.trans stands.held, fun is mem => ?_, fun other => ?_⟩
  · obtain ⟨u, found, different⟩ := declared.hidden mem
    exact different (congrArg Variable.cell (Option.some.inj (found.symm.trans is)))
  · exact (declared.kept other).trans stands.found

/-- A function of the host that answers with a number. -/
def answering (n : Int) : HostFunction := ⟨"host", fun _ _ => ⟨.value (.int n), false⟩⟩

/-- A host that lends two functions of one name. -/
def lending : RunOptions where
  hostFunctions := [answering 7, answering 8]

/-- A program with declarations beside its `main`. -/
def declaring (decls : List Decl) : Program where
  package := "main"
  imports := []
  decls := decls ++ [.func ⟨3, "main", none, .mk [] [] false []⟩]

/-- Whether a computation has ended with a value. -/
def ranNormally {α : Type} : EStateM.Result Stop Machine α → Bool
  | .ok _ _ => true
  | .error _ _ => false

theorem exists_of_ranNormally {α : Type} {r : EStateM.Result Stop Machine α}
    (normally : ranNormally r = true) : ∃ a m, r = .ok a m := by
  cases r with
  | ok a m => exact ⟨a, m, rfl⟩
  | error stop m => cases normally

/-- A function of the program and the first function of the host give way to the second one. -/
theorem lent_function_stands_iff_function :
    let p := declaring [.var [.mk 1 ["other"] none [.int 5] 0],
      .func ⟨2, "host", none, .mk [] [] false []⟩]
    p.spares "host" = true ∧ "host" ∉ p.valueNames ∧ ∃ (started : Machine) (v : Variable),
      runProgram "" p lending =
        callMain.run (Evaluator.ofDepth (evaluationDepth "" lending.limits)) started ∧
      started.store.resolve? globalScope "host" = some v ∧
      started.store.cell v.cell = .func (.host "host" 1) := by
  intro p
  have ends : ranNormally (((load lending.hostFunctions p >>= initialise p).run
      (Evaluator.ofDepth (evaluationDepth "" lending.limits))) (Machine.initial lending)) = true := by
    decide +kernel
  obtain ⟨_, started, ran⟩ := exists_of_ranNormally ends
  obtain ⟨inits, loaded, loading, initialising⟩ := bind_ok ran
  obtain ⟨runs, v, -, held, stands⟩ := lent_function_stands_iff "" p lending [answering 7] []
    (answering 8) rfl nofun (by decide) (by decide) inits loaded started loading initialising
  exact ⟨by decide, by decide, started, v, runs, stands.mpr (by decide), held⟩

/-- A variable of the program takes the place of both. -/
theorem declared_variable_stands :
    let p := declaring [.var [.mk 1 ["host"] none [.int 5] 0]]
    p.spares "host" = true ∧ ∃ (started : Machine) (v : Variable),
      runProgram "" p lending =
        callMain.run (Evaluator.ofDepth (evaluationDepth "" lending.limits)) started ∧
      started.store.resolve? globalScope "host" = some v ∧
      started.store.cell v.cell = .int 5 :=
  ⟨by decide, _, _, runProgram_from rfl rfl, (Store.resolve?_global _ _).trans rfl, rfl⟩

end SandboxedGo
