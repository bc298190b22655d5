import SandboxedGo.Eval.DynamicType
import SandboxedGo.Proofs.Following
import SandboxedGo.Proofs.SparedVariables
import SandboxedGo.Run

/-!
# Computations that leave a variable alone

A computation spares a binding if it leaves the variable, the top-level declarations and everything
that could come to refer to the variable as they should be, and its result has a property.  The
rules follow the ways in which computations are put together; those for basic computations and for
reading values stand here, those for the parts of evaluation in the modules behind.
-/

set_option autoImplicit false

namespace SandboxedGo

open Source

/-! ## Machines -/

/-- A call that is put off and contains nothing that refers to the variable. -/
def Deferred.Spares (b : NamedCell) (d : Deferred) : Prop :=
  d.function.Spares b ∧ AllSpare b d.arguments

/-- A machine in which the variable of a binding is reached by its name alone. -/
structure Machine.Spares (b : NamedCell) (m : Machine) : Prop where
  store : m.store.Spares b
  methods : ∀ entry ∈ m.methods, entry.2.function.spares b.name = true
  deferred : ∀ frame ∈ m.deferred, ∀ d ∈ frame, d.Spares b
  panicking : ∀ v ∈ m.panicking, v.Spares b

/-- What was done to a machine left the variable and the top-level declarations as they were. -/
structure Machine.Keeps (b : NamedCell) (m m' : Machine) : Prop where
  spares : m'.Spares b
  globals : m'.store.scopes[0]? = m.store.scopes[0]?
  value : m'.store.cell b.cell = m.store.cell b.cell

/-- A return carries no pointer to the variable. -/
def Signal.Spares (b : NamedCell) : Signal → Prop
  | .return v => v.Spares b
  | _ => True

/-- A way for a computation to end: what it ends with refers to the variable in no way. -/
def EndSpares {α : Type} (b : NamedCell) (P : α → Prop) : Except Signal α → Prop
  | .ok a => P a
  | .error s => s.Spares b

/-- The same of the end of an action on a machine; after a halt nothing goes on. -/
def ResultSpares {α : Type} (b : NamedCell) (P : α → Prop) (m : Machine) :
    EStateM.Result Stop Machine α → Prop
  | .ok a m' => m.Keeps b m' ∧ P a
  | .error (.signal s) m' => m.Keeps b m' ∧ s.Spares b
  | .error (.halt _) _ => True

def Action.Spares {α : Type} (b : NamedCell) (P : α → Prop) (x : Action α) : Prop :=
  ∀ m : Machine, m.Spares b → ResultSpares b P m (x m)

/-- Work that does not ask for a change of the variable.  Statements are executed in inner
scopes only. -/
def Work.Spares (b : NamedCell) : Work → Prop
  | .evaluate e _ => e.spares b.name = true
  | .execute s scope => s.spares b.name = true ∧ scope ≠ globalScope
  | .call function arguments _ => function.Spares b ∧ AllSpare b arguments
  | .render v | .directive _ v _ => v.Spares b

/-- An evaluator that spares the binding when it does such work. -/
def Evaluator.Spares (b : NamedCell) (ev : Evaluator) : Prop :=
  ∀ w : Work, w.Spares b → Action.Spares b (Value.Spares b) (ev.perform w)

/-- The value that a body has returned, if it has. -/
abbrev ReturnedSpares (b : NamedCell) (returned : Option Value) : Prop :=
  ∀ v ∈ returned, v.Spares b

/-- A way for a body to end. -/
abbrev BodySpares (b : NamedCell) : Ending → Prop := EndSpares b (ReturnedSpares b)

/-- A computation that spares the binding, and whose result has a property. -/
def Computation.Spares {jumps : Bool} {α : Type} (b : NamedCell) (P : α → Prop)
    (x : Computation jumps α) : Prop :=
  ∀ ev : Evaluator, ev.Spares b → Action.Spares b P (x.run ev)

variable {b : NamedCell} {α β : Type} {P Q : α → Prop} {R : β → Prop} {m m' m'' : Machine}

theorem Machine.Spares.keeps (spares : m.Spares b) : m.Keeps b m := ⟨spares, rfl, rfl⟩

theorem Machine.Keeps.trans (first : m.Keeps b m') (second : m'.Keeps b m'') : m.Keeps b m'' :=
  ⟨second.spares, second.globals.trans first.globals, second.value.trans first.value⟩

theorem Machine.Spares.congr (spares : m.Spares b) (guest : m'.toGuest = m.toGuest)
    (deferred : m'.deferred = m.deferred) (panicking : m'.panicking = m.panicking) :
    m.Keeps b m' where
  spares :=
    { store := by rw [guest]; exact spares.store
      methods := by rw [guest]; exact spares.methods
      deferred := by rw [deferred]; exact spares.deferred
      panicking := by rw [panicking]; exact spares.panicking }
  globals := by rw [guest]
  value := by rw [guest]

theorem Machine.Spares.changed (spares : m.Spares b) {g : Guest}
    (kept : m.store.Keeps b g.store) (methods : g.methods = m.methods) :
    m.Keeps b { m with toGuest := g } where
  spares :=
    { store := kept.spares
      methods := fun entry mem => spares.methods entry (methods ▸ mem)
      deferred := spares.deferred
      panicking := spares.panicking }
  globals := kept.globals
  value := kept.value

/-- A method of the program spares the binding like all of its functions. -/
theorem Machine.Spares.method? (spares : m.Spares b) {type name : String} {decl : FuncDecl}
    (is : m.toGuest.method? type name = some decl) : decl.function.spares b.name = true := by
  obtain ⟨before, after, split, -⟩ := List.lookup_eq_some_iff.mp is
  exact spares.methods _ (by rw [split]; exact List.mem_append_right before List.mem_cons_self)

theorem Machine.Spares.methodOf? (spares : m.Spares b) {v : Value} {name : String} {decl : FuncDecl}
    (is : m.toGuest.methodOf? v name = some decl) : decl.function.spares b.name = true := by
  obtain ⟨type, -, is⟩ := Option.bind_eq_some_iff.mp is
  exact spares.method? is

theorem ResultSpares.imp {r : EStateM.Result Stop Machine α} (spares : ResultSpares b P m r)
    (weaker : ∀ a, P a → Q a) : ResultSpares b Q m r := by
  cases r with
  | ok a after => exact ⟨spares.1, weaker a spares.2⟩
  | error stop after => cases stop <;> exact spares

theorem ResultSpares.after {r : EStateM.Result Stop Machine α} (first : m.Keeps b m')
    (spares : ResultSpares b P m' r) : ResultSpares b P m r := by
  cases r with
  | ok a after => exact ⟨first.trans spares.1, spares.2⟩
  | error stop after =>
      cases stop with
      | signal s => exact ⟨first.trans spares.1, spares.2⟩
      | halt h => trivial

/-! ## Actions -/

namespace Action

variable {x : Action α}

theorem bind_spares {f : α → Action β} (first : Action.Spares b P x)
    (rest : ∀ a, P a → Action.Spares b R (f a)) : Action.Spares b R (EStateM.bind x f) := by
  intro m spares
  have ended := first m spares
  unfold EStateM.bind
  cases ran : x m with
  | ok a between =>
      rw [ran] at ended
      exact (rest a ended.2 between ended.1.spares).after ended.1
  | error stop between =>
      rw [ran] at ended
      cases stop <;> exact ended

theorem outcome_spares (inner : Action.Spares b P x) :
    Action.Spares b (EndSpares b P) (Action.outcome x) := by
  intro m spares
  have ended := inner m spares
  unfold Action.outcome
  cases ran : x m with
  | ok a after =>
      rw [ran] at ended
      exact ended
  | error stop after =>
      rw [ran] at ended
      cases stop <;> exact ended

theorem iterate_spares {σ : Type} {I : σ → Prop} {round : σ → Action (Option σ)}
    (inner : ∀ s, I s → Action.Spares b (fun next => ∀ s ∈ next, I s) (round s)) :
    ∀ (rounds : Nat) (s : σ), I s →
      Action.Spares b (fun _ => True) (Action.iterate round rounds s) := by
  intro rounds
  induction rounds with
  | zero => exact fun _ _ _ _ => trivial
  | succ rounds ih =>
      intro s inv m spares
      have ended := inner s inv m spares
      unfold Action.iterate
      cases ran : round s m with
      | ok next after =>
          rw [ran] at ended
          cases next with
          | none => exact ⟨ended.1, trivial⟩
          | some next => exact (ih next (ended.2 next rfl) after ended.1.spares).after ended.1
      | error stop after =>
          rw [ran] at ended
          cases stop <;> exact ended

theorem begin_spares {ev : Evaluator} (parts : ev.Spares b) {w : Work} (spares : w.Spares b) :
    Action.Spares b (Value.Spares b) (Action.begin_ ev.perform w) := by
  intro m before
  have working : m.Keeps b m.working := before.congr rfl rfl rfl
  exact (parts w spares m.working working.spares).after working

theorem checkStop_spares : Action.Spares b (fun _ => True) Action.checkStop := by
  intro m spares
  unfold Action.checkStop
  split
  · trivial
  · exact ⟨spares.keeps, trivial⟩

theorem tick_spares : Action.Spares b (fun _ => True) Action.tick := by
  intro m spares
  have stepped : m.Keeps b m.stepped := spares.congr rfl rfl rfl
  refine ResultSpares.after stepped ?_
  unfold Action.tick Action.checkBudget
  split
  · split
    · trivial
    · exact checkStop_spares _ stepped.spares
  · exact checkStop_spares _ stepped.spares

theorem paid_spares {ready : Action α} {act : α → Action β} (first : Action.Spares b P ready)
    (rest : ∀ a, P a → Action.Spares b R (act a)) : Action.Spares b R (Action.paid ready act) :=
  bind_spares tick_spares fun _ _ => bind_spares first rest

theorem takeOutcome_spares (reply : HostOutcome) :
    Action.Spares b (fun _ => True) (Action.takeOutcome reply) := by
  intro m spares
  unfold Action.takeOutcome
  split
  · trivial
  · split
    · trivial
    · exact ⟨spares.keeps, trivial⟩
  · split
    · trivial
    · exact ⟨spares.keeps, trivial⟩

theorem askHost_spares (name : String) (place : Nat) (arguments : List Json) :
    Action.Spares b (fun _ => True) (Action.askHost name place arguments) := by
  intro m spares
  unfold Action.askHost
  split
  · exact ⟨spares.keeps, trivial⟩
  · rename_i f stored
    have asked : m.Keeps b (m.replied ⟨name, arguments⟩ (f.respond m.hostCalls arguments)) :=
      spares.congr rfl rfl rfl
    exact (takeOutcome_spares _ _ asked.spares).after asked

theorem closing_spares {give : α → Machine → β} {close : Machine → Machine} {opened : Machine}
    (opening : m.Keeps b opened) (inner : ResultSpares b P opened (x opened))
    (closed : ∀ m' : Machine, m'.Spares b → m'.Keeps b (close m'))
    (given : ∀ a, ∀ m' : Machine, m'.Spares b → P a → R (give a m')) :
    ResultSpares b R m (Action.closing give close x opened) := by
  unfold Action.closing
  cases ran : x opened with
  | ok a after =>
      rw [ran] at inner
      have spares := inner.1.spares
      exact ⟨(opening.trans inner.1).trans (closed after spares), given a after spares inner.2⟩
  | error stop after =>
      rw [ran] at inner
      cases stop with
      | signal s => exact ⟨(opening.trans inner.1).trans (closed after inner.1.spares), inner.2⟩
      | halt h => trivial

theorem deeper_spares (inner : Action.Spares b P x) : Action.Spares b P (Action.deeper x) := by
  intro m spares
  have opening : m.Keeps b m.deeper := spares.congr rfl rfl rfl
  exact closing_spares opening (inner _ opening.spares) (fun _ spares => spares.congr rfl rfl rfl)
    fun _ _ _ result => result

theorem framed_spares (inner : Action.Spares b P x) :
    Action.Spares b (fun result => P result.1 ∧ ∀ d ∈ result.2, d.Spares b)
      (Action.framed x) := by
  intro m spares
  have opening : m.Keeps b m.framed :=
    ⟨{ spares with deferred := List.forall_mem_cons.mpr ⟨nofun, spares.deferred⟩ }, rfl, rfl⟩
  refine closing_spares opening (inner _ opening.spares) (fun m' spares => ?_)
    fun a m' spares result => ⟨result, fun d mem => ?_⟩
  · exact ⟨{ spares with
      deferred := fun frame mem => spares.deferred frame (List.mem_of_mem_tail mem) }, rfl, rfl⟩
  · unfold Machine.innermost at mem
    cases frames : m'.deferred with
    | nil =>
        rw [frames] at mem
        cases mem
    | cons frame rest =>
        rw [frames] at mem
        exact spares.deferred frame (by rw [frames]; exact List.mem_cons_self) d mem

theorem keepingPanic_spares (inner : Action.Spares b P x) :
    Action.Spares b P (Action.keepingPanic x) := by
  intro m spares
  refine closing_spares spares.keeps (inner m spares) (fun m' after => ?_)
    fun _ _ _ result => result
  exact ⟨{ after with panicking := spares.panicking }, rfl, rfl⟩

theorem putOff_spares {function : Value} {arguments : List Value} (callee : function.Spares b)
    (spare : AllSpare b arguments) :
    Action.Spares b (fun _ => True) (Action.putOff function arguments) := by
  intro m spares
  unfold Action.putOff
  split
  · rename_i frame frames is
    have deferred := spares.deferred
    rw [is, List.forall_mem_cons] at deferred
    exact ⟨⟨{ spares with
      deferred := List.forall_mem_cons.mpr
        ⟨List.forall_mem_cons.mpr ⟨⟨callee, spare⟩, deferred.1⟩, deferred.2⟩ }, rfl, rfl⟩, trivial⟩
  · exact ⟨spares.keeps, trivial⟩

theorem checkDepth_spares : Action.Spares b (fun _ => True) Action.checkDepth := by
  intro m spares
  unfold Action.checkDepth
  split
  · trivial
  · exact ⟨spares.keeps, trivial⟩

theorem undertake_spares (u : Undertaking) :
    Action.Spares b (fun _ => True) (Action.undertake u) :=
  fun _ spares => ⟨spares.congr rfl rfl rfl, trivial⟩

theorem recover_spares : Action.Spares b (Value.Spares b) Action.recover := by
  intro m spares
  refine ⟨⟨{ spares with panicking := nofun }, rfl, rfl⟩, ?_⟩
  cases is : m.panicking with
  | none => exact trivial
  | some v => exact spares.panicking v is

theorem setPanicking_spares (panic : Option Panic) :
    Action.Spares b (fun _ => True) (Action.setPanicking (panic.map Panic.toValue)) := by
  intro m spares
  have text : ∀ v ∈ panic.map Panic.toValue, v.Spares b := by
    intro v is
    obtain ⟨cause, -, rfl⟩ := Option.map_eq_some_iff.mp is
    exact trivial
  exact ⟨⟨{ spares with panicking := text }, rfl, rfl⟩, trivial⟩

theorem deferredCall_spares {call : Action Value} (inner : Action.Spares b (Value.Spares b) call)
    {ended : Ending} (before : BodySpares b ended) :
    Action.Spares b (BodySpares b) (Action.deferredCall call ended) := by
  unfold Action.deferredCall
  refine bind_spares (setPanicking_spares ended.panic?) fun _ _ =>
    bind_spares (outcome_spares inner) fun made known => ?_
  refine bind_spares (P := fun _ => True) (fun m spares => ⟨spares.keeps, trivial⟩)
    fun calm _ m spares => ⟨spares.keeps, ?_⟩
  cases made with
  | ok _ =>
      show EndSpares b _ (if _ then _ else _)
      split
      · exact nofun
      · exact before
  | error s => exact known

theorem unwind_spares {call : Deferred → Action Value} {frame : List Deferred}
    (calls : ∀ d ∈ frame, Action.Spares b (Value.Spares b) (call d)) {ended : Ending}
    (before : BodySpares b ended) :
    Action.Spares b (BodySpares b) (Action.unwind call frame ended) := by
  induction frame generalizing ended with
  | nil => exact fun m spares => ⟨spares.keeps, before⟩
  | cons d rest ih =>
      obtain ⟨first, others⟩ := List.forall_mem_cons.mp calls
      unfold Action.unwind
      split
      · exact bind_spares (deferredCall_spares first before) fun ended known => ih others known
      · exact fun m spares => ⟨spares.keeps, before⟩

theorem activation_spares {call : Deferred → Action Value} {body : Action (Option Value)}
    (calls : ∀ d : Deferred, d.Spares b → Action.Spares b (Value.Spares b) (call d))
    (inner : Action.Spares b (ReturnedSpares b) body) :
    Action.Spares b (BodySpares b) (Action.activation call body) :=
  deeper_spares (bind_spares (framed_spares (outcome_spares inner)) fun _ known =>
    keepingPanic_spares (unwind_spares (fun d mem => calls d (known.2 d mem)) known.1))

theorem invocation_spares {call : Deferred → Action Value} {body : α → Action (Option Value)}
    (calls : ∀ d : Deferred, d.Spares b → Action.Spares b (Value.Spares b) (call d))
    (first : Action.Spares b P x) (rest : ∀ a, P a → Action.Spares b (ReturnedSpares b) (body a)) :
    Action.Spares b (fun result => P result.1 ∧ BodySpares b result.2)
      (Action.invocation call x body) := by
  have counted : Action.Spares b (fun _ => True)
      (Action.paid Action.checkDepth fun _ => Action.undertake .function) :=
    paid_spares checkDepth_spares fun _ _ => undertake_spares .function
  exact bind_spares (bind_spares counted fun _ _ => first) fun a known =>
    bind_spares (activation_spares calls (rest a known)) fun _ ended m spares =>
      ⟨spares.keeps, known, ended⟩

end Action

/-! ## Computations -/

namespace Eval

variable {jumps inside : Bool}

theorem pure_spares {a : α} (result : P a) : (pure a : Computation jumps α).Spares b P :=
  fun _ _ _ spares => ⟨spares.keeps, result⟩

theorem done_spares {a : α} : (pure a : Computation jumps α).Spares b fun _ => True :=
  pure_spares trivial

theorem bind_spares {x : Computation jumps α} {f : α → Computation jumps β}
    (first : x.Spares b P) (rest : ∀ a, P a → (f a).Spares b R) : (x >>= f).Spares b R :=
  fun ev parts => Action.bind_spares (first ev parts) fun a result => rest a result ev parts

theorem then_spares {x : Computation jumps α} {f : α → Computation jumps β}
    (first : x.Spares b fun _ => True) (rest : ∀ a, (f a).Spares b R) : (x >>= f).Spares b R :=
  bind_spares first fun a _ => rest a

theorem imp_spares {x : Computation jumps α} (spares : x.Spares b P) (weaker : ∀ a, P a → Q a) :
    x.Spares b Q :=
  fun ev parts m before => (spares ev parts m before).imp weaker

theorem map_spares {f : α → β} {x : Computation jumps α} (spares : x.Spares b P)
    (result : ∀ a, P a → R (f a)) : (f <$> x).Spares b R :=
  bind_spares spares fun a known => pure_spares (result a known)

/-- A part that is done under a condition only. -/
theorem guarded_spares {c : Prop} [Decidable c] {x : Computation jumps β}
    {rest : Computation jumps α} (first : x.Spares b fun _ => True) (spares : rest.Spares b P) :
    (if c then x >>= fun _ => rest else rest).Spares b P := by
  split
  · exact then_spares first fun _ => spares
  · exact spares

theorem either_spares {c : Prop} [Decidable c] {x y : Computation jumps α}
    {f : α → Computation jumps β} (first : x.Spares b P) (second : y.Spares b P)
    (rest : ∀ a, P a → (f a).Spares b R) : (if c then x >>= f else y >>= f).Spares b R := by
  split
  · exact bind_spares first rest
  · exact bind_spares second rest

theorem view_spares {f : Guest → α} (result : ∀ m : Machine, m.Spares b → P (f m.toGuest)) :
    (view f).Spares b P :=
  fun _ _ m spares => ⟨spares.keeps, result m spares⟩

theorem look_spares (f : Guest → α) : (view f).Spares b fun _ => True :=
  view_spares fun _ _ => trivial

theorem viewStore_spares {f : Store → α} (result : ∀ s : Store, s.Spares b → P (f s)) :
    (viewStore f).Spares b P :=
  view_spares fun m spares => result m.store spares.store

theorem onGuest_spares {f : Guest → α × Guest}
    (kept : ∀ g : Guest, g.store.Spares b → g.store.Keeps b (f g).2.store)
    (methods : ∀ g, (f g).2.methods = g.methods)
    (result : ∀ g : Guest, g.store.Spares b → P (f g).1) : (onGuest f).Spares b P :=
  fun _ _ _ spares => ⟨spares.changed (kept _ spares.store) (methods _), result _ spares.store⟩

theorem onStore_spares {f : Store → α × Store}
    (making : ∀ s : Store, s.Spares b → Store.Making b P s (f s)) : (onStore f).Spares b P :=
  onGuest_spares (fun g spares => (making g.store spares).1) (fun _ => rfl)
    fun g spares => (making g.store spares).2

theorem changeStore_spares {f : Store → Store} (kept : ∀ s : Store, s.Spares b → s.Keeps b (f s)) :
    (changeStore f).Spares b fun _ => True :=
  onGuest_spares (fun g spares => kept g.store spares) (fun _ => rfl) fun _ _ => trivial

theorem fault_spares (fault : Fault) : (raise fault : Eval α).Spares b P := by
  intro ev parts m spares
  obtain ⟨s, isFault⟩ := fault
  cases s with
  | panic cause => exact ⟨spares.keeps, trivial⟩
  | error cause => exact ⟨spares.keeps, trivial⟩
  | «break» => cases isFault
  | «continue» => cases isFault
  | «return» v => cases isFault

theorem error_spares (cause : RuntimeError) : (error cause : Eval α).Spares b P := fault_spares _

theorem panic_spares (cause : Panic) : (panic cause : Eval α).Spares b P := fault_spares _

theorem ofExcept_spares {r : Except Fault α} (result : ∀ a, r = .ok a → P a) :
    (ofExcept r).Spares b P := by
  cases r with
  | ok a => exact pure_spares (result a rfl)
  | error fault => exact fault_spares fault

theorem ofWalk_spares {answer : Option α} (result : ∀ a, answer = some a → P a) :
    (ofWalk answer).Spares b P := by
  cases answer with
  | some a => exact pure_spares (result a rfl)
  | none => exact fun _ _ _ _ => trivial

theorem walkStore_spares {f : Store → Option α}
    (result : ∀ s : Store, s.Spares b → ∀ a, f s = some a → P a) : (walkStore f).Spares b P :=
  bind_spares (P := fun answer => ∀ a, answer = some a → P a) (viewStore_spares result)
    fun _ known => ofWalk_spares known

theorem exit_spares (code : Int) : (exit code : Eval α).Spares b P := fun _ _ _ _ => trivial

theorem outcome_spares {x : Computation inside α} (inner : x.Spares b P) :
    (outcome x).Spares b (EndSpares b P) :=
  fun ev parts => Action.outcome_spares (inner ev parts)

theorem maxAlloc_spares : maxAlloc.Spares b fun _ => True :=
  fun _ _ _ spares => ⟨spares.keeps, trivial⟩

theorem addressOf_spares (p : Pointee) : (addressOf p).Spares b fun _ => True := by
  intro ev parts m spares
  show ResultSpares b _ m (Action.addressOf p m)
  rcases Action.addressOf_cases p m with ⟨place, given⟩ | lacking
  · rw [given]
    exact ⟨spares.keeps, trivial⟩
  · rw [lacking]
    trivial

theorem tick_spares : tick.Spares b fun _ => True := fun _ _ => Action.tick_spares

theorem write_spares (stream : Library.Stream) (text : String) :
    (write stream text).Spares b fun _ => True := by
  intro ev parts m spares
  cases stream <;> exact ⟨spares.congr rfl rfl rfl, trivial⟩

theorem undertake_spares (u : Undertaking) {ready : Eval Unit}
    (first : ready.Spares b fun _ => True) : (undertake u ready).Spares b fun _ => True :=
  fun ev parts => Action.paid_spares (first ev parts) fun _ _ => Action.undertake_spares u

theorem askHost_spares (name : String) (place : Nat) {arguments : Eval (List Json)}
    (first : arguments.Spares b fun _ => True) :
    (askHost name place arguments).Spares b fun _ => True :=
  fun ev parts => Action.paid_spares (first ev parts) fun _ _ => Action.askHost_spares _ _ _

theorem loop_spares {σ : Type} {I : σ → Prop} {round : σ → Computation jumps (Option σ)} {s : σ}
    (inner : ∀ s, I s → (round s).Spares b fun next => ∀ s ∈ next, I s) (first : I s) :
    (loop round s).Spares b fun _ => True :=
  fun ev parts => Action.iterate_spares (fun s inv => inner s inv ev parts) ev.rounds s first

theorem invocation_spares {opening : Eval α} {body : α → Flow (Option Value)}
    (first : opening.Spares b P) (rest : ∀ a, P a → (body a).Spares b (ReturnedSpares b)) :
    (invocation opening body).Spares b fun result => P result.1 ∧ BodySpares b result.2 :=
  fun ev parts => Action.invocation_spares (fun _ spares => Action.begin_spares parts spares)
    (first ev parts) fun a known => rest a known ev parts

theorem putOff_spares {function : Value} {arguments : List Value} (callee : function.Spares b)
    (spare : AllSpare b arguments) : (putOff function arguments).Spares b fun _ => True :=
  fun _ _ => Action.putOff_spares callee spare

theorem recover_spares : recover.Spares b (Value.Spares b) := fun _ _ => Action.recover_spares

/-! ### Several computations -/

theorem mapM_spares {γ : Type} {f : γ → Eval α} {items : List γ}
    (each : ∀ item ∈ items, (f item).Spares b P) :
    (items.mapM f).Spares b fun results =>
      (∀ a ∈ results, P a) ∧ results.length = items.length := by
  induction items with
  | nil => exact pure_spares ⟨nofun, rfl⟩
  | cons item rest ih =>
      obtain ⟨first, others⟩ := List.forall_mem_cons.mp each
      rw [List.mapM_cons]
      refine bind_spares first fun a result => bind_spares (ih others) fun results more => ?_
      exact pure_spares ⟨List.forall_mem_cons.mpr ⟨result, more.1⟩, congrArg (· + 1) more.2⟩

theorem mapM_done {γ : Type} {f : γ → Eval α} {items : List γ}
    (each : ∀ item ∈ items, (f item).Spares b fun _ => True) :
    (items.mapM f).Spares b fun _ => True :=
  imp_spares (mapM_spares each) fun _ _ => trivial

theorem forM_spares {γ : Type} {f : γ → Eval Unit} {items : List γ}
    (each : ∀ item ∈ items, (f item).Spares b fun _ => True) :
    (items.forM f).Spares b fun _ => True := by
  induction items with
  | nil => exact done_spares
  | cons item rest ih =>
      obtain ⟨first, others⟩ := List.forall_mem_cons.mp each
      exact then_spares first fun _ => ih others

/-! ## Work of the evaluator -/

theorem perform_spares {w : Work} {calm : w.isStatement = false} (spares : w.Spares b) :
    (perform w calm).Spares b (Value.Spares b) :=
  fun _ parts => Action.begin_spares parts spares

theorem eval_spares {e : Expr} {scope : ScopeId} (spares : e.spares b.name = true) :
    (eval e scope).Spares b (Value.Spares b) :=
  perform_spares spares

theorem callFunction_spares {function : Value} {arguments : List Value}
    (callee : function.Spares b) (spare : AllSpare b arguments) :
    (callFunction function arguments).Spares b (Value.Spares b) :=
  perform_spares ⟨callee, spare⟩

theorem callMethodDecl_spares {decl : FuncDecl} {receiver : Value} {arguments : List Value}
    {spread : Bool} (callee : decl.function.spares b.name = true) (value : receiver.Spares b)
    (spare : AllSpare b arguments) :
    (callMethodDecl decl receiver arguments spread).Spares b (Value.Spares b) :=
  perform_spares ⟨⟨value, callee⟩, spare⟩

theorem method_spares (type name : String) :
    (view (·.method? type name)).Spares b fun found =>
      ∀ decl ∈ found, decl.function.spares b.name = true :=
  view_spares fun _ spares _ is => spares.method? is

theorem methodOf_spares (v : Value) (name : String) :
    (view (·.methodOf? v name)).Spares b fun found =>
      ∀ decl ∈ found, decl.function.spares b.name = true :=
  view_spares fun _ spares _ is => spares.methodOf? is

/-! ## Basic computations -/

theorem checkAlloc_spares (size : Nat) (cause : Panic) :
    (checkAlloc size cause).Spares b fun _ => True := by
  refine then_spares maxAlloc_spares fun limit => ?_
  split
  · exact panic_spares cause
  · exact done_spares

theorem setLine_spares (line : Nat) : (setLine line).Spares b fun _ => True :=
  onGuest_spares (fun _ spares => spares.keeps) (fun _ => rfl) fun _ _ => trivial

theorem freshId_spares : freshId.Spares b fun _ => True :=
  onGuest_spares (fun _ spares => spares.keeps) (fun _ => rfl) fun _ _ => trivial

theorem newError_spares (message : String) {wrapped : Option Value}
    (inner : ∀ v ∈ wrapped, v.Spares b) : (newError message wrapped).Spares b (Value.Spares b) :=
  then_spares freshId_spares fun _ => pure_spares (Value.spares_error.mpr inner)

theorem newScope_spares (parent : ScopeId) :
    (newScope parent).Spares b fun scope => scope ≠ globalScope :=
  onStore_spares fun _ spares => spares.newScope _

theorem define_spares {scope : ScopeId} (inner : scope ≠ globalScope) (name : String) {v : Value}
    (value : v.Spares b) (width : Option IntWidth) :
    (define scope name v width).Spares b fun _ => True :=
  changeStore_spares fun _ spares => spares.defineInside inner name width value

/-- Only the name itself stands for the variable. -/
theorem resolve_spares {scope : ScopeId} {name : String} (other : name ≠ b.name) :
    (resolve? scope name).Spares b fun found => ∀ v ∈ found, v.cell ≠ b.cell :=
  viewStore_spares fun _ spares _ is => spares.resolve? is other

theorem localVariable_spares {scope : ScopeId} (inner : scope ≠ globalScope) (name : String) :
    (viewStore (·.localVariable? scope name)).Spares b fun found => ∀ v ∈ found, v.cell ≠ b.cell :=
  viewStore_spares fun _ spares _ is => spares.localVariable? is inner

theorem readCell_spares (c : CellId) : (readCell c).Spares b (Value.Spares b) :=
  viewStore_spares fun _ spares => spares.cell c

theorem writeCell_spares {c : CellId} {v : Value} (other : c ≠ b.cell) (value : v.Spares b) :
    (writeCell c v).Spares b fun _ => True :=
  changeStore_spares fun _ spares => spares.setCell other value

theorem newBacking_spares {items : Array Value} (spare : AllSpare b items.toList) :
    (onStore (·.newSlice items)).Spares b fun _ => True :=
  onStore_spares fun _ spares => ⟨spares.newBacking spare, trivial⟩

theorem newSlice_spares {items : List Value} (spare : AllSpare b items) :
    (newSlice items).Spares b (Value.Spares b) :=
  then_spares (newBacking_spares spare) fun _ => pure_spares trivial

theorem nilSlice_spares : nilSlice.Spares b (Value.Spares b) :=
  then_spares (newBacking_spares nofun) fun _ => pure_spares trivial

theorem emptyMap_spares : (onStore Store.newMap).Spares b fun _ => True :=
  onStore_spares fun _ spares => ⟨spares.newMap, trivial⟩

theorem newMap_spares {zero : Value} (value : zero.Spares b) :
    (newMap zero).Spares b (Value.Spares b) :=
  then_spares emptyMap_spares fun _ => pure_spares value

theorem newStruct_spares (type : StructDef) {fields : List Value} (spare : AllSpare b fields) :
    (newStruct type fields).Spares b (Value.Spares b) :=
  then_spares (onStore_spares fun _ spares => ⟨spares.newStruct type spare, trivial⟩)
    fun _ => pure_spares trivial

theorem newRef_spares {v : Value} (value : v.Spares b) : (newRef v).Spares b (Value.Spares b) :=
  bind_spares (onStore_spares fun _ spares => spares.newCell value) fun _ other => pure_spares other

theorem elements_spares (view : SliceView) : (elements view).Spares b (AllSpare b) :=
  viewStore_spares fun _ spares => spares.elements view

theorem mapList_spares (m : Option MapId) :
    (viewStore (·.mapList m)).Spares b fun entries => ∀ e ∈ entries, e.2.Spares b :=
  viewStore_spares fun _ spares => spares.mapList m

theorem structFields_spares (o : StructId) :
    (viewStore (·.structFields o)).Spares b fun fields => ∀ e ∈ fields, e.2.Spares b :=
  viewStore_spares fun _ spares => spares.structFields o

theorem field_spares (o : StructId) (name : String) :
    (walkStore (·.lookupField o name)).Spares b fun found => ∀ v ∈ found, v.Spares b :=
  walkStore_spares fun _ spares _ is _ held => spares.lookupField (held ▸ is)

/-! ## Reading values -/

theorem typeName_spares (v : Value) : (typeName v).Spares b fun _ => True :=
  walkStore_spares fun _ _ _ _ => trivial

theorem refusal_spares (v : Value) (cause : String → RuntimeError) :
    (do error (cause (← typeName v)) : Eval α).Spares b P :=
  then_spares (typeName_spares v) fun _ => error_spares _

theorem copied_spares {v : Value} (value : v.Spares b) : (copied v).Spares b (Value.Spares b) := by
  unfold copied
  split
  · exact onStore_spares fun _ spares => spares.copied value
  · exact pure_spares value

theorem copiedAll_spares {values : List Value} (spare : AllSpare b values) :
    (copiedAll values).Spares b (AllSpare b) :=
  imp_spares (mapM_spares fun v mem => copied_spares (spare v mem)) fun _ known => known.1

theorem adapt_spares (ty : TypeExpr) {v : Value} (value : v.Spares b) :
    (adapt ty v).Spares b (Value.Spares b) :=
  view_spares fun _ _ => spares_adapt _ ty value

theorem asBool_spares (v : Value) : (asBool v).Spares b fun _ => True := by
  unfold asBool
  split
  · exact done_spares
  · exact refusal_spares _ _

theorem asInt_spares (v : Value) : (asInt v).Spares b fun _ => True := by
  unfold asInt
  dsimp only
  split
  · exact done_spares
  · split
    · exact done_spares
    · exact refusal_spares _ _
  · exact refusal_spares _ _

theorem asFloat_spares (v : Value) : (asFloat v).Spares b fun _ => True := by
  unfold asFloat
  split
  · exact done_spares
  · exact done_spares
  · exact refusal_spares _ _

theorem asString_spares (v : Value) : (asString v).Spares b fun _ => True := by
  unfold asString
  split
  · exact done_spares
  · exact refusal_spares _ _

theorem asInts_spares (values : List Value) : (asInts values).Spares b fun _ => True :=
  mapM_done fun v _ => asInt_spares v

theorem asStrings_spares (values : List Value) : (asStrings values).Spares b fun _ => True :=
  mapM_done fun v _ => asString_spares v

theorem asKey_spares (v : Value) : (asKey v).Spares b fun _ => True := by
  unfold asKey
  split
  · exact done_spares
  · exact refusal_spares _ _

theorem asIndex_spares (v : Value) (length : Nat) : (asIndex v length).Spares b fun _ => True := by
  refine then_spares (asInt_spares v) fun i => ?_
  split
  · exact panic_spares _
  · exact done_spares

theorem equal_spares (v w : Value) : (equal v w).Spares b fun _ => True := by
  refine then_spares (look_spares _) fun answer => ?_
  split
  · exact done_spares
  · exact error_spares _

theorem AllSpare.dropLast {values : List Value} (spare : AllSpare b values) :
    AllSpare b values.dropLast :=
  fun v mem => spare v (List.dropLast_subset _ mem)

theorem expandSpread_spares {arguments : List Value} (spare : AllSpare b arguments) :
    (expandSpread arguments).Spares b (AllSpare b) := by
  unfold expandSpread
  split
  · exact bind_spares (elements_spares _) fun _ more =>
      pure_spares ((AllSpare.dropLast spare).append more)
  · exact pure_spares (AllSpare.dropLast spare)
  · exact error_spares _

theorem byteSlice_spares (text : String) : (byteSlice text).Spares b (Value.Spares b) :=
  newSlice_spares (List.forall_mem_map.mpr fun _ _ => trivial)

end Eval

end SandboxedGo
