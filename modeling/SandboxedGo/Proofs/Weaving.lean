import SandboxedGo.Proofs.Courses
import SandboxedGo.Proofs.PointedVariables

/-!
# What evaluation does to variables

Evaluation opens scopes, declares variables and stores values in them in a few ways only; everything
else that it changes in the program's world is other objects, types and numbers.  A computation is
woven if it is put together from such changes.  A woven computation goes through steps from every
machine on: each one is a change, with the program's world before and after it, and what one step
leaves the next one finds.
-/

set_option autoImplicit false

namespace SandboxedGo

open Source

/-! ## Changes -/

/-- A change to the variables of a program. -/
inductive VariableChange
  | newScope (parent : ScopeId)
  /-- A new variable without a name, for a pointer. -/
  | newCell (v : Value)
  /-- A name is declared without a width. -/
  | define (scope : ScopeId) (name : String) (v : Value)
  /-- A name is declared with a type. -/
  | declare (scope : ScopeId) (name : String) (ty : TypeExpr) (v : Value)
  /-- A value is assigned to a name. -/
  | assign (scope : ScopeId) (name : String) (v : Value)
  /-- A short declaration declares a name that is new in its scope. -/
  | introduce (scope : ScopeId) (name : String) (v : Value) (width : Option IntWidth)
  /-- A short declaration stores a value in a variable of the scope itself. -/
  | redeclare (scope : ScopeId) (name : String) (v : Value)
  /-- A `return` stores a value in a named result. -/
  | result (scope : ScopeId) (name : String) (v : Value)
  /-- A value is stored through a pointer. -/
  | pointee (cell : CellId) (v : Value)

namespace VariableChange

/-- What a change does to a store, if types mean what they mean in `types`. -/
def onStore (types : TypeTable) (s : Store) : VariableChange → Store
  | .newScope parent => (s.newScope (some parent)).2
  | .newCell v => (s.newCell v).2
  | .define scope name v => s.define scope name v none
  | .declare scope name ty v => s.define scope name (types.adapt ty v) (types.width? ty)
  | .assign scope name v =>
    match s.resolve? scope name with
    | some found => s.setCell found.cell (Eval.storedOver found.width (s.cell found.cell) v)
    | none => s
  | .introduce scope name v width => s.define scope name v width
  | .redeclare scope name v =>
    match s.localVariable? scope name with
    | some found => s.setCell found.cell ((s.cell found.cell).keepingFloat v)
    | none => s
  | .result scope name v =>
    match s.localVariable? scope name with
    | some found => s.setCell found.cell v
    | none => s
  | .pointee c v => s.setCell c ((s.cell c).keepingFloat v)

def apply (change : VariableChange) (g : Guest) : Guest :=
  { g with store := change.onStore g.types g.store }

end VariableChange

/-- A step of a run: the program's world before and after it, and the change that was made if it
touched variables. -/
structure Step where
  before : Guest
  change : Option VariableChange
  after : Guest

/-! ## Steps of an action -/

namespace Action

/-- Actions that leave the program's world as it is. -/
inductive Still : {α : Type} → Action α → Prop
  | pure {α : Type} (a : α) : Still (EStateM.pure a)
  | view {α : Type} (f : Guest → α) : Still (Action.view f)
  | raise {α : Type} (s : Signal) : Still (Action.raise (α := α) s)
  | halt {α : Type} (h : Halt) : Still (Action.halt (α := α) h)
  | maxAlloc : Still Action.maxAlloc
  | addressOf (p : Pointee) : Still (Action.addressOf p)
  | tick : Still Action.tick
  | checkDepth : Still Action.checkDepth
  | undertake (u : Undertaking) : Still (Action.undertake u)
  | write (stream : Library.Stream) (text : String) : Still (Action.write stream text)
  | askHost (name : String) (place : Nat) (arguments : List Json) :
      Still (Action.askHost name place arguments)
  | putOff (function : Value) (arguments : List Value) : Still (Action.putOff function arguments)
  | setPanicking (panic : Option Value) : Still (Action.setPanicking panic)
  | isCalm : Still Action.isCalm
  | recover : Still Action.recover

/-- A function that changes the program's world as a step does. -/
inductive Moves {α : Type} (f : Guest → α × Guest) : Option VariableChange → Prop
  /-- The variables stay as they are. -/
  | other (same : ∀ g, SameVariables g.store (f g).2.store) : Moves f none
  | change (c : VariableChange) (does : ∀ g, (f g).2 = c.apply g) : Moves f (some c)

/-- An action goes through steps from a machine on. -/
inductive Passes : {α : Type} → Action α → Machine → List Step → Prop
  | still {α : Type} {x : Action α} (still : Still x) (m : Machine) : Passes x m []
  | moves {α : Type} {f : Guest → α × Guest} {change : Option VariableChange}
      (moves : Moves f change) (m : Machine) :
      Passes (Action.onGuest f) m [⟨m.toGuest, change, (f m.toGuest).2⟩]
  | bind {α β : Type} {x : Action α} {f : α → Action β} {m m' : Machine} {a : α}
      {steps more : List Step} (ran : x m = .ok a m') (first : Passes x m steps)
      (rest : Passes (f a) m' more) : Passes (EStateM.bind x f) m (steps ++ more)
  | bindStops {α β : Type} {x : Action α} {f : α → Action β} {m m' : Machine} {stop : Stop}
      {steps : List Step} (ran : x m = .error stop m') (first : Passes x m steps) :
      Passes (EStateM.bind x f) m steps
  | outcome {α : Type} {x : Action α} {m : Machine} {steps : List Step}
      (inner : Passes x m steps) : Passes (Action.outcome x) m steps
  | tooDeep (w : Work) (m : Machine) : Passes (begin_ (perform 0) w) m []
  | begins {depth : Nat} {w : Work} {m : Machine} {steps : List Step}
      (inner : Passes (w.step.run (.ofDepth depth)) m.working steps) :
      Passes (begin_ (perform (depth + 1)) w) m steps
  | noRounds {σ : Type} (round : σ → Action (Option σ)) (s : σ) (m : Machine) :
      Passes (iterate round 0 s) m []
  | nextRound {σ : Type} {round : σ → Action (Option σ)} {rounds : Nat} {s next : σ}
      {m m' : Machine} {steps more : List Step} (ran : round s m = .ok (some next) m')
      (first : Passes (round s) m steps) (rest : Passes (iterate round rounds next) m' more) :
      Passes (iterate round (rounds + 1) s) m (steps ++ more)
  | lastRound {σ : Type} {round : σ → Action (Option σ)} {rounds : Nat} {s : σ} {m : Machine}
      {steps : List Step} (ended : ∀ next m', round s m ≠ .ok (some next) m')
      (first : Passes (round s) m steps) : Passes (iterate round (rounds + 1) s) m steps
  | deeper {α : Type} {x : Action α} {m : Machine} {steps : List Step}
      (inner : Passes x m.deeper steps) : Passes (deeper x) m steps
  | framed {α : Type} {x : Action α} {m : Machine} {steps : List Step}
      (inner : Passes x m.framed steps) : Passes (framed x) m steps
  | keepingPanic {α : Type} {x : Action α} {m : Machine} {steps : List Step}
      (inner : Passes x m steps) : Passes (keepingPanic x) m steps

end Action

/-! ## Woven computations -/

/-- How woven computations are put together. -/
inductive Weave : {α : Type} → (Evaluator → Action α) → Prop
  | still {α : Type} {x : Action α} (still : Action.Still x) : Weave fun _ => x
  | moves {α : Type} {f : Guest → α × Guest} {change : Option VariableChange}
      (moves : Action.Moves f change) : Weave fun _ => Action.onGuest f
  | bind {α β : Type} {x : Evaluator → Action α} {f : α → Evaluator → Action β} (first : Weave x)
      (rest : ∀ a, Weave (f a)) : Weave fun ev => EStateM.bind (x ev) fun a => f a ev
  | outcome {α : Type} {x : Evaluator → Action α} (inner : Weave x) :
      Weave fun ev => Action.outcome (x ev)
  | perform (w : Work) : Weave fun ev => Action.begin_ ev.perform w
  | loop {σ : Type} {round : σ → Evaluator → Action (Option σ)} (inner : ∀ s, Weave (round s))
      (s : σ) : Weave fun ev => Action.iterate (fun s => round s ev) ev.rounds s
  | deeper {α : Type} {x : Evaluator → Action α} (inner : Weave x) :
      Weave fun ev => Action.deeper (x ev)
  | framed {α : Type} {x : Evaluator → Action α} (inner : Weave x) :
      Weave fun ev => Action.framed (x ev)
  | keepingPanic {α : Type} {x : Evaluator → Action α} (inner : Weave x) :
      Weave fun ev => Action.keepingPanic (x ev)

/-- A computation that changes variables in the listed ways only. -/
def Computation.Woven {jumps : Bool} {α : Type} (x : Computation jumps α) : Prop := Weave x.run

namespace Weave

open SandboxedGo.Action

variable {α β : Type}

theorem paid {ready : Evaluator → Action α} {act : α → Action β} (first : Weave ready)
    (rest : ∀ a, Still (act a)) : Weave fun ev => Action.paid (ready ev) act :=
  .bind (.still .tick) fun _ => .bind first fun a => .still (rest a)

theorem deferredCall {call : Evaluator → Action Value} (inner : Weave call) (ended : Ending) :
    Weave fun ev => Action.deferredCall (call ev) ended := by
  have settled (made : Except Signal Value) :
      Weave fun _ => EStateM.bind Action.isCalm fun calm => EStateM.pure (ended.behind made calm) :=
    .bind (.still .isCalm) fun _ => .still (.pure _)
  have made : Weave fun ev => EStateM.bind (Action.outcome (call ev)) fun made =>
      EStateM.bind Action.isCalm fun calm => EStateM.pure (ended.behind made calm) :=
    .bind (.outcome inner) settled
  have whole : Weave fun ev =>
      EStateM.bind (Action.setPanicking (ended.panic?.map Panic.toValue)) fun _ =>
        EStateM.bind (Action.outcome (call ev)) fun made =>
          EStateM.bind Action.isCalm fun calm => EStateM.pure (ended.behind made calm) :=
    .bind (.still (.setPanicking _)) fun _ => made
  exact whole

theorem unwind (frame : List Deferred) (ended : Ending) :
    Weave fun ev => Action.unwind ev.callDeferred frame ended := by
  induction frame generalizing ended with
  | nil => exact .still (.pure ended)
  | cons d rest ih =>
      unfold Action.unwind
      split
      · exact .bind (deferredCall (.perform _) ended) ih
      · exact .still (.pure ended)

theorem invocation {opening : Evaluator → Action α} {body : α → Evaluator → Action (Option Value)}
    (first : Weave opening) (rest : ∀ a, Weave (body a)) :
    Weave fun ev => Action.invocation ev.callDeferred (opening ev) fun a => body a ev := by
  have entered : Weave fun ev => Action.entered (opening ev) :=
    .bind (paid (.still .checkDepth) fun _ => .undertake .function) fun _ => first
  refine .bind entered fun a => .bind (.deeper ?_) fun _ => .still (.pure _)
  exact .bind (.framed (.outcome (rest a))) fun result => .keepingPanic (unwind result.2 result.1)

end Weave

/-! ## Every woven computation goes through steps -/

namespace Action

variable {α β : Type}

theorem exists_bind_passes {x : Action α} {f : α → Action β}
    (first : ∀ m, ∃ steps, Passes x m steps)
    (rest : ∀ a m, ∃ steps, Passes (f a) m steps) (m : Machine) :
    ∃ steps, Passes (EStateM.bind x f) m steps := by
  obtain ⟨steps, passes⟩ := first m
  cases ran : x m with
  | ok a m' =>
      obtain ⟨more, others⟩ := rest a m'
      exact ⟨steps ++ more, .bind ran passes others⟩
  | error stop m' => exact ⟨steps, .bindStops ran passes⟩

theorem exists_iterate_passes {σ : Type} {round : σ → Action (Option σ)}
    (inner : ∀ s m, ∃ steps, Passes (round s) m steps) (rounds : Nat) (s : σ) (m : Machine) :
    ∃ steps, Passes (iterate round rounds s) m steps := by
  induction rounds generalizing s m with
  | zero => exact ⟨[], .noRounds round s m⟩
  | succ rounds ih =>
      obtain ⟨steps, passes⟩ := inner s m
      by_cases goesOn : ∃ next m', round s m = .ok (some next) m'
      · obtain ⟨next, m', ran⟩ := goesOn
        obtain ⟨more, others⟩ := ih next m'
        exact ⟨steps ++ more, .nextRound ran passes others⟩
      · exact ⟨steps, .lastRound (fun next m' ran => goesOn ⟨next, m', ran⟩) passes⟩

end Action

theorem Weave.exists_passes {α : Type} {x : Evaluator → Action α} (weave : Weave x)
    {ev : Evaluator} (works : ∀ w m, ∃ steps, Action.Passes (Action.begin_ ev.perform w) m steps) :
    ∀ m, ∃ steps, Action.Passes (x ev) m steps := by
  induction weave with
  | still still => exact fun m => ⟨[], .still still m⟩
  | moves moves => exact fun m => ⟨_, .moves moves m⟩
  | bind _ _ first rest => exact Action.exists_bind_passes first rest
  | outcome _ inner =>
      intro m
      obtain ⟨steps, passes⟩ := inner m
      exact ⟨steps, .outcome passes⟩
  | perform w => exact works w
  | loop _ s inner => exact Action.exists_iterate_passes inner ev.rounds s
  | deeper _ inner =>
      intro m
      obtain ⟨steps, passes⟩ := inner m.deeper
      exact ⟨steps, .deeper passes⟩
  | framed _ inner =>
      intro m
      obtain ⟨steps, passes⟩ := inner m.framed
      exact ⟨steps, .framed passes⟩
  | keepingPanic _ inner =>
      intro m
      obtain ⟨steps, passes⟩ := inner m
      exact ⟨steps, .keepingPanic passes⟩

/-! ## What steps leave -/

/-- What a step says of the worlds before and after it. -/
def Step.Does (step : Step) : Prop :=
  match step.change with
  | none => SameVariables step.before.store step.after.store
  | some c => step.after = c.apply step.before

/-- Steps that lead from one world to another. -/
inductive Leading : Guest → List Step → Guest → Prop
  | none (g : Guest) : Leading g [] g
  | step {step : Step} {steps : List Step} {g : Guest} (does : step.Does)
      (rest : Leading step.after steps g) : Leading step.before (step :: steps) g

theorem Leading.append {g g' g'' : Guest} {steps more : List Step} (first : Leading g steps g')
    (rest : Leading g' more g'') : Leading g (steps ++ more) g'' := by
  induction first with
  | none => exact rest
  | step does _ ih => exact .step does (ih rest)

namespace Action

variable {α : Type}

theorem Still.guest {x : Action α} (still : Still x) (m : Machine) :
    (machineAfter (x m)).toGuest = m.toGuest := by
  have stops : ∀ m : Machine, (machineAfter (checkStop m)).toGuest = m.toGuest := by
    intro m
    unfold checkStop
    split <;> rfl
  cases still with
  | tick =>
      unfold Action.tick checkBudget
      split
      · split
        · rfl
        · exact stops m.stepped
      · exact stops m.stepped
  | checkDepth =>
      unfold Action.checkDepth
      split <;> rfl
  | write stream text => cases stream <;> rfl
  | addressOf p =>
      unfold Action.addressOf
      split <;> rfl
  | askHost name place arguments =>
      unfold Action.askHost
      split
      · rfl
      · unfold takeOutcome
        dsimp only
        split
        · rfl
        · split <;> rfl
        · split <;> rfl
  | putOff function arguments =>
      unfold Action.putOff
      split <;> rfl
  | _ => rfl

/-- The steps of an action lead from the world before it to the world after it. -/
theorem Passes.leading {x : Action α} {m : Machine} {steps : List Step}
    (passes : Passes x m steps) :
    Leading m.toGuest steps (machineAfter (x m)).toGuest := by
  induction passes with
  | still still m =>
      rw [still.guest m]
      exact .none _
  | @moves α f change moves m =>
      refine @Leading.step ⟨m.toGuest, change, (f m.toGuest).2⟩ [] _ ?_ (.none _)
      cases moves with
      | other same => exact same _
      | change c does => exact does _
  | @bind α β x f m m' a steps more ran _ _ first rest =>
      rw [ran] at first
      have after : EStateM.bind x f m = f a m' := by
        unfold EStateM.bind
        rw [ran]
      rw [after]
      exact first.append rest
  | @bindStops α β x f m m' stop steps ran _ first =>
      rw [ran] at first
      have after : EStateM.bind x f m = .error stop m' := by
        unfold EStateM.bind
        rw [ran]
      rw [after]
      exact first
  | @outcome α x m steps _ inner =>
      rw [outcome_after]
      exact inner
  | tooDeep w m => exact .none _
  | begins _ inner => exact inner
  | noRounds round s m => exact .none _
  | @nextRound σ round rounds s next m m' steps more ran _ _ first rest =>
      rw [ran] at first
      unfold iterate
      rw [ran]
      exact first.append rest
  | @lastRound σ round rounds s m steps ended _ first =>
      unfold iterate
      cases ran : round s m with
      | error stop after =>
          rw [ran] at first
          exact first
      | ok next after =>
          rw [ran] at first
          cases next with
          | none => exact first
          | some next => exact absurd ran (ended next after)
  | @deeper α x m steps _ inner =>
      unfold Action.deeper
      rw [closing_after]
      exact inner
  | @framed α x m steps _ inner =>
      unfold Action.framed
      rw [closing_after]
      exact inner
  | @keepingPanic α x m steps _ inner =>
      unfold Action.keepingPanic
      rw [closing_after]
      exact inner

end Action

end SandboxedGo
