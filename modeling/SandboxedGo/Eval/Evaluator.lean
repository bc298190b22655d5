import SandboxedGo.Format.Layout
import SandboxedGo.Machine

/-!
# Evaluators and actions

The parts of evaluation call each other: an expression may call a function, which executes
statements, which evaluate expressions.  Each part is written against an evaluator, which stands for
all of them; the knot is tied elsewhere, by recursion on the depth of the nesting.

An action is what a computation does to a machine.  Only the actions of this file touch the limits,
the accounts and the books; everything else in evaluation is made of them.
-/

set_option autoImplicit false

namespace SandboxedGo

open Source

inductive Work
  /-- The value of an expression. -/
  | evaluate (e : Expr) (scope : ScopeId)
  /-- The effect of a statement; the value is nil. -/
  | execute (s : Stmt) (scope : ScopeId)
  /-- The results of a call; the last argument of a spread call is a slice of arguments. -/
  | call (function : Value) (arguments : List Value) (spread : Bool)
  /-- The text of a value as it is printed inside another one. -/
  | render (v : Value)
  /-- The text of an element as a directive prints it. -/
  | directive (verb : Char) (v : Value) (spec : Format.Spec)

def Work.isStatement : Work → Bool
  | .execute _ _ => true
  | _ => false

/-- A computation on a machine that may end early.  What it did before that stays done. -/
abbrev Action := EStateM Stop Machine

structure Evaluator where
  /-- How many rounds a loop may take. -/
  rounds : Nat
  perform : Work → Action Value

/-- How the body of a function ends: without a `return`, with one, or with another signal. -/
abbrev Ending := Except Signal (Option Value)

namespace Ending

def panic? : Ending → Option Panic
  | .error (.panic cause) => some cause
  | _ => none

def runsDeferred : Ending → Bool
  | .ok _ | .error (.panic _) => true
  | _ => false

/-- How a body has ended behind a deferred call that came to `made`.  A panic of which nothing runs
on behind the call is recovered, which is a normal end; a signal of the call itself takes the place
of what was before. -/
def behind (ended : Ending) (made : Except Signal Value) (calm : Bool) : Ending :=
  match made with
  | .ok _ => if ended.panic?.isSome && calm then .ok none else ended
  | .error s => .error s

end Ending

def Panic.toValue (cause : Panic) : Value := .string cause.message

namespace Action

@[inline] def view {α : Type} (f : Guest → α) : Action α := fun m => .ok (f m.toGuest) m

@[inline] def onGuest {α : Type} (f : Guest → α × Guest) : Action α := fun m =>
  let result := f m.toGuest
  .ok result.1 { m with toGuest := result.2 }

@[inline] def raise {α : Type} (s : Signal) : Action α := fun m => .error (.signal s) m

def halt {α : Type} (h : Halt) : Action α := fun m =>
  .error (.halt h) { m with endings := (h, m.toScene) :: m.endings }

/-- How an action ends, as a value; a halt is not held up. -/
@[inline] def outcome {α : Type} (x : Action α) : Action (Except Signal α) := fun m =>
  match x m with
  | .ok a m => .ok (.ok a) m
  | .error (.signal s) m => .ok (.error s) m
  | .error (.halt h) m => .error (.halt h) m

/-! ## Limits -/

/-- The greatest size of a slice or a text that may be built in one step. -/
def maxAlloc : Action Nat := fun m => .ok m.limits.maxAlloc m

def addressOf (p : Pointee) : Action Nat := fun m =>
  match m.limits.addresses p with
  | some place => .ok place m
  | none => halt .unfinished m

theorem addressOf_cases (p : Pointee) (m : Machine) :
    (∃ place, addressOf p m = .ok place m) ∨ addressOf p m = halt .unfinished m := by
  unfold addressOf
  cases m.limits.addresses p with
  | some place => exact .inl ⟨place, rfl⟩
  | none => exact .inr rfl

def checkStop : Action Unit := fun m =>
  if m.isStopRequested then halt .interrupted m else .ok () m

/-- End the run if the step budget is overdrawn, or if the host wants it. -/
def checkBudget : Action Unit := fun m =>
  match m.limits.maxSteps with
  | some budget => if budget < m.steps then halt (.budgetExhausted budget) m else checkStop m
  | none => checkStop m

def tick : Action Unit := fun m => checkBudget m.stepped

def paid {α β : Type} (ready : Action α) (act : α → Action β) : Action β :=
  EStateM.bind tick fun _ => EStateM.bind ready act

def undertake (u : Undertaking) : Action Unit := fun m => .ok () (m.undertaking u)

def checkDepth : Action Unit := fun m =>
  if m.limits.maxCallDepth ≤ m.depth then halt (.stackOverflow m.limits.maxCallDepth) m
  else .ok () m

/-! ## The host -/

def write (stream : Library.Stream) (text : String) : Action Unit := fun m =>
  .ok () (m.written stream text)

/-- Take what a function of the host gave back: a document, or the text of a failure.  A call that
was running when the host asked to stop is finished, but the program does not see its result. -/
def takeOutcome (outcome : HostOutcome) : Action (Except String Json) := fun m =>
  match outcome with
  | .crash message => halt (.hostCrash message) m
  | .value j => if m.isStopRequested then halt .interrupted m else .ok (.ok j) m
  | .failure message => if m.isStopRequested then halt .interrupted m else .ok (.error message) m

/-- Let a function of the host answer a call, and keep both. -/
def askHost (name : String) (place : Nat) (arguments : List Json) : Action (Except String Json) :=
  fun m =>
    match m.hostFunctions[place]? with
    | none => .ok (.ok .null) m
    | some f =>
      let reply := f.respond m.hostCalls arguments
      takeOutcome reply.outcome (m.replied ⟨name, arguments⟩ reply)

/-! ## Parts -/

@[inline] def begin_ (perform : Work → Action Value) (w : Work) : Action Value := fun m =>
  perform w m.working

/-- Rounds of a loop, at most `rounds` of them; each one says from where the next one goes on. -/
def iterate {σ : Type} (round : σ → Action (Option σ)) : (rounds : Nat) → σ → Action Unit
  | 0, _ => halt .unfinished
  | rounds + 1, s => fun m =>
    match round s m with
    | .ok (some next) m => iterate round rounds next m
    | .ok none m => .ok () m
    | .error e m => .error e m

/-! ## Books about calls -/

/-- Close the books behind an action, however it ends. -/
@[inline] def closing {α β : Type} (give : α → Machine → β) (close : Machine → Machine)
    (x : Action α) : Action β := fun m =>
  match x m with
  | .ok a m => .ok (give a m) (close m)
  | .error e m => .error e (close m)

/-- Count a call as nested one deeper until it has ended in any way. -/
@[inline] def deeper {α : Type} (x : Action α) : Action α := fun m =>
  closing (fun a _ => a) Machine.shallower x m.deeper

/-- Keep a list of deferred calls until a body has ended in any way; its result comes with them. -/
@[inline] def framed {α : Type} (x : Action α) : Action (α × List Deferred) := fun m =>
  closing (fun a m => (a, m.innermost)) Machine.unframed x m.framed

/-- Let the panic that runs now run on behind an action, however that ends. -/
@[inline] def keepingPanic {α : Type} (x : Action α) : Action α := fun m =>
  closing (fun a _ => a) (Machine.withPanic m.panicking) x m

def putOff (function : Value) (arguments : List Value) : Action Unit := fun m =>
  match m.deferred with
  | frame :: frames =>
    .ok () { m with deferred := (⟨function, arguments⟩ :: frame) :: frames }
  | [] => .error (.signal (.error .deferOutsideFunction)) m

/-! ## Panics

The panic that runs through deferred calls is looked at and changed where they are run, and stopped
by the program; nothing else touches it. -/

@[inline] def setPanicking (panic : Option Value) : Action Unit := fun m =>
  .ok () (m.withPanic panic)

/-- Whether no panic runs through deferred calls. -/
@[inline] def isCalm : Action Bool := fun m => .ok m.panicking.isNone m

/-- Stop the panic that runs through deferred calls; its text. -/
def recover : Action Value := fun m => .ok (m.panicking.getD .nil) (m.withPanic none)

/-! ## Calls of functions of the program -/

/-- Make a deferred call of a body that has ended in some way: how it has ended then. -/
def deferredCall (call : Action Value) (ended : Ending) : Action Ending := do
  setPanicking (ended.panic?.map Panic.toValue)
  let made ← outcome call
  return ended.behind made (← isCalm)

/-- Make deferred calls as long as they end normally or with a panic. -/
def unwind (call : Deferred → Action Value) : List Deferred → Ending → Action Ending
  | [], ended => pure ended
  | d :: rest, ended =>
    if ended.runsDeferred then do unwind call rest (← deferredCall (call d) ended)
    else pure ended

/-- Execute a body, nested one deeper, and then its deferred calls.  The panic that was running
before runs on behind them. -/
def activation (call : Deferred → Action Value) (body : Action (Option Value)) : Action Ending :=
  deeper do
    let (ended, frame) ← framed (outcome body)
    keepingPanic (unwind call frame ended)

/-- Enter a function of the program and open it, unless calls are nested too deep already. -/
def entered {α : Type} (opening : Action α) : Action α := do
  paid checkDepth fun _ => undertake .function
  opening

/-- Enter a function of the program and execute its body: what it was opened with, and how it
ends. -/
def invocation {α : Type} (call : Deferred → Action Value) (opening : Action α)
    (body : α → Action (Option Value)) : Action (α × Ending) := do
  let opened ← entered opening
  let ended ← activation call (body opened)
  return (opened, ended)

end Action

@[inline] def Evaluator.callDeferred (ev : Evaluator) (d : Deferred) : Action Value :=
  Action.begin_ ev.perform (.call d.function d.arguments false)

end SandboxedGo
