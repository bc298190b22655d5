import SandboxedGo.Eval.Evaluator

/-!
# Computations

A computation is an action for every evaluator, together with the evidence of how it is put
together.  `Built` lists all ways to put one together; no computation can look at the limits, hold
up a halt, take back output, begin without a step of its own what costs one, or change the books
about calls but by a call, `defer` and `recover`, because none of these ways can.  The evidence also
says whether a computation may jump; only statements and calls may.
-/

set_option autoImplicit false

namespace SandboxedGo

open Source

/-- The actions that evaluation is made of.  Only a statement may `jump`, that is execute statements
and end with a signal that is no fault. -/
inductive Built : (jumps : Bool) → {α : Type} → (Evaluator → Action α) → Prop
  | pure {jumps : Bool} {α : Type} (a : α) : Built jumps fun _ => EStateM.pure a
  | bind {jumps : Bool} {α β : Type} {x : Evaluator → Action α} {f : α → Evaluator → Action β}
      (first : Built jumps x) (rest : ∀ a, Built jumps (f a)) :
      Built jumps fun ev => EStateM.bind (x ev) fun a => f a ev
  | view {jumps : Bool} {α : Type} (f : Guest → α) : Built jumps fun _ => Action.view f
  | onGuest {jumps : Bool} {α : Type} (f : Guest → α × Guest) :
      Built jumps fun _ => Action.onGuest f
  | raise {jumps : Bool} {α : Type} (s : Signal) (allowed : s.isFault = true ∨ jumps = true) :
      Built jumps fun _ => Action.raise (α := α) s
  | exit {jumps : Bool} {α : Type} (code : Int) :
      Built jumps fun _ => Action.halt (α := α) (.exit code)
  | unfinished {jumps : Bool} {α : Type} : Built jumps fun _ => Action.halt (α := α) .unfinished
  | outcome {inside jumps : Bool} {α : Type} {x : Evaluator → Action α} (inner : Built inside x) :
      Built jumps fun ev => Action.outcome (x ev)
  | maxAlloc {jumps : Bool} : Built jumps fun _ => Action.maxAlloc
  | addressOf {jumps : Bool} (p : Pointee) : Built jumps fun _ => Action.addressOf p
  | tick {jumps : Bool} : Built jumps fun _ => Action.tick
  | write {jumps : Bool} (stream : Library.Stream) (text : String) :
      Built jumps fun _ => Action.write stream text
  | undertake {jumps : Bool} (u : Undertaking) {x : Evaluator → Action Unit}
      (ready : Built jumps x) :
      Built jumps fun ev => Action.paid (x ev) fun _ => Action.undertake u
  | askHost {jumps : Bool} (name : String) (place : Nat) {x : Evaluator → Action (List Json)}
      (arguments : Built jumps x) :
      Built jumps fun ev => Action.paid (x ev) (Action.askHost name place)
  | perform {jumps : Bool} (w : Work) (allowed : w.isStatement = false ∨ jumps = true) :
      Built jumps fun ev => Action.begin_ ev.perform w
  | loop {jumps : Bool} {σ : Type} {round : σ → Evaluator → Action (Option σ)}
      (inner : ∀ s, Built jumps (round s)) (s : σ) :
      Built jumps fun ev => Action.iterate (fun s => round s ev) ev.rounds s
  | invocation {inside jumps : Bool} {α : Type} {opening : Evaluator → Action α}
      {body : α → Evaluator → Action (Option Value)} (first : Built jumps opening)
      (rest : ∀ a, Built inside (body a)) :
      Built jumps fun ev => Action.invocation ev.callDeferred (opening ev) fun a => body a ev
  | putOff {jumps : Bool} (function : Value) (arguments : List Value) :
      Built jumps fun _ => Action.putOff function arguments
  | recover {jumps : Bool} : Built jumps fun _ => Action.recover

/-- What may jump need not. -/
theorem Built.loosen {jumps : Bool} {α : Type} {x : Evaluator → Action α} (built : Built jumps x) :
    Built true x := by
  induction built with
  | pure a => exact .pure a
  | bind _ _ first rest => exact .bind first rest
  | view f => exact .view f
  | onGuest f => exact .onGuest f
  | raise s => exact .raise s (.inr rfl)
  | exit code => exact .exit code
  | unfinished => exact .unfinished
  | outcome inner => exact .outcome inner
  | maxAlloc => exact .maxAlloc
  | addressOf p => exact .addressOf p
  | tick => exact .tick
  | write stream text => exact .write stream text
  | undertake u _ ready => exact .undertake u ready
  | askHost name place _ arguments => exact .askHost name place arguments
  | perform w => exact .perform w (.inr rfl)
  | loop _ s inner => exact .loop inner s
  | invocation _ rest first => exact .invocation first rest
  | putOff function arguments => exact .putOff function arguments
  | recover => exact .recover

structure Computation (jumps : Bool) (α : Type) where
  run : Evaluator → Action α
  built : Built jumps run

abbrev Eval := Computation false

abbrev Flow := Computation true

namespace Computation

variable {jumps : Bool}

@[always_inline, inline] protected def pure {α : Type} (a : α) : Computation jumps α :=
  ⟨_, .pure a⟩

@[always_inline, inline] protected def bind {α β : Type} (x : Computation jumps α)
    (f : α → Computation jumps β) : Computation jumps β :=
  ⟨fun ev => EStateM.bind (x.run ev) fun a => (f a).run ev, .bind x.built fun a => (f a).built⟩

@[always_inline] instance : Monad (Computation jumps) where
  pure := Computation.pure
  bind := Computation.bind

@[always_inline] instance : MonadLift Eval Flow where
  monadLift x := ⟨x.run, x.built.loosen⟩

end Computation

namespace Flow

@[inline] def raise {α : Type} (s : Signal) : Flow α := ⟨_, .raise s (.inr rfl)⟩

@[inline] def ofExcept {α : Type} (r : Except Signal α) : Flow α :=
  match r with
  | .ok a => pure a
  | .error s => raise s

@[inline] def exec (s : Stmt) (scope : ScopeId) : Flow Unit := do
  let _ ← (⟨_, .perform (.execute s scope) (.inr rfl)⟩ : Flow Value)

end Flow

namespace Eval

variable {jumps : Bool}

/-! ## Actions as computations -/

@[inline] def view {α : Type} (f : Guest → α) : Eval α := ⟨_, .view f⟩

@[inline] def onGuest {α : Type} (f : Guest → α × Guest) : Eval α := ⟨_, .onGuest f⟩

@[inline] def raise {α : Type} (s : Fault) : Eval α := ⟨_, .raise s.1 (.inl s.2)⟩

def exit {α : Type} (code : Int) : Eval α := ⟨_, .exit code⟩

def unfinished {α : Type} : Eval α := ⟨_, .unfinished⟩

@[inline] def outcome {inside : Bool} {α : Type} (x : Computation inside α) :
    Eval (Except Signal α) :=
  ⟨_, .outcome x.built⟩

def maxAlloc : Eval Nat := ⟨_, .maxAlloc⟩

def addressOf (p : Pointee) : Eval Nat := ⟨_, .addressOf p⟩

def tick : Eval Unit := ⟨_, .tick⟩

def write (stream : Library.Stream) (text : String) : Eval Unit := ⟨_, .write stream text⟩

/-- Begin something that costs a step, once `ready` is done. -/
@[inline] def undertake (u : Undertaking) (ready : Eval Unit) : Eval Unit :=
  ⟨_, .undertake u ready.built⟩

@[inline] def askHost (name : String) (place : Nat) (arguments : Eval (List Json)) :
    Eval (Except String Json) :=
  ⟨_, .askHost name place arguments.built⟩

@[inline] def perform (w : Work) (calm : w.isStatement = false) : Eval Value :=
  ⟨_, .perform w (.inl calm)⟩

/-- A loop whose rounds say from where the next one goes on. -/
def loop {σ : Type} (round : σ → Computation jumps (Option σ)) (s : σ) : Computation jumps Unit :=
  ⟨_, .loop (fun s => (round s).built) s⟩

/-- Enter a function of the program: what it was opened with, and how it ends. -/
@[inline] def invocation {α : Type} (opening : Eval α) (body : α → Flow (Option Value)) :
    Eval (α × Ending) :=
  ⟨_, .invocation opening.built fun a => (body a).built⟩

def putOff (function : Value) (arguments : List Value) : Eval Unit :=
  ⟨_, .putOff function arguments⟩

/-- Stop the panic that runs through deferred calls; its text. -/
def recover : Eval Value := ⟨_, .recover⟩

end Eval

end SandboxedGo
