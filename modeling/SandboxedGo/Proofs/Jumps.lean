import SandboxedGo.Proofs.Following
import SandboxedGo.Run

/-!
# Where jumps lead

A `break` or a `continue` strays from a statement if no loop and no switch inside it stops the jump.
What a computation ends with is followed through all statements: a body ends with a panic, an error
or a return, with what its calls end with, or with a jump that strays from it.
-/

set_option autoImplicit false

namespace SandboxedGo

namespace Source

/-- A jump that loops and switches stop. -/
inductive Jump
  | «break» | «continue»
  deriving DecidableEq, Repr

section Strays

variable (j : Jump)

mutual

/-- Whether a jump may leave a statement, since no loop and no switch in the statement stops it.  A
loop stops the jumps of its body only, and a switch does not stop `continue`. -/
def Stmt.strays : Stmt → Bool
  | .mk _ kind => kind.strays

def StmtKind.strays : StmtKind → Bool
  | .break => j = .break
  | .continue => j = .continue
  | .block body => bodyStrays body
  | .if init _ body otherwise => optionStrays init || bodyStrays body || optionStrays otherwise
  | .for init _ post _ => optionStrays init || optionStrays post
  | .switch init _ cases => optionStrays init || j = .continue && casesStray cases
  | .typeSwitch init _ _ cases => optionStrays init || j = .continue && typeCasesStray cases
  | _ => false

def optionStrays : Option Stmt → Bool
  | none => false
  | some s => s.strays

def bodyStrays : List Stmt → Bool
  | [] => false
  | s :: rest => s.strays || bodyStrays rest

def SwitchCase.strays : SwitchCase → Bool
  | .mk _ _ body => bodyStrays body

def casesStray : List SwitchCase → Bool
  | [] => false
  | c :: rest => c.strays || casesStray rest

def TypeCase.strays : TypeCase → Bool
  | .mk _ _ body => bodyStrays body

def typeCasesStray : List TypeCase → Bool
  | [] => false
  | c :: rest => c.strays || typeCasesStray rest

end

end Strays

theorem casesStray_eq_any (j : Jump) (cases : List SwitchCase) :
    casesStray j cases = cases.any fun c => bodyStrays j c.body := by
  induction cases with
  | nil => rfl
  | cons c rest ih =>
      obtain ⟨isDefault, values, body⟩ := c
      rw [casesStray, ih]
      rfl

theorem typeCasesStray_eq_any (j : Jump) (cases : List TypeCase) :
    typeCasesStray j cases = cases.any fun c => bodyStrays j c.body := by
  induction cases with
  | nil => rfl
  | cons c rest ih =>
      obtain ⟨isDefault, types, body⟩ := c
      rw [typeCasesStray, ih]
      rfl

end Source

open Source

def Source.Jump.signal : Jump → Signal
  | .break => .break
  | .continue => .continue

/-! ## What actions end with -/

/-- What is asked of the end of an action: its result has a property, or it ends with one of certain
signals. -/
def EndsAs {α : Type} (Q : α → Prop) (J : Signal → Prop) : EStateM.Result Stop Machine α → Prop
  | .ok a _ => Q a
  | .error (.signal s) _ => J s
  | .error (.halt _) _ => True

/-- The same of an end that is kept as a value. -/
def Settles {α : Type} (Q : α → Prop) (J : Signal → Prop) : Except Signal α → Prop
  | .ok a => Q a
  | .error s => J s

/-- On every machine an action ends as it is asked to. -/
def Action.EndsIn {α : Type} (Q : α → Prop) (J : Signal → Prop) (x : Action α) : Prop :=
  ∀ m, EndsAs Q J (x m)

section

variable {α β : Type} {Q Q' : α → Prop} {R : β → Prop} {J K : Signal → Prop} {x : Action α}
  {m : Machine}

theorem EndsAs.weaken {r : EStateM.Result Stop Machine α} (ends : EndsAs Q J r)
    (result : ∀ a, Q a → Q' a) (signal : ∀ s, J s → K s) : EndsAs Q' K r := by
  cases r with
  | ok a m => exact result a ends
  | error stop m =>
      cases stop with
      | signal s => exact signal s ends
      | halt h => trivial

theorem EndsAs.anyhow (r : EStateM.Result Stop Machine α) :
    EndsAs (fun _ => True) (fun _ => True) r := by
  cases r with
  | ok a m => trivial
  | error stop m => cases stop <;> trivial

namespace Action

theorem bind_endsIn {f : α → Action β} (first : EndsIn Q J x)
    (rest : ∀ a, Q a → EndsIn R J (f a)) : EndsIn R J (EStateM.bind x f) := by
  intro m
  have ends := first m
  unfold EStateM.bind
  cases ran : x m with
  | ok a between =>
      rw [ran] at ends
      exact rest a ends between
  | error stop between =>
      rw [ran] at ends
      cases stop <;> exact ends

theorem outcome_endsIn (inner : EndsIn Q J x) : EndsIn (Settles Q J) K (Action.outcome x) := by
  intro m
  have ends := inner m
  unfold Action.outcome
  cases ran : x m with
  | ok a after =>
      rw [ran] at ends
      exact ends
  | error stop after =>
      rw [ran] at ends
      cases stop <;> exact ends

theorem iterate_endsIn {σ : Type} {round : σ → Action (Option σ)}
    (inner : ∀ s, EndsIn (fun _ => True) J (round s)) :
    ∀ (rounds : Nat) (s : σ), EndsIn (fun _ => True) J (Action.iterate round rounds s) := by
  intro rounds
  induction rounds with
  | zero => exact fun _ _ => trivial
  | succ rounds ih =>
      intro s m
      have ends := inner s m
      unfold Action.iterate
      cases ran : round s m with
      | ok next after =>
          cases next with
          | none => trivial
          | some next => exact ih next after
      | error stop after =>
          rw [ran] at ends
          cases stop <;> exact ends

theorem closing_endsAs (ends : EndsAs Q J (x m)) {give : α → Machine → β}
    (close : Machine → Machine) (given : ∀ a m, Q a → R (give a m)) :
    EndsAs R J (Action.closing give close x m) := by
  unfold Action.closing
  cases ran : x m with
  | ok a after =>
      rw [ran] at ends
      exact given a after ends
  | error stop after =>
      rw [ran] at ends
      cases stop <;> exact ends

theorem deeper_endsIn (inner : EndsIn Q J x) : EndsIn Q J (Action.deeper x) :=
  fun m => closing_endsAs (inner m.deeper) Machine.shallower fun _ _ holds => holds

theorem framed_endsIn (inner : EndsIn Q J x) :
    EndsIn (fun result => Q result.1) J (Action.framed x) :=
  fun m => closing_endsAs (inner m.framed) Machine.unframed fun _ _ holds => holds

theorem keepingPanic_endsIn (inner : EndsIn Q J x) : EndsIn Q J (Action.keepingPanic x) :=
  fun m => closing_endsAs (inner m) (Machine.withPanic m.panicking) fun _ _ holds => holds

/-! Counting, asking the host and putting calls off raise no signal of their own but a fault. -/

theorem checkStop_endsIn : EndsIn (fun _ => True) J Action.checkStop := by
  intro m
  unfold Action.checkStop
  split <;> trivial

theorem tick_endsIn : EndsIn (fun _ => True) J Action.tick := by
  intro m
  unfold Action.tick Action.checkBudget
  split
  · split
    · trivial
    · exact checkStop_endsIn _
  · exact checkStop_endsIn _

theorem checkDepth_endsIn : EndsIn (fun _ => True) J Action.checkDepth := by
  intro m
  unfold Action.checkDepth
  split <;> trivial

theorem addressOf_endsIn (p : Pointee) : EndsIn (fun _ => True) J (Action.addressOf p) := by
  intro m
  unfold Action.addressOf
  split <;> trivial

theorem takeOutcome_endsIn (reply : HostOutcome) :
    EndsIn (fun _ => True) J (Action.takeOutcome reply) := by
  intro m
  unfold Action.takeOutcome
  split
  · trivial
  · split <;> trivial
  · split <;> trivial

theorem askHost_endsIn (name : String) (place : Nat) (arguments : List Json) :
    EndsIn (fun _ => True) J (Action.askHost name place arguments) := by
  intro m
  unfold Action.askHost
  split
  · trivial
  · exact takeOutcome_endsIn _ _

theorem paid_endsIn {ready : Action α} {act : α → Action β}
    (first : EndsIn (fun _ => True) J ready) (rest : ∀ a, EndsIn (fun _ => True) J (act a)) :
    EndsIn (fun _ => True) J (Action.paid ready act) :=
  bind_endsIn tick_endsIn fun _ _ => bind_endsIn first fun a _ => rest a

theorem putOff_endsIn (faults : ∀ s, s.isFault = true → J s) (function : Value)
    (arguments : List Value) : EndsIn (fun _ => True) J (Action.putOff function arguments) := by
  intro m
  unfold Action.putOff
  split
  · trivial
  · exact faults _ rfl

/-! A function ends in the ways of its body and of its deferred calls. -/

theorem deferredCall_endsIn {call : Action Value} (inner : EndsIn (fun _ => True) J call)
    (more : ∀ s, J s → K s) {ended : Ending} (settled : Settles (fun _ => True) K ended) :
    EndsIn (Settles (fun _ => True) K) J (Action.deferredCall call ended) := by
  unfold Action.deferredCall
  refine bind_endsIn (Q := fun _ => True) (fun _ => trivial) fun _ _ =>
    bind_endsIn (outcome_endsIn inner) fun made known => ?_
  refine bind_endsIn (Q := fun _ => True) (fun _ => trivial) fun calm _ m => ?_
  cases made with
  | ok _ =>
      show Settles _ _ (if _ then _ else _)
      split
      · trivial
      · exact settled
  | error s => exact more s known

theorem unwind_endsIn {call : Deferred → Action Value}
    (calls : ∀ d, EndsIn (fun _ => True) J (call d)) (more : ∀ s, J s → K s)
    (frame : List Deferred) {ended : Ending} (settled : Settles (fun _ => True) K ended) :
    EndsIn (Settles (fun _ => True) K) J (Action.unwind call frame ended) := by
  induction frame generalizing ended with
  | nil => exact fun _ => settled
  | cons d rest ih =>
      unfold Action.unwind
      split
      · exact bind_endsIn (deferredCall_endsIn (calls d) more settled) fun _ settled => ih settled
      · exact fun _ => settled

theorem activation_endsIn {call : Deferred → Action Value} {body : Action (Option Value)}
    (calls : ∀ d, EndsIn (fun _ => True) J (call d)) (more : ∀ s, J s → K s)
    (inner : EndsIn (fun _ => True) K body) :
    EndsIn (Settles (fun _ => True) K) J (Action.activation call body) :=
  deeper_endsIn (bind_endsIn (framed_endsIn (outcome_endsIn inner)) fun result settled =>
    keepingPanic_endsIn (unwind_endsIn calls more result.2 settled))

theorem invocation_endsIn {call : Deferred → Action Value} {opening : Action α}
    {body : α → Action (Option Value)} (calls : ∀ d, EndsIn (fun _ => True) J (call d))
    (more : ∀ s, J s → K s) (first : EndsIn (fun _ => True) J opening)
    (rest : ∀ a, EndsIn (fun _ => True) K (body a)) :
    EndsIn (fun result => Settles (fun _ => True) K result.2) J
      (Action.invocation call opening body) := by
  have counted : EndsIn (fun _ => True) J
      (Action.paid Action.checkDepth fun _ => Action.undertake .function) :=
    paid_endsIn checkDepth_endsIn fun _ _ => trivial
  exact bind_endsIn (bind_endsIn counted fun _ _ => first) fun a _ =>
    bind_endsIn (activation_endsIn calls more (rest a)) fun _ settled _ => settled

end Action

/-! ## Computations that do not jump -/

/-- What a computation that does not jump ends with: a fault, or what the work ends with that it
asks its evaluator for. -/
theorem Built.calm_endsIn {jumps : Bool} {x : Evaluator → Action α} (built : Built jumps x)
    (calm : jumps = false) {ev : Evaluator} (faults : ∀ s, s.isFault = true → J s)
    (works : ∀ w, w.isStatement = false → Action.EndsIn (fun _ => True) J (ev.perform w)) :
    Action.EndsIn (fun _ => True) J (x ev) := by
  induction built with
  | pure a => exact fun _ => trivial
  | bind _ _ first rest => exact Action.bind_endsIn (first calm) fun a _ => rest a calm
  | view f => exact fun _ => trivial
  | onGuest f => exact fun _ => trivial
  | raise s allowed => exact fun _ => faults s (allowed.resolve_right (by simp [calm]))
  | exit code => exact fun _ => trivial
  | unfinished => exact fun _ => trivial
  | outcome _ =>
      -- Whatever happens inside is kept as a value.
      exact fun m => (Action.outcome_endsIn (fun m => EndsAs.anyhow _) m).weaken
        (fun _ _ => trivial) fun _ raised => raised
  | maxAlloc => exact fun _ => trivial
  | addressOf p => exact Action.addressOf_endsIn p
  | tick => exact Action.tick_endsIn
  | write stream text => exact fun _ => trivial
  | undertake u _ ready => exact Action.paid_endsIn (ready calm) fun _ _ => trivial
  | askHost name place _ arguments =>
      exact Action.paid_endsIn (arguments calm) (Action.askHost_endsIn name place)
  | perform w allowed =>
      exact fun m => works w (allowed.resolve_right (by simp [calm])) m.working
  | loop _ s inner => exact Action.iterate_endsIn (fun s => inner s calm) ev.rounds s
  | invocation _ _ first rest =>
      -- The same is true of the body.
      exact fun m => (Action.invocation_endsIn (K := fun _ => True)
        (fun d m => works (.call d.function d.arguments false) rfl m.working) (fun _ _ => trivial)
        (first calm) (fun a m => EndsAs.anyhow _) m).weaken (fun _ _ => trivial)
        fun _ raised => raised
  | putOff function arguments => exact Action.putOff_endsIn faults function arguments
  | recover => exact fun _ => trivial

end

/-! ## What statements end with -/

/-- The signals that a body may end with: those that its calls end with, and the jumps that stray
from it. -/
def Escapes (J : Signal → Prop) (strays : Jump → Bool) (s : Signal) : Prop :=
  J s ∨ ∃ j, s = Jump.signal j ∧ strays j = true

/-- Those that a statement may end with, which may also return. -/
def Leaves (J : Signal → Prop) (strays : Jump → Bool) (s : Signal) : Prop :=
  (∃ v, s = .return v) ∨ Escapes J strays s

theorem Leaves.wider {J : Signal → Prop} {p q : Jump → Bool} {s : Signal} (leaves : Leaves J p s)
    (more : ∀ j, p j = true → q j = true) : Leaves J q s := by
  rcases leaves with returns | early | ⟨j, isJump, strayed⟩
  · exact .inl returns
  · exact .inr (.inl early)
  · exact .inr (.inr ⟨j, isJump, more j strayed⟩)

/-- Those of a statement that stops all jumps. -/
abbrev Contained (J : Signal → Prop) : Signal → Prop := Leaves J fun _ => false

/-- An evaluator whose calls and expressions end with certain signals, and whose statements also by
returning or with a jump that strays from them. -/
structure Evaluator.EndsIn (J : Signal → Prop) (ev : Evaluator) : Prop where
  faults : ∀ s, s.isFault = true → J s
  works : ∀ w, w.isStatement = false → Action.EndsIn (fun _ => True) J (ev.perform w)
  statements : ∀ s scope,
    Action.EndsIn (fun _ => True) (Leaves J fun j => s.strays j) (ev.perform (.execute s scope))

/-- With a certain evaluator a computation ends as it is asked to. -/
def Computation.EndsIn {jumps : Bool} {α : Type} (ev : Evaluator) (Q : α → Prop)
    (J : Signal → Prop) (x : Computation jumps α) : Prop :=
  Action.EndsIn Q J (x.run ev)

namespace Flow

open SandboxedGo.Eval SandboxedGo.Computation

section

variable {α β : Type} {jumps : Bool} {ev : Evaluator} {J K : Signal → Prop} {Q : α → Prop}
  {R : β → Prop} {p q : Jump → Bool}

theorem wider {x : Flow α} (ends : EndsIn ev Q (Leaves J p) x)
    (more : ∀ j, p j = true → q j = true) : EndsIn ev Q (Leaves J q) x :=
  fun m => (ends m).weaken (fun _ holds => holds) fun _ leaves => leaves.wider more

theorem pure_endsIn {a : α} (holds : Q a) : EndsIn ev Q J (pure a : Computation jumps α) :=
  fun _ => holds

theorem bind_endsIn {x : Computation jumps α} {f : α → Computation jumps β}
    (first : EndsIn ev Q J x) (rest : ∀ a, Q a → EndsIn ev R J (f a)) : EndsIn ev R J (x >>= f) :=
  Action.bind_endsIn first rest

theorem outcome_endsIn {x : Computation jumps α} (inner : EndsIn ev Q K x) :
    EndsIn ev (Settles Q K) J (outcome x) :=
  Action.outcome_endsIn inner

theorem invocation_endsIn (parts : ev.EndsIn J) (more : ∀ s, J s → K s) {opening : Eval α}
    {body : α → Flow (Option Value)} (first : EndsIn ev (fun _ => True) J opening)
    (rest : ∀ a, EndsIn ev (fun _ => True) K (body a)) :
    EndsIn ev (fun result => Settles (fun _ => True) K result.2) J (invocation opening body) :=
  Action.invocation_endsIn
    (fun d m => parts.works (.call d.function d.arguments false) rfl m.working) more first rest

theorem calm_endsIn (parts : ev.EndsIn J) (x : Eval α) : EndsIn ev (fun _ => True) J x :=
  x.built.calm_endsIn rfl parts.faults parts.works

/-- A part that does not jump, of a computation that may end in more ways. -/
theorem lift_within (parts : ev.EndsIn J) (more : ∀ s, J s → K s) (x : Eval α) :
    EndsIn ev (fun _ => True) K (liftM x : Flow α) :=
  fun m => (calm_endsIn parts x m).weaken (fun _ _ => trivial) more

theorem behind_within (parts : ev.EndsIn J) (more : ∀ s, J s → K s) (x : Eval α) {f : α → Flow β}
    (rest : ∀ a, EndsIn ev R K (f a)) : EndsIn ev R K (liftM x >>= f) :=
  bind_endsIn (lift_within parts more x) fun a _ => rest a

theorem lift_endsIn (parts : ev.EndsIn J) (x : Eval α) :
    EndsIn ev (fun _ => True) (Leaves J p) (liftM x : Flow α) :=
  lift_within parts (fun _ early => .inr (.inl early)) x

theorem behind (parts : ev.EndsIn J) (x : Eval α) {f : α → Flow β}
    (rest : ∀ a, EndsIn ev R (Leaves J p) (f a)) :
    EndsIn ev R (Leaves J p) (liftM x >>= f) :=
  behind_within parts (fun _ early => .inr (.inl early)) x rest

/-- A statement may go on however something inside it ended. -/
theorem behind_outcome {γ : Type} {x : Flow γ} {S : γ → Prop} (inner : EndsIn ev S K x)
    {f : Except Signal γ → Flow β} (rest : ∀ r, Settles S K r → EndsIn ev R J (f r)) :
    EndsIn ev R J (liftM (outcome x) >>= f) :=
  bind_endsIn (x := (liftM (outcome x) : Flow _)) (outcome_endsIn inner) rest

end

variable {ev : Evaluator} {J : Signal → Prop}

theorem exec_endsIn (parts : ev.EndsIn J) (s : Stmt) (scope : ScopeId) :
    EndsIn ev (fun _ => True) (Leaves J fun j => s.strays j) (exec s scope) :=
  Action.bind_endsIn (Q := fun _ => True) (fun m => parts.statements s scope m.working)
    fun _ _ _ => trivial

theorem block_endsIn (parts : ev.EndsIn J) (body : List Stmt) (scope : ScopeId) :
    EndsIn ev (fun _ => True) (Leaves J fun j => bodyStrays j body) (block body scope) := by
  induction body with
  | nil => exact pure_endsIn trivial
  | cons s rest ih =>
      refine bind_endsIn (wider (exec_endsIn parts s scope) fun j strays => ?_) fun _ _ => ?_
      · simp [bodyStrays, strays]
      · exact wider ih fun j strays => by simp [bodyStrays, strays]

theorem execOptional_endsIn (parts : ev.EndsIn J) (s : Option Stmt) (scope : ScopeId) :
    EndsIn ev (fun _ => True) (Leaves J fun j => optionStrays j s) (execOptional s scope) := by
  cases s with
  | none => exact pure_endsIn trivial
  | some s => exact exec_endsIn parts s scope

/-! ### Loops -/

theorem loopBody_endsIn (parts : ev.EndsIn J) (body : List Stmt) (scope : ScopeId) :
    EndsIn ev (fun _ => True) (Contained J) (loopBody body scope) := by
  refine behind_outcome (block_endsIn parts body scope) fun r _ => ?_
  cases r with
  | ok _ => exact pure_endsIn trivial
  | error s =>
      cases s with
      | «break» => exact pure_endsIn trivial
      | «continue» => exact pure_endsIn trivial
      | «return» v => exact fun _ => .inl ⟨v, rfl⟩
      | panic cause => exact fun _ => .inr (.inl (parts.faults _ rfl))
      | error cause => exact fun _ => .inr (.inl (parts.faults _ rfl))

theorem round_endsIn (parts : ev.EndsIn J) (names : List String) (test : Option Expr)
    (post : Option Stmt) (body : List Stmt) (scope inner : ScopeId) :
    EndsIn ev (fun _ => True) (Leaves J fun j => optionStrays j post)
      (round names test post body scope inner) := by
  refine behind parts _ fun _ => behind parts _ fun holds => ?_
  cases holds with
  | false => exact pure_endsIn trivial
  | true =>
      refine behind parts _ fun fresh => ?_
      refine bind_endsIn (wider (loopBody_endsIn parts body fresh) nofun) fun goesOn _ => ?_
      cases goesOn with
      | false => exact pure_endsIn trivial
      | true =>
          -- Only what is executed behind the round may stray from the loop.
          have behindRound (next : ScopeId) : EndsIn ev (fun _ => True)
              (Leaves J fun j => optionStrays j post)
              (execOptional post next >>= fun _ => pure (some next)) :=
            bind_endsIn (execOptional_endsIn parts post next) fun _ _ => pure_endsIn trivial
          simp only [if_pos]
          split
          · cases post <;> exact behindRound inner
          · refine behind parts _ fun next => behind parts _ fun _ => ?_
            cases post <;> exact behindRound next

theorem forLoop_endsIn (parts : ev.EndsIn J) (init : Option Stmt) (test : Option Expr)
    (post : Option Stmt) (body : List Stmt) (scope : ScopeId) :
    EndsIn ev (fun _ => True) (Leaves J fun j => optionStrays j init || optionStrays j post)
      (forLoop init test post body scope) := by
  refine behind parts _ fun inner => ?_
  refine bind_endsIn (wider (execOptional_endsIn parts init inner) fun j strays => ?_) fun _ _ => ?_
  · simp [strays]
  · refine wider (p := fun j => optionStrays j post) ?_ fun j strays => by simp [strays]
    exact Action.iterate_endsIn
      (fun inner => round_endsIn parts (loopNames init) test post body scope inner) ev.rounds inner

/-! ### Ranges -/

theorem goesOn_endsIn {x : Flow Bool} {rest : Flow Unit}
    (round : EndsIn ev (fun _ => True) (Contained J) x)
    (others : EndsIn ev (fun _ => True) (Contained J) rest) :
    EndsIn ev (fun _ => True) (Contained J) (do if ← x then rest) := by
  refine bind_endsIn round fun goesOn _ => ?_
  cases goesOn with
  | false => exact pure_endsIn trivial
  | true => exact others

section

variable (parts : ev.EndsIn J) (l : RangeLoop)

include parts

theorem range_round_endsIn (key value : Value) :
    EndsIn ev (fun _ => True) (Contained J) (l.round key value) := by
  refine behind parts _ fun _ => behind parts _ fun inner => ?_
  have body := loopBody_endsIn parts l.body inner
  split
  · refine behind parts _ fun _ => ?_
    split
    · exact behind parts _ fun _ => behind parts _ fun _ => body
    · exact body
  · refine behind parts _ fun _ => ?_
    split
    · exact behind parts _ fun _ => behind parts _ fun _ => body
    · exact body

theorem overElements_endsIn (items : SliceView) (left place : Nat) :
    EndsIn ev (fun _ => True) (Contained J) (l.overElements items left place) := by
  induction left generalizing place with
  | zero => exact pure_endsIn trivial
  | succ left ih =>
      exact behind parts _ fun item => goesOn_endsIn (range_round_endsIn parts l _ item) (ih _)

theorem overEntries_endsIn (entries : Option MapId) (listed : List (MapKey × Value)) :
    EndsIn ev (fun _ => True) (Contained J) (l.overEntries entries listed) := by
  induction listed with
  | nil => exact pure_endsIn trivial
  | cons entry rest ih =>
      refine behind parts _ fun found => ?_
      split
      · exact ih
      · exact goesOn_endsIn (range_round_endsIn parts l _ _) ih

theorem overChars_endsIn (place : Nat) (chars : List Char) :
    EndsIn ev (fun _ => True) (Contained J) (l.overChars place chars) := by
  induction chars generalizing place with
  | nil => exact pure_endsIn trivial
  | cons c rest ih => exact goesOn_endsIn (range_round_endsIn parts l _ _) (ih _)

theorem overNumbers_endsIn (left : Nat) (n : Int64) :
    EndsIn ev (fun _ => True) (Contained J) (l.overNumbers left n) := by
  induction left generalizing n with
  | zero => exact pure_endsIn trivial
  | succ left ih => exact goesOn_endsIn (range_round_endsIn parts l _ _) (ih _)

theorem range_endsIn (subject : Value) :
    EndsIn ev (fun _ => True) (Contained J) (l.run subject) := by
  unfold RangeLoop.run
  split
  · exact overElements_endsIn parts l _ _ _
  · exact behind parts _ fun listed => overEntries_endsIn parts l _ listed
  · exact overChars_endsIn parts l 0 _
  · split
    · exact lift_endsIn parts _
    · exact overNumbers_endsIn parts l _ _
  · exact pure_endsIn trivial
  · exact behind parts _ fun _ => lift_endsIn parts _

end

/-! ### Switches -/

/-- The jumps that a switch lets through of those that stray from its cases. -/
def pastSwitch (strays : Jump → Bool) (j : Jump) : Bool := j = .continue && strays j

theorem pastSwitch_mono {strays strays' : Jump → Bool}
    (more : ∀ j, strays j = true → strays' j = true) (j : Jump)
    (past : pastSwitch strays j = true) : pastSwitch strays' j = true := by
  simp only [pastSwitch, Bool.and_eq_true] at past ⊢
  exact ⟨past.1, more j past.2⟩

theorem caseBody_endsIn (parts : ev.EndsIn J) (body : List Stmt) (scope : ScopeId) :
    EndsIn ev (fun _ => True) (Leaves J (pastSwitch fun j => bodyStrays j body))
      (caseBody body scope) := by
  refine behind_outcome (block_endsIn parts body scope) fun r ended => ?_
  cases r with
  | ok _ => exact pure_endsIn trivial
  | error s =>
      cases s with
      | «break» => exact pure_endsIn trivial
      | «continue» =>
          intro m
          rcases ended with ⟨v, isReturn⟩ | early | ⟨j, isJump, strays⟩
          · cases isReturn
          · exact .inr (.inl early)
          · cases j with
            | «break» => cases isJump
            | «continue» => exact .inr (.inr ⟨.continue, rfl, strays⟩)
      | «return» v => exact fun _ => .inl ⟨v, rfl⟩
      | panic cause => exact fun _ => .inr (.inl (parts.faults _ rfl))
      | error cause => exact fun _ => .inr (.inl (parts.faults _ rfl))

theorem runCases_endsIn (parts : ev.EndsIn J) (scope : ScopeId) (cases : List SwitchCase) :
    EndsIn ev (fun _ => True) (Leaves J (pastSwitch fun j => casesStray j cases))
      (runCases scope cases) := by
  induction cases with
  | nil => exact pure_endsIn trivial
  | cons c rest ih =>
      obtain ⟨isDefault, values, body⟩ := c
      refine behind parts _ fun inner => ?_
      refine bind_endsIn (wider (caseBody_endsIn parts body inner) ?_) fun left _ => ?_
      · exact pastSwitch_mono fun j strays => by simp [casesStray, SwitchCase.strays, strays]
      · split
        · exact wider ih (pastSwitch_mono fun j strays => by simp [casesStray, strays])
        · exact pure_endsIn trivial

theorem hitCases_endsIn (parts : ev.EndsIn J) (tag : Option Value) (scope : ScopeId)
    (cases : List SwitchCase) : EndsIn ev (· <:+ cases) J (hitCases tag scope cases) := by
  induction cases with
  | nil => exact fun _ => List.suffix_refl []
  | cons c rest ih =>
      refine Action.bind_endsIn (calm_endsIn parts _) fun hit _ => ?_
      cases hit with
      | true => exact fun _ => List.suffix_refl _
      | false =>
          exact fun m => (ih m).weaken (fun _ suffix => suffix.trans (List.suffix_cons c rest))
            fun _ raised => raised

/-- What strays from some of the cases of a switch strays from all of them. -/
theorem runCases_suffix_endsIn (parts : ev.EndsIn J) (scope : ScopeId)
    {hits cases : List SwitchCase} (suffix : hits <:+ cases) :
    EndsIn ev (fun _ => True) (Leaves J (pastSwitch (casesStray · cases)))
      (runCases scope hits) := by
  refine wider (runCases_endsIn parts scope hits) (pastSwitch_mono fun j strays => ?_)
  rw [casesStray_eq_any, List.any_eq_true] at strays ⊢
  obtain ⟨c, isIn, strays⟩ := strays
  exact ⟨c, suffix.subset isIn, strays⟩

theorem chosenCases_endsIn (parts : ev.EndsIn J) (tag : Option Value) (scope : ScopeId)
    (cases : List SwitchCase) :
    EndsIn ev (fun _ => True) (Leaves J (pastSwitch (casesStray · cases)))
      (do
        match ← (hitCases tag scope cases : Flow (List SwitchCase)) with
        | [] => runCases scope (cases.dropWhile fun c => !c.isDefault)
        | hits => runCases scope hits) := by
  refine bind_endsIn (Q := (· <:+ cases)) ?_ fun hits suffix => ?_
  · exact fun m => (hitCases_endsIn parts tag scope cases m).weaken (fun _ isIn => isIn)
      fun _ early => .inr (.inl early)
  · cases hits with
    | nil => exact runCases_suffix_endsIn parts scope (List.dropWhile_suffix _)
    | cons c rest => exact runCases_suffix_endsIn parts scope suffix

theorem switch_endsIn (parts : ev.EndsIn J) (init : Option Stmt) (tag : Option Expr)
    (cases : List SwitchCase) (scope : ScopeId) :
    EndsIn ev (fun _ => True)
      (Leaves J fun j => optionStrays j init || pastSwitch (casesStray · cases) j)
      (switch init tag cases scope) := by
  refine behind parts _ fun inner => ?_
  refine bind_endsIn (wider (execOptional_endsIn parts init inner) fun j strays => ?_) fun _ _ => ?_
  · simp [strays]
  · refine wider (p := pastSwitch (casesStray · cases)) ?_ fun j past => by simp [past]
    cases tag with
    | none => exact chosenCases_endsIn parts none inner cases
    | some e =>
        exact behind parts (some <$> eval e inner) fun tag =>
          chosenCases_endsIn parts tag inner cases

theorem typeCase_mem {g : Guest} {v : Value} {cases : List TypeCase} {c : TypeCase}
    (found : typeCase g v cases = some (some c)) : c ∈ cases := by
  unfold typeCase at found
  induction cases with
  | nil => cases found
  | cons first rest ih =>
      obtain ⟨hit, isHit, found⟩ := Option.bind_eq_some_iff.mp found
      cases hit with
      | true =>
          cases found
          exact List.mem_cons_self
      | false => exact List.mem_cons_of_mem first (ih found)

theorem chosenCase_endsIn (parts : ev.EndsIn J) {cases : List TypeCase} {c : TypeCase}
    (isIn : c ∈ cases) (binding : Option String) (bound : Value) (scope : ScopeId) :
    EndsIn ev (fun _ => True) (Leaves J (pastSwitch (typeCasesStray · cases)))
      (do
        let body ← (newScope scope : Flow ScopeId)
        match binding with
        | some name => define body name bound none
        | none => pure ()
        let _ ← caseBody c.body body) := by
  refine behind parts _ fun body => ?_
  have executed : EndsIn ev (fun _ => True) (Leaves J (pastSwitch (typeCasesStray · cases)))
      (caseBody c.body body) := by
    refine wider (caseBody_endsIn parts c.body body) (pastSwitch_mono fun j strays => ?_)
    rw [typeCasesStray_eq_any, List.any_eq_true]
    exact ⟨c, isIn, strays⟩
  cases binding with
  | none => exact bind_endsIn executed fun _ _ => pure_endsIn trivial
  | some name =>
      exact behind parts _ fun _ => bind_endsIn executed fun _ _ => pure_endsIn trivial

theorem typeSwitch_endsIn (parts : ev.EndsIn J) (init : Option Stmt) (binding : Option String)
    (subject : Expr) (cases : List TypeCase) (scope : ScopeId) :
    EndsIn ev (fun _ => True)
      (Leaves J fun j => optionStrays j init || pastSwitch (typeCasesStray · cases) j)
      (typeSwitch init binding subject cases scope) := by
  refine behind parts _ fun inner => ?_
  refine bind_endsIn (wider (execOptional_endsIn parts init inner) fun j strays => ?_) fun _ _ => ?_
  · simp [strays]
  · refine wider (p := pastSwitch (typeCasesStray · cases)) ?_ fun j past => by simp [past]
    refine behind parts _ fun v => ?_
    refine bind_endsIn (Q := fun found => ∃ g, found = typeCase g v cases)
      (fun m => ⟨m.toGuest, rfl⟩) fun found isFound => ?_
    refine bind_endsIn (Q := fun found' => found = some found') ?_ fun found' is => ?_
    · cases found with
      | none => exact fun _ => trivial
      | some found => exact pure_endsIn rfl
    · obtain ⟨g, isFound⟩ := isFound
      rw [is] at isFound
      cases found' with
      | some c =>
          exact behind parts _ fun bound =>
            chosenCase_endsIn parts (typeCase_mem isFound.symm) binding bound inner
      | none =>
          cases default : cases.find? (·.isDefault) with
          | none => exact pure_endsIn trivial
          | some c =>
              exact chosenCase_endsIn parts (List.mem_of_find?_eq_some default) binding v inner

/-! ### All statements -/

theorem branch_endsIn (parts : ev.EndsIn J) (init : Option Stmt) (test : Expr) (body : List Stmt)
    (otherwise : Option Stmt) (scope : ScopeId) :
    EndsIn ev (fun _ => True)
      (Leaves J fun j => optionStrays j init || bodyStrays j body || optionStrays j otherwise)
      (branch init test body otherwise scope) := by
  refine behind parts _ fun inner => ?_
  refine bind_endsIn (wider (execOptional_endsIn parts init inner) fun j strays => ?_) fun _ _ => ?_
  · simp [strays]
  · refine behind parts _ fun v => behind parts _ fun holds => ?_
    split
    · refine behind parts _ fun fresh => wider (block_endsIn parts body fresh) fun j strays => ?_
      simp [strays]
    · refine wider (execOptional_endsIn parts otherwise inner) fun j strays => ?_
      simp [strays]

/-- A statement ends in faults and in what its calls end with, in a return, and in the jumps that
stray from it. -/
theorem execute_endsIn (parts : ev.EndsIn J) (s : Stmt) (scope : ScopeId) :
    EndsIn ev (fun _ => True) (Leaves J fun j => s.strays j) (execute s scope) := by
  obtain ⟨line, kind⟩ := s
  refine behind parts _ fun _ => behind parts _ fun _ => ?_
  cases kind with
  | empty => exact pure_endsIn trivial
  | fallthrough => exact pure_endsIn trivial
  | expr e => exact behind parts _ fun _ => pure_endsIn trivial
  | var spec => exact lift_endsIn parts _
  | const spec => exact lift_endsIn parts _
  | typeDecl spec => exact lift_endsIn parts _
  | define names values => exact lift_endsIn parts _
  | assign targets values => exact behind parts _ fun _ => lift_endsIn parts _
  | opAssign op target value =>
      exact behind parts _ fun _ => behind parts _ fun _ => behind parts _ fun _ =>
        lift_endsIn parts _
  | increment target =>
      exact behind parts _ fun _ => behind parts _ fun _ => lift_endsIn parts _
  | decrement target =>
      exact behind parts _ fun _ => behind parts _ fun _ => lift_endsIn parts _
  | block body => exact behind parts _ fun fresh => block_endsIn parts body fresh
  | «if» init test body otherwise => exact branch_endsIn parts init test body otherwise scope
  | «for» init test post body => exact forLoop_endsIn parts init test post body scope
  | range key value define subject body =>
      exact behind parts _ fun v => wider (range_endsIn parts _ v) nofun
  | switch init tag cases => exact switch_endsIn parts init tag cases scope
  | typeSwitch init binding subject cases =>
      exact typeSwitch_endsIn parts init binding subject cases scope
  | «return» es => exact behind parts _ fun v _ => .inl ⟨v, rfl⟩
  | «break» => exact fun _ => .inr (.inr ⟨.break, rfl, rfl⟩)
  | «continue» => exact fun _ => .inr (.inr ⟨.continue, rfl, rfl⟩)
  | defer e => exact lift_endsIn parts _

end Flow

end SandboxedGo
