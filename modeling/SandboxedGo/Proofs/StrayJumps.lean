import SandboxedGo.Proofs.Jumps

/-!
# Jumps out of functions

A call turns a return of its body into its result, but lets a `break` or a `continue` through that
strays from the body.  So a call ends early by a panic, an error or a jump, and in the last case a
function has been called whose body that jump strays from.  To say so, a run is compared with one
that leaves the calls of such functions undone.
-/

set_option autoImplicit false

namespace SandboxedGo

open Source

/-- Whether a jump strays from the body of a function of the program. -/
def Value.strays (j : Jump) : Value → Bool
  | .func (.closure _ f _) => bodyStrays j f.body
  | .func (.method _ decl) => bodyStrays j decl.function.body
  | _ => false

/-! ## What calls end with -/

namespace Flow

open SandboxedGo.Eval SandboxedGo.Computation

variable {ev : Evaluator} {J K : Signal → Prop}

theorem returnedBy_endsIn (parts : ev.EndsIn J) (body : List Stmt) (scope : ScopeId) :
    EndsIn ev (fun _ => True) (Escapes J fun j => bodyStrays j body) (returnedBy body scope) := by
  refine bind_endsIn (x := (liftM (outcome _) : Flow _))
    (outcome_endsIn (block_endsIn parts body scope)) fun r ended => ?_
  cases r with
  | ok _ => exact pure_endsIn trivial
  | error s =>
      rcases ended with ⟨v, rfl⟩ | escapes
      · exact pure_endsIn trivial
      · cases s with
        | «return» v => exact pure_endsIn trivial
        | panic cause => exact fun _ => escapes
        | error cause => exact fun _ => escapes
        | «break» => exact fun _ => escapes
        | «continue» => exact fun _ => escapes

theorem runBody_endsIn (parts : ev.EndsIn J) (body : List Stmt) (scope : ScopeId)
    (named : Option (List String)) :
    EndsIn ev (fun _ => True) (Escapes J fun j => bodyStrays j body)
      (runBody body scope named) :=
  bind_endsIn (returnedBy_endsIn parts body scope) fun _ _ =>
    behind_within parts (fun _ => .inl) _ fun _ => pure_endsIn trivial

/-- A call ends in faults and in what the calls inside it end with, and lets the jumps through that
stray from its body. -/
theorem invoke_endsIn (parts : ev.EndsIn J) (f : FuncLit) (env : ScopeId)
    (receiver : Option (String × Value)) (arguments : List Value) (spread : Bool) :
    EndsIn ev (fun _ => True) (Escapes J fun j => bodyStrays j f.body)
      (invoke f env receiver arguments spread) := by
  have more (s : Signal) (early : J s) : Escapes J (fun j => bodyStrays j f.body) s := .inl early
  have entered := invocation_endsIn parts more
    (calm_endsIn parts (openScope f env receiver arguments spread))
    fun scope => runBody_endsIn parts f.body scope (FuncLit.namedResults? f)
  refine bind_endsIn (x := (liftM (invocation _ _) : Flow _))
    (fun m => (entered m).weaken (fun _ settled => settled) more) fun (scope, ended) settled => ?_
  refine bind_endsIn (Q := fun _ => True) ?_ fun returned _ => lift_within parts more _
  cases ended with
  | ok returned => exact pure_endsIn trivial
  | error s => exact fun _ => settled

theorem invokeMethod_endsIn (parts : ev.EndsIn J) (decl : FuncDecl) (v : Value)
    (arguments : List Value) (spread : Bool) :
    EndsIn ev (fun _ => True) (Escapes J fun j => bodyStrays j decl.function.body)
      (invokeMethod decl v arguments spread) := by
  unfold invokeMethod
  cases decl.receiver with
  | none => exact lift_within parts (fun _ => .inl) _
  | some receiver =>
      exact behind_within parts (fun _ => .inl) _ fun _ => invoke_endsIn parts _ _ _ _ _

/-- What a call ends with, whatever it is that is called. -/
theorem apply_endsIn (parts : ev.EndsIn J) (function : Value) (arguments : List Value)
    (spread : Bool) :
    EndsIn ev (fun _ => True) (Escapes J fun j => function.strays j)
      (apply function arguments spread) := by
  have more (s : Signal) (early : J s) : Escapes J (fun j => function.strays j) s := .inl early
  -- All functions but those of the program first get their arguments, which may be spread.
  have given {f : List Value → Flow Value}
      (rest : ∀ given, EndsIn ev (fun _ => True) (Escapes J fun j => function.strays j) (f given)) :
      EndsIn ev (fun _ => True) (Escapes J fun j => function.strays j)
        (if spread = true then liftM (expandSpread arguments) >>= f else pure arguments >>= f) := by
    split
    · exact behind_within parts more _ rest
    · exact bind_endsIn (Q := fun _ => True) (pure_endsIn trivial) fun _ _ => rest _
  unfold apply
  split
  · exact invoke_endsIn parts _ _ _ _ _
  · exact invokeMethod_endsIn parts _ _ _ _
  · exact given fun _ => lift_within parts more _
  · exact given fun _ => behind_within parts more _ fun _ => lift_within parts more _
  · exact given fun _ => lift_within parts more _
  · exact lift_within parts more _
  · exact behind_within parts more _ fun _ => lift_within parts more _

end Flow

/-! ## Runs without some calls -/

/-- Whether work is a call of one of certain functions. -/
def Work.isCallOf (those : Value → Bool) : Work → Bool
  | .call function _ _ => those function
  | _ => false

/-- Do work that is nested less than `depth` deep, but leave calls of certain functions undone. -/
def performWithout (those : Value → Bool) : (depth : Nat) → Work → Action Value
  | 0, _ => Action.halt .unfinished
  | depth + 1, w =>
    if w.isCallOf those then Action.halt .unfinished
    else w.step.run ⟨depth, performWithout those depth⟩

/-- An action does what another one does, or is left unfinished. -/
def Action.LeftBehind {α : Type} (x' x : Action α) : Prop :=
  ∀ m, x' m = x m ∨ ∃ m', x' m = .error (.halt .unfinished) m'

section

variable {α β : Type} {x x' : Action α}

namespace Action

theorem LeftBehind.refl (x : Action α) : LeftBehind x x := fun _ => .inl rfl

theorem bind_leftBehind {f f' : α → Action β} (first : LeftBehind x' x)
    (rest : ∀ a, LeftBehind (f' a) (f a)) :
    LeftBehind (EStateM.bind x' f') (EStateM.bind x f) := by
  intro m
  unfold EStateM.bind
  rcases first m with same | ⟨m', undone⟩
  · rw [same]
    cases x m with
    | ok a between => exact rest a between
    | error stop between => exact .inl rfl
  · exact .inr ⟨m', by rw [undone]⟩

theorem paid_leftBehind {act : α → Action β} (ready : LeftBehind x' x) :
    LeftBehind (Action.paid x' act) (Action.paid x act) :=
  bind_leftBehind (.refl _) fun _ => bind_leftBehind ready fun _ => .refl _

theorem outcome_leftBehind (inner : LeftBehind x' x) :
    LeftBehind (Action.outcome x') (Action.outcome x) := by
  intro m
  unfold Action.outcome
  rcases inner m with same | ⟨m', undone⟩
  · exact .inl (by rw [same])
  · exact .inr ⟨m', by rw [undone]⟩

theorem iterate_leftBehind {σ : Type} {round round' : σ → Action (Option σ)}
    (inner : ∀ s, LeftBehind (round' s) (round s)) (rounds : Nat) (s : σ) :
    LeftBehind (Action.iterate round' rounds s) (Action.iterate round rounds s) := by
  induction rounds generalizing s with
  | zero => exact .refl _
  | succ rounds ih =>
      intro m
      unfold Action.iterate
      rcases inner s m with same | ⟨m', undone⟩
      · rw [same]
        cases round s m with
        | ok next after =>
            cases next with
            | none => exact .inl rfl
            | some next => exact ih next after
        | error stop after => exact .inl rfl
      · exact .inr ⟨m', by rw [undone]⟩

theorem closing_leftBehind (inner : LeftBehind x' x) (give : α → Machine → β)
    (close : Machine → Machine) :
    LeftBehind (Action.closing give close x') (Action.closing give close x) := by
  intro m
  unfold Action.closing
  rcases inner m with same | ⟨m', undone⟩
  · exact .inl (by rw [same])
  · exact .inr ⟨close m', by rw [undone]⟩

theorem deferredCall_leftBehind {call call' : Action Value} (inner : LeftBehind call' call)
    (ended : Ending) :
    LeftBehind (Action.deferredCall call' ended) (Action.deferredCall call ended) := by
  unfold Action.deferredCall
  exact bind_leftBehind (.refl _) fun _ => bind_leftBehind (outcome_leftBehind inner)
    fun _ => .refl _

theorem unwind_leftBehind {call call' : Deferred → Action Value}
    (calls : ∀ d, LeftBehind (call' d) (call d)) (frame : List Deferred) (ended : Ending) :
    LeftBehind (Action.unwind call' frame ended) (Action.unwind call frame ended) := by
  induction frame generalizing ended with
  | nil => exact .refl _
  | cons d rest ih =>
      unfold Action.unwind
      split
      · exact bind_leftBehind (deferredCall_leftBehind (calls d) ended) ih
      · exact .refl _

theorem invocation_leftBehind {call call' : Deferred → Action Value}
    (calls : ∀ d, LeftBehind (call' d) (call d)) (opened : LeftBehind x' x)
    {body body' : α → Action (Option Value)} (inner : ∀ a, LeftBehind (body' a) (body a)) :
    LeftBehind (Action.invocation call' x' body') (Action.invocation call x body) := by
  refine bind_leftBehind (bind_leftBehind (.refl _) fun _ => opened) fun a =>
    bind_leftBehind (fun m => closing_leftBehind ?_ _ _ m.deeper) fun _ => .refl _
  refine bind_leftBehind (fun m => closing_leftBehind (outcome_leftBehind (inner a)) _ _ m.framed)
    fun result m => ?_
  exact closing_leftBehind (unwind_leftBehind calls result.2 result.1) _ _ m

end Action

/-- A computation whose work may be left undone does the same, or is left unfinished itself: nothing
in a program can hold that up. -/
theorem Built.leftBehind {jumps : Bool} {x : Evaluator → Action α} (built : Built jumps x)
    {ev ev' : Evaluator} (rounds : ev'.rounds = ev.rounds)
    (works : ∀ w, Action.LeftBehind (ev'.perform w) (ev.perform w)) :
    Action.LeftBehind (x ev') (x ev) := by
  induction built with
  | bind _ _ first rest => exact Action.bind_leftBehind first rest
  | outcome _ inner => exact Action.outcome_leftBehind inner
  | undertake u _ ready => exact Action.paid_leftBehind ready
  | askHost name place _ arguments => exact Action.paid_leftBehind arguments
  | perform w => exact fun m => works w m.working
  | loop _ s inner =>
      show Action.LeftBehind (Action.iterate _ ev'.rounds s) (Action.iterate _ ev.rounds s)
      rw [rounds]
      exact Action.iterate_leftBehind inner ev.rounds s
  | invocation _ _ opened inner =>
      exact Action.invocation_leftBehind (fun _ m => works _ m.working) opened inner
  | _ => exact .refl _

end

theorem performWithout_leftBehind (those : Value → Bool) (depth : Nat) (w : Work) :
    Action.LeftBehind (performWithout those depth w) (perform depth w) := by
  induction depth generalizing w with
  | zero => exact .refl _
  | succ depth ih =>
      unfold performWithout
      split
      · exact fun m => .inr ⟨_, rfl⟩
      · exact w.step.built.leftBehind rfl ih

theorem performWithout_none (depth : Nat) :
    performWithout (fun _ => false) depth = perform depth := by
  induction depth with
  | zero => rfl
  | succ depth ih =>
      funext w
      have called : w.isCallOf (fun _ => false) = false := by cases w <;> rfl
      simp only [performWithout, perform, called, ih, Bool.false_eq_true, if_false]

/-- Work without the calls of certain functions ends with certain signals, if faults are among them
and all jumps that stray from the other functions. -/
theorem performWithout_endsIn (those : Value → Bool) (J : Signal → Prop)
    (faults : ∀ s, s.isFault = true → J s)
    (others : ∀ function j, those function = false → function.strays j = true → J (Jump.signal j))
    (depth : Nat) : Evaluator.EndsIn J ⟨depth, performWithout those depth⟩ := by
  induction depth with
  | zero => exact ⟨faults, fun _ _ _ => trivial, fun _ _ _ => trivial⟩
  | succ depth ih =>
      refine ⟨faults, fun w calm => ?_, fun s scope => ?_⟩
      · cases w with
        | execute s scope => cases calm
        | evaluate e scope => exact Flow.calm_endsIn ih (Eval.evaluate e scope)
        | render v =>
            exact Flow.bind_endsIn (Flow.calm_endsIn ih (Format.innerText v)) fun _ _ _ => trivial
        | directive verb v spec =>
            exact Flow.bind_endsIn (Flow.calm_endsIn ih (Format.directiveText verb v spec))
              fun _ _ _ => trivial
        | call function arguments spread =>
            unfold performWithout
            split
            · exact fun _ => trivial
            · rename_i kept
              refine fun m => (Flow.apply_endsIn ih function arguments spread m).weaken
                (fun _ _ => trivial) fun s escapes => ?_
              rcases escapes with early | ⟨j, rfl, strays⟩
              · exact early
              · exact others function j (by simpa [Work.isCallOf] using kept) strays
      · exact Flow.bind_endsIn (Flow.execute_endsIn ih s scope) fun _ _ _ => trivial

/-! ## What leaves a function -/

section

variable {depth : Nat} {function : Value} {arguments : List Value} {spread : Bool} {m m' : Machine}

theorem call_never_returns (v : Value) :
    perform depth (.call function arguments spread) m ≠ .error (.signal (.return v)) m' := by
  intro ended
  have parts := performWithout_endsIn (fun _ => false) (fun s => ∀ v, s ≠ .return v)
    (fun s isFault v is => by rw [is] at isFault; cases isFault)
    (fun _ j _ _ v is => by cases j <;> cases is) depth
  have ends : EndsAs (fun _ => True) (fun s => ∀ v, s ≠ .return v)
      (performWithout (fun _ => false) depth (.call function arguments spread) m) :=
    parts.works (.call function arguments spread) rfl m
  rw [performWithout_none, ended] at ends
  exact ends v rfl

/-- A call that a jump leaves is left undone without the functions which that jump strays from. -/
theorem jump_needs_stray {j : Jump}
    (ended : perform depth (.call function arguments spread) m =
      .error (.signal (Jump.signal j)) m') :
    ∃ m'', performWithout (Value.strays j) depth (.call function arguments spread) m =
      .error (.halt .unfinished) m'' := by
  have parts := performWithout_endsIn (Value.strays j) (fun s => s ≠ Jump.signal j)
    (fun s isFault is => by rw [is] at isFault; cases j <;> cases isFault)
    (fun f j' kept strays is => by
      have same : j' = j := by cases j <;> cases j' <;> first | rfl | cases is
      rw [same, kept] at strays
      cases strays) depth
  have ends : EndsAs (fun _ => True) (fun s => s ≠ Jump.signal j)
      (performWithout (Value.strays j) depth (.call function arguments spread) m) :=
    parts.works (.call function arguments spread) rfl m
  rcases performWithout_leftBehind (Value.strays j) depth (.call function arguments spread) m
    with same | undone
  · rw [same, ended] at ends
    exact absurd rfl ends
  · exact undone

end

/-- A call that ends early with a signal ends with a panic or an error; or with a `break` or a
`continue`, and then a function was called whose body that jump strays from: without the calls of
such functions the same call is left undone. -/
theorem escaping_jump_is_stray (depth : Nat) (function : Value) (arguments : List Value)
    (spread : Bool) (m m' : Machine) (s : Signal)
    (ended : perform depth (.call function arguments spread) m = .error (.signal s) m') :
    s.isFault = true ∨ ∃ j, s = Jump.signal j ∧
      ∃ m'', performWithout (Value.strays j) depth (.call function arguments spread) m =
        .error (.halt .unfinished) m'' := by
  cases s with
  | panic cause => exact .inl rfl
  | error cause => exact .inl rfl
  | «return» v => exact absurd ended (call_never_returns v)
  | «break» => exact .inr ⟨.break, rfl, jump_needs_stray ended⟩
  | «continue» => exact .inr ⟨.continue, rfl, jump_needs_stray ended⟩

def breaker : FuncLit := .mk [] [] false [.mk 3 .break]

theorem escaping_jump_is_stray_breaker :
    let function := Value.func (.closure "f" breaker globalScope)
    ∃ m', perform 3 (.call function [] false) (Machine.initial {}) =
        .error (.signal .break) m' ∧
      (Signal.break.isFault = true ∨ ∃ j, Signal.break = Jump.signal j ∧
        ∃ m'', performWithout (Value.strays j) 3 (.call function [] false) (Machine.initial {}) =
          .error (.halt .unfinished) m'') :=
  ⟨_, rfl, escaping_jump_is_stray 3 _ [] false (Machine.initial {}) _ .break rfl⟩

/-- A program that does nothing but call it, in an endless loop. -/
def callingProgram : Program where
  package := "main"
  imports := []
  decls :=
    let loop : Stmt :=
      .mk 2 (.for none none none [.mk 3 (.expr (.call (.function breaker) [] false))])
    [.func ⟨1, "main", none, .mk [] [] false [loop]⟩]

/-- A callee can end a loop of its caller: this program comes to its end within a budget of ten
steps. -/
theorem callee_ends_loop :
    (RunReport.ofResult (runProgram "" callingProgram
      { limits := { maxSteps := some 10 } })).failure.isNone = true := by
  decide +kernel

end SandboxedGo
