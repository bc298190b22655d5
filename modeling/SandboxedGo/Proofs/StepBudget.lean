import SandboxedGo.Proofs.Visible

/-!
# The step budget bounds the work

A step that is counted may be spent on one undertaking: a statement, a round of a loop, a function
of the program or of the library, a call of the host.  Counted steps are income and undertakings are
expenses; what is left over is credit.  No computation ends with less credit than it began with, so
that at any time all undertakings are covered by the steps, and the steps by the budget.  The step
that overdraws the budget halts the run before anything is begun with it.

Main statement: `undertakings_within_budget`.
-/

set_option autoImplicit false

namespace SandboxedGo

open Source

/-- How much was begun that costs a step, calls of the host among it. -/
def Scene.undertakings (s : Scene) : Nat := s.tally.total + s.hostCalls.size

theorem Tally.total_count (t : Tally) (u : Undertaking) : (t.count u).total = t.total + 1 := by
  cases u <;> simp only [Tally.count, Tally.total] <;> omega

/-- A machine whose steps cover its undertakings and some credit, and are covered by the budget. -/
structure Funded (budget credit : Nat) (m : Machine) : Prop where
  limit : m.limits.maxSteps = some budget
  covers : m.undertakings + credit ≤ m.steps
  covered : m.steps ≤ budget

/-- How a computation ends that leaves some credit; once a halt is raised it does not matter. -/
def EndsFunded {α : Type} (budget credit : Nat) : EStateM.Result Stop Machine α → Prop
  | .ok _ m => Funded budget credit m
  | .error (.signal _) m => Funded budget credit m
  | .error (.halt _) m => m.undertakings ≤ budget

namespace Action

/-- An action that leaves all the credit it begins with. -/
def Balanced {α : Type} (budget : Nat) (x : Action α) : Prop :=
  ∀ credit m, Funded budget credit m → EndsFunded budget credit (x m)

/-- An action that spends one step of the credit. -/
def Spends {α : Type} (budget : Nat) (x : Action α) : Prop :=
  ∀ credit m, Funded budget (credit + 1) m → EndsFunded budget credit (x m)

end Action

section

variable {α β : Type} {budget credit : Nat} {m m' : Machine}

/-! ## Limits -/

theorem Funded.rebooked (funded : Funded budget credit m) (limits : m'.limits = m.limits)
    (undertakings : m'.undertakings = m.undertakings) (steps : m'.steps = m.steps) :
    Funded budget credit m' where
  limit := limits ▸ funded.limit
  covers := by rw [undertakings, steps]; exact funded.covers
  covered := steps ▸ funded.covered

theorem Funded.less (funded : Funded budget (credit + 1) m) : Funded budget credit m where
  limit := funded.limit
  covers := Nat.le_of_succ_le funded.covers
  covered := funded.covered

theorem Funded.undertakings_le (funded : Funded budget credit m) : m.undertakings ≤ budget := by
  have covers := funded.covers
  have covered := funded.covered
  omega

namespace Action

theorem halt_balanced (h : Halt) : Balanced budget (halt (α := α) h) :=
  fun _ _ funded => funded.undertakings_le

theorem addressOf_balanced (p : Pointee) : Balanced budget (addressOf p) := by
  intro credit m funded
  rcases addressOf_cases p m with ⟨place, given⟩ | lacking
  · rw [given]
    exact funded
  · rw [lacking]
    exact halt_balanced .unfinished credit m funded

/-- A step is counted as credit, unless it overdraws the budget or the host stops the run. -/
theorem tick_earns (funded : Funded budget credit m) :
    (tick m = .ok () m.stepped ∧ Funded budget (credit + 1) m.stepped) ∨
      ∃ h m', tick m = .error (.halt h) m' ∧ m'.undertakings ≤ budget := by
  have begun : m.stepped.undertakings ≤ budget := funded.undertakings_le
  have limit : m.stepped.limits.maxSteps = some budget := funded.limit
  simp only [tick, checkBudget, limit]
  split
  · exact .inr ⟨_, _, rfl, begun⟩
  · rename_i enough
    unfold checkStop
    split
    · exact .inr ⟨_, _, rfl, begun⟩
    · refine .inl ⟨rfl, limit, ?_, Nat.le_of_not_lt enough⟩
      have covers := funded.covers
      show m.undertakings + (credit + 1) ≤ m.steps + 1
      omega

theorem tick_balanced : Balanced budget tick := by
  intro credit m funded
  rcases tick_earns funded with ⟨ran, earned⟩ | ⟨h, m', ran, begun⟩
  · rw [ran]
    exact earned.less
  · rw [ran]
    exact begun

theorem checkDepth_balanced : Balanced budget checkDepth := by
  intro credit m funded
  unfold checkDepth
  split
  · exact halt_balanced _ credit m funded
  · exact funded

/-! ## What costs a step -/

theorem undertake_spends (u : Undertaking) : Spends budget (undertake u) := by
  intro credit m funded
  refine ⟨funded.limit, ?_, funded.covered⟩
  have covers := funded.covers
  have more : (m.undertaking u).undertakings = m.undertakings + 1 := by
    simp only [Scene.undertakings, Machine.undertaking, Tally.total_count]
    omega
  rw [more]
  show m.undertakings + 1 + credit ≤ m.steps
  omega

theorem takeOutcome_balanced (outcome : HostOutcome) : Balanced budget (takeOutcome outcome) := by
  intro credit m funded
  unfold takeOutcome
  split
  · exact halt_balanced _ credit m funded
  · split
    · exact halt_balanced _ credit m funded
    · exact funded
  · split
    · exact halt_balanced _ credit m funded
    · exact funded

theorem askHost_spends (name : String) (place : Nat) (arguments : List Json) :
    Spends budget (askHost name place arguments) := by
  intro credit m funded
  unfold askHost
  split
  · exact funded.less
  · refine takeOutcome_balanced _ credit _ ⟨funded.limit, ?_, funded.covered⟩
    have covers := funded.covers
    have more (call : HostCall) (reply : HostReply) :
        (m.replied call reply).undertakings = m.undertakings + 1 := by
      simp only [Scene.undertakings, Machine.replied, Array.size_push]
      omega
    rw [more]
    show m.undertakings + 1 + credit ≤ m.steps
    omega

/-! ## Putting computations together -/

theorem bind_balanced {x : Action α} {f : α → Action β} (first : Balanced budget x)
    (rest : ∀ a, Balanced budget (f a)) : Balanced budget (EStateM.bind x f) := by
  intro credit m funded
  have ends := first credit m funded
  unfold EStateM.bind
  cases ran : x m with
  | ok a between =>
      rw [ran] at ends
      exact rest a credit between ends
  | error stop between =>
      rw [ran] at ends
      cases stop <;> exact ends

/-- The credit that a step is counted as is left over until it is spent, whatever is done before. -/
theorem paid_balanced {ready : Action α} {act : α → Action β} (first : Balanced budget ready)
    (rest : ∀ a, Spends budget (act a)) : Balanced budget (paid ready act) := by
  intro credit m funded
  unfold paid EStateM.bind
  rcases tick_earns funded with ⟨ran, earned⟩ | ⟨h, m', ran, begun⟩
  · have ends := first (credit + 1) m.stepped earned
    rw [ran]
    cases done : ready m.stepped with
    | ok a between =>
        rw [done] at ends
        simp only [done]
        exact rest a credit between ends
    | error stop between =>
        rw [done] at ends
        simp only [done]
        cases stop with
        | signal s => exact Funded.less ends
        | halt h => exact ends
  · rw [ran]
    exact begun

theorem outcome_balanced {x : Action α} (inner : Balanced budget x) :
    Balanced budget (outcome x) := by
  intro credit m funded
  have ends := inner credit m funded
  unfold outcome
  cases ran : x m with
  | ok a after =>
      rw [ran] at ends
      exact ends
  | error stop after =>
      rw [ran] at ends
      cases stop <;> exact ends

theorem iterate_balanced {σ : Type} {round : σ → Action (Option σ)}
    (inner : ∀ s, Balanced budget (round s)) :
    ∀ (rounds : Nat) (s : σ), Balanced budget (iterate round rounds s) := by
  intro rounds
  induction rounds with
  | zero => exact fun _ => halt_balanced .unfinished
  | succ rounds ih =>
      intro s credit m funded
      have ends := inner s credit m funded
      unfold iterate
      cases ran : round s m with
      | ok next after =>
          rw [ran] at ends
          cases next with
          | none => exact ends
          | some next => exact ih next credit after ends
      | error stop after =>
          rw [ran] at ends
          cases stop <;> exact ends

theorem closing_endsFunded {x : Action α} (ends : EndsFunded budget credit (x m))
    (give : α → Machine → β) (close : Machine → Machine)
    (scene : ∀ m, (close m).toScene = m.toScene) (limits : ∀ m, (close m).limits = m.limits) :
    EndsFunded budget credit (closing give close x m) := by
  have closed {m : Machine} (funded : Funded budget credit m) : Funded budget credit (close m) :=
    funded.rebooked (limits m) (by rw [scene]) (by rw [scene])
  unfold closing
  cases ran : x m with
  | ok a after =>
      rw [ran] at ends
      exact closed ends
  | error stop after =>
      rw [ran] at ends
      cases stop with
      | signal s => exact closed ends
      | halt h =>
          show (close after).undertakings ≤ budget
          rw [scene]
          exact ends

theorem deeper_balanced {x : Action α} (inner : Balanced budget x) :
    Balanced budget (deeper x) := by
  intro credit m funded
  have opened : Funded budget credit m.deeper := funded.rebooked rfl rfl rfl
  exact closing_endsFunded (inner credit _ opened) _ Machine.shallower (fun _ => rfl) fun _ => rfl

theorem framed_balanced {x : Action α} (inner : Balanced budget x) :
    Balanced budget (framed x) := by
  intro credit m funded
  have opened : Funded budget credit m.framed := funded.rebooked rfl rfl rfl
  exact closing_endsFunded (inner credit _ opened) _ Machine.unframed (fun _ => rfl) fun _ => rfl

theorem keepingPanic_balanced {x : Action α} (inner : Balanced budget x) :
    Balanced budget (keepingPanic x) := by
  intro credit m funded
  exact closing_endsFunded (inner credit m funded) _ (Machine.withPanic m.panicking)
    (fun _ => rfl) fun _ => rfl

theorem deferredCall_balanced {call : Action Value} (inner : Balanced budget call)
    (ended : Ending) : Balanced budget (deferredCall call ended) := by
  unfold deferredCall
  refine bind_balanced (fun _ _ funded => funded.rebooked rfl rfl rfl) fun _ =>
    bind_balanced (outcome_balanced inner) fun made => ?_
  exact fun _ _ funded => funded

theorem unwind_balanced {call : Deferred → Action Value} (calls : ∀ d, Balanced budget (call d))
    (frame : List Deferred) (ended : Ending) : Balanced budget (unwind call frame ended) := by
  induction frame generalizing ended with
  | nil => exact fun _ _ funded => funded
  | cons d rest ih =>
      unfold unwind
      split
      · exact bind_balanced (deferredCall_balanced (calls d) ended) ih
      · exact fun _ _ funded => funded

theorem invocation_balanced {call : Deferred → Action Value} {opening : Action α}
    {body : α → Action (Option Value)} (calls : ∀ d, Balanced budget (call d))
    (first : Balanced budget opening) (rest : ∀ a, Balanced budget (body a)) :
    Balanced budget (invocation call opening body) := by
  have counted : Balanced budget (paid checkDepth fun _ => undertake .function) :=
    paid_balanced checkDepth_balanced fun _ => undertake_spends .function
  have activated (a : α) : Balanced budget (activation call (body a)) :=
    deeper_balanced (bind_balanced (framed_balanced (outcome_balanced (rest a))) fun result =>
      keepingPanic_balanced (unwind_balanced calls result.2 result.1))
  exact bind_balanced (bind_balanced counted fun _ => first) fun a =>
    bind_balanced (activated a) fun _ _ _ funded => funded

theorem putOff_balanced (function : Value) (arguments : List Value) :
    Balanced budget (putOff function arguments) := by
  intro credit m funded
  unfold putOff
  split
  · exact funded.rebooked rfl rfl rfl
  · exact funded

theorem write_balanced (stream : Library.Stream) (text : String) :
    Balanced budget (write stream text) := by
  intro credit m funded
  cases stream <;> exact funded.rebooked rfl rfl rfl

theorem begin_balanced {ev : Evaluator} (works : ∀ w, Balanced budget (ev.perform w)) (w : Work) :
    Balanced budget (begin_ ev.perform w) :=
  fun credit m funded => works w credit m.working (funded.rebooked rfl rfl rfl)

end Action

theorem Built.balanced {jumps : Bool} {x : Evaluator → Action α} (built : Built jumps x)
    {ev : Evaluator} (works : ∀ w, Action.Balanced budget (ev.perform w)) :
    Action.Balanced budget (x ev) := by
  induction built with
  | pure a => exact fun _ _ funded => funded
  | bind _ _ first rest => exact Action.bind_balanced first rest
  | view f => exact fun _ _ funded => funded
  | onGuest f => exact fun _ _ funded => funded.rebooked rfl rfl rfl
  | raise s => exact fun _ _ funded => funded
  | exit code => exact Action.halt_balanced (.exit code)
  | unfinished => exact Action.halt_balanced .unfinished
  | outcome _ inner => exact Action.outcome_balanced inner
  | maxAlloc => exact fun _ _ funded => funded
  | addressOf p => exact Action.addressOf_balanced p
  | tick => exact Action.tick_balanced
  | write stream text => exact Action.write_balanced stream text
  | undertake u _ ready =>
      exact Action.paid_balanced ready fun _ => Action.undertake_spends u
  | askHost name place _ arguments =>
      exact Action.paid_balanced arguments (Action.askHost_spends name place)
  | perform w => exact Action.begin_balanced works w
  | loop _ s inner => exact Action.iterate_balanced inner ev.rounds s
  | invocation _ _ first rest =>
      exact Action.invocation_balanced (fun _ => Action.begin_balanced works _) first rest
  | putOff function arguments => exact Action.putOff_balanced function arguments
  | recover => exact fun _ _ funded => funded.rebooked rfl rfl rfl

end

/-! ## Whole runs -/

theorem perform_balanced {budget : Nat} :
    ∀ (depth : Nat) (w : Work), Action.Balanced budget (perform depth w) := by
  intro depth
  induction depth with
  | zero => exact fun _ => Action.halt_balanced .unfinished
  | succ depth ih => exact fun w => w.step.built.balanced ih

theorem Machine.initial_funded {options : RunOptions} {budget : Nat}
    (limit : options.limits.maxSteps = some budget) :
    Funded budget 0 (Machine.initial options) where
  limit := limit
  covers := Nat.le_refl 0
  covered := Nat.zero_le budget

/-- Whatever a program does, it begins no more statements, rounds of loops, functions of its own and
of the library, and calls of the host, all taken together, than its budget has steps. -/
theorem undertakings_within_budget (source : String) (p : Program) (options : RunOptions)
    (budget : Nat) (limit : options.limits.maxSteps = some budget) :
    (machineAfter (runProgram source p options)).undertakings ≤ budget := by
  have ends : EndsFunded budget 0 (runProgram source p options) :=
    (Eval.program options.hostFunctions p).built.balanced (perform_balanced _) 0 _
      (Machine.initial_funded limit)
  cases ran : runProgram source p options with
  | ok a m =>
      rw [ran] at ends
      exact Funded.undertakings_le ends
  | error stop m =>
      rw [ran] at ends
      cases stop with
      | signal s => exact Funded.undertakings_le ends
      | halt h => exact ends

/-- A program that calls functions in an endless loop. -/
def busyProgram : Program where
  package := "main"
  imports := []
  decls :=
    let call : Stmt := .mk 3 (.expr (.call (.function (.mk [] [] false [])) [] false))
    [.func ⟨1, "main", none, .mk [] [] false [.mk 2 (.for none none none [call])]⟩]

/-- It uses its budget up: every step of it was spent on something. -/
theorem undertakings_within_budget_busy :
    let options : RunOptions := { limits := { maxSteps := some 10 } }
    options.limits.maxSteps = some 10 ∧
      (machineAfter (runProgram "" busyProgram options)).undertakings = 10 ∧
      (machineAfter (runProgram "" busyProgram options)).undertakings ≤ 10 :=
  ⟨rfl, by decide +kernel, undertakings_within_budget "" busyProgram _ 10 rfl⟩

end SandboxedGo
