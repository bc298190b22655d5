import SandboxedGo.Proofs.Following

/-!
# Accounts that are only kept

How much work was begun, and the scenes at which a run was halted, are written down and never read:
runs from machines that differ in these accounts alone go the same way.
Main statement: `Computation.run_alike`.
-/

set_option autoImplicit false

namespace SandboxedGo

open Source

/-- A machine apart from the accounts that nothing reads. -/
def Machine.unaccounted (m : Machine) : Machine := { m with works := 0, endings := [] }

/-- Ends of runs that differ in the accounts only. -/
inductive EndsAlike {α : Type} :
    EStateM.Result Stop Machine α → EStateM.Result Stop Machine α → Prop
  | ok (a : α) {m m' : Machine} (agree : m.unaccounted = m'.unaccounted) :
      EndsAlike (.ok a m) (.ok a m')
  | error (stop : Stop) {m m' : Machine} (agree : m.unaccounted = m'.unaccounted) :
      EndsAlike (.error stop m) (.error stop m')

theorem EndsAlike.refl {α : Type} (r : EStateM.Result Stop Machine α) : EndsAlike r r := by
  cases r with
  | ok a m => exact .ok a rfl
  | error stop m => exact .error stop rfl

theorem EndsAlike.trans {α : Type} {r r' r'' : EStateM.Result Stop Machine α}
    (first : EndsAlike r r') (second : EndsAlike r' r'') : EndsAlike r r'' := by
  cases first with
  | ok a agree =>
      cases second with
      | ok _ agree' => exact .ok a (agree.trans agree')
  | error stop agree =>
      cases second with
      | error _ agree' => exact .error stop (agree.trans agree')

/-- An action that does not look at the accounts. -/
def Action.Blind {α : Type} (x : Action α) : Prop :=
  ∀ m m' : Machine, m.unaccounted = m'.unaccounted → EndsAlike (x m) (x m')

namespace Action

variable {α β : Type}

/-! ## Looking at something else -/

/-- The result is a function of the rest of the machine, and so is what is left. -/
theorem blind_of_ok {x : Action α} {f : Machine → α} {g : Machine → Machine}
    (does : ∀ m, x m = .ok (f m) (g m)) (result : ∀ m, f m.unaccounted = f m)
    (left : ∀ m, (g m.unaccounted).unaccounted = (g m).unaccounted) : Blind x := by
  intro m m' agree
  have same : f m = f m' := by rw [← result m, ← result m', agree]
  rw [does, does, same]
  exact .ok _ (by rw [← left m, ← left m', agree])

theorem halt_blind (h : Halt) : Blind (halt (α := α) h) := fun _ _ agree => .error _ agree

theorem isStopRequested_congr {m m' : Machine} (agree : m.unaccounted = m'.unaccounted) :
    m.isStopRequested = m'.isStopRequested :=
  show m.unaccounted.isStopRequested = m'.unaccounted.isStopRequested by rw [agree]

theorem checkStop_blind : Blind checkStop := by
  intro m m' agree
  have same : m.isStopRequested = m'.isStopRequested := isStopRequested_congr agree
  unfold checkStop
  rw [same]
  split
  · exact halt_blind _ m m' agree
  · exact .ok () agree

theorem checkBudget_blind : Blind checkBudget := by
  intro m m' agree
  have limits : m.limits = m'.limits := congrArg (fun m => m.limits) agree
  have steps : m.steps = m'.steps := congrArg (fun m => m.steps) agree
  unfold checkBudget
  rw [limits, steps]
  cases m'.limits.maxSteps with
  | none => exact checkStop_blind m m' agree
  | some budget =>
      dsimp only
      split
      · exact halt_blind _ m m' agree
      · exact checkStop_blind m m' agree

theorem tick_blind : Blind tick := fun m m' agree =>
  checkBudget_blind m.stepped m'.stepped (congrArg Machine.stepped agree)

theorem checkDepth_blind : Blind checkDepth := by
  intro m m' agree
  have limits : m.limits = m'.limits := congrArg (fun m => m.limits) agree
  have depth : m.depth = m'.depth := congrArg (fun m => m.depth) agree
  unfold checkDepth
  rw [limits, depth]
  split
  · exact halt_blind _ m m' agree
  · exact .ok () agree

theorem takeOutcome_blind (outcome : HostOutcome) : Blind (takeOutcome outcome) := by
  intro m m' agree
  have same : m.isStopRequested = m'.isStopRequested := isStopRequested_congr agree
  cases outcome with
  | crash message => exact halt_blind _ m m' agree
  | value j =>
      simp only [takeOutcome, same]
      split
      · exact halt_blind _ m m' agree
      · exact .ok _ agree
  | failure message =>
      simp only [takeOutcome, same]
      split
      · exact halt_blind _ m m' agree
      · exact .ok _ agree

theorem askHost_blind (name : String) (place : Nat) (arguments : List Json) :
    Blind (askHost name place arguments) := by
  intro m m' agree
  have functions : m.hostFunctions = m'.hostFunctions :=
    congrArg (fun m => m.hostFunctions) agree
  have calls : m.hostCalls = m'.hostCalls := congrArg (fun m => m.hostCalls) agree
  simp only [askHost, functions, calls]
  cases m'.hostFunctions[place]? with
  | none => exact .ok _ agree
  | some f => exact takeOutcome_blind _ _ _ (congrArg (Machine.replied _ _) agree)

theorem write_blind (stream : Library.Stream) (text : String) : Blind (write stream text) := by
  intro m m' agree
  have written := congrArg (Machine.written stream text) agree
  cases stream with
  | stdout => exact .ok () written
  | stderr => exact .ok () written

theorem addressOf_blind (p : Pointee) : Blind (addressOf p) := by
  intro m m' agree
  have limits : m.limits = m'.limits := congrArg (fun m => m.limits) agree
  unfold addressOf
  rw [limits]
  split
  · exact .ok _ agree
  · exact halt_blind _ m m' agree

theorem putOff_blind (function : Value) (arguments : List Value) :
    Blind (putOff function arguments) := by
  intro m m' agree
  have same : m.deferred = m'.deferred := congrArg (fun m => m.deferred) agree
  simp only [putOff, same]
  split
  · rename_i frame frames _
    exact .ok () (congrArg
      (fun m : Machine => { m with deferred := (⟨function, arguments⟩ :: frame) :: frames }) agree)
  · exact .error _ agree

/-! ## Putting actions together -/

theorem bind_blind {x : Action α} {f : α → Action β} (first : Blind x) (rest : ∀ a, Blind (f a)) :
    Blind (EStateM.bind x f) := by
  intro m m' agree
  have alike := first m m' agree
  unfold EStateM.bind
  generalize x m = r at alike
  generalize x m' = r' at alike
  cases alike with
  | ok a after => exact rest a _ _ after
  | error stop after => exact .error stop after

theorem paid_blind {ready : Action α} {act : α → Action β} (first : Blind ready)
    (rest : ∀ a, Blind (act a)) : Blind (paid ready act) :=
  bind_blind tick_blind fun _ => bind_blind first rest

theorem outcome_blind {x : Action α} (inner : Blind x) : Blind (outcome x) := by
  intro m m' agree
  have alike := inner m m' agree
  unfold outcome
  generalize x m = r at alike
  generalize x m' = r' at alike
  cases alike with
  | ok a after => exact .ok _ after
  | error stop after =>
      cases stop with
      | signal s => exact .ok _ after
      | halt h => exact .error _ after

theorem closing_blind {x : Action α} (inner : Blind x) {give : α → Machine → β}
    {close : Machine → Machine} (result : ∀ a m, give a m.unaccounted = give a m)
    (left : ∀ m, (close m.unaccounted).unaccounted = (close m).unaccounted) :
    Blind (closing give close x) := by
  intro m m' agree
  have alike := inner m m' agree
  unfold closing
  generalize x m = r at alike
  generalize x m' = r' at alike
  cases alike with
  | @ok a m m' after =>
      have same : give a m = give a m' := by rw [← result a m, ← result a m', after]
      dsimp only
      rw [same]
      exact .ok _ (by rw [← left m, ← left m', after])
  | @error stop m m' after => exact .error stop (by rw [← left m, ← left m', after])

theorem deeper_blind {x : Action α} (inner : Blind x) : Blind (deeper x) := fun m m' agree =>
  closing_blind inner (fun _ _ => rfl) (fun _ => rfl) m.deeper m'.deeper
    (congrArg Machine.deeper agree)

theorem framed_blind {x : Action α} (inner : Blind x) : Blind (framed x) := fun m m' agree =>
  closing_blind inner (fun _ _ => rfl) (fun _ => rfl) m.framed m'.framed
    (congrArg Machine.framed agree)

theorem keepingPanic_blind {x : Action α} (inner : Blind x) : Blind (keepingPanic x) := by
  intro m m' agree
  have panic : m.panicking = m'.panicking := congrArg (fun m => m.panicking) agree
  unfold keepingPanic
  rw [panic]
  exact closing_blind inner (fun _ _ => rfl) (fun _ => rfl) m m' agree

theorem iterate_blind {σ : Type} {round : σ → Action (Option σ)} (inner : ∀ s, Blind (round s)) :
    ∀ (rounds : Nat) (s : σ), Blind (iterate round rounds s) := by
  intro rounds
  induction rounds with
  | zero => exact fun s => halt_blind .unfinished
  | succ rounds ih =>
      intro s m m' agree
      have alike := inner s m m' agree
      unfold iterate
      generalize round s m = r at alike
      generalize round s m' = r' at alike
      cases alike with
      | ok next after =>
          cases next with
          | none => exact .ok () after
          | some next => exact ih next _ _ after
      | error stop after => exact .error stop after

/-! ## Calls -/

theorem deferredCall_blind {call : Action Value} (inner : Blind call) (ended : Ending) :
    Blind (deferredCall call ended) := by
  unfold deferredCall
  refine bind_blind (fun _ _ agree => .ok () (congrArg (Machine.withPanic _) agree)) fun _ => ?_
  refine bind_blind (outcome_blind inner) fun made => ?_
  refine bind_blind (fun m m' agree => ?_) fun calm => fun _ _ agree => .ok _ agree
  have panic : m.panicking = m'.panicking := congrArg (fun m => m.panicking) agree
  unfold isCalm
  rw [panic]
  exact .ok _ agree

theorem unwind_blind {call : Deferred → Action Value} (calls : ∀ d, Blind (call d))
    (frame : List Deferred) (ended : Ending) : Blind (unwind call frame ended) := by
  induction frame generalizing ended with
  | nil => exact fun _ _ agree => .ok ended agree
  | cons d rest ih =>
      unfold unwind
      split
      · exact bind_blind (deferredCall_blind (calls d) ended) ih
      · exact fun _ _ agree => .ok ended agree

theorem activation_blind {call : Deferred → Action Value} {body : Action (Option Value)}
    (calls : ∀ d, Blind (call d)) (inner : Blind body) : Blind (activation call body) :=
  deeper_blind (bind_blind (framed_blind (outcome_blind inner)) fun result =>
    keepingPanic_blind (unwind_blind calls result.2 result.1))

theorem undertake_blind (u : Undertaking) : Blind (undertake u) :=
  fun _ _ agree => .ok () (congrArg (Machine.undertaking u) agree)

theorem invocation_blind {call : Deferred → Action Value} {opening : Action α}
    {body : α → Action (Option Value)} (calls : ∀ d, Blind (call d)) (first : Blind opening)
    (rest : ∀ a, Blind (body a)) : Blind (invocation call opening body) := by
  have entering : Blind (entered opening) :=
    bind_blind (paid_blind checkDepth_blind fun _ => undertake_blind .function) fun _ => first
  exact bind_blind entering fun a => bind_blind (activation_blind calls (rest a)) fun _ =>
    fun _ _ agree => .ok _ agree

/-- Beginning work only counts it. -/
theorem begin_blind {perform : Work → Action Value} (parts : ∀ w, Blind (perform w)) (w : Work) :
    Blind (begin_ perform w) :=
  fun _ _ agree => parts w _ _ agree

end Action

/-! ## Computations -/

open SandboxedGo.Action in
/-- A computation does not look at the accounts if its evaluator does not. -/
theorem Built.blind {jumps : Bool} {α : Type} {x : Evaluator → Action α} (built : Built jumps x)
    {ev : Evaluator} (parts : ∀ w, Blind (ev.perform w)) : Blind (x ev) := by
  induction built with
  | pure a => exact fun _ _ agree => .ok a agree
  | bind _ _ first rest => exact bind_blind first rest
  | view f => exact blind_of_ok (fun _ => rfl) (fun _ => rfl) (fun _ => rfl)
  | onGuest f =>
      exact blind_of_ok (g := fun m => { m with toGuest := (f m.toGuest).2 }) (fun _ => rfl)
        (fun _ => rfl) (fun _ => rfl)
  | raise s => exact fun _ _ agree => .error _ agree
  | exit code => exact halt_blind (.exit code)
  | unfinished => exact halt_blind .unfinished
  | outcome _ inner => exact outcome_blind inner
  | maxAlloc => exact blind_of_ok (fun _ => rfl) (fun _ => rfl) (fun _ => rfl)
  | addressOf p => exact addressOf_blind p
  | tick => exact tick_blind
  | write stream text => exact write_blind stream text
  | undertake u _ ready => exact paid_blind ready fun _ => undertake_blind u
  | askHost name place _ arguments => exact paid_blind arguments (askHost_blind name place)
  | perform w => exact begin_blind parts w
  | loop _ s inner => exact iterate_blind inner ev.rounds s
  | invocation _ _ first rest =>
      exact invocation_blind (fun _ => begin_blind parts _) first rest
  | putOff function arguments => exact putOff_blind function arguments
  | recover => exact blind_of_ok (fun _ => rfl) (fun _ => rfl) (fun _ => rfl)

theorem perform_blind : ∀ (depth : Nat) (w : Work), Action.Blind (perform depth w) := by
  intro depth
  induction depth with
  | zero => exact fun _ => Action.halt_blind .unfinished
  | succ depth ih => exact fun w => w.step.built.blind ih

/-- Whatever a program does next, it does the same from two machines that differ in the accounts
only. -/
theorem Computation.run_alike {jumps : Bool} {α : Type} (x : Computation jumps α) (depth : Nat)
    {m m' : Machine} (agree : m.unaccounted = m'.unaccounted) :
    EndsAlike (x.run (Evaluator.ofDepth depth) m) (x.run (Evaluator.ofDepth depth) m') :=
  x.built.blind (perform_blind depth) m m' agree

theorem EndsAlike.map {jumps : Bool} {α β : Type} {x : Computation jumps α} {ev : Evaluator} {a : α}
    {m m' : Machine} (first : EndsAlike (x.run ev m) (.ok a m')) (f : α → β) :
    EndsAlike ((x >>= fun a => pure (f a)).run ev m) (.ok (f a) m') := by
  rw [Eval.bind_run]
  generalize x.run ev m = r at first
  cases first with
  | ok _ agree => exact .ok (f a) agree

/-- Two sequences end alike if their first parts do and what follows does. -/
theorem EndsAlike.bind {jumps : Bool} {α β : Type} {x x' : Computation jumps α}
    {f f' : α → Computation jumps β} {ev : Evaluator} {m m' : Machine}
    (first : EndsAlike (x.run ev m) (x'.run ev m'))
    (rest : ∀ a n n', x.run ev m = .ok a n → n.unaccounted = n'.unaccounted →
      EndsAlike ((f a).run ev n) ((f' a).run ev n')) :
    EndsAlike ((x >>= f).run ev m) ((x' >>= f').run ev m') := by
  rw [Eval.bind_run, Eval.bind_run]
  cases ran : x.run ev m with
  | ok a n =>
      rw [ran] at first
      generalize x'.run ev m' = r' at first
      cases first with
      | ok _ agree => exact rest a n _ ran agree
  | error stop n =>
      rw [ran] at first
      generalize x'.run ev m' = r' at first
      cases first with
      | error _ agree => exact .error stop agree

end SandboxedGo
