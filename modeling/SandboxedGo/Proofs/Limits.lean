import SandboxedGo.Proofs.Visible

/-!
# Limits only cut a run short

Two runs of one program are compared, the second with a larger step budget or call depth.  They go
in step until the first one exceeds a limit: every computation either does the same in both, or ends
the first run with a cut, and then the second run has already shown the host all that the first has.

The evaluator of the second run may also go deeper; running out of it is a third cut.  A run ends
with a report if some depth of evaluation leads to it, and then every larger depth does.  Addresses
are taken in the same way: the first run is given those of some objects only, the second one the
same and maybe others.  A run that ends when it is given no address at all ends in the same way
wherever its objects are.  Main statement: `limits_only_cut_short`.
-/

set_option autoImplicit false

namespace SandboxedGo

open Source

/-- Limits that allow no more steps and no deeper calls than others and give no other addresses, and
are the same otherwise. -/
structure Limits.Within (l l' : Limits) : Prop where
  steps : ∀ budget', l'.maxSteps = some budget' →
    ∃ budget, l.maxSteps = some budget ∧ budget ≤ budget'
  depth : l.maxCallDepth ≤ l'.maxCallDepth
  alloc : l'.maxAlloc = l.maxAlloc
  stop : l'.stopAt = l.stopAt
  addresses : ∀ p place, l.addresses p = some place → l'.addresses p = some place

theorem Limits.Within.refl (l : Limits) : l.Within l :=
  ⟨fun budget is => ⟨budget, is, Nat.le_refl _⟩, Nat.le_refl _, rfl, rfl, fun _ _ is => is⟩

/-- A halt that says that a run was not given enough, and was given less than another one. -/
def Halt.IsCut (l l' : Limits) : Halt → Prop
  | .budgetExhausted _ => l'.maxSteps ≠ l.maxSteps
  | .stackOverflow _ => l'.maxCallDepth ≠ l.maxCallDepth
  | .unfinished => True
  | _ => False

/-- The same machine under other limits. -/
def Machine.under (l : Limits) (m : Machine) : Machine := { m with limits := l }

/-- How the results of two runs under two limits belong together. -/
inductive Agrees {α : Type} (l l' : Limits) :
    EStateM.Result Stop Machine α → EStateM.Result Stop Machine α → Prop
  | ok (a : α) {m : Machine} (limits : m.limits = l) : Agrees l l' (.ok a m) (.ok a (m.under l'))
  | error (stop : Stop) {m : Machine} (limits : m.limits = l) :
      Agrees l l' (.error stop m) (.error stop (m.under l'))
  | cut {h : Halt} (isCut : h.IsCut l l') {m : Machine} {r : EStateM.Result Stop Machine α}
      (begins : m.toScene.Begins (machineAfter r).toScene) : Agrees l l' (.error (.halt h) m) r

/-- Two actions that agree from any machine on. -/
def Simulates {α : Type} (l l' : Limits) (x x' : Action α) : Prop :=
  ∀ m : Machine, m.limits = l → Agrees l l' (x m) (x' (m.under l'))

variable {l l' : Limits}

/-! ## Limits -/

theorem Action.halt_simulates {α : Type} (h : Halt) :
    Simulates l l' (Action.halt (α := α) h) (Action.halt h) := by
  intro m limits
  exact .error (.halt h) limits

/-- A cut needs no partner: whatever the second run goes on to do, it shows no less. -/
theorem Action.halt_cut {α : Type} {h : Halt} (isCut : h.IsCut l l') {m : Machine}
    {x' : Action α} (extends_ : Action.Extends x') :
    Agrees l l' (Action.halt h m) (x' (m.under l')) := by
  refine .cut isCut ?_
  have begins := extends_ (m.under l')
  exact begins

theorem Action.addressOf_simulates (within : l.Within l') (p : Pointee) :
    Simulates l l' (Action.addressOf p) (Action.addressOf p) := by
  intro m limits
  rcases Action.addressOf_cases p m with ⟨place, given⟩ | lacking
  · have found : m.limits.addresses p = some place := by
      unfold Action.addressOf at given
      split at given
      · cases given
        assumption
      · cases given
    have again : Action.addressOf p (m.under l') = .ok place (m.under l') := by
      have kept : (m.under l').limits.addresses p = some place :=
        within.addresses p place (limits ▸ found)
      simp only [Action.addressOf, kept]
    rw [given, again]
    exact .ok place limits
  · rw [lacking]
    exact Action.halt_cut (h := .unfinished) trivial (Action.addressOf_extends p)

theorem Machine.isStopRequested_under (within : l.Within l') {m : Machine} (limits : m.limits = l) :
    (m.under l').isStopRequested = m.isStopRequested := by
  have stop : (m.under l').limits.stopAt = m.limits.stopAt := by
    rw [limits]
    exact within.stop
  unfold Machine.isStopRequested
  rw [stop]
  rfl

theorem Action.checkStop_simulates (within : l.Within l') :
    Simulates l l' Action.checkStop Action.checkStop := by
  intro m limits
  unfold Action.checkStop
  rw [Machine.isStopRequested_under within limits]
  by_cases stop : m.isStopRequested = true
  · rw [if_pos stop, if_pos stop]
    exact Action.halt_simulates .interrupted m limits
  · rw [if_neg stop, if_neg stop]
    exact .ok () limits

theorem Action.checkBudget_larger (within : l.Within l') {m : Machine}
    (enough : ∀ budget, l.maxSteps = some budget → ¬ budget < m.steps) :
    Action.checkBudget (m.under l') = Action.checkStop (m.under l') := by
  unfold Action.checkBudget
  cases larger : (m.under l').limits.maxSteps with
  | none => rfl
  | some budget' =>
      obtain ⟨budget, smaller, le⟩ := within.steps budget' larger
      have left := enough budget smaller
      have within' : ¬ budget' < (m.under l').steps := by
        show ¬ budget' < m.steps
        omega
      simp only [if_neg within']

theorem Action.checkBudget_simulates (within : l.Within l') :
    Simulates l l' Action.checkBudget Action.checkBudget := by
  intro m limits
  cases smaller : l.maxSteps with
  | none =>
      rw [Action.checkBudget_larger within (by simp [smaller])]
      have left : Action.checkBudget m = Action.checkStop m := by
        simp only [Action.checkBudget, limits, smaller]
      rw [left]
      exact Action.checkStop_simulates within m limits
  | some budget =>
      by_cases overdrawn : budget < m.steps
      · have left : Action.checkBudget m = Action.halt (.budgetExhausted budget) m := by
          simp only [Action.checkBudget, limits, smaller, if_pos overdrawn]
        rw [left]
        by_cases same : l'.maxSteps = l.maxSteps
        · have right : Action.checkBudget (m.under l') =
              Action.halt (.budgetExhausted budget) (m.under l') := by
            have limit : (m.under l').limits.maxSteps = some budget := same.trans smaller
            have overdrawn' : budget < (m.under l').steps := overdrawn
            simp only [Action.checkBudget, limit, if_pos overdrawn']
          rw [right]
          exact Action.halt_simulates _ m limits
        · exact Action.halt_cut (h := .budgetExhausted budget) same Action.checkBudget_extends
      · have left : Action.checkBudget m = Action.checkStop m := by
          simp only [Action.checkBudget, limits, smaller, if_neg overdrawn]
        rw [left, Action.checkBudget_larger within (by simpa [smaller] using overdrawn)]
        exact Action.checkStop_simulates within m limits

theorem Action.tick_simulates (within : l.Within l') :
    Simulates l l' Action.tick Action.tick := by
  intro m limits
  exact Action.checkBudget_simulates within m.stepped limits

theorem Action.checkDepth_simulates (within : l.Within l') :
    Simulates l l' Action.checkDepth Action.checkDepth := by
  intro m limits
  by_cases deep : m.limits.maxCallDepth ≤ m.depth
  · have left : Action.checkDepth m = Action.halt (.stackOverflow m.limits.maxCallDepth) m := by
      simp only [Action.checkDepth, if_pos deep]
    rw [left]
    by_cases same : l'.maxCallDepth = l.maxCallDepth
    · have right : Action.checkDepth (m.under l') =
          Action.halt (.stackOverflow m.limits.maxCallDepth) (m.under l') := by
        have limit : (m.under l').limits.maxCallDepth = m.limits.maxCallDepth := by
          rw [limits]
          exact same
        have deepToo : m.limits.maxCallDepth ≤ (m.under l').depth := deep
        simp only [Action.checkDepth, limit, if_pos deepToo]
      rw [right]
      exact Action.halt_simulates _ m limits
    · exact Action.halt_cut (h := .stackOverflow _) same Action.checkDepth_extends
  · have shallow : ¬ (m.under l').limits.maxCallDepth ≤ (m.under l').depth := by
      have larger := within.depth
      rw [limits] at deep
      show ¬ l'.maxCallDepth ≤ m.depth
      omega
    simp only [Action.checkDepth, if_neg deep, if_neg shallow]
    exact .ok () limits

/-! ## The host -/

theorem Action.write_simulates (stream : Library.Stream) (text : String) :
    Simulates l l' (Action.write stream text) (Action.write stream text) := by
  intro m limits
  cases stream with
  | stdout => exact .ok () limits
  | stderr => exact .ok () limits

theorem Action.takeOutcome_simulates (within : l.Within l') (outcome : HostOutcome) :
    Simulates l l' (Action.takeOutcome outcome) (Action.takeOutcome outcome) := by
  intro m limits
  cases outcome with
  | crash message => exact Action.halt_simulates (.hostCrash message) m limits
  | value j =>
      simp only [Action.takeOutcome, Machine.isStopRequested_under within limits]
      by_cases stop : m.isStopRequested = true
      · rw [if_pos stop, if_pos stop]
        exact Action.halt_simulates .interrupted m limits
      · rw [if_neg stop, if_neg stop]
        exact .ok _ limits
  | failure message =>
      simp only [Action.takeOutcome, Machine.isStopRequested_under within limits]
      by_cases stop : m.isStopRequested = true
      · rw [if_pos stop, if_pos stop]
        exact Action.halt_simulates .interrupted m limits
      · rw [if_neg stop, if_neg stop]
        exact .ok _ limits

theorem Action.askHost_simulates (within : l.Within l') (name : String) (place : Nat)
    (arguments : List Json) :
    Simulates l l' (Action.askHost name place arguments)
      (Action.askHost name place arguments) := by
  intro m limits
  simp only [Action.askHost]
  cases found : m.hostFunctions[place]? with
  | none =>
      have found' : (m.under l').hostFunctions[place]? = none := found
      simp only [found']
      exact .ok _ limits
  | some f =>
      have found' : (m.under l').hostFunctions[place]? = some f := found
      simp only [found']
      exact Action.takeOutcome_simulates within _ (m.replied _ _) limits

/-! ## Putting computations together -/

theorem Action.bind_simulates {α β : Type} {x x' : Action α} {f f' : α → Action β}
    (first : Simulates l l' x x') (rest : ∀ a, Simulates l l' (f a) (f' a))
    (extends_ : ∀ a, Action.Extends (f' a)) :
    Simulates l l' (EStateM.bind x f) (EStateM.bind x' f') := by
  intro m limits
  have agrees := first m limits
  have goesOn := Action.bind_begins x' extends_ (m.under l')
  unfold EStateM.bind at goesOn ⊢
  generalize x m = r at agrees
  generalize x' (m.under l') = r' at agrees goesOn
  cases agrees with
  | ok a limits => exact rest a _ limits
  | error stop limits => exact .error stop limits
  | cut isCut begins => exact .cut isCut (begins.trans goesOn)

theorem Action.paid_simulates {α β : Type} (within : l.Within l') {ready ready' : Action α}
    {act act' : α → Action β} (first : Simulates l l' ready ready')
    (rest : ∀ a, Simulates l l' (act a) (act' a)) (firstExtends : Action.Extends ready')
    (restExtends : ∀ a, Action.Extends (act' a)) :
    Simulates l l' (Action.paid ready act) (Action.paid ready' act') := by
  refine Action.bind_simulates (Action.tick_simulates within) (fun _ => ?_) fun _ m => ?_
  · exact Action.bind_simulates first rest restExtends
  · exact (firstExtends m).trans (Action.bind_begins _ restExtends m)

theorem Action.outcome_simulates {α : Type} {x x' : Action α} (inner : Simulates l l' x x') :
    Simulates l l' (Action.outcome x) (Action.outcome x') := by
  intro m limits
  have agrees := inner m limits
  have goesOn := Action.outcome_begins x' (m.under l')
  unfold Action.outcome at goesOn ⊢
  generalize x m = r at agrees
  generalize x' (m.under l') = r' at agrees goesOn
  cases agrees with
  | ok a limits => exact .ok _ limits
  | error stop limits =>
      cases stop with
      | signal s => exact .ok _ limits
      | halt h => exact .error (.halt h) limits
  | cut isCut begins => exact .cut isCut (begins.trans goesOn)

theorem Action.closing_simulates {α β : Type} {x x' : Action α} (inner : Simulates l l' x x')
    (give : α → Machine → β) (close : Machine → Machine)
    (blind : ∀ a m, give a (m.under l') = give a m)
    (closed : ∀ m, close (m.under l') = (close m).under l')
    (scene : ∀ m, (close m).toScene = m.toScene) (fixed : ∀ m, (close m).limits = m.limits) :
    Simulates l l' (Action.closing give close x) (Action.closing give close x') := by
  intro m limits
  have agrees := inner m limits
  have goesOn := Action.closing_begins give close scene x' (m.under l')
  unfold Action.closing at goesOn ⊢
  generalize x m = r at agrees
  generalize x' (m.under l') = r' at agrees goesOn
  cases agrees with
  | ok a limits =>
      simp only [blind, closed]
      exact .ok _ ((fixed _).trans limits)
  | error stop limits =>
      simp only [closed]
      exact .error stop ((fixed _).trans limits)
  | @cut h isCut after r' begins =>
      refine .cut isCut ?_
      rw [scene]
      exact begins.trans goesOn

theorem Action.deeper_simulates {α : Type} {x x' : Action α} (inner : Simulates l l' x x') :
    Simulates l l' (Action.deeper x) (Action.deeper x') := by
  intro m limits
  exact Action.closing_simulates inner _ Machine.shallower (fun _ _ => rfl) (fun _ => rfl)
    (fun _ => rfl) (fun _ => rfl) m.deeper limits

theorem Action.framed_simulates {α : Type} {x x' : Action α} (inner : Simulates l l' x x') :
    Simulates l l' (Action.framed x) (Action.framed x') := by
  intro m limits
  exact Action.closing_simulates inner (fun a m => (a, m.innermost)) Machine.unframed
    (fun _ _ => rfl) (fun _ => rfl) (fun _ => rfl) (fun _ => rfl) m.framed limits

theorem Action.keepingPanic_simulates {α : Type} {x x' : Action α}
    (inner : Simulates l l' x x') :
    Simulates l l' (Action.keepingPanic x) (Action.keepingPanic x') := by
  intro m limits
  exact Action.closing_simulates inner _ (Machine.withPanic m.panicking) (fun _ _ => rfl)
    (fun _ => rfl) (fun _ => rfl) (fun _ => rfl) m limits

theorem Action.putOff_simulates (function : Value) (arguments : List Value) :
    Simulates l l' (Action.putOff function arguments) (Action.putOff function arguments) := by
  intro m limits
  simp only [Action.putOff]
  cases frames : m.deferred with
  | nil =>
      have frames' : (m.under l').deferred = [] := frames
      simp only [frames']
      exact .error _ limits
  | cons frame rest =>
      have frames' : (m.under l').deferred = frame :: rest := frames
      simp only [frames']
      exact .ok _ limits

theorem Action.deferredCall_simulates {call call' : Action Value}
    (inner : Simulates l l' call call') (extends_ : Action.Extends call') (ended : Ending) :
    Simulates l l' (Action.deferredCall call ended) (Action.deferredCall call' ended) := by
  unfold Action.deferredCall
  refine Action.bind_simulates (fun _ limits => .ok () limits) (fun _ => ?_) fun _ =>
    Action.bind_extends (Action.outcome_extends extends_) fun made => fun _ => .of_eq rfl rfl rfl
  exact Action.bind_simulates (Action.outcome_simulates inner)
    (fun made _ limits => .ok _ limits) fun made _ => .of_eq rfl rfl rfl

theorem Action.unwind_simulates {call call' : Deferred → Action Value}
    (calls : ∀ d, Simulates l l' (call d) (call' d)) (extends_ : ∀ d, Action.Extends (call' d))
    (frame : List Deferred) (ended : Ending) :
    Simulates l l' (Action.unwind call frame ended) (Action.unwind call' frame ended) := by
  induction frame generalizing ended with
  | nil => exact fun _ limits => .ok ended limits
  | cons d rest ih =>
      unfold Action.unwind
      split
      · exact Action.bind_simulates (Action.deferredCall_simulates (calls d) (extends_ d) ended) ih
          fun ended => Action.unwind_extends extends_ rest ended
      · exact fun _ limits => .ok ended limits

theorem Action.activation_simulates {call call' : Deferred → Action Value}
    {body body' : Action (Option Value)} (calls : ∀ d, Simulates l l' (call d) (call' d))
    (extends_ : ∀ d, Action.Extends (call' d)) (inner : Simulates l l' body body') :
    Simulates l l' (Action.activation call body) (Action.activation call' body') :=
  Action.deeper_simulates (Action.bind_simulates
    (Action.framed_simulates (Action.outcome_simulates inner))
    (fun result => Action.keepingPanic_simulates
      (Action.unwind_simulates calls extends_ result.2 result.1))
    fun result => Action.keepingPanic_extends
      (Action.unwind_extends extends_ result.2 result.1))

theorem Action.entered_simulates {α : Type} (within : l.Within l') {opening opening' : Action α}
    (first : Simulates l l' opening opening') (firstExtends : Action.Extends opening') :
    Simulates l l' (Action.entered opening) (Action.entered opening') := by
  refine Action.bind_simulates ?_ (fun _ => first) fun _ => firstExtends
  exact Action.paid_simulates within (Action.checkDepth_simulates within)
    (fun _ _ limits => .ok () limits) Action.checkDepth_extends fun _ _ => .of_eq rfl rfl rfl

theorem Action.invocation_simulates {α : Type} (within : l.Within l')
    {call call' : Deferred → Action Value} {opening opening' : Action α}
    {body body' : α → Action (Option Value)} (calls : ∀ d, Simulates l l' (call d) (call' d))
    (callsExtend : ∀ d, Action.Extends (call' d)) (first : Simulates l l' opening opening')
    (firstExtends : Action.Extends opening') (rest : ∀ a, Simulates l l' (body a) (body' a))
    (restExtends : ∀ a, Action.Extends (body' a)) :
    Simulates l l' (Action.invocation call opening body)
      (Action.invocation call' opening' body') := by
  refine Action.bind_simulates (Action.entered_simulates within first firstExtends) (fun a => ?_)
    fun a => Action.bind_extends (Action.activation_extends callsExtend (restExtends a))
      fun _ _ => .of_eq rfl rfl rfl
  exact Action.bind_simulates (Action.activation_simulates calls callsExtend (rest a))
    (fun _ _ limits => .ok _ limits) fun _ _ => .of_eq rfl rfl rfl

/-- A loop that runs out of rounds is cut; with more rounds it may go on. -/
theorem Action.iterate_simulates {σ : Type} {round round' : σ → Action (Option σ)}
    (inner : ∀ s, Simulates l l' (round s) (round' s))
    (extends_ : ∀ s, Action.Extends (round' s)) :
    ∀ {rounds rounds' : Nat} (_ : rounds ≤ rounds') (s : σ),
      Simulates l l' (Action.iterate round rounds s) (Action.iterate round' rounds' s) := by
  intro rounds
  induction rounds with
  | zero =>
      -- No round is left, so the first run is cut, whatever the second one does.
      intro rounds' _ s m _
      exact Action.halt_cut (h := .unfinished) trivial (Action.iterate_extends extends_ rounds' s)
  | succ rounds ih =>
      intro rounds' le s m limits
      cases rounds' with
      | zero => omega
      | succ rounds' =>
          have agrees := inner s m limits
          have goesOn := Action.iterate_begins extends_ rounds' s (m.under l')
          unfold Action.iterate at goesOn ⊢
          generalize round s m = r at agrees
          generalize round' s (m.under l') = r' at agrees goesOn
          cases agrees with
          | ok next limits =>
              cases next with
              | none => exact .ok () limits
              | some next => exact ih (by omega) next _ limits
          | error stop limits => exact .error stop limits
          | cut isCut begins => exact .cut isCut (begins.trans goesOn)

/-- An evaluator that gives no less than another and agrees with it otherwise. -/
structure Evaluator.Simulates (l l' : Limits) (ev ev' : Evaluator) : Prop where
  rounds : ev.rounds ≤ ev'.rounds
  parts : ∀ w, SandboxedGo.Simulates l l' (ev.perform w) (ev'.perform w)
  extends_ : ∀ w, Action.Extends (ev'.perform w)

/-- Every computation agrees with itself under larger limits. -/
theorem Built.simulates {jumps : Bool} {α : Type} {x : Evaluator → Action α} (built : Built jumps x)
    (within : l.Within l') {ev ev' : Evaluator} (parts : ev.Simulates l l' ev') :
    Simulates l l' (x ev) (x ev') := by
  induction built with
  | pure a => exact fun _ limits => .ok a limits
  | bind _ built first rest =>
      exact Action.bind_simulates first rest fun a => (built a).extends parts.extends_
  | view f => exact fun _ limits => .ok _ limits
  | onGuest f => exact fun _ limits => .ok _ limits
  | raise s => exact fun _ limits => .error (.signal s) limits
  | exit code => exact Action.halt_simulates (.exit code)
  | unfinished => exact Action.halt_simulates .unfinished
  | outcome _ inner => exact Action.outcome_simulates inner
  | maxAlloc =>
      -- This is the one limit that a computation observes; it is the same for both.
      intro m limits
      have same : (m.under l').limits.maxAlloc = m.limits.maxAlloc := by
        rw [limits]
        exact within.alloc
      show Agrees l l' (.ok m.limits.maxAlloc m) (.ok (m.under l').limits.maxAlloc (m.under l'))
      rw [same]
      exact .ok _ limits
  | addressOf p => exact Action.addressOf_simulates within p
  | tick => exact Action.tick_simulates within
  | write stream text => exact Action.write_simulates stream text
  | undertake u built ready =>
      exact Action.paid_simulates within ready (fun _ _ limits => .ok () limits)
        (built.extends parts.extends_) fun _ _ => .of_eq rfl rfl rfl
  | askHost name place built arguments =>
      exact Action.paid_simulates within arguments (Action.askHost_simulates within name place)
        (built.extends parts.extends_) (Action.askHost_extends name place)
  | perform w => exact fun m limits => parts.parts w m.working limits
  | loop built s inner =>
      exact Action.iterate_simulates inner (fun s => (built s).extends parts.extends_)
        parts.rounds s
  | invocation first rest opened body =>
      exact Action.invocation_simulates within (fun _ m limits => parts.parts _ m.working limits)
        (fun _ => Action.begin_extends parts.extends_ _) opened (first.extends parts.extends_) body
        fun a => (rest a).extends parts.extends_
  | putOff function arguments => exact Action.putOff_simulates function arguments
  | recover => exact fun _ limits => .ok _ limits

/-! ## Whole runs -/

theorem perform_simulates (within : l.Within l') :
    ∀ {depth depth' : Nat} (_ : depth ≤ depth') (w : Work),
      Simulates l l' (perform depth w) (perform depth' w) := by
  intro depth
  induction depth with
  | zero =>
      intro depth' _ w m _
      exact Action.halt_cut (h := .unfinished) trivial (perform_extends depth' w)
  | succ depth ih =>
      intro depth' le w
      cases depth' with
      | zero => omega
      | succ depth' =>
          have inner : depth ≤ depth' := by omega
          exact w.step.built.simulates within ⟨inner, ih inner, perform_extends depth'⟩

theorem runProgramTo_simulates {depth depth' : Nat} (deeper : depth ≤ depth') (p : Program)
    (options : RunOptions) {limits : Limits} (within : options.limits.Within limits) :
    Agrees options.limits limits (runProgramTo depth p options)
      (runProgramTo depth' p { options with limits }) :=
  (Eval.program options.hostFunctions p).built.simulates within
    ⟨deeper, perform_simulates within deeper, perform_extends _⟩ (Machine.initial options) rfl

/-! ## Reports -/

namespace RunReport

/-- Whether evaluation went deep enough. -/
def isFinished (r : RunReport) : Bool :=
  match r.failure with
  | some .unfinished => false
  | _ => true

/-- Whether a run has used up its steps or the depth of its calls. -/
def isUsedUp (r : RunReport) : Bool :=
  match r.failure with
  | some (.budgetExhausted _) | some (.stackOverflow _) => true
  | _ => false

/-- What the host has seen of one run is the beginning of what it has seen of another. -/
structure Begins (r r' : RunReport) : Prop where
  stdout : r.stdout.Begins r'.stdout
  stderr : r.stderr.Begins r'.stderr
  hostCalls : r.hostCalls.toList <+: r'.hostCalls.toList

theorem Begins.refl (r : RunReport) : r.Begins r := ⟨.refl _, .refl _, List.prefix_rfl⟩

theorem ofResult_seen (r : EStateM.Result Stop Machine Unit) :
    (ofResult r).stdout = (machineAfter r).stdout ∧
      (ofResult r).stderr = (machineAfter r).stderr ∧
      (ofResult r).hostCalls = (machineAfter r).hostCalls := by
  cases r with
  | ok a m => exact ⟨rfl, rfl, rfl⟩
  | error stop m => exact ⟨rfl, rfl, rfl⟩

end RunReport

/-- How the reports of two runs under two limits belong together: they are the same, or the first
run was cut short and all that it has shown is the beginning of what the second shows. -/
inductive CutShort (l l' : Limits) (r r' : RunReport) : Prop
  | same (same : r' = r)
  | cut {h : Halt} (isCut : h.IsCut l l') (reported : r.failure = RunFailure.ofHalt? h)
      (begins : r.Begins r')

theorem Agrees.cutShort {r r' : EStateM.Result Stop Machine Unit} (agrees : Agrees l l' r r') :
    CutShort l l' (RunReport.ofResult r) (RunReport.ofResult r') := by
  cases agrees with
  | ok a limits => exact .same rfl
  | error stop limits => exact .same rfl
  | cut isCut begins =>
      obtain ⟨stdout, stderr, hostCalls⟩ := RunReport.ofResult_seen r'
      refine .cut isCut rfl ⟨?_, ?_, ?_⟩
      · rw [stdout]
        exact begins.stdout
      · rw [stderr]
        exact begins.stderr
      · rw [hostCalls]
        exact begins.hostCalls

namespace CutShort

variable {r r' : RunReport}

theorem begins (short : CutShort l l' r r') : r.Begins r' := by
  cases short with
  | same same => exact same ▸ .refl r
  | cut _ _ begins => exact begins

theorem eq_of_enough (short : CutShort l l' r r') (finished : r.isFinished = true)
    (enough : r.isUsedUp = false) : r' = r := by
  cases short with
  | same same => exact same
  | @cut h isCut reported _ =>
      unfold RunReport.isFinished at finished
      unfold RunReport.isUsedUp at enough
      rw [reported] at finished enough
      cases h with
      | budgetExhausted budget => cases enough
      | stackOverflow depth => cases enough
      | unfinished => cases finished
      | _ => exact isCut.elim

theorem eq_of_finished (short : CutShort l l r r') (finished : r.isFinished = true) : r' = r := by
  cases short with
  | same same => exact same
  | @cut h isCut reported _ =>
      unfold RunReport.isFinished at finished
      rw [reported] at finished
      cases h with
      | budgetExhausted budget => exact absurd rfl isCut
      | stackOverflow depth => exact absurd rfl isCut
      | unfinished => cases finished
      | _ => exact isCut.elim

end CutShort

/-! ## Runs that end -/

theorem runSourceTo_cutShort {depth depth' : Nat} (deeper : depth ≤ depth') (source : String)
    (options : RunOptions) {limits : Limits} (within : options.limits.Within limits) :
    CutShort options.limits limits (runSourceTo depth source options)
      (runSourceTo depth' source { options with limits }) := by
  unfold runSourceTo
  cases parseProgram source with
  | error e => exact .same rfl
  | ok p => exact (runProgramTo_simulates deeper p options within).cutShort

/-- The run of a source ends with a report: evaluation that goes deep enough comes to it. -/
def Ends (source : String) (options : RunOptions) (r : RunReport) : Prop :=
  r.isFinished = true ∧ ∃ depth, runSourceTo depth source options = r

variable {source : String} {options : RunOptions} {r r' : RunReport}

/-- What evaluation of some depth comes to, all deeper evaluation comes to as well. -/
theorem Ends.runSourceTo_eq (ends : Ends source options r) :
    ∃ enough, ∀ depth, enough ≤ depth → runSourceTo depth source options = r := by
  obtain ⟨finished, enough, rfl⟩ := ends
  refine ⟨enough, fun depth deeper => ?_⟩
  exact (runSourceTo_cutShort deeper source options (.refl _)).eq_of_finished finished

theorem Ends.unique (ends : Ends source options r) (ends' : Ends source options r') : r' = r := by
  obtain ⟨enough, same⟩ := ends.runSourceTo_eq
  obtain ⟨enough', same'⟩ := ends'.runSourceTo_eq
  exact (same' (max enough enough') (Nat.le_max_right ..)).symm.trans
    (same (max enough enough') (Nat.le_max_left ..))

/-- The runs that are carried out come to the end of a run if they are finished. -/
theorem ends_runSource (finished : (runSource source options).isFinished = true) :
    Ends source options (runSource source options) :=
  ⟨finished, _, rfl⟩

/-- How the run of a source under larger limits belongs to that under smaller ones: if the smaller
run has used up nothing, the larger one ends in the same way and in no other; and if it has, all
that it has shown the host is the beginning of what the larger run shows, whether that ends or
not. -/
structure OnlyCutShort (source : String) (options : RunOptions) (limits : Limits) : Prop where
  same : ∀ r, Ends source options r → r.isUsedUp = false →
    ∀ r', Ends source { options with limits } r' ↔ r' = r
  begins : ∀ r, Ends source options r → r.isUsedUp = true →
    (∀ r', Ends source { options with limits } r' → r.Begins r') ∧
      ∃ enough, ∀ depth, enough ≤ depth →
        r.Begins (runSourceTo depth source { options with limits })

/-- A run under smaller limits is the run under larger ones, or it is cut short: then all that it
has shown the host is the beginning of what the larger run shows.  Of the addresses that it asks for
the two runs are given the same. -/
theorem limits_only_cut_short (source : String) (options : RunOptions) (limits : Limits)
    (within : options.limits.Within limits) : OnlyCutShort source options limits where
  same := by
    rintro _ ⟨finished, enough, rfl⟩ unused r'
    have ends : Ends source { options with limits } (runSourceTo enough source options) :=
      ⟨finished, enough,
        (runSourceTo_cutShort (Nat.le_refl _) source options within).eq_of_enough finished unused⟩
    exact ⟨ends.unique, fun same => same ▸ ends⟩
  begins := by
    rintro _ ⟨finished, enough, rfl⟩ _
    have later (depth : Nat) (deeper : enough ≤ depth) :
        (runSourceTo enough source options).Begins
          (runSourceTo depth source { options with limits }) :=
      (runSourceTo_cutShort deeper source options within).begins
    refine ⟨fun r' ends => ?_, enough, later⟩
    obtain ⟨enough', same⟩ := ends.runSourceTo_eq
    exact same (max enough enough') (Nat.le_max_right ..) ▸ later _ (Nat.le_max_left ..)

/-- Room for ten steps, and no addresses. -/
def RunOptions.tenSteps : RunOptions :=
  { limits := { maxSteps := some 10, addresses := fun _ => none } }

/-- Room for a thousand steps and for deeper calls. -/
def Limits.thousandSteps : Limits := { maxSteps := some 1000, maxCallDepth := 2000 }

/-- A program that only the limits end. -/
def endlessSource : String :=
  "package main\nfunc main() \x7b for \x7b println(1) \x7d \x7d"

theorem limits_only_cut_short_endless :
    RunOptions.tenSteps.limits.Within .thousandSteps ∧
      OnlyCutShort endlessSource .tenSteps .thousandSteps := by
  have within : RunOptions.tenSteps.limits.Within .thousandSteps := by
    refine ⟨?_, by decide, rfl, rfl, nofun⟩
    intro budget' same
    cases same
    exact ⟨10, rfl, by decide⟩
  exact ⟨within, limits_only_cut_short endlessSource .tenSteps .thousandSteps within⟩

end SandboxedGo
