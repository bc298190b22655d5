import SandboxedGo.Run

/-!
# A halt is final

Once a halt is raised, nothing the host could see happens any more: the run leaves exactly the scene
that there was at that moment.  The machine notes every halt together with its scene, so the final
machine of a run shows whether anything came after one.

The evidence that a computation carries of how it is put together gives one case for each of the
ways; no statement, call or library function is looked at by itself.
-/

set_option autoImplicit false

namespace SandboxedGo

open Source

/-- The replies of the host are those of its functions to the calls, one by one; what a function
answers depends on the calls before. -/
inductive Answered (functions : Array HostFunction) : Array HostCall → Array HostReply → Prop
  | none : Answered functions #[] #[]
  | more {calls : Array HostCall} {replies : Array HostReply}
      (before : Answered functions calls replies) {f : HostFunction} (lent : f ∈ functions)
      (name : String) (arguments : List Json) :
      Answered functions (calls.push ⟨name, arguments⟩) (replies.push (f.respond calls arguments))

/-- A machine that goes on: no halt was raised, and no reply of the host wanted one. -/
structure Undisturbed (functions : Array HostFunction) (m : Machine) : Prop where
  lent : m.hostFunctions = functions
  answered : Answered functions m.hostCalls m.hostReplies
  quiet : ∀ reply ∈ m.hostReplies, reply.interrupts = false
  noEnding : m.endings = []

/-- A machine that a halt has left behind: one halt was raised, and the scene is still that of the
halt.  If a function of the host asked the run to stop while it worked, it was the last one called,
and the halt is the interruption unless that function broke down itself. -/
structure HaltedBy (functions : Array HostFunction) (h : Halt) (m : Machine) : Prop where
  answered : Answered functions m.hostCalls m.hostReplies
  onlyEnding : m.endings = [(h, m.toScene)]
  quiet : ∀ reply ∈ m.hostReplies.pop, reply.interrupts = false
  lastWord : ∀ reply, m.hostReplies.back? = some reply → reply.interrupts = true →
    h = .interrupted ∨ ∃ message, reply.outcome = .crash message ∧ h = .hostCrash message

/-- How a computation ends that was started on an undisturbed machine. -/
def EndsProperly {α : Type} (functions : Array HostFunction) :
    EStateM.Result Stop Machine α → Prop
  | .ok _ m => Undisturbed functions m
  | .error (.signal _) m => Undisturbed functions m
  | .error (.halt h) m => HaltedBy functions h m

/-- Whether an action ends properly wherever it is started. -/
def Action.IsProper {α : Type} (functions : Array HostFunction) (x : Action α) : Prop :=
  ∀ m, Undisturbed functions m → EndsProperly functions (x m)

variable {functions : Array HostFunction}

/-! ## Halts and limits -/

theorem Action.halt_isProper {α : Type} (h : Halt) :
    Action.IsProper functions (Action.halt (α := α) h) := by
  intro m going
  refine ⟨going.answered, ?_, ?_, ?_⟩
  · simp [going.noEnding]
  · intro reply member
    rw [← Array.mem_toList_iff, Array.toList_pop] at member
    exact going.quiet reply (Array.mem_toList_iff.mp (List.dropLast_subset _ member))
  · intro reply last interrupts
    have silent := going.quiet reply (Array.mem_of_back? last)
    simp [silent] at interrupts

theorem Action.addressOf_isProper (p : Pointee) :
    Action.IsProper functions (Action.addressOf p) := by
  intro m going
  rcases Action.addressOf_cases p m with ⟨place, given⟩ | lacking
  · rw [given]
    exact going
  · rw [lacking]
    exact Action.halt_isProper .unfinished m going

theorem Action.checkStop_isProper : Action.IsProper functions Action.checkStop := by
  intro m going
  unfold Action.checkStop
  by_cases stop : m.isStopRequested = true
  · rw [if_pos stop]
    exact Action.halt_isProper .interrupted m going
  · rw [if_neg stop]
    exact going

theorem Action.checkBudget_isProper : Action.IsProper functions Action.checkBudget := by
  intro m going
  unfold Action.checkBudget
  cases m.limits.maxSteps with
  | none => exact Action.checkStop_isProper m going
  | some budget =>
      by_cases overdrawn : budget < m.steps
      · simpa only [if_pos overdrawn] using Action.halt_isProper (.budgetExhausted budget) m going
      · simpa only [if_neg overdrawn] using Action.checkStop_isProper m going

theorem Action.tick_isProper : Action.IsProper functions Action.tick := by
  intro m going
  exact Action.checkBudget_isProper m.stepped
    ⟨going.lent, going.answered, going.quiet, going.noEnding⟩

theorem Action.checkDepth_isProper : Action.IsProper functions Action.checkDepth := by
  intro m going
  unfold Action.checkDepth
  by_cases deep : m.limits.maxCallDepth ≤ m.depth
  · rw [if_pos deep]
    exact Action.halt_isProper (.stackOverflow m.limits.maxCallDepth) m going
  · rw [if_neg deep]
    exact going

/-! ## The host -/

theorem Action.write_isProper (stream : Library.Stream) (text : String) :
    Action.IsProper functions (Action.write stream text) := by
  intro m going
  cases stream with
  | stdout => exact ⟨going.lent, going.answered, going.quiet, going.noEnding⟩
  | stderr => exact ⟨going.lent, going.answered, going.quiet, going.noEnding⟩

/-- A machine that the host has just answered: only the last reply may want the run to stop. -/
structure JustAnswered (functions : Array HostFunction) (reply : HostReply) (m : Machine) :
    Prop where
  lent : m.hostFunctions = functions
  answered : Answered functions m.hostCalls m.hostReplies
  last : ∃ before : Array HostReply, m.hostReplies = before.push reply ∧
    ∀ earlier ∈ before, earlier.interrupts = false
  heard : reply.interrupts = true → m.isStopRequested = true
  noEnding : m.endings = []

theorem Undisturbed.replied {m : Machine} (going : Undisturbed functions m) {f : HostFunction}
    (lent : f ∈ functions) (name : String) (arguments : List Json) :
    JustAnswered functions (f.respond m.hostCalls arguments)
      (m.replied ⟨name, arguments⟩ (f.respond m.hostCalls arguments)) where
  lent := going.lent
  answered := going.answered.more lent name arguments
  last := ⟨m.hostReplies, rfl, going.quiet⟩
  heard := by
    intro interrupts
    simp [Machine.isStopRequested, Machine.replied, interrupts]
  noEnding := going.noEnding

/-- Ending the run on a reply: as an interruption, or because the function broke down. -/
theorem JustAnswered.halted {α : Type} {reply : HostReply} {m : Machine}
    (just : JustAnswered functions reply m) {h : Halt}
    (word : h = .interrupted ∨ ∃ message, reply.outcome = .crash message ∧ h = .hostCrash message) :
    EndsProperly functions (Action.halt (α := α) h m) := by
  obtain ⟨before, replies, quiet⟩ := just.last
  refine ⟨just.answered, ?_, ?_, ?_⟩
  · simp [just.noEnding]
  · intro earlier member
    simp only [replies, Array.pop_push] at member
    exact quiet earlier member
  · intro last isLast _
    simp only [replies, Array.back?_push, Option.some.injEq] at isLast
    subst isLast
    exact word

theorem JustAnswered.undisturbed {reply : HostReply} {m : Machine}
    (just : JustAnswered functions reply m) (calm : ¬ m.isStopRequested = true) :
    Undisturbed functions m := by
  obtain ⟨before, replies, quiet⟩ := just.last
  refine ⟨just.lent, just.answered, ?_, just.noEnding⟩
  intro other member
  rw [replies, Array.mem_push] at member
  rcases member with earlier | rfl
  · exact quiet other earlier
  · cases interrupts : other.interrupts with
    | false => rfl
    | true => exact absurd (just.heard interrupts) calm

theorem Action.takeOutcome_isProper {reply : HostReply} {m : Machine}
    (just : JustAnswered functions reply m) :
    EndsProperly functions (Action.takeOutcome reply.outcome m) := by
  unfold Action.takeOutcome
  cases outcome : reply.outcome with
  | crash message => exact just.halted (.inr ⟨message, outcome, rfl⟩)
  | value j =>
      by_cases stop : m.isStopRequested = true
      · simpa only [if_pos stop] using just.halted (.inl rfl)
      · simp only [if_neg stop]
        exact just.undisturbed stop
  | failure message =>
      by_cases stop : m.isStopRequested = true
      · simpa only [if_pos stop] using just.halted (.inl rfl)
      · simp only [if_neg stop]
        exact just.undisturbed stop

theorem Action.askHost_isProper (name : String) (place : Nat) (arguments : List Json) :
    Action.IsProper functions (Action.askHost name place arguments) := by
  intro m going
  unfold Action.askHost
  cases found : m.hostFunctions[place]? with
  | none => exact going
  | some f =>
      have lent : f ∈ functions := going.lent ▸ Array.mem_of_getElem? found
      exact Action.takeOutcome_isProper (going.replied lent name arguments)

/-! ## Putting computations together -/

/-- An early end does not depend on the kind of result that was wanted. -/
theorem EndsProperly.early {α β : Type} {stop : Stop} {m : Machine}
    (ends : EndsProperly (α := α) functions (.error stop m)) :
    EndsProperly (α := β) functions (.error stop m) := by
  cases stop with
  | signal s => exact ends
  | halt h => exact ends

theorem Action.bind_isProper {α β : Type} {x : Action α} {f : α → Action β}
    (first : Action.IsProper functions x) (rest : ∀ a, Action.IsProper functions (f a)) :
    Action.IsProper functions (EStateM.bind x f) := by
  intro m going
  have ends := first m going
  unfold EStateM.bind
  cases ran : x m with
  | ok a next =>
      rw [ran] at ends
      exact rest a next ends
  | error stop next =>
      rw [ran] at ends
      exact ends.early

theorem Action.paid_isProper {α β : Type} {ready : Action α} {act : α → Action β}
    (first : Action.IsProper functions ready) (rest : ∀ a, Action.IsProper functions (act a)) :
    Action.IsProper functions (Action.paid ready act) :=
  Action.bind_isProper Action.tick_isProper fun _ => Action.bind_isProper first rest

theorem Action.outcome_isProper {α : Type} {x : Action α} (inner : Action.IsProper functions x) :
    Action.IsProper functions (Action.outcome x) := by
  intro m going
  have ends := inner m going
  unfold Action.outcome
  cases ran : x m with
  | ok a next =>
      rw [ran] at ends
      exact ends
  | error stop next =>
      rw [ran] at ends
      cases stop with
      | signal s => exact ends
      | halt h => exact ends

theorem Action.iterate_isProper {σ : Type} {round : σ → Action (Option σ)}
    (inner : ∀ s, Action.IsProper functions (round s)) :
    ∀ (rounds : Nat) (s : σ), Action.IsProper functions (Action.iterate round rounds s) := by
  intro rounds
  induction rounds with
  | zero =>
      intro s
      exact Action.halt_isProper .unfinished
  | succ rounds ih =>
      intro s m going
      have ends := inner s m going
      unfold Action.iterate
      cases ran : round s m with
      | ok next after =>
          rw [ran] at ends
          cases next with
          | none => exact ends
          | some next => exact ih next after ends
      | error stop after =>
          rw [ran] at ends
          exact ends.early

/-- A machine that differs only in the books about calls goes on just as well. -/
theorem Undisturbed.rebooked {m m' : Machine} (going : Undisturbed functions m)
    (scene : m'.toScene = m.toScene) (lent : m'.hostFunctions = m.hostFunctions)
    (endings : m'.endings = m.endings) : Undisturbed functions m' := by
  refine ⟨lent.trans going.lent, ?_, ?_, endings.trans going.noEnding⟩
  · rw [scene]
    exact going.answered
  · rw [scene]
    exact going.quiet

theorem HaltedBy.rebooked {h : Halt} {m m' : Machine} (halted : HaltedBy functions h m)
    (scene : m'.toScene = m.toScene) (endings : m'.endings = m.endings) :
    HaltedBy functions h m' := by
  refine ⟨?_, ?_, ?_, ?_⟩
  · rw [scene]
    exact halted.answered
  · rw [scene, endings]
    exact halted.onlyEnding
  · rw [scene]
    exact halted.quiet
  · rw [scene]
    exact halted.lastWord

theorem Action.closing_ends {α β : Type} {x : Action α} (inner : Action.IsProper functions x)
    {m : Machine} (going : Undisturbed functions m) (give : α → Machine → β)
    (close : Machine → Machine) (scene : ∀ m, (close m).toScene = m.toScene)
    (lent : ∀ m, (close m).hostFunctions = m.hostFunctions)
    (endings : ∀ m, (close m).endings = m.endings) :
    EndsProperly functions (Action.closing give close x m) := by
  have ends := inner m going
  unfold Action.closing
  cases ran : x m with
  | ok a after =>
      rw [ran] at ends
      exact Undisturbed.rebooked ends (scene after) (lent after) (endings after)
  | error stop after =>
      rw [ran] at ends
      cases stop with
      | signal s => exact Undisturbed.rebooked ends (scene after) (lent after) (endings after)
      | halt h => exact HaltedBy.rebooked ends (scene after) (endings after)

theorem Action.deeper_isProper {α : Type} {x : Action α} (inner : Action.IsProper functions x) :
    Action.IsProper functions (Action.deeper x) := by
  intro m going
  have opened : Undisturbed functions m.deeper := going.rebooked rfl rfl rfl
  exact Action.closing_ends inner opened _ Machine.shallower (fun _ => rfl) (fun _ => rfl)
    (fun _ => rfl)

theorem Action.framed_isProper {α : Type} {x : Action α} (inner : Action.IsProper functions x) :
    Action.IsProper functions (Action.framed x) := by
  intro m going
  have opened : Undisturbed functions m.framed := going.rebooked rfl rfl rfl
  exact Action.closing_ends inner opened _ Machine.unframed (fun _ => rfl) (fun _ => rfl)
    (fun _ => rfl)

theorem Action.keepingPanic_isProper {α : Type} {x : Action α}
    (inner : Action.IsProper functions x) : Action.IsProper functions (Action.keepingPanic x) := by
  intro m going
  exact Action.closing_ends inner going _ (Machine.withPanic m.panicking) (fun _ => rfl)
    (fun _ => rfl) (fun _ => rfl)

theorem Action.putOff_isProper (function : Value) (arguments : List Value) :
    Action.IsProper functions (Action.putOff function arguments) := by
  intro m going
  unfold Action.putOff
  cases m.deferred with
  | nil => exact going
  | cons frame frames => exact going.rebooked rfl rfl rfl

theorem Action.setPanicking_isProper (panic : Option Value) :
    Action.IsProper functions (Action.setPanicking panic) :=
  fun _ going => going.rebooked rfl rfl rfl

theorem Action.deferredCall_isProper {call : Action Value}
    (inner : Action.IsProper functions call) (ended : Ending) :
    Action.IsProper functions (Action.deferredCall call ended) := by
  unfold Action.deferredCall
  refine Action.bind_isProper (Action.setPanicking_isProper _) fun _ =>
    Action.bind_isProper (Action.outcome_isProper inner) fun made => ?_
  exact fun _ going => going

theorem Action.unwind_isProper {call : Deferred → Action Value}
    (calls : ∀ d, Action.IsProper functions (call d)) (frame : List Deferred) (ended : Ending) :
    Action.IsProper functions (Action.unwind call frame ended) := by
  induction frame generalizing ended with
  | nil => exact fun _ going => going
  | cons d rest ih =>
      unfold Action.unwind
      split
      · exact Action.bind_isProper (Action.deferredCall_isProper (calls d) ended) ih
      · exact fun _ going => going

theorem Action.activation_isProper {call : Deferred → Action Value} {body : Action (Option Value)}
    (calls : ∀ d, Action.IsProper functions (call d)) (inner : Action.IsProper functions body) :
    Action.IsProper functions (Action.activation call body) :=
  Action.deeper_isProper (Action.bind_isProper
    (Action.framed_isProper (Action.outcome_isProper inner)) fun result =>
      Action.keepingPanic_isProper (Action.unwind_isProper calls result.2 result.1))

theorem Action.entered_isProper {α : Type} {opening : Action α}
    (first : Action.IsProper functions opening) :
    Action.IsProper functions (Action.entered opening) := by
  refine Action.bind_isProper (Action.paid_isProper Action.checkDepth_isProper ?_) fun _ => first
  exact fun _ _ going => ⟨going.lent, going.answered, going.quiet, going.noEnding⟩

theorem Action.invocation_isProper {α : Type} {call : Deferred → Action Value}
    {opening : Action α} {body : α → Action (Option Value)}
    (calls : ∀ d, Action.IsProper functions (call d)) (first : Action.IsProper functions opening)
    (rest : ∀ a, Action.IsProper functions (body a)) :
    Action.IsProper functions (Action.invocation call opening body) :=
  Action.bind_isProper (Action.entered_isProper first) fun a =>
    Action.bind_isProper (Action.activation_isProper calls (rest a)) fun _ _ going => going

theorem Action.begin_isProper {ev : Evaluator}
    (parts : ∀ w, Action.IsProper functions (ev.perform w)) (w : Work) :
    Action.IsProper functions (Action.begin_ ev.perform w) :=
  fun m going => parts w m.working ⟨going.lent, going.answered, going.quiet, going.noEnding⟩

theorem Built.isProper {jumps : Bool} {α : Type} {x : Evaluator → Action α} (built : Built jumps x)
    {ev : Evaluator} (parts : ∀ w, Action.IsProper functions (ev.perform w)) :
    Action.IsProper functions (x ev) := by
  induction built with
  | pure a => exact fun _ going => going
  | bind _ _ first rest => exact Action.bind_isProper first rest
  | view f => exact fun _ going => going
  | onGuest f => exact fun _ going => ⟨going.lent, going.answered, going.quiet, going.noEnding⟩
  | raise s => exact fun _ going => going
  | unfinished => exact Action.halt_isProper .unfinished
  | exit code => exact Action.halt_isProper (.exit code)
  | outcome _ inner => exact Action.outcome_isProper inner
  | maxAlloc => exact fun _ going => going
  | addressOf p => exact Action.addressOf_isProper p
  | tick => exact Action.tick_isProper
  | write stream text => exact Action.write_isProper stream text
  | undertake u _ ready =>
      refine Action.paid_isProper ready fun _ m going => ?_
      exact ⟨going.lent, going.answered, going.quiet, going.noEnding⟩
  | askHost name place _ arguments =>
      exact Action.paid_isProper arguments (Action.askHost_isProper name place)
  | perform w => exact Action.begin_isProper parts w
  | loop _ s inner => exact Action.iterate_isProper inner ev.rounds s
  | invocation _ _ first rest =>
      exact Action.invocation_isProper (fun _ => Action.begin_isProper parts _) first rest
  | putOff function arguments => exact Action.putOff_isProper function arguments
  | recover => exact fun _ going => going.rebooked rfl rfl rfl

/-! ## Whole runs -/

theorem perform_isProper :
    ∀ (depth : Nat) (w : Work), Action.IsProper functions (perform depth w) := by
  intro depth
  induction depth with
  | zero => exact fun _ => Action.halt_isProper .unfinished
  | succ depth ih => exact fun w => w.step.built.isProper ih

theorem Machine.initial_undisturbed (options : RunOptions) :
    Undisturbed options.hostFunctions.toArray (Machine.initial options) where
  lent := rfl
  answered := .none
  quiet := by simp [Machine.initial]
  noEnding := rfl

/-- What a run leaves, and what is reported of it.  Either no halt was raised and the run ended by
itself, with a panic or with an error; or one was, the machine is still the one of that halt, and
the report is that of the halt. -/
def LeavesFinal (options : RunOptions) (report : RunReport) :
    EStateM.Result Stop Machine Unit → Prop
  | .ok _ m =>
    Undisturbed options.hostFunctions.toArray m ∧
      report = ⟨none, m.stdout, m.stderr, m.hostCalls⟩
  | .error (.signal s) m =>
    Undisturbed options.hostFunctions.toArray m ∧
      report = ⟨some (RunFailure.ofSignal m.line s), m.stdout, m.stderr, m.hostCalls⟩
  | .error (.halt h) m =>
    HaltedBy options.hostFunctions.toArray h m ∧
      report = ⟨RunFailure.ofHalt? h, m.stdout, m.stderr, m.hostCalls⟩

theorem EndsProperly.leavesFinal {options : RunOptions}
    {r : EStateM.Result Stop Machine Unit}
    (ends : EndsProperly options.hostFunctions.toArray r) :
    LeavesFinal options (RunReport.ofResult r) r := by
  cases r with
  | ok a m => exact ⟨ends, rfl⟩
  | error stop m =>
      cases stop with
      | signal s => exact ⟨ends, rfl⟩
      | halt h => exact ⟨ends, rfl⟩

/-- A halt that is raised anywhere in a run ends it on the spot, and as that halt. -/
theorem halt_is_final (source : String) (options : RunOptions) :
    match parseProgram source with
    | .error e => runSource source options = ⟨some (.parse e),
        { capacity := options.stdoutCapacity }, { capacity := options.stderrCapacity }, #[]⟩
    | .ok p => LeavesFinal options (runSource source options) (runProgram source p options) := by
  unfold runSource runSourceTo
  cases parseProgram source with
  | error e => rfl
  | ok p =>
      have ends : EndsProperly options.hostFunctions.toArray (runProgram source p options) :=
        (Eval.program options.hostFunctions p).built.isProper (perform_isProper _)
          (Machine.initial options) (Machine.initial_undisturbed options)
      exact ends.leavesFinal

end SandboxedGo
