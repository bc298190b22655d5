import SandboxedGo.Run

/-!
# What the host sees only grows

The host sees the captured output and the calls of its functions.  Whatever a computation does, and
however it ends, what was seen before stays the beginning of what is seen afterwards.
-/

set_option autoImplicit false

namespace SandboxedGo

/-- The bytes of one buffer are the beginning of those of another. -/
def OutputBuffer.Begins (b b' : OutputBuffer) : Prop :=
  b.bytes.data.toList <+: b'.bytes.data.toList

/-- What the host has seen in one scene is the beginning of what it has seen in another. -/
structure Scene.Begins (s s' : Scene) : Prop where
  stdout : s.stdout.Begins s'.stdout
  stderr : s.stderr.Begins s'.stderr
  hostCalls : s.hostCalls.toList <+: s'.hostCalls.toList

/-- The machine that a computation leaves, however it ends. -/
def machineAfter {α : Type} : EStateM.Result Stop Machine α → Machine
  | .ok _ m => m
  | .error _ m => m

/-- An action takes nothing back that the host has seen. -/
def Action.Extends {α : Type} (x : Action α) : Prop :=
  ∀ m : Machine, m.toScene.Begins (machineAfter (x m)).toScene

/-! ## Beginnings -/

theorem OutputBuffer.Begins.refl (b : OutputBuffer) : b.Begins b := List.prefix_rfl

theorem OutputBuffer.write_begins (b : OutputBuffer) (bytes : ByteArray) :
    b.Begins (b.write bytes) := by
  simp only [OutputBuffer.Begins, OutputBuffer.write]
  split
  · simp [ByteArray.data_append]
  · simp [ByteArray.data_append]

theorem Scene.Begins.of_eq {s s' : Scene} (stdout : s'.stdout = s.stdout)
    (stderr : s'.stderr = s.stderr) (hostCalls : s'.hostCalls = s.hostCalls) : s.Begins s' := by
  refine ⟨?_, ?_, ?_⟩
  · rw [stdout]
    exact .refl _
  · rw [stderr]
    exact .refl _
  · exact hostCalls ▸ List.prefix_rfl

theorem Scene.Begins.trans {s s' s'' : Scene} (first : s.Begins s') (rest : s'.Begins s'') :
    s.Begins s'' :=
  ⟨List.IsPrefix.trans first.stdout rest.stdout, List.IsPrefix.trans first.stderr rest.stderr,
    first.hostCalls.trans rest.hostCalls⟩

/-! ## Actions -/

theorem Action.halt_extends {α : Type} (h : Halt) : Action.Extends (Action.halt (α := α) h) :=
  fun _ => .of_eq rfl rfl rfl

theorem Action.addressOf_extends (p : Pointee) : Action.Extends (Action.addressOf p) := by
  intro m
  rcases Action.addressOf_cases p m with ⟨place, given⟩ | lacking
  · rw [given]
    exact .of_eq rfl rfl rfl
  · rw [lacking]
    exact Action.halt_extends .unfinished m

theorem Action.checkStop_extends : Action.Extends Action.checkStop := by
  intro m
  unfold Action.checkStop
  split
  · exact Action.halt_extends .interrupted m
  · exact .of_eq rfl rfl rfl

theorem Action.checkBudget_extends : Action.Extends Action.checkBudget := by
  intro m
  unfold Action.checkBudget
  split
  · split
    · exact Action.halt_extends _ m
    · exact Action.checkStop_extends m
  · exact Action.checkStop_extends m

theorem Action.tick_extends : Action.Extends Action.tick := by
  intro m
  have counted : m.toScene.Begins m.stepped.toScene := .of_eq rfl rfl rfl
  exact counted.trans (Action.checkBudget_extends m.stepped)

theorem Action.checkDepth_extends : Action.Extends Action.checkDepth := by
  intro m
  unfold Action.checkDepth
  split
  · exact Action.halt_extends _ m
  · exact .of_eq rfl rfl rfl

theorem Action.write_extends (stream : Library.Stream) (text : String) :
    Action.Extends (Action.write stream text) := by
  intro m
  cases stream with
  | stdout => exact ⟨OutputBuffer.write_begins _ _, .refl _, List.prefix_rfl⟩
  | stderr => exact ⟨.refl _, OutputBuffer.write_begins _ _, List.prefix_rfl⟩

theorem Machine.replied_begins (m : Machine) (call : HostCall) (reply : HostReply) :
    m.toScene.Begins (m.replied call reply).toScene := by
  refine ⟨.refl _, .refl _, ?_⟩
  simp [Machine.replied]

theorem Action.takeOutcome_extends (outcome : HostOutcome) :
    Action.Extends (Action.takeOutcome outcome) := by
  intro m
  unfold Action.takeOutcome
  cases outcome with
  | crash message => exact Action.halt_extends _ m
  | value j =>
      dsimp only
      split
      · exact Action.halt_extends .interrupted m
      · exact .of_eq rfl rfl rfl
  | failure message =>
      dsimp only
      split
      · exact Action.halt_extends .interrupted m
      · exact .of_eq rfl rfl rfl

theorem Action.askHost_extends (name : String) (place : Nat) (arguments : List Json) :
    Action.Extends (Action.askHost name place arguments) := by
  intro m
  unfold Action.askHost
  split
  · exact .of_eq rfl rfl rfl
  · exact (m.replied_begins _ _).trans (Action.takeOutcome_extends _ _)

theorem Action.putOff_extends (function : Value) (arguments : List Value) :
    Action.Extends (Action.putOff function arguments) := by
  intro m
  unfold Action.putOff
  split
  · exact .of_eq rfl rfl rfl
  · exact .of_eq rfl rfl rfl

/-! ## Putting computations together -/

theorem Action.bind_begins {α β : Type} (x : Action α) {f : α → Action β}
    (rest : ∀ a, Action.Extends (f a)) (m : Machine) :
    (machineAfter (x m)).toScene.Begins (machineAfter (EStateM.bind x f m)).toScene := by
  unfold EStateM.bind
  cases x m with
  | ok a after => exact rest a after
  | error stop after => exact .of_eq rfl rfl rfl

theorem Action.paid_extends {α β : Type} {ready : Action α} {act : α → Action β}
    (first : Action.Extends ready) (rest : ∀ a, Action.Extends (act a)) :
    Action.Extends (Action.paid ready act) := by
  intro m
  refine (Action.tick_extends m).trans (Action.bind_begins _ (fun _ m => ?_) m)
  exact (first m).trans (Action.bind_begins _ rest m)

theorem Action.outcome_begins {α : Type} (x : Action α) (m : Machine) :
    (machineAfter (x m)).toScene.Begins (machineAfter (Action.outcome x m)).toScene := by
  unfold Action.outcome
  cases x m with
  | ok a after => exact .of_eq rfl rfl rfl
  | error stop after => cases stop <;> exact .of_eq rfl rfl rfl

theorem Action.closing_begins {α β : Type} (give : α → Machine → β) (close : Machine → Machine)
    (scene : ∀ m, (close m).toScene = m.toScene) (x : Action α) (m : Machine) :
    (machineAfter (x m)).toScene.Begins (machineAfter (Action.closing give close x m)).toScene := by
  unfold Action.closing
  cases x m with
  | ok a after =>
      show after.toScene.Begins (close after).toScene
      rw [scene]
      exact .of_eq rfl rfl rfl
  | error stop after =>
      show after.toScene.Begins (close after).toScene
      rw [scene]
      exact .of_eq rfl rfl rfl

theorem Action.deeper_extends {α : Type} {x : Action α} (inner : Action.Extends x) :
    Action.Extends (Action.deeper x) := by
  intro m
  have body : m.toScene.Begins (machineAfter (x m.deeper)).toScene := inner m.deeper
  exact body.trans (Action.closing_begins _ Machine.shallower (fun _ => rfl) x m.deeper)

theorem Action.framed_extends {α : Type} {x : Action α} (inner : Action.Extends x) :
    Action.Extends (Action.framed x) := by
  intro m
  have body : m.toScene.Begins (machineAfter (x m.framed)).toScene := inner m.framed
  exact body.trans (Action.closing_begins _ Machine.unframed (fun _ => rfl) x m.framed)

theorem Action.keepingPanic_extends {α : Type} {x : Action α} (inner : Action.Extends x) :
    Action.Extends (Action.keepingPanic x) := by
  intro m
  exact (inner m).trans
    (Action.closing_begins _ (Machine.withPanic m.panicking) (fun _ => rfl) x m)

theorem Action.iterate_extends {σ : Type} {round : σ → Action (Option σ)}
    (inner : ∀ s, Action.Extends (round s)) :
    ∀ (rounds : Nat) (s : σ), Action.Extends (Action.iterate round rounds s) := by
  intro rounds
  induction rounds with
  | zero =>
      intro s
      exact Action.halt_extends .unfinished
  | succ rounds ih =>
      intro s m
      have begins := inner s m
      unfold Action.iterate
      cases ran : round s m with
      | ok next after =>
          rw [ran] at begins
          cases next with
          | none => exact begins
          | some next => exact begins.trans (ih next after)
      | error stop after =>
          rw [ran] at begins
          exact begins

theorem Action.iterate_begins {σ : Type} {round : σ → Action (Option σ)}
    (inner : ∀ s, Action.Extends (round s)) (rounds : Nat) (s : σ) (m : Machine) :
    (machineAfter (round s m)).toScene.Begins
      (machineAfter (Action.iterate round (rounds + 1) s m)).toScene := by
  unfold Action.iterate
  cases round s m with
  | ok next after =>
      cases next with
      | none => exact .of_eq rfl rfl rfl
      | some next => exact Action.iterate_extends inner rounds next after
  | error stop after => exact .of_eq rfl rfl rfl

theorem Action.bind_extends {α β : Type} {x : Action α} {f : α → Action β}
    (first : Action.Extends x) (rest : ∀ a, Action.Extends (f a)) :
    Action.Extends (EStateM.bind x f) :=
  fun m => (first m).trans (Action.bind_begins _ rest m)

theorem Action.setPanicking_extends (panic : Option Value) :
    Action.Extends (Action.setPanicking panic) :=
  fun _ => .of_eq rfl rfl rfl

theorem Action.outcome_extends {α : Type} {x : Action α} (inner : Action.Extends x) :
    Action.Extends (Action.outcome x) :=
  fun m => (inner m).trans (Action.outcome_begins _ m)

theorem Action.deferredCall_extends {call : Action Value} (inner : Action.Extends call)
    (ended : Ending) : Action.Extends (Action.deferredCall call ended) := by
  unfold Action.deferredCall
  refine Action.bind_extends (Action.setPanicking_extends _) fun _ =>
    Action.bind_extends (Action.outcome_extends inner) fun made => ?_
  exact fun _ => .of_eq rfl rfl rfl

theorem Action.unwind_extends {call : Deferred → Action Value}
    (calls : ∀ d, Action.Extends (call d)) (frame : List Deferred) (ended : Ending) :
    Action.Extends (Action.unwind call frame ended) := by
  induction frame generalizing ended with
  | nil => exact fun _ => .of_eq rfl rfl rfl
  | cons d rest ih =>
      unfold Action.unwind
      split
      · exact Action.bind_extends (Action.deferredCall_extends (calls d) ended) ih
      · exact fun _ => .of_eq rfl rfl rfl

theorem Action.activation_extends {call : Deferred → Action Value} {body : Action (Option Value)}
    (calls : ∀ d, Action.Extends (call d)) (inner : Action.Extends body) :
    Action.Extends (Action.activation call body) :=
  Action.deeper_extends (Action.bind_extends
    (Action.framed_extends (Action.outcome_extends inner)) fun result =>
      Action.keepingPanic_extends (Action.unwind_extends calls result.2 result.1))

theorem Action.entered_extends {α : Type} {opening : Action α} (first : Action.Extends opening) :
    Action.Extends (Action.entered opening) :=
  Action.bind_extends (Action.paid_extends Action.checkDepth_extends fun _ _ => .of_eq rfl rfl rfl)
    fun _ => first

theorem Action.invocation_extends {α : Type} {call : Deferred → Action Value}
    {opening : Action α} {body : α → Action (Option Value)}
    (calls : ∀ d, Action.Extends (call d))
    (first : Action.Extends opening) (rest : ∀ a, Action.Extends (body a)) :
    Action.Extends (Action.invocation call opening body) :=
  Action.bind_extends (Action.entered_extends first) fun a =>
    Action.bind_extends (Action.activation_extends calls (rest a)) fun _ _ => .of_eq rfl rfl rfl

theorem Action.begin_extends {ev : Evaluator} (parts : ∀ w, Action.Extends (ev.perform w))
    (w : Work) : Action.Extends (Action.begin_ ev.perform w) := by
  intro m
  have begun : m.toScene.Begins m.working.toScene := .of_eq rfl rfl rfl
  exact begun.trans (parts w m.working)

/-- Every computation takes nothing back if the work of its evaluator does not. -/
theorem Built.extends {jumps : Bool} {α : Type} {x : Evaluator → Action α} (built : Built jumps x)
    {ev : Evaluator} (parts : ∀ w, Action.Extends (ev.perform w)) : Action.Extends (x ev) := by
  induction built with
  | pure a => exact fun _ => .of_eq rfl rfl rfl
  | bind _ _ first rest => exact Action.bind_extends first rest
  | view f => exact fun _ => .of_eq rfl rfl rfl
  | onGuest f => exact fun _ => .of_eq rfl rfl rfl
  | raise s => exact fun _ => .of_eq rfl rfl rfl
  | exit code => exact Action.halt_extends (.exit code)
  | unfinished => exact Action.halt_extends .unfinished
  | outcome _ inner => exact Action.outcome_extends inner
  | maxAlloc => exact fun _ => .of_eq rfl rfl rfl
  | addressOf p => exact Action.addressOf_extends p
  | tick => exact Action.tick_extends
  | write stream text => exact Action.write_extends stream text
  | undertake u _ ready => exact Action.paid_extends ready fun _ _ => .of_eq rfl rfl rfl
  | askHost name place _ arguments =>
      exact Action.paid_extends arguments (Action.askHost_extends name place)
  | perform w => exact Action.begin_extends parts w
  | loop _ s inner => exact Action.iterate_extends inner ev.rounds s
  | invocation _ _ first rest =>
      exact Action.invocation_extends (fun _ => Action.begin_extends parts _) first rest
  | putOff function arguments => exact Action.putOff_extends function arguments
  | recover => exact fun _ => .of_eq rfl rfl rfl

theorem perform_extends : ∀ (depth : Nat) (w : Work), Action.Extends (perform depth w) := by
  intro depth
  induction depth with
  | zero => exact fun _ => Action.halt_extends .unfinished
  | succ depth ih => exact fun w => w.step.built.extends ih

end SandboxedGo
