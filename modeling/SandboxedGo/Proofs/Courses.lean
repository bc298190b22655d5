import SandboxedGo.Proofs.Visible

/-!
# What happens in a run

A course lists what happens on the way through a computation: actions that leave the books about
calls alone, calls that are put off, panics that are recovered, and functions, each one with the
course of its body and with its deferred calls, which have courses of their own.  Every computation
takes a course from every machine, and what it does to the books can be read off the course.
-/

set_option autoImplicit false

namespace SandboxedGo

/-- Something that happens in a run, and the machine before it. -/
inductive Happening
  /-- An action that leaves the books about calls alone. -/
  | other (m : Machine)
  /-- A call is put off to the end of the running function. -/
  | putOff (m : Machine) (call : Deferred)
  /-- The panic that runs is stopped; this is what the program sees of it. -/
  | recover (m : Machine) (found : Value)
  /-- A deferred call, how the body had ended before it, its course, and what it comes to unless a
  halt cuts it off. -/
  | deferred (m : Machine) (call : Deferred) (before : Ending) (course : List Happening)
      (made : Option (Except Signal Value))
  /-- The body of a function and how it ends, its deferred calls, and how it has ended behind them;
  no end is known where a halt cuts it off. -/
  | function (m : Machine) (body : List Happening) (ended : Option Ending)
      (unwinding : List Happening) (result : Option Ending)

namespace Happening

def machine : Happening → Machine
  | other m | putOff m _ | recover m _ | deferred m _ _ _ _ | function m _ _ _ _ => m

end Happening

mutual

/-- The calls that are put off to the end of the function in which something happens.  Those that
the body of an inner function puts off belong to that one. -/
def Happening.putOffs : Happening → List Deferred
  | .putOff _ call => [call]
  | .deferred _ _ _ course _ => coursePutOffs course
  | .function _ _ _ unwinding _ => coursePutOffs unwinding
  | _ => []

def coursePutOffs : List Happening → List Deferred
  | [] => []
  | g :: rest => g.putOffs ++ coursePutOffs rest

end

mutual

/-- Whether something stops the panic that runs.  A function does so in its body; its deferred calls
have panics of their own to stop. -/
def Happening.recovers : Happening → Bool
  | .recover _ _ => true
  | .deferred _ _ _ course _ => courseRecovers course
  | .function _ body _ _ _ => courseRecovers body
  | _ => false

def courseRecovers : List Happening → Bool
  | [] => false
  | g :: rest => g.recovers || courseRecovers rest

end

theorem coursePutOffs_append (c c' : List Happening) :
    coursePutOffs (c ++ c') = coursePutOffs c ++ coursePutOffs c' := by
  induction c with
  | nil => rfl
  | cons g rest ih => simp only [List.cons_append, coursePutOffs, ih, List.append_assoc]

theorem courseRecovers_append (c c' : List Happening) :
    courseRecovers (c ++ c') = (courseRecovers c || courseRecovers c') := by
  induction c with
  | nil => rfl
  | cons g rest ih => simp only [List.cons_append, courseRecovers, ih, Bool.or_assoc]

/-! ## Courses -/

/-- A machine with the panic that a body has ended with, for a deferred call to recover. -/
def Machine.unwindingFrom (ended : Ending) (m : Machine) : Machine :=
  m.withPanic (ended.panic?.map Panic.toValue)

namespace Action

/-- The actions that leave the books about calls alone. -/
inductive Plain : {α : Type} → Action α → Prop
  | pure {α : Type} (a : α) : Plain (EStateM.pure a)
  | view {α : Type} (f : Guest → α) : Plain (Action.view f)
  | onGuest {α : Type} (f : Guest → α × Guest) : Plain (Action.onGuest f)
  | raise {α : Type} (s : Signal) : Plain (Action.raise (α := α) s)
  | halt {α : Type} (h : Halt) : Plain (Action.halt (α := α) h)
  | maxAlloc : Plain Action.maxAlloc
  | addressOf (p : Pointee) : Plain (Action.addressOf p)
  | tick : Plain Action.tick
  | checkDepth : Plain Action.checkDepth
  | undertake (u : Undertaking) : Plain (Action.undertake u)
  | write (stream : Library.Stream) (text : String) : Plain (Action.write stream text)
  | askHost (name : String) (place : Nat) (arguments : List Json) :
      Plain (Action.askHost name place arguments)

/-- The deferred calls that are made after a body that has ended in some way, from a machine on, and
how the body has ended behind them. -/
inductive Unwound (call : Deferred → Action Value) :
    List Deferred → Ending → Machine → List Happening → Option Ending → Prop
  | empty (ended : Ending) (m : Machine) : Unwound call [] ended m [] (some ended)
  | skipped (frame : List Deferred) (ended : Ending) (m : Machine)
      (skips : ended.runsDeferred = false) : Unwound call frame ended m [] (some ended)
  | next {d : Deferred} {rest : List Deferred} {ended : Ending} {m m' : Machine}
      {made : Except Signal Value} {unwinding : List Happening} {result : Option Ending}
      (course : List Happening) (runs : ended.runsDeferred = true)
      (ran : outcome (call d) (m.unwindingFrom ended) = .ok made m')
      (others : Unwound call rest (ended.behind made m'.panicking.isNone) m' unwinding result) :
      Unwound call (d :: rest) ended m (.deferred m d ended course (some made) :: unwinding) result
  | cutOff {d : Deferred} {rest : List Deferred} {ended : Ending} {m m' : Machine} {stop : Stop}
      (course : List Happening) (runs : ended.runsDeferred = true)
      (ran : outcome (call d) (m.unwindingFrom ended) = .error stop m') :
      Unwound call (d :: rest) ended m [.deferred m d ended course none] none

/-- An action takes a course from a machine. -/
inductive Takes : {α : Type} → Action α → Machine → List Happening → Prop
  | plain {α : Type} {x : Action α} (plain : Plain x) (m : Machine) : Takes x m [.other m]
  | putOff {m : Machine} (function : Value) (arguments : List Value)
      (within : m.deferred ≠ []) :
      Takes (putOff function arguments) m [.putOff m ⟨function, arguments⟩]
  | refused {m : Machine} (function : Value) (arguments : List Value)
      (outside : m.deferred = []) : Takes (putOff function arguments) m [.other m]
  | recover {m m' : Machine} {found : Value} (ran : recover m = .ok found m') :
      Takes recover m [.recover m found]
  | bind {α β : Type} {x : Action α} {f : α → Action β} {m m' : Machine} {a : α}
      {c c' : List Happening} (ran : x m = .ok a m') (first : Takes x m c)
      (rest : Takes (f a) m' c') : Takes (EStateM.bind x f) m (c ++ c')
  | bindStops {α β : Type} {x : Action α} {f : α → Action β} {m m' : Machine} {stop : Stop}
      {c : List Happening} (ran : x m = .error stop m') (first : Takes x m c) :
      Takes (EStateM.bind x f) m c
  | outcome {α : Type} {x : Action α} {m : Machine} {c : List Happening} (inner : Takes x m c) :
      Takes (outcome x) m c
  | tooDeep (w : Work) (m : Machine) : Takes (begin_ (perform 0) w) m [.other m]
  | begins {depth : Nat} {w : Work} {m : Machine} {c : List Happening}
      (inner : Takes (w.step.run (.ofDepth depth)) m.working c) :
      Takes (begin_ (perform (depth + 1)) w) m c
  | noRounds {σ : Type} (round : σ → Action (Option σ)) (s : σ) (m : Machine) :
      Takes (iterate round 0 s) m [.other m]
  | nextRound {σ : Type} {round : σ → Action (Option σ)} {rounds : Nat} {s next : σ}
      {m m' : Machine} {c c' : List Happening} (ran : round s m = .ok (some next) m')
      (first : Takes (round s) m c) (rest : Takes (iterate round rounds next) m' c') :
      Takes (iterate round (rounds + 1) s) m (c ++ c')
  | lastRound {σ : Type} {round : σ → Action (Option σ)} {rounds : Nat} {s : σ} {m : Machine}
      {c : List Happening} (ended : ∀ next m', round s m ≠ .ok (some next) m')
      (first : Takes (round s) m c) : Takes (iterate round (rounds + 1) s) m c
  | notEntered {α : Type} {call : Deferred → Action Value} {opening : Action α}
      {body : α → Action (Option Value)} {m m' : Machine} {stop : Stop} {c : List Happening}
      (ran : entered opening m = .error stop m') (first : Takes (entered opening) m c) :
      Takes (invocation call opening body) m c
  | cutOff {α : Type} {call : Deferred → Action Value} {opening : Action α}
      {body : α → Action (Option Value)} {m m₁ m₂ : Machine} {a : α} {stop : Stop}
      {c inside : List Happening}
      (ran : entered opening m = .ok a m₁) (first : Takes (entered opening) m c)
      (stopped : Action.outcome (body a) m₁.deeper.framed = .error stop m₂)
      (rest : Takes (body a) m₁.deeper.framed inside) :
      Takes (invocation call opening body) m (c ++ [.function m₁ inside none [] none])
  | function {α : Type} {call : Deferred → Action Value} {opening : Action α}
      {body : α → Action (Option Value)} {m m₁ m₂ : Machine} {a : α} {ended : Ending}
      {c inside unwinding : List Happening} {result : Option Ending}
      (ran : entered opening m = .ok a m₁) (first : Takes (entered opening) m c)
      (settled : Action.outcome (body a) m₁.deeper.framed = .ok ended m₂)
      (rest : Takes (body a) m₁.deeper.framed inside)
      (unwound : Unwound call m₂.innermost ended m₂.unframed unwinding result)
      (calls : ∀ m' d before course made, .deferred m' d before course made ∈ unwinding →
        Takes (call d) (m'.unwindingFrom before) course) :
      Takes (invocation call opening body) m
        (c ++ [.function m₁ inside (some ended) unwinding result])

end Action

/-! ## Every computation takes a course -/

section

variable {α β : Type} {call : Deferred → Action Value}

namespace Action

/-- A way to find courses for deferred calls finds them for all that are made. -/
theorem exists_unwound (known : ∀ d m, ∃ c, Takes (call d) m c) (frame : List Deferred)
    (ended : Ending) (m : Machine) :
    ∃ unwinding result, Unwound call frame ended m unwinding result ∧
      ∀ m' d before course made, .deferred m' d before course made ∈ unwinding →
        Takes (call d) (m'.unwindingFrom before) course := by
  induction frame generalizing ended m with
  | nil => exact ⟨[], some ended, .empty ended m, fun _ _ _ _ _ mem => by cases mem⟩
  | cons d rest ih =>
      cases runs : ended.runsDeferred with
      | false => exact ⟨[], some ended, .skipped _ ended m runs, fun _ _ _ _ _ mem => by cases mem⟩
      | true =>
          obtain ⟨course, taken⟩ := known d (m.unwindingFrom ended)
          cases ran : outcome (call d) (m.unwindingFrom ended) with
          | ok made m' =>
              obtain ⟨unwinding, result, unwound, calls⟩ :=
                ih (ended.behind made m'.panicking.isNone) m'
              refine ⟨_, result, .next course runs ran unwound, ?_⟩
              intro _ _ _ _ _ mem
              rcases List.mem_cons.mp mem with is | mem
              · cases is
                exact taken
              · exact calls _ _ _ _ _ mem
          | error stop m' =>
              refine ⟨_, none, .cutOff course runs ran, ?_⟩
              intro _ _ _ _ _ mem
              cases List.mem_singleton.mp mem
              exact taken

theorem exists_bind {x : Action α} {f : α → Action β} (first : ∀ m, ∃ c, Takes x m c)
    (rest : ∀ a m, ∃ c, Takes (f a) m c) (m : Machine) : ∃ c, Takes (EStateM.bind x f) m c := by
  obtain ⟨c, taken⟩ := first m
  cases ran : x m with
  | ok a m' =>
      obtain ⟨c', others⟩ := rest a m'
      exact ⟨c ++ c', .bind ran taken others⟩
  | error stop m' => exact ⟨c, .bindStops ran taken⟩

theorem exists_paid {ready : Action α} {act : α → Action β} (first : ∀ m, ∃ c, Takes ready m c)
    (rest : ∀ a, Plain (act a)) (m : Machine) : ∃ c, Takes (paid ready act) m c :=
  exists_bind (fun m => ⟨_, .plain .tick m⟩)
    (fun _ => exists_bind first fun a m => ⟨_, .plain (rest a) m⟩) m

theorem exists_entered {opening : Action α} (first : ∀ m, ∃ c, Takes opening m c) (m : Machine) :
    ∃ c, Takes (entered opening) m c :=
  exists_bind (exists_paid (fun m => ⟨_, .plain .checkDepth m⟩) fun _ => .undertake .function)
    (fun _ => first) m

theorem exists_iterate {σ : Type} {round : σ → Action (Option σ)}
    (inner : ∀ s m, ∃ c, Takes (round s) m c) (rounds : Nat) (s : σ) (m : Machine) :
    ∃ c, Takes (iterate round rounds s) m c := by
  induction rounds generalizing s m with
  | zero => exact ⟨_, .noRounds round s m⟩
  | succ rounds ih =>
      obtain ⟨c, taken⟩ := inner s m
      by_cases goesOn : ∃ next m', round s m = .ok (some next) m'
      · obtain ⟨next, m', ran⟩ := goesOn
        obtain ⟨c', others⟩ := ih next m'
        exact ⟨c ++ c', .nextRound ran taken others⟩
      · exact ⟨c, .lastRound (fun next m' ran => goesOn ⟨next, m', ran⟩) taken⟩

theorem exists_invocation {opening : Action α} {body : α → Action (Option Value)}
    (known : ∀ d m, ∃ c, Takes (call d) m c) (first : ∀ m, ∃ c, Takes opening m c)
    (rest : ∀ a m, ∃ c, Takes (body a) m c) (m : Machine) :
    ∃ c, Takes (invocation call opening body) m c := by
  obtain ⟨c, taken⟩ := exists_entered first m
  cases ran : entered opening m with
  | error stop m' => exact ⟨c, .notEntered ran taken⟩
  | ok a m₁ =>
      obtain ⟨inside, executed⟩ := rest a m₁.deeper.framed
      cases settled : outcome (body a) m₁.deeper.framed with
      | error stop m₂ => exact ⟨_, .cutOff ran taken settled executed⟩
      | ok ended m₂ =>
          obtain ⟨unwinding, result, unwound, calls⟩ :=
            exists_unwound known m₂.innermost ended m₂.unframed
          exact ⟨_, .function ran taken settled executed unwound calls⟩

end Action

open SandboxedGo.Action in
theorem Built.exists_takes {jumps : Bool} {x : Evaluator → Action α} (built : Built jumps x)
    {ev : Evaluator} (works : ∀ w m, ∃ c, Takes (begin_ ev.perform w) m c) :
    ∀ m, ∃ c, Takes (x ev) m c := by
  induction built with
  | pure a => exact fun m => ⟨_, .plain (.pure a) m⟩
  | bind _ _ first rest => exact exists_bind first rest
  | view f => exact fun m => ⟨_, .plain (.view f) m⟩
  | onGuest f => exact fun m => ⟨_, .plain (.onGuest f) m⟩
  | raise s => exact fun m => ⟨_, .plain (.raise s) m⟩
  | exit code => exact fun m => ⟨_, .plain (.halt (.exit code)) m⟩
  | unfinished => exact fun m => ⟨_, .plain (.halt .unfinished) m⟩
  | outcome _ inner =>
      intro m
      obtain ⟨c, taken⟩ := inner m
      exact ⟨c, .outcome taken⟩
  | maxAlloc => exact fun m => ⟨_, .plain .maxAlloc m⟩
  | addressOf p => exact fun m => ⟨_, .plain (.addressOf p) m⟩
  | tick => exact fun m => ⟨_, .plain .tick m⟩
  | write stream text => exact fun m => ⟨_, .plain (.write stream text) m⟩
  | undertake u _ ready => exact exists_paid ready fun _ => .undertake u
  | askHost name place _ arguments => exact exists_paid arguments (.askHost name place)
  | perform w => exact works w
  | loop _ s inner => exact exists_iterate inner ev.rounds s
  | invocation _ _ first rest => exact exists_invocation (fun _ => works _) first rest
  | putOff function arguments =>
      intro m
      by_cases outside : m.deferred = []
      · exact ⟨_, .refused function arguments outside⟩
      · exact ⟨_, .putOff function arguments outside⟩
  | recover => exact fun m => ⟨_, .recover rfl⟩

theorem work_exists_takes (depth : Nat) (w : Work) (m : Machine) :
    ∃ c, Action.Takes (Action.begin_ (perform depth) w) m c := by
  -- A piece of work has parts one level below it, and deferred calls are such parts as well.
  induction depth generalizing w m with
  | zero => exact ⟨_, .tooDeep w m⟩
  | succ depth ih =>
      have parts : ∀ w m, ∃ c, Action.Takes
          (Action.begin_ (Evaluator.ofDepth depth).perform w) m c := ih
      obtain ⟨c, taken⟩ := w.step.built.exists_takes parts m.working
      exact ⟨c, .begins taken⟩

theorem Computation.exists_takes {jumps : Bool} (x : Computation jumps α) (depth : Nat)
    (m : Machine) : ∃ c, Action.Takes (x.run (.ofDepth depth)) m c :=
  x.built.exists_takes (work_exists_takes depth) m

end

/-! ## What a course does to the books -/

/-- Behind a course the depth and the limits are what they were before, and the lists of deferred
calls as well, but for what was put off on the way. -/
structure KeepsFrames (m : Machine) (course : List Happening) (after : Machine) : Prop where
  depth : after.depth = m.depth
  limits : after.limits = m.limits
  deferred : after.deferred = m.deferred.modifyHead ((coursePutOffs course).reverse ++ ·)

/-- The panic that runs still runs then unless it was recovered on the way. -/
structure KeepsBooks (m : Machine) (course : List Happening) (after : Machine) : Prop
    extends KeepsFrames m course after where
  panicking : after.panicking = if courseRecovers course then none else m.panicking

section

variable {α : Type} {m m' m'' : Machine} {c c' : List Happening}

theorem modifyHead_nil_append {β : Type} (frames : List (List β)) :
    frames.modifyHead ([] ++ ·) = frames := by
  cases frames <;> rfl

theorem KeepsFrames.same (nothing : coursePutOffs c = []) (depth : m'.depth = m.depth)
    (limits : m'.limits = m.limits) (deferred : m'.deferred = m.deferred) :
    KeepsFrames m c m' :=
  ⟨depth, limits, by rw [nothing, deferred]; exact (modifyHead_nil_append _).symm⟩

theorem KeepsFrames.append (first : KeepsFrames m c m') (rest : KeepsFrames m' c' m'') :
    KeepsFrames m (c ++ c') m'' where
  depth := rest.depth.trans first.depth
  limits := rest.limits.trans first.limits
  deferred := by
    rw [rest.deferred, first.deferred, coursePutOffs_append, List.reverse_append]
    cases m.deferred with
    | nil => rfl
    | cons frame frames => simp only [List.modifyHead_cons, List.append_assoc]

theorem KeepsBooks.append (first : KeepsBooks m c m') (rest : KeepsBooks m' c' m'') :
    KeepsBooks m (c ++ c') m'' where
  toKeepsFrames := first.toKeepsFrames.append rest.toKeepsFrames
  panicking := by
    rw [rest.panicking, first.panicking, courseRecovers_append]
    cases courseRecovers c <;> cases courseRecovers c' <;> rfl

theorem KeepsBooks.other (depth : m'.depth = m.depth) (limits : m'.limits = m.limits)
    (deferred : m'.deferred = m.deferred) (panicking : m'.panicking = m.panicking) :
    KeepsBooks m [.other m] m' where
  toKeepsFrames := .same rfl depth limits deferred
  panicking := panicking

theorem KeepsFrames.deferredCall {d : Deferred} {ended : Ending}
    {made : Option (Except Signal Value)} (kept : KeepsFrames (m.unwindingFrom ended) c m') :
    KeepsFrames m [.deferred m d ended c made] m' :=
  ⟨kept.depth, kept.limits, by
    rw [kept.deferred, coursePutOffs, coursePutOffs, List.append_nil]
    rfl⟩

/-- Behind the body of a function its own calls are those that it has put off. -/
theorem KeepsFrames.innermost (kept : KeepsFrames m.deeper.framed c m') :
    m'.innermost = (coursePutOffs c).reverse ∧ m'.unframed.deferred = m.deferred := by
  have frames : m'.deferred = ((coursePutOffs c).reverse ++ []) :: m.deferred := kept.deferred
  rw [List.append_nil] at frames
  simp only [Machine.innermost, Machine.unframed, frames, List.headD_cons, List.tail_cons,
    and_self]

theorem KeepsBooks.function {ended result : Option Ending} {unwinding : List Happening}
    (body : KeepsBooks m.deeper.framed c m') (calls : KeepsFrames m'.unframed unwinding m'') :
    KeepsBooks m [.function m c ended unwinding result]
      (m''.withPanic m'.panicking).shallower where
  depth := by
    show m''.depth - 1 = m.depth
    rw [calls.depth]
    show m'.depth - 1 = m.depth
    rw [body.depth]
    rfl
  limits := calls.limits.trans body.limits
  deferred := by
    show m''.deferred = _
    rw [calls.deferred, body.innermost.2, coursePutOffs, coursePutOffs, List.append_nil]
    rfl
  panicking := by
    show m'.panicking = _
    rw [body.panicking, courseRecovers, courseRecovers, Bool.or_false]
    rfl

namespace Action

theorem checkStop_keeps (m : Machine) : KeepsBooks m [.other m] (machineAfter (checkStop m)) := by
  unfold checkStop
  split <;> exact .other rfl rfl rfl rfl

theorem takeOutcome_keeps (reply : HostOutcome) (m : Machine) :
    KeepsBooks m [.other m] (machineAfter (takeOutcome reply m)) := by
  unfold takeOutcome
  split
  · exact .other rfl rfl rfl rfl
  · split <;> exact .other rfl rfl rfl rfl
  · split <;> exact .other rfl rfl rfl rfl

theorem tick_keeps (m : Machine) : KeepsBooks m [.other m] (machineAfter (tick m)) := by
  have stops : KeepsBooks m [.other m] (machineAfter (checkStop m.stepped)) :=
    have kept := checkStop_keeps m.stepped
    .other kept.depth kept.limits (kept.deferred.trans (modifyHead_nil_append _)) kept.panicking
  unfold tick checkBudget
  split
  · split
    · exact .other rfl rfl rfl rfl
    · exact stops
  · exact stops

theorem Plain.keeps {x : Action α} (plain : Plain x) (m : Machine) :
    KeepsBooks m [.other m] (machineAfter (x m)) := by
  cases plain with
  | tick => exact tick_keeps m
  | addressOf p =>
      unfold Action.addressOf
      split <;> exact .other rfl rfl rfl rfl
  | checkDepth =>
      unfold Action.checkDepth
      split <;> exact .other rfl rfl rfl rfl
  | write stream text => cases stream <;> exact .other rfl rfl rfl rfl
  | askHost name place arguments =>
      unfold Action.askHost
      split
      · exact .other rfl rfl rfl rfl
      · rename_i f found
        have kept := takeOutcome_keeps (f.respond m.hostCalls arguments).outcome
          (m.replied ⟨name, arguments⟩ (f.respond m.hostCalls arguments))
        exact .other kept.depth kept.limits (kept.deferred.trans (modifyHead_nil_append _))
          kept.panicking
  | _ => exact .other rfl rfl rfl rfl

/-! Functions are executed step by step. -/

theorem outcome_after (x : Action α) (m : Machine) :
    machineAfter (outcome x m) = machineAfter (x m) := by
  unfold outcome
  cases x m with
  | ok a m' => rfl
  | error stop m' => cases stop <;> rfl

theorem deferredCall_made {call : Action Value} {ended : Ending} {made : Except Signal Value}
    (ran : outcome call (m.unwindingFrom ended) = .ok made m') :
    deferredCall call ended m = .ok (ended.behind made m'.panicking.isNone) m' := by
  show EStateM.bind (outcome call) _ (m.unwindingFrom ended) = _
  unfold EStateM.bind
  rw [ran]
  rfl

theorem deferredCall_cutOff {call : Action Value} {ended : Ending} {stop : Stop}
    (ran : outcome call (m.unwindingFrom ended) = .error stop m') :
    deferredCall call ended m = .error stop m' := by
  show EStateM.bind (outcome call) _ (m.unwindingFrom ended) = _
  unfold EStateM.bind
  rw [ran]

variable {call : Deferred → Action Value}

theorem unwind_next {d : Deferred} {rest : List Deferred} {ended : Ending}
    {made : Except Signal Value} (runs : ended.runsDeferred = true)
    (ran : outcome (call d) (m.unwindingFrom ended) = .ok made m') :
    unwind call (d :: rest) ended m =
      unwind call rest (ended.behind made m'.panicking.isNone) m' := by
  rw [unwind, if_pos runs]
  show EStateM.bind (deferredCall (call d) ended) _ m = _
  unfold EStateM.bind
  rw [deferredCall_made ran]

theorem unwind_cutOff {d : Deferred} {rest : List Deferred} {ended : Ending} {stop : Stop}
    (runs : ended.runsDeferred = true)
    (ran : outcome (call d) (m.unwindingFrom ended) = .error stop m') :
    unwind call (d :: rest) ended m = .error stop m' := by
  rw [unwind, if_pos runs]
  show EStateM.bind (deferredCall (call d) ended) _ m = _
  unfold EStateM.bind
  rw [deferredCall_cutOff ran]

theorem unwind_skipped {frame : List Deferred} {ended : Ending}
    (skips : ended.runsDeferred = false) :
    unwind call frame ended m = .ok ended m := by
  cases frame with
  | nil => rfl
  | cons d rest =>
      rw [unwind, if_neg (by simp [skips])]
      rfl

theorem closing_after {β : Type} (give : α → Machine → β) (close : Machine → Machine)
    (x : Action α) (m : Machine) :
    machineAfter (closing give close x m) = close (machineAfter (x m)) := by
  unfold closing
  cases x m <;> rfl

/-- Behind a body its deferred calls are made; then the books are closed. -/
theorem activation_settled {body : Action (Option Value)} {ended : Ending}
    (settled : outcome body m.deeper.framed = .ok ended m') :
    activation call body m =
      closing (fun r _ => r) (fun after => (after.withPanic m'.panicking).shallower)
        (unwind call m'.innermost ended) m'.unframed := by
  unfold activation deeper
  simp only [bind, EStateM.bind, framed, closing, settled, keepingPanic]
  cases unwind call m'.innermost ended m'.unframed <;> rfl

theorem activation_cutOff {body : Action (Option Value)} {stop : Stop}
    (stopped : outcome body m.deeper.framed = .error stop m') :
    activation call body m = .error stop m'.unframed.shallower := by
  unfold activation deeper
  simp only [bind, EStateM.bind, framed, closing, stopped]

theorem invocation_entered {opening : Action α} {body : α → Action (Option Value)} {a : α}
    (ran : entered opening m = .ok a m') :
    invocation call opening body m =
      closing (fun ended _ => (a, ended)) id (activation call (body a)) m' := by
  unfold invocation closing
  simp only [bind, EStateM.bind, ran]
  cases activation call (body a) m' <;> rfl

/-- Each deferred call that is made does to the books what its course says. -/
def CallsKeep (call : Deferred → Action Value) (unwinding : List Happening) : Prop :=
  ∀ m d before course made, .deferred m d before course made ∈ unwinding →
    KeepsBooks (m.unwindingFrom before) course (machineAfter (call d (m.unwindingFrom before)))

theorem CallsKeep.tail {g : Happening} {unwinding : List Happening}
    (calls : CallsKeep call (g :: unwinding)) : CallsKeep call unwinding :=
  fun m d before course made mem => calls m d before course made (List.mem_cons_of_mem g mem)

theorem CallsKeep.head {d : Deferred} {ended : Ending} {made : Except Signal Value}
    {unwinding : List Happening}
    (calls : CallsKeep call (.deferred m d ended c (some made) :: unwinding))
    (ran : outcome (call d) (m.unwindingFrom ended) = .ok made m') :
    KeepsBooks (m.unwindingFrom ended) c m' := by
  have kept := calls m d ended c (some made) List.mem_cons_self
  rw [← outcome_after, ran] at kept
  exact kept

theorem Unwound.keepsFrames {frame : List Deferred} {ended : Ending} {unwinding : List Happening}
    {result : Option Ending} (unwound : Unwound call frame ended m unwinding result)
    (calls : CallsKeep call unwinding) :
    KeepsFrames m unwinding (machineAfter (unwind call frame ended m)) := by
  induction unwound with
  | empty ended m => exact .same rfl rfl rfl rfl
  | skipped frame ended m skips =>
      rw [unwind_skipped skips]
      exact .same rfl rfl rfl rfl
  | next _ runs ran _ ih =>
      rw [unwind_next runs ran]
      exact (calls.head ran).toKeepsFrames.deferredCall.append (ih calls.tail)
  | @cutOff d rest ended m m' stop course runs ran =>
      have first := calls m d ended course none List.mem_cons_self
      rw [← outcome_after, ran] at first
      rw [unwind_cutOff runs ran]
      exact first.toKeepsFrames.deferredCall

theorem Takes.keepsBooks {x : Action α} (taken : Takes x m c) :
    KeepsBooks m c (machineAfter (x m)) := by
  induction taken with
  | plain plain m => exact plain.keeps m
  | @putOff m function arguments within =>
      unfold Action.putOff
      cases frames : m.deferred with
      | nil => exact absurd frames within
      | cons frame rest => exact ⟨⟨rfl, rfl, by rw [frames]; rfl⟩, rfl⟩
  | refused function arguments outside =>
      simp only [Action.putOff, outside]
      exact .other rfl rfl rfl rfl
  | @recover m m' found ran => exact ⟨.same rfl rfl rfl rfl, rfl⟩
  | bind ran _ _ first rest =>
      rw [ran] at first
      simp only [EStateM.bind, ran]
      exact first.append rest
  | bindStops ran _ first =>
      rw [ran] at first
      simp only [EStateM.bind, ran]
      exact first
  | outcome _ inner =>
      rw [outcome_after]
      exact inner
  | tooDeep w m => exact .other rfl rfl rfl rfl
  | begins _ inner => exact ⟨⟨inner.depth, inner.limits, inner.deferred⟩, inner.panicking⟩
  | noRounds round s m => exact .other rfl rfl rfl rfl
  | nextRound ran _ _ first rest =>
      rw [ran] at first
      simp only [iterate, ran]
      exact first.append rest
  | @lastRound σ round rounds s m c ended _ first =>
      unfold iterate
      cases ran : round s m with
      | ok next m' =>
          rw [ran] at first
          cases next with
          | none => exact first
          | some next => exact absurd ran (ended next m')
      | error stop m' =>
          rw [ran] at first
          exact first
  | notEntered ran _ first =>
      rw [ran] at first
      simp only [invocation, Bind.bind, EStateM.bind, ran]
      exact first
  | cutOff ran _ stopped _ first inner =>
      rw [ran] at first
      rw [← outcome_after, stopped] at inner
      rw [invocation_entered ran, closing_after, activation_cutOff stopped]
      exact first.append (inner.function (.same rfl rfl rfl rfl))
  | function ran _ settled _ unwound _ first inner calls =>
      rw [ran] at first
      rw [← outcome_after, settled] at inner
      rw [invocation_entered ran, closing_after, activation_settled settled, closing_after]
      exact first.append (inner.function (unwound.keepsFrames calls))

end Action

end

/-! ## Courses of runs -/

/-- Running a program takes a course. -/
def RunTakes (source : String) (p : Source.Program) (options : RunOptions)
    (course : List Happening) : Prop :=
  Action.Takes ((Eval.program options.hostFunctions p).run
    (.ofDepth (evaluationDepth source options.limits))) (Machine.initial options) course

theorem exists_runTakes (source : String) (p : Source.Program) (options : RunOptions) :
    ∃ course, RunTakes source p options course :=
  Computation.exists_takes _ _ _

end SandboxedGo
