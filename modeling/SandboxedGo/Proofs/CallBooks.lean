import SandboxedGo.Proofs.Courses

/-!
# The books about calls

Every call closes the books that it has opened, and wherever a run has come to, its calls are nested
no deeper than the limits allow.  One panic is in progress there or none: the one that the function
whose deferred calls are made has ended with, unless it was recovered since.  `recover` finds that
panic, however deep functions are nested in each other and in deferred calls.  The deferred calls of
a function are made one after another, the latest first, each one with the latest panic of that
function; all of them are made unless one is broken off by more than a panic.

Main statements: `calls_close_their_books`, `deferred_calls_run_back`.
-/

set_option autoImplicit false

namespace SandboxedGo

/-! ## What is met on a course -/

/-- The panic in progress behind a course. -/
def coursePanic (p : Option Panic) (course : List Happening) : Option Panic :=
  if courseRecovers course then none else p

/-- Something is met on a course that begins with a panic in progress or without one, and another
panic or none is in progress at that moment.  A function leaves behind what its body left behind,
and each deferred call begins with what its own function has ended with. -/
inductive Meets : Option Panic → List Happening → Option Panic → Happening → Prop
  | here (p : Option Panic) (g : Happening) (rest : List Happening) : Meets p (g :: rest) p g
  | later {p q : Option Panic} {g h : Happening} {rest : List Happening}
      (met : Meets (coursePanic p [g]) rest q h) : Meets p (g :: rest) q h
  | inBody {p q : Option Panic} {h : Happening} {m : Machine} {body unwinding : List Happening}
      {ended result : Option Ending} {rest : List Happening} (met : Meets p body q h) :
      Meets p (.function m body ended unwinding result :: rest) q h
  | inDeferred {p q : Option Panic} {h : Happening} {m m' : Machine} {d : Deferred}
      {before : Ending} {course body unwinding : List Happening}
      {made : Option (Except Signal Value)} {ended result : Option Ending} {rest : List Happening}
      (called : .deferred m' d before course made ∈ unwinding)
      (met : Meets before.panic? course q h) :
      Meets p (.function m body ended unwinding result :: rest) q h

theorem coursePanic_map (p : Option Panic) (c : List Happening) :
    (coursePanic p c).map Panic.toValue =
      if courseRecovers c then none else p.map Panic.toValue := by
  unfold coursePanic
  split <;> rfl

theorem coursePanic_append (p : Option Panic) (c c' : List Happening) :
    coursePanic p (c ++ c') = coursePanic (coursePanic p c) c' := by
  simp only [coursePanic, courseRecovers_append]
  cases courseRecovers c <;> cases courseRecovers c' <;> rfl

theorem Meets.of_append {p q : Option Panic} {c c' : List Happening} {h : Happening}
    (met : Meets p (c ++ c') q h) : Meets p c q h ∨ Meets (coursePanic p c) c' q h := by
  induction c generalizing p with
  | nil => exact .inr met
  | cons g rest ih =>
      cases met with
      | here => exact .inl (.here _ _ _)
      | later met =>
          rcases ih met with first | behind
          · exact .inl (.later first)
          · rw [← coursePanic_append] at behind
            exact .inr behind
      | inBody met => exact .inl (.inBody met)
      | inDeferred called met => exact .inl (.inDeferred called met)

/-! ## The deferred calls of one function -/

namespace Happening

/-- The call that is made. -/
def call? : Happening → Option Deferred
  | .deferred _ call _ _ _ => some call
  | _ => none

/-- Whether a deferred call ends normally or with a panic, so that those behind it are made. -/
def goesOn : Happening → Bool
  | .deferred _ _ _ _ (some (.ok _)) | .deferred _ _ _ _ (some (.error (.panic _))) => true
  | _ => false

/-- How a function ends that a deferred call breaks off; no end is known where a halt does. -/
def breaksOff : Happening → Option Ending
  | .deferred _ _ _ _ (some (.error s)) => some (.error s)
  | _ => none

/-- The latest panic that stands behind a deferred call: its own, or the one that it has not
recovered. -/
def standing (latest : Option Panic) : Happening → Option Panic
  | .deferred _ _ _ course (some (.ok _)) => coursePanic latest course
  | .deferred _ _ _ _ (some (.error (.panic cause))) => some cause
  | _ => latest

end Happening

/-- The latest panic that stands behind deferred calls. -/
def standingPanic (latest : Option Panic) (unwinding : List Happening) : Option Panic :=
  unwinding.foldl Happening.standing latest

/-- What is known of the deferred calls of a function whose body has ended in some way.  `frame`
holds the calls in the order in which they are to be made, and `result` is how the function ends. -/
structure Unwinding (frame : List Deferred) (ended : Ending) (unwinding : List Happening)
    (result : Option Ending) : Prop where
  /-- They are made in that order, once each. -/
  order : unwinding.map Happening.call? <+: frame.map some
  /-- Each begins with the latest panic that stands. -/
  begins : ∀ us m d before course made us',
    unwinding = us ++ .deferred m d before course made :: us' →
      before.panic? = standingPanic ended.panic? us
  /-- If none is broken off then all are made, and the function ends with the latest panic exactly
  if that stands. -/
  complete : (∀ g ∈ unwinding, g.goesOn = true) →
    unwinding.map Happening.call? = frame.map some ∧
      ∃ r, result = some r ∧ r.runsDeferred = true ∧
        r.panic? = standingPanic ended.panic? unwinding
  /-- One that is broken off is the last one, and breaks off the function. -/
  brokenOff : ∀ us g us', unwinding = us ++ g :: us' → g.goesOn = false →
    us' = [] ∧ result = g.breaksOff

section

variable {m m' : Machine} {d : Deferred} {ended : Ending} {course : List Happening}
  {made : Except Signal Value} {call : Deferred → Action Value}

theorem coursePanic_none (course : List Happening) : coursePanic none course = none := by
  unfold coursePanic
  split <;> rfl

/-- Whether a deferred call has recovered its panic shows in the machine that it leaves. -/
theorem Ending.behind_ok {v : Value} (runs : ended.runsDeferred = true)
    (kept : m'.panicking = (coursePanic ended.panic? course).map Panic.toValue) :
    (ended.behind (.ok v) m'.panicking.isNone).runsDeferred = true ∧
      (ended.behind (.ok v) m'.panicking.isNone).panic? = coursePanic ended.panic? course := by
  rw [kept]
  cases ended with
  | ok returned => exact ⟨rfl, (coursePanic_none course).symm⟩
  | error s =>
      cases s with
      | panic cause =>
          unfold coursePanic
          cases courseRecovers course <;> exact ⟨rfl, rfl⟩
      | _ => cases runs

theorem Ending.behind_goesOn (runs : ended.runsDeferred = true)
    (kept : m'.panicking = (coursePanic ended.panic? course).map Panic.toValue)
    (goesOn : (Happening.deferred m d ended course (some made)).goesOn = true) :
    (ended.behind made m'.panicking.isNone).runsDeferred = true ∧
      (ended.behind made m'.panicking.isNone).panic? =
        (Happening.deferred m d ended course (some made)).standing ended.panic? := by
  cases made with
  | ok v => exact behind_ok runs kept
  | error s =>
      cases s with
      | panic cause => exact ⟨rfl, rfl⟩
      | _ => cases goesOn

/-- After an end that is neither normal nor a panic no deferred call is made. -/
theorem Action.Unwound.of_skipped {frame : List Deferred} {unwinding : List Happening}
    {result : Option Ending} (unwound : Unwound call frame ended m unwinding result)
    (skips : ended.runsDeferred = false) : unwinding = [] ∧ result = some ended := by
  cases unwound with
  | empty => exact ⟨rfl, rfl⟩
  | skipped => exact ⟨rfl, rfl⟩
  | next _ runs =>
      rw [skips] at runs
      cases runs
  | cutOff _ runs =>
      rw [skips] at runs
      cases runs

theorem Unwinding.empty (runs : ended.runsDeferred = true) :
    Unwinding [] ended [] (some ended) where
  order := List.prefix_rfl
  begins us m d before course made us' is := by cases us <;> cases is
  complete _ := ⟨rfl, ended, rfl, runs, rfl⟩
  brokenOff us g us' is := by cases us <;> cases is

theorem Unwinding.next {frame : List Deferred} {ended' : Ending} {unwinding : List Happening}
    {result : Option Ending} {g : Happening} (is : g = .deferred m d ended course (some made))
    (goesOn : g.goesOn = true) (stands : ended'.panic? = g.standing ended.panic?)
    (others : Unwinding frame ended' unwinding result) :
    Unwinding (d :: frame) ended (g :: unwinding) result where
  order := by
    subst is
    exact List.prefix_cons_inj _ |>.mpr others.order
  begins us m₀ d₀ before course₀ made₀ us' split := by
    cases us with
    | nil =>
        obtain ⟨same, -⟩ := List.cons.inj split
        rw [is] at same
        cases same
        rfl
    | cons u us =>
        obtain ⟨same, tails⟩ := List.cons.inj split
        rw [others.begins us m₀ d₀ before course₀ made₀ us' tails, stands, ← same]
        rfl
  complete all := by
    obtain ⟨whole, r, isResult, runs, ends⟩ :=
      others.complete fun u mem => all u (List.mem_cons_of_mem _ mem)
    refine ⟨?_, r, isResult, runs, ?_⟩
    · rw [List.map_cons, whole, is]
      rfl
    · rw [ends, stands]
      rfl
  brokenOff us u us' split broken := by
    cases us with
    | nil =>
        obtain ⟨rfl, -⟩ := List.cons.inj split
        rw [goesOn] at broken
        cases broken
    | cons _ us =>
        exact others.brokenOff us u us' (List.cons.inj split).2 broken

theorem Unwinding.last {frame : List Deferred} {made : Option (Except Signal Value)}
    {g : Happening} (is : g = .deferred m d ended course made) (broken : g.goesOn = false) :
    Unwinding (d :: frame) ended [g] g.breaksOff where
  order := by
    subst is
    exact ⟨frame.map some, rfl⟩
  begins us m₀ d₀ before course₀ made₀ us' split := by
    cases us with
    | nil =>
        obtain ⟨same, -⟩ := List.cons.inj split
        rw [is] at same
        cases same
        rfl
    | cons u us => cases us <;> cases (List.cons.inj split).2
  complete all := by
    rw [all g List.mem_cons_self] at broken
    cases broken
  brokenOff us u us' split _ := by
    cases us with
    | nil =>
        obtain ⟨rfl, rest⟩ := List.cons.inj split
        exact ⟨rest.symm, rfl⟩
    | cons _ us => cases us <;> cases (List.cons.inj split).2

/-- What is known of deferred calls each of which leaves the panic that it should. -/
theorem Action.Unwound.unwinding {frame : List Deferred} {unwinding : List Happening}
    {result : Option Ending} (unwound : Unwound call frame ended m unwinding result)
    (calls : CallsKeep call unwinding) (runs : ended.runsDeferred = true) :
    Unwinding frame ended unwinding result := by
  induction unwound with
  | empty ended m => exact .empty runs
  | skipped frame ended m skips =>
      rw [runs] at skips
      cases skips
  | cutOff course => exact .last rfl rfl
  | @next d rest ended m m' made unwinding result course _ ran others ih =>
      have kept : m'.panicking = (coursePanic ended.panic? course).map Panic.toValue :=
        (calls.head ran).panicking.trans (coursePanic_map _ _).symm
      cases goesOn : (Happening.deferred m d ended course (some made)).goesOn with
      | true =>
          obtain ⟨goes, stands⟩ := Ending.behind_goesOn runs kept goesOn
          exact .next rfl goesOn stands (ih calls.tail goes)
      | false =>
          cases made with
          | ok v => cases goesOn
          | error s =>
              cases s with
              | panic cause => cases goesOn
              | _ =>
                  obtain ⟨rfl, rfl⟩ := others.of_skipped rfl
                  exact .last rfl goesOn

end

/-! ## Wherever a run has come to -/

/-- A machine within certain limits, with a panic in progress or without one. -/
structure Stands (l : Limits) (p : Option Panic) (m : Machine) : Prop where
  limits : m.limits = l
  nested : m.depth ≤ l.maxCallDepth
  panicking : m.panicking = p.map Panic.toValue

/-- What happens agrees with the panic in progress, which the program sees where it recovers it; and
a function makes the calls that its body has put off. -/
def Happening.Agrees (p : Option Panic) : Happening → Prop
  | .recover _ found => found = (p.map Panic.toValue).getD .nil
  | .function _ body (some ended) unwinding result =>
    ended.runsDeferred = true → Unwinding (coursePutOffs body).reverse ended unwinding result
  | _ => True

/-- What is known of something that is met on a course. -/
structure Faithful (l : Limits) (p : Option Panic) (g : Happening) : Prop where
  stands : Stands l p g.machine
  agrees : g.Agrees p

section

variable {α : Type} {l : Limits} {p q : Option Panic} {m m' : Machine} {c : List Happening}
  {h : Happening}

theorem Stands.behind (stands : Stands l p m) (kept : KeepsBooks m c m') :
    Stands l (coursePanic p c) m' where
  limits := kept.limits.trans stands.limits
  nested := by
    rw [kept.depth]
    exact stands.nested
  panicking := by rw [kept.panicking, stands.panicking, coursePanic_map]

/-- A deferred call begins with the panic that its function has ended with. -/
theorem Stands.unwindingFrom (limits : m.limits = l) (nested : m.depth ≤ l.maxCallDepth)
    (ended : Ending) : Stands l ended.panic? (m.unwindingFrom ended) :=
  ⟨limits, nested, rfl⟩

theorem Stands.other (stands : Stands l p m) (met : Meets p [.other m] q h) : Faithful l q h := by
  cases met with
  | here => exact ⟨stands, trivial⟩
  | later met => cases met

/-- What is met in a function is the function itself, or something in its body or in one of its
deferred calls. -/
theorem Faithful.of_function {body unwinding : List Happening} {ended result : Option Ending}
    (met : Meets p [.function m body ended unwinding result] q h)
    (itself : Faithful l p (.function m body ended unwinding result))
    (inBody : Meets p body q h → Faithful l q h)
    (inDeferred : ∀ m' d before course made, .deferred m' d before course made ∈ unwinding →
      Meets before.panic? course q h → Faithful l q h) : Faithful l q h := by
  cases met with
  | here => exact itself
  | later met => cases met
  | inBody met => exact inBody met
  | inDeferred called met => exact inDeferred _ _ _ _ _ called met

open SandboxedGo.Action

/-- A function is only entered if calls are not nested too deep. -/
theorem Action.entered_nested {opening : Action α} {a : α} (ran : entered opening m = .ok a m') :
    m.depth < m.limits.maxCallDepth := by
  have kept := tick_keeps m
  simp only [entered, paid, Bind.bind, EStateM.bind] at ran
  cases ticked : tick m with
  | error stop m₀ =>
      rw [ticked] at ran
      cases ran
  | ok u m₀ =>
      rw [ticked] at ran kept
      apply Nat.lt_of_not_le
      intro deep
      have refused : m₀.limits.maxCallDepth ≤ m₀.depth := by
        rw [show m₀.limits = m.limits from kept.limits, show m₀.depth = m.depth from kept.depth]
        exact deep
      simp only [checkDepth, refused, if_true, halt] at ran
      cases ran

theorem Stands.passed {x : Action α} {a : α} (stands : Stands l p m) (taken : Takes x m c)
    (ran : x m = .ok a m') : Stands l (coursePanic p c) m' := by
  have kept := taken.keepsBooks
  rw [ran] at kept
  exact stands.behind kept

theorem Stands.entered {opening : Action α} {a : α} (stands : Stands l p m)
    (taken : Takes (entered opening) m c) (ran : entered opening m = .ok a m') :
    Stands l (coursePanic p c) m' ∧ Stands l (coursePanic p c) m'.deeper.framed := by
  have opened := stands.passed taken ran
  refine ⟨opened, opened.limits, ?_, opened.panicking⟩
  have kept := taken.keepsBooks
  have nested := entered_nested ran
  rw [ran] at kept
  rw [← show m'.depth = m.depth from kept.depth, stands.limits] at nested
  exact nested

theorem Action.Unwound.machines {call : Deferred → Action Value} {frame : List Deferred}
    {ended : Ending} {unwinding : List Happening} {result : Option Ending}
    (unwound : Unwound call frame ended m unwinding result) (calls : CallsKeep call unwinding)
    {d : Deferred} {before : Ending} {course : List Happening}
    {made : Option (Except Signal Value)}
    (mem : .deferred m' d before course made ∈ unwinding) :
    m'.depth = m.depth ∧ m'.limits = m.limits := by
  induction unwound with
  | empty => cases mem
  | skipped => cases mem
  | cutOff =>
      cases List.mem_singleton.mp mem
      exact ⟨rfl, rfl⟩
  | next _ _ ran _ ih =>
      rcases List.mem_cons.mp mem with is | mem
      · cases is
        exact ⟨rfl, rfl⟩
      · have first := calls.head ran
        obtain ⟨depth, limits⟩ := ih calls.tail mem
        exact ⟨depth.trans first.depth, limits.trans first.limits⟩

theorem Action.Takes.faithful {x : Action α} (taken : Takes x m c) (stands : Stands l p m)
    (met : Meets p c q h) : Faithful l q h := by
  -- The panic in progress is left open: a deferred call begins with one of its own.
  induction taken generalizing p with
  | plain _ m => exact stands.other met
  | putOff function arguments _ =>
      cases met with
      | here => exact ⟨stands, trivial⟩
      | later met => cases met
  | refused => exact stands.other met
  | @recover m m' found ran =>
      cases met with
      | here =>
          cases ran
          refine ⟨stands, ?_⟩
          show m.panicking.getD .nil = _
          rw [stands.panicking]
      | later met => cases met
  | bind ran taken _ first rest =>
      rcases met.of_append with met | met
      · exact first stands met
      · exact rest (stands.passed taken ran) met
  | bindStops _ _ first => exact first stands met
  | outcome _ inner => exact inner stands met
  | tooDeep => exact stands.other met
  | begins _ inner => exact inner ⟨stands.limits, stands.nested, stands.panicking⟩ met
  | noRounds => exact stands.other met
  | nextRound ran taken _ first rest =>
      rcases met.of_append with met | met
      · exact first stands met
      · exact rest (stands.passed taken ran) met
  | lastRound _ _ first => exact first stands met
  | notEntered _ _ first => exact first stands met
  | cutOff ran taken _ _ first inner =>
      rcases met.of_append with met | met
      · exact first stands met
      · obtain ⟨opened, inside⟩ := stands.entered taken ran
        exact .of_function met ⟨opened, trivial⟩ (inner inside) fun _ _ _ _ _ mem => by cases mem
  | function ran taken settled executed unwound calls first inner deferred =>
      rcases met.of_append with met | met
      · exact first stands met
      · obtain ⟨opened, inside⟩ := stands.entered taken ran
        have body := executed.keepsBooks
        rw [← outcome_after, settled] at body
        -- Where a deferred call begins is known only from what the calls before it do to the books.
        have kept : CallsKeep _ _ := fun m' d before course made mem =>
          (calls m' d before course made mem).keepsBooks
        refine .of_function met ⟨opened, fun runs => ?_⟩ (inner inside) ?_
        · rw [← body.innermost.1]
          exact unwound.unwinding kept runs
        · intro m' d before course made mem met
          obtain ⟨depth, limits⟩ := unwound.machines kept mem
          have settledStands := inside.behind body
          refine deferred m' d before course made mem (.unwindingFrom ?_ ?_ before) met
          · exact limits.trans settledStands.limits
          · rw [depth]
            exact settledStands.nested

end

/-! ## Whole runs -/

theorem Machine.initial_stands (options : RunOptions) :
    Stands options.limits none (Machine.initial options) :=
  ⟨rfl, Nat.zero_le _, rfl⟩

theorem RunTakes.faithful {source : String} {p : Source.Program} {options : RunOptions}
    {course : List Happening} (taken : RunTakes source p options course) {q : Option Panic}
    {g : Happening} (met : Meets none course q g) : Faithful options.limits q g :=
  Action.Takes.faithful taken (Machine.initial_stands options) met

/-- A call of a function of the program leaves the depth, the limits and the number of lists of
deferred calls as it has found them, however it ends, and so does a run.  Every run takes a course,
and wherever it has come to, its calls are nested no deeper than its limits allow. -/
theorem calls_close_their_books (depth : Nat) (f : Source.FuncLit) (env : ScopeId)
    (receiver : Option (String × Value)) (arguments : List Value) (spread : Bool) (m : Machine)
    (source : String) (p : Source.Program) (options : RunOptions) :
    let after := machineAfter
      ((Eval.invoke f env receiver arguments spread).run (.ofDepth depth) m)
    (after.depth = m.depth ∧ after.limits = m.limits ∧
        after.deferred.length = m.deferred.length) ∧
      (machineAfter (runProgram source p options)).depth = 0 ∧
      (∃ course, RunTakes source p options course) ∧
        ∀ course, RunTakes source p options course → ∀ q g, Meets none course q g →
          g.machine.depth ≤ options.limits.maxCallDepth := by
  refine ⟨?_, ?_, exists_runTakes source p options, ?_⟩
  · obtain ⟨course, taken⟩ :=
      (Eval.invoke f env receiver arguments spread).exists_takes depth m
    have kept := taken.keepsBooks
    refine ⟨kept.depth, kept.limits, ?_⟩
    rw [kept.deferred, List.length_modifyHead]
  · obtain ⟨course, taken⟩ := exists_runTakes source p options
    exact (Action.Takes.keepsBooks taken).depth
  · intro course taken q g met
    exact (taken.faithful met).stands.nested

/-- Every run takes a course.  Wherever it has come to, the panic that runs is the one in progress:
`recover` finds that one, or nil if there is none.  Every function whose body ends normally or with
a panic makes the calls that the body has put off, once each and the latest first, each of them with
the latest panic that stands.  If none of them is broken off by more than a panic then all are made,
and the function ends with a panic exactly if the latest one stands. -/
theorem deferred_calls_run_back (source : String) (p : Source.Program) (options : RunOptions) :
    (∃ course, RunTakes source p options course) ∧
      ∀ course, RunTakes source p options course → ∀ q g, Meets none course q g →
        g.machine.panicking = q.map Panic.toValue ∧
          (∀ m found, g = .recover m found → found = (q.map Panic.toValue).getD .nil) ∧
          ∀ m body ended unwinding result, g = .function m body (some ended) unwinding result →
            ended.runsDeferred = true →
              Unwinding (coursePutOffs body).reverse ended unwinding result := by
  refine ⟨exists_runTakes source p options, ?_⟩
  intro course taken q g met
  have faithful := taken.faithful met
  refine ⟨faithful.stands.panicking, ?_, ?_⟩
  · rintro m found rfl
    exact faithful.agrees
  · rintro m body ended unwinding result rfl
    exact faithful.agrees

/-- A program that calls, in an endless loop, a function that puts off a call of a function which
does nothing but `break`, and then panics. -/
def swallowingProgram : Source.Program where
  package := "main"
  imports := []
  decls :=
    let breaking : Source.Expr := .function (.mk [] [] false [.mk 4 .break])
    let panicking : Source.Stmt := .mk 5 (.expr (.binary .div (.int 1) (.int 0)))
    let f : Source.FuncLit :=
      .mk [] [] false [.mk 3 (.defer (.call breaking [] false)), panicking]
    let loop : Source.Stmt :=
      .mk 2 (.for none none none [.mk 3 (.expr (.call (.function f) [] false))])
    [.func ⟨1, "main", none, .mk [] [] false [loop]⟩]

/-- A deferred call that is broken off by a jump takes the place of a panic that nothing has
recovered: this program ends without a failure. -/
theorem deferred_jump_swallows_panic :
    (RunReport.ofResult (runProgram "" swallowingProgram
      { limits := { maxSteps := some 20 } })).failure.isNone = true := by
  decide +kernel

end SandboxedGo
