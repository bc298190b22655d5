import SandboxedGo.Proofs.CallBooks
import SandboxedGo.Proofs.Jumps

/-!
# What is left of a recovered panic

A panic keeps the text of the value that the program panicked with, and no more of it: `recover`
finds that text, which is the value itself only if that was a text.  A function without names for
its results has no result of its own once a panic of it is recovered; the call gives nil then,
whatever the types of the results are and however many there are.

Main statements: `recover_finds_text`, `recovered_call_gives_nil`.
-/

set_option autoImplicit false

namespace SandboxedGo

open Source

/-! ## The value of a panic -/

theorem panic_of_text {ev : Evaluator} {s : String} {m m' : Machine} {cause : Panic}
    (ran : (Eval.builtin .panic [.string s]).run ev m = .error (.signal (.panic cause)) m') :
    cause.message = s := by
  have raised : (Eval.builtin .panic [.string s]).run ev m =
      .error (.signal (.panic (.raised s))) m := rfl
  rw [raised] at ran
  cases ran
  rfl

/-- Every run takes a course, and whatever calls and deferred calls are nested in each other, on it
`recover` finds nil if no panic is in progress, and otherwise the text of the panic that is.  When
the program panics with a value, that is the value itself exactly if the value is a text. -/
theorem recover_finds_text (source : String) (p : Program) (options : RunOptions) :
    (∃ course, RunTakes source p options course) ∧
      ∀ course, RunTakes source p options course → ∀ q m found,
        Meets none course q (.recover m found) →
          (q = none → found = .nil) ∧
            ∀ cause, q = some cause →
              found = .string cause.message ∧
                ∀ (v : Value) (ev : Evaluator) (m₀ m₁ : Machine),
                  (Eval.builtin .panic [v]).run ev m₀ = .error (.signal (.panic cause)) m₁ →
                    (found = v ↔ ∃ s, v = .string s) := by
  refine ⟨exists_runTakes source p options, ?_⟩
  intro course taken q m found met
  have finds : found = (q.map Panic.toValue).getD .nil := (taken.faithful met).agrees
  constructor
  · intro calm
    rw [finds, calm]
    rfl
  · intro cause is
    have text : found = .string cause.message := by
      rw [finds, is]
      rfl
    refine ⟨text, ?_⟩
    intro v ev m₀ m₁ ran
    constructor
    · rintro rfl
      exact ⟨_, text⟩
    · rintro ⟨s, rfl⟩
      rw [text, panic_of_text ran]

/-! ## The results of a function that has recovered -/

/-- Whether one of the deferred calls that are made after a body recovers a panic: it begins with
one, ends normally, and none runs behind it. -/
def Action.recoversPanic (call : Deferred → Action Value) : List Deferred → Ending → Machine → Bool
  | [], _, _ => false
  | d :: rest, ended, m =>
    ended.runsDeferred &&
      match outcome (call d) (m.unwindingFrom ended) with
      | .ok made m' =>
        made.isOk && ended.panic?.isSome && m'.panicking.isNone ||
          recoversPanic call rest (ended.behind made m'.panicking.isNone) m'
      | .error _ _ => false

/-- An end without a value that is returned. -/
def Ending.IsBare (ended : Ending) : Prop := ∀ v, ended ≠ .ok (some v)

section

variable {call : Deferred → Action Value} {frame : List Deferred} {ended r : Ending}
  {m m' : Machine}

/-- Once a panic has taken the place of a returned value, no deferred call brings it back. -/
theorem Ending.IsBare.behind (bare : ended.IsBare) (made : Except Signal Value) (calm : Bool) :
    (ended.behind made calm).IsBare := by
  intro v is
  cases made with
  | error s => cases is
  | ok u =>
      unfold Ending.behind at is
      dsimp only at is
      split at is
      · cases is
      · exact bare v is

theorem Ending.IsBare.unwind (bare : ended.IsBare)
    (ran : Action.unwind call frame ended m = .ok r m') : r.IsBare := by
  induction frame generalizing ended m with
  | nil =>
      cases ran
      exact bare
  | cons d rest ih =>
      cases runs : ended.runsDeferred with
      | false =>
          rw [Action.unwind_skipped runs] at ran
          cases ran
          exact bare
      | true =>
          cases called : Action.outcome (call d) (m.unwindingFrom ended) with
          | ok made m₁ =>
              rw [Action.unwind_next runs called] at ran
              exact ih (bare.behind made _) ran
          | error stop m₁ =>
              rw [Action.unwind_cutOff runs called] at ran
              cases ran

theorem Ending.behind_recovered {v : Value} (panics : ended.panic?.isSome = true) :
    (ended.behind (.ok v) true).IsBare := by
  intro u is
  simp only [Ending.behind, panics, Bool.and_self, if_true] at is
  cases is

theorem Action.recoversPanic_bare (recovers : Action.recoversPanic call frame ended m = true)
    (ran : Action.unwind call frame ended m = .ok r m') : r.IsBare := by
  induction frame generalizing ended m with
  | nil => cases recovers
  | cons d rest ih =>
      unfold Action.recoversPanic at recovers
      obtain ⟨runs, recovers⟩ := Bool.and_eq_true_iff.mp recovers
      cases called : Action.outcome (call d) (m.unwindingFrom ended) with
      | error stop m₁ =>
          rw [called] at recovers
          cases recovers
      | ok made m₁ =>
          rw [called] at recovers
          rw [Action.unwind_next runs called] at ran
          rcases Bool.or_eq_true_iff.mp recovers with here | later
          -- Here the returned value is lost, and the calls behind this one do not bring it back.
          · cases made with
            | error s => cases here
            | ok v =>
                obtain ⟨panics, calm⟩ := Bool.and_eq_true_iff.mp here
                rw [calm] at ran
                exact (Ending.behind_recovered panics).unwind ran
          · exact ih later ran

end

/-! ## Zero values -/

/-- Whether the zero value of a type that is nested less than `levels` types deep is nil. -/
def TypeTable.zeroIsNil (types : TypeTable) : (levels : Nat) → TypeExpr → Bool
  | levels + 1, .named name =>
    (BasicType.ofName? name).isNone &&
      (name = "error" || name = "any" ||
        match types.get? name with
        | some (.synonym inner) => types.zeroIsNil levels inner
        | _ => false)
  | _ + 1, .pointer _ | _ + 1, .func | _ + 1, .interface _ => true
  | _, _ => false

namespace Eval

/-- The value of a call all of whose results are zero. -/
def zeroResults : List Param → Eval Value
  | [r] => zeroValue r.type
  | results => do return .tuple (← results.mapM fun r => zeroValue r.type)

/-- A computation gives nil. -/
def GivesNil (ev : Evaluator) (m : Machine) (x : Eval Value) : Prop :=
  ∃ m', x.run ev m = .ok .nil m'

/-- A computation that gives something else than nil, if anything. -/
def NeverNil (x : Eval Value) : Prop := ∀ ev m, ¬ GivesNil ev m x

theorem NeverNil.bind {α : Type} {x : Eval α} {f : α → Eval Value} (rest : ∀ a, NeverNil (f a)) :
    NeverNil (x >>= f) := by
  rintro ev m ⟨m', ran⟩
  change EStateM.bind (x.run ev) (fun a => (f a).run ev) m = _ at ran
  unfold EStateM.bind at ran
  cases first : x.run ev m with
  | ok a between =>
      rw [first] at ran
      exact rest a ev between ⟨m', ran⟩
  | error stop between =>
      rw [first] at ran
      cases ran

theorem NeverNil.pure {v : Value} (other : v ≠ .nil) : NeverNil (pure v) := by
  rintro ev m ⟨m', ran⟩
  cases ran
  exact other rfl

theorem NeverNil.error (cause : RuntimeError) : NeverNil (error cause) := by
  rintro ev m ⟨m', ran⟩
  cases ran

theorem NeverNil.newStruct (def_ : StructDef) (fields : List Value) :
    NeverNil (newStruct def_ fields) := by
  rintro ev m ⟨m', ran⟩
  cases ran

theorem NeverNil.iff_false {x : Eval Value} (never : NeverNil x) (ev : Evaluator) (m : Machine) :
    GivesNil ev m x ↔ false = true :=
  ⟨fun gives => absurd gives (never ev m), fun is => by cases is⟩

theorem pure_nil (ev : Evaluator) (m : Machine) : GivesNil ev m (pure .nil) := ⟨m, rfl⟩

theorem view_givesNil {α : Type} (f : Guest → α) (rest : α → Eval Value) (ev : Evaluator)
    (m : Machine) : GivesNil ev m (view f >>= rest) ↔ GivesNil ev m (rest (f m.toGuest)) := Iff.rfl

theorem zeroWithin_named (levels : Nat) (name : String) (ev : Evaluator) (m : Machine)
    (ih : ∀ ty, GivesNil ev m (zeroWithin levels ty) ↔ m.types.zeroIsNil levels ty = true) :
    GivesNil ev m (zeroWithin (levels + 1) (.named name)) ↔
      m.types.zeroIsNil (levels + 1) (.named name) = true := by
  simp only [zeroWithin, TypeTable.zeroIsNil]
  cases BasicType.ofName? name with
  | some basic => cases basic <;> exact (NeverNil.pure (fun is => by cases is)).iff_false ev m
  | none =>
      simp only [Option.isNone_none, Bool.true_and]
      cases predeclared : (decide (name = "error") || decide (name = "any")) with
      | true =>
          simp only [Bool.true_or, if_true, iff_true]
          exact pure_nil ev m
      | false =>
          simp only [Bool.false_or, Bool.false_eq_true, if_false, view_givesNil]
          cases m.types.get? name with
          | none => exact (NeverNil.error _).iff_false ev m
          | some decl =>
              cases decl with
              | struct def_ types =>
                  exact (NeverNil.bind fun _ => NeverNil.newStruct def_ _).iff_false ev m
              | synonym inner => exact ih inner

theorem zeroWithin_nil (levels : Nat) (ty : TypeExpr) (ev : Evaluator) (m : Machine) :
    GivesNil ev m (zeroWithin levels ty) ↔ m.types.zeroIsNil levels ty = true := by
  induction levels generalizing ty with
  | zero => exact (NeverNil.error .recursiveType).iff_false ev m
  | succ levels ih =>
      cases ty with
      | named name => exact zeroWithin_named levels name ev m ih
      | qualified package name =>
          refine (NeverNil.bind fun qualified => NeverNil.bind fun decl => ?_).iff_false ev m
          split
          · exact .bind fun _ => .newStruct _ _
          · exact .error _
      | slice element =>
          exact (NeverNil.bind fun _ => .pure fun is => by cases is).iff_false ev m
      | array length element =>
          exact (NeverNil.bind fun _ => .bind fun _ => .bind fun _ =>
            .pure fun is => by cases is).iff_false ev m
      | map key value =>
          exact (NeverNil.bind fun _ => .pure fun is => by cases is).iff_false ev m
      | pointer target => exact iff_of_true (pure_nil ev m) rfl
      | func => exact iff_of_true (pure_nil ev m) rfl
      | interface methods => exact iff_of_true (pure_nil ev m) rfl
      | struct fields =>
          exact (NeverNil.bind fun _ => .bind fun _ => .newStruct _ _).iff_false ev m

/-- Results that are all zero are nil exactly if there is only one and its type says so. -/
theorem zeroResults_nil (results : List Param) (ev : Evaluator) (m : Machine) :
    GivesNil ev m (zeroResults results) ↔
      ∃ r, results = [r] ∧ m.types.zeroIsNil nestingLimit r.type = true := by
  unfold zeroResults
  split
  · rename_i r
    rw [zeroValue, zeroWithin_nil]
    exact ⟨fun is => ⟨r, rfl, is⟩, fun ⟨_, same, is⟩ => (List.cons.inj same).1 ▸ is⟩
  · rename_i several
    have never : NeverNil (do return .tuple (← results.mapM fun r => zeroValue r.type)) :=
      .bind fun _ => .pure fun is => by cases is
    constructor
    · intro gives
      exact absurd gives (never ev m)
    · rintro ⟨r, is, _⟩
      exact absurd is (several r)

/-! ## Calls -/

/-- The value of a call whose body has returned none and whose results have no names. -/
theorem resultValue_bare {f : FuncLit} (unnamed : FuncLit.namedResults? f = none)
    (scope : ScopeId) (ev : Evaluator) (m : Machine) :
    (resultValue f scope none).run ev m = .ok .nil m := by
  unfold resultValue
  rw [unnamed]
  show (adaptResults f.results .nil).run ev m = _
  unfold adaptResults
  split <;> first | rfl | contradiction

end Eval

section

variable (f : FuncLit) (env : ScopeId) (receiver : Option (String × Value)) (arguments : List Value)
  (spread : Bool) (ev : Evaluator) (m : Machine)

namespace Eval

/-- Whether a panic is recovered by one of the deferred calls of a function that is called. -/
def recoversPanic : Bool :=
  match Action.entered ((openScope f env receiver arguments spread).run ev) m with
  | .ok scope m₁ =>
    match Action.outcome ((runBody f.body scope (FuncLit.namedResults? f)).run ev)
        m₁.deeper.framed with
    | .ok ended m₂ => Action.recoversPanic ev.callDeferred m₂.innermost ended m₂.unframed
    | .error _ _ => false
  | .error _ _ => false

/-- Whether a function ends normally behind its deferred calls. -/
def endsNormally : EStateM.Result Stop Machine (ScopeId × Ending) → Bool
  | .ok (_, .ok _) _ => true
  | _ => false

theorem invoke_run :
    (invoke f env receiver arguments spread).run ev m =
      match (execution f env receiver arguments spread).run ev m with
      | .ok (scope, .ok returned) after => (resultValue f scope returned).run ev after
      | .ok (_, .error s) after => .error (.signal s) after
      | .error stop after => .error stop after := by
  show EStateM.bind ((execution f env receiver arguments spread).run ev) _ m = _
  unfold EStateM.bind
  cases (execution f env receiver arguments spread).run ev m with
  | error stop after => rfl
  | ok result after =>
      obtain ⟨scope, ended⟩ := result
      cases ended <;> rfl

variable {f env receiver arguments spread ev m}

/-- A function in which a panic is recovered and that ends normally returns nothing. -/
theorem execution_bare (recovers : recoversPanic f env receiver arguments spread ev m = true)
    {scope : ScopeId} {ended : Ending} {after : Machine}
    (ran : (execution f env receiver arguments spread).run ev m = .ok (scope, ended) after) :
    ended.IsBare := by
  change Action.invocation ev.callDeferred _ _ m = _ at ran
  unfold recoversPanic at recovers
  cases entered : Action.entered ((openScope f env receiver arguments spread).run ev) m with
  | error stop m₁ =>
      rw [entered] at recovers
      cases recovers
  | ok scope₁ m₁ =>
      rw [entered] at recovers
      rw [Action.invocation_entered entered] at ran
      cases settled : Action.outcome ((runBody f.body scope₁ (FuncLit.namedResults? f)).run ev)
          m₁.deeper.framed with
      | error stop m₂ =>
          simp only [settled] at recovers
          cases recovers
      | ok ended₂ m₂ =>
          simp only [settled] at recovers
          unfold Action.closing at ran
          rw [Action.activation_settled settled] at ran
          unfold Action.closing at ran
          cases unwound : Action.unwind ev.callDeferred m₂.innermost ended₂ m₂.unframed with
          | error stop m₃ =>
              rw [unwound] at ran
              cases ran
          | ok r m₃ =>
              rw [unwound] at ran
              cases ran
              exact Action.recoversPanic_bare recovers unwound

/-- A call in which a panic is recovered gives nil, or ends early with its function. -/
theorem invoke_recovered (unnamed : FuncLit.namedResults? f = none)
    (recovers : recoversPanic f env receiver arguments spread ev m = true) :
    (∃ m', (invoke f env receiver arguments spread).run ev m = .ok .nil m') ∨
      endsNormally ((execution f env receiver arguments spread).run ev m) = false ∧
        ∃ stop m', (invoke f env receiver arguments spread).run ev m = .error stop m' := by
  rw [invoke_run]
  cases ran : (execution f env receiver arguments spread).run ev m with
  | error stop after => exact .inr ⟨rfl, stop, after, rfl⟩
  | ok result after =>
      obtain ⟨scope, ended⟩ := result
      cases ended with
      | error s => exact .inr ⟨rfl, .signal s, after, rfl⟩
      | ok returned =>
          cases returned with
          | none => exact .inl ⟨after, resultValue_bare unnamed scope ev after⟩
          | some v => exact absurd rfl (execution_bare recovers ran v)

end Eval

/-- If a panic is recovered by one of the deferred calls of a function, and not all of its results
have names, then the call returns if the function ends normally, and what it returns is nil.  That
is the zero value of its results only if there is one result and the zero value of its type is nil:
a pointer, a function or an interface, or a declared name for one of them. -/
theorem recovered_call_gives_nil (unnamed : FuncLit.namedResults? f = none)
    (recovers : Eval.recoversPanic f env receiver arguments spread ev m = true) :
    let invoked := (Eval.invoke f env receiver arguments spread).run ev m
    (Eval.endsNormally ((Eval.execution f env receiver arguments spread).run ev m) = true →
        ∃ m', invoked = .ok .nil m') ∧
      (∀ v m', invoked = .ok v m' → v = .nil) ∧
      ∀ m₀, Eval.GivesNil ev m₀ (Eval.zeroResults f.results) ↔
        ∃ r, f.results = [r] ∧ m₀.types.zeroIsNil Eval.nestingLimit r.type = true := by
  refine ⟨?_, ?_, Eval.zeroResults_nil f.results ev⟩
  · intro normal
    rcases Eval.invoke_recovered unnamed recovers with gives | ⟨early, -⟩
    · exact gives
    · rw [normal] at early
      cases early
  · intro v m' returns
    rcases Eval.invoke_recovered unnamed recovers with ⟨_, gives⟩ | ⟨-, _, _, fails⟩
    · cases gives.symm.trans returns
      rfl
    · cases fails.symm.trans returns

end

/-- A function with one result, a number, that divides by zero and recovers. -/
def recovering : FuncLit :=
  .mk [] [⟨none, .named "int"⟩] false
    [.mk 2 (.defer (.call (.name "recover") [] false)),
      .mk 3 (.expr (.binary .div (.int 1) (.int 0)))]

/-- It returns nil, and that is no number. -/
theorem recovered_call_gives_nil_number :
    let ev := Evaluator.ofDepth 9
    let m := Machine.initial {}
    FuncLit.namedResults? recovering = none ∧
      Eval.recoversPanic recovering globalScope none [] false ev m = true ∧
      (∃ m', (Eval.invoke recovering globalScope none [] false).run ev m = .ok .nil m') ∧
      ¬ Eval.GivesNil ev m (Eval.zeroResults recovering.results) := by
  intro ev m
  have recovers : Eval.recoversPanic recovering globalScope none [] false ev m = true := by
    decide +kernel
  obtain ⟨gives, -, zero⟩ :=
    recovered_call_gives_nil recovering globalScope none [] false ev m rfl recovers
  refine ⟨rfl, recovers, gives (by decide +kernel), ?_⟩
  intro isNil
  obtain ⟨r, same, nilType⟩ := (zero m).mp isNil
  cases same
  cases nilType

end SandboxedGo
