import SandboxedGo.Eval.Perform
import SandboxedGo.Proofs.SparingExpressions
import SandboxedGo.Proofs.SparingLibrary

/-!
# Statements and calls leave variables alone

Bodies are executed in scopes of their own, where parameters, results and local variables are
declared.  A statement that spares a name and is executed in an inner scope leaves the variable of
that name at the top level alone, and so does the call of a function that is made of such
statements.  Main statement: `Evaluator.ofDepth_spares`, for evaluators of any depth.
-/

set_option autoImplicit false

namespace SandboxedGo

open Source Eval

variable {b : NamedCell} {scope : ScopeId} {v : Value}

namespace Eval

/-! ## Parameters and results -/

theorem bindEach_spares (inner : scope ≠ globalScope) (params : List Param) {values : List Value}
    (spare : AllSpare b values) : (bindEach scope params values).Spares b fun _ => True := by
  induction params generalizing values with
  | nil => exact done_spares
  | cons p params ih =>
      cases values with
      | nil => exact done_spares
      | cons v values =>
          obtain ⟨value, more⟩ := List.forall_mem_cons.mp spare
          refine bind_spares (copied_spares value) fun _ value =>
            bind_spares (adapt_spares p.type value) fun v value => ?_
          cases named : p.name with
          | none => exact ih more
          | some name =>
              exact then_spares (look_spares _) fun width =>
                then_spares (define_spares inner name value width) fun _ => ih more

theorem bindParameters_spares (f : FuncLit) (inner : scope ≠ globalScope) {values : List Value}
    (spare : AllSpare b values) (spread : Bool) :
    (bindParameters f scope values spread).Spares b fun _ => True := by
  have bound {values : List Value} (spare : AllSpare b values) :
      (if values.length ≠ f.params.length then do
          error (.argumentCount values.length f.params.length)
          bindEach scope f.params values
        else bindEach scope f.params values : Eval Unit).Spares b fun _ => True :=
    guarded_spares (error_spares _) (bindEach_spares inner _ spare)
  unfold bindParameters
  dsimp only
  split
  · have fixed {packed : Value} (value : packed.Spares b) :=
      bound ((show AllSpare b (values.take (f.params.length - 1)) from
        fun v mem => spare v (List.mem_of_mem_take mem)).append (allSpare_one value))
    refine guarded_spares (error_spares _) ?_
    split
    · exact bind_spares nilSlice_spares fun _ value => fixed value
    · exact bind_spares (newSlice_spares fun v mem => spare v (List.mem_of_mem_drop mem))
        fun _ value => fixed value
  · exact bound spare

theorem defineResults_spares (inner : scope ≠ globalScope) (results : List Param) :
    (defineResults scope results).Spares b fun _ => True := by
  induction results with
  | nil => exact done_spares
  | cons r rest ih =>
      exact bind_spares (zeroValue_spares r.type) fun _ zero =>
        then_spares (define_spares inner _ zero _) fun _ => ih

theorem assignResults_spares (inner : scope ≠ globalScope) (names : List String)
    {values : List Value} (spare : AllSpare b values) :
    (assignResults scope names values).Spares b fun _ => True := by
  induction names generalizing values with
  | nil => exact done_spares
  | cons name names ih =>
      cases values with
      | nil => exact done_spares
      | cons v values =>
          obtain ⟨value, more⟩ := List.forall_mem_cons.mp spare
          refine bind_spares (localVariable_spares inner name) fun found known => ?_
          cases found with
          | some found =>
              exact then_spares (writeCell_spares (known found rfl) value) fun _ => ih more
          | none => exact ih more

theorem localValue_spares (scope : ScopeId) (name : String) :
    (localValue scope name).Spares b (Value.Spares b) := by
  refine then_spares (look_spares _) fun found => ?_
  cases found with
  | some found => exact readCell_spares _
  | none => exact pure_spares trivial

theorem namedValue_spares (scope : ScopeId) (names : List String) :
    (namedValue scope names).Spares b (Value.Spares b) := by
  refine bind_spares (mapM_spares fun name _ => localValue_spares scope name) fun values known => ?_
  split
  · exact pure_spares (known.1 _ List.mem_cons_self)
  · exact pure_spares (Value.spares_tuple.mpr known.1)

theorem adaptResults_spares (results : List Param) (value : v.Spares b) :
    (adaptResults results v).Spares b (Value.Spares b) := by
  unfold adaptResults
  split
  · exact adapt_spares _ value
  · split
    · refine bind_spares (mapM_spares fun (v, r) mem => adapt_spares r.type ?_) fun _ known =>
        pure_spares (Value.spares_tuple.mpr known.1)
      exact Value.spares_tuple.mp value v (List.of_mem_zip mem).1
    · exact pure_spares value
  · exact pure_spares value

/-! ## Bodies -/

theorem exec_spares {s : Stmt} (spares : s.spares b.name = true) (inner : scope ≠ globalScope) :
    (Flow.exec s scope).Spares b fun _ => True :=
  fun _ parts => Action.bind_spares (Action.begin_spares parts ⟨spares, inner⟩)
    fun _ _ _ spares => ⟨spares.keeps, trivial⟩

theorem block_spares {body : List Stmt} (spares : bodySpares b.name body = true)
    (inner : scope ≠ globalScope) : (block body scope).Spares b fun _ => True := by
  induction body with
  | nil => exact done_spares
  | cons s rest ih =>
      obtain ⟨first, others⟩ := (Bool.and_eq_true _ _).mp spares
      exact then_spares (exec_spares first inner) fun _ => ih others

theorem returnedBy_spares {body : List Stmt} (spares : bodySpares b.name body = true)
    (inner : scope ≠ globalScope) : (returnedBy body scope).Spares b (ReturnedSpares b) := by
  refine bind_spares (outcome_spares (block_spares spares inner)) fun ended known => ?_
  cases ended with
  | ok _ => exact pure_spares nofun
  | error s =>
      cases s with
      | «return» v => exact pure_spares fun u is => Option.some.inj is ▸ known
      | _ => exact fun _ _ _ spares => ⟨spares.keeps, known⟩

theorem storeResults_spares (inner : scope ≠ globalScope) (named : Option (List String))
    {returned : Option Value} (known : ReturnedSpares b returned) :
    (storeResults scope named returned).Spares b fun _ => True := by
  unfold storeResults
  split
  · exact done_spares
  · rename_i v
    have value : v.Spares b := known v rfl
    split
    · exact done_spares
    · split
      · exact done_spares
      · split
        · refine assignResults_spares inner _ ?_
          split
          · exact allSpare_one value
          · exact Value.spares_tuple.mp value
        · exact assignResults_spares inner _ (allSpare_one value)

theorem runBody_spares {body : List Stmt} (spares : bodySpares b.name body = true)
    (inner : scope ≠ globalScope) (named : Option (List String)) :
    (runBody body scope named).Spares b (ReturnedSpares b) :=
  bind_spares (returnedBy_spares spares inner) fun _ known =>
    then_spares (storeResults_spares inner named known) fun _ => pure_spares known

theorem openScope_spares (f : FuncLit) (env : ScopeId) {receiver : Option (String × Value)}
    (bound : ∀ r ∈ receiver, r.2.Spares b) {values : List Value} (spare : AllSpare b values)
    (spread : Bool) :
    (openScope f env receiver values spread).Spares b fun scope => scope ≠ globalScope := by
  refine bind_spares (newScope_spares env) fun scope inner => ?_
  have opened : (do
      bindParameters f scope values spread
      if (FuncLit.namedResults? f).isSome then defineResults scope f.results
      return scope : Eval ScopeId).Spares b fun scope => scope ≠ globalScope :=
    then_spares (bindParameters_spares f inner spare spread) fun _ =>
      guarded_spares (defineResults_spares inner _) (pure_spares inner)
  cases receiver with
  | none => exact opened
  | some r => exact then_spares (define_spares inner _ (bound r rfl) _) fun _ => opened

theorem resultValue_spares (f : FuncLit) (scope : ScopeId) {returned : Option Value}
    (known : ∀ v ∈ returned, v.Spares b) :
    (resultValue f scope returned).Spares b (Value.Spares b) := by
  unfold resultValue
  dsimp only
  split
  · exact bind_spares (namedValue_spares scope _) fun _ value => adaptResults_spares _ value
  · cases returned with
    | none => exact adaptResults_spares f.results trivial
    | some v =>
        refine adaptResults_spares f.results ?_
        split
        · exact trivial
        · exact known v rfl

theorem raise_spares (s : Signal) (known : s.Spares b) {α : Type} {P : α → Prop} :
    (Flow.raise s : Flow α).Spares b P :=
  fun _ _ _ spares => ⟨spares.keeps, known⟩

theorem ofExcept_ended {ended : Ending} (known : BodySpares b ended) :
    (Flow.ofExcept ended).Spares b (ReturnedSpares b) := by
  cases ended with
  | ok returned => exact pure_spares known
  | error s => exact raise_spares _ known

/-! ## Calls -/

theorem invoke_spares {f : FuncLit} (spares : f.spares b.name = true) (env : ScopeId)
    {receiver : Option (String × Value)} (bound : ∀ r ∈ receiver, r.2.Spares b)
    {values : List Value} (spare : AllSpare b values) (spread : Bool) :
    (invoke f env receiver values spread).Spares b (Value.Spares b) := by
  obtain ⟨params, results, variadic, body⟩ := f
  have bodySpare : bodySpares b.name body = true := spares
  refine bind_spares (invocation_spares (openScope_spares _ env bound spare spread)
    fun scope inner => runBody_spares bodySpare inner _) fun (scope, ended) known => ?_
  exact bind_spares (ofExcept_ended known.2) fun _ returned => resultValue_spares _ scope returned

theorem boundReceiver_spares (receiver : Receiver) (value : v.Spares b) :
    (boundReceiver receiver v).Spares b (Value.Spares b) := by
  unfold boundReceiver
  split
  · split
    · exact pure_spares trivial
    · exact copied_spares value
  · split
    · exact pure_spares value
    · exact copied_spares trivial
  · exact copied_spares value

theorem invokeMethod_spares {decl : FuncDecl} (spares : decl.function.spares b.name = true)
    (value : v.Spares b) {values : List Value} (spare : AllSpare b values) (spread : Bool) :
    (invokeMethod decl v values spread).Spares b (Value.Spares b) := by
  unfold invokeMethod
  split
  · exact error_spares _
  · rename_i receiver _
    refine bind_spares (boundReceiver_spares receiver value) fun bound value =>
      invoke_spares spares globalScope (fun r is => ?_) spare spread
    obtain ⟨name, -, rfl⟩ := Option.map_eq_some_iff.mp is
    exact value

theorem invokeHost_spares (name : String) (place : Nat) (values : List Value) :
    (invokeHost name place values).Spares b (Value.Spares b) := by
  have argument (v : Value) : (hostArgument name v).Spares b fun _ => True := by
    refine then_spares (walkStore_spares fun _ _ _ _ => trivial) fun document => ?_
    split
    · exact done_spares
    · exact error_spares _
  refine then_spares (askHost_spares name place (mapM_done fun v _ => argument v)) fun reply => ?_
  split
  · exact bind_spares (onStore_spares fun _ spares => Store.Spares.toValue _ spares) fun _ value =>
      pure_spares (spares_success value)
  · exact bind_spares (newError_spares _ nofun) fun _ value =>
      pure_spares (Value.spares_tuple.mpr (.cons trivial (allSpare_one value)))

theorem apply_spares (callee : v.Spares b) {values : List Value} (spare : AllSpare b values)
    (spread : Bool) : (apply v values spread).Spares b (Value.Spares b) := by
  have unbound : ∀ r ∈ (none : Option (String × Value)), r.2.Spares b := nofun
  have given : (expandSpread values).Spares b (AllSpare b) := expandSpread_spares spare
  have same : (pure values : Eval _).Spares b (AllSpare b) := pure_spares spare
  unfold apply
  split
  · exact invoke_spares callee _ unbound spare spread
  · exact invokeMethod_spares callee.2 callee.1 spare spread
  · exact either_spares (x := liftM _) given same fun _ spare => builtin_spares _ spare
  · exact either_spares given same fun _ spare =>
      then_spares (undertake_spares _ done_spares) fun _ => Library.call_spares _ spare
  · exact either_spares given same fun values _ => invokeHost_spares _ _ values
  · exact panic_spares _
  · exact refusal_spares _ _

/-! ## Loops -/

theorem loopBody_spares {body : List Stmt} (spares : bodySpares b.name body = true)
    (inner : scope ≠ globalScope) : (loopBody body scope).Spares b fun _ => True := by
  refine bind_spares (outcome_spares (block_spares spares inner)) fun ended known => ?_
  split
  · exact done_spares
  · exact done_spares
  · exact done_spares
  · exact raise_spares _ known

theorem condition_spares {e : Option Expr} (spares : optionSpares b.name e = true)
    (scope : ScopeId) : (condition e scope).Spares b fun _ => True := by
  cases e with
  | none => exact done_spares
  | some e => exact bind_spares (eval_spares spares) fun v _ => asBool_spares v

theorem renewVariables_spares {next : ScopeId} (inner : next ≠ globalScope)
    (names : List String) : (renewVariables scope next names).Spares b fun _ => True := by
  induction names with
  | nil => exact done_spares
  | cons name rest ih =>
      refine then_spares (look_spares _) fun found => ?_
      cases found with
      | some found =>
          exact bind_spares (readCell_spares _) fun _ value =>
            then_spares (define_spares inner name value none) fun _ => ih
      | none => exact ih

theorem execOptional_spares {s : Option Stmt} (spares : stmtOptionSpares b.name s = true)
    (inner : scope ≠ globalScope) : (execOptional s scope).Spares b fun _ => True := by
  cases s with
  | none => exact done_spares
  | some s => exact exec_spares spares inner

theorem round_spares {test : Option Expr} {post : Option Stmt} {body : List Stmt}
    (tested : optionSpares b.name test = true) (after : stmtOptionSpares b.name post = true)
    (spares : bodySpares b.name body = true) (names : List String) (scope : ScopeId)
    {inside : ScopeId} (inner : inside ≠ globalScope) :
    (round names test post body scope inside).Spares b
      fun next => ∀ scope ∈ next, scope ≠ globalScope := by
  have here {next : ScopeId} (inner : next ≠ globalScope) :
      (pure next : Flow ScopeId).Spares b fun next => next ≠ globalScope := pure_spares inner
  have last {next : ScopeId} (inner : next ≠ globalScope) :
      (pure (some next) : Flow (Option ScopeId)).Spares b
        fun next => ∀ scope ∈ next, scope ≠ globalScope :=
    pure_spares fun scope is => Option.some.inj is ▸ inner
  refine then_spares (undertake_spares _ done_spares) fun _ =>
    then_spares (condition_spares tested inside) fun holds => ?_
  split
  · refine bind_spares (newScope_spares inside) fun within inner' =>
      then_spares (loopBody_spares spares inner') fun on => ?_
    split
    · dsimp only
      split
      · refine bind_spares (here inner) fun next inner => ?_
        cases post with
        | some s => exact then_spares (exec_spares after inner) fun _ => last inner
        | none => exact last inner
      · refine bind_spares (newScope_spares scope) fun next inner =>
          then_spares (renewVariables_spares inner names) fun _ =>
            bind_spares (here inner) fun next inner => ?_
        cases post with
        | some s => exact then_spares (exec_spares after inner) fun _ => last inner
        | none => exact last inner
    · exact pure_spares nofun
  · exact pure_spares nofun

theorem forLoop_spares {init post : Option Stmt} {test : Option Expr} {body : List Stmt}
    (before : stmtOptionSpares b.name init = true) (tested : optionSpares b.name test = true)
    (after : stmtOptionSpares b.name post = true) (spares : bodySpares b.name body = true)
    (scope : ScopeId) : (forLoop init test post body scope).Spares b fun _ => True :=
  bind_spares (newScope_spares scope) fun _ inner =>
    then_spares (execOptional_spares before inner) fun _ =>
      loop_spares (fun _ inner => round_spares tested after spares _ scope inner) inner

/-! ## Ranges -/

namespace RangeLoop

/-- A loop whose body spares the binding, and whose targets do if it assigns to them. -/
structure Spares (b : NamedCell) (l : RangeLoop) : Prop where
  targets : l.define = true ∨
    targetOptionSpares b.name l.key = true ∧ targetOptionSpares b.name l.value = true
  body : bodySpares b.name l.body = true

variable {l : RangeLoop}

theorem declareName_spares (inner : scope ≠ globalScope) (target : Option Expr)
    (value : v.Spares b) : (declareName scope target v).Spares b fun _ => True := by
  unfold declareName
  split
  · exact define_spares inner _ value none
  · exact done_spares

theorem assignTarget_spares (l : RangeLoop) {target : Option Expr}
    (spares : targetOptionSpares b.name target = true) (value : v.Spares b) :
    (assignTarget l target v).Spares b fun _ => True := by
  cases target with
  | none => exact done_spares
  | some e => exact assign_spares spares value l.scope

theorem round_spares (spares : l.Spares b) {key value : Value} (known : key.Spares b)
    (held : value.Spares b) : (l.round key value).Spares b fun _ => True := by
  refine then_spares (undertake_spares _ done_spares) fun _ =>
    bind_spares (newScope_spares l.scope) fun scope inner => ?_
  have body : (loopBody l.body scope).Spares b fun _ => True := loopBody_spares spares.body inner
  dsimp only
  split
  · refine then_spares (declareName_spares inner l.key known) fun _ => ?_
    split
    · exact bind_spares (copied_spares held) fun _ held =>
        then_spares (declareName_spares inner l.value held) fun _ => body
    · exact body
  · rename_i assigned
    obtain ⟨first, second⟩ := spares.targets.resolve_left assigned
    refine then_spares (assignTarget_spares l first known) fun _ => ?_
    split
    · exact bind_spares (copied_spares held) fun _ held =>
        then_spares (assignTarget_spares l second held) fun _ => body
    · exact body

theorem nextRound_spares (spares : l.Spares b) {key value : Value} (known : key.Spares b)
    (held : value.Spares b) {rest : Flow Unit} (later : rest.Spares b fun _ => True) :
    (do if ← l.round key value then rest).Spares b fun _ => True := by
  refine then_spares (round_spares spares known held) fun on => ?_
  split
  · exact later
  · exact done_spares

theorem overElements_spares (spares : l.Spares b) (items : SliceView) (left place : Nat) :
    (overElements l items left place).Spares b fun _ => True := by
  induction left generalizing place with
  | zero => exact done_spares
  | succ left ih =>
      exact bind_spares (viewStore_spares fun _ store => store.element items place) fun _ held =>
        nextRound_spares spares (Value.spares_int _) held (ih (place + 1))

theorem overEntries_spares (spares : l.Spares b) (m : Option MapId)
    {entries : List (MapKey × Value)} (held : ∀ e ∈ entries, e.2.Spares b) :
    (overEntries l m entries).Spares b fun _ => True := by
  induction entries with
  | nil => exact done_spares
  | cons e rest ih =>
      obtain ⟨first, others⟩ := List.forall_mem_cons.mp held
      refine bind_spares (mapLookup_spares m e.1) fun found _ => ?_
      split
      · exact ih others
      · exact nextRound_spares spares (spares_toValue e.1) first (ih others)

theorem overChars_spares (spares : l.Spares b) (place : Nat) (chars : List Char) :
    (overChars l place chars).Spares b fun _ => True := by
  induction chars generalizing place with
  | nil => exact done_spares
  | cons c rest ih => exact nextRound_spares spares (Value.spares_int _) (Value.spares_int _) (ih _)

theorem overNumbers_spares (spares : l.Spares b) (left : Nat) (n : Int64) :
    (overNumbers l left n).Spares b fun _ => True := by
  induction left generalizing n with
  | zero => exact done_spares
  | succ left ih => exact nextRound_spares spares (Value.spares_int n) Value.spares_nil (ih (n + 1))

theorem run_spares (spares : l.Spares b) (subject : Value) :
    (l.run subject).Spares b fun _ => True := by
  unfold run
  split
  · exact overElements_spares spares _ _ 0
  · exact bind_spares (mapList_spares _) fun _ held => overEntries_spares spares _ held
  · exact overChars_spares spares 0 _
  · split
    · exact error_spares _
    · exact overNumbers_spares spares _ 0
  · exact done_spares
  · exact refusal_spares _ _

end RangeLoop

/-! ## Switches -/

theorem anyHit_spares (tag : Option Value) (scope : ScopeId) {es : List Expr}
    (spare : ∀ e ∈ es, e.spares b.name = true) :
    (anyHit tag scope es).Spares b fun _ => True := by
  induction es with
  | nil => exact done_spares
  | cons e rest ih =>
      obtain ⟨first, others⟩ := List.forall_mem_cons.mp spare
      have counted (hit : Bool) : (do
          if hit then return true
          anyHit tag scope rest : Eval Bool).Spares b fun _ => True := by
        split
        · exact done_spares
        · exact ih others
      refine bind_spares (eval_spares first) fun v _ => ?_
      cases tag with
      | some tag => exact then_spares (equal_spares tag v) counted
      | none => exact then_spares (asBool_spares v) counted

theorem SwitchCase.spares_iff {c : SwitchCase} : c.spares b.name = true ↔
    (∀ e ∈ c.values, e.spares b.name = true) ∧ bodySpares b.name c.body = true := by
  obtain ⟨line, values, body⟩ := c
  rw [SwitchCase.spares, Bool.and_eq_true, exprsSpare_iff]
  rfl

theorem hitCases_spares (tag : Option Value) (scope : ScopeId) {cases : List SwitchCase}
    (spare : casesSpare b.name cases = true) :
    (hitCases tag scope cases).Spares b fun hits => casesSpare b.name hits = true := by
  induction cases with
  | nil => exact pure_spares rfl
  | cons c rest ih =>
      obtain ⟨first, others⟩ := (Bool.and_eq_true _ _).mp spare
      refine then_spares (anyHit_spares tag scope (SwitchCase.spares_iff.mp first).1) fun hit => ?_
      split
      · exact pure_spares spare
      · exact ih others

theorem caseBody_spares {body : List Stmt} (spares : bodySpares b.name body = true)
    (inner : scope ≠ globalScope) : (caseBody body scope).Spares b fun _ => True := by
  refine bind_spares (outcome_spares (block_spares spares inner)) fun ended known => ?_
  split
  · exact done_spares
  · exact done_spares
  · exact raise_spares _ known

theorem runCases_spares (scope : ScopeId) {cases : List SwitchCase}
    (spare : casesSpare b.name cases = true) :
    (runCases scope cases).Spares b fun _ => True := by
  induction cases with
  | nil => exact done_spares
  | cons c rest ih =>
      obtain ⟨first, others⟩ := (Bool.and_eq_true _ _).mp spare
      refine bind_spares (newScope_spares scope) fun inside inner =>
        then_spares (caseBody_spares (SwitchCase.spares_iff.mp first).2 inner) fun left => ?_
      split
      · exact ih others
      · exact done_spares

theorem switch_spares {init : Option Stmt} {tag : Option Expr} {cases : List SwitchCase}
    (before : stmtOptionSpares b.name init = true) (tested : optionSpares b.name tag = true)
    (spare : casesSpare b.name cases = true) (scope : ScopeId) :
    (switch init tag cases scope).Spares b fun _ => True := by
  refine bind_spares (newScope_spares scope) fun inside inner =>
    then_spares (execOptional_spares before inner) fun _ => ?_
  have byDefault : casesSpare b.name (cases.dropWhile fun c => !c.isDefault) = true :=
    casesSpare_iff.mpr fun c mem =>
      casesSpare_iff.mp spare c ((List.dropWhile_suffix _).subset mem)
  split
  all_goals
    refine bind_spares (P := fun _ => True) ?_ fun tag _ => ?_
    rotate_left
    · refine bind_spares (hitCases_spares tag inside spare) fun hits known => ?_
      cases hits with
      | nil => exact runCases_spares inside byDefault
      | cons c rest => exact runCases_spares inside known
  · exact map_spares (eval_spares tested) fun _ _ => trivial
  · exact done_spares

theorem caseValue_spares (c : TypeCase) (value : v.Spares b) :
    (caseValue c v).Spares b (Value.Spares b) := by
  unfold caseValue
  split
  · exact adapt_spares _ value
  · exact pure_spares value

theorem TypeCase.body_spares {cases : List TypeCase} (spare : typeCasesSpare b.name cases = true)
    {c : TypeCase} (mem : c ∈ cases) : bodySpares b.name c.body = true := by
  have spares := typeCasesSpare_iff.mp spare c mem
  cases c
  exact spares

theorem typeCase_spares (v : Value) (cases : List TypeCase) :
    (view (typeCase · v cases)).Spares b fun answer =>
      ∀ found, answer = some found → ∀ c ∈ found, c ∈ cases :=
  view_spares fun _ _ _ searched _ is => mem_of_findM (is ▸ searched)

theorem typeSwitch_spares {init : Option Stmt} (binding : Option String) {subject : Expr}
    {cases : List TypeCase} (before : stmtOptionSpares b.name init = true)
    (tested : subject.spares b.name = true) (spare : typeCasesSpare b.name cases = true)
    (scope : ScopeId) : (typeSwitch init binding subject cases scope).Spares b fun _ => True := by
  refine bind_spares (newScope_spares scope) fun inside inner =>
    then_spares (execOptional_spares before inner) fun _ =>
      bind_spares (eval_spares tested) fun v value =>
        bind_spares (typeCase_spares v cases) fun answer known =>
          bind_spares (ofWalk_spares known) fun found mem => ?_
  have body {c : TypeCase} (mem : c ∈ cases) {scope : ScopeId} (inner : scope ≠ globalScope) :
      (do let _ ← caseBody c.body scope : Flow Unit).Spares b fun _ => True :=
    then_spares (caseBody_spares (TypeCase.body_spares spare mem) inner) fun _ => done_spares
  cases found with
  | some c =>
      refine bind_spares (caseValue_spares c value) fun u value =>
        bind_spares (P := fun chosen => chosen = some (c, u)) (pure_spares rfl) ?_
      rintro _ rfl
      refine bind_spares (newScope_spares inside) fun scope inner => ?_
      cases binding with
      | none => exact body (mem c rfl) inner
      | some name =>
          exact then_spares (define_spares inner name value none) fun _ => body (mem c rfl) inner
  | none =>
      refine bind_spares (P := fun chosen => ∀ found ∈ chosen, found.1 ∈ cases ∧ found.2.Spares b)
        (pure_spares fun found is => ?_) fun chosen known => ?_
      · obtain ⟨c, isDefault, rfl⟩ := Option.map_eq_some_iff.mp is
        exact ⟨List.mem_of_find?_eq_some isDefault, value⟩
      · cases chosen with
        | none => exact done_spares
        | some found =>
            obtain ⟨mem, value⟩ := known found rfl
            refine bind_spares (newScope_spares inside) fun scope inner => ?_
            cases binding with
            | none => exact body mem inner
            | some name =>
                exact then_spares (define_spares inner name value none) fun _ => body mem inner

/-! ## Other statements -/

theorem defer_spares {e : Expr} (spares : e.spares b.name = true) (scope : ScopeId) :
    (defer e scope).Spares b fun _ => True := by
  unfold defer
  split
  · rename_i callee es spread
    obtain ⟨spares, spare⟩ := (Bool.and_eq_true _ _).mp spares
    have put {function : Value} (callee : function.Spares b) : (do
        let given ← arguments es scope
        putOff function (← if spread then expandSpread given else pure given) : Eval Unit).Spares b
        fun _ => True := by
      refine bind_spares (arguments_spares (exprsSpare_iff.mp spare) scope) fun given spare => ?_
      exact either_spares (expandSpread_spares spare) (pure_spares spare) fun _ spare =>
        putOff_spares callee spare
    cases callee with
    | select base name =>
        have inner : base.spares b.name = true := spares
        refine then_spares (packageName_spares base scope) fun package => ?_
        split
        · exact bind_spares (eval_spares spares) fun _ callee => put callee
        · exact bind_spares (eval_spares inner) fun _ value =>
            bind_spares (methodValue_spares value name) fun _ callee => put callee
    | _ => exact bind_spares (eval_spares spares) fun _ callee => put callee
  · exact error_spares _

theorem stepped_spares (up : Bool) (v : Value) : (stepped up v).Spares b (Value.Spares b) := by
  unfold stepped
  split
  · exact pure_spares trivial
  · exact pure_spares trivial
  · exact refusal_spares _ _

theorem returned_spares {es : List Expr} (spare : ∀ e ∈ es, e.spares b.name = true)
    (scope : ScopeId) : (returned es scope).Spares b (Value.Spares b) := by
  unfold returned
  split
  · exact pure_spares trivial
  · exact eval_spares (spare _ List.mem_cons_self)
  · exact bind_spares (mapM_spares fun e mem => eval_spares (spare e mem)) fun _ known =>
      pure_spares (Value.spares_tuple.mpr known.1)

theorem branch_spares {init otherwise : Option Stmt} {test : Expr} {body : List Stmt}
    (before : stmtOptionSpares b.name init = true) (tested : test.spares b.name = true)
    (spares : bodySpares b.name body = true) (other : stmtOptionSpares b.name otherwise = true)
    (scope : ScopeId) : (branch init test body otherwise scope).Spares b fun _ => True := by
  refine bind_spares (newScope_spares scope) fun inside inner =>
    then_spares (execOptional_spares before inner) fun _ =>
      bind_spares (eval_spares tested) fun v _ => then_spares (asBool_spares v) fun holds => ?_
  split
  · exact bind_spares (newScope_spares inside) fun _ inner => block_spares spares inner
  · exact execOptional_spares other inner

/-- A statement that spares the name of the binding, in an inner scope, spares the binding. -/
theorem execute_spares {s : Stmt} (spares : s.spares b.name = true)
    (inner : scope ≠ globalScope) : (execute s scope).Spares b fun _ => True := by
  obtain ⟨line, kind⟩ := s
  refine then_spares (setLine_spares line) fun _ =>
    then_spares (undertake_spares _ done_spares) fun _ => ?_
  have changed {up : Bool} {target : Expr} (other : target.sparesAsTarget b.name = true) : (do
      assign target (← stepped up (← eval target scope)) scope : Eval Unit).Spares b
      fun _ => True :=
    bind_spares (eval_spares ((Bool.and_eq_true _ _).mp other).2) fun v _ =>
      bind_spares (stepped_spares up v) fun _ value => assign_spares other value scope
  cases kind with
  | empty => exact done_spares
  | «fallthrough» => exact done_spares
  | expr e => exact bind_spares (eval_spares spares) fun _ _ => done_spares
  | var spec => exact declare_spares spares false inner
  | const spec => exact declare_spares spares true inner
  | typeDecl spec => exact declareType_spares spec
  | define names values => exact defineShort_spares inner names (exprsSpare_iff.mp spares)
  | assign targets values =>
      obtain ⟨others, spare⟩ := (Bool.and_eq_true _ _).mp spares
      exact bind_spares (rightSide_spares (exprsSpare_iff.mp spare) _ scope) fun _ known =>
        assignEach_spares (targetsSpare_iff.mp others) known.1 scope
  | opAssign op target value =>
      obtain ⟨other, spares⟩ := (Bool.and_eq_true _ _).mp spares
      exact bind_spares (eval_spares ((Bool.and_eq_true _ _).mp other).2) fun old _ =>
        bind_spares (eval_spares spares) fun operand _ =>
          bind_spares (binary_spares op old operand) fun _ value =>
            assign_spares other value scope
  | increment target => exact changed spares
  | decrement target => exact changed spares
  | block body => exact bind_spares (newScope_spares scope) fun _ inner => block_spares spares inner
  | «if» init test body otherwise =>
      obtain ⟨spares, other⟩ := (Bool.and_eq_true _ _).mp spares
      obtain ⟨spares, body⟩ := (Bool.and_eq_true _ _).mp spares
      obtain ⟨before, tested⟩ := (Bool.and_eq_true _ _).mp spares
      exact branch_spares before tested body other scope
  | «for» init test post body =>
      obtain ⟨spares, body⟩ := (Bool.and_eq_true _ _).mp spares
      obtain ⟨spares, after⟩ := (Bool.and_eq_true _ _).mp spares
      obtain ⟨before, tested⟩ := (Bool.and_eq_true _ _).mp spares
      exact forLoop_spares before tested after body scope
  | range key value define subject body =>
      obtain ⟨spares, body⟩ := (Bool.and_eq_true _ _).mp spares
      obtain ⟨targets, tested⟩ := (Bool.and_eq_true _ _).mp spares
      rw [Bool.or_eq_true, Bool.and_eq_true] at targets
      exact bind_spares (eval_spares tested) fun v _ => RangeLoop.run_spares ⟨targets, body⟩ v
  | switch init tag cases =>
      obtain ⟨spares, spare⟩ := (Bool.and_eq_true _ _).mp spares
      obtain ⟨before, tested⟩ := (Bool.and_eq_true _ _).mp spares
      exact switch_spares before tested spare scope
  | typeSwitch init binding subject cases =>
      obtain ⟨spares, spare⟩ := (Bool.and_eq_true _ _).mp spares
      obtain ⟨before, tested⟩ := (Bool.and_eq_true _ _).mp spares
      exact typeSwitch_spares binding before tested spare scope
  | «return» es =>
      exact bind_spares (returned_spares (exprsSpare_iff.mp spares) scope) fun _ value =>
        raise_spares (.return _) value
  | «break» => exact raise_spares .break trivial
  | «continue» => exact raise_spares .continue trivial
  | defer e => exact defer_spares spares scope

end Eval

/-! ## Evaluators -/

open Eval in
theorem Work.step_spares {w : Work} (spares : w.Spares b) : w.step.Spares b (Value.Spares b) := by
  cases w with
  | evaluate e scope => exact evaluate_spares spares scope
  | execute s scope =>
      exact then_spares (execute_spares spares.1 spares.2) fun _ => pure_spares trivial
  | call function arguments spread => exact apply_spares spares.1 spares.2 spread
  | render v => exact then_spares (Format.innerText_spares spares) fun _ => pure_spares trivial
  | directive verb v spec =>
      exact then_spares (Format.directiveText_spares verb spares spec) fun _ => pure_spares trivial

/-- Evaluators spare the binding however deep the work is nested. -/
theorem Evaluator.ofDepth_spares (b : NamedCell) (depth : Nat) :
    (Evaluator.ofDepth depth).Spares b := by
  induction depth with
  | zero => exact fun _ _ _ _ => trivial
  | succ depth ih =>
      exact fun w spares => Work.step_spares spares ⟨depth, SandboxedGo.perform depth⟩ ih

end SandboxedGo
