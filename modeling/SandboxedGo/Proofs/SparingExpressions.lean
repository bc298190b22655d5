import SandboxedGo.Eval.Assignment
import SandboxedGo.Proofs.Following
import SandboxedGo.Proofs.SparingOperations

/-!
# Expressions and assignments leave variables alone

Taking the address of a name makes a pointer to its variable, and assigning to a name writes the
variable.  An expression or a target that spares a name does neither with that name, and no pointer
leads to the variable, so it stays as it is.  What is declared inside a function has a variable of
its own.
-/

set_option autoImplicit false

namespace SandboxedGo

open Source

namespace Eval

variable {b : NamedCell} {scope : ScopeId} {v w : Value} {e base key : Expr} {es : List Expr}

/-! ## Names -/

theorem predeclared_spares (name : String) : (predeclared name).Spares b (Value.Spares b) := by
  unfold predeclared
  split
  iterate 3 exact pure_spares trivial
  split
  · exact pure_spares trivial
  · refine then_spares (look_spares _) fun isPackage => ?_
    split
    · exact error_spares _
    · exact error_spares _

theorem nameValue_spares (name : String) (scope : ScopeId) :
    (nameValue name scope).Spares b (Value.Spares b) := by
  refine then_spares (look_spares _) fun found => ?_
  split
  · exact readCell_spares _
  · exact predeclared_spares name

theorem packageName_spares (e : Expr) (scope : ScopeId) :
    (packageName? e scope).Spares b fun _ => True := by
  unfold packageName?
  split
  · refine then_spares (look_spares _) fun isPackage => ?_
    split
    · exact then_spares (look_spares _) fun _ => done_spares
    · exact done_spares
  · exact done_spares

theorem packageMember_spares (package name : String) :
    (packageMember package name).Spares b (Value.Spares b) := by
  refine then_spares (look_spares _) fun found => ?_
  split
  · exact error_spares _
  · split
    iterate 4 exact pure_spares trivial
    exact error_spares _

/-! ## Elements -/

theorem mapLookup_spares (entries : Option MapId) (key : MapKey) :
    (viewStore fun s => entries.bind (s.mapLookup · key)).Spares b fun found =>
      ∀ v ∈ found, v.Spares b := by
  refine viewStore_spares fun s spares v is => ?_
  obtain ⟨m, -, is⟩ := Option.bind_eq_some_iff.mp is
  exact spares.mapLookup is

theorem target_spares (value : v.Spares b) :
    (viewStore (·.target v)).Spares b (Value.Spares b) :=
  viewStore_spares fun _ spares => spares.target value

theorem index_spares (value : v.Spares b) (key : Value) :
    (index v key).Spares b (Value.Spares b) := by
  refine bind_spares (target_spares value) fun v value => ?_
  split
  · exact then_spares (asIndex_spares _ _) fun i => viewStore_spares fun _ spares =>
      spares.element _ i
  · exact then_spares (asIndex_spares _ _) fun _ => pure_spares trivial
  · refine then_spares (asKey_spares _) fun key =>
      bind_spares (mapLookup_spares _ key) fun found known => ?_
    cases found with
    | some v => exact pure_spares (known v rfl)
    | none => exact copied_spares value
  · exact then_spares (asInt_spares _) fun _ => panic_spares _
  · exact refusal_spares _ _

theorem bound_spares (given : Option Int64) (default : Nat) :
    (bound given default).Spares b fun _ => True := by
  unfold bound
  split
  · exact done_spares
  · split
    · exact panic_spares _
    · exact done_spares

theorem slice_spares (value : v.Spares b) (low high : Option Int64) :
    (slice v low high).Spares b (Value.Spares b) := by
  refine bind_spares (target_spares value) fun v value => ?_
  split
  iterate 2
    · refine then_spares (bound_spares _ _) fun low => then_spares (bound_spares _ _) fun high => ?_
      split
      · exact pure_spares trivial
      · exact panic_spares _
  · dsimp only
    split
    · exact nilSlice_spares
    · exact panic_spares _
  · exact refusal_spares _ _

theorem boundOperand_spares {e : Option Expr} (spares : optionSpares b.name e = true)
    (scope : ScopeId) : (boundOperand e scope).Spares b fun _ => True := by
  cases e with
  | none => exact done_spares
  | some e =>
      exact bind_spares (eval_spares spares) fun v _ => then_spares (asInt_spares v) fun _ =>
        done_spares

/-! ## Pointers and types -/

theorem pointerTo_spares (value : v.Spares b) : (pointerTo v).Spares b (Value.Spares b) := by
  unfold pointerTo
  split
  · exact pure_spares trivial
  · exact newRef_spares value

theorem address_spares {operand : Expr} (spares : operand.sparesAsTarget b.name = true)
    (scope : ScopeId) : (address operand scope).Spares b (Value.Spares b) := by
  obtain ⟨other, spares⟩ := (Bool.and_eq_true _ _).mp spares
  cases operand with
  | name name =>
      have different : name ≠ b.name := by simpa [Expr.isName] using other
      refine bind_spares (resolve_spares different) fun found known => ?_
      cases found with
      | none => exact error_spares _
      | some found =>
          refine then_spares (look_spares _) fun held => ?_
          split
          · exact pure_spares trivial
          · exact pure_spares (known found rfl)
  | _ => exact bind_spares (eval_spares spares) fun _ value => pointerTo_spares value

theorem hasType_spares (v : Value) (ty : TypeExpr) : (hasType v ty).Spares b fun _ => True :=
  then_spares (look_spares _) fun _ => ofWalk_spares fun _ _ => trivial

theorem assertType_spares (value : v.Spares b) (ty : TypeExpr) :
    (assertType v ty).Spares b (Value.Spares b) := by
  refine then_spares (hasType_spares v ty) fun has => ?_
  split
  · exact adapt_spares ty value
  · dsimp only
    split
    · exact panic_spares _
    · exact then_spares (typeName_spares _) fun _ => panic_spares _

/-! ## Calls -/

theorem arguments_spares (spare : ∀ e ∈ es, e.spares b.name = true) (scope : ScopeId) :
    (arguments es scope).Spares b (AllSpare b) := by
  have one {v : Value} (value : v.Spares b) : (single v).Spares b (Value.Spares b) := by
    unfold single
    split
    · exact error_spares _
    · exact pure_spares value
  unfold arguments
  split
  · refine bind_spares (eval_spares (spare _ List.mem_cons_self)) fun v value => ?_
    split
    · exact pure_spares (Value.spares_tuple.mp value)
    · exact pure_spares (allSpare_one value)
  · exact imp_spares (mapM_spares fun e mem =>
      bind_spares (eval_spares (spare e mem)) fun _ value => one value) fun _ known => known.1

theorem appendedItems_spares {arguments : List Value} (spare : AllSpare b arguments) :
    (appendedItems arguments).Spares b (AllSpare b) := by
  unfold appendedItems
  split
  · exact bind_spares (elements_spares _) fun _ more =>
      pure_spares ((AllSpare.dropLast spare).append more)
  · exact pure_spares
      ((AllSpare.dropLast spare).append (List.forall_mem_map.mpr fun _ _ => trivial))
  · exact pure_spares (AllSpare.dropLast spare)
  · exact error_spares _

theorem callBuiltin_spares (f : Builtin) (spare : ∀ e ∈ es, e.spares b.name = true) (spread : Bool)
    (scope : ScopeId) : (callBuiltin f es spread scope).Spares b (Value.Spares b) := by
  unfold callBuiltin
  split
  · cases es with
    | nil => exact error_spares _
    | cons first sizes =>
        refine then_spares (typeOperand_spares first) fun ty => then_spares (mapM_done
          fun e mem => ?_) fun sizes => make_spares ty sizes
        exact bind_spares (eval_spares (spare e (List.mem_cons_of_mem _ mem))) fun v _ =>
          asInt_spares v
  · split
    · exact then_spares (typeOperand_spares _) fun ty => allocate_spares ty
    · exact wrongArity_spares _
  · refine bind_spares (arguments_spares spare scope) fun given spare => ?_
    dsimp only
    split
    · split
      · exact bind_spares (appendedItems_spares spare) fun _ spare => builtin_spares f spare
      · exact bind_spares (expandSpread_spares spare) fun _ spare => builtin_spares f spare
    · exact builtin_spares f spare

theorem conversion_spares (ty : TypeExpr) (spare : ∀ e ∈ es, e.spares b.name = true)
    (scope : ScopeId) : (conversion ty es scope).Spares b (Value.Spares b) := by
  unfold conversion
  split
  · exact bind_spares (eval_spares (spare _ List.mem_cons_self)) fun _ value =>
      convert_spares value ty
  · exact error_spares _

theorem callValue_spares {callee : Expr} (spares : callee.spares b.name = true)
    (spare : ∀ e ∈ es, e.spares b.name = true) (spread : Bool) (scope : ScopeId) :
    (callValue callee es spread scope).Spares b (Value.Spares b) :=
  bind_spares (eval_spares spares) fun _ function =>
    bind_spares (arguments_spares spare scope) fun _ given => perform_spares ⟨function, given⟩

theorem callMember_spares (package name : String) (spare : ∀ e ∈ es, e.spares b.name = true)
    (spread : Bool) (scope : ScopeId) :
    (callMember package name es spread scope).Spares b (Value.Spares b) := by
  refine then_spares (qualifiedName_spares package name) fun qualified =>
    then_spares (look_spares _) fun isType => ?_
  split
  · exact conversion_spares _ spare scope
  · exact bind_spares (packageMember_spares package name) fun _ function =>
      bind_spares (arguments_spares spare scope) fun _ given => perform_spares ⟨function, given⟩

theorem callName_spares (name : String) (spare : ∀ e ∈ es, e.spares b.name = true) (spread : Bool)
    (scope : ScopeId) : (callName name es spread scope).Spares b (Value.Spares b) := by
  have called : (callValue (.name name) es spread scope).Spares b (Value.Spares b) :=
    callValue_spares rfl spare spread scope
  refine then_spares (look_spares _) fun found => ?_
  split
  · exact called
  · split
    · exact callBuiltin_spares _ spare spread scope
    · refine then_spares (look_spares _) fun isType => ?_
      split
      · exact conversion_spares _ spare scope
      · exact called

theorem callSelected_spares (spares : base.spares b.name = true) (name : String)
    (spare : ∀ e ∈ es, e.spares b.name = true) (spread : Bool) (scope : ScopeId) :
    (callSelected base name es spread scope).Spares b (Value.Spares b) := by
  refine then_spares (packageName_spares base scope) fun package => ?_
  split
  · exact callMember_spares _ name spare spread scope
  · exact bind_spares (eval_spares spares) fun _ value =>
      bind_spares (arguments_spares spare scope) fun _ given =>
        callMethod_spares value name given spread

theorem call_spares {callee : Expr} (spares : callee.spares b.name = true)
    (spare : ∀ e ∈ es, e.spares b.name = true) (spread : Bool) (scope : ScopeId) :
    (call callee es spread scope).Spares b (Value.Spares b) := by
  cases callee with
  | name name => exact callName_spares name spare spread scope
  | type ty => exact conversion_spares ty spare scope
  | select base name =>
      have inner : base.spares b.name = true := spares
      exact callSelected_spares inner name spare spread scope
  | _ => exact callValue_spares spares spare spread scope

/-! ## All together -/

theorem logical_spares (decisive : Bool) {left right : Expr} (first : left.spares b.name = true)
    (second : right.spares b.name = true) (scope : ScopeId) :
    (logical decisive left right scope).Spares b (Value.Spares b) := by
  refine bind_spares (eval_spares first) fun v _ => then_spares (asBool_spares v) fun holds => ?_
  split
  · exact bind_spares (eval_spares second) fun w _ => then_spares (asBool_spares w) fun _ =>
      pure_spares trivial
  · exact pure_spares trivial

theorem selected_spares (spares : base.spares b.name = true) (name : String) (scope : ScopeId) :
    (selected base name scope).Spares b (Value.Spares b) := by
  refine then_spares (packageName_spares base scope) fun package => ?_
  split
  · exact packageMember_spares _ name
  · exact bind_spares (eval_spares spares) fun _ value => select_spares value name

/-- An expression that spares the name of the binding spares the binding. -/
theorem evaluate_spares (spares : e.spares b.name = true) (scope : ScopeId) :
    (evaluate e scope).Spares b (Value.Spares b) := by
  cases e with
  | name name => exact nameValue_spares name scope
  | int n => exact pure_spares trivial
  | float f => exact pure_spares trivial
  | string s => exact pure_spares trivial
  | rune c => exact pure_spares trivial
  | composite ty elements => exact composite_spares ty (elementsSpare_iff.mp spares) scope
  | function f => exact pure_spares spares
  | unary op operand =>
      obtain ⟨other, inner⟩ := (Bool.and_eq_true _ _).mp spares
      have one (op : UnaryOp) : (do unary op (← eval operand scope) : Eval Value).Spares b
          (Value.Spares b) :=
        then_spares (imp_spares (eval_spares inner) fun _ _ => trivial) fun v => unary_spares op v
      cases op with
      | addr => exact address_spares spares scope
      | _ => exact one _
  | binary op left right =>
      obtain ⟨first, second⟩ := (Bool.and_eq_true _ _).mp spares
      have both (op : BinaryOp) : (do
          let v ← eval left scope
          let w ← eval right scope
          binary op v w : Eval Value).Spares b (Value.Spares b) :=
        bind_spares (eval_spares first) fun v _ => bind_spares (eval_spares second) fun w _ =>
          binary_spares op v w
      cases op with
      | logAnd => exact logical_spares true first second scope
      | logOr => exact logical_spares false first second scope
      | _ => exact both _
  | call callee es spread =>
      obtain ⟨function, given⟩ := (Bool.and_eq_true _ _).mp spares
      exact call_spares function (exprsSpare_iff.mp given) spread scope
  | select base name =>
      have inner : base.spares b.name = true := spares
      exact selected_spares inner name scope
  | index base key =>
      obtain ⟨first, second⟩ := (Bool.and_eq_true _ _).mp spares
      exact bind_spares (eval_spares first) fun _ value =>
        bind_spares (eval_spares second) fun key _ => index_spares value key
  | slice base low high =>
      obtain ⟨spares, upper⟩ := (Bool.and_eq_true _ _).mp spares
      obtain ⟨first, lower⟩ := (Bool.and_eq_true _ _).mp spares
      exact bind_spares (eval_spares first) fun _ value =>
        then_spares (boundOperand_spares lower scope) fun low =>
          then_spares (boundOperand_spares upper scope) fun high => slice_spares value low high
  | assert subject ty =>
      exact bind_spares (eval_spares spares) fun _ value => assertType_spares value ty
  | type ty => exact error_spares _

/-! ## Right sides -/

theorem commaOk_spares (spares : e.spares b.name = true) (scope : ScopeId) :
    (commaOk e scope).Spares b fun values => AllSpare b values ∧ values.length = 2 := by
  have pair {v : Value} (value : v.Spares b) (there : Bool) :
      (pure [v, .bool there] : Eval _).Spares b
        fun values => AllSpare b values ∧ values.length = 2 :=
    pure_spares ⟨.cons value (allSpare_one trivial), rfl⟩
  unfold commaOk
  split
  · obtain ⟨first, second⟩ := (Bool.and_eq_true _ _).mp spares
    refine bind_spares (eval_spares first) fun v value =>
      bind_spares (eval_spares second) fun key _ => ?_
    split
    · refine then_spares (asKey_spares key) fun key =>
        bind_spares (mapLookup_spares _ key) fun found known => ?_
      cases found with
      | some v => exact pair (known v rfl) true
      | none => exact bind_spares (copied_spares value) fun _ zero => pair zero false
    · exact pair (v := .nil) trivial false
    · exact refusal_spares _ _
  · refine bind_spares (eval_spares spares) fun v value =>
      then_spares (hasType_spares v _) fun has => ?_
    split
    · exact bind_spares (adapt_spares _ value) fun _ value => pair value true
    · exact bind_spares (zeroValue_spares _) fun _ zero => pair zero false
  · exact error_spares _

theorem assigned_spares (targets : Nat) (scope : ScopeId) (spares : e.spares b.name = true) :
    (assigned targets scope e).Spares b (Value.Spares b) := by
  refine bind_spares (eval_spares spares) fun v value => ?_
  split
  · split
    · exact error_spares _
    · exact pure_spares value
  · exact pure_spares value

theorem rightSide_spares (spare : ∀ e ∈ es, e.spares b.name = true) (targets : Nat)
    (scope : ScopeId) :
    (rightSide es targets scope).Spares b
      fun values => AllSpare b values ∧ values.length = targets := by
  unfold rightSide
  split
  · rename_i same
    exact imp_spares (mapM_spares fun e mem => assigned_spares targets scope (spare e mem))
      fun _ known => ⟨known.1, known.2.trans same⟩
  · split
    · have spares := spare _ List.mem_cons_self
      split
      · rename_i two
        obtain ⟨two, -⟩ := (Bool.and_eq_true _ _).mp two
        obtain rfl := of_decide_eq_true two
        exact commaOk_spares spares scope
      · refine bind_spares (eval_spares spares) fun v value => ?_
        split
        · split
          · rename_i same
            exact pure_spares ⟨Value.spares_tuple.mp value, same⟩
          · exact error_spares _
        · exact error_spares _
    · exact error_spares _

/-! ## Targets -/

theorem assignVariable_spares {name : String} (other : name ≠ b.name) (value : v.Spares b)
    (scope : ScopeId) : (assignVariable name v scope).Spares b fun _ => True := by
  unfold assignVariable
  split
  · exact done_spares
  · refine bind_spares (resolve_spares other) fun found known => ?_
    cases found with
    | none => exact error_spares _
    | some found =>
        refine then_spares (look_spares _) fun old => ?_
        split
        · exact writeCell_spares (known found rfl) trivial
        · exact writeCell_spares (known found rfl) (spares_keepingFloat old value)

theorem assignElement_spares (container key : Value) (value : v.Spares b) :
    (assignElement container key v).Spares b fun _ => True := by
  refine then_spares (look_spares _) fun held => ?_
  split
  · exact then_spares (asIndex_spares _ _) fun i => then_spares (look_spares _) fun old =>
      changeStore_spares fun _ spares => spares.setElement _ i (spares_keepingFloat old value)
  · refine then_spares (asKey_spares _) fun key => ?_
    split
    · exact changeStore_spares fun _ spares =>
        spares.mapInsert _ key (spares_keepingFloat _ value)
    · exact panic_spares _
  · exact panic_spares _
  · exact error_spares _
  · exact refusal_spares _ _

theorem assignField_spares (base : Value) (field : String) (value : v.Spares b) :
    (assignField base field v).Spares b fun _ => True := by
  rw [assignField_eq]
  split
  iterate 2
    · refine then_spares (walkStore_spares fun _ _ _ _ => trivial) fun found => ?_
      split
      · exact then_spares (look_spares _) fun old => changeStore_spares fun _ spares =>
          spares.setFieldAt _ _ (spares_keepingFloat old value)
      · exact then_spares (look_spares _) fun _ => error_spares _
  · exact panic_spares _
  · exact refusal_spares _ _

theorem assignThrough_spares {pointer : Value} (aim : pointer.Spares b) (value : v.Spares b) :
    (assignThrough pointer v).Spares b fun _ => True := by
  unfold assignThrough
  split
  · exact then_spares (look_spares _) fun old =>
      writeCell_spares aim (spares_keepingFloat old value)
  · split
    iterate 2
      · split
        · exact done_spares
        · exact bind_spares (fieldsOf_spares _) fun _ fields =>
            bind_spares (copiedAll_spares fields) fun _ fields =>
              changeStore_spares fun _ spares => spares.setFields _ fields
    · exact refusal_spares _ _
  · exact panic_spares _
  · exact refusal_spares _ _

theorem assign_spares {target : Expr} (spares : target.sparesAsTarget b.name = true)
    (value : v.Spares b) (scope : ScopeId) : (assign target v scope).Spares b fun _ => True := by
  obtain ⟨other, spares⟩ := (Bool.and_eq_true _ _).mp spares
  unfold assign
  split
  · exact assignVariable_spares (by simpa [Expr.isName] using other) value scope
  · obtain ⟨first, second⟩ := (Bool.and_eq_true _ _).mp spares
    exact bind_spares (eval_spares first) fun container _ =>
      bind_spares (eval_spares second) fun key _ => assignElement_spares container key value
  · exact bind_spares (eval_spares spares) fun base _ => assignField_spares base _ value
  · exact bind_spares (eval_spares (by simpa [Expr.spares] using spares)) fun _ aim =>
      assignThrough_spares aim value
  · exact error_spares _

theorem assignEach_spares {targets : List Expr}
    (spares : ∀ e ∈ targets, e.sparesAsTarget b.name = true) {values : List Value}
    (spare : AllSpare b values) (scope : ScopeId) :
    (assignEach scope targets values).Spares b fun _ => True := by
  induction targets generalizing values with
  | nil => exact done_spares
  | cons target targets ih =>
      obtain ⟨first, others⟩ := List.forall_mem_cons.mp spares
      cases values with
      | nil => exact done_spares
      | cons v values =>
          obtain ⟨value, more⟩ := List.forall_mem_cons.mp spare
          exact bind_spares (copied_spares value) fun _ value =>
            then_spares (assign_spares first value scope) fun _ => ih others more

/-! ## Declarations inside a function -/

theorem defineEach_spares (inner : scope ≠ globalScope) (ty : Option TypeExpr)
    (width : Option IntWidth) (names : List String) {values : List Value}
    (spare : AllSpare b values) :
    (defineEach scope ty width names values).Spares b fun _ => True := by
  induction names generalizing values with
  | nil => exact done_spares
  | cons name names ih =>
      cases values with
      | nil => exact done_spares
      | cons v values =>
          obtain ⟨value, more⟩ := List.forall_mem_cons.mp spare
          refine bind_spares (copied_spares value) fun v value => ?_
          have defined {v : Value} (value : v.Spares b) : (do
              define scope name v width
              defineEach scope ty width names values).Spares b fun _ => True :=
            then_spares (define_spares inner name value width) fun _ => ih more
          cases ty with
          | none => exact defined value
          | some ty => exact bind_spares (adapt_spares ty value) fun _ value => defined value

theorem zeroValues_spares (ty : TypeExpr) (names : List String) :
    (zeroValues ty names).Spares b
      fun values => AllSpare b values ∧ values.length = names.length := by
  induction names with
  | nil => exact pure_spares ⟨nofun, rfl⟩
  | cons name rest ih =>
      exact bind_spares (zeroValue_spares ty) fun _ zero => bind_spares ih fun _ more =>
        pure_spares ⟨.cons zero more.1, congrArg (· + 1) more.2⟩

/-- The values that a declaration declares its names with. -/
def declaredValues (spec : ValueSpec) (isConstant : Bool) (scope : ScopeId) :
    Eval (List Value) := do
  if spec.values.isEmpty then
    match spec.type with
    | none => error .missingInitializer
    | some ty => zeroValues ty spec.names
  else if isConstant then do
    let inner ← newScope scope
    define inner "iota" (.int (Int64.ofNat spec.iota)) none
    rightSide spec.values spec.names.length inner
  else rightSide spec.values spec.names.length scope

/-- The width of the variables that a declaration declares. -/
def declaredWidth (spec : ValueSpec) : Eval (Option IntWidth) :=
  match spec.type with
  | some ty => view (·.types.width? ty)
  | none => pure none

theorem declare_eq (spec : ValueSpec) (isConstant : Bool) (scope : ScopeId) :
    declare spec isConstant scope = (do
      setLine spec.line
      let values ← declaredValues spec isConstant scope
      let width ← declaredWidth spec
      defineEach scope spec.type width spec.names values) := by
  obtain ⟨line, names, type, values, iota⟩ := spec
  unfold declare declaredValues declaredWidth
  by_cases none : values.isEmpty = true
  · cases type <;> simp [ValueSpec.values, ValueSpec.type, none]
  · cases type <;> cases isConstant <;> simp [ValueSpec.values, ValueSpec.type, none]

theorem declaredValues_spares {spec : ValueSpec} (spares : spec.spares b.name = true)
    (isConstant : Bool) (scope : ScopeId) :
    (declaredValues spec isConstant scope).Spares b
      fun values => AllSpare b values ∧ values.length = spec.names.length := by
  have spare : ∀ e ∈ spec.values, e.spares b.name = true := by
    obtain ⟨line, names, type, values, iota⟩ := spec
    exact exprsSpare_iff.mp spares
  unfold declaredValues
  split
  · split
    · exact error_spares _
    · exact zeroValues_spares _ _
  · split
    · exact bind_spares (newScope_spares scope) fun inside inner =>
        then_spares (define_spares (v := .int _) inner _ trivial _) fun _ =>
          rightSide_spares spare _ inside
    · exact rightSide_spares spare _ scope

theorem declaredWidth_spares (spec : ValueSpec) : (declaredWidth spec).Spares b fun _ => True := by
  unfold declaredWidth
  split
  · exact look_spares _
  · exact done_spares

theorem declare_spares {spec : ValueSpec} (spares : spec.spares b.name = true) (isConstant : Bool)
    (inner : scope ≠ globalScope) : (declare spec isConstant scope).Spares b fun _ => True := by
  rw [declare_eq]
  exact then_spares (setLine_spares _) fun _ =>
    bind_spares (declaredValues_spares spares isConstant scope) fun _ known =>
      then_spares (declaredWidth_spares spec) fun width =>
        defineEach_spares inner _ width _ known.1

theorem conversionWidth_spares (scope : ScopeId) (e : Expr) :
    (conversionWidth? scope e).Spares b fun _ => True := by
  unfold conversionWidth?
  split
  · refine then_spares (look_spares _) fun found => ?_
    split
    · exact done_spares
    · exact look_spares _
  · exact look_spares _
  · exact done_spares

theorem defineNew_spares (inner : scope ≠ globalScope) (names : List String) {values : List Value}
    (spare : AllSpare b values) (widths : List (Option IntWidth)) (anyNew : Bool) :
    (defineNew scope names values widths anyNew).Spares b fun _ => True := by
  fun_induction defineNew scope names values widths anyNew with
  | case1 names v values width widths anyNew ih =>
      exact ih (List.forall_mem_cons.mp spare).2
  | case2 name names v values width widths anyNew other stored fresh =>
      obtain ⟨value, more⟩ := List.forall_mem_cons.mp spare
      refine bind_spares (copied_spares value) fun v value =>
        bind_spares (localVariable_spares inner name) fun found known => ?_
      cases found with
      | some found =>
          exact then_spares (look_spares _) fun old =>
            then_spares (writeCell_spares (known found rfl) (spares_keepingFloat old value))
              fun _ => stored more
      | none => exact then_spares (define_spares inner name value width) fun _ => fresh more
  | case3 => exact done_spares

theorem defineShort_spares (inner : scope ≠ globalScope) (names : List String)
    (spare : ∀ e ∈ es, e.spares b.name = true) :
    (defineShort names es scope).Spares b fun _ => True := by
  have behind (widths : List (Option IntWidth)) : (do
      let values ← rightSide es names.length scope
      let anyNew ← defineNew scope names values widths false
      if !anyNew && names.any (· ≠ "_") then error .noNewVariables : Eval Unit).Spares b
      fun _ => True := by
    refine bind_spares (rightSide_spares spare _ scope) fun values known =>
      then_spares (defineNew_spares inner names known.1 widths false) fun anyNew => ?_
    split
    · exact error_spares _
    · exact done_spares
  unfold defineShort
  dsimp only
  split
  · exact then_spares (mapM_done fun e _ => conversionWidth_spares scope e) behind
  · exact behind _

end Eval

end SandboxedGo
