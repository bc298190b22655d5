import SandboxedGo.Eval.Expressions
import SandboxedGo.Proofs.Following
import SandboxedGo.Proofs.WovenLibrary
import SandboxedGo.Run

/-!
# Statements and programs are woven

Calls, assignments, declarations and loops are where variables are made and changed.  What they do
to a variable is one change, even where it is written as several operations: looking the variable
up, reading it and storing a value.  Main statement: `Computation.Woven.exists_passes`, that what is
woven goes through steps from every machine on; so do programs, by `program_woven`.
-/

set_option autoImplicit false

namespace SandboxedGo.Eval

open Source

/-!
## Expressions are woven

Predeclared functions, operations on types, literals and expressions.  The only variables that they
make are those that a pointer to something without a name needs.
-/

variable {α : Type}

/-! ## The predeclared functions -/

@[grind ←]
theorem wrongArity_woven (b : Builtin) : (wrongArity b).Woven := error_woven _

@[grind ←]
theorem refuseOperand_woven (b : Builtin) (v : Value) : (refuseOperand b v : Eval α).Woven := by
  grind [refuseOperand]

@[grind ←]
theorem lengthOf_woven (v : Value) : (lengthOf v).Woven := by
  unfold lengthOf
  grind

@[grind ←]
theorem appendItems_woven (view : SliceView) (items : List Value) :
    (appendItems view items).Woven := by
  grind [appendItems]

@[grind ←]
theorem appendTo_woven (v : Value) (items : List Value) : (appendTo v items).Woven := by
  unfold appendTo
  grind

@[grind ←]
theorem deleteFrom_woven (v key : Value) : (deleteFrom v key).Woven := by
  unfold deleteFrom
  grind

@[grind ←]
theorem overwrite_woven (view : SliceView) (place : Nat) (values : List Value) :
    (overwrite view place values).Woven := by
  induction values generalizing place with
  | nil => exact pure_woven ()
  | cons v rest ih => grind [overwrite]

@[grind ←]
theorem copyElements_woven (destination source : Value) :
    (copyElements destination source).Woven := by
  unfold copyElements
  grind

@[grind ←]
theorem clearAll_woven (v : Value) : (clearAll v).Woven := by
  unfold clearAll
  grind

@[grind ←]
theorem errorText_woven (v : Value) : (errorText? v).Woven := by grind [errorText?]

@[grind ←]
theorem panicText_woven (v : Value) : (panicText v).Woven := by
  unfold panicText
  grind

@[grind ←]
theorem bestOf_woven (b : Builtin) (least : Bool) (best : Value) (values : List Value) :
    (bestOf b least best values).Woven := by
  induction values generalizing best with
  | nil => exact pure_woven best
  | cons v rest ih => grind [bestOf]

@[grind ←]
theorem builtin_woven (b : Builtin) (arguments : List Value) : (builtin b arguments).Woven := by
  unfold builtin
  grind

/-! ## Operations on types -/

@[grind ←]
theorem typeOperand_woven (e : Expr) : (typeOperand e).Woven := by
  unfold typeOperand
  split
  · exact pure_woven _
  · exact pure_woven _
  · exact pure_woven _
  · exact bind_woven (typeOperand_woven _) fun ty => pure_woven _
  · exact error_woven _

@[grind ←]
theorem tickTimes_woven (count : Nat) : (tickTimes count).Woven := by
  induction count with
  | zero => exact pure_woven ()
  | succ n ih => grind [tickTimes]

@[grind ←]
theorem filled_woven (count : Nat) {zero : Eval Value} (woven : zero.Woven) :
    (filled count zero).Woven := by
  cases count <;> grind [filled]

@[grind ←]
theorem makeSlice_woven (element : TypeExpr) (length capacity : Int) :
    (makeSlice element length capacity).Woven := by
  unfold makeSlice
  grind

@[grind ←]
theorem make_woven (ty : TypeExpr) (sizes : List Int64) : (make ty sizes).Woven := by
  unfold make
  grind

@[grind ←]
theorem allocate_woven (ty : TypeExpr) : (allocate ty).Woven := by grind [allocate]

@[grind ←]
theorem refuseConversion_woven (v : Value) (ty : TypeExpr) : (refuseConversion v ty).Woven := by
  grind [refuseConversion]

@[grind ←]
theorem convertBasic_woven (kind : BasicType) (name : String) (v : Value) (ty : TypeExpr) :
    (convertBasic kind name v ty).Woven := by
  unfold convertBasic
  grind

@[grind ←]
theorem convertStruct_woven (def_ : StructDef) (v : Value) (ty : TypeExpr) :
    (convertStruct def_ v ty).Woven := by
  unfold convertStruct
  grind

@[grind ←]
theorem convert_woven (v : Value) (ty : TypeExpr) : (convert v ty).Woven := by
  unfold convert
  grind

/-! ## Literals -/

@[grind ←]
theorem kept_woven (ty : TypeExpr) (v : Value) : (kept ty v).Woven := by grind [kept]

@[grind ←]
theorem element_woven (e : Expr) (ty : TypeExpr) (scope : ScopeId) :
    (element e ty scope).Woven := by
  grind [element]

@[grind ←]
theorem sequence_woven (ty : TypeExpr) (scope : ScopeId) (elements : List (Option Expr × Expr))
    (next : Nat) (items : Array Value) : (sequence ty scope elements next items).Woven := by
  induction elements generalizing next items with
  | nil => exact pure_woven items
  | cons e rest ih =>
      obtain ⟨key, e⟩ := e
      cases key with
      | none => grind [sequence]
      | some key =>
          unfold sequence
          refine bind_woven (eval_woven key scope) fun v => bind_woven (asInt_woven v) fun n => ?_
          by_cases negative : n < 0 <;> grind

@[grind ←]
theorem arrayLiteral_woven (length : Option Nat) (ty : TypeExpr)
    (elements : List (Option Expr × Expr)) (scope : ScopeId) :
    (arrayLiteral length ty elements scope).Woven := by
  cases length <;> grind [arrayLiteral]

@[grind ←]
theorem addEntry_woven (m : MapId) (key v : Value) : (addEntry m key v).Woven := by
  grind [addEntry]

@[grind ←]
theorem mapEntries_woven (m : MapId) (keyType valueType : TypeExpr) (scope : ScopeId)
    (elements : List (Option Expr × Expr)) :
    (mapEntries m keyType valueType scope elements).Woven := by
  induction elements with
  | nil => exact pure_woven ()
  | cons e rest ih =>
      obtain ⟨key, e⟩ := e
      cases key <;> grind [mapEntries]

@[grind ←]
theorem structParts_woven (name : String) : (structParts name).Woven := by grind [structParts]

@[grind ←]
theorem namedFields_woven (def_ : StructDef) (types : List TypeExpr) (scope : ScopeId)
    (elements : List (Option Expr × Expr)) (fields : List Value) :
    (namedFields def_ types scope elements fields).Woven := by
  induction elements generalizing fields with
  | nil => exact pure_woven fields
  | cons e rest ih =>
      unfold namedFields
      grind

@[grind ←]
theorem orderedFields_woven (scope : ScopeId) (elements : List (Option Expr × Expr))
    (types : List TypeExpr) : (orderedFields scope elements types).Woven := by
  induction elements generalizing types with
  | nil => exact pure_woven []
  | cons e rest ih => cases types <;> grind [orderedFields]

@[grind ←]
theorem structLiteral_woven (def_ : StructDef) (types : List TypeExpr)
    (elements : List (Option Expr × Expr)) (scope : ScopeId) :
    (structLiteral def_ types elements scope).Woven := by
  grind [structLiteral]

@[grind ←]
theorem composite_woven (ty : TypeExpr) (elements : List (Option Expr × Expr)) (scope : ScopeId) :
    (composite ty elements scope).Woven := by
  unfold composite
  grind

/-! ## Expressions -/

@[grind ←]
theorem predeclared_woven (name : String) : (predeclared name).Woven := by
  unfold predeclared
  grind

@[grind ←]
theorem nameValue_woven (name : String) (scope : ScopeId) : (nameValue name scope).Woven := by
  grind [nameValue]

@[grind ←]
theorem packageName_woven (e : Expr) (scope : ScopeId) : (packageName? e scope).Woven := by
  unfold packageName?
  grind

@[grind ←]
theorem packageMember_woven (package name : String) : (packageMember package name).Woven := by
  unfold packageMember
  grind

@[grind ←]
theorem index_woven (v key : Value) : (index v key).Woven := by
  refine bind_woven (viewStore_woven _) fun v => ?_
  cases v <;> grind

@[grind ←]
theorem bound_woven (given : Option Int64) (default : Nat) :
    (bound given default).Woven := by
  cases given <;> grind [bound]

@[grind ←]
theorem slice_woven (v : Value) (low high : Option Int64) : (slice v low high).Woven := by
  refine bind_woven (viewStore_woven _) fun v => ?_
  cases v <;> grind

@[grind ←]
theorem boundOperand_woven (e : Option Expr) (scope : ScopeId) :
    (boundOperand e scope).Woven := by
  cases e <;> grind [boundOperand]

@[grind ←]
theorem pointerTo_woven (v : Value) : (pointerTo v).Woven := by
  unfold pointerTo
  grind

@[grind ←]
theorem address_woven (operand : Expr) (scope : ScopeId) : (address operand scope).Woven := by
  unfold address
  split
  · refine bind_woven (resolve_woven scope _) fun found => ?_
    cases found <;> grind
  · grind

@[grind ←]
theorem hasType_woven (v : Value) (ty : TypeExpr) : (hasType v ty).Woven := by grind [hasType]

@[grind ←]
theorem assertType_woven (v : Value) (ty : TypeExpr) : (assertType v ty).Woven := by
  unfold assertType
  grind

@[grind ←]
theorem single_woven (v : Value) : (single v).Woven := by
  unfold single
  grind

@[grind ←]
theorem arguments_woven (es : List Expr) (scope : ScopeId) : (arguments es scope).Woven := by
  unfold arguments
  grind

@[grind ←]
theorem appendedItems_woven (arguments : List Value) : (appendedItems arguments).Woven := by
  unfold appendedItems
  grind

@[grind ←]
theorem callBuiltin_woven (b : Builtin) (es : List Expr) (spread : Bool) (scope : ScopeId) :
    (callBuiltin b es spread scope).Woven := by
  unfold callBuiltin
  split
  · cases es with
    | nil => exact error_woven _
    | cons first sizes =>
        refine bind_woven (typeOperand_woven first) fun ty => bind_woven ?_ (make_woven ty)
        exact mapM_woven fun e => bind_woven (eval_woven e scope) asInt_woven
  · grind
  · grind

@[grind ←]
theorem conversion_woven (ty : TypeExpr) (es : List Expr) (scope : ScopeId) :
    (conversion ty es scope).Woven := by
  unfold conversion
  grind

@[grind ←]
theorem callValue_woven (callee : Expr) (es : List Expr) (spread : Bool) (scope : ScopeId) :
    (callValue callee es spread scope).Woven := by
  grind [callValue]

@[grind ←]
theorem callMember_woven (package name : String) (es : List Expr) (spread : Bool)
    (scope : ScopeId) : (callMember package name es spread scope).Woven := by
  grind [callMember]

@[grind ←]
theorem callName_woven (name : String) (es : List Expr) (spread : Bool) (scope : ScopeId) :
    (callName name es spread scope).Woven := by
  grind [callName]

@[grind ←]
theorem callSelected_woven (base : Expr) (name : String) (es : List Expr) (spread : Bool)
    (scope : ScopeId) : (callSelected base name es spread scope).Woven := by
  grind [callSelected]

@[grind ←]
theorem call_woven (callee : Expr) (es : List Expr) (spread : Bool) (scope : ScopeId) :
    (call callee es spread scope).Woven := by
  unfold call
  grind

@[grind ←]
theorem logical_woven (decisive : Bool) (left right : Expr) (scope : ScopeId) :
    (logical decisive left right scope).Woven := by
  grind [logical]

@[grind ←]
theorem selected_woven (base : Expr) (name : String) (scope : ScopeId) :
    (selected base name scope).Woven := by
  grind [selected]

@[grind ←]
theorem evaluate_woven (e : Expr) (scope : ScopeId) : (evaluate e scope).Woven := by
  unfold evaluate
  grind

end SandboxedGo.Eval

namespace SandboxedGo

open Source

namespace Eval

variable {jumps : Bool} {α β : Type}

/-! ## Operations that are one change -/

section

variable {ev : Evaluator} {m : Machine}

theorem changeGuest_run (f : Guest → Guest) :
    (changeGuest f).run ev m = .ok () { m with toGuest := f m.toGuest } := rfl

theorem viewStore_run (f : Store → α) : (viewStore f).run ev m = .ok (f m.store) m := rfl

end

theorem assignVariable_eq {name : String} (named : name ≠ "_") (v : Value) (scope : ScopeId) :
    assignVariable name v scope = (do
      match ← resolve? scope name with
      | none => error (.undefined name)
      | some _ => changeGuest (VariableChange.assign scope name v).apply) := by
  refine run_ext fun ev m => ?_
  rw [bind_run_ok (resolve_run scope name m)]
  cases declared : m.store.resolve? scope name with
  | none => rw [assignVariable, if_neg named, bind_run_ok (resolve_run scope name m), declared]
  | some found =>
      have changed : (VariableChange.assign scope name v).apply m.toGuest =
          { m.toGuest with
            store := m.store.setCell found.cell
              (storedOver found.width (m.store.cell found.cell) v) } := by
        simp [VariableChange.apply, VariableChange.onStore, declared]
      rw [assignVariable_run named declared v, changeGuest_run, changed]

theorem assignThrough_eq (c : CellId) (v : Value) :
    assignThrough (.ref c) v = changeGuest (VariableChange.pointee c v).apply :=
  run_ext fun _ _ => rfl

theorem bindEach_cons (scope : ScopeId) (p : Param) (params : List Param) (v : Value)
    (arguments : List Value) :
    bindEach scope (p :: params) (v :: arguments) = (do
      let v ← copied v
      match p.name with
      | some name => changeGuest (VariableChange.declare scope name p.type v).apply
      | none => pure ()
      bindEach scope params arguments) := by
  rw [bindEach]
  refine bind_congr fun v => run_ext fun ev m => ?_
  cases p.name <;> rfl

theorem assignResults_cons (scope : ScopeId) (name : String) (names : List String) (v : Value)
    (values : List Value) :
    assignResults scope (name :: names) (v :: values) = (do
      changeGuest (VariableChange.result scope name v).apply
      assignResults scope names values) := by
  refine run_ext fun ev m => ?_
  rw [assignResults, bind_run_ok (viewStore_run _), bind_run_ok (changeGuest_run _)]
  simp only [VariableChange.apply, VariableChange.onStore]
  cases m.store.localVariable? scope name <;> rfl

/-- A short declaration stores in a variable of the scope, or declares the name. -/
theorem defineNew_cons {name : String} (named : name ≠ "_") (scope : ScopeId)
    (names : List String) (v : Value) (values : List Value) (width : Option IntWidth)
    (widths : List (Option IntWidth)) (anyNew : Bool) :
    defineNew scope (name :: names) (v :: values) (width :: widths) anyNew = (do
      let v ← copied v
      match ← viewStore (·.localVariable? scope name) with
      | some _ =>
        changeGuest (VariableChange.redeclare scope name v).apply
        defineNew scope names values widths anyNew
      | none =>
        changeGuest (VariableChange.introduce scope name v width).apply
        defineNew scope names values widths true) := by
  rw [defineNew, if_neg named]
  refine bind_congr fun v => run_ext fun ev m => ?_
  rw [bind_run_ok (viewStore_run _), bind_run_ok (viewStore_run _)]
  cases declared : m.store.localVariable? scope name with
  | none => rfl
  | some found =>
      dsimp only
      rw [bind_run_ok (changeGuest_run _)]
      simp only [VariableChange.apply, VariableChange.onStore, declared]
      rfl

/-- The change that a declaration with or without a type makes for one of its names. -/
def declaration (scope : ScopeId) (ty : Option TypeExpr) (name : String) (v : Value) :
    VariableChange :=
  match ty with
  | some ty => .declare scope name ty v
  | none => .define scope name v

def declareEach (scope : ScopeId) (ty : Option TypeExpr) : List String → List Value → Eval Unit
  | name :: names, v :: values => do
    let v ← copied v
    changeGuest (declaration scope ty name v).apply
    declareEach scope ty names values
  | _, _ => pure ()

theorem defineEach_run (scope : ScopeId) (ty : Option TypeExpr) (names : List String)
    (values : List Value) (ev : Evaluator) (m : Machine) :
    (defineEach scope ty (ty.bind m.types.width?) names values).run ev m =
      (declareEach scope ty names values).run ev m := by
  induction names generalizing values m with
  | nil => rfl
  | cons name names ih =>
      cases values with
      | nil => rfl
      | cons v values =>
          rw [defineEach, declareEach, bind_run_ok (copied_run v ev m),
            bind_run_ok (copied_run v ev m), bind_run_ok (changeGuest_run _), ← ih]
          cases ty <;> rfl

/-! ## Calls -/

@[grind ←]
theorem bindEach_woven (scope : ScopeId) (params : List Param) (arguments : List Value) :
    (bindEach scope params arguments).Woven := by
  induction params generalizing arguments with
  | nil => exact pure_woven ()
  | cons p params ih => cases arguments <;> grind [bindEach, bindEach_cons]

@[grind ←]
theorem bindParameters_woven (f : FuncLit) (scope : ScopeId) (arguments : List Value)
    (spread : Bool) : (bindParameters f scope arguments spread).Woven := by
  have bound (arguments : List Value) : (do
      if arguments.length ≠ f.params.length then
        error (.argumentCount arguments.length f.params.length)
      bindEach scope f.params arguments : Eval Unit).Woven := by
    grind
  unfold bindParameters
  grind

@[grind ←]
theorem defineResults_woven (scope : ScopeId) (results : List Param) :
    (defineResults scope results).Woven := by
  induction results with
  | nil => exact pure_woven ()
  | cons r rest ih => grind [defineResults]

@[grind ←]
theorem assignResults_woven (scope : ScopeId) (names : List String) (values : List Value) :
    (assignResults scope names values).Woven := by
  induction names generalizing values with
  | nil => exact pure_woven ()
  | cons name names ih => cases values <;> grind [assignResults, assignResults_cons]

@[grind ←]
theorem localValue_woven (scope : ScopeId) (name : String) : (localValue scope name).Woven := by
  grind [localValue]

@[grind ←]
theorem namedValue_woven (scope : ScopeId) (names : List String) :
    (namedValue scope names).Woven := by
  grind [namedValue]

@[grind ←]
theorem adaptResults_woven (results : List Param) (v : Value) : (adaptResults results v).Woven := by
  unfold adaptResults
  grind

@[grind ←]
theorem returnedBy_woven (body : List Stmt) (scope : ScopeId) : (returnedBy body scope).Woven := by
  unfold returnedBy
  grind

@[grind ←]
theorem storeResults_woven (scope : ScopeId) (named : Option (List String))
    (returned : Option Value) : (storeResults scope named returned).Woven := by
  unfold storeResults
  grind

@[grind ←]
theorem runBody_woven (body : List Stmt) (scope : ScopeId) (named : Option (List String)) :
    (runBody body scope named).Woven := by
  grind [runBody]

@[grind ←]
theorem openScope_woven (f : FuncLit) (env : ScopeId) (receiver : Option (String × Value))
    (arguments : List Value) (spread : Bool) :
    (openScope f env receiver arguments spread).Woven := by
  unfold openScope
  grind

@[grind ←]
theorem resultValue_woven (f : FuncLit) (scope : ScopeId) (returned : Option Value) :
    (resultValue f scope returned).Woven := by
  unfold resultValue
  grind

@[grind ←]
theorem execution_woven (f : FuncLit) (env : ScopeId) (receiver : Option (String × Value))
    (arguments : List Value) (spread : Bool) :
    (execution f env receiver arguments spread).Woven :=
  invocation_woven (openScope_woven _ _ _ _ _) fun _ => runBody_woven _ _ _

@[grind ←]
theorem invoke_woven (f : FuncLit) (env : ScopeId) (receiver : Option (String × Value))
    (arguments : List Value) (spread : Bool) : (invoke f env receiver arguments spread).Woven := by
  grind [invoke]

@[grind ←]
theorem boundReceiver_woven (receiver : Receiver) (v : Value) :
    (boundReceiver receiver v).Woven := by
  cases v <;> grind [boundReceiver]

@[grind ←]
theorem invokeMethod_woven (decl : FuncDecl) (v : Value) (arguments : List Value)
    (spread : Bool) : (invokeMethod decl v arguments spread).Woven := by
  grind [invokeMethod]

@[grind ←]
theorem hostArgument_woven (name : String) (v : Value) : (hostArgument name v).Woven := by
  grind [hostArgument]

@[grind ←]
theorem invokeHost_woven (name : String) (place : Nat) (arguments : List Value) :
    (invokeHost name place arguments).Woven := by
  grind [invokeHost]

@[grind ←]
theorem apply_woven (function : Value) (arguments : List Value) (spread : Bool) :
    (apply function arguments spread).Woven := by
  unfold apply
  grind

/-! ## Assignments -/

@[grind ←]
theorem commaOk_woven (e : Expr) (scope : ScopeId) : (commaOk e scope).Woven := by
  unfold commaOk
  split
  · refine bind_woven (eval_woven _ scope) fun v => bind_woven (eval_woven _ scope) fun key => ?_
    cases v <;> grind
  · grind
  · exact error_woven _

@[grind ←]
theorem assigned_woven (targets : Nat) (scope : ScopeId) (e : Expr) :
    (assigned targets scope e).Woven := by
  unfold assigned
  grind

@[grind ←]
theorem rightSide_woven (es : List Expr) (targets : Nat) (scope : ScopeId) :
    (rightSide es targets scope).Woven := by
  unfold rightSide
  grind

@[grind ←]
theorem assignVariable_woven (name : String) (v : Value) (scope : ScopeId) :
    (assignVariable name v scope).Woven := by
  by_cases blank : name = "_"
  · rw [assignVariable, if_pos blank]
    exact pure_woven ()
  · grind [assignVariable_eq blank]

@[grind ←]
theorem assignElement_woven (container key v : Value) : (assignElement container key v).Woven := by
  refine bind_woven (viewStore_woven _) fun container => ?_
  cases container <;> grind

@[grind ←]
theorem assignField_woven (base : Value) (field : String) (v : Value) :
    (assignField base field v).Woven := by
  rw [assignField_eq]
  grind

@[grind ←]
theorem assignThrough_woven (pointer v : Value) : (assignThrough pointer v).Woven := by
  cases pointer with
  | ref c => exact assignThrough_eq c v ▸ change_woven _
  | _ =>
      unfold assignThrough
      grind

@[grind ←]
theorem assign_woven (target : Expr) (v : Value) (scope : ScopeId) :
    (assign target v scope).Woven := by
  unfold assign
  grind

@[grind ←]
theorem assignEach_woven (scope : ScopeId) (targets : List Expr) (values : List Value) :
    (assignEach scope targets values).Woven := by
  induction targets generalizing values with
  | nil => exact pure_woven ()
  | cons target targets ih => cases values <;> grind [assignEach]

/-! ## Declarations -/

@[grind ←]
theorem zeroValues_woven (ty : TypeExpr) (names : List String) : (zeroValues ty names).Woven := by
  induction names with
  | nil => exact pure_woven []
  | cons name rest ih => grind [zeroValues]

@[grind ←]
theorem declareEach_woven (scope : ScopeId) (ty : Option TypeExpr) (names : List String)
    (values : List Value) : (declareEach scope ty names values).Woven := by
  induction names generalizing values with
  | nil => exact pure_woven ()
  | cons name names ih => cases values <;> grind [declareEach]

theorem declaredValues_woven (spec : ValueSpec) (isConstant : Bool) (scope : ScopeId)
    {rest : List Value → Eval Unit} (woven : ∀ values, (rest values).Woven) : (do
      let values ←
        if spec.values.isEmpty then
          match spec.type with
          | none => error .missingInitializer
          | some ty => zeroValues ty spec.names
        else if isConstant then do
          let inner ← newScope scope
          define inner "iota" (.int (Int64.ofNat spec.iota)) none
          rightSide spec.values spec.names.length inner
        else rightSide spec.values spec.names.length scope
      rest values).Woven := by
  grind

@[grind ←]
theorem declare_woven (spec : ValueSpec) (isConstant : Bool) (scope : ScopeId) :
    (declare spec isConstant scope).Woven := by
  refine bind_woven (setLine_woven _) fun _ => ?_
  refine declaredValues_woven spec isConstant scope fun values => ?_
  refine woven_of_run (y := declareEach scope spec.type spec.names values) (fun ev m => ?_)
    (declareEach_woven _ _ _ _)
  rw [← defineEach_run]
  cases spec.type <;> rfl

@[grind ←]
theorem conversionWidth_woven (scope : ScopeId) (e : Expr) : (conversionWidth? scope e).Woven := by
  unfold conversionWidth?
  grind

@[grind ←]
theorem defineNew_woven (scope : ScopeId) (names : List String) (values : List Value)
    (widths : List (Option IntWidth)) (anyNew : Bool) :
    (defineNew scope names values widths anyNew).Woven := by
  induction names generalizing values widths anyNew with
  | nil => exact pure_woven anyNew
  | cons name names ih =>
      match values, widths with
      | [], _ | _ :: _, [] => exact pure_woven anyNew
      | v :: values, width :: widths =>
          by_cases blank : name = "_"
          · rw [defineNew, if_pos blank]
            exact ih values widths anyNew
          · rw [defineNew_cons blank]
            grind

@[grind ←]
theorem defineShort_woven (names : List String) (es : List Expr) (scope : ScopeId) :
    (defineShort names es scope).Woven := by
  unfold defineShort
  grind

/-! ## Loops -/

@[grind ←]
theorem loopBody_woven (body : List Stmt) (scope : ScopeId) : (loopBody body scope).Woven := by
  unfold loopBody
  grind

@[grind ←]
theorem condition_woven (e : Option Expr) (scope : ScopeId) : (condition e scope).Woven := by
  cases e <;> grind [condition]

@[grind ←]
theorem renewVariables_woven (scope next : ScopeId) (names : List String) :
    (renewVariables scope next names).Woven := by
  induction names with
  | nil => exact pure_woven ()
  | cons name rest ih => grind [renewVariables]

theorem onward_woven (post : Option Stmt) (next : ScopeId) :
    (do
      match post with
      | some s => Flow.exec s next
      | none => pure ()
      return some next : Flow (Option ScopeId)).Woven := by
  cases post <;> grind

@[grind ←]
theorem round_woven (names : List String) (test : Option Expr) (post : Option Stmt)
    (body : List Stmt) (scope inner : ScopeId) :
    (round names test post body scope inner).Woven := by
  refine bind_woven (undertake_woven _ (pure_woven _)) fun _ => ?_
  refine bind_woven (condition_woven test inner) fun holds => ?_
  cases holds
  · exact pure_woven _
  · refine bind_woven (newScope_woven inner) fun body => ?_
    refine bind_woven (loopBody_woven _ _) fun goes => ?_
    cases goes
    · exact pure_woven _
    · by_cases unnamed : names.isEmpty
      · rw [if_pos unnamed]
        exact onward_woven post inner
      · rw [if_neg unnamed]
        refine bind_woven (newScope_woven scope) fun next => ?_
        exact bind_woven (renewVariables_woven inner next names) fun _ => onward_woven post next

@[grind ←]
theorem execOptional_woven (s : Option Stmt) (scope : ScopeId) : (execOptional s scope).Woven := by
  cases s <;> grind [execOptional]

@[grind ←]
theorem forLoop_woven (init : Option Stmt) (test : Option Expr) (post : Option Stmt)
    (body : List Stmt) (scope : ScopeId) : (forLoop init test post body scope).Woven := by
  grind [forLoop]

namespace RangeLoop

variable (l : RangeLoop)

@[grind ←]
theorem declareName_woven (inner : ScopeId) (target : Option Expr) (v : Value) :
    (declareName inner target v).Woven := by
  unfold declareName
  grind

@[grind ←]
theorem assignTarget_woven (target : Option Expr) (v : Value) :
    (l.assignTarget target v).Woven := by
  cases target <;> grind [assignTarget]

@[grind ←]
theorem round_woven (key value : Value) : (l.round key value).Woven := by
  unfold round
  grind

@[grind ←]
theorem overElements_woven (items : SliceView) (left place : Nat) :
    (l.overElements items left place).Woven := by
  induction left generalizing place with
  | zero => exact pure_woven ()
  | succ left ih => grind [overElements]

@[grind ←]
theorem overEntries_woven (entries : Option MapId) (pairs : List (MapKey × Value)) :
    (l.overEntries entries pairs).Woven := by
  induction pairs with
  | nil => exact pure_woven ()
  | cons pair rest ih =>
      obtain ⟨key, v⟩ := pair
      grind [overEntries]

@[grind ←]
theorem overChars_woven (place : Nat) (chars : List Char) : (l.overChars place chars).Woven := by
  induction chars generalizing place with
  | nil => exact pure_woven ()
  | cons c rest ih => grind [overChars]

@[grind ←]
theorem overNumbers_woven (left : Nat) (n : Int64) : (l.overNumbers left n).Woven := by
  induction left generalizing n with
  | zero => exact pure_woven ()
  | succ left ih => grind [overNumbers]

@[grind ←]
theorem run_woven (subject : Value) : (l.run subject).Woven := by
  unfold run
  grind

end RangeLoop

/-! ## Switches -/

@[grind ←]
theorem anyHit_woven (tag : Option Value) (scope : ScopeId) (es : List Expr) :
    (anyHit tag scope es).Woven := by
  induction es with
  | nil => exact pure_woven false
  | cons e rest ih => cases tag <;> grind [anyHit]

@[grind ←]
theorem hitCases_woven (tag : Option Value) (scope : ScopeId) (cases_ : List SwitchCase) :
    (hitCases tag scope cases_).Woven := by
  induction cases_ with
  | nil => exact pure_woven []
  | cons c rest ih => grind [hitCases]

@[grind ←]
theorem caseBody_woven (body : List Stmt) (scope : ScopeId) : (caseBody body scope).Woven := by
  unfold caseBody
  grind

@[grind ←]
theorem runCases_woven (scope : ScopeId) (cases_ : List SwitchCase) :
    (runCases scope cases_).Woven := by
  induction cases_ with
  | nil => exact pure_woven ()
  | cons c rest ih => grind [runCases]

@[grind ←]
theorem switch_woven (init : Option Stmt) (tag : Option Expr) (cases_ : List SwitchCase)
    (scope : ScopeId) : (switch init tag cases_ scope).Woven := by
  unfold switch
  grind

@[grind ←]
theorem caseValue_woven (c : TypeCase) (v : Value) : (caseValue c v).Woven := by
  unfold caseValue
  grind

theorem chosenCase_woven (binding : Option String) (inner : ScopeId)
    (chosen : Option (TypeCase × Value)) :
    (do
      match chosen with
      | none => return
      | some (c, bound) =>
        let body ← newScope inner
        match binding with
        | some name => define body name bound none
        | none => pure ()
        let _ ← caseBody c.body body : Flow Unit).Woven := by
  cases binding <;> grind

@[grind ←]
theorem typeSwitch_woven (init : Option Stmt) (binding : Option String) (subject : Expr)
    (cases_ : List TypeCase) (scope : ScopeId) :
    (typeSwitch init binding subject cases_ scope).Woven := by
  refine bind_woven (newScope_woven scope) fun inner => ?_
  refine bind_woven (execOptional_woven init inner) fun _ => ?_
  refine bind_woven (eval_woven subject inner) fun v => ?_
  refine bind_woven (lift_woven (view_woven _)) fun answer => ?_
  refine bind_woven (lift_woven (ofWalk_woven answer)) fun found => ?_
  cases found with
  | some c =>
      refine bind_woven (caseValue_woven c v) fun bound => ?_
      exact chosenCase_woven binding inner (some (c, bound))
  | none => exact chosenCase_woven binding inner _

/-! ## Other statements -/

@[grind ←]
theorem defer_woven (e : Expr) (scope : ScopeId) : (defer e scope).Woven := by
  have putOff (es : List Expr) (spread : Bool) (function : Value) : (do
      let given ← arguments es scope
      Eval.putOff function (← if spread then expandSpread given else pure given)).Woven := by
    grind
  cases e with
  | call callee es spread =>
      cases callee with
      | select base name =>
          refine bind_woven (packageName_woven base scope) fun package => ?_
          cases package with
          | some package => exact bind_woven (eval_woven _ scope) (putOff es spread)
          | none =>
              refine bind_woven (eval_woven base scope) fun base => ?_
              exact bind_woven (methodValue_woven base name) (putOff es spread)
      | _ => exact bind_woven (eval_woven _ scope) (putOff es spread)
  | _ => exact error_woven _

@[grind ←]
theorem stepped_woven (up : Bool) (v : Value) : (stepped up v).Woven := by
  unfold stepped
  grind

@[grind ←]
theorem returned_woven (es : List Expr) (scope : ScopeId) : (returned es scope).Woven := by
  unfold returned
  grind

@[grind ←]
theorem branch_woven (init : Option Stmt) (test : Expr) (body : List Stmt)
    (otherwise : Option Stmt) (scope : ScopeId) :
    (branch init test body otherwise scope).Woven := by
  grind [branch]

@[grind ←]
theorem execute_woven (s : Stmt) (scope : ScopeId) : (execute s scope).Woven := by
  refine bind_woven (setLine_woven _) fun _ => ?_
  refine bind_woven (undertake_woven _ (pure_woven _)) fun _ => ?_
  cases s.kind <;> grind

/-! ## Programs -/

@[grind ←]
theorem importPackage_woven (i : Import) : (importPackage i).Woven := by
  have put (name : String) (p : Library.Package) :
      (changeGuest fun g => { g with imports := g.imports.put name p }).Woven :=
    changeGuest_woven fun _ => .refl _
  unfold importPackage
  split
  · exact error_woven _
  · dsimp only
    split
    · exact pure_woven ()
    · split
      · exact bind_woven (error_woven _) fun _ => put _ _
      · exact put _ _

@[grind ←]
theorem declareTypes_woven (d : Decl) : (declareTypes d).Woven := by
  unfold declareTypes
  grind

@[grind ←]
theorem declareMethod_woven (type : String) (decl : FuncDecl) : (declareMethod type decl).Woven :=
  changeGuest_woven fun _ => .refl _

@[grind ←]
theorem declareFunction_woven (d : Decl) : (declareFunction d).Woven := by
  unfold declareFunction
  grind

@[grind ←]
theorem lendFunctions_woven (place : Nat) (functions : List HostFunction) :
    (lendFunctions place functions).Woven := by
  induction functions generalizing place with
  | nil => exact pure_woven ()
  | cons f rest ih => grind [lendFunctions]

@[grind ←]
theorem declareValues_woven (d : Decl) : (declareValues d).Woven := by
  unfold declareValues
  grind

@[grind ←]
theorem start_woven (decl : FuncDecl) : (start decl).Woven := by grind [start]

theorem program_woven (hostFunctions : List HostFunction) (p : Program) :
    (program hostFunctions p).Woven := by
  have loaded : (do
      p.imports.forM importPackage
      p.decls.forM declareTypes
      let inits ← p.decls.filterMapM declareFunction
      lendFunctions 0 hostFunctions
      p.decls.forM declareValues
      inits.forM start
      match ← viewStore (·.localVariable? globalScope "main") with
      | none => error .missingMain
      | some found =>
        let _ ← callFunction (← readCell found.cell) [] : Eval Unit).Woven := by
    refine bind_woven (forM_woven importPackage_woven) fun _ => ?_
    refine bind_woven (forM_woven declareTypes_woven) fun _ => ?_
    refine bind_woven (filterMapM_woven declareFunction_woven) fun inits => ?_
    refine bind_woven (lendFunctions_woven 0 hostFunctions) fun _ => ?_
    refine bind_woven (forM_woven declareValues_woven) fun _ => ?_
    refine bind_woven (forM_woven start_woven) fun _ => ?_
    refine bind_woven (viewStore_woven _) fun found => ?_
    cases found <;> grind
  unfold program
  split
  · exact bind_woven (error_woven _) fun _ => loaded
  · exact loaded

end Eval

/-! ## Runs -/

theorem Work.step_woven (w : Work) : w.step.Woven := by
  cases w <;> grind [Work.step]

/-- Work goes through steps, however deep it may be nested. -/
theorem Work.exists_passes (depth : Nat) (w : Work) (m : Machine) :
    ∃ steps, Action.Passes (Action.begin_ (perform depth) w) m steps := by
  induction depth generalizing w m with
  | zero => exact ⟨[], .tooDeep w m⟩
  | succ depth ih =>
      obtain ⟨steps, passes⟩ := @Weave.exists_passes _ _ w.step_woven (.ofDepth depth) ih m.working
      exact ⟨steps, .begins passes⟩

theorem Computation.Woven.exists_passes {jumps : Bool} {α : Type} {x : Computation jumps α}
    (woven : x.Woven) (depth : Nat) (m : Machine) :
    ∃ steps, Action.Passes (x.run (.ofDepth depth)) m steps :=
  @Weave.exists_passes _ _ woven (.ofDepth depth) (Work.exists_passes depth) m

end SandboxedGo
