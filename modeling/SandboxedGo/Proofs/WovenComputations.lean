import SandboxedGo.Eval.Methods
import SandboxedGo.Eval.Operators
import SandboxedGo.Proofs.Weaving

/-!
# Woven computations

Rules for weaving computations together, and the parts of evaluation that other parts are made of.
A computation is woven as soon as its parts are; the rules are given to `grind`, which takes a
computation apart along its binds and case distinctions.  Only computations that change variables
need more: there the change has to be told.
-/

set_option autoImplicit false

namespace SandboxedGo

open Source

/-! ## Changes that leave the variables alone -/

namespace Store

theorem sameVariables_append (view : SliceView) (items : List Value) (limit : Nat) (s : Store) :
    SameVariables s (s.append view items limit).2 := by
  unfold append
  dsimp only
  split
  · exact .refl s
  · split
    · exact ⟨rfl, rfl, Nat.le_refl _⟩
    · exact ⟨rfl, rfl, Nat.le_refl _⟩

theorem sameVariables_setElement (view : SliceView) (i : Nat) (v : Value) (s : Store) :
    SameVariables s (s.setElement view i v) := by
  unfold setElement
  split
  · exact ⟨rfl, rfl, Nat.le_refl _⟩
  · exact .refl s

theorem sameVariables_mapInserts (m : MapId) (entries : List (String × Value)) (s : Store) :
    SameVariables s (entries.foldl (fun s e => s.mapInsert m (.string e.1) e.2) s) := by
  induction entries generalizing s with
  | nil => exact .refl s
  | cons e rest ih =>
      have inserted : SameVariables s (s.mapInsert m (.string e.1) e.2) :=
        ⟨rfl, rfl, Nat.le_refl _⟩
      exact inserted.trans (ih _)

end Store

namespace Json

mutual

theorem sameVariables_toValue (j : Json) (s : Store) : SameVariables s (j.toValue s).2 := by
  cases j with
  | null | bool b | int n | float f | string t =>
      unfold toValue
      exact .refl s
  | array items =>
      unfold toValue
      exact (sameVariables_toValues items s).trans ⟨rfl, rfl, Nat.le_refl _⟩
  | object entries =>
      unfold toValue
      have made : SameVariables (toEntries entries s).2 (toEntries entries s).2.newMap.2 :=
        ⟨rfl, rfl, Nat.le_refl _⟩
      exact ((sameVariables_toEntries entries s).trans made).trans
        (Store.sameVariables_mapInserts _ _ _)

theorem sameVariables_toValues (items : List Json) (s : Store) :
    SameVariables s (toValues items s).2 := by
  cases items with
  | nil =>
      unfold toValues
      exact .refl s
  | cons j rest =>
      unfold toValues
      exact (sameVariables_toValue j s).trans (sameVariables_toValues rest _)

theorem sameVariables_toEntries (entries : List (String × Json)) (s : Store) :
    SameVariables s (toEntries entries s).2 := by
  cases entries with
  | nil =>
      unfold toEntries
      exact .refl s
  | cons e rest =>
      obtain ⟨key, j⟩ := e
      unfold toEntries
      exact (sameVariables_toValue j s).trans (sameVariables_toEntries rest _)

end

end Json

namespace Eval

variable {jumps inside : Bool} {α β : Type}

/-! ## Rules -/

theorem woven_of_run {x y : Computation jumps α} (same : ∀ ev m, x.run ev m = y.run ev m)
    (woven : y.Woven) : x.Woven := by
  have runs : x.run = y.run := funext fun ev => funext fun m => same ev m
  unfold Computation.Woven
  rw [runs]
  exact woven

@[grind ←]
theorem pure_woven (a : α) : (pure a : Computation jumps α).Woven := .still (.pure a)

@[grind ←]
theorem bind_woven {x : Computation jumps α} {f : α → Computation jumps β} (first : x.Woven)
    (rest : ∀ a, (f a).Woven) : (x >>= f).Woven := .bind first rest

@[grind ←]
theorem map_woven {f : α → β} {x : Computation jumps α} (woven : x.Woven) : (f <$> x).Woven :=
  bind_woven woven fun a => pure_woven (f a)

theorem either_woven {c : Prop} [Decidable c] {x y : Computation jumps α}
    {f : α → Computation jumps β} (first : x.Woven) (second : y.Woven)
    (rest : ∀ a, (f a).Woven) : (if c then x >>= f else y >>= f).Woven := by
  split
  · exact bind_woven first rest
  · exact bind_woven second rest

@[grind ←]
theorem lift_woven {x : Eval α} (woven : x.Woven) : (liftM x : Flow α).Woven := woven

@[grind ←]
theorem view_woven (f : Guest → α) : (view f).Woven := .still (.view f)

@[grind ←]
theorem viewStore_woven (f : Store → α) : (viewStore f).Woven := view_woven _

@[grind ←]
theorem error_woven (cause : RuntimeError) : (error cause : Eval α).Woven := .still (.raise _)

@[grind ←]
theorem panic_woven (cause : Panic) : (panic cause : Eval α).Woven := .still (.raise _)

@[grind ←]
theorem flowRaise_woven (s : Signal) : (Flow.raise s : Flow α).Woven := .still (.raise s)

@[grind ←]
theorem flowOfExcept_woven (r : Except Signal α) : (Flow.ofExcept r).Woven := by
  cases r with
  | ok a => exact pure_woven a
  | error s => exact flowRaise_woven s

@[grind ←]
theorem ofExcept_woven (r : Except Fault α) : (ofExcept r).Woven := by
  cases r with
  | ok a => exact pure_woven a
  | error s => exact .still (.raise _)

@[grind ←]
theorem ofWalk_woven (answer : Option α) : (ofWalk answer).Woven := by
  cases answer with
  | some a => exact pure_woven a
  | none => exact .still (.halt _)

@[grind ←]
theorem walkStore_woven (f : Store → Option α) : (walkStore f).Woven := by grind [walkStore]

@[grind ←]
theorem exit_woven (code : Int) : (exit code : Eval α).Woven := .still (.halt _)

@[grind ←]
theorem outcome_woven {x : Computation inside α} (inner : x.Woven) : (outcome x).Woven :=
  .outcome inner

@[grind ←]
theorem maxAlloc_woven : maxAlloc.Woven := .still .maxAlloc

@[grind ←]
theorem addressOf_woven (p : Pointee) : (addressOf p).Woven := .still (.addressOf p)

@[grind ←]
theorem tick_woven : tick.Woven := .still .tick

@[grind ←]
theorem write_woven (stream : Library.Stream) (text : String) : (write stream text).Woven :=
  .still (.write stream text)

@[grind ←]
theorem undertake_woven (u : Undertaking) {ready : Eval Unit} (first : ready.Woven) :
    (undertake u ready).Woven :=
  .paid first fun _ => .undertake u

@[grind ←]
theorem askHost_woven (name : String) (place : Nat) {arguments : Eval (List Json)}
    (first : arguments.Woven) : (askHost name place arguments).Woven :=
  .paid first fun arguments => .askHost name place arguments

@[grind ←]
theorem loop_woven {σ : Type} {round : σ → Computation jumps (Option σ)}
    (inner : ∀ s, (round s).Woven) (s : σ) : (loop round s).Woven :=
  .loop inner s

@[grind ←]
theorem invocation_woven {opening : Eval α} {body : α → Flow (Option Value)}
    (first : opening.Woven) (rest : ∀ a, (body a).Woven) : (invocation opening body).Woven :=
  .invocation first rest

@[grind ←]
theorem putOff_woven (function : Value) (arguments : List Value) :
    (putOff function arguments).Woven := .still (.putOff function arguments)

@[grind ←]
theorem recover_woven : recover.Woven := .still .recover

@[grind ←]
theorem perform_woven (w : Work) (calm : w.isStatement = false) : (perform w calm).Woven :=
  .perform w

@[grind ←]
theorem exec_woven (s : Stmt) (scope : ScopeId) : (Flow.exec s scope).Woven :=
  .bind (.perform (.execute s scope)) fun _ => .still (.pure ())

@[grind ←]
theorem mapM_woven {γ : Type} {f : γ → Eval α} {items : List γ} (each : ∀ a, (f a).Woven) :
    (items.mapM f).Woven := by
  induction items with
  | nil => exact pure_woven []
  | cons item rest ih =>
      rw [List.mapM_cons]
      exact bind_woven (each item) fun a => bind_woven ih fun _ => pure_woven _

@[grind ←]
theorem forM_woven {γ : Type} {f : γ → Eval Unit} {items : List γ} (each : ∀ a, (f a).Woven) :
    (items.forM f).Woven := by
  induction items with
  | nil => exact pure_woven ()
  | cons item rest ih => exact bind_woven (each item) fun _ => ih

@[grind ←]
theorem filterMapM_woven {γ : Type} {f : γ → Eval (Option α)} {items : List γ}
    (each : ∀ a, (f a).Woven) : (items.filterMapM f).Woven := by
  induction items with
  | nil => exact pure_woven []
  | cons item rest ih =>
      rw [List.filterMapM_cons]
      refine bind_woven (each item) fun found => ?_
      cases found with
      | none => exact ih
      | some a => exact bind_woven ih fun _ => pure_woven _

/-! ## Changes -/

theorem onGuest_woven {f : Guest → α × Guest} {change : Option VariableChange}
    (moves : Action.Moves f change) : (onGuest f).Woven :=
  .moves moves

theorem changeGuest_woven {f : Guest → Guest} (same : ∀ g, SameVariables g.store (f g).store) :
    (changeGuest f).Woven :=
  onGuest_woven (.other same)

theorem changeStore_woven {f : Store → Store} (same : ∀ s, SameVariables s (f s)) :
    (changeStore f).Woven :=
  changeGuest_woven fun g => same g.store

theorem onStore_woven {f : Store → α × Store} (same : ∀ s, SameVariables s (f s).2) :
    (onStore f).Woven :=
  onGuest_woven (.other fun g => same g.store)

@[grind ←]
theorem change_woven (c : VariableChange) : (changeGuest c.apply).Woven :=
  onGuest_woven (.change c fun _ => rfl)

@[grind ←]
theorem newScope_woven (parent : ScopeId) : (newScope parent).Woven :=
  onGuest_woven (.change (.newScope parent) fun _ => rfl)

@[grind ←]
theorem newCell_woven (v : Value) : (onStore (·.newCell v)).Woven :=
  onGuest_woven (.change (.newCell v) fun _ => rfl)

@[grind ←]
theorem define_woven (scope : ScopeId) (name : String) (v : Value) :
    (define scope name v none).Woven :=
  change_woven (.define scope name v)

@[grind ←]
theorem setFieldAt_woven (o : StructId) (place : Nat) (v : Value) :
    (changeStore (·.setFieldAt o place v)).Woven :=
  changeStore_woven fun s => sameVariables_modifyStruct s _ _

@[grind ←]
theorem setFields_woven (o : StructId) (fields : Array Value) :
    (changeStore (·.setFields o fields)).Woven :=
  changeStore_woven fun s => sameVariables_modifyStruct s _ _

@[grind ←]
theorem setElement_woven (view : SliceView) (i : Nat) (v : Value) :
    (changeStore (·.setElement view i v)).Woven :=
  changeStore_woven (Store.sameVariables_setElement view i v)

@[grind ←]
theorem mapInsert_woven (m : MapId) (key : MapKey) (v : Value) :
    (changeStore (·.mapInsert m key v)).Woven :=
  changeStore_woven fun _ => ⟨rfl, rfl, Nat.le_refl _⟩

@[grind ←]
theorem mapErase_woven (m : MapId) (key : MapKey) : (changeStore (·.mapErase m key)).Woven :=
  changeStore_woven fun _ => ⟨rfl, rfl, Nat.le_refl _⟩

@[grind ←]
theorem mapClear_woven (m : MapId) : (changeStore (·.mapClear m)).Woven :=
  changeStore_woven fun _ => ⟨rfl, rfl, Nat.le_refl _⟩

@[grind ←]
theorem append_woven (view : SliceView) (items : List Value) (limit : Nat) :
    (onStore (·.append view items limit)).Woven :=
  onStore_woven (Store.sameVariables_append view items limit)

@[grind ←]
theorem storeSlice_woven (items : Array Value) : (onStore (·.newSlice items)).Woven :=
  onStore_woven fun _ => ⟨rfl, rfl, Nat.le_refl _⟩

@[grind ←]
theorem storeMap_woven : (onStore Store.newMap).Woven :=
  onStore_woven fun _ => ⟨rfl, rfl, Nat.le_refl _⟩

@[grind ←]
theorem storeStruct_woven (type : StructDef) (fields : Array Value) :
    (onStore (·.newStruct type fields)).Woven :=
  onStore_woven (Store.sameVariables_newStruct type fields)

@[grind ←]
theorem toValue_woven (j : Json) : (onStore j.toValue).Woven :=
  onStore_woven j.sameVariables_toValue

@[grind ←]
theorem setLine_woven (line : Nat) : (setLine line).Woven := changeGuest_woven fun _ => .refl _

@[grind ←]
theorem freshId_woven : freshId.Woven := onGuest_woven (.other fun _ => .refl _)

@[grind ←]
theorem copied_woven (v : Value) : (copied v).Woven := by
  unfold copied
  split
  · exact onStore_woven fun s => (Store.extends_copied v s).sameVariables
  · exact pure_woven v

/-! ## Basic computations -/

@[grind ←]
theorem eval_woven (e : Expr) (scope : ScopeId) : (eval e scope).Woven := perform_woven _ _

@[grind ←]
theorem callFunction_woven (function : Value) (arguments : List Value) :
    (callFunction function arguments).Woven := perform_woven _ _

@[grind ←]
theorem callMethodDecl_woven (decl : FuncDecl) (receiver : Value) (arguments : List Value)
    (spread : Bool) : (callMethodDecl decl receiver arguments spread).Woven := perform_woven _ _

@[grind ←]
theorem block_woven (body : List Stmt) (scope : ScopeId) : (block body scope).Woven := by
  induction body with
  | nil => exact pure_woven ()
  | cons s rest ih => exact bind_woven (exec_woven s scope) fun _ => ih

@[grind ←]
theorem checkAlloc_woven (size : Nat) (cause : Panic) : (checkAlloc size cause).Woven := by
  grind [checkAlloc]

@[grind ←]
theorem newError_woven (message : String) (wrapped : Option Value) :
    (newError message wrapped).Woven := by
  grind [newError]

@[grind ←]
theorem resolve_woven (scope : ScopeId) (name : String) : (resolve? scope name).Woven :=
  viewStore_woven _

@[grind ←]
theorem readCell_woven (c : CellId) : (readCell c).Woven := viewStore_woven _

@[grind ←]
theorem newSlice_woven (items : List Value) : (newSlice items).Woven := by grind [newSlice]

@[grind ←]
theorem nilSlice_woven : nilSlice.Woven := by grind [nilSlice]

@[grind ←]
theorem newMap_woven (zero : Value) : (newMap zero).Woven := by grind [newMap]

@[grind ←]
theorem newStruct_woven (type : StructDef) (fields : List Value) :
    (newStruct type fields).Woven := by
  grind [newStruct]

@[grind ←]
theorem newRef_woven (v : Value) : (newRef v).Woven := by grind [newRef]

@[grind ←]
theorem elements_woven (view : SliceView) : (elements view).Woven := viewStore_woven _

/-! ## Reading values -/

@[grind ←]
theorem typeName_woven (v : Value) : (typeName v).Woven := walkStore_woven _

@[grind ←]
theorem copiedAll_woven (values : List Value) : (copiedAll values).Woven := mapM_woven copied_woven

@[grind ←]
theorem adapt_woven (ty : TypeExpr) (v : Value) : (adapt ty v).Woven := view_woven _

@[grind ←]
theorem asBool_woven (v : Value) : (asBool v).Woven := by cases v <;> grind [asBool]

@[grind ←]
theorem asInt_woven (v : Value) : (asInt v).Woven := by cases v <;> grind [asInt]

@[grind ←]
theorem asFloat_woven (v : Value) : (asFloat v).Woven := by cases v <;> grind [asFloat]

@[grind ←]
theorem asString_woven (v : Value) : (asString v).Woven := by cases v <;> grind [asString]

@[grind ←]
theorem asInts_woven (values : List Value) : (asInts values).Woven := mapM_woven asInt_woven

@[grind ←]
theorem asStrings_woven (values : List Value) : (asStrings values).Woven :=
  mapM_woven asString_woven

@[grind ←]
theorem asKey_woven (v : Value) : (asKey v).Woven := by grind [asKey]

@[grind ←]
theorem asIndex_woven (v : Value) (length : Nat) : (asIndex v length).Woven := by grind [asIndex]

@[grind ←]
theorem equal_woven (v w : Value) : (equal v w).Woven := by grind [equal]

@[grind ←]
theorem expandSpread_woven (arguments : List Value) : (expandSpread arguments).Woven := by
  unfold expandSpread
  grind

@[grind ←]
theorem byteSlice_woven (text : String) : (byteSlice text).Woven := newSlice_woven _

/-! ## Zero values -/

@[grind ←]
theorem qualifiedName_woven (package name : String) : (qualifiedName package name).Woven := by
  grind [qualifiedName]

@[grind ←]
theorem freshStructDef_woven (name : String) (fields : List FieldDecl) :
    (freshStructDef name fields).Woven := by
  grind [freshStructDef]

@[grind ←]
theorem declareType_woven (spec : TypeSpec) : (declareType spec).Woven := by
  have put (decl : TypeDecl) :
      (changeGuest fun g => { g with types := g.types.put spec.name decl }).Woven :=
    changeGuest_woven fun _ => .refl _
  unfold declareType
  split
  · exact bind_woven (freshStructDef_woven _ _) fun _ => put _
  · exact put _

@[grind ←]
theorem repeated_woven (count : Nat) {x : Eval Value} (woven : x.Woven) (acc : Array Value) :
    (repeated count x acc).Woven := by
  induction count generalizing acc with
  | zero => exact pure_woven acc
  | succ n ih => exact bind_woven woven fun v => ih (acc.push v)

@[grind ←]
theorem zeros_woven (count : Nat) {zero : Eval Value} (woven : zero.Woven) :
    (zeros count zero).Woven := by
  cases count <;> grind [zeros]

@[grind ←]
theorem zeroWithin_woven (levels : Nat) (ty : TypeExpr) : (zeroWithin levels ty).Woven := by
  induction levels generalizing ty with
  | zero => exact error_woven _
  | succ levels ih =>
      have fields (types : List TypeExpr) : (types.mapM (zeroWithin levels)).Woven :=
        mapM_woven ih
      cases ty <;> grind [zeroWithin]

@[grind ←]
theorem zeroValue_woven (ty : TypeExpr) : (zeroValue ty).Woven := zeroWithin_woven _ ty

/-! ## Operators -/

@[grind ←]
theorem refuseOperands_woven (op : BinaryOp) (a b : Value) : (refuseOperands op a b).Woven := by
  grind [refuseOperands]

@[grind ←]
theorem binary_woven (op : BinaryOp) (a b : Value) : (binary op a b).Woven := by
  unfold binary
  grind

@[grind ←]
theorem unary_woven (op : UnaryOp) (v : Value) : (unary op v).Woven := by
  unfold unary
  grind

/-! ## Fields and methods -/

@[grind ←]
theorem missing_woven (v : Value) (name : String) : (missing v name : Eval α).Woven := by
  grind [missing]

@[grind ←]
theorem appendBuilt_woven (o : StructId) (text : String) : (appendBuilt o text).Woven :=
  changeStore_woven fun s => sameVariables_modifyStruct s _ _

@[grind ←]
theorem builderMethod_woven (o : StructId) (name : String) (arguments : List Value) :
    (builderMethod o name arguments).Woven := by
  have appended (text : String) (v : Value) :
      (do appendBuilt o text; return v : Eval Value).Woven :=
    bind_woven (appendBuilt_woven o text) fun _ => pure_woven v
  refine bind_woven (viewStore_woven _) fun current => ?_
  refine either_woven (checkAlloc_woven _ _) (pure_woven ()) fun _ => ?_
  cases builderRequest? name arguments with
  | none => exact error_woven _
  | some request =>
      cases request with
      | append text count => exact appended text _
      | appendBytes view =>
          exact bind_woven (elements_woven view) fun _ => bind_woven (asInts_woven _) fun _ =>
            appended _ _
      | text => exact pure_woven _
      | length => exact pure_woven _
      | reset =>
          exact bind_woven (changeStore_woven fun s => sameVariables_modifyStruct s _ _)
            fun _ => pure_woven _
      | grow => exact pure_woven _

@[grind ←]
theorem methodValue_woven (v : Value) (name : String) : (methodValue v name).Woven := by
  unfold methodValue
  grind

@[grind ←]
theorem select_woven (v : Value) (name : String) : (select v name).Woven := by
  refine bind_woven (viewStore_woven _) fun v => ?_
  cases v <;> grind

@[grind ←]
theorem callMethodWithin_woven (name : String) (arguments : List Value) (spread : Bool)
    (depth : Nat) (v : Value) : (callMethodWithin name arguments spread depth v).Woven := by
  induction depth generalizing v with
  | zero => exact missing_woven v name
  | succ depth ih =>
      cases v with
      | struct o | pointer o =>
          refine bind_woven (viewStore_woven _) fun type => ?_
          by_cases builds : type = builderType
          · grind
          · rw [if_neg builds]
            refine bind_woven (view_woven _) fun found => ?_
            cases found <;> grind
      | _ =>
          unfold callMethodWithin
          grind

@[grind ←]
theorem callMethod_woven (v : Value) (name : String) (arguments : List Value) (spread : Bool) :
    (callMethod v name arguments spread).Woven := by
  grind [callMethod]

end Eval

end SandboxedGo
