import SandboxedGo.Eval.Literals
import SandboxedGo.Eval.TypeOperands
import SandboxedGo.Proofs.SparingPrinting

/-!
# Operations on values leave variables alone

Operators, predeclared functions, conversions and literals make values from their operands and from
what the store holds.  None of them makes a pointer to a variable that was declared.
-/

set_option autoImplicit false

namespace SandboxedGo

open Source

namespace Eval

variable {b : NamedCell} {α : Type} {P : α → Prop} {scope : ScopeId} {v w : Value}

/-! ## Zero values -/

theorem qualifiedName_spares (package name : String) :
    (qualifiedName package name).Spares b fun _ => True := by
  refine then_spares (look_spares _) fun found => ?_
  cases found with
  | some p => exact done_spares
  | none => exact error_spares _

theorem freshStructDef_spares (name : String) (fields : List FieldDecl) :
    (freshStructDef name fields).Spares b fun _ => True :=
  then_spares freshId_spares fun _ => done_spares

theorem declareType_spares (spec : TypeSpec) : (declareType spec).Spares b fun _ => True := by
  have known (decl : TypeDecl) :
      (changeGuest fun g => { g with types := g.types.put spec.name decl }).Spares b
        fun _ => True :=
    onGuest_spares (fun _ spares => spares.keeps) (fun _ => rfl) fun _ _ => trivial
  unfold declareType
  dsimp only
  split
  · exact then_spares (freshStructDef_spares _ _) fun _ => known _
  · exact known _

theorem repeated_spares {zero : Eval Value} (each : zero.Spares b (Value.Spares b)) (count : Nat)
    {items : Array Value} (before : AllSpare b items.toList) :
    (repeated count zero items).Spares b fun items => AllSpare b items.toList := by
  induction count generalizing items with
  | zero => exact pure_spares before
  | succ n ih =>
      refine bind_spares each fun v value => ih ?_
      rw [Array.toList_push]
      exact before.append (allSpare_one value)

/-- Copies of a value that has no contents, or values that are made one by one. -/
theorem replicated_spares {zero : Eval Value} (each : zero.Spares b (Value.Spares b)) (n : Nat)
    (value : v.Spares b) :
    (if Store.hasContents v then repeated n zero #[v]
      else pure (Array.replicate (n + 1) v) : Eval (Array Value)).Spares b
      fun items => AllSpare b items.toList := by
  split
  · exact repeated_spares each n (allSpare_one value)
  · refine pure_spares fun u mem => ?_
    rw [Array.toList_replicate] at mem
    rw [(List.mem_replicate.mp mem).2]
    exact value

theorem zeros_spares (count : Nat) {zero : Eval Value} (each : zero.Spares b (Value.Spares b)) :
    (zeros count zero).Spares b fun items => AllSpare b items.toList := by
  cases count with
  | zero => exact pure_spares allSpare_nil
  | succ n => exact bind_spares each fun first value => replicated_spares each n value

theorem zeroWithin_spares (levels : Nat) (ty : TypeExpr) :
    (zeroWithin levels ty).Spares b (Value.Spares b) := by
  induction levels generalizing ty with
  | zero => exact error_spares _
  | succ levels ih =>
      have fields {γ : Type} (type : γ → TypeExpr) (items : List γ) :
          (items.mapM fun item => zeroWithin levels (type item)).Spares b (AllSpare b) :=
        imp_spares (mapM_spares fun item _ => ih (type item)) fun _ known => known.1
      cases ty with
      | named name =>
          unfold zeroWithin
          dsimp only
          split
          iterate 4 exact pure_spares trivial
          split
          · exact pure_spares trivial
          · refine then_spares (look_spares _) fun found => ?_
            split
            · exact bind_spares (fields id _) fun _ spare => newStruct_spares _ spare
            · exact ih _
            · exact error_spares _
      | qualified package name =>
          refine then_spares (qualifiedName_spares _ _) fun qualified =>
            then_spares (look_spares _) fun found => ?_
          split
          · exact bind_spares (fields id _) fun _ spare => newStruct_spares _ spare
          · exact error_spares _
      | slice element => exact nilSlice_spares
      | array length element =>
          exact then_spares (checkAlloc_spares _ _) fun _ =>
            bind_spares (zeros_spares _ (ih element)) fun _ spare =>
              then_spares (newBacking_spares spare) fun _ => pure_spares trivial
      | map key value => exact bind_spares (ih value) fun _ zero => pure_spares zero
      | pointer target => exact pure_spares trivial
      | func => exact pure_spares trivial
      | interface methods => exact pure_spares trivial
      | struct fieldDecls =>
          exact then_spares (freshStructDef_spares _ _) fun _ =>
            bind_spares (fields FieldDecl.type fieldDecls) fun _ spare => newStruct_spares _ spare

theorem zeroValue_spares (ty : TypeExpr) : (zeroValue ty).Spares b (Value.Spares b) :=
  zeroWithin_spares _ ty

/-! ## Operators -/

theorem refuseOperands_spares {P : Value → Prop} (op : BinaryOp) (v w : Value) :
    (refuseOperands op v w).Spares b P :=
  then_spares (typeName_spares v) fun _ => refusal_spares w _

theorem binary_spares (op : BinaryOp) (v w : Value) :
    (binary op v w).Spares b (Value.Spares b) := by
  unfold binary
  split
  · exact then_spares (equal_spares v w) fun _ => pure_spares trivial
  · exact then_spares (equal_spares v w) fun _ => pure_spares trivial
  iterate 4
    · split
      · exact pure_spares trivial
      · exact refuseOperands_spares _ _ _
  · split
    · exact then_spares (ofExcept_spares fun _ _ => trivial) fun _ => pure_spares trivial
    · split
      · exact then_spares (checkAlloc_spares _ _) fun _ => pure_spares trivial
      · exact refuseOperands_spares _ _ _
    iterate 3
      exact then_spares (ofExcept_spares fun _ _ => trivial) fun _ => pure_spares trivial
    · exact refuseOperands_spares _ _ _

theorem unary_spares (op : UnaryOp) (v : Value) : (unary op v).Spares b (Value.Spares b) := by
  unfold unary
  split
  iterate 7 exact pure_spares trivial
  · exact readCell_spares _
  · exact panic_spares _
  · exact refusal_spares _ _

/-! ## Predeclared functions -/

theorem wrongArity_spares (f : Builtin) : (wrongArity f).Spares b (Value.Spares b) :=
  error_spares _

theorem refuseOperand_spares (f : Builtin) (v : Value) : (refuseOperand f v : Eval α).Spares b P :=
  then_spares (Format.builtinText_spares v) fun _ => refusal_spares v _

theorem lengthOf_spares (v : Value) : (lengthOf v).Spares b (Value.Spares b) := by
  unfold lengthOf
  split
  · exact pure_spares trivial
  · exact pure_spares trivial
  · exact then_spares (look_spares _) fun _ => pure_spares trivial
  · exact pure_spares trivial
  · refine then_spares (look_spares _) fun held => ?_
    split
    · exact pure_spares trivial
    · exact refuseOperand_spares _ _
  · exact refuseOperand_spares _ _

theorem appendItems_spares (view : SliceView) {items : List Value} (spare : AllSpare b items) :
    (appendItems view items).Spares b (Value.Spares b) := by
  refine then_spares maxAlloc_spares fun limit => then_spares
    (onStore_spares fun _ spares => ⟨spares.append view spare limit, trivial⟩) fun longer => ?_
  cases longer with
  | some view => exact pure_spares trivial
  | none => exact panic_spares _

theorem appendTo_spares (v : Value) {items : List Value} (spare : AllSpare b items) :
    (appendTo v items).Spares b (Value.Spares b) := by
  refine bind_spares (copiedAll_spares spare) fun items spare => ?_
  split
  · exact appendItems_spares _ spare
  · exact then_spares (newBacking_spares allSpare_nil) fun _ => appendItems_spares _ spare
  · exact then_spares (Format.builtinText_spares _) fun _ => refusal_spares _ _

theorem deleteFrom_spares (v key : Value) : (deleteFrom v key).Spares b (Value.Spares b) := by
  unfold deleteFrom
  split
  · refine then_spares (asKey_spares key) fun key => ?_
    dsimp only
    split
    · exact then_spares (changeStore_spares fun _ spares => spares.mapErase _ key)
        fun _ => pure_spares trivial
    · exact pure_spares trivial
  · exact pure_spares trivial
  · exact refuseOperand_spares _ _

theorem overwrite_spares (view : SliceView) (place : Nat) {values : List Value}
    (spare : AllSpare b values) : (overwrite view place values).Spares b fun _ => True := by
  induction values generalizing place with
  | nil => exact done_spares
  | cons v rest ih =>
      obtain ⟨first, others⟩ := List.forall_mem_cons.mp spare
      exact bind_spares (copied_spares first) fun v value =>
        then_spares (changeStore_spares fun _ spares => spares.setElement view place value)
          fun _ => ih _ others

theorem copyInto_spares (view : SliceView) {items : List Value} (spare : AllSpare b items) : (do
    overwrite view 0 (items.take (min view.length items.length))
    return .int (Int64.ofNat (min view.length items.length)) : Eval Value).Spares b
    (Value.Spares b) :=
  then_spares (overwrite_spares _ 0 fun v mem => spare v (List.mem_of_mem_take mem))
    fun _ => pure_spares trivial

theorem copyElements_spares (destination source : Value) :
    (copyElements destination source).Spares b (Value.Spares b) := by
  unfold copyElements
  dsimp only
  split
  -- Whatever the source is, its items are values that spare the binding.
  all_goals
    refine bind_spares (P := AllSpare b) ?_ fun items spare => ?_
    rotate_left
    · split
      · exact copyInto_spares _ spare
      · exact pure_spares trivial
      · exact refuseOperand_spares _ _
  · exact elements_spares _
  · exact pure_spares (List.forall_mem_map.mpr fun _ _ => trivial)
  · exact pure_spares allSpare_nil
  · exact refuseOperand_spares _ _

theorem clearAll_spares (v : Value) : (clearAll v).Spares b (Value.Spares b) := by
  have cleared (u : Value) : (clearedValue u).Spares b := by cases u <;> exact trivial
  unfold clearAll
  split
  · dsimp only
    split
    · exact then_spares (changeStore_spares fun _ spares => spares.mapClear _)
        fun _ => pure_spares trivial
    · exact pure_spares trivial
  · exact bind_spares (elements_spares _) fun items _ =>
      then_spares (overwrite_spares _ 0 (List.forall_mem_map.mpr fun u _ => cleared u))
        fun _ => pure_spares trivial
  · exact pure_spares trivial
  · exact refuseOperand_spares _ _

theorem panicText_spares (value : v.Spares b) : (panicText v).Spares b fun _ => True := by
  unfold panicText
  split
  · exact done_spares
  · exact done_spares
  · exact done_spares
  · refine then_spares ?_ fun text => ?_
    · refine bind_spares (methodOf_spares _ "Error") fun found known => ?_
      cases found with
      | none => exact done_spares
      | some decl =>
          refine bind_spares (callMethodDecl_spares (known decl rfl) value nofun) fun text _ => ?_
          split
          · exact done_spares
          · exact done_spares
    · cases text with
      | some s => exact done_spares
      | none => exact Format.text_spares {} value

theorem spares_better {least : Bool} {best : Value} (is : better? least v w = some best) :
    best.Spares b := by
  unfold better? at is
  dsimp only at is
  split at is
  all_goals cases is
  all_goals (repeat' split)
  all_goals exact trivial

theorem bestOf_spares (f : Builtin) (least : Bool) {best : Value} (value : best.Spares b)
    {values : List Value} (spare : AllSpare b values) :
    (bestOf f least best values).Spares b (Value.Spares b) := by
  induction values generalizing best with
  | nil => exact pure_spares value
  | cons v rest ih =>
      obtain ⟨first, others⟩ := List.forall_mem_cons.mp spare
      unfold bestOf
      split
      · rename_i is
        exact ih (spares_better is) others
      · exact refuseOperand_spares _ _

theorem builtin_spares (f : Builtin) {arguments : List Value} (spare : AllSpare b arguments) :
    (builtin f arguments).Spares b (Value.Spares b) := by
  have texts : (arguments.mapM Format.builtinText).Spares b fun _ => True :=
    mapM_done fun v _ => Format.builtinText_spares v
  cases f with
  | len =>
      unfold builtin
      dsimp only
      split
      · exact lengthOf_spares _
      · exact wrongArity_spares _
  | cap =>
      unfold builtin
      dsimp only
      split
      · exact pure_spares trivial
      · exact pure_spares trivial
      · exact refuseOperand_spares _ _
      · exact wrongArity_spares _
  | append =>
      cases arguments with
      | nil => exact error_spares _
      | cons v items => exact appendTo_spares v (List.forall_mem_cons.mp spare).2
  | delete =>
      unfold builtin
      dsimp only
      split
      · exact deleteFrom_spares _ _
      · exact wrongArity_spares _
  | copy =>
      unfold builtin
      dsimp only
      split
      · exact copyElements_spares _ _
      · exact wrongArity_spares _
  | clear =>
      unfold builtin
      dsimp only
      split
      · exact clearAll_spares _
      · exact wrongArity_spares _
  | panic =>
      unfold builtin
      dsimp only
      split
      · exact then_spares (panicText_spares (spare _ List.mem_cons_self)) fun _ => panic_spares _
      · exact wrongArity_spares _
  | recover => exact recover_spares
  | print | println =>
      exact then_spares texts fun _ => then_spares (write_spares _ _) fun _ => pure_spares trivial
  | min | max =>
      cases arguments with
      | nil => exact wrongArity_spares _
      | cons v rest =>
          obtain ⟨first, others⟩ := List.forall_mem_cons.mp spare
          exact bestOf_spares _ _ first others
  | close => exact error_spares _
  | make | new => exact error_spares _

/-! ## Operations on types -/

theorem typeOperand_spares (e : Expr) : (typeOperand e).Spares b fun _ => True := by
  fun_induction typeOperand e with
  | case1 => exact done_spares
  | case2 => exact done_spares
  | case3 => exact done_spares
  | case4 inner ih => exact then_spares ih fun _ => done_spares
  | case5 => exact error_spares _

theorem filled_spares (count : Nat) {zero : Eval Value} (each : zero.Spares b (Value.Spares b)) :
    (filled count zero).Spares b fun items => AllSpare b items.toList := by
  have ticks (n : Nat) : (tickTimes n).Spares b fun _ => True := by
    induction n with
    | zero => exact done_spares
    | succ n ih => exact then_spares tick_spares fun _ => ih
  cases count with
  | zero => exact pure_spares allSpare_nil
  | succ n =>
      exact then_spares tick_spares fun _ => bind_spares each fun first value =>
        then_spares (ticks _) fun _ => replicated_spares each n value

theorem makeSlice_spares (element : TypeExpr) (length capacity : Int) :
    (makeSlice element length capacity).Spares b (Value.Spares b) :=
  guarded_spares (panic_spares _) <| guarded_spares (panic_spares _) <|
    then_spares (checkAlloc_spares _ _) fun _ => then_spares (checkAlloc_spares _ _) fun _ =>
      bind_spares (filled_spares _ (zeroValue_spares element)) fun _ spare =>
        then_spares (newBacking_spares spare) fun _ => pure_spares trivial

theorem make_spares (ty : TypeExpr) (sizes : List Int64) :
    (make ty sizes).Spares b (Value.Spares b) := by
  refine then_spares (look_spares _) fun under => ?_
  split
  · split
    · exact error_spares _
    · exact makeSlice_spares _ _ _
    · exact makeSlice_spares _ _ _
  · exact bind_spares (zeroValue_spares _) fun _ zero => newMap_spares zero
  · exact error_spares _

theorem allocate_spares (ty : TypeExpr) : (allocate ty).Spares b (Value.Spares b) := by
  refine bind_spares (zeroValue_spares ty) fun v value => ?_
  split
  · exact pure_spares trivial
  · exact newRef_spares value

theorem refuseConversion_spares (v : Value) (ty : TypeExpr) :
    (refuseConversion v ty).Spares b (Value.Spares b) :=
  then_spares (Format.builtinText_spares v) fun _ => refusal_spares v _

theorem convertBasic_spares (kind : BasicType) (name : String) (v : Value) (ty : TypeExpr) :
    (convertBasic kind name v ty).Spares b (Value.Spares b) := by
  unfold convertBasic
  split
  iterate 6 exact pure_spares trivial
  · exact then_spares (look_spares _) fun _ => then_spares (asInts_spares _) fun _ =>
      pure_spares trivial
  · exact pure_spares trivial
  · exact pure_spares trivial
  · exact refuseConversion_spares _ _

theorem fieldsOf_spares (o : StructId) :
    (viewStore (·.structObject o)).Spares b fun object => AllSpare b object.fields.toList :=
  viewStore_spares fun _ spares => spares.fields o

theorem convertStruct_spares (def_ : StructDef) (v : Value) (ty : TypeExpr) :
    (convertStruct def_ v ty).Spares b (Value.Spares b) := by
  unfold convertStruct
  split
  iterate 2
    exact bind_spares (fieldsOf_spares _) fun _ spare =>
      bind_spares (copiedAll_spares spare) fun _ spare => newStruct_spares _ spare
  · exact refuseConversion_spares _ _

theorem convert_spares (value : v.Spares b) (ty : TypeExpr) :
    (convert v ty).Spares b (Value.Spares b) := by
  refine then_spares (look_spares _) fun under => ?_
  split
  · split
    · exact convertBasic_spares _ _ _ _
    · refine then_spares (look_spares _) fun found => ?_
      split
      · exact convertStruct_spares _ _ _
      · exact pure_spares value
  · split
    iterate 2 exact byteSlice_spares _
    iterate 2 exact newSlice_spares (List.forall_mem_map.mpr fun _ _ => trivial)
    · exact pure_spares trivial
    · exact pure_spares trivial
    · exact refuseConversion_spares _ _
  · exact pure_spares value

/-! ## Literals -/

theorem element_spares {e : Expr} (spares : e.spares b.name = true) (ty : TypeExpr)
    (scope : ScopeId) : (element e ty scope).Spares b (Value.Spares b) :=
  bind_spares (eval_spares spares) fun _ value =>
    bind_spares (copied_spares value) fun _ value => adapt_spares ty value

/-- The elements of a literal, with or without their places. -/
abbrev ElementsSpare (b : NamedCell) (elements : List (Option Expr × Expr)) : Prop :=
  ∀ element ∈ elements, (∀ key ∈ element.1, key.spares b.name = true) ∧
    element.2.spares b.name = true

variable {elements : List (Option Expr × Expr)}

theorem allSpare_putItem {items : Array Value} (spare : AllSpare b items.toList) (place : Nat)
    (value : v.Spares b) : AllSpare b (putItem items place v).toList := by
  intro u mem
  unfold putItem at mem
  split at mem
  · rw [Array.toList_setIfInBounds] at mem
    rcases List.mem_or_eq_of_mem_set mem with before | rfl
    · exact spare u before
    · exact value
  · rw [Array.toList_push] at mem
    exact spare.append (allSpare_one value) u mem

theorem sequence_spares (ty : TypeExpr) (scope : ScopeId) (spare : ElementsSpare b elements)
    (next : Nat) {items : Array Value} (before : AllSpare b items.toList) :
    (sequence ty scope elements next items).Spares b fun items => AllSpare b items.toList := by
  induction elements generalizing next items with
  | nil => exact pure_spares before
  | cons entry rest ih =>
      obtain ⟨key, e⟩ := entry
      obtain ⟨⟨keySpares, spares⟩, others⟩ := List.forall_mem_cons.mp spare
      have behind (place : Nat) : (do
          let v ← element e ty scope
          let gap ← zeros (place - items.size) (zeroValue ty)
          sequence ty scope rest (place + 1) (putItem (items ++ gap) place v) :
          Eval (Array Value)).Spares b fun items => AllSpare b items.toList := by
        refine bind_spares (element_spares spares ty scope) fun v value =>
          bind_spares (zeros_spares _ (zeroValue_spares ty)) fun gap filler =>
            ih others _ (allSpare_putItem ?_ _ value)
        rw [Array.toList_append]
        exact before.append filler
      cases key with
      | none => exact behind next
      | some key =>
          refine bind_spares (eval_spares (keySpares key rfl)) fun at_ _ =>
            then_spares (asInt_spares at_) fun at_ => guarded_spares (error_spares _) ?_
          exact then_spares (checkAlloc_spares _ _) fun _ => behind _

theorem arrayLiteral_spares (length : Option Nat) (ty : TypeExpr) (spare : ElementsSpare b elements)
    (scope : ScopeId) : (arrayLiteral length ty elements scope).Spares b (Value.Spares b) := by
  refine bind_spares (sequence_spares ty scope spare 0 allSpare_nil) fun items before => ?_
  have built (items : Array Value) (spare : AllSpare b items.toList) : (do
      return .slice { (← onStore (·.newSlice items)) with isArray := true } : Eval Value).Spares b
      (Value.Spares b) :=
    then_spares (newBacking_spares spare) fun _ => pure_spares trivial
  cases length with
  | none => exact built items before
  | some length =>
      refine guarded_spares (error_spares _) <| then_spares (checkAlloc_spares _ _) fun _ =>
        bind_spares (zeros_spares _ (zeroValue_spares ty)) fun more filler => built _ ?_
      rw [Array.toList_append]
      exact before.append filler

theorem addEntry_spares (m : MapId) (key : Value) {v : Value} (value : v.Spares b) :
    (addEntry m key v).Spares b fun _ => True :=
  then_spares (asKey_spares key) fun key =>
    changeStore_spares fun _ spares => spares.mapInsert m key value

theorem mapEntries_spares (m : MapId) (keyType valueType : TypeExpr) (scope : ScopeId)
    (spare : ElementsSpare b elements) :
    (mapEntries m keyType valueType scope elements).Spares b fun _ => True := by
  induction elements with
  | nil => exact done_spares
  | cons entry rest ih =>
      obtain ⟨key, e⟩ := entry
      obtain ⟨⟨keySpares, spares⟩, others⟩ := List.forall_mem_cons.mp spare
      cases key with
      | none => exact error_spares _
      | some key =>
          refine bind_spares (element_spares (keySpares key rfl) keyType scope) fun key _ =>
            bind_spares (element_spares spares valueType scope) fun v value => ?_
          exact then_spares (addEntry_spares m key value) fun _ => ih others

theorem structParts_spares (name : String) : (structParts name).Spares b fun _ => True := by
  refine then_spares (look_spares _) fun found => ?_
  split
  · exact done_spares
  · exact error_spares _
  · exact error_spares _

theorem namedFields_spares (def_ : StructDef) (types : List TypeExpr) (scope : ScopeId)
    (spare : ElementsSpare b elements) {fields : List Value} (before : AllSpare b fields) :
    (namedFields def_ types scope elements fields).Spares b (AllSpare b) := by
  induction elements generalizing fields with
  | nil => exact pure_spares before
  | cons entry rest ih =>
      obtain ⟨key, e⟩ := entry
      obtain ⟨⟨-, spares⟩, others⟩ := List.forall_mem_cons.mp spare
      unfold namedFields
      split
      · split
        · exact error_spares _
        · refine bind_spares (element_spares spares _ scope) fun v value =>
            ih others fun u mem => ?_
          rcases List.mem_or_eq_of_mem_set mem with kept | rfl
          · exact before u kept
          · exact value
      · exact error_spares _

theorem orderedFields_spares (scope : ScopeId) (spare : ElementsSpare b elements)
    (types : List TypeExpr) :
    (orderedFields scope elements types).Spares b (AllSpare b) := by
  induction elements generalizing types with
  | nil => exact pure_spares allSpare_nil
  | cons entry rest ih =>
      obtain ⟨⟨-, spares⟩, others⟩ := List.forall_mem_cons.mp spare
      cases types with
      | nil => exact pure_spares allSpare_nil
      | cons ty types =>
          exact bind_spares (element_spares spares ty scope) fun _ value =>
            bind_spares (ih others types) fun _ more => pure_spares (.cons value more)

theorem structLiteral_spares (def_ : StructDef) (types : List TypeExpr)
    (spare : ElementsSpare b elements) (scope : ScopeId) :
    (structLiteral def_ types elements scope).Spares b (Value.Spares b) := by
  refine bind_spares (mapM_spares fun ty _ => zeroValue_spares ty) fun zeros known => ?_
  split
  · exact bind_spares (namedFields_spares def_ types scope spare known.1) fun _ fields =>
      newStruct_spares def_ fields
  · split
    · exact newStruct_spares def_ known.1
    · split
      · exact error_spares _
      · exact bind_spares (orderedFields_spares scope spare types) fun _ fields =>
          newStruct_spares def_ fields

theorem composite_spares (ty : TypeExpr) (spare : ElementsSpare b elements) (scope : ScopeId) :
    (composite ty elements scope).Spares b (Value.Spares b) := by
  refine then_spares (look_spares _) fun under => ?_
  split
  · exact bind_spares (sequence_spares _ scope spare 0 allSpare_nil) fun _ items =>
      then_spares (newBacking_spares items) fun _ => pure_spares trivial
  · exact arrayLiteral_spares _ _ spare scope
  · exact bind_spares (zeroValue_spares _) fun _ zero => then_spares emptyMap_spares fun m =>
      then_spares (mapEntries_spares m _ _ scope spare) fun _ => pure_spares zero
  · exact then_spares (structParts_spares _) fun _ => structLiteral_spares _ _ spare scope
  · exact then_spares (qualifiedName_spares _ _) fun _ => then_spares (structParts_spares _)
      fun _ => structLiteral_spares _ _ spare scope
  · exact then_spares (freshStructDef_spares _ _) fun _ => structLiteral_spares _ _ spare scope
  · exact error_spares _

end Eval

end SandboxedGo
