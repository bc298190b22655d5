import SandboxedGo.Eval.Methods
import SandboxedGo.Format.Printing
import SandboxedGo.Proofs.SparingComputations

/-!
# Methods and printing leave variables alone

What stands behind a point is a field, a method with its receiver, or one of the methods of errors
and string builders.  Printing a value calls methods of the program, which is left to the evaluator,
and reads the parts of the value.
-/

set_option autoImplicit false

namespace SandboxedGo

open Source Eval

variable {b : NamedCell} {α : Type} {P : α → Prop}

/-! ## Methods -/

namespace Eval

theorem spares_success {v : Value} (value : v.Spares b) : (Value.tuple [v, .nil]).Spares b :=
  Value.spares_tuple.mpr (.cons value (allSpare_one Value.spares_nil))

theorem missing_spares (v : Value) (name : String) : (missing v name : Eval α).Spares b P :=
  refusal_spares v _

theorem appendBuilt_spares (o : StructId) (text : String) :
    (appendBuilt o text).Spares b fun _ => True :=
  changeStore_spares fun _ spares => spares.setFieldAt o 0 trivial

theorem appendedText_spares (o : StructId) (text : String) {v : Value} (value : v.Spares b) :
    (do appendBuilt o text; return v : Eval Value).Spares b (Value.Spares b) :=
  then_spares (appendBuilt_spares o text) fun _ => pure_spares value

theorem appendedBytes_spares (o : StructId) (view : SliceView) : (do
    let bytes ← asInts (← elements view)
    appendBuilt o (Text.ofBytes ⟨(bytes.map fun b => b.toUInt64.toUInt8).toArray⟩)
    return .tuple [.int (Int64.ofNat bytes.length), .nil] : Eval Value).Spares b
    (Value.Spares b) :=
  bind_spares (elements_spares view) fun _ _ => then_spares (asInts_spares _) fun _ =>
    appendedText_spares o _ (spares_success (Value.spares_int _))

theorem builderMethod_spares (o : StructId) (name : String) (arguments : List Value) :
    (builderMethod o name arguments).Spares b (Value.Spares b) := by
  refine then_spares (look_spares _) fun current => guarded_spares (checkAlloc_spares _ _) ?_
  cases builderRequest? name arguments with
  | none => exact error_spares _
  | some request =>
      cases request with
      | append text count =>
          refine appendedText_spares o text ?_
          cases count with
          | none => exact Value.spares_nil
          | some n => exact spares_success (Value.spares_int n)
      | appendBytes view => exact appendedBytes_spares o view
      | text => exact pure_spares trivial
      | length => exact pure_spares trivial
      | reset =>
          exact then_spares (changeStore_spares fun _ spares => spares.setFieldAt o 0 trivial)
            fun _ => pure_spares trivial
      | grow => exact pure_spares trivial

theorem methodValue_spares {v : Value} (value : v.Spares b) (name : String) :
    (methodValue v name).Spares b (Value.Spares b) := by
  refine bind_spares (methodOf_spares v name) fun found known => ?_
  cases found with
  | some decl => exact pure_spares ⟨value, known decl rfl⟩
  | none =>
      dsimp only
      split
      iterate 2
        · refine bind_spares (field_spares _ name) fun found known => ?_
          cases found with
          | some v => exact pure_spares (known v rfl)
          | none => exact refusal_spares _ _
      · exact panic_spares _
      · exact refusal_spares _ _

theorem select_spares {v : Value} (value : v.Spares b) (name : String) :
    (select v name).Spares b (Value.Spares b) := by
  refine bind_spares (viewStore_spares fun _ spares => spares.target value) fun v value => ?_
  split
  iterate 2
    · refine bind_spares (field_spares _ name) fun found known => ?_
      cases found with
      | some v => exact pure_spares (known v rfl)
      | none =>
          refine bind_spares (methodOf_spares _ name) fun found known => ?_
          cases found with
          | some decl => exact pure_spares ⟨value, known decl rfl⟩
          | none => exact then_spares (look_spares _) fun _ => error_spares _
  · exact panic_spares _
  · exact missing_spares _ _

theorem mem_of_findM {γ : Type} {p : γ → Option Bool} {items : List γ} {a : γ}
    (is : items.findM? p = some (some a)) : a ∈ items := by
  induction items with
  | nil => cases is
  | cons item rest ih =>
      obtain ⟨hit, -, is⟩ := Option.bind_eq_some_iff.mp is
      cases hit with
      | true =>
          cases is
          exact List.mem_cons_self
      | false => exact List.mem_cons_of_mem item (ih is)

theorem promotedReceiver_spares (o : StructId) (name : String) :
    (view (promotedReceiver · o name)).Spares b fun answer =>
      ∀ found, answer = some found → ∀ v ∈ found, Value.Spares b v := by
  refine view_spares fun m spares found is v held => ?_
  obtain ⟨entry, searched, is⟩ := Option.bind_eq_some_iff.mp is
  cases is
  obtain ⟨entry, rfl, rfl⟩ := Option.map_eq_some_iff.mp held
  exact spares.store.structFields o _ (mem_of_findM searched)

theorem callMethodWithin_spares (name : String) {arguments : List Value}
    (spare : AllSpare b arguments) (spread : Bool) (depth : Nat) {v : Value}
    (value : v.Spares b) :
    (callMethodWithin name arguments spread depth v).Spares b (Value.Spares b) := by
  induction depth generalizing v with
  | zero => exact missing_spares v name
  | succ depth ih =>
      unfold callMethodWithin
      split
      · rename_i wrapped
        split
        · exact pure_spares trivial
        · cases wrapped with
          | none => exact pure_spares trivial
          | some inner => exact pure_spares value
        · exact error_spares _
      iterate 2
        · refine then_spares (look_spares _) fun type => ?_
          split
          · exact builderMethod_spares _ name arguments
          · refine bind_spares (method_spares type name) fun found known => ?_
            cases found with
            | some decl => exact callMethodDecl_spares (known decl rfl) value spare
            | none =>
                refine bind_spares (field_spares _ name) fun field known => ?_
                split
                · exact perform_spares ⟨known _ rfl, spare⟩
                · refine bind_spares (promotedReceiver_spares _ name) fun _ known =>
                    bind_spares (ofWalk_spares known) fun inner known => ?_
                  cases inner with
                  | some inner => exact ih (known inner rfl)
                  | none => exact error_spares _
      · exact panic_spares _
      · exact error_spares _
      · exact missing_spares _ _

theorem callMethod_spares {v : Value} (value : v.Spares b) (name : String)
    {arguments : List Value} (spare : AllSpare b arguments) (spread : Bool) :
    (callMethod v name arguments spread).Spares b (Value.Spares b) :=
  then_spares (look_spares _) fun _ => callMethodWithin_spares name spare spread _ value

end Eval

/-! ## Printing -/

namespace Format

theorem displayed_spares {v : Value} (value : v.Spares b) :
    (displayed? v).Spares b fun _ => True := by
  refine bind_spares (P := fun found => ∀ decl ∈ found, decl.function.spares b.name = true)
    (view_spares fun m spares decl is => ?_) fun found known => ?_
  · obtain ⟨name, -, is⟩ := List.exists_of_findSome?_eq_some is
    exact spares.methodOf? (Option.filter_eq_some_iff.mp is).1
  · cases found with
    | none => exact done_spares
    | some decl =>
        refine bind_spares (callMethodDecl_spares (known decl rfl) value nofun) fun own spares => ?_
        split
        · exact done_spares
        · refine bind_spares (perform_spares spares) fun text _ => ?_
          split
          · exact done_spares
          · exact done_spares

theorem addressText_spares (p : Pointee) : (addressText p).Spares b fun _ => True :=
  then_spares (addressOf_spares p) fun _ => done_spares

theorem textWithin_spares (detail : Detail) (levels : Nat) (outermost : Bool) {v : Value}
    (value : v.Spares b) : (textWithin detail levels outermost v).Spares b fun _ => True := by
  induction levels generalizing outermost v with
  | zero => exact done_spares
  | succ levels ih =>
      unfold textWithin
      refine either_spares done_spares (displayed_spares value) fun own _ => ?_
      cases own with
      | some text => exact done_spares
      | none =>
          cases v with
          | slice items =>
              refine bind_spares (elements_spares items) fun values spare => ?_
              refine then_spares (mapM_done fun v mem => ih false (spare v mem)) fun parts => ?_
              split
              · exact then_spares (typeName_spares _) fun _ => done_spares
              · exact done_spares
          | map entries zero =>
              refine bind_spares (mapList_spares entries) fun pairs spare => ?_
              refine then_spares (mapM_done fun pair mem => ?_) fun parts => ?_
              · exact then_spares (ih false (spares_toValue pair.1)) fun _ =>
                  then_spares (ih false (spare pair mem)) fun _ => done_spares
              · split <;> exact done_spares
          | struct o =>
              refine bind_spares (structFields_spares o) fun fields spare => ?_
              refine then_spares (mapM_done fun field mem => ?_) fun parts => ?_
              · exact then_spares (ih false (spare field mem)) fun _ => done_spares
              · split
                · exact then_spares (look_spares _) fun _ => done_spares
                · exact done_spares
          | pointer o =>
              dsimp only
              split
              · exact then_spares (ih false trivial) fun _ => done_spares
              · exact addressText_spares _
          | ref c => exact addressText_spares _
          | tuple items =>
              have spare := Value.spares_tuple.mp value
              exact then_spares (mapM_done fun v mem => ih false (spare v mem)) fun _ => done_spares
          | _ => exact done_spares

theorem text_spares (detail : Detail) {v : Value} (value : v.Spares b) :
    (text detail v).Spares b fun _ => True :=
  textWithin_spares detail _ true value

theorem innerText_spares {v : Value} (value : v.Spares b) :
    (innerText v).Spares b fun _ => True :=
  textWithin_spares {} _ false value

theorem joined_spares (afterText : Bool) {operands : List Value} (spare : AllSpare b operands) :
    (joined afterText operands).Spares b fun _ => True := by
  induction operands generalizing afterText with
  | nil => exact done_spares
  | cons v rest ih =>
      obtain ⟨first, others⟩ := List.forall_mem_cons.mp spare
      exact then_spares (text_spares {} first) fun _ =>
        then_spares (ih (isText v) others) fun _ => done_spares

theorem sprintln_spares {operands : List Value} (spare : AllSpare b operands) :
    (sprintln operands).Spares b fun _ => True :=
  then_spares (mapM_done fun v mem => text_spares {} (spare v mem)) fun _ => done_spares

theorem textForm_spares {v : Value} (value : v.Spares b) :
    (textForm? v).Spares b fun _ => True := by
  refine then_spares (displayed_spares value) fun own => ?_
  cases own with
  | some own => exact done_spares
  | none =>
      dsimp only
      split
      · exact done_spares
      · exact done_spares
      iterate 3 exact then_spares (text_spares {} value) fun _ => done_spares
      · exact done_spares

theorem mismatch_spares (verb : Char) {v : Value} (value : v.Spares b) :
    (mismatch verb v).Spares b fun _ => True := by
  unfold mismatch
  split
  · exact done_spares
  · exact then_spares (typeName_spares v) fun _ =>
      then_spares (text_spares {} value) fun _ => done_spares

theorem elementwise_spares (verb : Char) (spec : Spec) (items : SliceView) :
    (elementwise verb spec items).Spares b fun _ => True := by
  refine bind_spares (elements_spares items) fun values spare => ?_
  refine then_spares (mapM_done fun v mem => ?_) fun _ => done_spares
  refine bind_spares (perform_spares (spare v mem)) fun own _ => ?_
  split
  · exact done_spares
  · exact done_spares

theorem directiveBody_spares (verb : Char) {v : Value} (value : v.Spares b) (spec : Spec) :
    (directiveBody verb v spec).Spares b fun _ => True := by
  unfold directiveBody
  split
  · exact then_spares (text_spares _ value) fun _ => done_spares
  · split
    · exact then_spares (typeName_spares v) fun _ => done_spares
    · split
      · exact done_spares
      · split
        · refine then_spares (textForm_spares value) fun own => ?_
          cases own with
          | some own => exact done_spares
          | none =>
              dsimp only
              split
              · exact elementwise_spares verb spec _
              · exact mismatch_spares verb value
        · split
          · split
            · exact elementwise_spares verb spec _
            · exact mismatch_spares verb value
          iterate 2
            · split
              · exact then_spares (addressText_spares _) fun _ => done_spares
              · exact mismatch_spares verb value
          · exact mismatch_spares verb value

theorem directiveText_spares (verb : Char) {v : Value} (value : v.Spares b) (spec : Spec) :
    (directiveText verb v spec).Spares b fun _ => True :=
  then_spares (directiveBody_spares verb value spec) fun _ => done_spares

theorem allSpare_measure {operands : List Value} (spare : AllSpare b operands) (given : Measure) :
    AllSpare b (measure operands given).2 := by
  unfold measure
  split
  · exact spare
  · exact spare
  · split
    · exact (List.forall_mem_cons.mp spare).2
    · exact (List.forall_mem_cons.mp spare).2
    · exact spare

theorem printPieces_spares (pieces : List Piece) {operands : List Value}
    (spare : AllSpare b operands) (out : String) :
    (printPieces pieces operands out).Spares b fun result => AllSpare b result.2 := by
  induction pieces generalizing operands out with
  | nil => exact pure_spares spare
  | cons piece rest ih =>
      cases piece with
      | literal c => exact ih spare _
      | unfinished width precision =>
          exact pure_spares (allSpare_measure (allSpare_measure spare width) precision)
      | directive flags width precision verb =>
          have left := allSpare_measure (allSpare_measure spare width) precision
          unfold printPieces
          dsimp only
          split
          · exact ih left _
          · split
            · exact ih allSpare_nil _
            · rename_i v others is
              rw [is] at left
              obtain ⟨first, others⟩ := List.forall_mem_cons.mp left
              exact then_spares (directiveText_spares verb first _) fun _ => ih others _

theorem sprintf_spares (format : String) {operands : List Value} (spare : AllSpare b operands) :
    (sprintf format operands).Spares b fun _ => True := by
  refine bind_spares (printPieces_spares _ spare _) fun printed extra => ?_
  obtain ⟨out, left⟩ := printed
  dsimp only
  split
  · exact done_spares
  · refine then_spares (mapM_done fun v mem => ?_) fun _ => done_spares
    exact then_spares (typeName_spares v) fun _ =>
      then_spares (text_spares {} (extra v mem)) fun _ => done_spares

theorem builtinText_spares (v : Value) : (builtinText v).Spares b fun _ => True := by
  unfold builtinText
  split
  iterate 5 exact done_spares
  · exact then_spares (addressText_spares _) fun _ => done_spares
  · exact then_spares (typeName_spares v) fun _ => done_spares

end Format

end SandboxedGo
