import SandboxedGo.Library.Call
import SandboxedGo.Proofs.WovenComputations

/-!
# Printing and the library are woven

Some functions of the library call functions or methods of the program, which is left to the
evaluator.  Apart from that the library reads its arguments, sorts the elements of slices and makes
new values; the only variables it could change are those behind the calls.
-/

set_option autoImplicit false

namespace SandboxedGo

open Source Eval

/-! ## Printing -/

namespace Format

@[grind ←]
theorem displayed_woven (v : Value) : (displayed? v).Woven := by
  refine bind_woven (view_woven _) fun found => ?_
  cases found <;> grind

@[grind ←]
theorem addressText_woven (p : Pointee) : (addressText p).Woven := by grind [addressText]

@[grind ←]
theorem textWithin_woven (detail : Detail) (levels : Nat) (outermost : Bool) (v : Value) :
    (textWithin detail levels outermost v).Woven := by
  induction levels generalizing outermost v with
  | zero => exact pure_woven _
  | succ levels ih =>
      have items (values : List Value) : (values.mapM (textWithin detail levels false)).Woven :=
        mapM_woven (ih false)
      unfold textWithin
      refine either_woven (pure_woven _) (displayed_woven v) fun own => ?_
      cases own with
      | some text => exact pure_woven text
      | none => cases v <;> grind

@[grind ←]
theorem text_woven (detail : Detail) (v : Value) : (text detail v).Woven :=
  textWithin_woven detail _ _ v

@[grind ←]
theorem plainText_woven (v : Value) : (plainText v).Woven := text_woven _ v

@[grind ←]
theorem innerText_woven (v : Value) : (innerText v).Woven := textWithin_woven _ _ _ v

@[grind ←]
theorem joined_woven (afterText : Bool) (operands : List Value) :
    (joined afterText operands).Woven := by
  induction operands generalizing afterText with
  | nil => exact pure_woven ""
  | cons v rest ih => grind [joined]

@[grind ←]
theorem sprint_woven (operands : List Value) : (sprint operands).Woven := joined_woven true operands

@[grind ←]
theorem sprintln_woven (operands : List Value) : (sprintln operands).Woven := by grind [sprintln]

@[grind ←]
theorem textForm_woven (v : Value) : (textForm? v).Woven := by
  unfold textForm?
  grind

@[grind ←]
theorem mismatch_woven (verb : Char) (v : Value) : (mismatch verb v).Woven := by
  unfold mismatch
  grind

@[grind ←]
theorem elementText_woven (verb : Char) (spec : Spec) (item : Value) :
    (elementText verb spec item).Woven := by
  grind [elementText]

@[grind ←]
theorem elementwise_woven (verb : Char) (spec : Spec) (items : SliceView) :
    (elementwise verb spec items).Woven := by
  grind [elementwise]

@[grind ←]
theorem directiveBody_woven (verb : Char) (v : Value) (spec : Spec) :
    (directiveBody verb v spec).Woven := by
  unfold directiveBody
  grind

@[grind ←]
theorem directiveText_woven (verb : Char) (v : Value) (spec : Spec) :
    (directiveText verb v spec).Woven := by
  grind [directiveText]

@[grind ←]
theorem printPieces_woven (pieces : List Piece) (operands : List Value) (out : String) :
    (printPieces pieces operands out).Woven := by
  induction pieces generalizing operands out with
  | nil => exact pure_woven _
  | cons piece rest ih => cases piece <;> grind [printPieces]

@[grind ←]
theorem extraOperand_woven (v : Value) : (extraOperand v).Woven := by grind [extraOperand]

@[grind ←]
theorem sprintf_woven (format : String) (operands : List Value) :
    (sprintf format operands).Woven := by
  grind [sprintf]

@[grind ←]
theorem builtinText_woven (v : Value) : (builtinText v).Woven := by
  unfold builtinText
  grind

end Format

namespace Library

/-! ## Arguments -/

@[grind ←]
theorem checkCount_woven (f : Function) (arguments : List Value) (wanted : Nat) :
    (checkCount f arguments wanted).Woven := by
  grind [checkCount]

@[grind ←]
theorem argument_woven (f : Function) (arguments : List Value) (place : Nat) :
    (argument f arguments place).Woven := by
  grind [argument]

@[grind ←]
theorem textArgument_woven (f : Function) (arguments : List Value) (place : Nat) :
    (textArgument f arguments place).Woven := by
  grind [textArgument]

@[grind ←]
theorem intArgument_woven (f : Function) (arguments : List Value) (place : Nat) :
    (intArgument f arguments place).Woven := by
  grind [intArgument]

@[grind ←]
theorem floatArgument_woven (f : Function) (arguments : List Value) (place : Nat) :
    (floatArgument f arguments place).Woven := by
  grind [floatArgument]

@[grind ←]
theorem oneText_woven (f : Function) (arguments : List Value) : (oneText f arguments).Woven := by
  grind [oneText]

@[grind ←]
theorem twoTexts_woven (f : Function) (arguments : List Value) :
    (twoTexts f arguments).Woven := by
  grind [twoTexts]

@[grind ←]
theorem exit_woven (arguments : List Value) : (exit arguments).Woven := by grind [exit]

/-! ## Errors and printing -/

@[grind ←]
theorem unwrapOnce_woven (v : Value) : (ErrorsFunction.unwrapOnce v).Woven := by
  unfold ErrorsFunction.unwrapOnce
  grind

@[grind ←]
theorem chainContains_woven (target : Value) (steps : Nat) (current : Value) :
    (ErrorsFunction.chainContains target steps current).Woven := by
  induction steps generalizing current with
  | zero => exact pure_woven false
  | succ steps ih => grind [ErrorsFunction.chainContains]

@[grind ←]
theorem ErrorsFunction.call_woven (f : ErrorsFunction) (arguments : List Value) :
    (f.call arguments).Woven := by
  cases f <;> grind [ErrorsFunction.call]

namespace FmtFunction

@[grind ←]
theorem written_woven (stream : Stream) (text : String) : (written stream text).Woven := by
  grind [written]

@[grind ←]
theorem emit_woven (destination : Value) (text : String) : (emit destination text).Woven := by
  unfold emit
  grind

@[grind ←]
theorem errorOf_woven (format : String) (operands : List Value) :
    (errorOf format operands).Woven := by
  grind [errorOf]

@[grind ←]
theorem splitDestination_woven (f : FmtFunction) (arguments : List Value) :
    (splitDestination f arguments).Woven := by
  grind [splitDestination]

@[grind ←]
theorem formatted_woven (f : FmtFunction) (arguments : List Value) :
    (formatted f arguments).Woven := by
  grind [formatted]

@[grind ←]
theorem call_woven (f : FmtFunction) (arguments : List Value) : (f.call arguments).Woven := by
  cases f <;> grind [call]

end FmtFunction

/-! ## Documents, numbers, texts and characters -/

@[grind ←]
theorem JsonFunction.result_woven (r : Documented String) : (JsonFunction.result r).Woven := by
  grind [JsonFunction.result]

@[grind ←]
theorem JsonFunction.call_woven (f : JsonFunction) (arguments : List Value) :
    (f.call arguments).Woven := by
  cases f <;> grind [JsonFunction.call]

@[grind ←]
theorem MathFunction.call_woven (f : MathFunction) (arguments : List Value) :
    (f.call arguments).Woven := by
  unfold MathFunction.call
  grind

@[grind ←]
theorem StrconvFunction.failed_woven (f : StrconvFunction) (v : Value) (text : String)
    (fault : NumberFault) : (failed f v text fault).Woven := by
  grind [failed]

@[grind ←]
theorem StrconvFunction.integerResult_woven (f : StrconvFunction) (text : String)
    (result : Except (Int × NumberFault) Int) : (integerResult f text result).Woven := by
  cases result <;> grind [integerResult]

@[grind ←]
theorem StrconvFunction.call_woven (f : StrconvFunction) (arguments : List Value) :
    (f.call arguments).Woven := by
  cases f with
  | formatFloat =>
      refine bind_woven (checkCount_woven _ _ _) fun _ => ?_
      refine bind_woven (floatArgument_woven _ _ _) fun x => ?_
      grind
  | _ => grind [call]

@[grind ←]
theorem textSlice_woven (texts : List String) : (textSlice texts).Woven := newSlice_woven _

@[grind ←]
theorem pieces_woven (texts : Option (List String)) : (textSlice? texts).Woven := by
  cases texts <;> grind [textSlice?]

@[grind ←]
theorem dropWhileCalled_woven (f : Value) (chars : List Char) :
    (dropWhileCalled f chars).Woven := by
  induction chars with
  | nil => exact pure_woven []
  | cons c rest ih => grind [dropWhileCalled]

@[grind ←]
theorem mapCalled_woven (f : Value) (chars : List Char) (out : String) :
    (mapCalled f chars out).Woven := by
  induction chars generalizing out with
  | nil => exact pure_woven out
  | cons c rest ih => grind [mapCalled]

@[grind ←]
theorem StringsFunction.call_woven (f : StringsFunction) (arguments : List Value) :
    (f.call arguments).Woven := by
  cases f with
  | join =>
      refine bind_woven (checkCount_woven _ _ _) fun _ => ?_
      refine bind_woven (argument_woven _ _ _) fun items => ?_
      cases items <;> grind
  | _ => grind [StringsFunction.call]

@[grind ←]
theorem runeArgument_woven (f : Function) (arguments : List Value) :
    (runeArgument? f arguments).Woven := by
  grind [runeArgument?]

@[grind ←]
theorem UnicodeFunction.changed_woven (map : Text.CaseMap) (f : Function)
    (arguments : List Value) : (changed map f arguments).Woven := by
  grind [changed]

@[grind ←]
theorem UnicodeFunction.call_woven (f : UnicodeFunction) (arguments : List Value) :
    (f.call arguments).Woven := by
  unfold UnicodeFunction.call
  grind

@[grind ←]
theorem Utf8Function.call_woven (f : Utf8Function) (arguments : List Value) :
    (f.call arguments).Woven := by
  cases f <;> grind [Utf8Function.call]

/-! ## Sorting -/

theorem sameVariables_writeElements (view : SliceView) (place : Nat) (values : List Value)
    (s : Store) : SameVariables s (writeElements view place values s) := by
  induction values generalizing place s with
  | nil => exact .refl s
  | cons v rest ih => exact (Store.sameVariables_setElement view place v s).trans (ih _ _)

@[grind ←]
theorem writeElements_woven (view : SliceView) (place : Nat) (values : List Value) :
    (changeStore (writeElements view place values)).Woven :=
  changeStore_woven (sameVariables_writeElements view place values)

@[grind ←]
theorem askLess_woven (f : Value) (i j : Nat) : (askLess f i j).Woven := by grind [askLess]

section

variable {less : Nat → Nat → Eval Bool}

@[grind ←]
theorem mergePlaces_woven (asks : ∀ i j, (less i j).Woven) (done left right : List Nat) :
    (mergePlaces less done left right).Woven := by
  fun_induction mergePlaces less done left right with
  | case1 | case2 => exact pure_woven _
  | case3 done i left j right ihRight ihLeft =>
      refine bind_woven (asks j i) fun smaller => ?_
      cases smaller
      · exact ihLeft
      · exact ihRight

@[grind ←]
theorem sortPlacesWithin_woven (asks : ∀ i j, (less i j).Woven) (depth : Nat)
    (places : List Nat) : (sortPlacesWithin less depth places).Woven := by
  induction depth generalizing places with
  | zero => exact pure_woven places
  | succ depth ih => grind [sortPlacesWithin]

@[grind ←]
theorem sortPlaces_woven (asks : ∀ i j, (less i j).Woven) (places : List Nat) :
    (sortPlaces less places).Woven :=
  sortPlacesWithin_woven asks _ places

end

@[grind ←]
theorem sortSlice_woven (view : SliceView) (f : Value) : (sortSlice view f).Woven := by
  grind [sortSlice]

@[grind ←]
theorem noneSmaller_woven (f : Value) (place : Nat) : (noneSmaller f place).Woven := by
  induction place with
  | zero => exact pure_woven true
  | succ place ih => grind [noneSmaller]

@[grind ←]
theorem sinkDown_woven (data : Value) (place : Nat) : (sinkDown data place).Woven := by
  induction place with
  | zero => exact pure_woven ()
  | succ place ih => grind [sinkDown]

@[grind ←]
theorem insertFrom_woven (data : Value) (place left : Nat) :
    (insertFrom data place left).Woven := by
  induction left generalizing place with
  | zero => exact pure_woven ()
  | succ left ih => grind [insertFrom]

@[grind ←]
theorem sortByMethods_woven (data : Value) : (sortByMethods data).Woven := by grind [sortByMethods]

@[grind ←]
theorem askPlace_woven (f : Value) (place : Int64) : (askPlace f place).Woven :=
  bind_woven (callFunction_woven _ _) asBool_woven

@[grind ←]
theorem searchPlace_woven {holds : Int64 → Eval Bool} (asks : ∀ place, (holds place).Woven)
    (low high : Int64) (nonneg : 0 ≤ low) : (searchPlace holds low high nonneg).Woven := by
  fun_induction searchPlace holds low high nonneg with
  | case1 low high nonneg inside ihLow ihHigh =>
      refine bind_woven (asks _) fun found => ?_
      cases found
      · exact ihHigh
      · exact ihLow
  | case2 => exact pure_woven _

namespace SortFunction

@[grind ←]
theorem slice_woven (f : Function) (arguments : List Value) : (slice? f arguments).Woven := by
  grind [slice?]

@[grind ←]
theorem items_woven (f : Function) (arguments : List Value) : (items f arguments).Woven := by
  grind [items]

@[grind ←]
theorem sortInPlace_woven (f : Function) (order : Value → Value → Ordering)
    (arguments : List Value) : (sortInPlace f order arguments).Woven := by
  grind [sortInPlace]

@[grind ←]
theorem testSorted_woven (f : Function) (order : Value → Value → Ordering)
    (arguments : List Value) : (testSorted f order arguments).Woven := by
  grind [testSorted]

@[grind ←]
theorem searchSlice_woven (f : Function) (order : Value → Value → Ordering)
    (arguments : List Value) : (searchSlice f order arguments).Woven := by
  grind [searchSlice]

@[grind ←]
theorem call_woven (f : SortFunction) (arguments : List Value) : (f.call arguments).Woven := by
  cases f with
  | search =>
      refine bind_woven (checkCount_woven _ _ _) fun _ => ?_
      refine bind_woven (intArgument_woven _ _ _) fun length => ?_
      refine bind_woven (argument_woven _ _ _) fun f => ?_
      exact bind_woven (searchPlace_woven (askPlace_woven f) _ _ _) fun _ => pure_woven _
  | _ => grind [call]

end SortFunction

@[grind ←]
theorem Function.call_woven (f : Function) (arguments : List Value) :
    (f.call arguments).Woven := by
  cases f <;> grind [Function.call]

end Library

end SandboxedGo
