import SandboxedGo.Library.Call
import SandboxedGo.Proofs.SparingPrinting

/-!
# The library leaves variables alone

Some functions of the library call functions or methods of the program that they are given, which is
left to the evaluator.  Apart from that the library reads its arguments, sorts the elements of
slices and makes new values of numbers and texts.
-/

set_option autoImplicit false

namespace SandboxedGo

open Source Eval

variable {b : NamedCell}

/-! ## Arguments -/

namespace Library

variable {f : Function} {arguments : List Value} {β : Type} {R : β → Prop}

theorem checkCount_spares (f : Function) (arguments : List Value) (wanted : Nat) :
    (checkCount f arguments wanted).Spares b fun _ => True := by
  unfold checkCount
  split
  · exact done_spares
  · exact error_spares _

theorem argument_spares (f : Function) (spare : AllSpare b arguments) (place : Nat) :
    (argument f arguments place).Spares b (Value.Spares b) := by
  unfold argument
  split
  · rename_i v is
    exact pure_spares (spare v (List.mem_of_getElem? is))
  · exact error_spares _

/-- An argument that is only looked at. -/
theorem anyArgument_spares (f : Function) (arguments : List Value) (place : Nat) :
    (argument f arguments place).Spares b fun _ => True := by
  unfold argument
  split
  · exact done_spares
  · exact error_spares _

theorem textArgument_spares (f : Function) (arguments : List Value) (place : Nat) :
    (textArgument f arguments place).Spares b fun _ => True := by
  refine then_spares (anyArgument_spares f arguments place) fun v => ?_
  split
  · exact done_spares
  · exact refusal_spares _ _

theorem intArgument_spares (f : Function) (arguments : List Value) (place : Nat) :
    (intArgument f arguments place).Spares b fun _ => True :=
  then_spares (anyArgument_spares f arguments place) asInt_spares

theorem floatArgument_spares (f : Function) (arguments : List Value) (place : Nat) :
    (floatArgument f arguments place).Spares b fun _ => True :=
  then_spares (anyArgument_spares f arguments place) asFloat_spares

theorem oneText_spares (f : Function) (arguments : List Value) :
    (oneText f arguments).Spares b fun _ => True :=
  then_spares (checkCount_spares _ _ _) fun _ => textArgument_spares _ _ _

theorem twoTexts_spares (f : Function) (arguments : List Value) :
    (twoTexts f arguments).Spares b fun _ => True :=
  then_spares (checkCount_spares _ _ _) fun _ => then_spares (textArgument_spares _ _ _) fun _ =>
    then_spares (textArgument_spares _ _ _) fun _ => done_spares

/-! What goes on behind arguments that have been read. -/

theorem behindCount {rest : Unit → Eval β} {wanted : Nat} (spares : ∀ u, (rest u).Spares b R) :
    (checkCount f arguments wanted >>= rest).Spares b R :=
  then_spares (checkCount_spares _ _ _) spares

theorem behindText {rest : String → Eval β} {place : Nat} (spares : ∀ s, (rest s).Spares b R) :
    (textArgument f arguments place >>= rest).Spares b R :=
  then_spares (textArgument_spares _ _ _) spares

theorem behindInt {rest : Int64 → Eval β} {place : Nat} (spares : ∀ n, (rest n).Spares b R) :
    (intArgument f arguments place >>= rest).Spares b R :=
  then_spares (intArgument_spares _ _ _) spares

theorem behindFloat {rest : Float → Eval β} {place : Nat} (spares : ∀ x, (rest x).Spares b R) :
    (floatArgument f arguments place >>= rest).Spares b R :=
  then_spares (floatArgument_spares _ _ _) spares

theorem behindOneText {rest : String → Eval β} (spares : ∀ s, (rest s).Spares b R) :
    (oneText f arguments >>= rest).Spares b R :=
  then_spares (oneText_spares _ _) spares

theorem behindTwoTexts {rest : String × String → Eval β}
    (spares : ∀ s t, (rest (s, t)).Spares b R) : (twoTexts f arguments >>= rest).Spares b R :=
  then_spares (twoTexts_spares _ _) fun (s, t) => spares s t

theorem exit_spares (arguments : List Value) : (exit arguments).Spares b (Value.Spares b) :=
  behindCount fun _ => behindInt fun _ => Eval.exit_spares _

/-! ## Errors -/

namespace ErrorsFunction

theorem unwrapOnce_spares {v : Value} (value : v.Spares b) :
    (unwrapOnce v).Spares b (Value.Spares b) := by
  unfold unwrapOnce
  split
  · rename_i wrapped
    cases wrapped with
    | none => exact pure_spares trivial
    | some inner => exact pure_spares value
  · refine bind_spares (methodOf_spares v _) fun found known => ?_
    cases found with
    | some decl => exact callMethodDecl_spares (known decl rfl) value nofun
    | none => exact pure_spares trivial

theorem chainContains_spares (target : Value) (steps : Nat) {current : Value}
    (value : current.Spares b) : (chainContains target steps current).Spares b fun _ => True := by
  induction steps generalizing current with
  | zero => exact done_spares
  | succ steps ih =>
      refine then_spares (look_spares _) fun answer => ?_
      split
      · exact done_spares
      · refine bind_spares (unwrapOnce_spares value) fun next spares => ?_
        split
        · exact done_spares
        · exact ih spares

theorem call_spares (f : ErrorsFunction) (spare : AllSpare b arguments) :
    (f.call arguments).Spares b (Value.Spares b) := by
  cases f with
  | new => exact behindOneText fun _ => newError_spares _ nofun
  | is =>
      refine behindCount fun _ => bind_spares (argument_spares _ spare 0) fun first value =>
        then_spares (anyArgument_spares _ _ 1) fun target => ?_
      split
      · exact pure_spares trivial
      · exact then_spares (chainContains_spares target _ value) fun _ => pure_spares trivial
  | unwrap =>
      exact behindCount fun _ => bind_spares (argument_spares _ spare 0) fun _ value =>
        unwrapOnce_spares value

end ErrorsFunction

/-! ## Printing functions -/

namespace FmtFunction

theorem written_spares (stream : Stream) (text : String) :
    (written stream text).Spares b (Value.Spares b) :=
  then_spares (write_spares stream text) fun _ => pure_spares (spares_success trivial)

theorem emit_spares (destination : Value) (text : String) :
    (emit destination text).Spares b (Value.Spares b) := by
  unfold emit
  dsimp only
  split
  · exact written_spares _ _
  iterate 2
    · refine then_spares (look_spares _) fun name => ?_
      split
      · exact then_spares (appendBuilt_spares _ _) fun _ => pure_spares (spares_success trivial)
      · exact refusal_spares _ _
  · exact refusal_spares _ _

theorem errorOf_spares (format : String) (spare : AllSpare b arguments) :
    (errorOf format arguments).Spares b (Value.Spares b) := by
  refine then_spares (Format.sprintf_spares format spare) fun message => newError_spares _ ?_
  intro v is
  obtain ⟨place, -, is⟩ := Option.bind_eq_some_iff.mp (Option.filter_eq_some_iff.mp is).1
  exact spare v (List.mem_of_getElem? is)

theorem formatted_spares (f : FmtFunction) (spare : AllSpare b arguments) :
    (formatted f arguments).Spares b fun _ => True :=
  behindText fun format =>
    Format.sprintf_spares format fun v mem => spare v (List.mem_of_mem_drop mem)

theorem splitDestination_spares (f : FmtFunction) (spare : AllSpare b arguments) :
    (splitDestination f arguments).Spares b fun parts => AllSpare b parts.2 :=
  then_spares (anyArgument_spares _ _ _) fun _ =>
    pure_spares fun v mem => spare v (List.mem_of_mem_drop mem)

theorem call_spares (f : FmtFunction) (spare : AllSpare b arguments) :
    (f.call arguments).Spares b (Value.Spares b) := by
  cases f with
  | println => exact then_spares (Format.sprintln_spares spare) fun _ => written_spares _ _
  | print => exact then_spares (Format.joined_spares true spare) fun _ => written_spares _ _
  | printf => exact then_spares (formatted_spares _ spare) fun _ => written_spares _ _
  | sprintln => exact then_spares (Format.sprintln_spares spare) fun _ => pure_spares trivial
  | sprint => exact then_spares (Format.joined_spares true spare) fun _ => pure_spares trivial
  | sprintf => exact then_spares (formatted_spares _ spare) fun _ => pure_spares trivial
  | errorf =>
      exact behindText fun format =>
        errorOf_spares format fun v mem => spare v (List.mem_of_mem_drop mem)
  | fprintln =>
      exact bind_spares (splitDestination_spares _ spare) fun (_, _) operands =>
        then_spares (Format.sprintln_spares operands) fun _ => emit_spares _ _
  | fprint =>
      exact bind_spares (splitDestination_spares _ spare) fun (_, _) operands =>
        then_spares (Format.joined_spares true operands) fun _ => emit_spares _ _
  | fprintf =>
      exact bind_spares (splitDestination_spares _ spare) fun (_, _) operands =>
        then_spares (formatted_spares _ operands) fun _ => emit_spares _ _

end FmtFunction

/-! ## Documents -/

theorem JsonFunction.result_spares (r : Documented String) :
    (JsonFunction.result r).Spares b (Value.Spares b) := by
  refine then_spares (ofWalk_spares fun _ _ => trivial) fun answer => ?_
  split
  · exact bind_spares (byteSlice_spares _) fun _ value => pure_spares (spares_success value)
  · exact bind_spares (newError_spares _ nofun) fun _ value =>
      pure_spares (Value.spares_tuple.mpr (AllSpare.cons trivial (AllSpare.cons value nofun)))

theorem JsonFunction.call_spares (f : JsonFunction) (arguments : List Value) :
    (f.call arguments).Spares b (Value.Spares b) := by
  cases f with
  | marshal =>
      exact behindCount fun _ => then_spares (anyArgument_spares _ _ _) fun _ =>
        then_spares (look_spares _) fun _ => result_spares _
  | marshalIndent =>
      exact behindCount fun _ => behindText fun _ => behindText fun _ =>
        then_spares (anyArgument_spares _ _ _) fun _ =>
          then_spares (look_spares _) fun _ => result_spares _

/-! ## Numbers, texts and characters -/

theorem MathFunction.call_spares (f : MathFunction) (arguments : List Value) :
    (f.call arguments).Spares b (Value.Spares b) := by
  unfold MathFunction.call
  dsimp only
  split
  · exact behindCount fun _ => behindFloat fun _ => pure_spares trivial
  · split
    · exact behindCount fun _ => behindFloat fun _ => behindFloat fun _ => pure_spares trivial
    · split
      · exact behindCount fun _ => behindInt fun _ => pure_spares trivial
      · exact behindCount fun _ => behindFloat fun _ => pure_spares trivial
      · exact behindCount fun _ => behindFloat fun _ => behindInt fun _ => pure_spares trivial
      · exact behindCount fun _ => behindFloat fun _ => pure_spares trivial
      · exact pure_spares trivial

namespace StrconvFunction

theorem failed_spares {f : StrconvFunction} {v : Value} {text : String} {fault : NumberFault}
    (value : v.Spares b) : (failed f v text fault).Spares b (Value.Spares b) :=
  bind_spares (newError_spares _ nofun) fun _ error =>
    pure_spares (Value.spares_tuple.mpr (AllSpare.cons value (AllSpare.cons error nofun)))

theorem integerResult_spares (f : StrconvFunction) (text : String)
    (result : Except (Int × NumberFault) Int) :
    (integerResult f text result).Spares b (Value.Spares b) := by
  unfold integerResult
  split
  · exact pure_spares (spares_success trivial)
  · exact failed_spares trivial

theorem call_spares (f : StrconvFunction) (arguments : List Value) :
    (f.call arguments).Spares b (Value.Spares b) := by
  cases f with
  | itoa => exact behindCount fun _ => behindInt fun _ => pure_spares trivial
  | atoi => exact behindOneText fun _ => integerResult_spares _ _ _
  | parseInt =>
      refine behindCount fun _ => behindText fun s => behindInt fun base => behindInt fun bits => ?_
      split
      · exact failed_spares trivial
      · exact integerResult_spares _ _ _
  | parseFloat =>
      refine behindCount fun _ => behindText fun s => behindInt fun bits => ?_
      split
      · exact pure_spares (spares_success trivial)
      · exact failed_spares trivial
  | parseBool =>
      refine behindOneText fun s => ?_
      split
      · exact pure_spares (spares_success trivial)
      · exact failed_spares trivial
  | formatInt =>
      exact behindCount fun _ => behindInt fun n => behindInt fun base =>
        guarded_spares (panic_spares _) (pure_spares trivial)
  | formatFloat =>
      refine behindCount fun _ => behindFloat fun x => behindInt fun verb =>
        behindInt fun precision => behindInt fun bits => ?_
      split
      · exact error_spares _
      · exact pure_spares trivial
  | formatBool =>
      exact behindCount fun _ => then_spares (anyArgument_spares _ _ _) fun v =>
        then_spares (asBool_spares v) fun _ => pure_spares trivial
  | quote => exact behindOneText fun _ => pure_spares trivial

end StrconvFunction

theorem textSlice_spares (texts : List String) : (textSlice texts).Spares b (Value.Spares b) :=
  newSlice_spares (List.forall_mem_map.mpr fun _ _ => trivial)

theorem pieces_spares (texts : Option (List String)) :
    (textSlice? texts).Spares b (Value.Spares b) := by
  cases texts with
  | some texts => exact textSlice_spares texts
  | none => exact nilSlice_spares

theorem allSpare_counts (numbers : List Nat) : AllSpare b (numbers.map countValue) :=
  List.forall_mem_map.mpr fun _ _ => trivial

theorem callOnNumbers_spares {g : Value} (callee : g.Spares b) (numbers : List Nat) :
    (callFunction g (numbers.map countValue)).Spares b (Value.Spares b) :=
  callFunction_spares callee (allSpare_counts numbers)

theorem dropWhileCalled_spares {g : Value} (callee : g.Spares b) (chars : List Char) :
    (dropWhileCalled g chars).Spares b fun _ => True := by
  induction chars with
  | nil => exact done_spares
  | cons c rest ih =>
      refine bind_spares (callOnNumbers_spares callee [c.toNat]) fun v _ =>
        then_spares (asBool_spares v) fun holds => ?_
      split
      · exact ih
      · exact done_spares

theorem mapCalled_spares {g : Value} (callee : g.Spares b) (chars : List Char) (out : String) :
    (mapCalled g chars out).Spares b fun _ => True := by
  induction chars generalizing out with
  | nil => exact done_spares
  | cons c rest ih =>
      exact bind_spares (callOnNumbers_spares callee [c.toNat]) fun v _ =>
        then_spares (asInt_spares v) fun _ => ih _

theorem StringsFunction.call_spares (f : StringsFunction) (spare : AllSpare b arguments) :
    (f.call arguments).Spares b (Value.Spares b) := by
  have place (p : Option Nat) : (placeValue p).Spares b := by cases p <;> exact trivial
  cases f with
  | contains | containsAny | hasPrefix | hasSuffix | trim | trimLeft | trimRight | trimPrefix
  | trimSuffix | count | equalFold | compare =>
      exact behindTwoTexts fun _ _ => pure_spares trivial
  | index | indexAny | lastIndex => exact behindTwoTexts fun _ _ => pure_spares (place _)
  | containsRune =>
      exact behindCount fun _ => behindText fun _ => behindInt fun _ => pure_spares trivial
  | indexByte | indexRune =>
      exact behindCount fun _ => behindText fun _ => behindInt fun _ => pure_spares (place _)
  | toUpper | toLower | title | trimSpace => exact behindOneText fun _ => pure_spares trivial
  | split => exact behindTwoTexts fun _ _ => pieces_spares _
  | splitN =>
      exact behindCount fun _ => behindText fun _ => behindText fun _ => behindInt fun _ =>
        pieces_spares _
  | fields => exact behindOneText fun _ => textSlice_spares _
  | join =>
      refine behindCount fun _ => then_spares (anyArgument_spares _ _ _) fun v => ?_
      have joined (items : List Value) : (do
          let separator ← textArgument (.strings .join) arguments 1
          let texts ← asStrings items
          return .string (String.intercalate separator texts) : Eval Value).Spares b
          (Value.Spares b) :=
        behindText fun _ => then_spares (asStrings_spares items) fun _ => pure_spares trivial
      dsimp only
      split
      · exact then_spares (look_spares _) joined
      · exact joined []
      · exact then_spares (typeName_spares _) fun _ => then_spares (error_spares _) joined
  | replace =>
      exact behindCount fun _ => behindText fun _ => behindText fun _ => behindText fun _ =>
        behindInt fun _ => pure_spares trivial
  | replaceAll =>
      exact behindCount fun _ => behindText fun _ => behindText fun _ => behindText fun _ =>
        pure_spares trivial
  | trimFunc =>
      exact behindCount fun _ => behindText fun _ =>
        bind_spares (argument_spares _ spare 1) fun _ callee =>
          then_spares (dropWhileCalled_spares callee _) fun _ =>
            then_spares (dropWhileCalled_spares callee _) fun _ => pure_spares trivial
  | repeated =>
      refine behindCount fun _ => behindText fun _ => behindInt fun _ =>
        guarded_spares (panic_spares _) ?_
      exact then_spares (checkAlloc_spares _ _) fun _ => pure_spares trivial
  | cut =>
      refine behindTwoTexts fun s separator => ?_
      dsimp only
      split
      · exact pure_spares ⟨trivial, trivial, trivial, trivial⟩
      · exact pure_spares ⟨trivial, trivial, trivial, trivial⟩
  | map =>
      exact behindCount fun _ => bind_spares (argument_spares _ spare 0) fun _ callee =>
        behindText fun _ => then_spares (mapCalled_spares callee _ _) fun _ => pure_spares trivial

theorem runeArgument_spares (f : Function) (arguments : List Value) :
    (runeArgument? f arguments).Spares b fun _ => True :=
  behindCount fun _ => behindInt fun _ => done_spares

theorem UnicodeFunction.changed_spares (map : Text.CaseMap) (f : Function)
    (spare : AllSpare b arguments) : (changed map f arguments).Spares b (Value.Spares b) := by
  refine then_spares (runeArgument_spares f arguments) fun c => ?_
  cases c with
  | some c => exact pure_spares trivial
  | none => exact argument_spares f spare 0

theorem UnicodeFunction.call_spares (f : UnicodeFunction) (spare : AllSpare b arguments) :
    (f.call arguments).Spares b (Value.Spares b) := by
  unfold UnicodeFunction.call
  dsimp only
  split
  · exact then_spares (runeArgument_spares _ _) fun _ => pure_spares trivial
  · split
    · exact changed_spares _ _ spare
    · exact changed_spares _ _ spare

theorem Utf8Function.call_spares (f : Utf8Function) (arguments : List Value) :
    (f.call arguments).Spares b (Value.Spares b) := by
  cases f with
  | runeCountInString => exact behindOneText fun _ => pure_spares trivial
  | runeLen =>
      refine then_spares (runeArgument_spares _ _) fun c => ?_
      cases c <;> exact pure_spares trivial
  | validString => exact behindOneText fun _ => pure_spares trivial

/-! ## Sorting -/

theorem mergePlaces_spares {less : Nat → Nat → Eval Bool}
    (asks : ∀ i j, (less i j).Spares b fun _ => True) (done left right : List Nat) :
    (mergePlaces less done left right).Spares b fun _ => True := by
  fun_induction mergePlaces less done left right with
  | case1 => exact done_spares
  | case2 => exact done_spares
  | case3 done i left j right first second =>
      refine then_spares (asks j i) fun smaller => ?_
      split
      · exact first
      · exact second

theorem sortPlaces_spares {less : Nat → Nat → Eval Bool}
    (asks : ∀ i j, (less i j).Spares b fun _ => True) (places : List Nat) :
    (sortPlaces less places).Spares b fun _ => True := by
  unfold sortPlaces
  generalize places.length = depth
  induction depth generalizing places with
  | zero => exact done_spares
  | succ depth ih =>
      unfold sortPlacesWithin
      split
      · exact done_spares
      · exact then_spares (ih _) fun left => then_spares (ih _) fun right =>
          mergePlaces_spares asks [] left right

theorem askLess_spares {g : Value} (callee : g.Spares b) (i j : Nat) :
    (askLess g i j).Spares b fun _ => True :=
  bind_spares (callOnNumbers_spares callee [i, j]) fun v _ => asBool_spares v

theorem writeElements_spares (view : SliceView) {values : List Value} (spare : AllSpare b values) :
    (changeStore (writeElements view 0 values)).Spares b fun _ => True :=
  changeStore_spares fun _ spares => spares.writeElements view 0 spare

theorem sortSlice_spares (view : SliceView) {g : Value} (callee : g.Spares b) :
    (sortSlice view g).Spares b fun _ => True := by
  refine then_spares (sortPlaces_spares (askLess_spares callee) _) fun places =>
    bind_spares (elements_spares view) fun items spare => writeElements_spares view ?_
  refine List.forall_mem_map.mpr fun place _ => ?_
  rw [List.getElem?_toArray]
  exact spare.getD place

theorem noneSmaller_spares {g : Value} (callee : g.Spares b) (place : Nat) :
    (noneSmaller g place).Spares b fun _ => True := by
  induction place with
  | zero => exact done_spares
  | succ place ih =>
      refine then_spares (askLess_spares callee _ _) fun smaller => ?_
      split
      · exact done_spares
      · exact ih

theorem sinkDown_spares {data : Value} (value : data.Spares b) (place : Nat) :
    (sinkDown data place).Spares b fun _ => True := by
  induction place with
  | zero => exact done_spares
  | succ j ih =>
      refine bind_spares (callMethod_spares value "Less" (allSpare_counts [j + 1, j]) false)
        fun v _ => then_spares (asBool_spares v) fun smaller => ?_
      split
      · exact bind_spares (callMethod_spares value "Swap" (allSpare_counts [j + 1, j]) false)
          fun _ _ => ih
      · exact done_spares

theorem insertFrom_spares {data : Value} (value : data.Spares b) (place left : Nat) :
    (insertFrom data place left).Spares b fun _ => True := by
  induction left generalizing place with
  | zero => exact done_spares
  | succ left ih => exact then_spares (sinkDown_spares value place) fun _ => ih _

theorem sortByMethods_spares {data : Value} (value : data.Spares b) :
    (sortByMethods data).Spares b fun _ => True :=
  bind_spares (callMethod_spares value "Len" allSpare_nil false) fun v _ =>
    then_spares (asInt_spares v) fun _ => insertFrom_spares value _ _

theorem askPlace_spares {g : Value} (callee : g.Spares b) (place : Int64) :
    (askPlace g place).Spares b fun _ => True :=
  bind_spares (callFunction_spares callee (allSpare_one trivial)) fun v _ => asBool_spares v

theorem searchPlace_spares {holds : Int64 → Eval Bool}
    (asks : ∀ i, (holds i).Spares b fun _ => True) (low high : Int64) (nonneg : 0 ≤ low) :
    (searchPlace holds low high nonneg).Spares b fun _ => True := by
  fun_induction searchPlace holds low high nonneg with
  | case1 low high nonneg range below above =>
      refine then_spares (asks _) fun found => ?_
      split
      · exact below
      · exact above
  | case2 => exact done_spares

theorem allSpare_sortedBy (order : Value → Value → Ordering) {items : List Value}
    (spare : AllSpare b items) : AllSpare b (sortedBy order items) := by
  have insert (v : Value) (value : v.Spares b) (sorted : List Value) (before : AllSpare b sorted) :
      AllSpare b (insertBehind order v sorted) := by
    induction sorted with
    | nil => exact allSpare_one value
    | cons last rest ih =>
        obtain ⟨first, others⟩ := List.forall_mem_cons.mp before
        unfold insertBehind
        split
        · exact .cons first (ih others)
        · exact .cons value before
  unfold sortedBy
  split
  · intro v mem
    refine List.foldlRecOn items _ (motive := AllSpare b) allSpare_nil
      (fun sorted before v mem => insert v (spare v mem) sorted before) v ?_
    exact List.mem_reverse.mp mem
  · exact fun v mem => spare v (List.mem_mergeSort.mp mem)

namespace SortFunction

theorem slice_spares (f : Function) (arguments : List Value) :
    (slice? f arguments).Spares b fun _ => True := by
  refine then_spares (anyArgument_spares f arguments 0) fun v => ?_
  split
  · exact done_spares
  · exact done_spares
  · exact refusal_spares _ _

theorem items_spares (f : Function) (arguments : List Value) :
    (items f arguments).Spares b fun _ => True := by
  refine then_spares (slice_spares f arguments) fun view => ?_
  cases view with
  | some view => exact look_spares _
  | none => exact done_spares

theorem sortInPlace_spares (f : Function) (order : Value → Value → Ordering)
    (arguments : List Value) : (sortInPlace f order arguments).Spares b (Value.Spares b) := by
  refine behindCount fun _ => then_spares (slice_spares f arguments) fun view => ?_
  cases view with
  | none => exact pure_spares trivial
  | some view =>
      exact bind_spares (elements_spares view) fun items spare =>
        then_spares (writeElements_spares view (allSpare_sortedBy order spare)) fun _ =>
          pure_spares trivial

theorem testSorted_spares (f : Function) (order : Value → Value → Ordering)
    (arguments : List Value) : (testSorted f order arguments).Spares b (Value.Spares b) :=
  behindCount fun _ => then_spares (items_spares f arguments) fun _ => pure_spares trivial

theorem searchSlice_spares (f : Function) (order : Value → Value → Ordering)
    (arguments : List Value) : (searchSlice f order arguments).Spares b (Value.Spares b) :=
  behindCount fun _ => then_spares (items_spares f arguments) fun _ =>
    then_spares (anyArgument_spares f arguments 1) fun _ => pure_spares trivial

theorem call_spares (f : SortFunction) (spare : AllSpare b arguments) :
    (f.call arguments).Spares b (Value.Spares b) := by
  cases f with
  | ints | strings | float64s => exact sortInPlace_spares _ _ _
  | slice | sliceStable =>
      refine behindCount fun _ => then_spares (slice_spares _ _) fun view => ?_
      cases view with
      | none => exact pure_spares trivial
      | some view =>
          exact bind_spares (argument_spares _ spare 1) fun _ callee =>
            then_spares (sortSlice_spares view callee) fun _ => pure_spares trivial
  | sliceIsSorted =>
      refine behindCount fun _ => then_spares (slice_spares _ _) fun view => ?_
      cases view with
      | none => exact pure_spares trivial
      | some view =>
          exact bind_spares (argument_spares _ spare 1) fun _ callee =>
            then_spares (noneSmaller_spares callee _) fun _ => pure_spares trivial
  | sort | stable =>
      exact behindCount fun _ => bind_spares (argument_spares _ spare 0) fun _ value =>
        then_spares (sortByMethods_spares value) fun _ => pure_spares trivial
  | search =>
      refine behindCount fun _ => behindInt fun length =>
        bind_spares (argument_spares _ spare 1) fun g callee => ?_
      exact then_spares (searchPlace_spares (askPlace_spares callee) _ _ _)
        fun _ => pure_spares trivial
  | searchInts | searchStrings => exact searchSlice_spares _ _ _
  | intsAreSorted | stringsAreSorted => exact testSorted_spares _ _ _

end SortFunction

/-- Every function of the library leaves the variable alone, and so does what it is given to
call. -/
theorem call_spares (f : Function) (spare : AllSpare b arguments) :
    (f.call arguments).Spares b (Value.Spares b) := by
  cases f with
  | fmt f => exact f.call_spares spare
  | strings f => exact f.call_spares spare
  | strconv f => exact f.call_spares arguments
  | math f => exact f.call_spares arguments
  | errors f => exact f.call_spares spare
  | sort f => exact f.call_spares spare
  | unicode f => exact f.call_spares spare
  | utf8 f => exact f.call_spares arguments
  | os f => exact exit_spares arguments
  | json f => exact f.call_spares arguments

end Library

end SandboxedGo
