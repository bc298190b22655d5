import SandboxedGo.Eval.TypeOperands
import SandboxedGo.Library.Fmt
import SandboxedGo.Proofs.Building
import SandboxedGo.Proofs.TextSizes

/-!
# Building texts without asking

Other operations never ask for the cap.  They return whatever they were asked to build, so what they
have built is beyond the cap whenever it is that large.
-/

set_option autoImplicit false

namespace SandboxedGo

variable {ev : Evaluator} {m : Machine}

/-! ## Printing -/

namespace Format

theorem plainText_text (s : String) : (plainText (.string s)).run ev m = .ok s m := rfl

theorem sprint_texts (texts : List String) :
    (sprint (texts.map .string)).run ev m = .ok (String.join texts) m := by
  have all (afterText : Bool) :
      (joined afterText (texts.map .string)).run ev m = .ok (String.join texts) m := by
    induction texts generalizing afterText with
    | nil => rfl
    | cons text rest ih =>
        have unfolded : joined afterText ((text :: rest).map .string) =
            (plainText (.string text) >>= fun own => joined true (rest.map .string) >>= fun others =>
              pure ((if afterText || isText (.string text) then own else " " ++ own) ++ others)) :=
          rfl
        rw [unfolded, Eval.bind_run_ok (plainText_text text), Eval.bind_run_ok (ih true), String.join_cons,
          if_pos (by simp [isText])]
        rfl
  exact all true

theorem sprintln_texts (texts : List String) :
    (sprintln (texts.map .string)).run ev m = .ok (String.intercalate " " texts ++ "\n") m := by
  have reads : (texts.mapM (plainText ∘ Value.string)).run ev m = .ok (texts.map id) m :=
    Eval.mapM_reads fun text _ => plainText_text text
  rw [List.map_id, ← List.mapM_map] at reads
  unfold sprintln
  rw [Eval.bind_run_ok reads]
  rfl

/-- A format text that prints a number of texts. -/
def textVerbs (count : Nat) : String := String.join (List.replicate count "%s")

theorem pieces_textVerbs (count : Nat) :
    Piece.ofText (textVerbs count).toList =
      List.replicate count (.directive {} .absent .absent 's') := by
  induction count with
  | zero => simp [textVerbs, Piece.ofText]
  | succ count ih =>
      have begins : (textVerbs (count + 1)).toList = '%' :: 's' :: (textVerbs count).toList := by
        unfold textVerbs
        rw [List.replicate_succ, String.join_cons, String.toList_append]
        rfl
      have taken (rest : List Char) : Piece.takeDirective ('s' :: rest) =
          (.directive {} .absent .absent 's', rest) := rfl
      rw [begins, Piece.ofText, if_pos rfl, taken, ih, List.replicate_succ]

theorem directive_text (s : String) :
    (directiveText 's' (.string s) {}).run ev m = .ok s.toList m := rfl

theorem printPieces_texts (texts : List String) (out : String) :
    (printPieces (List.replicate texts.length (.directive {} .absent .absent 's'))
      (texts.map .string) out).run ev m = .ok (out ++ String.join texts, []) m := by
  induction texts generalizing out with
  | nil =>
      rw [String.join_nil, String.append_empty]
      rfl
  | cons text rest ih =>
      have unfolded : printPieces
          (List.replicate (text :: rest).length (.directive {} .absent .absent 's'))
          ((text :: rest).map .string) out =
        (directiveText 's' (.string text) {} >>= fun own =>
          printPieces (List.replicate rest.length (.directive {} .absent .absent 's'))
            (rest.map .string) (out ++ String.ofList own)) := rfl
      rw [unfolded, Eval.bind_run_ok (directive_text text), ih, String.ofList_toList,
        String.join_cons, String.append_assoc]

theorem sprintf_texts (texts : List String) :
    (sprintf (textVerbs texts.length) (texts.map .string)).run ev m =
      .ok (String.join texts) m := by
  unfold sprintf
  rw [pieces_textVerbs, Eval.bind_run_ok (printPieces_texts texts ""), String.empty_append]
  rfl

end Format

/-- How operands are printed: one after another, as a line, or as a format text says. -/
inductive Printing
  | plain
  | line
  | formatted (format : String)

namespace Printing

open Library

/-- The text that operands make. -/
def text : Printing → List Value → Eval String
  | plain, operands => Format.sprint operands
  | line, operands => Format.sprintln operands
  | formatted format, operands => Format.sprintf format operands

/-- The call that returns the text. -/
def returned : Printing → List Value → Eval Value
  | plain, operands => FmtFunction.sprint.call operands
  | line, operands => FmtFunction.sprintln.call operands
  | formatted format, operands => FmtFunction.sprintf.call (.string format :: operands)

/-- The call that adds the text to a builder. -/
def into (o : StructId) : Printing → List Value → Eval Value
  | plain, operands => FmtFunction.fprint.call (.pointer o :: operands)
  | line, operands => FmtFunction.fprintln.call (.pointer o :: operands)
  | formatted format, operands =>
    FmtFunction.fprintf.call (.pointer o :: .string format :: operands)

theorem returned_eq (p : Printing) (operands : List Value) :
    p.returned operands = (p.text operands >>= fun text => pure (.string text)) := by
  cases p <;> rfl

theorem into_eq (p : Printing) (o : StructId) (operands : List Value) :
    p.into o operands = (p.text operands >>= FmtFunction.emit (.pointer o)) := by
  cases p <;> rfl

variable {made : String} {m' : Machine} {operands : List Value} {p : Printing}

theorem returned_builds (printed : (p.text operands).run ev m = .ok made m') :
    SurelyBuilds (p.returned operands) ev m none returnedSize made.utf8ByteSize := by
  have ran : (p.returned operands).run ev m = .ok (.string made) m' := by
    rw [returned_eq, Eval.bind_run_ok printed]
    rfl
  exact .freely ran rfl

theorem into_builds {o : StructId} (printed : (p.text operands).run ev m = .ok made m')
    (builder : m'.store.IsBuilder o) :
    SurelyBuilds (p.into o operands) ev m none (builderSize o)
      ((Eval.builtText m'.store o).utf8ByteSize + made.utf8ByteSize) := by
  obtain ⟨after, added, exact⟩ :=
    Eval.appendBuilt_run builder made (success (lengthValue made))
  have ran : (p.into o operands).run ev m = .ok (success (lengthValue made)) after := by
    have named : (Eval.viewStore (·.structName o)).run ev m' = .ok builderType m' := by
      rw [← builder.1]
      rfl
    rw [into_eq, Eval.bind_run_ok printed]
    show (Eval.viewStore (·.structName o) >>= _).run ev m' = _
    rw [Eval.bind_run_ok named, if_pos rfl]
    exact added
  exact .freely ran exact

/-- The ways to print all of some texts. -/
def ofTexts (texts : List String) : List Printing :=
  [plain, line, formatted (Format.textVerbs texts.length)]

theorem text_ofTexts {texts : List String} (isIn : p ∈ ofTexts texts) (ev : Evaluator)
    (m : Machine) :
    ∃ printed, (p.text (texts.map .string)).run ev m = .ok printed m ∧
      (String.join texts).utf8ByteSize ≤ printed.utf8ByteSize := by
  simp only [ofTexts, List.mem_cons, List.not_mem_nil, or_false] at isIn
  rcases isIn with rfl | rfl | rfl
  · exact ⟨_, Format.sprint_texts texts, Nat.le_refl _⟩
  · refine ⟨_, Format.sprintln_texts texts, ?_⟩
    rw [String.utf8ByteSize_append, Text.utf8ByteSize_intercalate]
    omega
  · exact ⟨_, Format.sprintf_texts texts, Nat.le_refl _⟩

end Printing

/-! ## Joining, replacing and mapping -/

namespace Library.StringsFunction

theorem join_run {view : SliceView} {texts : List String} (separator : String)
    (items : m.store.elements view = texts.map .string) :
    (join.call [.slice view, .string separator]).run ev m =
      .ok (.string (String.intercalate separator texts)) m := by
  have read : (Eval.elements view).run ev m = .ok (texts.map .string) m := by
    rw [← items]
    rfl
  show (Eval.elements view >>= fun values => Eval.asStrings values >>= fun texts =>
    pure (Value.string (String.intercalate separator texts))).run ev m = _
  rw [Eval.bind_run_ok read, Eval.bind_run_ok (Eval.asStrings_run texts ev m)]
  rfl

theorem join_builds {view : SliceView} {texts : List String} (separator : String)
    (items : m.store.elements view = texts.map .string) :
    SurelyBuilds (join.call [.slice view, .string separator]) ev m none returnedSize
      ((String.join texts).utf8ByteSize + (texts.length - 1) * separator.utf8ByteSize) :=
  .freely (join_run separator items) (Text.utf8ByteSize_intercalate separator texts)

/-- How often to replace at most: as often as it says, or everywhere if it is negative. -/
def timesIn (text : String) (count : Int64) : Nat :=
  if count < 0 then text.toList.length + 1 else count.toInt.toNat

theorem replace_builds (text old new : String) (count : Int64) :
    SurelyBuilds
      (replace.call [.string text, .string old, .string new, .int count]) ev m none returnedSize
      (Text.replacedSize text old new (timesIn text count)) := by
  have unfolded : replace.call [.string text, .string old, .string new, .int count] =
      pure (.string (String.ofList
        (if count < 0 then Text.replaceAll old.toList new.toList text.toList
         else Text.replaceAtMost old.toList new.toList count.toInt.toNat text.toList))) := rfl
  have chosen : (if count < 0 then Text.replaceAll old.toList new.toList text.toList
      else Text.replaceAtMost old.toList new.toList count.toInt.toNat text.toList) =
        Text.replaceAtMost old.toList new.toList (timesIn text count) text.toList := by
    unfold timesIn Text.replaceAll
    split <;> rfl
  rw [unfolded, chosen]
  exact .freely rfl (Text.utf8ByteSize_replaceAtMost text old new (timesIn text count))

theorem replaceAll_builds (text old new : String) :
    SurelyBuilds (replaceAll.call [.string text, .string old, .string new]) ev m none returnedSize
      (Text.replacedSize text old new (text.toList.length + 1)) :=
  .freely rfl (Text.utf8ByteSize_replaceAtMost text old new (text.toList.length + 1))

end Library.StringsFunction

/-- A function of the program answers for some characters, one call after another. -/
inductive Answers (ev : Evaluator) (f : Value) :
    Machine → List Char → List Int64 → Machine → Prop
  | nil {m : Machine} : Answers ev f m [] [] m
  | cons {m between after : Machine} {c : Char} {answer : Int64} {rest : List Char}
      {answers : List Int64}
      (called : (Eval.callFunction f [Library.countValue c.toNat]).run ev m =
        .ok (.int answer) between)
      (others : Answers ev f between rest answers after) :
      Answers ev f m (c :: rest) (answer :: answers) after

/-- The characters that answers stand for; a negative one stands for none. -/
def answeredChars (answers : List Int64) : List Char :=
  answers.filterMap fun answer =>
    if answer < 0 then none else some ((Library.runeOf? answer).getD Text.replacement)

namespace Library

theorem mapCalled_run {f : Value} {chars : List Char} {answers : List Int64} {m' : Machine}
    (answered : Answers ev f m chars answers m') (out : String) :
    ∃ mapped, (mapCalled f chars out).run ev m = .ok mapped m' ∧
      mapped = out ++ String.ofList (answeredChars answers) := by
  induction answered generalizing out with
  | nil => exact ⟨out, rfl, String.append_empty.symm⟩
  | @cons m between after c answer rest answers called others ih =>
      obtain ⟨mapped, returned, is⟩ := ih
        (if answer < 0 then out else out.push ((runeOf? answer).getD Text.replacement))
      refine ⟨mapped, ?_, ?_⟩
      · show (Eval.callFunction f [countValue c.toNat] >>= fun v => Eval.asInt v >>= fun mapped =>
          mapCalled f rest _).run ev m = _
        rw [Eval.bind_run_ok called]
        exact returned
      · rw [is]
        by_cases negative : answer < 0
        · simp [answeredChars, negative]
        · simp [answeredChars, negative, ← String.append_singleton, String.append_assoc]

theorem map_builds {f : Value} {text : String} {answers : List Int64} {m' : Machine}
    (answered : Answers ev f m text.toList answers m') :
    SurelyBuilds (StringsFunction.map.call [f, .string text]) ev m none returnedSize
      (Text.byteLength (answeredChars answers)) := by
  obtain ⟨mapped, returned, is⟩ := mapCalled_run answered ""
  have called : (StringsFunction.map.call [f, .string text]).run ev m =
      .ok (.string mapped) m' := by
    show (mapCalled f text.toList "" >>= fun mapped => pure (Value.string mapped)).run ev m = _
    rw [Eval.bind_run_ok returned]
    rfl
  refine .freely called ?_
  show mapped.utf8ByteSize = _
  rw [is, String.empty_append, Text.byteLength_ofList]

end Library

/-! ## Converting -/

/-- How many bytes the text of some integers has: as many as there are if they are a text in bytes,
or else as many as their characters have. -/
def spelledSize (codes : List Int64) : Nat :=
  if (codes.all fun c => 0 ≤ c && c < 256) ∧
      (ByteArray.mk (codes.map fun c => c.toUInt64.toUInt8).toArray).IsValidUTF8 then codes.length
  else Text.byteLength (codes.map Eval.charOfInt)

namespace Eval

theorem utf8ByteSize_textOfInts (codes : List Int64) :
    (textOfInts codes).utf8ByteSize = spelledSize codes := by
  unfold textOfInts spelledSize String.fromUTF8?
  by_cases bytes : codes.all fun c => 0 ≤ c && c < 256
  · rw [if_pos bytes]
    split
    · rename_i valid
      rw [if_pos ⟨bytes, valid⟩]
      show (codes.map fun c => c.toUInt64.toUInt8).toArray.size = codes.length
      simp
    · rename_i invalid
      rw [if_neg (fun both => invalid both.2)]
      exact Text.byteLength_ofList (codes.map charOfInt)
  · rw [if_neg bytes, if_neg (fun both => bytes both.1)]
    exact Text.byteLength_ofList (codes.map charOfInt)

theorem convertText_builds {view : SliceView} {codes : List Int64} (name : String)
    (ty : Source.TypeExpr) (items : m.store.elements view = codes.map .int) :
    SurelyBuilds (convertBasic .string name (.slice view) ty) ev m none returnedSize
      (spelledSize codes) := by
  have read : (elements view).run ev m = .ok (codes.map .int) m := by
    rw [← items]
    rfl
  have returned : (convertBasic .string name (.slice view) ty).run ev m =
      .ok (.string (textOfInts codes)) m := by
    show (elements view >>= fun values => asInts values >>= fun codes =>
      pure (Value.string (textOfInts codes))).run ev m = _
    rw [bind_run_ok read, bind_run_ok (asInts_run codes ev m)]
    rfl
  exact .freely returned (utf8ByteSize_textOfInts codes)

theorem convertRune_builds (name : String) (code : Int64) (ty : Source.TypeExpr) :
    SurelyBuilds (convertBasic .string name (.int code) ty) ev m none returnedSize
      (charOfInt code).utf8Size :=
  .freely rfl String.utf8ByteSize_singleton

variable {ty : Source.TypeExpr} {name : String}

theorem convertBytes_builds (under : m.types.underlying ty = .slice (.named name))
    (isByte : name = "byte" ∨ name = "uint8") (text : String) :
    SurelyBuilds (convert (.string text) ty) ev m none returnedSize text.utf8ByteSize := by
  have ran : (convert (.string text) ty).run ev m = (byteSlice text).run ev m := by
    unfold convert
    rw [bind_run_ok (underlying_run under)]
    rcases isByte with rfl | rfl <;> rfl
  refine .of_run ran (.freely rfl ?_)
  show ((Text.bytesOf text).map fun b => Value.int (Int64.ofNat b.toNat)).toArray.size = _
  rw [List.size_toArray, List.length_map, Text.length_bytesOf]

theorem convertRunes_builds (under : m.types.underlying ty = .slice (.named name))
    (isRune : name = "rune" ∨ name = "int32") (text : String) :
    SurelyBuilds (convert (.string text) ty) ev m none returnedSize text.toList.length := by
  have ran : (convert (.string text) ty).run ev m =
      (newSlice (text.toList.map fun c => .int (Int64.ofNat c.toNat))).run ev m := by
    unfold convert
    rw [bind_run_ok (underlying_run under)]
    rcases isRune with rfl | rfl <;> rfl
  refine .of_run ran (.freely rfl ?_)
  show (text.toList.map fun c => Value.int (Int64.ofNat c.toNat)).toArray.size = _
  rw [List.size_toArray, List.length_map]

end Eval

end SandboxedGo
