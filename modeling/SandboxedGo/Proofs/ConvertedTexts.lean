import SandboxedGo.Proofs.HostBoundary
import SandboxedGo.Proofs.QuotedTexts
import SandboxedGo.Proofs.UnaskedTexts

/-!
# Texts converted to slices and back

A slice of bytes and a slice of characters are both slices of integers, so the conversion back to a
text has to guess: integers that are well-formed bytes are bytes.  The bytes of a text always are,
and the text comes back.  Its characters are not, unless all of them are below 256 and well-formed
as bytes; then the text of those bytes comes back.  Main statement: `convert_thereAndBack`.
-/

set_option autoImplicit false

namespace SandboxedGo.Text

/-! ## The bytes of a text -/

theorem toList_eq (bytes : ByteArray) : bytes.toList = bytes.data.toList := by
  have all (place : Nat) (read : List UInt8) :
      ByteArray.toList.loop bytes place read = read.reverse ++ bytes.data.toList.drop place := by
    fun_induction ByteArray.toList.loop bytes place read with
    | case1 place read inside ih =>
        have held : place < bytes.data.toList.length := by
          rwa [Array.length_toList]
        have here : bytes.get! place = bytes.data.toList[place] := by
          rw [Array.getElem_toList]
          exact getElem!_pos bytes.data place inside
        rw [ih, List.drop_eq_getElem_cons held, List.reverse_cons, List.append_assoc,
          List.singleton_append, here]
    | case2 place read outside =>
        rw [List.drop_eq_nil_of_le (by rw [Array.length_toList]; exact Nat.not_lt.mp outside),
          List.append_nil]
  exact all 0 []

theorem fromUTF8?_toByteArray (s : String) : String.fromUTF8? s.toByteArray = some s :=
  dif_pos s.isValidUTF8

theorem fromUTF8?_bytesOf (s : String) : String.fromUTF8? ⟨(bytesOf s).toArray⟩ = some s := by
  rw [bytesOf, toList_eq, Array.toArray_toList]
  exact fromUTF8?_toByteArray s

/-! ## Characters taken for bytes -/

/-- The text that has the characters of `s` as its bytes, if there is one. -/
def readAsBytes? (s : String) : Option String :=
  if s.toList.all (·.toNat < 256) then
    String.fromUTF8? ⟨(s.toList.map fun c => UInt8.ofNat c.toNat).toArray⟩
  else none

/-- The characters with one byte are those below 128, and the byte is the character. -/
theorem utf8EncodeChar_of_lt {c : Char} (ascii : c.toNat < 128) :
    String.utf8EncodeChar c = [UInt8.ofNat c.toNat] := by
  have small : c.val.toNat ≤ 127 := Nat.le_of_lt_succ ascii
  unfold String.utf8EncodeChar
  simp only [small, if_true]
  rfl

theorem toByteArray_of_ascii {s : String} (ascii : ∀ c ∈ s.toList, c.toNat < 128) :
    s.toByteArray = ⟨(s.toList.map fun c => UInt8.ofNat c.toNat).toArray⟩ := by
  have encoded (chars : List Char) (ascii : ∀ c ∈ chars, c.toNat < 128) :
      chars.flatMap String.utf8EncodeChar = chars.map fun c => UInt8.ofNat c.toNat := by
    induction chars with
    | nil => rfl
    | cons c rest ih =>
        rw [List.flatMap_cons, utf8EncodeChar_of_lt (ascii c List.mem_cons_self),
          ih fun d isIn => ascii d (List.mem_cons_of_mem c isIn)]
        rfl
  have bytes : s.toByteArray = s.toList.utf8Encode := by
    rw [← String.toByteArray_ofList, String.ofList_toList]
  rw [bytes, ← encoded s.toList ascii]
  exact ByteArray.ext List.data_toByteArray

theorem ascii_of_byteLength {chars : List Char} (sizes : byteLength chars = chars.length) :
    ∀ c ∈ chars, c.toNat < 128 := by
  have atLeast (chars : List Char) : chars.length ≤ byteLength chars := by
    induction chars with
    | nil => exact Nat.le_refl 0
    | cons c rest ih =>
        have := c.utf8Size_pos
        rw [byteLength, List.length_cons]
        omega
  induction chars with
  | nil => exact fun _ isIn => absurd isIn List.not_mem_nil
  | cons c rest ih =>
      have others := atLeast rest
      have own := c.utf8Size_pos
      rw [byteLength, List.length_cons] at sizes
      have single : c.utf8Size = 1 := by omega
      have ascii : c.toNat < 128 := Nat.lt_succ_of_le (Char.utf8Size_eq_one_iff.mp single)
      exact List.forall_mem_cons.mpr ⟨ascii, ih (by omega)⟩

theorem utf8ByteSize_of_readAsBytes {s t : String} (read : readAsBytes? s = some t) :
    t.utf8ByteSize = s.toList.length := by
  unfold readAsBytes? String.fromUTF8? at read
  split at read
  · split at read
    · cases read
      show (s.toList.map fun c => UInt8.ofNat c.toNat).toArray.size = _
      rw [List.size_toArray, List.length_map]
    · cases read
  · cases read

/-- Taking the characters for bytes keeps the text exactly if they are no text in bytes, or if each
character has one byte. -/
theorem readAsBytes?_getD_eq_iff (s : String) :
    (readAsBytes? s).getD s = s ↔ readAsBytes? s = none ∨ ∀ c ∈ s.toList, c.toNat < 128 := by
  constructor
  · intro same
    cases read : readAsBytes? s with
    | none => exact .inl rfl
    | some t =>
        rw [read] at same
        obtain rfl : t = s := same
        have sizes : byteLength t.toList = t.toList.length :=
          (byteLength_toList t).trans (utf8ByteSize_of_readAsBytes read)
        exact .inr (ascii_of_byteLength sizes)
  · rintro (none | ascii)
    · rw [none]
      rfl
    · have small : s.toList.all (·.toNat < 256) = true := by
        refine List.all_eq_true.mpr fun c isIn => decide_eq_true ?_
        exact Nat.lt_trans (ascii c isIn) (by decide)
      have read : readAsBytes? s = some s := by
        rw [readAsBytes?, if_pos small, ← toByteArray_of_ascii ascii, fromUTF8?_toByteArray]
      rw [read]
      rfl

end SandboxedGo.Text

namespace SandboxedGo.Eval

open Text

variable {ev : Evaluator} {m : Machine}

/-! ## The text of integers -/

theorem code_lt (c : Char) : c.toNat < 2 ^ 63 := Nat.lt_trans c.val.toNat_lt (by decide)

theorem charOfInt_ofNat (c : Char) : charOfInt (Int64.ofNat c.toNat) = c := by
  have exact : (Int64.ofNat c.toNat).toInt = c.toNat := Int64.toInt_ofNat_of_lt (code_lt c)
  have notNegative : ¬Int64.ofNat c.toNat < 0 := by
    rw [Int64.lt_iff_toInt_lt, exact]
    exact Int.not_lt.mpr (Int.natCast_nonneg _)
  rw [charOfInt, if_neg notNegative, exact, Int.toNat_natCast, charOfCode,
    Source.charOfCode_toNat]
  rfl

theorem inByteRange_ofNat {n : Nat} (small : n < 2 ^ 63) :
    (0 ≤ Int64.ofNat n && Int64.ofNat n < 256) = decide (n < 256) := by
  have exact : (Int64.ofNat n).toInt = n := Int64.toInt_ofNat_of_lt small
  have lower : (0 : Int64) ≤ Int64.ofNat n := by
    rw [Int64.le_iff_toInt_le, exact]
    exact Int.natCast_nonneg _
  have upper : Int64.ofNat n < 256 ↔ n < 256 := by
    rw [Int64.lt_iff_toInt_lt, exact]
    exact Int.ofNat_lt
  simp only [lower, upper, decide_true, Bool.true_and]

theorem textOfInts_bytesOf (s : String) :
    textOfInts ((bytesOf s).map fun b => Int64.ofNat b.toNat) = s := by
  have bytes : ((bytesOf s).map fun b => Int64.ofNat b.toNat).map (fun n => n.toUInt64.toUInt8) =
      bytesOf s := by
    rw [List.map_map]
    exact List.map_id'' (fun b => by simp) _
  have inRange : ((bytesOf s).map fun b => Int64.ofNat b.toNat).all
      (fun n => 0 ≤ n && n < 256) = true := by
    rw [List.all_map, List.all_eq_true]
    intro b _
    have small : b.toNat < 2 ^ 63 := Nat.lt_trans b.toNat_lt (by decide)
    exact (inByteRange_ofNat small).trans (decide_eq_true b.toNat_lt)
  rw [textOfInts, if_pos inRange, bytes, fromUTF8?_bytesOf]
  rfl

theorem textOfInts_codes (s : String) :
    textOfInts (s.toList.map fun c => Int64.ofNat c.toNat) = (readAsBytes? s).getD s := by
  have chars : (s.toList.map fun c => Int64.ofNat c.toNat).map charOfInt = s.toList := by
    rw [List.map_map]
    exact List.map_id'' charOfInt_ofNat _
  have bytes : (s.toList.map fun c => Int64.ofNat c.toNat).map (fun n => n.toUInt64.toUInt8) =
      s.toList.map fun c => UInt8.ofNat c.toNat := by
    rw [List.map_map]
    exact List.map_congr_left fun c _ => by simp
  have inRange : (s.toList.map fun c => Int64.ofNat c.toNat).all (fun n => 0 ≤ n && n < 256) =
      s.toList.all (·.toNat < 256) := by
    rw [List.all_map]
    exact congrArg s.toList.all (funext fun c => inByteRange_ofNat (code_lt c))
  rw [textOfInts, inRange, chars, bytes, String.ofList_toList, readAsBytes?]
  split
  · rfl
  · rfl

/-! ## There and back -/

/-- A text converted to a slice type, and the slice converted to a text type. -/
def thereAndBack (s : String) (there back : Source.TypeExpr) : Eval Value := do
  convert (← convert (.string s) there) back

variable {bytes runes text : Source.TypeExpr} {byteName runeName : String}

theorem convert_slice_run {view : SliceView} {codes : List Int64}
    (isText : m.types.underlying text = .named "string")
    (items : m.store.elements view = codes.map .int) :
    (convert (.slice view) text).run ev m = .ok (.string (textOfInts codes)) m := by
  have read : (elements view).run ev m = .ok (codes.map .int) m := by
    rw [← items]
    rfl
  have converted : (convert (.slice view) text).run ev m =
      (elements view >>= fun values => asInts values >>= fun codes =>
        pure (Value.string (textOfInts codes))).run ev m := by
    unfold convert
    rw [bind_run_ok (underlying_run isText)]
    rfl
  rw [converted, bind_run_ok read, bind_run_ok (asInts_run codes ev m)]
  rfl

theorem newSlice_convert_run (isText : m.types.underlying text = .named "string")
    (ev : Evaluator) (codes : List Int64) :
    ∃ store, (newSlice (codes.map .int) >>= fun v => convert v text).run ev m =
      .ok (.string (textOfInts codes)) { m with store } := by
  let made := m.store.newSlice (codes.map Value.int).toArray
  have new : (newSlice (codes.map .int)).run ev m =
      .ok (.slice made.1) { m with store := made.2 } :=
    rfl
  refine ⟨made.2, ?_⟩
  rw [bind_run_ok new]
  exact convert_slice_run isText (Store.elements_newSlice _ _ (.refl _))

theorem thereAndBack_bytes (ev : Evaluator)
    (isBytes : m.types.underlying bytes = .slice (.named byteName))
    (isByte : byteName = "byte" ∨ byteName = "uint8")
    (isText : m.types.underlying text = .named "string") (s : String) :
    ∃ store, (thereAndBack s bytes text).run ev m = .ok (.string s) { m with store } := by
  have there : (convert (.string s) bytes).run ev m = (byteSlice s).run ev m := by
    unfold convert
    rw [bind_run_ok (underlying_run isBytes)]
    rcases isByte with rfl | rfl <;> rfl
  obtain ⟨store, back⟩ :=
    newSlice_convert_run isText ev ((bytesOf s).map fun b => Int64.ofNat b.toNat)
  rw [List.map_map, textOfInts_bytesOf] at back
  refine ⟨store, ?_⟩
  unfold thereAndBack
  rw [bind_run, there, ← bind_run]
  exact back

theorem thereAndBack_runes (ev : Evaluator)
    (isRunes : m.types.underlying runes = .slice (.named runeName))
    (isRune : runeName = "rune" ∨ runeName = "int32")
    (isText : m.types.underlying text = .named "string") (s : String) :
    ∃ store, (thereAndBack s runes text).run ev m =
      .ok (.string ((readAsBytes? s).getD s)) { m with store } := by
  have there : (convert (.string s) runes).run ev m =
      (newSlice (s.toList.map fun c => .int (Int64.ofNat c.toNat))).run ev m := by
    unfold convert
    rw [bind_run_ok (underlying_run isRunes)]
    rcases isRune with rfl | rfl <;> rfl
  obtain ⟨store, back⟩ :=
    newSlice_convert_run isText ev (s.toList.map fun c => Int64.ofNat c.toNat)
  rw [List.map_map, textOfInts_codes] at back
  refine ⟨store, ?_⟩
  unfold thereAndBack
  rw [bind_run, there, ← bind_run]
  exact back

/-- Every text comes back from its bytes.  It comes back from its characters unless these are a text
in bytes and not all of them have one byte; then that text comes back, and it is another one. -/
theorem convert_thereAndBack (ev : Evaluator) (m : Machine)
    (isBytes : m.types.underlying bytes = .slice (.named byteName))
    (isByte : byteName = "byte" ∨ byteName = "uint8")
    (isRunes : m.types.underlying runes = .slice (.named runeName))
    (isRune : runeName = "rune" ∨ runeName = "int32")
    (isText : m.types.underlying text = .named "string") (s : String) :
    (∃ store, (thereAndBack s bytes text).run ev m = .ok (.string s) { m with store }) ∧
      (∃ store, (thereAndBack s runes text).run ev m =
        .ok (.string ((readAsBytes? s).getD s)) { m with store }) ∧
      ((readAsBytes? s).getD s = s ↔ readAsBytes? s = none ∨ ∀ c ∈ s.toList, c.toNat < 128) :=
  ⟨thereAndBack_bytes ev isBytes isByte isText s, thereAndBack_runes ev isRunes isRune isText s,
    readAsBytes?_getD_eq_iff s⟩

theorem convert_thereAndBack_initial :
    let m := Machine.initial {}
    m.types.underlying (.slice (.named "byte")) = .slice (.named "byte") ∧
      m.types.underlying (.slice (.named "rune")) = .slice (.named "rune") ∧
      m.types.underlying (.named "string") = .named "string" ∧
      ∃ store, (thereAndBack "é" (.slice (.named "byte")) (.named "string")).run
        (Evaluator.ofDepth 0) m = .ok (.string "é") { m with store } := by
  intro m
  have isBytes : m.types.underlying (.slice (.named "byte")) = .slice (.named "byte") := rfl
  have isRunes : m.types.underlying (.slice (.named "rune")) = .slice (.named "rune") := rfl
  have isText : m.types.underlying (.named "string") = .named "string" := rfl
  have back := convert_thereAndBack (Evaluator.ofDepth 0) m isBytes (.inl rfl) isRunes (.inl rfl)
    isText "é"
  exact ⟨isBytes, isRunes, isText, back.1⟩

theorem readAsBytes?_twoLetters : readAsBytes? "Ã©" = some "é" := by
  have bytes : (("Ã©".toList.map fun c => UInt8.ofNat c.toNat).toArray) = "é".toByteArray.data := by
    decide
  rw [readAsBytes?, if_pos (by decide), bytes, fromUTF8?_toByteArray]

/-- One of the letters comes back for both. -/
theorem twoLetters_come_back_as_one :
    (∃ store, (thereAndBack "Ã©" (.slice (.named "rune")) (.named "string")).run
      (Evaluator.ofDepth 0) (Machine.initial {}) =
        .ok (.string "é") { Machine.initial {} with store }) ∧ "é" ≠ "Ã©" := by
  have isRunes : (Machine.initial {}).types.underlying (.slice (.named "rune")) =
      .slice (.named "rune") := rfl
  have isText : (Machine.initial {}).types.underlying (.named "string") = .named "string" := rfl
  have back := thereAndBack_runes (Evaluator.ofDepth 0) isRunes (.inl rfl) isText "Ã©"
  rw [readAsBytes?_twoLetters] at back
  exact ⟨back, by decide⟩

end SandboxedGo.Eval
