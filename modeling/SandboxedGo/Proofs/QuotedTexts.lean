import Mathlib.Algebra.Ring.Nat
import SandboxedGo.Proofs.HiddenAlias
import SandboxedGo.Text.Quoted

/-!
# Quoted texts are read back

Every character of a quoted text is either written as it is or as an escape, and one step of the
lexer inside a literal reads it back, whatever follows.  So the lexer reads a quoted text as one
string with the same value, and so does the scanner, which agrees with it on literals.
Main statement: `quoted_reads_back`.
-/

set_option autoImplicit false

namespace SandboxedGo.Source

open Text Submission

/-! ## Hexadecimal digits -/

theorem hexDigit_digitChar :
    ∀ d < 16, Cursor.isHexDigit (digitChar d) = true ∧ Cursor.hexValue (digitChar d) = d := by
  decide

theorem isHexDigit_digitsBefore (n : Nat) (others : List Char)
    (hex : ∀ d ∈ others, Cursor.isHexDigit d = true) :
    ∀ d ∈ digitsBefore 16 n others, Cursor.isHexDigit d = true := by
  fun_induction digitsBefore 16 n others with
  | case1 n others last =>
      exact List.forall_mem_cons.mpr ⟨(hexDigit_digitChar n (by omega)).1, hex⟩
  | case2 n others _ ih =>
      have last := (hexDigit_digitChar _ (Nat.mod_lt n (by omega))).1
      exact ih (List.forall_mem_cons.mpr ⟨last, hex⟩)

/-- Digits in front of others write the number that the others go on with. -/
theorem hexNumber_digitsBefore (n : Nat) (others : List Char) :
    Cursor.hexNumber (digitsBefore 16 n others) =
      others.foldl (fun read d => 16 * read + Cursor.hexValue d) n := by
  fun_induction digitsBefore 16 n others with
  | case1 n others last => simp [Cursor.hexNumber, (hexDigit_digitChar n (by omega)).2]
  | case2 n others _ ih =>
      rw [ih, List.foldl_cons, (hexDigit_digitChar _ (Nat.mod_lt n (by omega))).2,
        Nat.div_add_mod]

theorem length_digitsBefore (n : Nat) (others : List Char) :
    ∀ width, n < 16 ^ (width + 1) →
      (digitsBefore 16 n others).length ≤ width + 1 + others.length := by
  fun_induction digitsBefore 16 n others with
  | case1 n others last =>
      intro width _
      rw [List.length_cons]
      omega
  | case2 n others more ih =>
      intro width fits
      cases width with
      | zero => exact absurd fits (by omega)
      | succ width =>
          have shorter := ih width (Nat.div_lt_of_lt_mul (by rw [← Nat.pow_succ']; exact fits))
          rw [List.length_cons] at shorter
          omega

theorem hexNumber_zeros (count : Nat) (digits : List Char) :
    Cursor.hexNumber (List.replicate count '0' ++ digits) = Cursor.hexNumber digits := by
  induction count with
  | zero => rfl
  | succ count ih => exact ih

/-- A number that fits is written with digits of the width, which are read back. -/
theorem digitsIn_hex {width n : Nat} (fits : n < 16 ^ (width + 1)) :
    (digitsIn 16 (width + 1) n).length = width + 1 ∧
      (∀ d ∈ digitsIn 16 (width + 1) n, Cursor.isHexDigit d = true) ∧
      Cursor.hexNumber (digitsIn 16 (width + 1) n) = n := by
  have short := length_digitsBefore n [] width fits
  rw [List.length_nil] at short
  unfold digitsIn
  dsimp only
  refine ⟨?_, ?_, ?_⟩
  · rw [List.length_append, List.length_replicate]
    omega
  · intro d member
    rcases List.mem_append.mp member with zero | digit
    · rw [List.eq_of_mem_replicate zero]
      rfl
    · exact isHexDigit_digitsBefore n [] (List.forall_mem_nil _) d digit
  · rw [hexNumber_zeros, hexNumber_digitsBefore]
    rfl

/-! ## Escapes -/

/-- Behind a backslash the lexer reads these characters as these bytes, whatever follows. -/
def EscapeOf (spelled : List Char) (bytes : List UInt8) : Prop :=
  ∀ (start : Position) (cur : Cursor) (rest : List Char), cur.rest = spelled ++ rest →
    ∃ after, Cursor.readEscape start cur = .ok (bytes, after) ∧ after.rest = rest

theorem escapeOf_letter {letter : Char} {byte : UInt8}
    (simple : Cursor.simpleEscape? letter = some byte) : EscapeOf [letter] [byte] := by
  intro start cur rest text
  refine ⟨cur.skip 1, ?_, by rw [Cursor.skip_rest, text]; rfl⟩
  unfold Cursor.readEscape
  simp only [text, List.cons_append, List.nil_append, simple]

theorem hexEscape_reads (width : Nat) {n : Nat} (fits : n < 16 ^ (width + 1)) (start : Position)
    {cur : Cursor} {letter : Char} {rest : List Char}
    (text : cur.rest = letter :: (digitsIn 16 (width + 1) n ++ rest)) :
    ∃ after, Cursor.hexEscape start cur (width + 1) = .ok (n, after) ∧ after.rest = rest := by
  obtain ⟨length, hex, value⟩ := digitsIn_hex fits
  have digits : (cur.rest.drop 1).take (width + 1) = digitsIn 16 (width + 1) n := by
    rw [text, List.drop_succ_cons, List.drop_zero, List.take_left' length]
  have left : (cur.skip (1 + (width + 1))).rest = rest := by
    rw [Cursor.skip_rest, text, Nat.add_comm, List.drop_succ_cons, List.drop_left' length]
  refine ⟨_, ?_, left⟩
  unfold Cursor.hexEscape
  dsimp only
  rw [digits, if_pos ⟨length, List.all_eq_true.mpr hex⟩, value]

theorem escapeOf_byte {n : Nat} (fits : n < 256) :
    EscapeOf ('x' :: digitsIn 16 2 n) [UInt8.ofNat n] := by
  intro start cur rest text
  obtain ⟨after, read, left⟩ := hexEscape_reads 1 fits start text
  refine ⟨after, ?_, left⟩
  unfold Cursor.readEscape
  rw [text]
  simp only [List.cons_append, Cursor.simpleEscape?, read]
  rfl

theorem charOfCode_toNat (c : Char) : charOfCode? c.toNat = some c := by
  have valid : c.toNat.isValidChar := c.valid
  have same : Char.ofNatAux c.toNat valid = c := by
    have round := Char.ofNat_toNat c
    rwa [Char.ofNat, dif_pos valid] at round
  rw [charOfCode?, dif_pos valid, same]

theorem escapeOf_codePoint {c : Char} (fits : c.toNat < 65536) :
    EscapeOf ('u' :: digitsIn 16 4 c.toNat) (String.utf8EncodeChar c) := by
  intro start cur rest text
  obtain ⟨after, read, left⟩ := hexEscape_reads 3 fits start text
  refine ⟨after, ?_, left⟩
  have unicode : Cursor.unicodeEscape start cur 4 = .ok (String.utf8EncodeChar c, after) := by
    simp only [Cursor.unicodeEscape, read, charOfCode_toNat]
  unfold Cursor.readEscape
  rw [text]
  exact unicode

theorem utf8EncodeChar_basic {c : Char} (basic : c.toNat < 128) :
    String.utf8EncodeChar c = [UInt8.ofNat c.toNat] := by
  simp [String.utf8EncodeChar, Nat.le_of_lt_succ basic]

/-! ## Characters of literals -/

/-- The signs that literals begin and end with. -/
def IsDelimiter (delimiter : Char) : Prop := delimiter = '"' ∨ delimiter = '\''

/-- How a character may stand inside a literal: as itself or as an escape. -/
inductive SpelledIn (delimiter c : Char) : List Char → Prop
  | plain (noLine : c ≠ '\n') (inside : c ≠ delimiter) (noEscape : c ≠ '\\') :
      SpelledIn delimiter c [c]
  | escape {spelled : List Char} (reads : EscapeOf spelled (String.utf8EncodeChar c)) :
      SpelledIn delimiter c ('\\' :: spelled)

theorem SpelledIn.length_pos {delimiter c : Char} {spelled : List Char}
    (char : SpelledIn delimiter c spelled) : 0 < spelled.length := by
  cases char with
  | plain => exact Nat.one_pos
  | escape => exact Nat.succ_pos _

theorem spelledIn_literalChar {delimiter : Char} (quote : IsDelimiter delimiter) (c : Char) :
    SpelledIn delimiter c (literalChar delimiter c) := by
  unfold literalChar
  split
  · exact .escape (escapeOf_letter rfl)
  · exact .escape (escapeOf_letter rfl)
  · exact .escape (escapeOf_letter rfl)
  · exact .escape (escapeOf_letter rfl)
  · exact .escape (escapeOf_letter rfl)
  · exact .escape (escapeOf_letter rfl)
  · exact .escape (escapeOf_letter rfl)
  · exact .escape (escapeOf_letter rfl)
  rename_i noLine _ _ _ noEscape
  split
  · rename_i same
    subst same
    rcases quote with rfl | rfl
    · exact .escape (escapeOf_letter rfl)
    · exact .escape (escapeOf_letter rfl)
  rename_i inside
  split
  · rename_i low
    simp only [Bool.or_eq_true, decide_eq_true_eq] at low
    refine .escape ?_
    rw [utf8EncodeChar_basic (by omega)]
    exact escapeOf_byte (by omega)
  split
  · rename_i control
    simp only [isControl, Bool.or_eq_true, Bool.and_eq_true, decide_eq_true_eq] at control
    exact .escape (escapeOf_codePoint (by omega))
  · exact .plain noLine inside noEscape

section

variable {delimiter : Char} (quote : IsDelimiter delimiter) (start : Position) (fault : Fault)
include quote

/-- One step inside a literal reads a character, however it is spelled. -/
theorem readQuoted_char {c : Char} {spelled : List Char} (char : SpelledIn delimiter c spelled)
    (steps : Nat) (bytes : List UInt8) {cur : Cursor} {rest : List Char}
    (text : cur.rest = spelled ++ rest) :
    ∃ after, after.rest = rest ∧
      Cursor.readQuoted start delimiter fault (steps + 1) cur bytes =
        Cursor.readQuoted start delimiter fault steps after
          ((String.utf8EncodeChar c).reverse ++ bytes) := by
  cases char with
  | plain noLine inside noEscape =>
      refine ⟨cur.skip 1, by rw [Cursor.skip_rest, text]; rfl, ?_⟩
      rw [Cursor.readQuoted, text]
      simp only [List.cons_append, noLine, inside, noEscape, if_false]
  | escape reads =>
      have slash : '\\' ≠ delimiter := by rcases quote with rfl | rfl <;> decide
      obtain ⟨after, read, left⟩ := reads start (cur.skip 1) rest (by
        rw [Cursor.skip_rest, text]
        rfl)
      refine ⟨after, left, ?_⟩
      rw [Cursor.readQuoted, text]
      simp only [List.cons_append, slash, read, if_false, if_true, show '\\' ≠ '\n' by decide]

/-- The lexer reads the characters between the quotes of a literal back, one in a step. -/
theorem readQuoted_literal (behind : List Char) :
    ∀ (chars : List Char) (steps : Nat) (cur : Cursor) (bytes : List UInt8),
      chars.length < steps →
      cur.rest = chars.flatMap (literalChar delimiter) ++ delimiter :: behind →
      ∃ after, after.rest = behind ∧ Cursor.readQuoted start delimiter fault steps cur bytes =
        .ok ((chars.flatMap String.utf8EncodeChar).reverse ++ bytes, after) := by
  intro chars
  induction chars with
  | nil =>
      intro steps cur bytes enough text
      obtain ⟨steps, rfl⟩ : ∃ fewer, steps = fewer + 1 := Nat.exists_eq_add_one.mpr enough
      have noLine : delimiter ≠ '\n' := by rcases quote with rfl | rfl <;> decide
      refine ⟨cur.skip 1, by rw [Cursor.skip_rest, text]; rfl, ?_⟩
      rw [Cursor.readQuoted, text]
      simp [noLine]
  | cons c chars ih =>
      intro steps cur bytes enough text
      rw [List.length_cons] at enough
      obtain ⟨steps, rfl⟩ : ∃ fewer, steps = fewer + 1 := ⟨steps - 1, by omega⟩
      rw [List.flatMap_cons, List.append_assoc] at text
      obtain ⟨between, left, first⟩ :=
        readQuoted_char quote start fault (spelledIn_literalChar quote c) steps bytes text
      obtain ⟨after, leaves, others⟩ := ih steps between _ (by omega) left
      refine ⟨after, leaves, ?_⟩
      rw [first, others, List.flatMap_cons, List.reverse_append, List.append_assoc]

end

/-! ## Literals -/

theorem quotedText_utf8 (chars : List Char) :
    Cursor.quotedText (chars.flatMap String.utf8EncodeChar).reverse = String.ofList chars := by
  have bytes : (⟨(chars.flatMap String.utf8EncodeChar).toArray⟩ : ByteArray) =
      (String.ofList chars).toByteArray := by
    rw [String.toByteArray_ofList]
    exact ByteArray.ext List.data_toByteArray.symm
  unfold Cursor.quotedText ofBytes
  rw [List.reverse_reverse, bytes, String.fromUTF8?, dif_pos (String.ofList chars).isValidUTF8]
  rfl

theorem length_literal {delimiter : Char} (quote : IsDelimiter delimiter) (chars : List Char) :
    chars.length ≤ (chars.flatMap (literalChar delimiter)).length := by
  induction chars with
  | nil => exact Nat.le_refl _
  | cons c chars ih =>
      have some_ := (spelledIn_literalChar quote c).length_pos
      rw [List.flatMap_cons, List.length_append, List.length_cons]
      omega

theorem lexes_quote (s : String) (behind : List Char) :
    LexesWithin '"' (s.toList.flatMap (literalChar '"') ++ '"' :: behind)
      (.token (.string s)) behind := by
  intro cur bound text enough
  have inside : (cur.skip 1).rest = s.toList.flatMap (literalChar '"') ++ '"' :: behind := by
    rw [Cursor.skip_rest, text]
    rfl
  have long := length_literal (.inl rfl) s.toList
  rw [List.length_append, List.length_cons] at enough
  obtain ⟨after, left, read⟩ := readQuoted_literal (.inl rfl) cur.position .stringNotTerminated
    behind s.toList bound (cur.skip 1) [] (by omega) inside
  refine ⟨after, ?_, left⟩
  have step : cur.step bound '"' = cur.readString bound := rfl
  rw [step, Cursor.readString, read, List.append_nil]
  show Except.ok _ = _
  rw [quotedText_utf8, String.ofList_toList]

theorem lexes_quoteRune (c : Char) (behind : List Char) :
    LexesWithin '\'' (literalChar '\'' c ++ '\'' :: behind) (.token (.rune c)) behind := by
  intro cur bound text enough
  have inside : (cur.skip 1).rest = [c].flatMap (literalChar '\'') ++ '\'' :: behind := by
    rw [Cursor.skip_rest, text, List.flatMap_singleton]
    rfl
  have long := length_literal (.inr rfl) [c]
  rw [List.flatMap_singleton] at long
  rw [List.length_append, List.length_cons] at enough
  obtain ⟨after, left, read⟩ := readQuoted_literal (.inr rfl) cur.position .runeNotTerminated
    behind [c] bound (cur.skip 1) [] (by omega) inside
  refine ⟨after, ?_, left⟩
  have step : cur.step bound '\'' = cur.readRune bound := rfl
  rw [step, Cursor.readRune, read, List.append_nil]
  dsimp only [bind, Except.bind]
  rw [quotedText_utf8, String.toList_ofList]
  rfl

theorem readAs_lastLine : ReadAs true [] [.mark .semi, .endOfText] := by
  intro n cur read text _ mayEnd
  refine ⟨⟨.endOfText, cur.position⟩ :: Cursor.endLine cur.position read, ?_, ?_⟩
  · cases n with
    | zero => rfl
    | succ n => simp only [Cursor.readTokens, text]
  · rw [endLine_of_true mayEnd]
    simp

theorem toList_quote (s : String) :
    (quote s).toList = '"' :: (s.toList.flatMap (literalChar '"') ++ ['"']) := by
  rw [quote, String.toList_ofList]
  rfl

theorem toList_quoteRune (c : Char) :
    (quoteRune c).toList = '\'' :: (literalChar '\'' c ++ ['\'']) := by
  rw [quoteRune, String.toList_ofList]
  rfl

/-- The scanner agrees with the lexer on the only literal. -/
theorem tokens_quote (s : String) : (tokens (quote s).toList).map Piece.kind = [.text s] := by
  have text : (Cursor.ofText (quote s)).rest =
      '"' :: (s.toList.flatMap (literalChar '"') ++ ['"']) := by
    rw [Cursor.ofText, toList_quote]
  obtain ⟨after, step, left⟩ := lexes_quote s [] _ _ text (Nat.le_refl _)
  obtain ⟨value, spelled, same, piece⟩ := interpretedPiece_agrees text step
  cases same
  rw [left] at piece
  rw [toList_quote, tokens_cons]
  have one : firstPiece (s.toList.flatMap (literalChar '"') ++ ['"']).length '"'
      (s.toList.flatMap (literalChar '"') ++ ['"']) = (⟨.text s, spelled⟩, []) := by
    rw [← piece]
    simp [firstPiece, isSpace]
  rw [one]
  rfl

/-- Quoting is undone by the lexer and by the scanner. -/
theorem quoted_reads_back :
    (∀ s, (tokenize (quote s)).map (fun read => read.map Located.token) =
        .ok [.string s, .mark .semi, .endOfText] ∧
      (tokens (quote s).toList).map Piece.kind = [.text s]) ∧
    ∀ c, (tokenize (quoteRune c)).map (fun read => read.map Located.token) =
      .ok [.rune c, .mark .semi, .endOfText] := by
  refine ⟨fun s => ⟨?_, tokens_quote s⟩, fun c => ?_⟩
  · have reads : ReadAs false (quote s).toList [.string s, .mark .semi, .endOfText] := by
      rw [toList_quote]
      exact .token (lexes_quote s []) readAs_lastLine
    obtain ⟨located, accepted, same⟩ := tokenize_of_readAs reads
    rw [accepted, ← same]
    rfl
  · have reads : ReadAs false (quoteRune c).toList [.rune c, .mark .semi, .endOfText] := by
      rw [toList_quoteRune]
      exact .token (lexes_quoteRune c []) readAs_lastLine
    obtain ⟨located, accepted, same⟩ := tokenize_of_readAs reads
    rw [accepted, ← same]
    rfl

end SandboxedGo.Source
