import SandboxedGo.Proofs.Names

/-!
# Reading tokens, one after another

The lexer is written with a bound on its steps and with places in the text.  `Reads` says the same
without either: which tokens a text is read as, given whether the statement may end at the next line
end.  Every step takes at least one character, so the bound does not matter.
-/

set_option autoImplicit false

namespace SandboxedGo.Source

open Submission (drop_length_takeWhile)

namespace Cursor

/-! ## What a reader takes -/

theorem skip_rest (cur : Cursor) (n : Nat) : (cur.skip n).rest = cur.rest.drop n := rfl

theorem readWhile_rest (cur : Cursor) (p : Char → Bool) :
    (cur.readWhile p).2.rest = cur.rest.dropWhile p :=
  drop_length_takeWhile p cur.rest

/-- A reader that began at `cur` has taken a character. -/
def Advances (cur after : Cursor) : Prop := after.rest.length < cur.rest.length

theorem advances_skip {cur : Cursor} {n : Nat} (some_ : cur.rest ≠ []) (positive : 0 < n) :
    cur.Advances (cur.skip n) := by
  have length : 0 < cur.rest.length := List.length_pos_iff.mpr some_
  simp only [Advances, skip_rest, List.length_drop]
  omega

theorem length_readWhile (cur : Cursor) (p : Char → Bool) :
    (cur.readWhile p).2.rest.length ≤ cur.rest.length := by
  rw [readWhile_rest]
  exact (List.dropWhile_sublist p).length_le

theorem hexEscape_advances {start : Position} {cur after : Cursor} {count code : Nat}
    (read : hexEscape start cur count = .ok (code, after)) (some_ : cur.rest ≠ []) :
    cur.Advances after := by
  unfold hexEscape at read
  dsimp only at read
  split at read
  · simp only [Except.ok.injEq, Prod.mk.injEq] at read
    rw [← read.2]
    exact advances_skip some_ (by omega)
  · cases read

theorem unicodeEscape_advances {start : Position} {cur after : Cursor} {count : Nat}
    {bytes : List UInt8} (read : unicodeEscape start cur count = .ok (bytes, after))
    (some_ : cur.rest ≠ []) : cur.Advances after := by
  unfold unicodeEscape at read
  split at read
  · cases read
  · rename_i hex
    split at read
    · simp only [Except.ok.injEq, Prod.mk.injEq] at read
      rw [← read.2]
      exact hexEscape_advances hex some_
    · cases read

theorem readEscape_advances {start : Position} {cur after : Cursor} {bytes : List UInt8}
    (read : readEscape start cur = .ok (bytes, after)) : cur.Advances after := by
  unfold readEscape at read
  cases given : cur.rest with
  | nil => simp [given] at read
  | cons c rest =>
      have some_ : cur.rest ≠ [] := by simp [given]
      simp only [given] at read
      split at read
      · simp only [Except.ok.injEq, Prod.mk.injEq] at read
        rw [← read.2]
        exact advances_skip some_ (by omega)
      split at read
      · split at read
        · simp only [Except.ok.injEq, Prod.mk.injEq] at read
          rw [← read.2]
          exact advances_skip some_ (by omega)
        · cases read
      split at read
      · split at read
        · cases read
        · rename_i hex
          simp only [Except.ok.injEq, Prod.mk.injEq] at read
          rw [← read.2]
          exact hexEscape_advances hex some_
      split at read
      · exact unicodeEscape_advances read some_
      split at read
      · exact unicodeEscape_advances read some_
      · cases read

theorem readQuoted_advances {start : Position} {delimiter : Char} {fault : Fault} :
    ∀ (steps : Nat) (cur : Cursor) (bytes : List UInt8) {result : List UInt8} {after : Cursor},
      readQuoted start delimiter fault steps cur bytes = .ok (result, after) →
        cur.Advances after := by
  intro steps
  induction steps with
  | zero =>
      intro cur bytes result after read
      simp [readQuoted] at read
  | succ steps ih =>
      intro cur bytes result after read
      unfold readQuoted at read
      cases given : cur.rest with
      | nil => simp [given] at read
      | cons c rest =>
          have skipped : cur.Advances (cur.skip 1) := advances_skip (by simp [given]) (by omega)
          simp only [given] at read
          split at read
          · cases read
          split at read
          · simp only [Except.ok.injEq, Prod.mk.injEq] at read
            rw [← read.2]
            exact skipped
          split at read
          · split at read
            · cases read
            · rename_i escaped
              exact ((ih _ _ read).trans (readEscape_advances escaped)).trans skipped
          · exact (ih _ _ read).trans skipped

theorem readString_advances {bound : Nat} {cur after : Cursor} {lexeme : Lexeme}
    (read : cur.readString bound = .ok (lexeme, after)) (some_ : cur.rest ≠ []) :
    cur.Advances after := by
  unfold readString at read
  cases quoted : readQuoted cur.position '"' .stringNotTerminated bound (cur.skip 1) [] with
  | error e =>
      rw [quoted] at read
      cases read
  | ok result =>
      rw [quoted] at read
      have ends := congrArg Prod.snd (Except.ok.inj read)
      have inner := readQuoted_advances bound (cur.skip 1) [] quoted
      rw [← show result.2 = after from ends]
      exact inner.trans (advances_skip some_ (by omega))

theorem readRune_advances {bound : Nat} {cur after : Cursor} {lexeme : Lexeme}
    (read : cur.readRune bound = .ok (lexeme, after)) (some_ : cur.rest ≠ []) :
    cur.Advances after := by
  unfold readRune at read
  cases quoted : readQuoted cur.position '\'' .runeNotTerminated bound (cur.skip 1) [] with
  | error e =>
      rw [quoted] at read
      cases read
  | ok result =>
      rw [quoted] at read
      have inner := readQuoted_advances bound (cur.skip 1) [] quoted
      simp only [bind, Except.bind] at read
      split at read
      · have ends := congrArg Prod.snd (Except.ok.inj read)
        rw [← show result.2 = after from ends]
        exact inner.trans (advances_skip some_ (by omega))
      · cases read

theorem readRawString_advances {cur after : Cursor} {lexeme : Lexeme}
    (read : cur.readRawString = .ok (lexeme, after)) (some_ : cur.rest ≠ []) :
    cur.Advances after := by
  unfold readRawString at read
  dsimp only at read
  split at read
  · cases read
  · simp only [Except.ok.injEq, Prod.mk.injEq] at read
    rw [← read.2]
    have run := length_readWhile (cur.skip 1) (· ≠ '\x60')
    have first : cur.Advances (cur.skip 1) := advances_skip some_ (by omega)
    simp only [Advances, skip_rest, List.length_drop] at run first ⊢
    omega

/-- A number has at least one character. -/
theorem numberChars_ne_nil {first : Char} {rest : List Char}
    (start : first.isDigit = true ∨ first = '.' ∧ rest.head? ≠ some '.') :
    0 < (numberChars false (first :: rest)).1.length := by
  unfold numberChars
  rcases start with digit | ⟨point, single⟩
  · simp [digit]
  · subst point
    simp [single]

theorem readNumber_advances {cur after : Cursor} {lexeme : Lexeme} {first : Char}
    {rest : List Char} (chars : cur.rest = first :: rest)
    (start : first.isDigit = true ∨ first = '.' ∧ rest.head? ≠ some '.')
    (read : cur.readNumber = .ok (lexeme, after)) : cur.Advances after := by
  have some_ : cur.rest ≠ [] := by simp [chars]
  have number : cur.Advances (cur.skip (numberChars false cur.rest).1.length) := by
    rw [chars]
    exact advances_skip some_ (numberChars_ne_nil start)
  have hex : cur.Advances ((cur.skip 2).readWhile fun c => isHexDigit c || c = '_').2 := by
    have run := length_readWhile (cur.skip 2) fun c => isHexDigit c || c = '_'
    have two : cur.Advances (cur.skip 2) := advances_skip some_ (by omega)
    exact Nat.lt_of_le_of_lt run two
  unfold readNumber at read
  dsimp only at read
  split at read
  · split at read
    · cases read
    · simp only [Except.ok.injEq, Prod.mk.injEq] at read
      rw [← read.2]
      exact hex
  · split at read
    · cases read
    · simp only [Except.ok.injEq, Prod.mk.injEq] at read
      rw [← read.2]
      exact hex
  · split at read
    · split at read
      · simp only [Except.ok.injEq, Prod.mk.injEq] at read
        rw [← read.2]
        exact number
      · cases read
    split at read
    · cases read
    · simp only [Except.ok.injEq, Prod.mk.injEq] at read
      rw [← read.2]
      exact number

theorem atStart_some {chars : List Char} {m : Mark} {length : Nat}
    (found : Mark.atStart? chars = some (m, length)) :
    ∃ spelling label, (spelling, m, label) ∈ Mark.spellings ∧ spelling <+: chars ∧
      spelling.length = length := by
  unfold Mark.atStart? at found
  obtain ⟨⟨spelling, m', label⟩, isFirst, same⟩ := Option.map_eq_some_iff.mp found
  simp only [Prod.mk.injEq] at same
  obtain ⟨rfl, rfl⟩ := same
  refine ⟨spelling, label, List.mem_of_find?_eq_some isFirst, ?_, rfl⟩
  have begins := List.find?_some isFirst
  exact List.isPrefixOf_iff_prefix.mp begins

theorem spelling_ne_nil : ∀ entry ∈ Mark.spellings, entry.1 ≠ [] := by decide

theorem commentLength_ge {count length : Nat} {chars : List Char}
    (closed : commentLength? count chars = some length) : count + 2 ≤ length := by
  fun_induction commentLength? count chars with
  | case1 count => cases closed
  | case2 count rest =>
      simp only [Option.some.injEq] at closed
      omega
  | case3 count c rest _ ih =>
      have more := ih closed
      omega

/-! ## What one step reads -/

/-- What a step at `first`, with `rest` behind it, may have read, and the text behind that. -/
inductive StepReads (bound : Nat) (cur : Cursor) (first : Char) (rest : List Char) :
    Lexeme → List Char → Prop
  | newline (line : first = '\n') : StepReads bound cur first rest .newline rest
  | space (space : first = ' ' ∨ first = '\t' ∨ first = '\r') :
      StepReads bound cur first rest .blank rest
  | int (n : Int64) {behind : List Char} (shorter : behind.length < (first :: rest).length) :
      StepReads bound cur first rest (.token (.int n)) behind
  | float (f : Float) {behind : List Char} (shorter : behind.length < (first :: rest).length) :
      StepReads bound cur first rest (.token (.float f)) behind
  | rune (c : Char) {behind : List Char} (quote : first = '\'')
      (shorter : behind.length < (first :: rest).length) :
      StepReads bound cur first rest (.token (.rune c)) behind
  | string {lexeme : Lexeme} {after : Cursor} (quote : first = '"')
      (read : cur.readString bound = .ok (lexeme, after)) :
      StepReads bound cur first rest lexeme after.rest
  | rawString {lexeme : Lexeme} {after : Cursor} (quote : first = '\x60')
      (read : cur.readRawString = .ok (lexeme, after)) :
      StepReads bound cur first rest lexeme after.rest
  | name (start : isNameStart first = true) :
      StepReads bound cur first rest cur.readName.1 ((first :: rest).dropWhile isNameChar)
  | lineComment {tail : List Char} (opening : first = '/' ∧ rest = '/' :: tail) :
      StepReads bound cur first rest .blank (rest.dropWhile (· ≠ '\n'))
  | blockComment {tail : List Char} {length : Nat} {lexeme : Lexeme}
      (opening : first = '/' ∧ rest = '*' :: tail) (closed : commentLength? 2 tail = some length)
      (noToken : lexeme = .newline ∨ lexeme = .blank) :
      StepReads bound cur first rest lexeme ((first :: rest).drop length)
  | mark {m : Mark} {length : Nat} (found : Mark.atStart? (first :: rest) = some (m, length))
      (noNumber : first = '.' → ∀ d, rest.head? = some d → d.isDigit = false) :
      StepReads bound cur first rest (.token (.mark m)) ((first :: rest).drop length)

theorem readNumber_reads {cur after : Cursor} {lexeme : Lexeme} (bound : Nat) {first : Char}
    {rest : List Char} (chars : cur.rest = first :: rest)
    (start : first.isDigit = true ∨ first = '.' ∧ rest.head? ≠ some '.')
    (read : cur.readNumber = .ok (lexeme, after)) :
    StepReads bound cur first rest lexeme after.rest := by
  have shorter : after.rest.length < (first :: rest).length :=
    chars ▸ readNumber_advances chars start read
  unfold readNumber at read
  dsimp only at read
  split at read
  · split at read
    · cases read
    · cases Except.ok.inj read
      exact .int _ shorter
  · split at read
    · cases read
    · cases Except.ok.inj read
      exact .int _ shorter
  · split at read
    · split at read
      · cases Except.ok.inj read
        exact .float _ shorter
      · cases read
    split at read
    · cases read
    · cases Except.ok.inj read
      exact .int _ shorter

theorem readRune_reads {bound : Nat} {cur after : Cursor} {lexeme : Lexeme} {first : Char}
    {rest : List Char} (chars : cur.rest = first :: rest) (quote : first = '\'')
    (read : cur.readRune bound = .ok (lexeme, after)) :
    StepReads bound cur first rest lexeme after.rest := by
  have shorter : after.rest.length < (first :: rest).length :=
    chars ▸ readRune_advances read (by simp [chars])
  unfold readRune at read
  cases quoted : readQuoted cur.position '\'' .runeNotTerminated bound (cur.skip 1) [] with
  | error e =>
      rw [quoted] at read
      cases read
  | ok result =>
      rw [quoted] at read
      simp only [bind, Except.bind] at read
      split at read
      · cases Except.ok.inj read
        exact .rune _ quote shorter
      · cases read

theorem readMark_reads {bound : Nat} {cur after : Cursor} {lexeme : Lexeme} {first : Char}
    {rest : List Char} (chars : cur.rest = first :: rest)
    (noNumber : first = '.' → ∀ d, rest.head? = some d → d.isDigit = false)
    (read : cur.readMark first = .ok (lexeme, after)) :
    StepReads bound cur first rest lexeme after.rest := by
  unfold readMark at read
  rw [chars] at read
  split at read
  · rename_i found
    cases Except.ok.inj read
    rw [skip_rest, chars]
    exact .mark found noNumber
  · cases read

theorem step_reads {bound : Nat} {cur after : Cursor} {first : Char} {rest : List Char}
    {lexeme : Lexeme} (chars : cur.rest = first :: rest)
    (read : cur.step bound first = .ok (lexeme, after)) :
    StepReads bound cur first rest lexeme after.rest := by
  have behind : (cur.skip 1).rest = rest := by simp [skip_rest, chars]
  unfold step at read
  split at read
  · rename_i line
    cases Except.ok.inj read
    rw [behind]
    exact .newline line
  split at read
  · rename_i space
    cases Except.ok.inj read
    rw [behind]
    simp only [Bool.or_eq_true, decide_eq_true_eq, or_assoc] at space
    exact .space space
  split at read
  · rename_i digit
    exact readNumber_reads bound chars (.inl digit) read
  split at read
  · rename_i quote
    exact .string quote read
  split at read
  · rename_i quote
    exact .rawString quote read
  split at read
  · rename_i quote
    exact readRune_reads chars quote read
  split at read
  · rename_i start
    have ends := Except.ok.inj read
    have run : cur.readName.2.rest = (first :: rest).dropWhile isNameChar := by
      rw [← chars]
      exact readWhile_rest cur isNameChar
    rw [← show cur.readName.1 = lexeme from congrArg Prod.fst ends,
      ← show cur.readName.2 = after from congrArg Prod.snd ends, run]
    exact .name start
  split at read
  · rename_i tail comment
    cases Except.ok.inj read
    rw [chars, List.cons.injEq] at comment
    obtain ⟨rfl, rfl⟩ := comment
    rw [readWhile_rest, chars, List.dropWhile_cons_of_pos (by decide)]
    exact .lineComment ⟨rfl, rfl⟩
  · rename_i tail comment
    split at read
    · cases read
    · rename_i length closed
      cases Except.ok.inj read
      rw [skip_rest, chars]
      rw [chars, List.cons.injEq] at comment
      refine .blockComment comment closed ?_
      split
      · exact .inl rfl
      · exact .inr rfl
  · rename_i c tail point
    rw [chars, List.cons.injEq] at point
    split at read
    · rename_i digit
      refine readNumber_reads bound chars (.inr ⟨point.1, ?_⟩) read
      rw [point.2]
      rintro ⟨⟩
      exact absurd digit (by decide)
    · rename_i noDigit
      refine readMark_reads chars ?_ read
      intro _ d isNext
      rw [point.2] at isNext
      cases isNext
      simpa using noDigit
  · rename_i noPoint
    refine readMark_reads chars ?_ read
    intro point d isNext
    cases rest with
    | nil => cases isNext
    | cons c tail =>
        rw [chars, point] at noPoint
        exact absurd rfl (noPoint c tail)

/-- Whatever a step reads, it takes at least one character. -/
theorem StepReads.shorter {bound : Nat} {cur : Cursor} {first : Char} {rest behind : List Char}
    {lexeme : Lexeme} (chars : cur.rest = first :: rest)
    (reads : StepReads bound cur first rest lexeme behind) :
    behind.length < (first :: rest).length := by
  have some_ : cur.rest ≠ [] := by simp [chars]
  cases reads with
  | newline => exact Nat.lt_succ_self _
  | space => exact Nat.lt_succ_self _
  | int _ shorter => exact shorter
  | float _ shorter => exact shorter
  | rune _ _ shorter => exact shorter
  | string _ read => exact chars ▸ readString_advances read some_
  | rawString _ read => exact chars ▸ readRawString_advances read some_
  | name start =>
      simp only [isNameStart, Bool.and_eq_true] at start
      rw [List.dropWhile_cons_of_pos start.1]
      exact Nat.lt_succ_of_le (List.dropWhile_sublist isNameChar).length_le
  | lineComment =>
      exact Nat.lt_succ_of_le (List.dropWhile_sublist _).length_le
  | blockComment _ closed =>
      have long := commentLength_ge closed
      simp only [List.length_drop, List.length_cons]
      omega
  | mark found =>
      obtain ⟨spelling, _, listed, _, rfl⟩ := atStart_some found
      have long : 0 < spelling.length := List.length_pos_iff.mpr (spelling_ne_nil _ listed)
      simp only [List.length_drop, List.length_cons]
      omega

theorem step_shorter {bound : Nat} {cur after : Cursor} {first : Char} {rest : List Char}
    {lexeme : Lexeme} (chars : cur.rest = first :: rest)
    (read : cur.step bound first = .ok (lexeme, after)) : after.rest.length < cur.rest.length :=
  chars ▸ (step_reads chars read).shorter chars

end Cursor

/-! ## The tokens of a text -/

/-- The tokens that a text is read as.  `mayEnd` tells whether a line end is a semicolon here. -/
inductive Reads : (mayEnd : Bool) → List Char → List Token → Prop
  | endOfText : Reads false [] [.endOfText]
  | endOfLastLine : Reads true [] [.mark .semi, .endOfText]
  | token {mayEnd : Bool} {bound : Nat} {cur after : Cursor} {first : Char} {rest : List Char}
      {t : Token} {ts : List Token} (chars : cur.rest = first :: rest)
      (step : cur.step bound first = .ok (.token t, after))
      (more : Reads t.endsStatement after.rest ts) : Reads mayEnd (first :: rest) (t :: ts)
  | newline {bound : Nat} {cur after : Cursor} {first : Char} {rest : List Char}
      {ts : List Token} (chars : cur.rest = first :: rest)
      (step : cur.step bound first = .ok (.newline, after))
      (more : Reads false after.rest ts) : Reads false (first :: rest) ts
  | endOfLine {bound : Nat} {cur after : Cursor} {first : Char} {rest : List Char}
      {ts : List Token} (chars : cur.rest = first :: rest)
      (step : cur.step bound first = .ok (.newline, after))
      (more : Reads false after.rest ts) : Reads true (first :: rest) (.mark .semi :: ts)
  | blank {mayEnd : Bool} {bound : Nat} {cur after : Cursor} {first : Char} {rest : List Char}
      {ts : List Token} (chars : cur.rest = first :: rest)
      (step : cur.step bound first = .ok (.blank, after))
      (more : Reads mayEnd after.rest ts) : Reads mayEnd (first :: rest) ts

/-- Whether a line end is a semicolon behind tokens, which are given in reverse. -/
def mayEndBehind (read : List Located) : Bool :=
  match read with
  | [] => false
  | last :: _ => last.token.endsStatement

theorem endLine_of_false {read : List Located} (no : mayEndBehind read = false)
    (position : Position) : Cursor.endLine position read = read := by
  cases read with
  | nil => rfl
  | cons last read =>
      have open_ : last.token.endsStatement = false := no
      simp [Cursor.endLine, open_]

theorem endLine_of_true {read : List Located} (yes : mayEndBehind read = true)
    (position : Position) : Cursor.endLine position read = ⟨.mark .semi, position⟩ :: read := by
  cases read with
  | nil => cases yes
  | cons last read =>
      have closed : last.token.endsStatement = true := yes
      simp [Cursor.endLine, closed]

theorem mayEndBehind_endLine (position : Position) (read : List Located) :
    mayEndBehind (Cursor.endLine position read) = false := by
  cases h : mayEndBehind read with
  | false => rw [endLine_of_false h, h]
  | true =>
      rw [endLine_of_true h]
      rfl

theorem endOfText_reads (position : Position) (read : List Located) :
    ∃ new, (⟨.endOfText, position⟩ :: Cursor.endLine position read).reverse = read.reverse ++ new ∧
      Reads (mayEndBehind read) [] (new.map Located.token) := by
  cases h : mayEndBehind read with
  | false =>
      rw [endLine_of_false h]
      exact ⟨[⟨.endOfText, position⟩], by simp, .endOfText⟩
  | true =>
      rw [endLine_of_true h]
      exact ⟨[⟨.mark .semi, position⟩, ⟨.endOfText, position⟩], by simp, .endOfLastLine⟩

theorem readTokens_reads : ∀ (steps : Nat) (cur : Cursor) (read : List Located)
    {result : List Located}, cur.rest.length ≤ steps →
      Cursor.readTokens steps cur read = .ok result →
      ∃ new, result.reverse = read.reverse ++ new ∧
        Reads (mayEndBehind read) cur.rest (new.map Located.token) := by
  intro steps
  induction steps with
  | zero =>
      intro cur read result enough ran
      have empty : cur.rest = [] := List.eq_nil_of_length_eq_zero (by omega)
      have ends := Except.ok.inj ran
      rw [← ends, empty]
      exact endOfText_reads cur.position read
  | succ steps ih =>
      intro cur read result enough ran
      unfold Cursor.readTokens at ran
      cases chars : cur.rest with
      | nil =>
          simp only [chars] at ran
          rw [← Except.ok.inj ran]
          exact endOfText_reads cur.position read
      | cons first rest =>
          -- Every step takes a character, so as many steps as characters are enough.
          have shorter {lexeme : Lexeme} {after : Cursor}
              (step : cur.step steps first = .ok (lexeme, after)) : after.rest.length ≤ steps := by
            have less := Cursor.step_shorter chars step
            omega
          simp only [chars] at ran
          split at ran
          · cases ran
          · rename_i t after step
            obtain ⟨new, same, reads⟩ := ih after _ (shorter step) ran
            exact ⟨⟨t, cur.position⟩ :: new, by simp [same], .token chars step reads⟩
          · rename_i after step
            obtain ⟨new, same, reads⟩ := ih after _ (shorter step) ran
            rw [mayEndBehind_endLine] at reads
            cases h : mayEndBehind read with
            | false =>
                rw [endLine_of_false h] at same
                exact ⟨new, same, .newline chars step reads⟩
            | true =>
                rw [endLine_of_true h] at same
                exact ⟨⟨.mark .semi, cur.position⟩ :: new, by simp [same],
                  .endOfLine chars step reads⟩
          · rename_i after step
            obtain ⟨new, same, reads⟩ := ih after _ (shorter step) ran
            exact ⟨new, same, .blank chars step reads⟩

theorem tokenize_reads {source : String} {tokens : List Located}
    (accepted : tokenize source = .ok tokens) :
    Reads false source.toList (tokens.map Located.token) := by
  unfold tokenize at accepted
  cases ran : Cursor.readTokens (Cursor.ofText source).rest.length (Cursor.ofText source) [] with
  | error e =>
      simp only [ran] at accepted
      cases accepted
  | ok result =>
      simp only [ran] at accepted
      have ends := Except.ok.inj accepted
      obtain ⟨new, same, reads⟩ := readTokens_reads _ (Cursor.ofText source) [] (Nat.le_refl _) ran
      rw [← show result.reverse = tokens from ends, same]
      exact reads

end SandboxedGo.Source
