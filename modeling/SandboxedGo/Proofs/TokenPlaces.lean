import SandboxedGo.Proofs.WrittenWords

/-!
# Where tokens stand

A place in a text is told from the characters in front of it: by the newlines among them, and by
those that follow the last newline.  The lexer counts lines and columns one character at a time.
Here this is shown to be the same for every token, for the semicolons that line ends stand for, and
for the fault of a text that is refused.
-/

set_option autoImplicit false

namespace SandboxedGo.Source

/-! ## Places -/

namespace Position

/-- The place behind a text: its line is told by the newlines of the text, and its column by the
characters behind the last newline. -/
def behind (before : List Char) : Position :=
  ⟨1 + before.count '\n', 1 + (before.reverse.takeWhile (· ≠ '\n')).length⟩

theorem behind_concat (before : List Char) (c : Char) :
    behind (before ++ [c]) = (behind before).after c := by
  unfold after
  split
  · rename_i line
    simp [behind, line, Nat.add_assoc]
  · rename_i noLine
    simp [behind, noLine, Nat.add_assoc]

/-- Counting one character after another comes to the place behind them. -/
theorem foldl_after (before taken : List Char) :
    taken.foldl after (behind before) = behind (before ++ taken) := by
  induction taken generalizing before with
  | nil => simp
  | cons c taken ih =>
      rw [List.foldl_cons, ← behind_concat, ih, List.append_assoc]
      rfl

end Position

/-! ## What a text begins with -/

/-- How a token that is written in a text begins there. -/
def Token.WrittenAt (chars : List Char) : Token → Prop
  | .name word => word.toList <+: chars
  | .keyword k => k.spelling.toList <+: chars
  | .mark m => ∃ spelling label, (spelling, m, label) ∈ Mark.spellings ∧ spelling <+: chars
  | .int _ | .float _ => ∃ c, chars.head? = some c ∧ (c.isDigit = true ∨ c = '.')
  | .string _ => chars.head? = some '"' ∨ chars.head? = some '\x60'
  | .rune _ => chars.head? = some '\''
  | .endOfText => False

/-- How the literal, the comment or the character begins in which the lexer finds a fault. -/
def Fault.ArisesAt (chars : List Char) : Fault → Prop
  | .commentNotTerminated => ∃ tail, chars = '/' :: '*' :: tail ∧ ¬['*', '/'] <:+: tail
  | .invalidHexLiteral _ => ∃ x tail, chars = '0' :: x :: tail ∧ (x = 'x' ∨ x = 'X')
  | .invalidFloatLiteral _ | .integerOverflow _ =>
      ∃ c, chars.head? = some c ∧ (c.isDigit = true ∨ c = '.')
  | .stringNotTerminated => chars.head? = some '"'
  | .rawStringNotTerminated => ∃ tail, chars = '\x60' :: tail ∧ '\x60' ∉ tail
  | .runeNotTerminated | .runeNotSingle => chars.head? = some '\''
  | .escapeNotTerminated | .invalidOctalEscape | .invalidHexEscape | .invalidUnicodeEscape
  | .unknownEscape _ => chars.head? = some '"' ∨ chars.head? = some '\''
  | .unexpectedCharacter c => chars.head? = some c
  | _ => False

/-- A line end, or a comment with a line end in it, in front of the text that is left. -/
def EndsLine (chars left : List Char) : Prop :=
  chars = '\n' :: left ∨ ∃ body, chars = '/' :: '*' :: (body ++ '*' :: '/' :: left) ∧ '\n' ∈ body

namespace Cursor

/-- The text at a cursor begins with what was read there, or with what a fault was found in, and
the fault has the place of the cursor. -/
def Explains (cur : Cursor) : Except ParseError (Lexeme × Cursor) → Prop
  | .ok (.token t, _) => t.WrittenAt cur.rest
  | .ok (.newline, after) => EndsLine cur.rest after.rest
  | .ok (.blank, _) => True
  | .error e => e.position = cur.position ∧ e.fault.ArisesAt cur.rest

/-! ## Literals -/

/-- A fault of an escape, whose place is that of the literal. -/
structure EscapeFault (start : Position) (e : ParseError) : Prop where
  place : e.position = start
  arises : ∀ chars : List Char, chars.head? = some '"' ∨ chars.head? = some '\'' →
    e.fault.ArisesAt chars

theorem hexEscape_error {start : Position} {cur : Cursor} {count : Nat} {e : ParseError}
    (failed : hexEscape start cur count = .error e) : EscapeFault start e := by
  unfold hexEscape at failed
  dsimp only at failed
  split at failed
  · cases failed
  · cases failed
    exact ⟨rfl, fun _ quote => quote⟩

theorem unicodeEscape_error {start : Position} {cur : Cursor} {count : Nat} {e : ParseError}
    (failed : unicodeEscape start cur count = .error e) : EscapeFault start e := by
  unfold unicodeEscape at failed
  split at failed
  · rename_i hex
    cases failed
    exact hexEscape_error hex
  · split at failed
    · cases failed
    · cases failed
      exact ⟨rfl, fun _ quote => quote⟩

theorem readEscape_error {start : Position} {cur : Cursor} {e : ParseError}
    (failed : readEscape start cur = .error e) : EscapeFault start e := by
  unfold readEscape at failed
  split at failed
  · cases failed
    exact ⟨rfl, fun _ quote => quote⟩
  split at failed
  · cases failed
  split at failed
  · dsimp only at failed
    split at failed
    · cases failed
    · cases failed
      exact ⟨rfl, fun _ quote => quote⟩
  split at failed
  · split at failed
    · rename_i hex
      cases failed
      exact hexEscape_error hex
    · cases failed
  split at failed
  · exact unicodeEscape_error failed
  split at failed
  · exact unicodeEscape_error failed
  · cases failed
    exact ⟨rfl, fun _ quote => quote⟩

theorem readQuoted_error {start : Position} {delimiter : Char} {unterminated : Fault}
    {e : ParseError} : ∀ (steps : Nat) (cur : Cursor) (bytes : List UInt8),
      readQuoted start delimiter unterminated steps cur bytes = .error e →
        e = ⟨start, unterminated⟩ ∨ EscapeFault start e := by
  intro steps
  induction steps with
  | zero =>
      intro cur bytes failed
      cases failed
      exact .inl rfl
  | succ steps ih =>
      intro cur bytes failed
      unfold readQuoted at failed
      split at failed
      · cases failed
        exact .inl rfl
      split at failed
      · cases failed
        exact .inl rfl
      split at failed
      · cases failed
      split at failed
      · split at failed
        · rename_i escape
          cases failed
          exact .inr (readEscape_error escape)
        · exact ih _ _ failed
      · exact ih _ _ failed

theorem explains_readString {bound : Nat} {cur : Cursor} (quote : cur.rest.head? = some '"') :
    cur.Explains (cur.readString bound) := by
  unfold readString
  cases quoted : readQuoted cur.position '"' .stringNotTerminated bound (cur.skip 1) [] with
  | ok read => exact .inl quote
  | error e =>
      rcases readQuoted_error _ _ _ quoted with rfl | escape
      · exact ⟨rfl, quote⟩
      · exact ⟨escape.place, escape.arises _ (.inl quote)⟩

theorem explains_readRune {bound : Nat} {cur : Cursor} (quote : cur.rest.head? = some '\'') :
    cur.Explains (cur.readRune bound) := by
  unfold readRune
  cases quoted : readQuoted cur.position '\'' .runeNotTerminated bound (cur.skip 1) [] with
  | ok read =>
      simp only [bind, Except.bind]
      split
      · exact quote
      · exact ⟨rfl, quote⟩
  | error e =>
      rcases readQuoted_error _ _ _ quoted with rfl | escape
      · exact ⟨rfl, quote⟩
      · exact ⟨escape.place, escape.arises _ (.inr quote)⟩

theorem explains_readRawString {cur : Cursor} {rest : List Char}
    (chars : cur.rest = '\x60' :: rest) : cur.Explains cur.readRawString := by
  unfold readRawString
  dsimp only
  split
  · rename_i unclosed
    refine ⟨rfl, rest, chars, fun closed => ?_⟩
    rw [readWhile_rest, skip_rest, chars, List.isEmpty_iff, List.dropWhile_eq_nil_iff] at unclosed
    simpa using unclosed '\x60' closed
  · exact .inr (by rw [chars]; rfl)

theorem explains_readNumber {cur : Cursor} {first : Char} {rest : List Char}
    (chars : cur.rest = first :: rest) (start : first.isDigit = true ∨ first = '.') :
    cur.Explains cur.readNumber := by
  have begins : ∃ c, cur.rest.head? = some c ∧ (c.isDigit = true ∨ c = '.') :=
    ⟨first, by rw [chars]; rfl, start⟩
  unfold readNumber
  dsimp only
  split
  · rename_i tail hex
    split
    · exact ⟨rfl, 'x', tail, hex, .inl rfl⟩
    · exact begins
  · rename_i tail hex
    split
    · exact ⟨rfl, 'X', tail, hex, .inr rfl⟩
    · exact begins
  · split
    · split
      · exact begins
      · exact ⟨rfl, begins⟩
    split
    · exact ⟨rfl, begins⟩
    · exact begins

/-! ## Names, marks and comments -/

theorem explains_readName (cur : Cursor) : cur.Explains (.ok cur.readName) := by
  have token : cur.readName =
      (.token (Submission.wordToken (String.ofList (cur.rest.takeWhile isNameChar))),
        cur.readName.2) := Prod.ext (Submission.readName_token cur) rfl
  have spelled : (String.ofList (cur.rest.takeWhile isNameChar)).toList <+: cur.rest := by
    rw [String.toList_ofList]
    exact List.takeWhile_prefix _
  rw [token]
  cases found : Keyword.ofWord? (String.ofList (cur.rest.takeWhile isNameChar)) with
  | none =>
      rw [Submission.wordToken_of_none found]
      exact spelled
  | some k =>
      rw [Submission.wordToken_of_some found]
      rw [(Submission.keyword_ofWord found).1] at spelled
      exact spelled

theorem explains_readMark {cur : Cursor} {first : Char} {rest : List Char}
    (chars : cur.rest = first :: rest) : cur.Explains (cur.readMark first) := by
  unfold readMark
  split
  · rename_i m length found
    obtain ⟨spelling, label, listed, begins, _⟩ := atStart_some found
    exact ⟨spelling, label, listed, begins⟩
  · exact ⟨rfl, by rw [chars]; rfl⟩

theorem commentLength_none {count : Nat} {chars : List Char}
    (unclosed : commentLength? count chars = none) : ¬['*', '/'] <:+: chars := by
  fun_induction commentLength? count chars with
  | case1 count => simp
  | case2 count rest => cases unclosed
  | case3 count c rest noEnd ih =>
      rw [List.infix_cons_iff]
      rintro (⟨tail, ends⟩ | later)
      · obtain ⟨rfl, rfl⟩ := List.cons.inj ends
        exact noEnd tail rfl rfl
      · exact ih unclosed later

theorem commentLength_closes {count length : Nat} {chars : List Char}
    (closed : commentLength? count chars = some length) :
    ∃ body left, chars = body ++ '*' :: '/' :: left ∧ length = count + body.length + 2 := by
  fun_induction commentLength? count chars with
  | case1 count => cases closed
  | case2 count rest =>
      cases closed
      exact ⟨[], rest, rfl, rfl⟩
  | case3 count c rest _ ih =>
      obtain ⟨body, left, rfl, rfl⟩ := ih closed
      exact ⟨c :: body, left, rfl, by simp only [List.length_cons]; omega⟩

theorem explains_blockComment {cur : Cursor} {tail : List Char} {length : Nat}
    (chars : cur.rest = '/' :: '*' :: tail) (closed : commentLength? 2 tail = some length) :
    cur.Explains (.ok (if (cur.rest.take length).contains '\n' then .newline else .blank,
      cur.skip length)) := by
  obtain ⟨body, left, rfl, rfl⟩ := commentLength_closes closed
  have whole : cur.rest = ('/' :: '*' :: (body ++ ['*', '/'])) ++ left := by simp [chars]
  have long : 2 + body.length + 2 = ('/' :: '*' :: (body ++ ['*', '/'])).length := by
    simp only [List.length_cons, List.length_append, List.length_nil]
    omega
  split
  · rename_i line
    rw [whole, long, List.take_left] at line
    refine .inr ⟨body, ?_, by simpa using line⟩
    rw [skip_rest, long, whole, List.drop_left, ← whole, chars]
  · exact True.intro

/-! ## Steps -/

theorem explains_step (bound : Nat) {cur : Cursor} {first : Char} {rest : List Char}
    (chars : cur.rest = first :: rest) : cur.Explains (cur.step bound first) := by
  have head : cur.rest.head? = some first := by rw [chars]; rfl
  unfold step
  split
  · rename_i line
    exact .inl (by rw [skip_rest, chars, line]; rfl)
  split
  · exact True.intro
  split
  · rename_i digit
    exact explains_readNumber chars (.inl digit)
  split
  · rename_i quote
    exact explains_readString (quote ▸ head)
  split
  · rename_i quote
    exact explains_readRawString (quote ▸ chars)
  split
  · rename_i quote
    exact explains_readRune (quote ▸ head)
  split
  · exact explains_readName cur
  split
  · exact True.intro
  · rename_i tail comment
    split
    · rename_i unclosed
      exact ⟨rfl, tail, comment, commentLength_none unclosed⟩
    · rename_i closed
      exact explains_blockComment comment closed
  · rename_i point
    split
    · refine explains_readNumber chars (.inr ?_)
      rw [chars] at point
      exact (List.cons.inj point).1
    · exact explains_readMark chars
  · exact explains_readMark chars

end Cursor

/-! ## Tokens and faults -/

/-- The lexer reads something at the beginning of a text and leaves the rest of it. -/
def ReadsFirst (chars : List Char) (lexeme : Lexeme) (left : List Char) : Prop :=
  ∃ bound cur after first rest, chars = first :: rest ∧ cur.rest = chars ∧
    Cursor.step bound cur first = .ok (lexeme, after) ∧ after.rest = left

/-- The text from the first character of a token on, or, for a semicolon that is not written, from
that of the line end or comment that it stands for.  The flag tells whether a line end is a
semicolon here. -/
inductive Begins : (mayEnd : Bool) → List Char → Token → Prop
  | written {mayEnd : Bool} {chars left : List Char} {t : Token}
      (reads : ReadsFirst chars (.token t) left) (begins : t.WrittenAt chars) :
      Begins mayEnd chars t
  | endOfLine {chars left : List Char} (reads : ReadsFirst chars .newline left)
      (ends : EndsLine chars left) : Begins true chars (.mark .semi)
  | endOfLastLine : Begins true [] (.mark .semi)
  | endOfText : Begins false [] .endOfText

/-- A token behind some others stands between a text that has been read and one that is left. -/
structure Stands (source gap left : List Char) (mayEnd : Bool) (before : List Located)
    (t : Located) : Prop where
  split : source = gap ++ left
  reached : ReadsTo false source (before.map Located.token) mayEnd left
  begins : Begins mayEnd left t.token
  place : t.position = Position.behind gap

/-- A text is read up to a piece of it in which a fault is found. -/
structure Fails (source gap left : List Char) (e : ParseError) : Prop where
  split : source = gap ++ left
  reached : ∃ ts mayEnd, ReadsTo false source ts mayEnd left
  fails : ∃ bound first rest, left = first :: rest ∧ rest.length ≤ bound ∧
    Cursor.step bound ⟨left, Position.behind gap⟩ first = .error e
  arises : e.fault.ArisesAt left
  place : e.position = Position.behind gap

/-- Each of some tokens, given in reverse, stands behind those before it. -/
def Placed (source : List Char) (read : List Located) : Prop :=
  ∀ later t before, read = later ++ t :: before →
    ∃ gap left mayEnd, Stands source gap left mayEnd before.reverse t

section

variable {source : List Char} {read : List Located} {cur after : Cursor} {lexeme : Lexeme}

theorem placed_nil : Placed source [] := by
  intro later t before split
  cases later <;> cases split

theorem Placed.cons {t : Located} (placed : Placed source read)
    (stands : ∃ gap left mayEnd, Stands source gap left mayEnd read.reverse t) :
    Placed source (t :: read) := by
  intro later u before split
  cases later with
  | nil =>
      cases split
      exact stands
  | cons last later =>
      cases split
      exact placed later u before rfl

/-- What the lexer has read and where it has arrived, as it stands between two steps. -/
structure Lexed (source : List Char) (cur : Cursor) (read : List Located) : Prop where
  stands : ∃ gap, source = gap ++ cur.rest ∧ cur.position = Position.behind gap
  reached : ReadsTo false source (read.reverse.map Located.token) (mayEndBehind read) cur.rest
  placed : Placed source read

theorem lexed_start (source : String) : Lexed source.toList (Cursor.ofText source) [] :=
  ⟨⟨[], rfl, rfl⟩, .here, placed_nil⟩

theorem Lexed.next (lexed : Lexed source cur read) {t : Token}
    (begins : Begins (mayEndBehind read) cur.rest t) :
    Placed source (⟨t, cur.position⟩ :: read) := by
  obtain ⟨⟨gap, split, place⟩, reached, placed⟩ := lexed
  exact placed.cons ⟨gap, cur.rest, _, split, reached, begins, place⟩

/-- The semicolon that a line end or the end of the text stands for, if it stands for one. -/
theorem Lexed.endLine (lexed : Lexed source cur read)
    (begins : Begins true cur.rest (.mark .semi)) :
    Placed source (Cursor.endLine cur.position read) := by
  cases mayEnd : mayEndBehind read with
  | false =>
      rw [endLine_of_false mayEnd]
      exact lexed.placed
  | true =>
      rw [endLine_of_true mayEnd]
      exact lexed.next (mayEnd ▸ begins)

/-- The tokens, given in reverse, after one more step. -/
def Lexeme.addTo (position : Position) (read : List Located) : Lexeme → List Located
  | .token t => ⟨t, position⟩ :: read
  | .newline => Cursor.endLine position read
  | .blank => read

theorem readTokens_step {steps : Nat} {first : Char} {rest : List Char}
    (chars : cur.rest = first :: rest) (step : cur.step steps first = .ok (lexeme, after)) :
    Cursor.readTokens (steps + 1) cur read =
      Cursor.readTokens steps after (lexeme.addTo cur.position read) := by
  rw [Cursor.readTokens, chars]
  dsimp only
  rw [step]
  cases lexeme <;> rfl

theorem reached_step {bound : Nat} {first : Char} {rest : List Char}
    (chars : cur.rest = first :: rest) (step : cur.step bound first = .ok (lexeme, after))
    (reached : ReadsTo false source (read.reverse.map Located.token) (mayEndBehind read)
      cur.rest) :
    ReadsTo false source ((lexeme.addTo cur.position read).reverse.map Located.token)
      (mayEndBehind (lexeme.addTo cur.position read)) after.rest := by
  rw [chars] at reached
  cases lexeme with
  | token t =>
      rw [Lexeme.addTo, List.reverse_cons, List.map_append]
      exact reached.trans (.token chars step .here)
  | blank => simpa [Lexeme.addTo] using reached.trans (.blank chars step .here)
  | newline =>
      rw [Lexeme.addTo, mayEndBehind_endLine]
      cases mayEnd : mayEndBehind read with
      | false =>
          rw [mayEnd] at reached
          rw [endLine_of_false mayEnd]
          simpa using reached.trans (.newline chars step .here)
      | true =>
          rw [mayEnd] at reached
          rw [endLine_of_true mayEnd, List.reverse_cons, List.map_append]
          exact reached.trans (.endOfLine chars step .here)

theorem Lexed.step {bound : Nat} {first : Char} {rest : List Char}
    (lexed : Lexed source cur read) (chars : cur.rest = first :: rest)
    (step : cur.step bound first = .ok (lexeme, after)) :
    Lexed source after (lexeme.addTo cur.position read) := by
  have reads : ReadsFirst cur.rest lexeme after.rest :=
    ⟨bound, cur, after, first, rest, chars, rfl, step, rfl⟩
  have explains := Cursor.explains_step bound chars
  rw [step] at explains
  refine ⟨?_, reached_step chars step lexed.reached, ?_⟩
  · obtain ⟨gap, split, place⟩ := lexed.stands
    obtain ⟨others, passes, _⟩ := Cursor.step_spans chars step
    refine ⟨gap ++ first :: others, ?_, ?_⟩
    · rw [split, passes.1, List.append_assoc]
    · rw [passes.2, place, Position.foldl_after]
  · cases lexeme with
    | token t => exact lexed.next (.written reads explains)
    | newline => exact lexed.endLine (.endOfLine reads explains)
    | blank => exact lexed.placed

theorem Lexed.fails {bound : Nat} {first : Char} {rest : List Char} {e : ParseError}
    (lexed : Lexed source cur read) (chars : cur.rest = first :: rest)
    (enough : rest.length ≤ bound) (step : cur.step bound first = .error e) :
    ∃ gap left, Fails source gap left e := by
  obtain ⟨gap, split, place⟩ := lexed.stands
  have explains := Cursor.explains_step bound chars
  rw [step] at explains
  refine ⟨gap, cur.rest, split, ⟨_, _, lexed.reached⟩, ⟨bound, first, rest, chars, enough, ?_⟩,
    explains.2, explains.1.trans place⟩
  rw [← place]
  exact step

theorem Lexed.ends (lexed : Lexed source cur read) (empty : cur.rest = []) :
    Placed source (⟨.endOfText, cur.position⟩ :: Cursor.endLine cur.position read) := by
  have lastLine := lexed.endLine (empty ▸ .endOfLastLine)
  obtain ⟨⟨gap, split, place⟩, reached, _⟩ := lexed
  refine lastLine.cons ⟨gap, [], false, empty ▸ split, ?_, .endOfText, place⟩
  cases mayEnd : mayEndBehind read with
  | false =>
      rw [mayEnd, empty] at reached
      rw [endLine_of_false mayEnd]
      exact reached
  | true =>
      rw [mayEnd, empty] at reached
      rw [endLine_of_true mayEnd, List.reverse_cons, List.map_append]
      exact reached.trans .endOfLastLine

end

/-- What the lexer has read stands where it says, and so does what it has yet to read. -/
theorem readTokens_placed {source : List Char} : ∀ (steps : Nat) (cur : Cursor)
    (read : List Located), cur.rest.length ≤ steps → Lexed source cur read →
      match Cursor.readTokens steps cur read with
      | .ok result => Placed source result
      | .error e => ∃ gap left, Fails source gap left e := by
  intro steps
  induction steps with
  | zero =>
      intro cur read enough lexed
      exact lexed.ends (List.eq_nil_of_length_eq_zero (Nat.le_zero.mp enough))
  | succ steps ih =>
      intro cur read enough lexed
      cases chars : cur.rest with
      | nil =>
          rw [Cursor.readTokens, chars]
          exact lexed.ends chars
      | cons first rest =>
          rw [chars, List.length_cons] at enough
          cases step : cur.step steps first with
          | error e =>
              rw [Cursor.readTokens, chars]
              simp only [step]
              exact lexed.fails chars (Nat.le_of_succ_le_succ enough) step
          | ok result =>
              obtain ⟨lexeme, after⟩ := result
              have shorter := Cursor.step_shorter chars step
              rw [chars, List.length_cons] at shorter
              rw [readTokens_step chars step]
              exact ih _ _ (by omega) (lexed.step chars step)

/-- Every token has the place that the text in front of it tells.  It is written there; or it is a
semicolon behind a token that ends a statement, and a line end, a comment with one or the end of
the text is there.  A text that is refused has its fault at the beginning of the literal, comment or
character in which it is found, up to which everything is read. -/
theorem tokenize_places (source : String) :
    (∀ tokens, tokenize source = .ok tokens →
      ∀ before t later, tokens = before ++ t :: later →
        ∃ gap left mayEnd, Stands source.toList gap left mayEnd before t) ∧
    ∀ e, tokenize source = .error e → ∃ gap left, Fails source.toList gap left e := by
  have run := readTokens_placed (Cursor.ofText source).rest.length (Cursor.ofText source) []
    (Nat.le_refl _) (lexed_start source)
  unfold tokenize
  dsimp only
  cases ran : Cursor.readTokens (Cursor.ofText source).rest.length (Cursor.ofText source) [] with
  | ok result =>
      rw [ran] at run
      refine ⟨?_, nofun⟩
      rintro tokens accepted before t later split
      cases accepted
      have reversed : result = later.reverse ++ t :: before.reverse := by
        rw [← List.reverse_reverse result, split]
        simp
      simpa using run _ _ _ reversed
  | error e =>
      rw [ran] at run
      refine ⟨nofun, ?_⟩
      rintro e' failed
      cases failed
      exact run

/-- Line ends in a literal and in a comment, and a character of two bytes in each of two texts. -/
theorem tokenize_places_lines :
    (∃ tokens, tokenize "s = `é\n` /* a\n b */ x" = .ok tokens ∧
      tokens.map Located.position = [⟨1, 1⟩, ⟨1, 3⟩, ⟨1, 5⟩, ⟨2, 3⟩, ⟨3, 7⟩, ⟨3, 8⟩, ⟨3, 8⟩] ∧
      ∀ before t later, tokens = before ++ t :: later → ∃ gap left mayEnd,
        Stands "s = `é\n` /* a\n b */ x".toList gap left mayEnd before t) ∧
    ∃ e, tokenize "é = \"b\\q\"" = .error e ∧ e.position = ⟨1, 5⟩ ∧
      ∃ gap left, Fails "é = \"b\\q\"".toList gap left e := by
  constructor
  · have places : (tokenize "s = `é\n` /* a\n b */ x").toOption.map
        (fun tokens => tokens.map Located.position) =
          some [⟨1, 1⟩, ⟨1, 3⟩, ⟨1, 5⟩, ⟨2, 3⟩, ⟨3, 7⟩, ⟨3, 8⟩, ⟨3, 8⟩] := by decide +kernel
    cases accepted : tokenize "s = `é\n` /* a\n b */ x" with
    | error e =>
        rw [accepted] at places
        cases places
    | ok tokens =>
        rw [accepted] at places
        exact ⟨tokens, rfl, Option.some.inj places, (tokenize_places _).1 tokens accepted⟩
  · have place : (match tokenize "é = \"b\\q\"" with
        | .ok _ => none
        | .error e => some e.position) = some ⟨1, 5⟩ := by decide +kernel
    cases failed : tokenize "é = \"b\\q\"" with
    | ok tokens =>
        rw [failed] at place
        cases place
    | error e =>
        rw [failed] at place
        exact ⟨e, rfl, Option.some.inj place, (tokenize_places _).2 e failed⟩

end SandboxedGo.Source
