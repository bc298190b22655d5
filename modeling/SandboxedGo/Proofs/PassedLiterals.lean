import SandboxedGo.Proofs.SharedTexts
import SandboxedGo.Submission.HostCalls

/-!
# What a reader of braces passes

The end of a block is found by a reader that counts braces and skips literals and comments on its
own.  On a text that the lexer accepts, both skip the same: whatever the lexer reads in one step,
the reader passes with its count unchanged, unless it is a brace.  It does not look beyond the brace
that it finds, so what it finds does not depend on the text behind it.  Main statements:
`afterClosing_step`, `closesBefore_of_some`.
-/

set_option autoImplicit false

namespace SandboxedGo

theorem Source.isMark_iff {t : Source.Token} {m : Source.Mark} :
    t.isMark m = true ↔ t = .mark m := by
  cases t <;> simp [Source.Token.isMark]

namespace Submission

open Source

/-! ## What the reader passes -/

/-- The characters that the reader of braces passes one by one wherever they stand in the code. -/
def isTransparent (c : Char) : Bool :=
  !(c = '\x7b' || c = '\x7d' || c = '"' || c = '\'' || c = '\x60' || c = '/')

variable {depth : Nat} {rest : List Char}

theorem afterClosing_slash (noLine : rest.head? ≠ some '/') (noBlock : rest.head? ≠ some '*') :
    afterClosing .code depth ('/' :: rest) = afterClosing .code depth rest := by
  rw [afterClosing]
  · rfl
  · rintro more - rfl
    exact noLine rfl
  · rintro more - rfl
    exact noBlock rfl

theorem afterClosing_char {c : Char} (noSlash : c ≠ '/') :
    afterClosing .code depth (c :: rest) =
      if c = '\x7b' then afterClosing .code (depth + 1) rest
      else if c = '\x7d' then if depth ≤ 1 then some rest else afterClosing .code (depth - 1) rest
      else if c = '"' || c = '\'' then afterClosing (.quoted c) depth rest
      else if c = '\x60' then afterClosing .raw depth rest
      else afterClosing .code depth rest := by
  rw [afterClosing]
  · exact fun _ slash => absurd slash noSlash
  · exact fun _ slash => absurd slash noSlash

theorem afterClosing_transparent {c : Char} (transparent : isTransparent c = true) :
    afterClosing .code depth (c :: rest) = afterClosing .code depth rest := by
  simp only [isTransparent, Bool.not_eq_true', Bool.or_eq_false_iff, decide_eq_false_iff_not]
    at transparent
  obtain ⟨⟨⟨⟨⟨noOpening, noClosing⟩, noString⟩, noRune⟩, noRaw⟩, noSlash⟩ := transparent
  rw [afterClosing_char noSlash, if_neg noOpening, if_neg noClosing,
    if_neg (by simp [noString, noRune]), if_neg noRaw]

theorem afterClosing_run {taken : List Char} (behind : List Char)
    (all : ∀ c ∈ taken, isTransparent c = true) :
    afterClosing .code depth (taken ++ behind) = afterClosing .code depth behind := by
  induction taken with
  | nil => rfl
  | cons c taken ih =>
      rw [List.cons_append, afterClosing_transparent (all c List.mem_cons_self),
        ih fun d isIn => all d (List.mem_cons_of_mem c isIn)]

theorem isTransparent_nameChar {c : Char} (part : Cursor.isNameChar c = true) :
    isTransparent c = true := by
  have plain (d : Char) (no : Cursor.isNameChar d = false) : c ≠ d := by
    rintro rfl
    rw [part] at no
    cases no
  simp [isTransparent, plain '\x7b' rfl, plain '\x7d' rfl, plain '"' rfl, plain '\'' rfl,
    plain '\x60' rfl, plain '/' rfl]

/-! ### Comments -/

theorem afterClosing_inLineComment (tail : List Char) :
    afterClosing .lineComment depth tail =
      afterClosing .code depth (tail.dropWhile (· ≠ '\n')) := by
  induction tail with
  | nil => rfl
  | cons c tail ih =>
      rw [afterClosing]
      by_cases line : c = '\n'
      · subst line
        exact (afterClosing_transparent (by decide)).symm
      · rw [if_neg line, ih, List.dropWhile_cons_of_pos (by simp [line])]

theorem afterClosing_lineComment (tail : List Char) :
    afterClosing .code depth ('/' :: '/' :: tail) =
      afterClosing .code depth (('/' :: tail).dropWhile (· ≠ '\n')) := by
  rw [afterClosing, afterClosing_inLineComment]
  rfl

theorem afterClosing_inBlockComment {count length : Nat} {chars : List Char}
    (closed : Cursor.commentLength? count chars = some length) :
    afterClosing .blockComment depth chars =
      afterClosing .code depth (chars.drop (length - count)) := by
  fun_induction Cursor.commentLength? count chars with
  | case1 count => cases closed
  | case2 count rest =>
      have two : length - count = 2 := by
        simp only [Option.some.injEq] at closed
        omega
      rw [afterClosing, two]
      rfl
  | case3 count c rest noEnd ih =>
      have long := Cursor.commentLength_ge closed
      have more : length - count = length - (count + 1) + 1 := by omega
      rw [afterClosing, ih closed, more, List.drop_succ_cons]
      exact noEnd

theorem afterClosing_blockComment {tail : List Char} {length : Nat}
    (closed : Cursor.commentLength? 2 tail = some length) :
    afterClosing .code depth ('/' :: '*' :: tail) =
      afterClosing .code depth (('/' :: '*' :: tail).drop length) := by
  have long := Cursor.commentLength_ge closed
  obtain ⟨length, rfl⟩ : ∃ n, length = n + 2 := ⟨length - 2, by omega⟩
  rw [afterClosing, afterClosing_inBlockComment closed]
  rfl

/-! ### Literals -/

theorem afterClosing_raw (body : List Char) :
    afterClosing .raw depth body =
      afterClosing .code depth ((body.dropWhile (· ≠ '\x60')).drop 1) := by
  induction body with
  | nil => rfl
  | cons c body ih =>
      rw [afterClosing]
      by_cases quote : c = '\x60'
      · subst quote
        rfl
      · rw [if_neg quote, ih, List.dropWhile_cons_of_pos (by simp [quote])]

theorem afterClosing_digits {delimiter : Char} (noDigit : Cursor.isHexDigit delimiter = false)
    {digits : List Char} (hex : ∀ d ∈ digits, Cursor.isHexDigit d = true) :
    afterClosing (.quoted delimiter) depth (digits ++ rest) =
      afterClosing (.quoted delimiter) depth rest := by
  induction digits with
  | nil => rfl
  | cons d digits ih =>
      have plain : ∀ c : Char, Cursor.isHexDigit c = false → d ≠ c := by
        rintro c no rfl
        rw [hex _ List.mem_cons_self] at no
        cases no
      rw [List.cons_append, afterClosing, if_neg (plain delimiter noDigit), if_neg (plain '\\' rfl),
        ih fun c isIn => hex c (List.mem_cons_of_mem d isIn)]

theorem afterClosing_quoted {start : Position} {delimiter : Char} {fault : Fault}
    (noDigit : Cursor.isHexDigit delimiter = false) :
    ∀ (steps : Nat) (cur : Cursor) (bytes : List UInt8) {result : List UInt8} {after : Cursor},
      Cursor.readQuoted start delimiter fault steps cur bytes = .ok (result, after) →
        afterClosing (.quoted delimiter) depth cur.rest = afterClosing .code depth after.rest := by
  intro steps
  induction steps with
  | zero =>
      intro cur bytes result after quoted
      simp [Cursor.readQuoted] at quoted
  | succ steps ih =>
      intro cur bytes result after quoted
      unfold Cursor.readQuoted at quoted
      cases given : cur.rest with
      | nil => simp [given] at quoted
      | cons c rest =>
          have skipped : (cur.skip 1).rest = rest := by simp [Cursor.skip, given]
          simp only [given] at quoted
          split at quoted
          · cases quoted
          split at quoted
          · rename_i quote
            cases quoted
            rw [afterClosing, if_pos quote, skipped]
          rename_i quote
          split at quoted
          · rename_i slash
            split at quoted
            · cases quoted
            · rename_i escaped
              obtain ⟨letter, digits, parts, hex⟩ := readEscape_digits escaped
              rw [skipped] at parts
              rw [afterClosing, if_neg quote, if_pos slash, parts, afterClosing,
                afterClosing_digits noDigit hex]
              exact ih _ _ quoted
          · rename_i slash
            rw [afterClosing, if_neg quote, if_neg slash, ← skipped]
            exact ih _ _ quoted

/-! ### Numbers and marks -/

theorem afterClosing_number {cur after : Cursor} {lexeme : Lexeme}
    (read : cur.readNumber = .ok (lexeme, after)) :
    afterClosing .code depth cur.rest = afterClosing .code depth after.rest := by
  obtain ⟨taken, text, transparent⟩ :=
    readNumber_takes (fun _ part => isTransparent_nameChar part) (by decide) read
  rw [text, afterClosing_run _ transparent]

/-- What the reader does at a token that it does not know of but by its kind. -/
def afterToken (depth : Nat) (left : List Char) (t : Token) : Option (List Char) :=
  if t.isMark .lBrace then afterClosing .code (depth + 1) left
  else if t.isMark .rBrace then if depth ≤ 1 then some left else afterClosing .code (depth - 1) left
  else afterClosing .code depth left

/-- What the reader does at what the lexer reads in one step. -/
def afterLexeme (depth : Nat) (left : List Char) : Lexeme → Option (List Char)
  | .token t => afterToken depth left t
  | .newline | .blank => afterClosing .code depth left

/-- How marks are spelled: braces as themselves, and the others without braces and without quotes,
with a slash at most at the beginning. -/
theorem spelling_braces : ∀ entry ∈ Mark.spellings,
    entry.2.1 = .lBrace ∧ entry.1 = ['\x7b'] ∨ entry.2.1 = .rBrace ∧ entry.1 = ['\x7d'] ∨
      (entry.2.1 ≠ .lBrace ∧ entry.2.1 ≠ .rBrace ∧
        entry.1.tail.all isTransparent = true ∧
        entry.1.head?.all (fun c => isTransparent c || c == '/') = true) := by
  decide

theorem afterClosing_mark {first : Char} {m : Mark} {length : Nat}
    (found : Mark.atStart? (first :: rest) = some (m, length))
    (noComment : first = '/' → rest.head? ≠ some '/' ∧ rest.head? ≠ some '*') :
    afterClosing .code depth (first :: rest) =
      afterToken depth ((first :: rest).drop length) (.mark m) := by
  obtain ⟨spelling, label, listed, ⟨behind, spelled⟩, rfl⟩ := Cursor.atStart_some found
  rw [← spelled, List.drop_left]
  rcases spelling_braces _ listed with
    ⟨rfl, rfl⟩ | ⟨rfl, rfl⟩ | ⟨noOpening, noClosing, others, head⟩
  · exact afterClosing_char (by decide)
  · exact afterClosing_char (by decide)
  · cases spelling with
    | nil => exact absurd rfl (Cursor.spelling_ne_nil _ listed)
    | cons c more =>
        obtain ⟨rfl, goesOn⟩ := List.cons.inj spelled
        have text : more ++ behind = rest := goesOn
        rw [← text] at noComment
        have passes : afterClosing .code depth (c :: (more ++ behind)) =
            afterClosing .code depth behind := by
          have run : afterClosing .code depth (more ++ behind) = afterClosing .code depth behind :=
            afterClosing_run behind (List.all_eq_true.mp others)
          rcases Bool.or_eq_true_iff.mp head with transparent | is
          · rw [afterClosing_transparent transparent]
            exact run
          · obtain rfl := eq_of_beq is
            rw [afterClosing_slash (noComment rfl).1 (noComment rfl).2]
            exact run
        rw [List.cons_append, passes]
        simp only [afterToken, Token.isMark, decide_eq_true_eq]
        rw [if_neg noOpening, if_neg noClosing]

/-! ## Steps of the lexer -/

theorem afterLexeme_number {lexeme : Lexeme} (number : lexeme.isNumber = true) (left : List Char) :
    afterLexeme depth left lexeme = afterClosing .code depth left := by
  match lexeme, number with
  | .token (.int _), _ => rfl
  | .token (.float _), _ => rfl

theorem afterToken_word (word : String) (left : List Char) :
    afterToken depth left (wordToken word) = afterClosing .code depth left := by
  unfold wordToken
  split <;> rfl

theorem afterClosing_readMark {cur after : Cursor} {first : Char} {lexeme : Lexeme}
    (text : cur.rest = first :: rest)
    (noComment : first = '/' → rest.head? ≠ some '/' ∧ rest.head? ≠ some '*')
    (read : cur.readMark first = .ok (lexeme, after)) :
    afterClosing .code depth (first :: rest) = afterLexeme depth after.rest lexeme := by
  unfold Cursor.readMark at read
  split at read
  · rename_i m length found
    cases read
    rw [text] at found
    rw [Cursor.skip_rest, text]
    exact afterClosing_mark found noComment
  · cases read

/-- Whatever the lexer reads in one step, the reader passes it: with one more block open behind an
opening brace, with one less behind a closing one, and otherwise with as many. -/
theorem afterClosing_step {bound : Nat} {cur after : Cursor} {first : Char} {lexeme : Lexeme}
    (text : cur.rest = first :: rest) (step : cur.step bound first = .ok (lexeme, after)) :
    afterClosing .code depth (first :: rest) = afterLexeme depth after.rest lexeme := by
  have behind : (cur.skip 1).rest = rest := by simp [Cursor.skip, text]
  have number (read : cur.readNumber = .ok (lexeme, after)) :
      afterClosing .code depth (first :: rest) = afterLexeme depth after.rest lexeme := by
    rw [afterLexeme_number (Cursor.isNumber_of_readNumber read), ← text, afterClosing_number read]
  unfold Cursor.step at step
  split at step
  · rename_i line
    cases step
    rw [behind, line]
    exact afterClosing_transparent (by decide)
  split at step
  · rename_i space
    cases step
    simp only [Bool.or_eq_true, decide_eq_true_eq, or_assoc] at space
    rw [behind]
    exact afterClosing_transparent (by rcases space with rfl | rfl | rfl <;> decide)
  split at step
  · exact number step
  split at step
  · rename_i quote
    subst quote
    unfold Cursor.readString at step
    cases quoted : Cursor.readQuoted cur.position '"' .stringNotTerminated bound
      (cur.skip 1) [] with
    | error e =>
        rw [quoted] at step
        cases step
    | ok result =>
        rw [quoted] at step
        cases step
        rw [← behind, afterClosing_char (by decide)]
        exact afterClosing_quoted (by decide) _ _ _ quoted
  split at step
  · rename_i quote
    subst quote
    obtain ⟨value, _, rfl, piece⟩ := rawPiece_agrees text step
    have left : after.rest = (rest.dropWhile (· ≠ '\x60')).drop 1 := by
      rw [← show (rawPiece rest).2 = after.rest from congrArg Prod.snd piece]
      unfold rawPiece
      split <;> rename_i ending <;> rw [ending] <;> rfl
    rw [left, afterClosing_char (by decide)]
    exact afterClosing_raw rest
  split at step
  · rename_i quote
    subst quote
    unfold Cursor.readRune at step
    cases quoted : Cursor.readQuoted cur.position '\'' .runeNotTerminated bound (cur.skip 1) [] with
    | error e =>
        rw [quoted] at step
        cases step
    | ok result =>
        rw [quoted] at step
        simp only [bind, Except.bind] at step
        split at step
        · cases step
          rw [← behind, afterClosing_char (by decide)]
          exact afterClosing_quoted (by decide) _ _ _ quoted
        · cases step
  split at step
  · obtain ⟨rfl, rfl⟩ : cur.readName.1 = lexeme ∧ cur.readName.2 = after :=
      ⟨congrArg Prod.fst (Except.ok.inj step), congrArg Prod.snd (Except.ok.inj step)⟩
    have left : cur.readName.2.rest = cur.rest.dropWhile Cursor.isNameChar :=
      Cursor.readWhile_rest cur Cursor.isNameChar
    have parts : first :: rest = cur.rest.takeWhile Cursor.isNameChar ++ cur.readName.2.rest := by
      rw [left, List.takeWhile_append_dropWhile, text]
    rw [readName_token, parts]
    refine (afterClosing_run _ fun c isIn => ?_).trans (afterToken_word _ _).symm
    exact isTransparent_nameChar (List.mem_takeWhile_imp isIn)
  split at step
  · rename_i tail comment
    cases step
    rw [text, List.cons.injEq] at comment
    obtain ⟨rfl, rfl⟩ := comment
    rw [Cursor.readWhile_rest, text, List.dropWhile_cons_of_pos (by decide)]
    exact afterClosing_lineComment tail
  · rename_i tail comment
    rw [text, List.cons.injEq] at comment
    obtain ⟨rfl, rfl⟩ := comment
    split at step
    · cases step
    · rename_i length closed
      cases step
      rw [Cursor.skip_rest, text, afterClosing_blockComment closed]
      split <;> rfl
  · rename_i d tail point
    rw [text, List.cons.injEq] at point
    obtain ⟨rfl, rfl⟩ := point
    split at step
    · exact number step
    · exact afterClosing_readMark text (by rintro ⟨⟩) step
  · rename_i noLine noBlock _
    refine afterClosing_readMark text ?_ step
    rintro rfl
    refine ⟨fun is => ?_, fun is => ?_⟩
    · obtain ⟨tail, rfl⟩ := List.head?_eq_some_iff.mp is
      exact absurd text (noLine tail)
    · obtain ⟨tail, rfl⟩ := List.head?_eq_some_iff.mp is
      exact absurd text (noBlock tail)

/-- How braces are spelled. -/
def braceSpelling? : Token → Option Char
  | .mark .lBrace => some '\x7b'
  | .mark .rBrace => some '\x7d'
  | _ => none

theorem braceSpelling?_cases {t : Token} {c : Char} (brace : braceSpelling? t = some c) :
    t = .mark .lBrace ∧ c = '\x7b' ∨ t = .mark .rBrace ∧ c = '\x7d' := by
  unfold braceSpelling? at brace
  split at brace
  · exact .inl ⟨rfl, (Option.some.inj brace).symm⟩
  · exact .inr ⟨rfl, (Option.some.inj brace).symm⟩
  · cases brace

theorem isMark_of_noBrace {t : Token} (noBrace : braceSpelling? t = none) :
    t.isMark .lBrace = false ∧ t.isMark .rBrace = false := by
  constructor
  all_goals
    refine Bool.eq_false_iff.mpr fun is => ?_
    rw [isMark_iff.mp is] at noBrace
    cases noBrace

theorem step_brace {bound : Nat} {cur after : Cursor} {first c : Char} {t : Token}
    (text : cur.rest = first :: rest) (step : cur.step bound first = .ok (.token t, after))
    (brace : braceSpelling? t = some c) : first :: rest = c :: after.rest := by
  -- The lexeme is set apart so that the cases are what the lexer has read.
  generalize lexed : Lexeme.token t = lexeme at step
  have reads := Cursor.step_reads text step
  generalize after.rest = behind at reads
  cases reads with
  | newline | space | lineComment => cases lexed
  | blockComment _ _ noToken => rcases noToken with rfl | rfl <;> cases lexed
  | int | float | rune =>
      cases lexed
      cases brace
  | string quote read =>
      subst quote
      obtain ⟨value, _, rfl, _⟩ := interpretedPiece_agrees text read
      cases lexed
      cases brace
  | rawString quote read =>
      subst quote
      obtain ⟨value, _, rfl, _⟩ := rawPiece_agrees text read
      cases lexed
      cases brace
  | name =>
      rw [readName_token] at lexed
      cases lexed
      unfold wordToken at brace
      split at brace <;> cases brace
  | mark found =>
      cases lexed
      obtain ⟨spelling, label, listed, ⟨behind, spelled⟩, rfl⟩ := Cursor.atStart_some found
      rw [← spelled, List.drop_left]
      rcases spelling_braces _ listed with
        ⟨rfl, rfl⟩ | ⟨rfl, rfl⟩ | ⟨noOpening, noClosing, _⟩
      · cases brace
        rfl
      · cases brace
        rfl
      · rename_i m _ _
        cases m <;> cases brace <;> contradiction

/-! ## Blocks before further text -/

variable {chars left : List Char}

/-- The reader of braces stops behind a brace, with or without further text behind what is left. -/
structure ClosesBefore (region : Region) (depth : Nat) (chars left : List Char) : Prop where
  brace : '\x7d' :: left <:+ chars
  again : ∀ more, afterClosing region depth (chars ++ more) = some (left ++ more)

theorem ClosesBefore.passed {region region' : Region} {depth depth' : Nat} {c : Char}
    {rest : List Char} (closes : ClosesBefore region' depth' rest left)
    (same : ∀ more, afterClosing region depth (c :: (rest ++ more)) =
      afterClosing region' depth' (rest ++ more)) :
    ClosesBefore region depth (c :: rest) left where
  brace := closes.brace.trans (List.suffix_cons c rest)
  again more := (same more).trans (closes.again more)

theorem closesBefore_of_some {region : Region} {depth : Nat}
    (closed : afterClosing region depth chars = some left) :
    ClosesBefore region depth chars left := by
  -- What is found is not found at the last character, and so the one behind it is known.
  have further {region : Region} {depth : Nat} {rest : List Char}
      (empty : afterClosing region depth [] = none)
      (closed : afterClosing region depth rest = some left) : ∃ d tail, rest = d :: tail :=
    List.exists_cons_of_ne_nil fun ends => by
      rw [ends, empty] at closed
      cases closed
  fun_induction afterClosing region depth chars with
  | case1 => cases closed
  | case2 _ _ ih =>
      exact ⟨(ih closed).brace.trans ⟨['/', '/'], rfl⟩, (ih closed).again⟩
  | case3 _ _ ih =>
      exact ⟨(ih closed).brace.trans ⟨['/', '*'], rfl⟩, (ih closed).again⟩
  | case4 depth rest _ _ ih =>
      refine (ih closed).passed fun more => ?_
      rw [afterClosing_char (by decide), if_pos rfl]
  | case5 depth rest last _ _ noOpening =>
      cases closed
      refine ⟨List.suffix_rfl, fun more => ?_⟩
      rw [List.cons_append, afterClosing_char (by decide), if_neg noOpening, if_pos rfl,
        if_pos last]
  | case6 depth rest inner _ _ noOpening ih =>
      refine (ih closed).passed fun more => ?_
      rw [afterClosing_char (by decide), if_neg noOpening, if_pos rfl, if_neg inner]
  | case7 depth c rest _ _ noOpening noClosing quote ih =>
      refine (ih closed).passed fun more => ?_
      have noSlash : c ≠ '/' := by
        rintro rfl
        cases quote
      rw [afterClosing_char noSlash, if_neg noOpening, if_neg noClosing, if_pos quote]
  | case8 depth rest _ _ _ _ _ ih =>
      refine (ih closed).passed fun more => ?_
      rw [afterClosing_char (by decide)]
      rfl
  | case9 depth c rest noLine noBlock noOpening noClosing noQuote noRaw ih =>
      refine (ih closed).passed fun more => ?_
      by_cases slash : c = '/'
      · subst slash
        obtain ⟨d, tail, rfl⟩ := further rfl closed
        refine afterClosing_slash ?_ ?_
        · rintro ⟨⟩
          exact noLine tail rfl rfl
        · rintro ⟨⟩
          exact noBlock tail rfl rfl
      · rw [afterClosing_char slash, if_neg noOpening, if_neg noClosing, if_neg noQuote,
          if_neg noRaw]
  | case10 _ _ _ ih =>
      refine (ih closed).passed fun more => ?_
      rw [afterClosing, if_pos rfl]
  | case11 _ _ _ other ih =>
      refine (ih closed).passed fun more => ?_
      rw [afterClosing, if_neg other, if_pos rfl]
  | case12 _ _ _ _ other noEscape ih =>
      refine (ih closed).passed fun more => ?_
      rw [afterClosing, if_neg other, if_neg noEscape]
  | case13 _ _ _ _ ih => exact (ih closed).passed fun more => by rw [afterClosing]
  | case14 _ _ _ ih => exact (ih closed).passed fun more => by rw [afterClosing]
  | case15 _ _ _ ih => exact (ih closed).passed fun more => by rw [afterClosing]
  | case16 _ _ ih =>
      exact ⟨(ih closed).brace.trans ⟨['*', '/'], rfl⟩, (ih closed).again⟩
  | case17 depth c rest noEnd ih =>
      refine (ih closed).passed fun more => ?_
      obtain ⟨d, tail, rfl⟩ := further rfl closed
      rw [afterClosing]
      rintro _ rfl ⟨⟩
      exact noEnd _ rfl rfl

theorem bodyFrom_some {steps steps' parens : Nat} {read : List Char}
    (found : bodyFrom steps parens read chars = some left) (enough : steps ≤ steps') :
    left <:+ chars ∧
      ∀ more, bodyFrom steps' parens read (chars ++ more) = some (left ++ more) := by
  induction steps generalizing steps' parens read chars with
  | zero => cases found
  | succ steps ih =>
      obtain ⟨steps', rfl⟩ : ∃ fewer, steps' = fewer + 1 := ⟨steps' - 1, by omega⟩
      have enough := Nat.le_of_succ_le_succ enough
      cases chars with
      | nil => cases found
      | cons c rest =>
          unfold bodyFrom at found
          split at found
          · rename_i opening
            split at found
            · rename_i isType
              cases block : afterBlock? (c :: rest) with
              | none =>
                  rw [block] at found
                  cases found
              | some after =>
                  rw [block] at found
                  have closes := closesBefore_of_some block
                  obtain ⟨suffix, again⟩ := ih found enough
                  refine ⟨suffix.trans ((List.suffix_cons _ _).trans closes.brace), fun more => ?_⟩
                  have further : afterBlock? (c :: (rest ++ more)) = some (after ++ more) :=
                    closes.again more
                  rw [List.cons_append, bodyFrom, if_pos opening, if_pos isType, further]
                  exact again more
            · rename_i noType
              cases found
              refine ⟨List.suffix_rfl, fun more => ?_⟩
              rw [List.cons_append, bodyFrom, if_pos opening, if_neg noType]
          · rename_i noOpening
            obtain ⟨suffix, again⟩ := ih found enough
            refine ⟨suffix.trans (List.suffix_cons c rest), fun more => ?_⟩
            rw [List.cons_append, bodyFrom, if_neg noOpening]
            exact again more

end Submission

end SandboxedGo
