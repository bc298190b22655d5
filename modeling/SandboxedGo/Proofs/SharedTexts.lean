import SandboxedGo.Proofs.GapSteps

/-!
# String literals that the scanner shares with the lexer

Outside of literals and comments the scanner and the lexer may cut a text at different places: a
name of the one is several pieces of the other, and a number of the scanner may go on with what the
lexer reads as a name or as points.  None of the characters that they may share out differently
begins a literal or a comment, so both find the same literals.  Main statement: `texts_agree`.
-/

set_option autoImplicit false

namespace SandboxedGo

/-- The value of a string literal. -/
def Source.Token.text? : Source.Token → Option String
  | .string value => some value
  | _ => none

namespace Submission

open Source

/-- The values of the string literals that the scanner cuts off, in order. -/
def texts (chars : List Char) : List String := (tokens chars).filterMap Piece.text?

/-! ## Pieces without a value -/

theorem texts_cons (c : Char) (rest : List Char) :
    texts (c :: rest) =
      (firstPiece rest.length c rest).1.text?.toList ++
        texts (firstPiece rest.length c rest).2 := by
  unfold texts
  rw [tokens_cons]
  split
  · rename_i blank
    simp [Piece.text?, blank]
  · rw [List.filterMap_cons]
    cases (firstPiece rest.length c rest).1.text? <;> rfl

theorem texts_piece {c : Char} {rest behind : List Char} {p : Piece}
    (one : firstPiece rest.length c rest = (p, behind)) (noText : p.text? = none) :
    texts (c :: rest) = texts behind := by
  rw [texts_cons, one, noText]
  rfl

/-- The characters that begin no literal and no comment. -/
def isUnquoted (c : Char) : Bool := !(c = '"' || c = '\x60' || c = '\'' || c = '/')

theorem isUnquoted_of_nameChar {c : Char} (part : Cursor.isNameChar c = true) :
    isUnquoted c = true := by
  have plain (d : Char) (no : Cursor.isNameChar d = false) : c ≠ d := by
    rintro rfl
    rw [part] at no
    cases no
  simp [isUnquoted, plain '"' rfl, plain '\x60' rfl, plain '\'' rfl, plain '/' rfl]

theorem isUnquoted_of_numberChar {c : Char} (part : isNumberChar c = true) :
    isUnquoted c = true := by
  simp only [isNumberChar, Bool.or_eq_true, decide_eq_true_eq] at part
  rcases part with part | rfl
  · exact isUnquoted_of_nameChar (isNameChar_wider part)
  · rfl

/-- The first piece of a text that begins with one of these characters has no value, and takes
nothing but such characters. -/
theorem firstPiece_unquoted (bound : Nat) {c : Char} (unquoted : isUnquoted c = true)
    (rest : List Char) :
    ∃ p taken behind, firstPiece bound c rest = (p, behind) ∧ p.text? = none ∧
      rest = taken ++ behind ∧ ∀ d ∈ taken, isUnquoted d = true := by
  simp only [isUnquoted, Bool.not_eq_true', Bool.or_eq_false_iff, decide_eq_false_iff_not]
    at unquoted
  obtain ⟨⟨⟨noString, noRaw⟩, noRune⟩, noSlash⟩ := unquoted
  have alone (kind : PieceKind) (noText : (⟨kind, [c]⟩ : Piece).text? = none) :
      ∃ p taken behind, ((⟨kind, [c]⟩ : Piece), rest) = (p, behind) ∧ p.text? = none ∧
        rest = taken ++ behind ∧ ∀ d ∈ taken, isUnquoted d = true :=
    ⟨_, [], _, rfl, noText, rfl, by simp⟩
  have run (kind : PieceKind) (q : Char → Bool)
      (noText : ∀ chars, (⟨kind, chars⟩ : Piece).text? = none)
      (narrow : ∀ d, q d = true → isUnquoted d = true) :
      ∃ p taken behind, runPiece kind c q rest = (p, behind) ∧ p.text? = none ∧
        rest = taken ++ behind ∧ ∀ d ∈ taken, isUnquoted d = true :=
    ⟨_, _, _, rfl, noText _, List.takeWhile_append_dropWhile.symm,
      fun d member => narrow d (List.mem_takeWhile_imp member)⟩
  unfold firstPiece
  split
  · exact alone _ rfl
  split
  · exact alone _ rfl
  split
  · exact alone _ rfl
  split
  · exact run _ _ (fun _ => rfl) fun d part => isUnquoted_of_nameChar (isNameChar_wider part)
  split
  · exact run _ _ (fun _ => rfl) fun d part => isUnquoted_of_numberChar part
  split
  · exact absurd rfl noSlash
  · exact absurd rfl noSlash
  · split
    · exact run _ _ (fun _ => rfl) fun d part => isUnquoted_of_numberChar part
    · exact alone _ rfl
  · exact alone _ rfl
  · exact alone _ rfl

theorem texts_unquoted_within : ∀ (n : Nat) (taken behind : List Char),
    (taken ++ behind).length ≤ n → (∀ c ∈ taken, isUnquoted c = true) →
    texts (taken ++ behind) = texts behind := by
  -- By induction on the length of the whole text: the first piece may reach beyond the characters
  -- that are left out, and what it takes beyond them is left out of the other text as well.
  intro n
  induction n with
  | zero =>
      intro taken behind short _
      have none : taken = [] := by
        cases taken with
        | nil => rfl
        | cons c taken => simp at short
      rw [none]
      rfl
  | succ n ih =>
      intro taken behind short unquoted
      cases taken with
      | nil => rfl
      | cons c taken =>
          have others : ∀ d ∈ taken, isUnquoted d = true := fun d member =>
            unquoted d (List.mem_cons_of_mem c member)
          rw [List.cons_append, List.length_cons] at short
          obtain ⟨p, run, left, one, noText, parts, inRun⟩ :=
            firstPiece_unquoted (taken ++ behind).length (unquoted c List.mem_cons_self)
              (taken ++ behind)
          calc texts (c :: (taken ++ behind))
              _ = texts left := texts_piece one noText
              _ = texts (run ++ left) := (ih run left (by rw [← parts]; omega) inRun).symm
              _ = texts (taken ++ behind) := by rw [← parts]
              _ = texts behind := ih taken behind (by omega) others

theorem texts_unquoted {taken : List Char} (behind : List Char)
    (unquoted : ∀ c ∈ taken, isUnquoted c = true) : texts (taken ++ behind) = texts behind :=
  texts_unquoted_within _ taken behind (Nat.le_refl _) unquoted

theorem texts_slash {rest : List Char} (noLine : rest.head? ≠ some '/')
    (noBlock : rest.head? ≠ some '*') : texts ('/' :: rest) = texts rest := by
  have one : firstPiece rest.length '/' rest = (⟨.other, ['/']⟩, rest) := by
    unfold firstPiece
    rw [if_neg (by decide), if_neg (by decide), if_neg (by decide), if_neg (by decide),
      if_neg (by decide), if_neg (by decide), if_neg (by simp [isNameStart_slash]),
      if_neg (by decide)]
    split
    · exact absurd rfl noLine
    · exact absurd rfl noBlock
    · rename_i isPoint
      exact absurd isPoint (by decide)
    · rename_i isPoint
      exact absurd isPoint (by decide)
    · rfl
  exact texts_piece one rfl

/-! ## What the lexer reads -/

theorem numberChars_all {p : Char → Bool} (part : ∀ c, Cursor.isNameChar c = true → p c = true)
    (others : ∀ c ∈ ['.', '+', '-'], p c = true) (isFloat : Bool) (chars : List Char) :
    ∀ c ∈ (Cursor.numberChars isFloat chars).1, p c = true := by
  have digit {c : Char} (is : (c.isDigit || c = '_') = true) : p c = true := by
    refine part c ?_
    simp only [Bool.or_eq_true, decide_eq_true_eq] at is
    rcases is with digit | rfl
    · simp [Cursor.isNameChar, Char.isAlphanum, digit]
    · rfl
  have exponent {c : Char} (is : (c = 'e' || c = 'E') = true) : p c = true := by
    refine part c ?_
    simp only [Bool.or_eq_true, decide_eq_true_eq] at is
    rcases is with rfl | rfl <;> rfl
  have sign {c : Char} (is : (c = '+' || c = '-') = true) : p c = true := by
    simp only [Bool.or_eq_true, decide_eq_true_eq] at is
    exact others c (by rcases is with rfl | rfl <;> simp)
  fun_induction Cursor.numberChars isFloat chars with
  | case1 => exact List.forall_mem_nil _
  | case2 isFloat c rest part more result read ih =>
      rw [read] at ih
      exact List.forall_mem_cons.mpr ⟨digit part, ih⟩
  | case3 isFloat c rest _ point more result read ih =>
      rw [read] at ih
      simp only [Bool.and_eq_true, decide_eq_true_eq] at point
      exact List.forall_mem_cons.mpr ⟨others c (by simp [point.1.1]), ih⟩
  | case4 isFloat c _ part => exact List.forall_mem_singleton.mpr (exponent part)
  | case5 isFloat c _ part d rest isSign more result read _ ih =>
      rw [read] at ih
      exact List.forall_mem_cons.mpr
        ⟨exponent part, List.forall_mem_cons.mpr ⟨sign isSign, ih⟩⟩
  | case6 isFloat c _ part d rest _ more result read _ ih =>
      rw [read] at ih
      exact List.forall_mem_cons.mpr ⟨exponent part, ih⟩
  | case7 => exact List.forall_mem_nil _

theorem readNumber_takes {p : Char → Bool} (part : ∀ c, Cursor.isNameChar c = true → p c = true)
    (others : ['.', '+', '-'].all p = true) {cur after : Cursor} {lexeme : Lexeme}
    (read : cur.readNumber = .ok (lexeme, after)) :
    ∃ taken, cur.rest = taken ++ after.rest ∧ ∀ c ∈ taken, p c = true := by
  cases hex : Cursor.beginsHex cur.rest with
  | true =>
      obtain ⟨x, tail, text, isPrefix⟩ := Cursor.beginsHex_cases hex
      refine ⟨_, ((Cursor.readNumber_hex text isPrefix).mp read).2.1, fun c member => part c ?_⟩
      simp only [List.mem_cons] at member
      rcases member with rfl | rfl | member
      · rfl
      · rcases isPrefix with rfl | rfl <;> rfl
      · exact isNameChar_wider (isNameChar_of_isHexPart (List.mem_takeWhile_imp member))
  | false =>
      exact ⟨_, ((Cursor.readNumber_decimal hex).mp read).2.1,
        numberChars_all part (List.all_eq_true.mp others) false cur.rest⟩

/-- A number has no value for the scanner, wherever the scanner ends it. -/
theorem texts_number {cur after : Cursor} {lexeme : Lexeme}
    (read : cur.readNumber = .ok (lexeme, after)) : texts cur.rest = texts after.rest := by
  obtain ⟨taken, text, unquoted⟩ :=
    readNumber_takes (fun _ part => isUnquoted_of_nameChar part) (by decide) read
  rw [text, texts_unquoted _ unquoted]

theorem texts_mark {first : Char} {rest : List Char} {m : Mark} {length : Nat}
    (found : Mark.atStart? (first :: rest) = some (m, length))
    (noComment : first = '/' → rest.head? ≠ some '/' ∧ rest.head? ≠ some '*') :
    texts (first :: rest) = texts ((first :: rest).drop length) := by
  obtain ⟨spelling, label, listed, ⟨behind, spelled⟩, rfl⟩ := Cursor.atStart_some found
  obtain ⟨plain, noSlashes, points⟩ := spelling_isPlain _ listed
  have unquoted : ∀ c ∈ spelling, c ≠ '/' → isUnquoted c = true := by
    intro c member noSlash
    have isPlain := plain c member
    simp only [SandboxedGo.Submission.isPlain, Bool.not_eq_true', Bool.or_eq_false_iff] at isPlain
    simp [isUnquoted, isPlain, noSlash]
  cases spelling with
  | nil => exact absurd rfl (Cursor.spelling_ne_nil _ listed)
  | cons c others =>
      obtain ⟨rfl, goesOn⟩ := List.cons.inj spelled
      rw [← spelled, List.drop_left]
      have others_unquoted : ∀ d ∈ others, isUnquoted d = true := by
        intro d member
        by_cases point : c = '.'
        · rw [points (congrArg some point) d (List.mem_cons_of_mem c member)]
          rfl
        · refine unquoted d (List.mem_cons_of_mem c member) ?_
          exact (noSlashes (fun same => point (Option.some.inj same)) d member).1
      have goesOn' : others ++ behind = rest := goesOn
      rw [List.cons_append]
      by_cases slash : c = '/'
      · subst slash
        rw [← goesOn'] at noComment
        rw [texts_slash (noComment rfl).1 (noComment rfl).2, texts_unquoted behind others_unquoted]
      · have all : ∀ d ∈ c :: others, isUnquoted d = true :=
          List.forall_mem_cons.mpr ⟨unquoted c List.mem_cons_self slash, others_unquoted⟩
        exact texts_unquoted behind all

theorem text_of_readNumber {cur after : Cursor} {t : Token}
    (read : cur.readNumber = .ok (.token t, after)) : t.text? = none := by
  have number := Cursor.isNumber_of_readNumber read
  cases t with
  | string => cases number
  | _ => rfl

theorem text_wordToken (name : String) : (wordToken name).text? = none := by
  unfold wordToken
  split <;> rfl

theorem texts_readMark {cur after : Cursor} {first : Char} {rest : List Char} {t : Token}
    (text : cur.rest = first :: rest)
    (noComment : first = '/' → rest.head? ≠ some '/' ∧ rest.head? ≠ some '*')
    (read : cur.readMark first = .ok (.token t, after)) :
    texts (first :: rest) = t.text?.toList ++ texts after.rest := by
  unfold Cursor.readMark at read
  split at read
  · rename_i m length found
    cases read
    rw [text] at found
    rw [Cursor.skip_rest, text]
    exact texts_mark found noComment
  · cases read

theorem texts_step {bound : Nat} {cur after : Cursor} {first : Char} {rest : List Char} {t : Token}
    (text : cur.rest = first :: rest) (step : cur.step bound first = .ok (.token t, after)) :
    texts (first :: rest) = t.text?.toList ++ texts after.rest := by
  have number (read : cur.readNumber = .ok (.token t, after)) :
      texts (first :: rest) = t.text?.toList ++ texts after.rest := by
    rw [text_of_readNumber read, ← text, texts_number read]
    rfl
  have literal {p : Piece} (one : firstPiece rest.length first rest = (p, after.rest))
      (same : p.text? = t.text?) : texts (first :: rest) = t.text?.toList ++ texts after.rest := by
    rw [texts_cons, one, same]
  unfold Cursor.step at step
  split at step
  · cases step
  split at step
  · cases step
  split at step
  · exact number step
  split at step
  · rename_i quote
    subst quote
    obtain ⟨value, spelled, same, piece⟩ := interpretedPiece_agrees text step
    cases same
    refine literal (.trans ?_ piece) rfl
    simp [firstPiece, isSpace]
  split at step
  · rename_i quote
    subst quote
    obtain ⟨value, spelled, same, piece⟩ := rawPiece_agrees text step
    cases same
    refine literal (.trans ?_ piece) rfl
    simp [firstPiece, isSpace]
  split at step
  · rename_i quote
    subst quote
    obtain ⟨⟨c, same⟩, leaves⟩ := runePiece_agrees text step
    cases same
    have one : firstPiece rest.length '\'' rest = runePiece rest := by
      simp [firstPiece, isSpace]
    rw [← leaves]
    exact texts_piece (p := (runePiece rest).1) one rfl
  split at step
  · obtain ⟨same, rfl⟩ : cur.readName.1 = .token t ∧ cur.readName.2 = after :=
      ⟨congrArg Prod.fst (Except.ok.inj step), congrArg Prod.snd (Except.ok.inj step)⟩
    obtain rfl : wordToken (String.ofList (cur.rest.takeWhile Cursor.isNameChar)) = t :=
      Lexeme.token.inj same
    have left : cur.readName.2.rest = cur.rest.dropWhile Cursor.isNameChar :=
      Cursor.readWhile_rest cur Cursor.isNameChar
    have parts : first :: rest = cur.rest.takeWhile Cursor.isNameChar ++ cur.readName.2.rest := by
      rw [left, List.takeWhile_append_dropWhile, text]
    rw [text_wordToken, parts]
    exact texts_unquoted _ fun c member => isUnquoted_of_nameChar (List.mem_takeWhile_imp member)
  split at step
  · cases step
  · split at step
    · cases step
    · split at step <;> cases step
  · rename_i d tail point
    rw [text, List.cons.injEq] at point
    obtain ⟨rfl, rfl⟩ := point
    split at step
    · exact number step
    · exact texts_readMark text (by rintro ⟨⟩) step
  · rename_i noLine noBlock _
    refine texts_readMark text ?_ step
    rintro rfl
    refine ⟨fun is => ?_, fun is => ?_⟩
    · obtain ⟨tail, rfl⟩ := List.head?_eq_some_iff.mp is
      exact absurd text (noLine tail)
    · obtain ⟨tail, rfl⟩ := List.head?_eq_some_iff.mp is
      exact absurd text (noBlock tail)

/-- The texts among the tokens of a source are those that the scanner cuts off. -/
theorem texts_of_reads {mayEnd : Bool} {chars : List Char} {ts : List Token}
    (reads : Reads mayEnd chars ts) : texts chars = ts.filterMap Token.text? := by
  induction reads with
  | endOfText => rfl
  | endOfLastLine => rfl
  | token text step more ih =>
      rename_i t ts
      rw [texts_step text step, ih, List.filterMap_cons]
      cases t.text? <;> rfl
  | newline text step more ih =>
      rw [texts, tokens_noToken text step (.inl rfl)]
      exact ih
  | endOfLine text step more ih =>
      rw [texts, tokens_noToken text step (.inl rfl)]
      exact ih
  | blank text step more ih =>
      rw [texts, tokens_noToken text step (.inr rfl)]
      exact ih

/-- The lexer and the scanner find the same string literals, with the same values. -/
theorem texts_agree {source : String} {read : List Located}
    (accepted : tokenize source = .ok read) :
    (tokens source.toList).filterMap Piece.text? = read.filterMap fun t => t.token.text? := by
  have same := texts_of_reads (tokenize_reads accepted)
  rw [List.filterMap_map] at same
  exact same

/-- Quotes in a comment, in a rune and behind a backslash begin no text. -/
theorem texts_agree_quotes :
    ∃ read, tokenize "f(\"\\x41\", '\"', `\"`) // \"no\"" = .ok read ∧
      (tokens "f(\"\\x41\", '\"', `\"`) // \"no\"".toList).filterMap Piece.text? =
        read.filterMap fun t => t.token.text? := by
  have found : (tokenize "f(\"\\x41\", '\"', `\"`) // \"no\"").toOption.map
      (fun read => read.filterMap fun t => t.token.text?) = some ["A", "\""] := by
    decide +kernel
  cases accepted : tokenize "f(\"\\x41\", '\"', `\"`) // \"no\"" with
  | error e =>
      rw [accepted] at found
      cases found
  | ok read => exact ⟨read, rfl, texts_agree accepted⟩

end Submission

end SandboxedGo
