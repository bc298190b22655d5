import SandboxedGo.Proofs.Lexing
import SandboxedGo.Proofs.Literals
import SandboxedGo.Submission.Policy

/-!
# Tokens that the scanner shares with the lexer

Both cut a text independently.  Where the lexer reads a string, a word of the language, a name, a
parenthesis, a point or a semicolon, the scanner cuts off the pieces that `Shows` lists and goes on
with the same text; it skips the same white space and the same comments.
-/

set_option autoImplicit false

namespace SandboxedGo.Submission

open Source

/-! ## Blanks -/

/-- The first piece of a text counts unless it is a blank. -/
theorem tokens_cons (c : Char) (rest : List Char) :
    tokens (c :: rest) =
      if (firstPiece rest.length c rest).1.kind = .blank then
        tokens (firstPiece rest.length c rest).2
      else (firstPiece rest.length c rest).1 :: tokens (firstPiece rest.length c rest).2 := by
  unfold tokens
  rw [pieces_cons, List.filter_cons]
  split <;> simp_all

theorem tokens_space {c : Char} (space : isSpace c = true) (rest : List Char) :
    tokens (c :: rest) = tokens rest := by
  have first : firstPiece rest.length c rest = (⟨.blank, [c]⟩, rest) := by simp [firstPiece, space]
  rw [tokens_cons, first, if_pos rfl]

theorem isNameStart_slash : isNameStart '/' = false := isNameStart_basic (by decide)

theorem isNameStart_point : isNameStart '.' = false := isNameStart_basic (by decide)

theorem tokens_lineComment (tail : List Char) :
    tokens ('/' :: '/' :: tail) = tokens (('/' :: tail).dropWhile (· ≠ '\n')) := by
  have first : firstPiece ('/' :: tail).length '/' ('/' :: tail) =
      runPiece .blank '/' (· ≠ '\n') ('/' :: tail) := by
    simp [firstPiece, isSpace, isNameStart_slash, Char.isDigit]
  rw [tokens_cons, first]
  rfl

theorem readBlockComment_rest {count length : Nat} {chars : List Char}
    (closed : Cursor.commentLength? count chars = some length) (read : List Char) :
    (readBlockComment read chars).2 = chars.drop (length - count) := by
  fun_induction Cursor.commentLength? count chars generalizing read with
  | case1 count => cases closed
  | case2 count rest =>
      simp only [Option.some.injEq] at closed
      have two : length - count = 2 := by omega
      rw [two]
      rfl
  | case3 count c rest goesOn ih =>
      have long := Cursor.commentLength_ge closed
      have more : length - count = length - (count + 1) + 1 := by omega
      rw [more, List.drop_succ_cons, ← ih closed (c :: read), readBlockComment]
      exact goesOn

theorem tokens_blockComment {tail : List Char} {length : Nat}
    (closed : Cursor.commentLength? 2 tail = some length) :
    tokens ('/' :: '*' :: tail) = tokens (('/' :: '*' :: tail).drop length) := by
  have first : firstPiece ('*' :: tail).length '/' ('*' :: tail) = blockCommentPiece tail := by
    simp [firstPiece, isSpace, isNameStart_slash, Char.isDigit]
  have long := Cursor.commentLength_ge closed
  obtain ⟨length, rfl⟩ : ∃ n, length = n + 2 := ⟨length - 2, by omega⟩
  have behind : (blockCommentPiece tail).2 = tail.drop length := readBlockComment_rest closed _
  rw [tokens_cons, first, behind]
  rfl

theorem tokens_noToken {bound : Nat} {cur after : Cursor} {first : Char} {rest : List Char}
    {lexeme : Lexeme} (chars : cur.rest = first :: rest)
    (step : cur.step bound first = .ok (lexeme, after))
    (noToken : lexeme = .newline ∨ lexeme = .blank) :
    tokens (first :: rest) = tokens after.rest := by
  have isToken : ∀ t : Token, lexeme ≠ .token t := by
    rintro t rfl
    rcases noToken with no | no <;> cases no
  generalize at_ : after.rest = behind
  have reads := Cursor.step_reads chars step
  rw [at_] at reads
  cases reads with
  | newline line =>
      subst line
      exact tokens_space (by decide) _
  | space space =>
      rcases space with rfl | rfl | rfl <;> exact tokens_space (by decide) _
  | lineComment opening =>
      obtain ⟨rfl, rfl⟩ := opening
      exact tokens_lineComment _
  | blockComment opening closed =>
      obtain ⟨rfl, rfl⟩ := opening
      exact tokens_blockComment closed
  | string quote read =>
      subst quote
      obtain ⟨value, _, same, _⟩ := interpretedPiece_agrees chars read
      exact absurd same (isToken _)
  | rawString quote read =>
      subst quote
      obtain ⟨value, _, same, _⟩ := rawPiece_agrees chars read
      exact absurd same (isToken _)
  | int => exact absurd rfl (isToken _)
  | float => exact absurd rfl (isToken _)
  | rune => exact absurd rfl (isToken _)
  | name => exact absurd rfl (isToken _)
  | mark => exact absurd rfl (isToken _)

/-! ## Tokens -/

/-- The marks that the scanner knows, with their characters. -/
def sharedMarks : List (Char × Mark × PieceKind) :=
  [('(', .lParen, .lParen), (')', .rParen, .rParen), ('.', .dot, .dot), (';', .semi, .other)]

/-- The pieces that the scanner cuts off where the lexer reads a token.  A semicolon may stand for
the end of a line, of which the scanner sees nothing. -/
inductive Shows : Token → List Piece → Prop
  | string (value : String) (spelled : List Char) :
      Shows (.string value) [⟨.text value, spelled⟩]
  | keyword (k : Keyword) : Shows (.keyword k) [⟨.name, k.spelling.toList⟩]
  | name {word : String} (all : ∀ c ∈ word.toList, Cursor.isNameChar c = true) :
      Shows (.name word) (pieces word.toList)
  | mark {c : Char} {m : Mark} {kind : PieceKind} (listed : (c, m, kind) ∈ sharedMarks) :
      Shows (.mark m) [⟨kind, [c]⟩]
  | endOfLine : Shows (.mark .semi) []

theorem listed_once : ∀ entry ∈ sharedMarks, ∀ other ∈ sharedMarks,
    entry.2.1 = other.2.1 → entry = other := by
  decide

/-- A mark is one piece, unless it is a semicolon that stands for the end of a line. -/
theorem shows_mark {c : Char} {m : Mark} {kind : PieceKind} {ps : List Piece}
    (listed : (c, m, kind) ∈ sharedMarks) (shows_ : Shows (.mark m) ps) :
    ps = [⟨kind, [c]⟩] ∨ m = .semi ∧ ps = [] := by
  cases shows_ with
  | mark listed' =>
      cases listed_once _ listed _ listed' rfl
      exact .inl rfl
  | endOfLine => exact .inr ⟨rfl, rfl⟩

/-- The tokens of which it is known what the scanner sees. -/
def isShared : Token → Bool
  | .string _ | .keyword _ | .name _ => true
  | .mark .lParen | .mark .rParen | .mark .dot | .mark .semi => true
  | _ => false

/-- The tokens that may begin with a point.  Behind a name the scanner may take the point for a part
of a number. -/
def mayBeginWithPoint : Token → Bool
  | .mark .dot | .mark .ellipsis | .int _ | .float _ => true
  | _ => false

theorem spelled_keyword : ∀ entry ∈ Keyword.spellings,
    entry.2.spelling = entry.1 ∧ isIdentifier entry.1 = true := by
  decide +kernel

theorem keyword_ofWord {word : String} {k : Keyword} (found : Keyword.ofWord? word = some k) :
    word = k.spelling ∧ isIdentifier word = true := by
  obtain ⟨before, behind, listed, _⟩ := List.lookup_eq_some_iff.mp found
  have spelled := spelled_keyword (word, k) (by simp [listed])
  exact ⟨spelled.1.symm, spelled.2⟩

/-- A word of the language or a name. -/
def wordToken (word : String) : Token :=
  match Keyword.ofWord? word with
  | some k => .keyword k
  | none => .name word

theorem wordToken_of_some {word : String} {k : Keyword} (found : Keyword.ofWord? word = some k) :
    wordToken word = .keyword k := by
  rw [wordToken, found]

theorem wordToken_of_none {word : String} (none : Keyword.ofWord? word = none) :
    wordToken word = .name word := by
  rw [wordToken, none]

theorem readName_token (cur : Cursor) : cur.readName.1 =
    .token (wordToken (String.ofList (cur.rest.takeWhile Cursor.isNameChar))) := rfl

/-- A word of the language is one piece; a name may be several. -/
theorem tokens_name {cur : Cursor} {first : Char} {rest : List Char} {t : Token}
    (chars : cur.rest = first :: rest) (read : cur.readName.1 = .token t)
    (noPoint : ∀ word, t = .name word →
      ((first :: rest).dropWhile Cursor.isNameChar).head? ≠ some '.') :
    ∃ ps, Shows t ps ∧
      tokens (first :: rest) = ps ++ tokens ((first :: rest).dropWhile Cursor.isNameChar) := by
  let word := String.ofList ((first :: rest).takeWhile Cursor.isNameChar)
  have whole : first :: rest = word.toList ++ (first :: rest).dropWhile Cursor.isNameChar := by
    rw [String.toList_ofList, List.takeWhile_append_dropWhile]
  have all : ∀ c ∈ word.toList, Cursor.isNameChar c = true := by
    intro c member
    rw [String.toList_ofList] at member
    exact List.mem_takeWhile_imp member
  have stops := stops_dropWhile Cursor.isNameChar (first :: rest)
  have isToken : Lexeme.token (wordToken word) = .token t := by
    rw [readName_token, chars] at read
    exact read
  cases found : Keyword.ofWord? word with
  | some k =>
      rw [wordToken_of_some found] at isToken
      cases isToken
      obtain ⟨spelled, identifier⟩ := keyword_ofWord found
      refine ⟨_, .keyword k, ?_⟩
      conv => lhs; rw [whole]
      unfold tokens
      rw [pieces_identifier identifier stops.narrower, ← spelled]
      rfl
  | none =>
      rw [wordToken_of_none found] at isToken
      cases isToken
      refine ⟨_, .name all, ?_⟩
      conv => lhs; rw [whole]
      unfold tokens
      rw [pieces_append_name stops (noPoint word rfl) _ _ (Nat.le_refl _) all, List.filter_append]
      refine congrArg (· ++ _) (List.filter_eq_self.mpr ?_)
      intro p member
      rcases kind_of_name_piece _ _ (Nat.le_refl _) all p member with kind | kind <;> simp [kind]

theorem spelled_mark : ∀ entry ∈ Mark.spellings, ∀ shared ∈ sharedMarks,
    entry.2.1 = shared.2.1 → entry.1 = [shared.1] := by
  decide

theorem listed_of_isShared {m : Mark} (shared : isShared (.mark m) = true) :
    ∃ c kind, (c, m, kind) ∈ sharedMarks := by
  revert shared
  cases m <;> simp [isShared, sharedMarks]

theorem atStart_shared {first : Char} {rest : List Char} {c : Char} {m : Mark} {length : Nat}
    {kind : PieceKind} (found : Mark.atStart? (first :: rest) = some (m, length))
    (listed : (c, m, kind) ∈ sharedMarks) : first = c ∧ length = 1 := by
  obtain ⟨spelling, label, inTable, begins, rfl⟩ := Cursor.atStart_some found
  have spelled : spelling = [c] := spelled_mark _ inTable _ listed rfl
  rw [spelled] at begins ⊢
  obtain ⟨behind, same⟩ := begins
  simp only [List.singleton_append, List.cons.injEq] at same
  exact ⟨same.1.symm, rfl⟩

theorem firstPiece_mark {c : Char} {m : Mark} {kind : PieceKind}
    (listed : (c, m, kind) ∈ sharedMarks) (bound : Nat) {rest : List Char}
    (noNumber : c = '.' → ∀ d, rest.head? = some d → d.isDigit = false) :
    firstPiece bound c rest = (⟨kind, [c]⟩, rest) := by
  have semi : isNameStart ';' = false := isNameStart_basic (by decide)
  simp only [sharedMarks, List.mem_cons, Prod.mk.injEq, List.not_mem_nil, or_false] at listed
  rcases listed with ⟨rfl, rfl, rfl⟩ | ⟨rfl, rfl, rfl⟩ | ⟨rfl, rfl, rfl⟩ | ⟨rfl, rfl, rfl⟩
  · simp [firstPiece, isSpace]
  · simp [firstPiece, isSpace]
  · cases rest with
    | nil => simp [firstPiece, isSpace, isNameStart_point, Char.isDigit]
    | cons d rest =>
        have no := noNumber rfl d rfl
        have noDigit : ('.' : Char).isDigit = false := by decide
        simp [firstPiece, isSpace, isNameStart_point, noDigit, no]
  · simp [firstPiece, isSpace, semi, Char.isDigit]

theorem tokens_mark {first : Char} {rest : List Char} {c : Char} {m : Mark} {length : Nat}
    {kind : PieceKind} (found : Mark.atStart? (first :: rest) = some (m, length))
    (listed : (c, m, kind) ∈ sharedMarks)
    (noNumber : first = '.' → ∀ d, rest.head? = some d → d.isDigit = false) :
    tokens (first :: rest) = [⟨kind, [c]⟩] ++ tokens ((first :: rest).drop length) := by
  obtain ⟨rfl, rfl⟩ := atStart_shared found listed
  have seen : kind ≠ .blank := by
    rintro rfl
    revert listed
    simp [sharedMarks]
  rw [tokens_cons, firstPiece_mark listed rest.length noNumber, if_neg seen]
  rfl

/-- The scanner cuts off what `Shows` tells where the lexer reads a token. -/
theorem step_shows {bound : Nat} {cur after : Cursor} {first : Char} {rest : List Char} {t : Token}
    (chars : cur.rest = first :: rest) (step : cur.step bound first = .ok (.token t, after))
    (shared : isShared t = true) (noPoint : ∀ word, t = .name word → after.rest.head? ≠ some '.') :
    ∃ ps, Shows t ps ∧ tokens (first :: rest) = ps ++ tokens after.rest := by
  -- The lexeme is set apart so that the cases are what the lexer has read.
  generalize lexed : Lexeme.token t = lexeme at step
  have reads := Cursor.step_reads chars step
  generalize after.rest = behind at reads noPoint
  cases reads with
  | newline => cases lexed
  | space => cases lexed
  | lineComment => cases lexed
  | blockComment _ _ noToken =>
      rcases noToken with rfl | rfl <;> cases lexed
  | int =>
      cases lexed
      cases shared
  | float =>
      cases lexed
      cases shared
  | rune =>
      cases lexed
      cases shared
  | string quote read =>
      subst quote
      obtain ⟨value, spelled, rfl, piece⟩ := interpretedPiece_agrees chars read
      cases lexed
      refine ⟨_, .string value spelled, ?_⟩
      have one : firstPiece rest.length '"' rest = interpretedPiece rest.length rest := by
        simp [firstPiece, isSpace]
      rw [tokens_cons, one, piece, if_neg (by simp)]
      rfl
  | rawString quote read =>
      subst quote
      obtain ⟨value, spelled, rfl, piece⟩ := rawPiece_agrees chars read
      cases lexed
      refine ⟨_, .string value spelled, ?_⟩
      have one : firstPiece rest.length '\x60' rest = rawPiece rest := by
        simp [firstPiece, isSpace]
      rw [tokens_cons, one, piece, if_neg (by simp)]
      rfl
  | name start => exact tokens_name chars lexed.symm noPoint
  | mark found noNumber =>
      cases lexed
      obtain ⟨c, kind, listed⟩ := listed_of_isShared shared
      exact ⟨_, .mark listed, tokens_mark found listed noNumber⟩

/-! ## Texts -/

theorem reads_point {mayEnd : Bool} {rest : List Char} {t : Token} {ts : List Token}
    (reads : Reads mayEnd ('.' :: rest) (t :: ts)) : mayBeginWithPoint t = true := by
  have noToken {bound : Nat} {cur after : Cursor} {lexeme : Lexeme}
      (chars : cur.rest = '.' :: rest) (step : cur.step bound '.' = .ok (lexeme, after)) :
      ∃ t, lexeme = .token t ∧ mayBeginWithPoint t = true := by
    have read := Cursor.step_reads chars step
    generalize after.rest = behind at read
    cases read with
    | newline line => cases line
    | space space => simp at space
    | int => exact ⟨_, rfl, rfl⟩
    | float => exact ⟨_, rfl, rfl⟩
    | rune _ quote => cases quote
    | string quote => cases quote
    | rawString quote => cases quote
    | name start => cases start
    | lineComment opening => cases opening.1
    | blockComment opening => cases opening.1
    | mark found =>
        refine ⟨_, rfl, ?_⟩
        obtain ⟨spelling, label, listed, begins, _⟩ := Cursor.atStart_some found
        obtain ⟨behind, same⟩ := begins
        have pointed : ∀ entry ∈ Mark.spellings, entry.1.head? = some '.' →
            mayBeginWithPoint (.mark entry.2.1) = true := by
          decide
        refine pointed _ listed ?_
        cases spelling with
        | nil => exact absurd rfl (Cursor.spelling_ne_nil _ listed)
        | cons c spelling =>
            simp only [List.cons_append, List.cons.injEq] at same
            rw [same.1]
            rfl
  cases reads with
  | token chars step more =>
      obtain ⟨t', same, pointed⟩ := noToken chars step
      cases same
      exact pointed
  | newline chars step more =>
      obtain ⟨_, same, _⟩ := noToken chars step
      cases same
  | endOfLine chars step more =>
      obtain ⟨_, same, _⟩ := noToken chars step
      cases same
  | blank chars step more =>
      obtain ⟨_, same, _⟩ := noToken chars step
      cases same

/-- What the scanner sees of the first token of a text.  Behind a name no token may begin with a
point. -/
theorem reads_shows {mayEnd : Bool} {chars : List Char} {t : Token} {ts : List Token}
    (reads : Reads mayEnd chars (t :: ts)) (shared : isShared t = true)
    (next : ∀ word, t = .name word → ∃ t' ts', ts = t' :: ts' ∧ mayBeginWithPoint t' = false) :
    ∃ ps mayEnd' behind, Shows t ps ∧ tokens chars = ps ++ tokens behind ∧
      Reads mayEnd' behind ts := by
  generalize all : t :: ts = read at reads
  induction reads with
  | endOfText =>
      cases all
      cases shared
  | endOfLastLine =>
      cases all
      exact ⟨[], _, [], .endOfLine, rfl, .endOfText⟩
  | @token mayEnd bound cur after first rest _ _ chars step more _ =>
      cases all
      -- A point behind a name would begin the next token.
      have noPoint : ∀ word, t = .name word → after.rest.head? ≠ some '.' := by
        intro word isName point
        obtain ⟨t', ts', rfl, noPoint⟩ := next word isName
        cases behind : after.rest with
        | nil =>
            rw [behind] at point
            cases point
        | cons c rest =>
            rw [behind] at point more
            cases point
            rw [reads_point more] at noPoint
            cases noPoint
      obtain ⟨ps, shows_, same⟩ := step_shows chars step shared noPoint
      exact ⟨ps, _, after.rest, shows_, same, more⟩
  | newline chars step more ih =>
      rw [tokens_noToken chars step (.inl rfl)]
      exact ih all
  | endOfLine chars step more =>
      cases all
      exact ⟨[], _, _, .endOfLine, tokens_noToken chars step (.inl rfl), more⟩
  | blank chars step more ih =>
      rw [tokens_noToken chars step (.inr rfl)]
      exact ih all

end SandboxedGo.Submission
