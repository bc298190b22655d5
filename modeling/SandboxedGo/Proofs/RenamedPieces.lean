import SandboxedGo.Proofs.Gaps

/-!
# The pieces of a renamed text

The scanner looks at most one character beyond a piece, and only to see whether a run goes on, or
whether a slash or a point begins something longer.  None of this depends on which name stands
there.  So a piece is cut as before when a name behind it is replaced by another, whatever the text
is: a literal or a comment that is not closed reaches the end of the text or of its line, and no
name follows it.  Main statement: `renameIdentifier_tokens`.
-/

set_option autoImplicit false

namespace SandboxedGo.Submission

/-! ## What is looked at behind a piece -/

/-- Texts that begin with the same character, or both with a name. -/
inductive BeginAlike : List Char → List Char → Prop
  | nil : BeginAlike [] []
  | same (c : Char) (rest rest' : List Char) : BeginAlike (c :: rest) (c :: rest')
  | names {c d : Char} (rest rest' : List Char) (one : isNameStart c = true)
      (other : isNameStart d = true) : BeginAlike (c :: rest) (d :: rest')

namespace BeginAlike

variable {rest rest' : List Char}

theorem nil_left (alike : BeginAlike [] rest) : rest = [] := by
  cases alike
  rfl

theorem stops {p : Char → Bool} (alike : BeginAlike rest rest')
    (names : ∀ c, isNameStart c = true → p c = true) (stops : Stops p rest) : Stops p rest' := by
  cases alike with
  | nil => exact stops
  | same c rest rest' =>
      intro d first
      exact stops d first
  | names rest rest' one other =>
      have ends := stops _ rfl
      rw [names _ one] at ends
      cases ends

/-- What no beginning of a name satisfies, both first characters satisfy or none. -/
theorem head_any {p : Char → Bool} (alike : BeginAlike rest rest')
    (noName : ∀ c, isNameStart c = true → p c = false) : rest.head?.any p = rest'.head?.any p := by
  cases alike with
  | nil => rfl
  | same c rest rest' => rfl
  | names rest rest' one other =>
      simp only [List.head?_cons, Option.any_some, noName _ one, noName _ other]

/-- A character that begins no name stands at the beginning of both or of none. -/
theorem head_iff {c : Char} (alike : BeginAlike rest rest') (noName : isNameStart c = false) :
    rest.head? = some c ↔ rest'.head? = some c := by
  have isAny (o : Option Char) : o = some c ↔ o.any (· == c) = true := by cases o <;> simp
  rw [isAny, isAny, alike.head_any]
  intro d start
  refine beq_eq_false_iff_ne.mpr ?_
  rintro rfl
  rw [noName] at start
  cases start

/-- The beginnings of two texts are alike if what follows them is, or if there is one. -/
theorem append (alike : BeginAlike rest rest') (taken : List Char) :
    BeginAlike (taken ++ rest) (taken ++ rest') := by
  cases taken with
  | nil => exact alike
  | cons c taken => exact .same c _ _

end BeginAlike

/-- What a reader reads is the same whatever follows, as long as that begins alike. -/
def Local {α : Type} (read : List Char → α × List Char) : Prop :=
  ∀ chars behind : List Char, BeginAlike (read chars).2 behind →
    ∃ taken, chars = taken ++ (read chars).2 ∧ read (taken ++ behind) = ((read chars).1, behind)

theorem local_nothing {α : Type} (a : α) : Local fun chars => (a, chars) :=
  fun _ _ _ => ⟨[], rfl, rfl⟩

theorem local_ite {α : Type} {p : Prop} [Decidable p] {one other : List Char → α × List Char}
    (whenTrue : p → Local one) (whenFalse : ¬ p → Local other) :
    Local fun chars => if p then one chars else other chars := by
  split
  · exact whenTrue ‹p›
  · exact whenFalse ‹¬ p›

/-! ## Runs, comments and quotes -/

theorem local_runPiece (kind : PieceKind) (first : Char) {p : Char → Bool}
    (names : ∀ c, isNameStart c = true → p c = true) : Local (runPiece kind first p) := by
  intro chars behind alike
  have stops : Stops p behind := alike.stops names (stops_dropWhile p chars)
  have all : ∀ c ∈ chars.takeWhile p, p c = true := fun c member => List.mem_takeWhile_imp member
  refine ⟨chars.takeWhile p, List.takeWhile_append_dropWhile.symm, ?_⟩
  simp only [runPiece, takeWhile_append_stops stops, dropWhile_append_stops stops,
    List.takeWhile_eq_self_iff.mpr all, List.dropWhile_eq_nil_iff.mpr all, List.nil_append]

theorem local_readBlockComment (read : List Char) : Local (readBlockComment read) := by
  intro chars
  fun_induction readBlockComment read chars with
  | case1 read =>
      intro behind alike
      exact ⟨[], rfl, by rw [alike.nil_left]; rfl⟩
  | case2 read rest =>
      intro behind _
      exact ⟨['*', '/'], rfl, rfl⟩
  | case3 read c rest noEnd ih =>
      intro behind alike
      obtain ⟨taken, text, again⟩ := ih behind alike
      have slash := (alike.append taken).head_iff isNameStart_slash
      rw [← text] at slash
      -- The comment ends here only if it ended here before.
      have goesOn : ∀ more, c = '*' → taken ++ behind = '/' :: more → False := by
        intro more star ending
        rw [ending, List.head?_cons, List.head?_eq_some_iff] at slash
        obtain ⟨more, ended⟩ := slash.mpr rfl
        exact noEnd more star ended
      refine ⟨c :: taken, by rw [List.cons_append, ← text], ?_⟩
      rw [List.cons_append, readBlockComment, again]
      exact goesOn

theorem local_blockCommentPiece : Local blockCommentPiece := by
  intro chars behind alike
  obtain ⟨taken, text, again⟩ := local_readBlockComment _ _ _ alike
  exact ⟨taken, text, by rw [blockCommentPiece, again]; rfl⟩

theorem local_readRune (read : List Char) : Local (readRune read) := by
  intro chars
  fun_induction readRune read chars with
  | case1 read =>
      intro behind alike
      exact ⟨[], rfl, by rw [alike.nil_left]; rfl⟩
  | case2 read =>
      intro behind alike
      exact ⟨['\\'], rfl, by rw [alike.nil_left]; rfl⟩
  | case3 read c rest ih =>
      intro behind alike
      obtain ⟨taken, text, again⟩ := ih behind alike
      refine ⟨'\\' :: c :: taken, by rw [List.cons_append, List.cons_append, ← text], ?_⟩
      rw [List.cons_append, List.cons_append, readRune, again]
  | case4 read rest _ _ =>
      intro behind _
      exact ⟨['\''], rfl, rfl⟩
  | case5 read rest _ _ _ =>
      intro behind alike
      obtain ⟨more, rfl⟩ :=
        List.head?_eq_some_iff.mp ((alike.head_iff (isNameStart_basic (by decide))).mp rfl)
      exact ⟨[], rfl, rfl⟩
  | case6 read c rest noEscape noEscapes noQuote noLine ih =>
      intro behind alike
      obtain ⟨taken, text, again⟩ := ih behind alike
      have plain : c ≠ '\\' := by
        rintro rfl
        cases rest with
        | nil => exact noEscape rfl rfl
        | cons d rest => exact noEscapes d rest rfl rfl
      refine ⟨c :: taken, by rw [List.cons_append, ← text], ?_⟩
      rw [List.cons_append, readRune, if_neg noQuote, if_neg noLine, again]
      · exact fun escape _ => plain escape
      · exact fun _ _ escape _ => plain escape

theorem local_runePiece : Local runePiece := by
  intro chars behind alike
  obtain ⟨taken, text, again⟩ := local_readRune _ _ _ alike
  exact ⟨taken, text, by rw [runePiece, again]; rfl⟩

theorem local_rawPiece : Local rawPiece := by
  intro chars behind alike
  have parts := List.takeWhile_append_dropWhile (p := (· ≠ '\x60')) (l := chars)
  have all : ∀ c ∈ chars.takeWhile (· ≠ '\x60'), decide (c ≠ '\x60') = true := by
    intro c member
    exact List.mem_takeWhile_imp (p := (· ≠ '\x60')) member
  have stops := stops_dropWhile (· ≠ '\x60') chars
  unfold rawPiece at alike ⊢
  cases ending : chars.dropWhile (· ≠ '\x60') with
  | nil =>
      rw [ending] at alike parts
      rw [alike.nil_left]
      refine ⟨chars, by simp, ?_⟩
      simp only [List.append_nil, ending]
  | cons quote after =>
      rw [ending] at stops parts
      have isQuote : quote = '\x60' := by simpa using stops quote rfl
      subst isQuote
      refine ⟨chars.takeWhile (· ≠ '\x60') ++ ['\x60'], by simpa using parts.symm, ?_⟩
      have again : Stops (· ≠ '\x60') ('\x60' :: behind) := by
        rintro c ⟨⟩
        rfl
      simp only [List.append_assoc, List.singleton_append, takeWhile_append_stops again,
        dropWhile_append_stops again, List.takeWhile_eq_self_iff.mpr all,
        List.dropWhile_eq_nil_iff.mpr all, List.nil_append]

/-! ## Literals between double quotes -/

theorem cutBytes_zero (chars : List Char) : cutBytes 0 chars = ⟨[], [], chars⟩ := by
  rw [cutBytes]

theorem cutBytes_fits {width : Nat} {c : Char} (fits : c.utf8Size ≤ width + 1) (rest : List Char) :
    cutBytes (width + 1) (c :: rest) =
      ⟨c :: (cutBytes (width + 1 - c.utf8Size) rest).covered,
        (cutBytes (width + 1 - c.utf8Size) rest).spill,
        (cutBytes (width + 1 - c.utf8Size) rest).rest⟩ := by
  rw [cutBytes, if_pos fits]

theorem cutBytes_splits {width : Nat} {c : Char} (splits : ¬ c.utf8Size ≤ width + 1)
    (rest : List Char) :
    cutBytes (width + 1) (c :: rest) =
      ⟨[c], (String.utf8EncodeChar c).drop (width + 1), rest⟩ := by
  rw [cutBytes, if_neg splits]

/-- What a cut covers is the same whatever follows it, if anything does. -/
theorem cutBytes_append (width : Nat) (chars : List Char) {behind : List Char}
    (ends : (cutBytes width chars).rest = [] → behind = []) :
    cutBytes width ((cutBytes width chars).covered ++ behind) =
      ⟨(cutBytes width chars).covered, (cutBytes width chars).spill, behind⟩ := by
  induction chars generalizing width with
  | nil =>
      cases width with
      | zero => simp only [cutBytes_zero, List.nil_append]
      | succ width =>
          rw [ends rfl]
          rfl
  | cons c rest ih =>
      cases width with
      | zero => simp only [cutBytes_zero, List.nil_append]
      | succ width =>
          by_cases fits : c.utf8Size ≤ width + 1
          · rw [cutBytes_fits fits] at ends ⊢
            rw [List.cons_append, cutBytes_fits fits, ih _ ends]
          · rw [cutBytes_splits fits] at ends ⊢
            rw [List.cons_append, List.nil_append, cutBytes_splits fits]

/-- A literal with another text behind what was read. -/
def Literal.before (l : Literal) (behind : List Char) : Literal := { l with rest := behind }

theorem numericEscape_before (l : Literal) (base width : Nat) (bytes : Nat → List UInt8)
    {behind : List Char} (ends : (numericEscape l base width bytes).rest = [] → behind = []) :
    numericEscape (l.before ((cutBytes width l.rest).covered ++ behind)) base width bytes =
      (numericEscape l base width bytes).before behind := by
  unfold numericEscape Literal.before
  simp only [cutBytes_append width l.rest ends]
  rfl

/-- The letter behind the backslash decides how the escape is read: alone, or with the number behind
it, or as the first digit of a number. -/
theorem readEscape_cases (c : Char) :
    (∃ value, ∀ read bytes more, readEscape ⟨read, bytes, c :: more⟩ =
      Literal.push ⟨read, bytes, c :: more⟩ c value more) ∨
    (∃ base width value, ∀ read bytes more, readEscape ⟨read, bytes, c :: more⟩ =
      numericEscape (Literal.push ⟨read, bytes, c :: more⟩ c [] more) base width value) ∨
    (c.utf8Size = 1 ∧ ∀ read bytes more, readEscape ⟨read, bytes, c :: more⟩ =
      numericEscape ⟨read, bytes, c :: more⟩ 8 3 oneByte) := by
  cases simple : escapedByte? c with
  | some byte => exact .inl ⟨[byte], fun _ _ _ => by simp only [readEscape, simple]⟩
  | none =>
      by_cases octal : ('0' ≤ c && c ≤ '7') = true
      · refine .inr (.inr ⟨?_, fun _ _ _ => by simp only [readEscape, simple, if_pos octal]⟩)
        rw [Bool.and_eq_true, decide_eq_true_eq, decide_eq_true_eq] at octal
        have least : c.val ≤ 0x37 := octal.2
        exact if_pos (UInt32.le_trans least (by decide))
      · by_cases x : c = 'x'
        · subst x
          exact .inr (.inl ⟨16, 2, oneByte, fun _ _ _ => rfl⟩)
        · by_cases u : c = 'u'
          · subst u
            exact .inr (.inl ⟨16, 4, codeBytes, fun _ _ _ => rfl⟩)
          · by_cases U : c = 'U'
            · subst U
              exact .inr (.inl ⟨16, 8, codeBytes, fun _ _ _ => rfl⟩)
            · refine .inl ⟨String.utf8EncodeChar c, fun _ _ _ => ?_⟩
              simp only [readEscape, simple, if_neg octal, if_neg x, if_neg u, if_neg U]

/-- An escape is read as before, whatever follows its characters, if anything does. -/
theorem readEscape_before (l : Literal) {behind : List Char}
    (ends : (readEscape l).rest = [] → behind = []) :
    ∃ taken, l.rest = taken ++ (readEscape l).rest ∧
      readEscape (l.before (taken ++ behind)) = (readEscape l).before behind := by
  obtain ⟨read, bytes, chars⟩ := l
  cases chars with
  | nil =>
      rw [ends rfl]
      exact ⟨[], rfl, rfl⟩
  | cons c rest =>
      rcases readEscape_cases c with ⟨value, is⟩ | ⟨base, width, value, is⟩ | ⟨single, is⟩
      · rw [is]
        exact ⟨[c], rfl, is read bytes behind⟩
      · rw [is] at ends ⊢
        refine ⟨c :: (cutBytes width rest).covered, ?_, ?_⟩
        · exact congrArg (c :: ·) (covered_cutBytes width rest).symm
        · rw [← numericEscape_before _ base width value ends]
          exact is _ _ _
      · rw [is] at ends ⊢
        refine ⟨(cutBytes 3 (c :: rest)).covered, (covered_cutBytes 3 (c :: rest)).symm, ?_⟩
        rw [← numericEscape_before _ 8 3 oneByte ends, cutBytes_fits (by omega)]
        exact is _ _ _

/-- A literal read to its end. -/
def Literal.toEnd (l : Literal) : Literal := readInterpreted l.rest.length l

section

variable (read : List Char) (bytes : List UInt8) (rest : List Char)

theorem toEnd_nil : Literal.toEnd ⟨read, bytes, []⟩ = ⟨read, bytes, []⟩ := rfl

theorem toEnd_newline :
    Literal.toEnd ⟨read, bytes, '\n' :: rest⟩ = ⟨read, bytes, '\n' :: rest⟩ := rfl

theorem toEnd_escape :
    Literal.toEnd ⟨read, bytes, '\\' :: rest⟩ =
      (readEscape (Literal.push ⟨read, bytes, '\\' :: rest⟩ '\\' [] rest)).toEnd :=
  readInterpreted_steps _ (readEscape (Literal.push ⟨read, bytes, '\\' :: rest⟩ '\\' [] rest))
    (length_readEscape _)

theorem toEnd_plain {c : Char} (noQuote : c ≠ '"') (noLine : c ≠ '\n') (noEscape : c ≠ '\\') :
    Literal.toEnd ⟨read, bytes, c :: rest⟩ =
      (Literal.push ⟨read, bytes, c :: rest⟩ c (String.utf8EncodeChar c) rest).toEnd := by
  simp only [Literal.toEnd, List.length_cons, readInterpreted, if_neg noQuote, if_neg noLine,
    if_neg noEscape]
  rfl

end

/-- Behind its opening quote a literal is read as before, whatever follows it, as long as that
begins alike. -/
theorem toEnd_before : ∀ (n : Nat) (l : Literal) {behind : List Char},
    l.rest.length ≤ n → BeginAlike l.toEnd.rest behind →
      ∃ taken, l.rest = taken ++ l.toEnd.rest ∧
        (l.before (taken ++ behind)).toEnd = l.toEnd.before behind := by
  intro n
  induction n using Nat.strongRecOn with
  | ind n ih =>
      intro l behind enough alike
      obtain ⟨read, bytes, chars⟩ := l
      cases chars with
      | nil =>
          rw [toEnd_nil] at alike ⊢
          rw [alike.nil_left]
          exact ⟨[], rfl, rfl⟩
      | cons c rest =>
          have shorter : rest.length < n := enough
          by_cases quote : c = '"'
          · subst quote
            exact ⟨['"'], rfl, rfl⟩
          by_cases line : c = '\n'
          · subst line
            rw [toEnd_newline] at alike ⊢
            obtain ⟨more, rfl⟩ :=
              List.head?_eq_some_iff.mp ((alike.head_iff (isNameStart_basic (by decide))).mp rfl)
            exact ⟨[], rfl, rfl⟩
          by_cases escape : c = '\\'
          · subst escape
            have left := length_readEscape (Literal.push ⟨read, bytes, '\\' :: rest⟩ '\\' [] rest)
            rw [toEnd_escape] at alike ⊢
            obtain ⟨taken, text, again⟩ := ih _ shorter _ left alike
            have ends : (readEscape (Literal.push ⟨read, bytes, '\\' :: rest⟩ '\\' [] rest)).rest =
                [] → taken ++ behind = [] := by
              intro ended
              rw [ended] at text
              obtain ⟨nothing, all⟩ := List.append_eq_nil_iff.mp text.symm
              rw [all] at alike
              rw [nothing, alike.nil_left]
              rfl
            obtain ⟨letters, escaped, same⟩ := readEscape_before _ ends
            refine ⟨'\\' :: (letters ++ taken), ?_, ?_⟩
            · rw [List.cons_append, List.append_assoc, ← text, ← escaped]
              rfl
            · rw [List.cons_append, List.append_assoc]
              refine (toEnd_escape read bytes _).trans ?_
              rw [← again, ← same]
              rfl
          · rw [toEnd_plain read bytes rest quote line escape] at alike ⊢
            obtain ⟨taken, text, again⟩ := ih _ shorter _ (Nat.le_refl _) alike
            refine ⟨c :: taken, congrArg (c :: ·) text, ?_⟩
            rw [List.cons_append, ← again]
            exact toEnd_plain read bytes _ quote line escape

theorem local_interpretedPiece : Local fun chars => interpretedPiece chars.length chars := by
  intro chars behind alike
  obtain ⟨taken, text, again⟩ := toEnd_before _ ⟨['"'], [], chars⟩ (Nat.le_refl _) alike
  refine ⟨taken, text, ?_⟩
  have read : Literal.toEnd ⟨['"'], [], taken ++ behind⟩ =
      (Literal.toEnd ⟨['"'], [], chars⟩).before behind := again
  unfold interpretedPiece
  exact congrArg (fun l : Literal => ((⟨.text l.value, l.read.reverse⟩ : Piece), l.rest)) read

/-! ## Pieces -/

section

variable (bound : Nat) {rest : List Char}

theorem firstPiece_lineComment (begins : rest.head? = some '/') :
    firstPiece bound '/' rest = runPiece .blank '/' (· ≠ '\n') rest := by
  obtain ⟨more, rfl⟩ := List.head?_eq_some_iff.mp begins
  simp [firstPiece, isSpace, isNameStart_slash]

theorem firstPiece_blockComment (more : List Char) :
    firstPiece bound '/' ('*' :: more) = blockCommentPiece more := by
  simp [firstPiece, isSpace, isNameStart_slash]

theorem firstPiece_slash (noLine : rest.head? ≠ some '/') (noBlock : rest.head? ≠ some '*') :
    firstPiece bound '/' rest = (⟨.other, ['/']⟩, rest) := by
  cases rest with
  | nil => simp [firstPiece, isSpace, isNameStart_slash]
  | cons d rest =>
      simp only [List.head?_cons, ne_eq, Option.some.injEq] at noLine noBlock
      simp [firstPiece, isSpace, isNameStart_slash, noLine, noBlock]

theorem firstPiece_fraction (begins : rest.head?.any Char.isDigit = true) :
    firstPiece bound '.' rest = runPiece .other '.' isNumberChar rest := by
  cases rest with
  | nil => cases begins
  | cons d rest =>
      simp only [List.head?_cons, Option.any_some] at begins
      simp [firstPiece, isSpace, isNameStart_point, begins]

theorem firstPiece_point (noDigit : rest.head?.any Char.isDigit = false) :
    firstPiece bound '.' rest = (⟨.dot, ['.']⟩, rest) := by
  cases rest with
  | nil => simp [firstPiece, isSpace, isNameStart_point]
  | cons d rest =>
      simp only [List.head?_cons, Option.any_some] at noDigit
      simp [firstPiece, isSpace, isNameStart_point, noDigit]

end

theorem nameStart_numberChar {c : Char} (start : isNameStart c = true) : isNumberChar c = true := by
  simp only [isNumberChar, isNameStart_isNameChar start, Bool.true_or]

theorem nameStart_sameLine {c : Char} (start : isNameStart c = true) :
    decide (c ≠ '\n') = true := by
  rw [decide_eq_true_eq]
  rintro rfl
  cases (isNameStart_basic (by decide)).symm.trans start

theorem local_slash : Local fun rest => firstPiece rest.length '/' rest := by
  intro rest behind alike
  dsimp only at alike ⊢
  by_cases line : rest.head? = some '/'
  · rw [firstPiece_lineComment _ line] at alike ⊢
    obtain ⟨taken, text, again⟩ :=
      local_runPiece _ _ (fun _ => nameStart_sameLine) rest behind alike
    have begins := (alike.append taken).head_iff isNameStart_slash
    rw [← text] at begins
    exact ⟨taken, text, by rw [firstPiece_lineComment _ (begins.mp line), again]⟩
  by_cases block : rest.head? = some '*'
  · obtain ⟨more, rfl⟩ := List.head?_eq_some_iff.mp block
    rw [firstPiece_blockComment] at alike ⊢
    obtain ⟨taken, text, again⟩ := local_blockCommentPiece more behind alike
    refine ⟨'*' :: taken, congrArg ('*' :: ·) text, ?_⟩
    rw [List.cons_append, firstPiece_blockComment, again]
  · rw [firstPiece_slash _ line block] at alike ⊢
    have noLine := (alike.head_iff isNameStart_slash).not.mp line
    have noBlock := (alike.head_iff (isNameStart_basic (by decide))).not.mp block
    exact ⟨[], rfl, firstPiece_slash _ noLine noBlock⟩

theorem local_point : Local fun rest => firstPiece rest.length '.' rest := by
  intro rest behind alike
  dsimp only at alike ⊢
  have noDigit (c : Char) (start : isNameStart c = true) : c.isDigit = false :=
    Source.not_digit_of_start (isNameStart_wider start)
  cases digit : rest.head?.any Char.isDigit with
  | true =>
      rw [firstPiece_fraction _ digit] at alike ⊢
      obtain ⟨taken, text, again⟩ :=
        local_runPiece _ _ (fun _ => nameStart_numberChar) rest behind alike
      have begins := (alike.append taken).head_any noDigit
      rw [← text, digit] at begins
      exact ⟨taken, text, by rw [firstPiece_fraction _ begins.symm, again]⟩
  | false =>
      rw [firstPiece_point _ digit] at alike ⊢
      exact ⟨[], rfl, firstPiece_point _ ((alike.head_any noDigit).symm.trans digit)⟩

/-- A piece is cut off as before, whatever follows it, as long as that begins alike. -/
theorem local_firstPiece (c : Char) : Local fun rest => firstPiece rest.length c rest := by
  by_cases slash : c = '/'
  · subst slash
    exact local_slash
  by_cases point : c = '.'
  · subst point
    exact local_point
  unfold firstPiece
  refine local_ite (fun _ => local_nothing _) fun _ => ?_
  refine local_ite (fun _ => local_interpretedPiece) fun _ => ?_
  refine local_ite (fun _ => local_rawPiece) fun _ => ?_
  refine local_ite (fun _ => local_runePiece) fun _ => ?_
  refine local_ite (fun _ => local_nothing _) fun _ => ?_
  refine local_ite (fun _ => local_nothing _) fun _ => ?_
  refine local_ite (fun _ => local_runPiece _ _ fun _ => isNameStart_isNameChar) fun _ => ?_
  refine local_ite (fun _ => local_runPiece _ _ fun _ => nameStart_numberChar) fun _ => ?_
  convert local_nothing (⟨.other, [c]⟩ : Piece) using 2 with rest
  split <;> simp_all

theorem firstPiece_begins (bound : Nat) (c : Char) (rest : List Char) :
    ∃ taken, (firstPiece bound c rest).1.chars = c :: taken := by
  have chars := chars_firstPiece bound c rest
  cases empty : (firstPiece bound c rest).1.chars with
  | nil =>
      have shorter := length_firstPiece bound c rest
      rw [empty, List.nil_append] at chars
      rw [chars, List.length_cons] at shorter
      omega
  | cons d taken =>
      rw [empty, List.cons_append, List.cons.injEq] at chars
      exact ⟨taken, by rw [chars.1]⟩

/-- A piece behind which another text stands that begins as what was left does. -/
theorem pieces_local {c : Char} {rest behind : List Char}
    (alike : BeginAlike (firstPiece rest.length c rest).2 behind) :
    pieces ((firstPiece rest.length c rest).1.chars ++ behind) =
      (firstPiece rest.length c rest).1 :: pieces behind := by
  obtain ⟨taken, text, again⟩ := local_firstPiece c rest behind alike
  have chars := chars_firstPiece rest.length c rest
  have begins : (firstPiece rest.length c rest).1.chars = c :: taken := by
    refine List.append_cancel_right (chars.trans ?_)
    rw [List.cons_append, ← text]
  dsimp only at again
  rw [begins, List.cons_append, pieces_cons, again]

theorem firstPiece_name {bound : Nat} {c : Char} {rest : List Char}
    (isName : (firstPiece bound c rest).1.kind = .name) :
    isNameStart c = true ∧ Stops isNameChar (firstPiece bound c rest).2 := by
  by_cases start : isNameStart c = true
  · rw [firstPiece_nameChar _ (isNameChar_wider (isNameStart_isNameChar start)), if_pos start]
    exact ⟨start, stops_dropWhile isNameChar rest⟩
  · exfalso
    revert isName
    unfold firstPiece rawPiece
    rw [if_neg start]
    repeat' split
    all_goals
      intro isName
      cases isName

/-! ## Renaming -/

/-- A piece, or the new name in its place if it is the old one. -/
def Piece.renamed (old new : String) (p : Piece) : Piece :=
  if p.isWord old then ⟨.name, new.toList⟩ else p

theorem renameIdentifier_eq (code : List Char) (old new : String) :
    renameIdentifier code old new =
      ((pieces code).map (Piece.renamed old new)).flatMap Piece.chars := by
  rw [renameIdentifier, List.flatMap_map]
  congr 1
  funext p
  unfold Piece.renamed
  split <;> rfl

theorem renameIdentifier_cons (c : Char) (rest : List Char) (old new : String) :
    renameIdentifier (c :: rest) old new =
      ((firstPiece rest.length c rest).1.renamed old new).chars ++
        renameIdentifier (firstPiece rest.length c rest).2 old new := by
  rw [renameIdentifier_eq, pieces_cons, List.map_cons, List.flatMap_cons, ← renameIdentifier_eq]

theorem identifier_begins {word : String} (identifier : isIdentifier word = true) :
    ∃ c rest, word.toList = c :: rest ∧ isNameStart c = true := by
  unfold isIdentifier at identifier
  cases chars : word.toList with
  | nil =>
      rw [chars] at identifier
      cases identifier
  | cons c rest =>
      rw [chars, Bool.and_eq_true] at identifier
      exact ⟨c, rest, rfl, identifier.1⟩

theorem kind_of_isWord {p : Piece} {word : String} (isWord : p.isWord word = true) :
    p.kind = .name := by
  simp only [Piece.isWord, Bool.and_eq_true, decide_eq_true_eq] at isWord
  exact isWord.1

section

variable (old : String) {new : String} (identifier : isIdentifier new = true)

include identifier

theorem beginAlike_renameIdentifier (code : List Char) :
    BeginAlike code (renameIdentifier code old new) := by
  cases code with
  | nil => exact .nil
  | cons c rest =>
      rw [renameIdentifier_cons, Piece.renamed]
      split
      · rename_i isWord
        obtain ⟨d, more, begins, start⟩ := identifier_begins identifier
        rw [begins]
        exact .names _ _ (firstPiece_name (kind_of_isWord isWord)).1 start
      · obtain ⟨taken, begins⟩ := firstPiece_begins rest.length c rest
        rw [begins]
        exact .same c _ _

theorem pieces_renameIdentifier : ∀ (n : Nat) (code : List Char), code.length ≤ n →
    pieces (renameIdentifier code old new) = (pieces code).map (Piece.renamed old new) := by
  intro n
  induction n with
  | zero =>
      intro code short
      have empty : code = [] := List.eq_nil_of_length_eq_zero (by omega)
      rw [empty]
      rfl
  | succ n ih =>
      intro code short
      cases code with
      | nil => rfl
      | cons c rest =>
          have shorter := length_firstPiece rest.length c rest
          rw [List.length_cons] at short
          have more := ih (firstPiece rest.length c rest).2 (by omega)
          have alike := beginAlike_renameIdentifier old identifier
            (firstPiece rest.length c rest).2
          rw [renameIdentifier_cons, pieces_cons c rest, List.map_cons, ← more, Piece.renamed]
          split
          · rename_i isWord
            have stops := (firstPiece_name (kind_of_isWord isWord)).2
            exact pieces_identifier identifier (alike.stops (fun _ => isNameStart_isNameChar) stops)
          · exact pieces_local alike

end

/-! ## Tokens and what stands between them -/

/-- The texts between the tokens among pieces, from the one before the first token to the one behind
the last. -/
def blanksBetween : List Piece → List (List Char)
  | [] => [[]]
  | p :: ps =>
    if p.kind = .blank then (blanksBetween ps).modifyHead (p.chars ++ ·)
    else [] :: blanksBetween ps

/-- The white space and the comments before, between and behind the tokens of a text. -/
def betweenTokens (chars : List Char) : List (List Char) := blanksBetween (pieces chars)

theorem kind_renamed (old new : String) (p : Piece) : (p.renamed old new).kind = p.kind := by
  unfold Piece.renamed
  split
  · rename_i isWord
    exact (kind_of_isWord isWord).symm
  · rfl

theorem renamed_of_blank {old new : String} {p : Piece} (blank : p.kind = .blank) :
    p.renamed old new = p := by
  refine if_neg fun isWord => ?_
  rw [kind_of_isWord isWord] at blank
  cases blank

theorem blanksBetween_renamed (old new : String) (ps : List Piece) :
    blanksBetween (ps.map (Piece.renamed old new)) = blanksBetween ps := by
  induction ps with
  | nil => rfl
  | cons p ps ih =>
      rw [List.map_cons, blanksBetween, blanksBetween, kind_renamed, ih]
      split
      · rename_i blank
        rw [renamed_of_blank blank]
      · rfl

/-- Renaming a name leaves the tokens of a text as they are, each name that is the old one apart,
and so it does with the white space and the comments between them. -/
theorem renameIdentifier_tokens (code : List Char) (old : String) {new : String}
    (identifier : isIdentifier new = true) :
    tokens (renameIdentifier code old new) = (tokens code).map (Piece.renamed old new) ∧
      betweenTokens (renameIdentifier code old new) = betweenTokens code := by
  have renamed := pieces_renameIdentifier old identifier _ code (Nat.le_refl _)
  constructor
  · rw [tokens, tokens, renamed, List.filter_map]
    congr 2
    funext p
    exact congrArg (fun kind => decide (kind ≠ PieceKind.blank)) (kind_renamed old new p)
  · rw [betweenTokens, betweenTokens, renamed, blanksBetween_renamed]

/-- Behind a literal that ends with its line, before a point and before a comment that is not
closed. -/
theorem renameIdentifier_tokens_unclosed :
    let code := "x = \"call \\u12\ncall.call(1.call) /* call".toList
    isIdentifier "run" = true ∧
      tokens (renameIdentifier code "call" "run") = (tokens code).map (Piece.renamed "call" "run") ∧
      betweenTokens (renameIdentifier code "call" "run") = betweenTokens code :=
  have identifier : isIdentifier "run" = true := by decide +kernel
  ⟨identifier, renameIdentifier_tokens _ "call" identifier⟩

end SandboxedGo.Submission
