import SandboxedGo.Proofs.Gaps

/-!
# The scanner along the steps of the lexer

What one step of the lexer takes leaves no gap, unless it is a name.  Behind a number the scanner is
always in the middle of a piece, so a name directly behind a number is never seen.
-/

set_option autoImplicit false

namespace SandboxedGo.Decimal

/-! ## Numbers do not end in a sign -/

theorem splitSign_ends (before : List Char) (last : Char) :
    (splitSign (before ++ [last])).2 = [] ∨
      ∃ more, (splitSign (before ++ [last])).2 = more ++ [last] := by
  unfold splitSign
  split
  · rename_i rest text
    cases before with
    | nil =>
        cases text
        exact .inl rfl
    | cons c before =>
        cases text
        exact .inr ⟨before, rfl⟩
  · rename_i rest text
    cases before with
    | nil =>
        cases text
        exact .inl rfl
    | cons c before =>
        cases text
        exact .inr ⟨before, rfl⟩
  · exact .inr ⟨before, rfl⟩

variable {last : Char}

theorem readExponent_ends (noDigit : last.isDigit = false) (before : List Char) :
    readExponent (before ++ [last]) = none := by
  unfold readExponent
  dsimp only
  refine if_pos ?_
  rcases splitSign_ends before last with empty | ⟨more, ends⟩
  · exact .inl (by rw [empty]; rfl)
  · exact .inr (by rw [ends]; simp [noDigit])

theorem dropDigits_ends (noDigit : last.isDigit = false) (before : List Char) :
    (before ++ [last]).dropWhile Char.isDigit = before.dropWhile Char.isDigit ++ [last] := by
  refine Submission.dropWhile_append_stops ?_ before
  rintro c ⟨⟩
  exact noDigit

theorem readMagnitude_ends (noDigit : last.isDigit = false) (noPoint : last ≠ '.')
    (noExponent : last ≠ 'e' ∧ last ≠ 'E') (before : List Char) :
    readMagnitude (before ++ [last]) = none := by
  unfold readMagnitude
  dsimp only
  rw [dropDigits_ends noDigit]
  -- Whatever is read of the number, its last character is left.
  cases before.dropWhile Char.isDigit with
  | nil =>
      split
      · rename_i text
        cases text
        exact absurd rfl noPoint
      · split
        · rfl
        · simp [noExponent]
  | cons c more =>
      split
      · rename_i rest text
        obtain rfl : more ++ [last] = rest := (List.cons.inj text).2
        rw [dropDigits_ends noDigit]
        dsimp only
        split
        · rfl
        · cases more.dropWhile Char.isDigit with
          | nil => simp [noExponent]
          | cons c more =>
              simp only [List.cons_append, readExponent_ends noDigit, Option.map_none, ite_self]
      · split
        · rfl
        · simp only [List.cons_append, readExponent_ends noDigit, Option.map_none, ite_self]

theorem readFloat_sign {sign : Char} (isSign : sign = '+' ∨ sign = '-') (before : List Char) :
    readFloat? (before ++ [sign]) = none := by
  have magnitude (more : List Char) : readMagnitude (more ++ [sign]) = none := by
    rcases isSign with rfl | rfl
    · exact readMagnitude_ends rfl (by decide) (by decide) more
    · exact readMagnitude_ends rfl (by decide) (by decide) more
  have lower : sign.toLower = sign := by rcases isSign with rfl | rfl <;> rfl
  unfold readFloat?
  dsimp only
  rcases splitSign_ends before sign with empty | ⟨more, ends⟩
  · rw [empty]
    rfl
  · have noWord (word : List Char) (isWord : more.map Char.toLower ++ [sign] = word) :
        word.getLast? = some sign := by
      rw [← isWord, List.getLast?_append]
      rfl
    have noLetter : sign ≠ 'f' ∧ sign ≠ 'y' ∧ sign ≠ 'n' := by
      rcases isSign with rfl | rfl <;> decide
    rw [ends, List.map_append, List.map_singleton, lower, Option.map_eq_none_iff]
    split
    · rename_i isWord
      exact absurd (Option.some.inj (noWord _ isWord)).symm noLetter.1
    · rename_i isWord
      exact absurd (Option.some.inj (noWord _ isWord)).symm noLetter.2.1
    · rename_i isWord
      exact absurd (Option.some.inj (noWord _ isWord)).symm noLetter.2.2
    · exact magnitude more

end SandboxedGo.Decimal

namespace SandboxedGo.Submission

open Source Decimal

/-! ## Numbers -/

/-- The characters of numbers that may belong to names as well. -/
def isNumberLetter (c : Char) : Bool := c.isDigit || c = '_' || c = 'e' || c = 'E'

theorem isNumberLetter_cases {c : Char} (letter : isNumberLetter c = true) :
    isNameChar c = true ∧ (c.isDigit = false → isNameStart c = true) := by
  simp only [isNumberLetter, Bool.or_eq_true, decide_eq_true_eq] at letter
  rcases letter with ((digit | rfl) | rfl) | rfl
  · have part : Cursor.isNameChar c = true := by simp [Cursor.isNameChar, Char.isAlphanum, digit]
    refine ⟨isNameChar_narrower (basic_of_digit digit) part, fun noDigit => ?_⟩
    rw [digit] at noDigit
    cases noDigit
  · exact ⟨isNameChar_narrower (by decide) rfl, fun _ => isNameStart_narrower (by decide) rfl⟩
  · exact ⟨isNameChar_narrower (by decide) rfl, fun _ => isNameStart_narrower (by decide) rfl⟩
  · exact ⟨isNameChar_narrower (by decide) rfl, fun _ => isNameStart_narrower (by decide) rfl⟩

theorem isNumberLetter_exponent {c : Char} (exponent : (c = 'e' || c = 'E') = true) :
    isNumberLetter c = true := by
  simp only [isNumberLetter]
  rw [Bool.or_assoc, exponent, Bool.or_true]

theorem isNameChar_of_isHexPart {c : Char} (part : Cursor.isHexPart c = true) :
    isNameChar c = true := by
  simp only [Cursor.isHexPart, Bool.or_eq_true, decide_eq_true_eq] at part
  rcases part with hex | rfl
  · refine isNameChar_narrower (hexDigit_basic hex) ?_
    have digits : ∀ n < 128, Cursor.isHexDigit (Char.ofNat n) = true →
        Cursor.isNameChar (Char.ofNat n) = true := by
      decide
    have isPart := digits c.toNat (hexDigit_basic hex)
    rw [Char.ofNat_toNat] at isPart
    exact isPart hex
  · exact isNameChar_narrower (by decide) rfl

theorem numberChars_float (chars : List Char) : (Cursor.numberChars true chars).2 = true := by
  generalize isTrue : true = isFloat
  fun_induction Cursor.numberChars isFloat chars <;> simp_all

theorem gapsFrom_sign (word : String) {sign : Char} (isSign : sign = '+' ∨ sign = '-') (run : Run)
    (rest : List Char) :
    gapsFrom word run (sign :: rest) = some sign :: gapsFrom word .nothing rest := by
  have noPart : Cursor.isNameChar sign = false := by rcases isSign with rfl | rfl <;> rfl
  have noPoint : sign ≠ '.' := by rcases isSign with rfl | rfl <;> decide
  have noStart := not_nameStart noPart
  rw [gapsFrom_stops word _ (run.takes_of_plain noPart noPoint)]
  refine gapsFrom_one .other (by simp) ?_
  rcases isSign with rfl | rfl <;> simp [firstPiece, isSpace, noStart, Char.isDigit]

section

variable {word : String} (begins : ∀ c, word.toList.head? = some c → isNumberLetter c = false)
include begins

/-- Behind a letter of a number the scanner is in the middle of a piece. -/
theorem gapsFrom_letter {c : Char} (letter : isNumberLetter c = true) (run : Run)
    (rest : List Char) :
    ∃ run', run' ≠ .nothing ∧ (run = .number → run' = .number) ∧
      gapsFrom word run (c :: rest) = some c :: gapsFrom word run' rest := by
  obtain ⟨part, startUnlessDigit⟩ := isNumberLetter_cases letter
  cases run with
  | number =>
      exact ⟨.number, by simp, fun _ => rfl,
        gapsFrom_takes (by simp [Run.takes, isNumberChar, part])⟩
  | name => exact ⟨.name, by simp, by simp, gapsFrom_takes part⟩
  | nothing =>
      cases digit : c.isDigit with
      | true => exact ⟨.number, by simp, by simp, gapsFrom_digit digit⟩
      | false =>
          refine ⟨.name, by simp, by simp, gapsFrom_name (startUnlessDigit digit) ?_⟩
          intro isWord
          rw [begins c (by rw [← isWord]; rfl)] at letter
          cases letter

/-- Along a number the scanner leaves no gap.  Behind it the scanner is in the middle of a piece,
unless the number ends in a sign. -/
theorem gapsFrom_numberChars (isFloat : Bool) (chars : List Char) :
    ∀ run : Run, (isFloat = false → run = .number) →
      ∃ run' rest, chars = (Cursor.numberChars isFloat chars).1 ++ rest ∧
        gapsFrom word run chars =
          (Cursor.numberChars isFloat chars).1.map some ++ gapsFrom word run' rest ∧
        (∀ d, rest.head? = some d → d.isDigit = false) ∧
        (run' = .nothing → run = .nothing ∧ (Cursor.numberChars isFloat chars).1 = [] ∨
          ∃ before sign, (Cursor.numberChars isFloat chars).1 = before ++ [sign] ∧
            (sign = '+' ∨ sign = '-') ∧ (Cursor.numberChars isFloat chars).2 = true) := by
  fun_induction Cursor.numberChars isFloat chars with
  | case1 isFloat =>
      intro run _
      exact ⟨run, [], rfl, rfl, by simp, fun none => .inl ⟨none, rfl⟩⟩
  | case2 isFloat c rest isPart more result read ih =>
      intro run whole
      rw [read] at ih
      have letter : isNumberLetter c = true := by
        simp only [isNumberLetter]
        rw [isPart]
        rfl
      obtain ⟨between, inPiece, stays, first⟩ := gapsFrom_letter begins letter run rest
      obtain ⟨run', left, parts, others, noDigit, ends⟩ := ih between fun int => stays (whole int)
      refine ⟨run', left, congrArg (c :: ·) parts, by rw [first, others]; rfl, noDigit,
        fun none => ?_⟩
      rcases ends none with ⟨isNothing, _⟩ | ⟨before, sign, rfl, isSign⟩
      · exact absurd isNothing inPiece
      · exact .inr ⟨c :: before, sign, rfl, isSign⟩
  | case3 isFloat c rest noDigit point more result read ih =>
      intro run whole
      rw [read] at ih
      simp only [Bool.and_eq_true, decide_eq_true_eq, Bool.not_eq_true'] at point
      obtain ⟨⟨rfl, int⟩, _⟩ := point
      obtain rfl := whole int
      obtain ⟨run', left, parts, others, noDigit, ends⟩ := ih .number fun _ => rfl
      refine ⟨run', left, congrArg ('.' :: ·) parts, ?_, noDigit, fun none => ?_⟩
      · rw [gapsFrom_takes (by simp [Run.takes, isNumberChar]), others]
        rfl
      · rcases ends none with ⟨isNothing, _⟩ | ⟨before, sign, rfl, isSign⟩
        · cases isNothing
        · exact .inr ⟨'.' :: before, sign, rfl, isSign⟩
  | case4 isFloat c noDigit exponent noPoint =>
      intro run _
      have letter := isNumberLetter_exponent exponent
      obtain ⟨between, inPiece, _, first⟩ := gapsFrom_letter begins letter run []
      exact ⟨between, [], rfl, first, by simp, fun none => absurd none inPiece⟩
  | case5 isFloat c noDigit exponent sign rest isSign more result read noPoint ih =>
      intro run _
      rw [read] at ih
      have letter := isNumberLetter_exponent exponent
      have isSign : sign = '+' ∨ sign = '-' := by simpa using isSign
      obtain ⟨between, inPiece, _, first⟩ := gapsFrom_letter begins letter run (sign :: rest)
      obtain ⟨run', left, parts, others, noDigit, ends⟩ := ih .nothing (by simp)
      refine ⟨run', left, congrArg (fun tail => c :: sign :: tail) parts, ?_, noDigit,
        fun none => ?_⟩
      · rw [first, gapsFrom_sign word isSign, others]
        rfl
      · rcases ends none with ⟨_, rfl⟩ | ⟨before, last, rfl, isLast⟩
        · have float := numberChars_float rest
          rw [read] at float
          exact .inr ⟨[c], sign, rfl, isSign, float⟩
        · exact .inr ⟨c :: sign :: before, last, rfl, isLast⟩
  | case6 isFloat c noDigit exponent sign rest noSign more result read noPoint ih =>
      intro run _
      rw [read] at ih
      have letter := isNumberLetter_exponent exponent
      obtain ⟨between, inPiece, _, first⟩ := gapsFrom_letter begins letter run (sign :: rest)
      obtain ⟨run', left, parts, others, noDigit, ends⟩ := ih between (by simp)
      refine ⟨run', left, congrArg (c :: ·) parts, by rw [first, others]; rfl, noDigit,
        fun none => ?_⟩
      rcases ends none with ⟨isNothing, _⟩ | ⟨before, last, rfl, isLast⟩
      · exact absurd isNothing inPiece
      · exact .inr ⟨c :: before, last, rfl, isLast⟩
  | case7 isFloat c rest noDigit noPoint noExponent =>
      intro run _
      refine ⟨run, c :: rest, rfl, rfl, ?_, fun none => .inl ⟨none, rfl⟩⟩
      rintro d ⟨⟩
      simp only [Bool.or_eq_true, not_or] at noDigit
      simpa using noDigit.1

/-- A number leaves no gap, and behind it the scanner is in the middle of a piece. -/
theorem gapsFrom_readNumber {cur after : Cursor} {lexeme : Lexeme} {first : Char}
    {rest others : List Char} (text : cur.rest = first :: rest)
    (start : first.isDigit = true ∨ first = '.' ∧ ∃ d, rest.head? = some d ∧ d.isDigit = true)
    (read : cur.readNumber = .ok (lexeme, after)) (passes : cur.Passes (first :: others) after)
    {run : Run} (fits : run = .name → first.isDigit = false) :
    ∃ run', run' ≠ .nothing ∧ (∀ d, after.rest.head? = some d → d.isDigit = false) ∧
      gapsFrom word run (first :: rest) =
        (first :: others).map some ++ gapsFrom word run' after.rest := by
  have whole : rest = others ++ after.rest := (List.cons.inj (text.symm.trans passes.1)).2
  have opens : gapsFrom word run (first :: rest) = some first :: gapsFrom word .number rest := by
    rcases start with digit | ⟨rfl, d, next, digit⟩
    · cases run with
      | nothing => exact gapsFrom_digit digit
      | number =>
          have part : isNameChar first = true :=
            (isNumberLetter_cases (by simp [isNumberLetter, digit])).1
          exact gapsFrom_takes (by simp [Run.takes, isNumberChar, part])
      | name =>
          rw [fits rfl] at digit
          cases digit
    · obtain ⟨tail, rfl⟩ := List.head?_eq_some_iff.mp next
      cases run with
      | nothing => exact gapsFrom_fraction digit
      | number => exact gapsFrom_takes (by simp [Run.takes, isNumberChar])
      | name =>
          rw [gapsFrom_stops]
          · exact gapsFrom_fraction digit
          · exact not_nameChar rfl
  rw [opens]
  cases hex : Cursor.beginsHex cur.rest with
  | true =>
      obtain ⟨x, tail, isText, prefixed⟩ := Cursor.beginsHex_cases hex
      have passes' := ((Cursor.readNumber_hex isText prefixed).mp read).2
      have same := List.append_cancel_right (passes.1.symm.trans passes'.1)
      cases same
      have takes : ∀ c ∈ x :: tail.takeWhile Cursor.isHexPart, Run.number.takes c = true := by
        intro c member
        have part : isNameChar c = true := by
          rcases List.mem_cons.mp member with rfl | inRun
          · rcases prefixed with rfl | rfl <;> exact isNameChar_narrower (by decide) rfl
          · exact isNameChar_of_isHexPart (List.mem_takeWhile_imp inRun)
        simp [Run.takes, isNumberChar, part]
      refine ⟨.number, by simp, ?_, by rw [whole, gapsFrom_all takes]; rfl⟩
      have left : after.rest = tail.dropWhile Cursor.isHexPart := by
        have tails := isText.symm.trans passes.1
        simp only [List.cons_append, List.cons.injEq, true_and] at tails
        refine List.append_cancel_left (tails.symm.trans ?_)
        exact List.takeWhile_append_dropWhile.symm
      intro d next
      have no := stops_dropWhile Cursor.isHexPart tail d (by rw [← left, next])
      simp only [Cursor.isHexPart, Cursor.isHexDigit, Bool.or_eq_false_iff] at no
      exact no.1.1.1
  | false =>
      obtain ⟨written, passes'⟩ := (Cursor.readNumber_decimal hex).mp read
      have same := List.append_cancel_right (passes.1.symm.trans passes'.1)
      obtain ⟨isFloat, goesOn⟩ : ∃ isFloat, Cursor.numberChars false cur.rest =
          (first :: (Cursor.numberChars isFloat rest).1, (Cursor.numberChars isFloat rest).2) := by
        rw [text]
        rcases start with digit | ⟨rfl, d, next, digit⟩
        · exact ⟨false, Cursor.numberChars_digit (by simp [digit])⟩
        · refine ⟨true, Cursor.numberChars_point (by decide) ?_⟩
          rw [next]
          have noPoint : some d ≠ some '.' := by
            rintro ⟨⟩
            cases digit
          simp [noPoint]
      rw [goesOn] at same written
      obtain rfl := (List.cons.inj same).2
      obtain ⟨run', left, parts, others, noDigit, ends⟩ :=
        gapsFrom_numberChars begins isFloat rest .number fun _ => rfl
      obtain rfl : left = after.rest := List.append_cancel_left (parts.symm.trans whole)
      refine ⟨run', ?_, noDigit, by rw [others]; rfl⟩
      intro none
      rcases ends none with ⟨isNothing, _⟩ | ⟨before, sign, chars, isSign, float⟩
      · cases isNothing
      · -- A float that ends in a sign is not accepted.
        have noUnderscore : sign ≠ '_' := by rcases isSign with rfl | rfl <;> decide
        have text : (first :: (before ++ [sign])).filter (· ≠ '_') =
            (first :: before).filter (· ≠ '_') ++ [sign] := by
          rw [← List.cons_append, List.filter_append]
          simp [noUnderscore]
        simp only [Cursor.decimalLexeme?, chars, float, if_true, text, readFloat_sign isSign,
          Option.map_none, reduceCtorEq] at written

end

/-! ## Marks -/

variable {word : String} {run : Run} {rest : List Char}

/-- The characters that are a piece of their own wherever they stand, but for points and slashes. -/
def isPlain (c : Char) : Bool :=
  !(isSpace c || c = '"' || c = '\x60' || c = '\'' || Cursor.isNameChar c)

theorem gapsFrom_plain {c : Char} (plain : isPlain c = true)
    (noComment : c = '/' → rest.head? ≠ some '/' ∧ rest.head? ≠ some '*')
    (noNumber : c = '.' → ∀ d, rest.head? = some d → d.isDigit = false) :
    gapsFrom word .nothing (c :: rest) = some c :: gapsFrom word .nothing rest := by
  simp only [isPlain, Bool.not_eq_true', Bool.or_eq_false_iff, decide_eq_false_iff_not] at plain
  obtain ⟨⟨⟨⟨noSpace, noString⟩, noRaw⟩, noRune⟩, noPart⟩ := plain
  have noStart := not_nameStart noPart
  have noDigit : c.isDigit = false := by
    simp only [Cursor.isNameChar, Char.isAlphanum, Bool.or_eq_false_iff] at noPart
    exact noPart.1.2.2
  have one : ∃ kind, kind ≠ .name ∧ firstPiece rest.length c rest = (⟨kind, [c]⟩, rest) := by
    unfold firstPiece
    rw [if_neg (by simp [noSpace]), if_neg noString, if_neg noRaw, if_neg noRune]
    split
    · exact ⟨_, by simp, rfl⟩
    rename_i noOpening
    split
    · exact ⟨_, by simp, rfl⟩
    rename_i noClosing
    rw [if_neg (by simp [noStart]), if_neg (by simp [noDigit])]
    split
    · exact absurd rfl (noComment rfl).1
    · exact absurd rfl (noComment rfl).2
    · rename_i d tail
      rw [if_neg (by simp [noNumber rfl d rfl])]
      exact ⟨_, by simp, rfl⟩
    · exact ⟨_, by simp, rfl⟩
    · exact ⟨_, by simp, rfl⟩
  obtain ⟨kind, noName, one⟩ := one
  exact gapsFrom_one kind noName one

theorem gapsFrom_plains : ∀ taken : List Char,
    (∀ c ∈ taken, isPlain c = true ∧ c ≠ '/' ∧ c ≠ '.') →
    gapsFrom word .nothing (taken ++ rest) = taken.map some ++ gapsFrom word .nothing rest := by
  intro taken
  induction taken with
  | nil =>
      intro _
      rfl
  | cons c taken ih =>
      intro plain
      obtain ⟨isPlain, noSlash, noPoint⟩ := plain c List.mem_cons_self
      rw [List.cons_append, gapsFrom_plain isPlain (absurd · noSlash) (absurd · noPoint),
        ih fun d member => plain d (List.mem_cons_of_mem c member)]
      rfl

theorem spelling_isPlain : ∀ entry ∈ Mark.spellings, (∀ c ∈ entry.1, isPlain c = true) ∧
    (entry.1.head? ≠ some '.' → ∀ c ∈ entry.1.tail, c ≠ '/' ∧ c ≠ '.') ∧
    (entry.1.head? = some '.' → ∀ c ∈ entry.1, c = '.') := by
  have plain : Mark.spellings.all (fun entry => entry.1.all isPlain &&
      (entry.1.head? == some '.' || entry.1.tail.all fun c => c != '/' && c != '.') &&
      (entry.1.head? != some '.' || entry.1.all (· == '.'))) = true := by decide
  simpa only [List.all_eq_true, Bool.and_eq_true, Bool.or_eq_true, bne_iff_ne, beq_iff_eq,
    and_assoc, Decidable.or_iff_not_imp_left, Decidable.not_not] using plain

theorem gapsFrom_point (word : String) (run : Run) (rest : List Char) :
    ∃ run', run' ≠ .name ∧
      gapsFrom word run ('.' :: rest) = some '.' :: gapsFrom word run' rest := by
  by_cases inNumber : run = .number
  · rw [inNumber]
    exact ⟨.number, by simp, gapsFrom_takes (by simp [Run.takes, isNumberChar])⟩
  · have stops : run.takes '.' = false := by
      cases run with
      | nothing => rfl
      | number => exact absurd rfl inNumber
      | name => exact not_nameChar rfl
    rw [gapsFrom_stops word _ stops]
    by_cases fraction : ∃ d, rest.head? = some d ∧ d.isDigit = true
    · obtain ⟨d, next, digit⟩ := fraction
      obtain ⟨tail, rfl⟩ := List.head?_eq_some_iff.mp next
      exact ⟨.number, by simp, gapsFrom_fraction digit⟩
    · refine ⟨.nothing, by simp, gapsFrom_plain (by decide) (by rintro ⟨⟩) fun _ d next => ?_⟩
      exact Bool.eq_false_iff.mpr fun digit => fraction ⟨d, next, digit⟩

theorem gapsFrom_points : ∀ (taken : List Char) (run : Run), (∀ c ∈ taken, c = '.') →
    ∃ run', run' ≠ .name ∧ gapsFrom word run ('.' :: (taken ++ rest)) =
      ('.' :: taken).map some ++ gapsFrom word run' rest := by
  intro taken
  induction taken with
  | nil =>
      intro run _
      exact gapsFrom_point word run rest
  | cons c taken ih =>
      intro run points
      obtain rfl := points c List.mem_cons_self
      obtain ⟨between, _, first⟩ := gapsFrom_point word run ('.' :: (taken ++ rest))
      obtain ⟨run', noName, others⟩ :=
        ih between fun d member => points d (List.mem_cons_of_mem _ member)
      refine ⟨run', noName, ?_⟩
      rw [List.cons_append, first, others]
      rfl

theorem gapsFrom_mark (word : String) {first : Char} {m : Mark} {length : Nat}
    (found : Mark.atStart? (first :: rest) = some (m, length))
    (noComment : first = '/' → rest.head? ≠ some '/' ∧ rest.head? ≠ some '*') (run : Run) :
    ∃ run', run' ≠ .name ∧ gapsFrom word run (first :: rest) =
      ((first :: rest).take length).map some ++
        gapsFrom word run' ((first :: rest).drop length) := by
  obtain ⟨spelling, label, listed, ⟨behind, spelled⟩, rfl⟩ := Cursor.atStart_some found
  obtain ⟨plain, noPoints, points⟩ := spelling_isPlain _ listed
  cases spelling with
  | nil => exact absurd rfl (Cursor.spelling_ne_nil _ listed)
  | cons c others =>
      obtain ⟨rfl, _⟩ := List.cons.inj spelled
      have goesOn : others ++ behind = rest := (List.cons.inj spelled).2
      rw [← spelled, List.take_left, List.drop_left, List.cons_append]
      by_cases point : c = '.'
      · subst point
        exact gapsFrom_points others run fun d member =>
          points rfl d (List.mem_cons_of_mem _ member)
      · have noPart : Cursor.isNameChar c = false := by
          have isPlain := plain c List.mem_cons_self
          simp only [SandboxedGo.Submission.isPlain, Bool.not_eq_true',
            Bool.or_eq_false_iff] at isPlain
          exact isPlain.2
        rw [← goesOn] at noComment
        refine ⟨.nothing, by simp, ?_⟩
        rw [gapsFrom_stops word _ (run.takes_of_plain noPart point),
          gapsFrom_plain (plain c List.mem_cons_self) noComment (absurd · point), gapsFrom_plains]
        · rfl
        · intro d member
          exact ⟨plain d (List.mem_cons_of_mem c member), noPoints (by simpa using point) d member⟩

/-! ## Names -/

/-- Along a name of the guest language the scanner may cut off several pieces. -/
theorem gapsFrom_names (word : String) (stops : Stops Cursor.isNameChar rest) :
    ∀ (n : Nat) (w : List Char), w.length ≤ n → (∀ c ∈ w, Cursor.isNameChar c = true) →
      ∀ run : Run, ∃ run' gaps, gapsFrom word run (w ++ rest) = gaps ++ gapsFrom word run' rest ∧
        fill word.toList gaps = w := by
  -- Not by induction on the name: the word is taken off in one step.
  intro n
  induction n with
  | zero =>
      intro w short _ run
      have empty : w = [] := List.eq_nil_of_length_eq_zero (by omega)
      rw [empty]
      exact ⟨run, [], rfl, rfl⟩
  | succ n ih =>
      intro w short names run
      cases w with
      | nil => exact ⟨run, [], rfl, rfl⟩
      | cons c w =>
          have part : Cursor.isNameChar c = true := names c List.mem_cons_self
          have others : ∀ d ∈ w, Cursor.isNameChar d = true := fun d member =>
            names d (List.mem_cons_of_mem c member)
          rw [List.length_cons] at short
          -- One character, and then the rest of the name from whatever the scanner is in.
          have one {between : Run} (first : gapsFrom word run (c :: (w ++ rest)) =
              some c :: gapsFrom word between (w ++ rest)) :
              ∃ run' gaps, gapsFrom word run (c :: w ++ rest) = gaps ++ gapsFrom word run' rest ∧
                fill word.toList gaps = c :: w := by
            obtain ⟨run', gaps, goesOn, filled⟩ := ih w (by omega) others between
            refine ⟨run', some c :: gaps, ?_, by rw [fill_some, filled]⟩
            rw [List.cons_append, first, goesOn, List.cons_append]
          cases takes : run.takes c with
          | true => exact one (gapsFrom_takes takes)
          | false =>
              have aligned := gapsFrom_stops word (w ++ rest) takes
              cases start : isNameStart c with
              | true =>
                  have run : (w ++ rest).takeWhile isNameChar = w.takeWhile isNameChar :=
                    takeWhile_append_stops stops.narrower w
                  by_cases isWord : c :: (w ++ rest).takeWhile isNameChar = word.toList
                  · have shorter := (List.dropWhile_sublist isNameChar (l := w)).length_le
                    obtain ⟨run', gaps, goesOn, filled⟩ :=
                      ih (w.dropWhile isNameChar) (by omega) (all_dropWhile others) .nothing
                    refine ⟨run', none :: gaps, ?_, ?_⟩
                    · rw [List.cons_append, aligned, gapsFrom_word start isWord,
                        dropWhile_append_stops stops.narrower, goesOn, List.cons_append]
                    · rw [fill_none, filled, ← isWord, run, List.cons_append,
                        List.takeWhile_append_dropWhile]
                  · exact one (aligned.trans (gapsFrom_name start isWord))
              | false =>
                  cases digit : c.isDigit with
                  | true => exact one (aligned.trans (gapsFrom_digit digit))
                  | false => exact one (aligned.trans (gapsFrom_foreign part start digit))

/-- A name of the guest language, as the lexer reads it before `behind`. -/
structure GuestName (name : String) (behind : List Char) : Prop where
  start : ∃ first others, name.toList = first :: others ∧ Cursor.isNameStart first = true
  names : ∀ c ∈ name.toList, Cursor.isNameChar c = true
  stops : Stops Cursor.isNameChar behind

/-- Where the scanner sees the word along a lexeme. -/
inductive Seen (word : String) (behind : List Char) : Lexeme → List (Option Char) → Prop
  | nowhere (lexeme : Lexeme) {gaps : List (Option Char)} (no : none ∉ gaps) :
      Seen word behind lexeme gaps
  | whole (isName : GuestName word behind) : Seen word behind (.token (wordToken word)) [none]
  /-- In a name that has a character outside of the basic alphabet. -/
  | inside {name : String} {gaps : List (Option Char)} {c : Char} (isName : GuestName name behind)
      (foreign : 128 ≤ c.toNat) (member : some c ∈ gaps)
      (spelled : fill word.toList gaps = name.toList) :
      Seen word behind (.token (wordToken name)) gaps

theorem none_notMem_map (chars : List Char) : none ∉ chars.map some := by simp

theorem mem_fill {c : Char} {chars : List Char} {gaps : List (Option Char)}
    (member : c ∈ fill chars gaps) (noWord : c ∉ chars) : some c ∈ gaps := by
  simp only [fill, List.mem_flatMap] at member
  obtain ⟨gap, inGaps, member⟩ := member
  cases gap with
  | none => exact absurd member noWord
  | some d =>
      rw [List.mem_singleton.mp member]
      exact inGaps

theorem gapsFrom_readName (basic : ∀ c ∈ word.toList, c.toNat < 128) {name : String}
    (isName : GuestName name rest) (run : Run) :
    ∃ run' gaps, gapsFrom word run (name.toList ++ rest) = gaps ++ gapsFrom word run' rest ∧
      fill word.toList gaps = name.toList ∧ Seen word rest (.token (wordToken name)) gaps := by
  obtain ⟨⟨first, others, chars, start⟩, names, stops⟩ := id isName
  by_cases foreign : ∃ c ∈ name.toList, 128 ≤ c.toNat
  · obtain ⟨c, member, foreign⟩ := foreign
    obtain ⟨run', gaps, goesOn, filled⟩ := gapsFrom_names word stops _ _ (Nat.le_refl _) names run
    have noWord : c ∉ word.toList := by
      intro inWord
      have small := basic c inWord
      omega
    exact ⟨run', gaps, goesOn, filled,
      .inside isName foreign (mem_fill (filled ▸ member) noWord) filled⟩
  · have plain : ∀ c ∈ name.toList, isNameChar c = true := by
      intro c member
      exact isNameChar_narrower (Nat.lt_of_not_le fun large => foreign ⟨c, member, large⟩)
        (names c member)
    rw [chars] at names plain ⊢
    cases takes : run.takes first with
    | true =>
        have all : ∀ c ∈ first :: others, run.takes c = true := by
          intro c member
          cases run with
          | nothing => cases takes
          | number => simp [Run.takes, isNumberChar, plain c member]
          | name => exact plain c member
        exact ⟨run, _, gapsFrom_all all, fill_map _ _, .nowhere _ (none_notMem_map _)⟩
    | false =>
        have basicFirst : first.toNat < 128 :=
          Nat.lt_of_not_le fun large => foreign ⟨first, by simp [chars], large⟩
        have run_ : (others ++ rest).takeWhile isNameChar = others := by
          rw [takeWhile_append_stops stops.narrower, List.takeWhile_eq_self_iff]
          exact fun c member => plain c (List.mem_cons_of_mem first member)
        have starts := isNameStart_narrower basicFirst start
        rw [List.cons_append, gapsFrom_stops word _ takes]
        by_cases isWord : first :: others = word.toList
        · obtain rfl : name = word := String.toList_injective (chars.trans isWord)
          refine ⟨.nothing, [none], ?_, by simp [chars], .whole isName⟩
          rw [gapsFrom_word starts (by rw [run_, isWord]), dropWhile_append_stops stops.narrower,
            List.dropWhile_eq_nil_iff.mpr fun c member =>
              plain c (List.mem_cons_of_mem first member)]
          rfl
        · refine ⟨.name, (first :: others).map some, ?_, fill_map _ _,
            .nowhere _ (none_notMem_map _)⟩
          rw [gapsFrom_name starts (by rw [run_]; exact isWord), gapsFrom_all]
          · rfl
          · exact fun c member => plain c (List.mem_cons_of_mem first member)

/-! ## Steps -/

/-- What a step takes leaves a gap only where it reads a name.  Behind a number the scanner is in
the middle of a piece. -/
structure Follows (word : String) (run : Run) (chars : List Char) (lexeme : Lexeme)
    (taken behind : List Char) (run' : Run) (gaps : List (Option Char)) : Prop where
  goesOn : gapsFrom word run chars = gaps ++ gapsFrom word run' behind
  filled : fill word.toList gaps = taken
  seen : Seen word behind lexeme gaps
  fits : run' = .name → ∀ d, behind.head? = some d → d.isDigit = false
  inPiece : lexeme.isNumber = true → run' ≠ .nothing

theorem Follows.unseen {run' : Run} {lexeme : Lexeme} {chars taken behind : List Char}
    (goesOn : gapsFrom word run chars = taken.map some ++ gapsFrom word run' behind)
    (fits : run' = .name → ∀ d, behind.head? = some d → d.isDigit = false)
    (inPiece : lexeme.isNumber = true → run' ≠ .nothing) :
    Follows word run chars lexeme taken behind run' (taken.map some) :=
  ⟨goesOn, fill_map _ _, .nowhere _ (none_notMem_map _), fits, inPiece⟩

theorem Follows.piece {lexeme : Lexeme} {first : Char} {others behind : List Char}
    {cut : Piece × List Char} (one : firstPiece rest.length first rest = cut)
    (noWord : cut.1.kind ≠ .name) (leaves : cut.2 = behind)
    (noPart : Cursor.isNameChar first = false) (noPoint : first ≠ '.')
    (whole : rest = others ++ behind) (noNumber : lexeme.isNumber = false) :
    Follows word run (first :: rest) lexeme (first :: others) behind .nothing
      ((first :: others).map some) := by
  refine .unseen ?_ (by simp) (by simp [noNumber])
  rw [gapsFrom_stops word _ (run.takes_of_plain noPart noPoint)]
  rw [← one] at noWord leaves
  exact gapsFrom_piece (noWord_of_kind noWord) leaves (congrArg (first :: ·) whole)

theorem Follows.space {lexeme : Lexeme} {first : Char} {others behind : List Char}
    (space : isSpace first = true) (noPart : Cursor.isNameChar first = false)
    (noPoint : first ≠ '.')
    (leaves : rest = behind) (whole : rest = others ++ behind)
    (noNumber : lexeme.isNumber = false) :
    Follows word run (first :: rest) lexeme (first :: others) behind .nothing
      ((first :: others).map some) := by
  have one : firstPiece rest.length first rest = (⟨.blank, [first]⟩, rest) := by
    simp [firstPiece, space]
  exact .piece one (by simp) leaves noPart noPoint whole noNumber

theorem isNumber_wordToken (name : String) : (Lexeme.token (wordToken name)).isNumber = false := by
  unfold wordToken
  split <;> rfl

theorem follows_name (basic : ∀ c ∈ word.toList, c.toNat < 128) {cur : Cursor} {first : Char}
    {others : List Char} (text : cur.rest = first :: rest)
    (start : Cursor.isNameStart first = true)
    (passes : cur.Passes (first :: others) cur.readName.2) (run : Run) :
    ∃ run' gaps, Follows word run (first :: rest) cur.readName.1 (first :: others)
      cur.readName.2.rest run' gaps := by
  have stops : Stops Cursor.isNameChar cur.readName.2.rest := by
    rw [show cur.readName.2.rest = _ from Cursor.readWhile_rest cur Cursor.isNameChar]
    exact stops_dropWhile Cursor.isNameChar cur.rest
  have taken : cur.rest.takeWhile Cursor.isNameChar = first :: others := by
    have ran : cur.Passes (cur.rest.takeWhile Cursor.isNameChar) cur.readName.2 :=
      Cursor.passes_skip List.takeWhile_append_dropWhile.symm
    exact List.append_cancel_right (ran.1.symm.trans passes.1)
  let name := String.ofList (first :: others)
  have chars : name.toList = first :: others := String.toList_ofList
  have names : ∀ c ∈ name.toList, Cursor.isNameChar c = true := by
    intro c member
    rw [chars, ← taken] at member
    exact List.mem_takeWhile_imp member
  have lexeme : cur.readName.1 = .token (wordToken name) := by
    rw [readName_token, taken]
  obtain ⟨run', gaps, goesOn, filled, seen⟩ :=
    gapsFrom_readName basic ⟨⟨first, others, chars, start⟩, names, stops⟩ run
  rw [chars, ← passes.1, text] at goesOn
  rw [lexeme]
  refine ⟨run', gaps, goesOn, filled.trans chars, seen, fun _ d next => ?_, ?_⟩
  · have noPart := stops d next
    simp only [Cursor.isNameChar, Char.isAlphanum, Bool.or_eq_false_iff] at noPart
    exact noPart.1.2.2
  · simp [isNumber_wordToken]

theorem follows_mark {cur after : Cursor} {first : Char} {lexeme : Lexeme} {others : List Char}
    (text : cur.rest = first :: rest)
    (noComment : first = '/' → rest.head? ≠ some '/' ∧ rest.head? ≠ some '*')
    (read : cur.readMark first = .ok (lexeme, after)) (passes : cur.Passes (first :: others) after)
    (run : Run) :
    ∃ run' gaps,
      Follows word run (first :: rest) lexeme (first :: others) after.rest run' gaps := by
  unfold Cursor.readMark at read
  split at read
  · rename_i m length found
    cases read
    rw [text] at found
    have parts : (first :: rest).take length ++ (first :: rest).drop length =
        (first :: others) ++ (cur.skip length).rest := by
      rw [List.take_append_drop, ← text, passes.1]
    rw [Cursor.skip_rest, text] at parts
    obtain ⟨run', noName, goesOn⟩ := gapsFrom_mark word found noComment run
    rw [List.append_cancel_right parts] at goesOn
    refine ⟨run', _, .unseen ?_ (absurd · noName) (by rintro ⟨⟩)⟩
    rw [Cursor.skip_rest, text]
    exact goesOn
  · cases read

section

variable (begins : ∀ c, word.toList.head? = some c → isNumberLetter c = false)
  (basic : ∀ c ∈ word.toList, c.toNat < 128) {bound : Nat} {cur after : Cursor} {first : Char}
  {lexeme : Lexeme} {others : List Char}
include begins

theorem follows_number (text : cur.rest = first :: rest)
    (start : first.isDigit = true ∨ first = '.' ∧ ∃ d, rest.head? = some d ∧ d.isDigit = true)
    (read : cur.readNumber = .ok (lexeme, after)) (passes : cur.Passes (first :: others) after)
    (fits : run = .name → first.isDigit = false) :
    ∃ run' gaps,
      Follows word run (first :: rest) lexeme (first :: others) after.rest run' gaps := by
  obtain ⟨run', inPiece, noDigit, goesOn⟩ := gapsFrom_readNumber begins text start read passes fits
  exact ⟨run', _, .unseen goesOn (fun _ => noDigit) fun _ => inPiece⟩

include basic

theorem follows_step (text : cur.rest = first :: rest)
    (step : cur.step bound first = .ok (lexeme, after))
    (passes : cur.Passes (first :: others) after)
    (fits : run = .name → first.isDigit = false) :
    ∃ run' gaps,
      Follows word run (first :: rest) lexeme (first :: others) after.rest run' gaps := by
  have whole : rest = others ++ after.rest := (List.cons.inj (text.symm.trans passes.1)).2
  have skipped : (cur.skip 1).rest = rest := by simp [Cursor.skip, text]
  unfold Cursor.step at step
  split at step
  · rename_i line
    subst line
    cases step
    exact ⟨_, _, .space rfl rfl (by decide) skipped.symm whole rfl⟩
  split at step
  · rename_i space
    cases step
    simp only [Bool.or_eq_true, decide_eq_true_eq] at space
    obtain (rfl | rfl) | rfl := space <;>
      exact ⟨_, _, .space rfl rfl (by decide) skipped.symm whole rfl⟩
  split at step
  · rename_i digit
    exact follows_number begins text (.inl digit) step passes fits
  split at step
  · rename_i quote
    subst quote
    obtain ⟨value, spelled, rfl, piece⟩ := interpretedPiece_agrees text step
    have one : firstPiece rest.length '"' rest = interpretedPiece rest.length rest := by
      simp [firstPiece, isSpace]
    exact ⟨_, _, .piece (one.trans piece) (by simp) rfl rfl (by decide) whole rfl⟩
  split at step
  · rename_i quote
    subst quote
    obtain ⟨value, spelled, rfl, piece⟩ := rawPiece_agrees text step
    have one : firstPiece rest.length '\x60' rest = rawPiece rest := by
      simp [firstPiece, isSpace]
    exact ⟨_, _, .piece (one.trans piece) (by simp) rfl rfl (by decide) whole rfl⟩
  split at step
  · rename_i quote
    subst quote
    obtain ⟨⟨c, rfl⟩, leaves⟩ := runePiece_agrees text step
    have one : firstPiece rest.length '\'' rest = runePiece rest := by
      simp [firstPiece, isSpace]
    exact ⟨_, _, .piece one (by simp [runePiece]) leaves rfl (by decide) whole rfl⟩
  split at step
  · rename_i start
    obtain ⟨rfl, rfl⟩ : cur.readName.1 = lexeme ∧ cur.readName.2 = after :=
      ⟨congrArg Prod.fst (Except.ok.inj step), congrArg Prod.snd (Except.ok.inj step)⟩
    exact follows_name basic text start passes run
  rename_i noName
  split at step
  · rename_i tail comment
    cases step
    rw [text, List.cons.injEq] at comment
    obtain ⟨rfl, rfl⟩ := comment
    have one : firstPiece ('/' :: tail).length '/' ('/' :: tail) =
        runPiece .blank '/' (· ≠ '\n') ('/' :: tail) := by
      simp [firstPiece, isSpace, isNameStart_slash, Char.isDigit]
    refine ⟨_, _, .piece one (by simp [runPiece]) ?_ rfl (by decide) whole rfl⟩
    rw [Cursor.readWhile_rest, text]
    rfl
  · rename_i tail comment
    rw [text, List.cons.injEq] at comment
    obtain ⟨rfl, rfl⟩ := comment
    split at step
    · cases step
    · rename_i length closed
      cases step
      have one : firstPiece ('*' :: tail).length '/' ('*' :: tail) = blockCommentPiece tail := by
        simp [firstPiece, isSpace, isNameStart_slash, Char.isDigit]
      have long := Cursor.commentLength_ge closed
      have leaves : (blockCommentPiece tail).2 = tail.drop (length - 2) :=
        readBlockComment_rest closed _
      refine ⟨_, _, .piece one (by simp [blockCommentPiece]) ?_ rfl (by decide) whole ?_⟩
      · rw [leaves, Cursor.skip_rest, text, show length = length - 2 + 2 by omega]
        rfl
      · split <;> rfl
  · rename_i d tail point
    rw [text, List.cons.injEq] at point
    obtain ⟨rfl, rfl⟩ := point
    split at step
    · rename_i digit
      exact follows_number begins text (.inr ⟨rfl, d, rfl, digit⟩) step passes fits
    · exact follows_mark text (by rintro ⟨⟩) step passes run
  · rename_i noLine noBlock _
    refine follows_mark text ?_ step passes run
    rintro rfl
    refine ⟨fun is => ?_, fun is => ?_⟩
    · obtain ⟨tail, rfl⟩ := List.head?_eq_some_iff.mp is
      exact absurd text (noLine tail)
    · obtain ⟨tail, rfl⟩ := List.head?_eq_some_iff.mp is
      exact absurd text (noBlock tail)

end

end SandboxedGo.Submission
