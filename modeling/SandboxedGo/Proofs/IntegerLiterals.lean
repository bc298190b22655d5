import SandboxedGo.Proofs.HiddenAlias
import SandboxedGo.Proofs.IntegerTexts
import SandboxedGo.Proofs.Literals
import SandboxedGo.Proofs.Lookahead

/-!
# Integer literals read by the library

The lexer reads the integer literals of a program, and the library reads the texts that a program
asks it to, with the base taken from the text.  The two agree on hexadecimal literals, and on digits
in front of which no zero stands and between which no separator does.  Behind a leading zero the
digits are decimal for the lexer and octal for the library, so that only what is less than eight
comes out alike.  Main statement: `literal_parses_iff`.
-/

set_option autoImplicit false

namespace SandboxedGo

/-! ## Literals of a program -/

namespace Source

/-- A character of a decimal integer. -/
def Cursor.isDigitPart (c : Char) : Bool := c.isDigit || c = '_'

theorem Cursor.step_digit {first : Char} (digit : first.isDigit = true) (cur : Cursor)
    (bound : Nat) : cur.step bound first = cur.readNumber := by
  have plain : ∀ d : Char, d.isDigit = false → first ≠ d := by
    rintro d no rfl
    rw [no] at digit
    cases digit
  have noBlank : (first = ' ' || first = '\t' || first = '\r') = false := by
    simp [plain ' ' rfl, plain '\t' rfl, plain '\r' rfl]
  unfold Cursor.step
  rw [if_neg (plain '\n' rfl), if_neg (by simp [noBlank]), if_pos digit]

theorem Cursor.numberChars_parts {chars : List Char}
    (parts : ∀ c ∈ chars, isDigitPart c = true) : numberChars false chars = (chars, false) := by
  induction chars with
  | nil => rfl
  | cons c chars ih =>
      rw [numberChars_digit (parts c List.mem_cons_self),
        ih fun d member => parts d (List.mem_cons_of_mem c member)]

section

variable {mayEnd : Bool} {first : Char} {rest : List Char} {t : Token} {ts : List Token}

theorem reads_here (reads : Reads mayEnd (first :: rest) (t :: ts))
    (isToken : ∀ {bound : Nat} {cur after : Cursor} {lexeme : Lexeme},
      cur.rest = first :: rest → cur.step bound first = .ok (lexeme, after) →
        ∃ u, lexeme = .token u) :
    ∃ (bound : Nat) (cur after : Cursor), cur.rest = first :: rest ∧
      cur.step bound first = .ok (.token t, after) ∧ Reads t.endsStatement after.rest ts := by
  generalize all : t :: ts = read at reads
  cases reads with
  | token chars step more =>
      cases all
      exact ⟨_, _, _, chars, step, more⟩
  | newline chars step _ =>
      obtain ⟨_, isToken⟩ := isToken chars step
      cases isToken
  | endOfLine chars step _ =>
      obtain ⟨_, isToken⟩ := isToken chars step
      cases isToken
  | blank chars step _ =>
      obtain ⟨_, isToken⟩ := isToken chars step
      cases isToken

theorem reads_digit (digit : first.isDigit = true)
    (reads : Reads mayEnd (first :: rest) (t :: ts)) :
    ∃ cur after : Cursor, cur.rest = first :: rest ∧ cur.readNumber = .ok (.token t, after) ∧
      Reads t.endsStatement after.rest ts := by
  obtain ⟨bound, cur, after, chars, step, more⟩ := reads_here reads fun _ step => by
    rw [Cursor.step_digit digit] at step
    have number := Cursor.isNumber_of_readNumber step
    unfold Lexeme.isNumber at number
    split at number
    · exact ⟨_, rfl⟩
    · exact ⟨_, rfl⟩
    · cases number
  rw [Cursor.step_digit digit] at step
  exact ⟨cur, after, chars, step, more⟩

theorem reads_nameStart (start : Cursor.isNameStart first = true)
    (reads : Reads mayEnd (first :: rest) (t :: ts)) : ∃ word, t = Submission.wordToken word := by
  have isName {bound : Nat} {cur after : Cursor} {lexeme : Lexeme}
      (step : cur.step bound first = .ok (lexeme, after)) :
      ∃ word, lexeme = .token (Submission.wordToken word) := by
    rw [Submission.step_nameStart start] at step
    have is : cur.readName.1 = lexeme := congrArg Prod.fst (Except.ok.inj step)
    exact ⟨_, is.symm.trans (Submission.readName_token cur)⟩
  obtain ⟨_, _, _, _, step, _⟩ := reads_here reads fun _ step => by
    obtain ⟨word, is⟩ := isName step
    exact ⟨_, is⟩
  obtain ⟨word, is⟩ := isName step
  cases is
  exact ⟨word, rfl⟩

theorem reads_sign (sign : first = '+' ∨ first = '-')
    (reads : Reads mayEnd (first :: rest) (t :: ts)) : ∃ m, t = .mark m := by
  have isMark {bound : Nat} {cur after : Cursor} {lexeme : Lexeme}
      (chars : cur.rest = first :: rest) (step : cur.step bound first = .ok (lexeme, after)) :
      ∃ m, lexeme = .token (.mark m) := by
    have read : cur.readMark first = .ok (lexeme, after) := by
      rw [← step]
      rcases sign with rfl | rfl <;> exact (Cursor.step_mark chars (by decide) nofun nofun).symm
    unfold Cursor.readMark at read
    split at read
    · cases read
      exact ⟨_, rfl⟩
    · cases read
  obtain ⟨_, _, _, chars, step, _⟩ := reads_here reads fun chars step => by
    obtain ⟨m, is⟩ := isMark chars step
    exact ⟨_, is⟩
  obtain ⟨m, is⟩ := isMark chars step
  cases is
  exact ⟨m, rfl⟩

/-! ### Values -/

theorem toInt_ofNat {n : Nat} (fits : ¬Cursor.greatestInt < n) : (Int64.ofNat n).toInt = n :=
  Int64.toInt_ofNat_of_lt (by unfold Cursor.greatestInt at fits; omega)

theorem hexadecimal_value {x : Char} {digits : List Char} {v : Int64} (letter : x = 'x' ∨ x = 'X')
    (parts : ∀ c ∈ digits, Cursor.isHexPart c = true)
    (reads : Reads mayEnd ('0' :: x :: digits) (.int v :: ts)) :
    digits.filter (· ≠ '_') ≠ [] ∧ v.toInt = Cursor.hexNumber (digits.filter (· ≠ '_')) := by
  obtain ⟨cur, after, chars, read, _⟩ := reads_digit (by decide) reads
  have written := ((Cursor.readNumber_hex chars letter).mp read).1
  rw [List.takeWhile_eq_self_iff.mpr parts] at written
  unfold Cursor.hexLexeme? at written
  dsimp only at written
  split at written
  · cases written
  · rename_i fits
    cases written
    simp only [Bool.or_eq_true, decide_eq_true_eq, not_or, List.isEmpty_iff] at fits
    exact ⟨fits.1, toInt_ofNat fits.2⟩

theorem decimal_value {v : Int64} (digit : first.isDigit = true)
    (parts : ∀ c ∈ first :: rest, Cursor.isDigitPart c = true)
    (reads : Reads mayEnd (first :: rest) (.int v :: ts)) :
    v.toInt = Decimal.naturalOf ((first :: rest).filter (· ≠ '_')) := by
  obtain ⟨cur, after, chars, read, _⟩ := reads_digit digit reads
  have noHex : Cursor.beginsHex cur.rest = false := by
    refine Bool.not_eq_true _ ▸ fun hex => ?_
    obtain ⟨x, tail, text, letter⟩ := Cursor.beginsHex_cases hex
    have part := parts x (by rw [← chars, text]; simp)
    rcases letter with rfl | rfl <;> cases part
  have written := ((Cursor.readNumber_decimal noHex).mp read).1
  rw [chars, Cursor.numberChars_parts parts] at written
  simp only [Cursor.decimalLexeme?, Bool.false_eq_true, if_false] at written
  split at written
  · cases written
  · rename_i fits
    cases written
    exact toInt_ofNat fits

/-- Behind a zero, a letter that is no part of the literal begins a name. -/
theorem not_reads_lettered {x : Char} {v : Int64} {m : Mark} (start : Cursor.isNameStart x = true)
    (noPart : ∀ more, Cursor.numberChars false (x :: more) = ([], false))
    (noHex : ¬(x = 'x' ∨ x = 'X')) :
    ¬Reads mayEnd ('0' :: x :: rest) (.int v :: .mark m :: ts) := by
  intro reads
  obtain ⟨cur, after, chars, read, more⟩ := reads_digit (by decide) reads
  have decimal : Cursor.beginsHex cur.rest = false := by
    rw [chars]
    simpa [Cursor.beginsHex] using noHex
  have passes := ((Cursor.readNumber_decimal decimal).mp read).2
  rw [chars, Cursor.numberChars_digit (by decide), noPart] at passes
  have left : after.rest = x :: rest := (List.cons.inj (chars.symm.trans passes.1)).2.symm
  rw [left] at more
  obtain ⟨word, is⟩ := reads_nameStart start more
  unfold Submission.wordToken at is
  split at is <;> cases is

end

end Source

/-! ## Digits in two bases -/

namespace Text

theorem digitValue_decimal {base d : Nat} {c : Char} (small : base ≤ 10)
    (value : digitValue? base c = some d) : c.isDigit = true ∧ d = c.toNat - '0'.toNat := by
  have below := digitValue_lt value
  obtain ⟨given, _⟩ := Option.filter_eq_some_iff.mp value
  split at given
  · rename_i digit
    exact ⟨digit, (Option.some.inj given).symm⟩
  -- The letters are digits from ten on.
  split at given
  · have ten := Option.some.inj given
    omega
  split at given
  · have ten := Option.some.inj given
    omega
  · cases given

theorem isHexDigit_of_value {d : Nat} {c : Char} (value : digitValue? 16 c = some d) :
    Source.Cursor.isHexDigit c = true := by
  have below := digitValue_lt value
  obtain ⟨given, _⟩ := Option.filter_eq_some_iff.mp value
  simp only [Source.Cursor.isHexDigit, Bool.or_eq_true, Bool.and_eq_true, decide_eq_true_eq]
  split at given
  · rename_i digit
    exact .inl (.inl digit)
  split at given
  · rename_i lower
    simp only [Bool.and_eq_true, decide_eq_true_eq] at lower
    have ten := Option.some.inj given
    have least : 'a'.toNat ≤ c.toNat := lower.1
    have most : c.toNat ≤ 'f'.toNat := by
      have span : 'f'.toNat = 'a'.toNat + 5 := by decide
      omega
    exact .inl (.inr ⟨lower.1, most⟩)
  split at given
  · rename_i upper
    simp only [Bool.and_eq_true, decide_eq_true_eq] at upper
    have ten := Option.some.inj given
    have most : c.toNat ≤ 'F'.toNat := by
      have span : 'F'.toNat = 'A'.toNat + 5 := by decide
      omega
    exact .inr ⟨upper.1, most⟩
  · cases given

theorem numeral_hexadecimal {digits : List Char} (some_ : digits ≠ [])
    (each : ∀ c ∈ digits, Source.Cursor.isHexDigit c = true) :
    Numeral 16 digits (Source.Cursor.hexNumber digits) :=
  numeral_of_values _ some_ fun c member => Submission.digitValue_hexDigit (each c member)

theorem values_base {base base' : Nat} {digits : List Char} {ds : List Nat}
    (values : digits.map (digitValue? base) = ds.map some) (below : ∀ d ∈ ds, d < base') :
    digits.map (digitValue? base') = ds.map some := by
  induction digits generalizing ds with
  | nil => exact values
  | cons c digits ih =>
      cases ds with
      | nil => cases values
      | cons d ds =>
          obtain ⟨value, values⟩ := List.cons.inj values
          have rest := ih values fun e member => below e (List.mem_cons_of_mem d member)
          rw [List.map_cons, List.map_cons, rest,
            digitValue_base value (below d List.mem_cons_self)]

theorem values_lt {base : Nat} {digits : List Char} {ds : List Nat}
    (values : digits.map (digitValue? base) = ds.map some) : ∀ d ∈ ds, d < base := by
  intro d member
  have given : some d ∈ digits.map (digitValue? base) := values ▸ List.mem_map_of_mem member
  obtain ⟨c, _, value⟩ := List.mem_map.mp given
  exact digitValue_lt value

/-- From the left, digits of ten overtake those of eight and stay ahead. -/
theorem octal_lt_decimal (ds : List Nat) {a b : Nat} (less : a < b) :
    ds.foldl (fun n d => 8 * n + d) a < ds.foldl (fun n d => 10 * n + d) b := by
  induction ds generalizing a b with
  | nil => exact less
  | cons d ds ih => exact ih (show 8 * a + d < 10 * b + d by omega)

/-- The two only agree as long as nothing but zeros has been read. -/
theorem small_of_octal_eq {ds : List Nat} {a : Nat} (start : a < 8) (below : ∀ d ∈ ds, d < 8)
    (same : ds.foldl (fun n d => 8 * n + d) a = ds.foldl (fun n d => 10 * n + d) a) :
    ds.foldl (fun n d => 10 * n + d) a < 8 := by
  induction ds generalizing a with
  | nil => exact start
  | cons d ds ih =>
      simp only [List.foldl_cons] at same ⊢
      have zero : a = 0 := by
        by_contra positive
        have ahead := octal_lt_decimal ds (show 8 * a + d < 10 * a + d by omega)
        exact absurd same (Nat.ne_of_lt ahead)
      subst zero
      simp only [Nat.mul_zero, Nat.zero_add] at same ⊢
      exact ih (below d List.mem_cons_self)
        (fun e member => below e (List.mem_cons_of_mem d member)) same

theorem octal_of_small {ds : List Nat} {a : Nat}
    (small : ds.foldl (fun n d => 10 * n + d) a < 8) : (∀ d ∈ ds, d < 8) ∧
      ds.foldl (fun n d => 8 * n + d) a = ds.foldl (fun n d => 10 * n + d) a := by
  induction ds generalizing a with
  | nil => exact ⟨nofun, rfl⟩
  | cons d ds ih =>
      rw [List.foldl_cons] at small
      have grows := Library.le_foldl_digits (show 0 < 10 by decide) ds (10 * a + d)
      have zero : a = 0 := by omega
      subst zero
      obtain ⟨below, same⟩ := ih small
      refine ⟨?_, same⟩
      intro e member
      rcases List.mem_cons.mp member with rfl | later
      · omega
      · exact below e later

/-- What is less than eight in base ten is the same number in base eight. -/
theorem Numeral.octal {digits : List Char} {n : Nat} (decimal : Numeral 10 digits n)
    (small : n < 8) : Numeral 8 digits n := by
  obtain ⟨some_, ds, values, rfl⟩ := decimal
  rw [ofDigits_reverse] at small ⊢
  obtain ⟨below, same⟩ := octal_of_small small
  exact ⟨some_, ds, values_base values below, by rw [ofDigits_reverse, same]⟩

theorem Numeral.small {digits : List Char} {n : Nat} (decimal : Numeral 10 digits n)
    (octal : Numeral 8 digits n) : n < 8 := by
  obtain ⟨some_, ds, values, is⟩ := octal
  have below := values_lt values
  have wider : digits.map (digitValue? 10) = ds.map some :=
    values_base values fun d member => Nat.lt_trans (below d member) (by decide)
  have value := decimal.unique ⟨some_, ds, wider, rfl⟩
  rw [ofDigits_reverse] at is value
  rw [value]
  exact small_of_octal_eq (by decide) below (is.symm.trans value)

end Text

/-! ## Texts in the base that they begin with -/

namespace Library

open Source (Cursor Reads Token Mark)
open Text (Numeral)

/-- The base that a text begins with, and the digits that it takes from there on. -/
def baseDigits (body : List Char) : Nat × List Char :=
  let (base, digits, separated) := splitBase body
  (base, if separated then digits.filter (· ≠ '_') else digits)

theorem readInteger_zero_iff {text : List Char} {w : Int} :
    readInteger text 0 64 = .ok w ↔
      ∃ n, Numeral (baseDigits (Decimal.splitSign text).2).1
          (baseDigits (Decimal.splitSign text).2).2 n ∧
        w = (if (Decimal.splitSign text).1 then -(n : Int) else n) ∧ Fits 64 w := by
  have read : readInteger text 0 64 =
      if (baseDigits (Decimal.splitSign text).2).2.isEmpty then .error (0, .invalidSyntax)
      else signed (Decimal.splitSign text).1 64
        (magnitude (baseDigits (Decimal.splitSign text).2).1 0
          (baseDigits (Decimal.splitSign text).2).2) :=
    readInteger_eq (by decide) (if_pos rfl)
  rw [read]
  generalize baseDigits (Decimal.splitSign text).2 = digits
  generalize (Decimal.splitSign text).1 = negative
  have given {n : Nat} (numeral : Numeral digits.1 digits.2 n) :
      signed negative 64 (magnitude digits.1 0 digits.2) =
        withBits 64 (if negative then -(n : Int) else n) := by
    rw [signed_magnitude negative numeral, ite_self]
  constructor
  · intro taken
    split at taken
    · cases taken
    · rename_i some_
      rcases Text.numeral_or_foreign digits.1 (by simpa using some_) with ⟨n, numeral⟩ | foreign
      · rw [given numeral, withBits] at taken
        by_cases fits : Fits 64 (if negative then -(n : Int) else n)
        · rw [if_pos fits] at taken
          have is := Except.ok.inj taken
          exact ⟨n, numeral, is.symm, is ▸ fits⟩
        · rw [if_neg fits] at taken
          cases taken
      · obtain ⟨fault, failed⟩ := magnitude_foreign 0 foreign
        rw [failed] at taken
        cases fault <;> cases taken
  · rintro ⟨n, numeral, is, fits⟩
    rw [if_neg (by simpa using numeral.some_), given numeral, ← is, withBits, if_pos fits]

/-- The ways in which a text without a sign begins. -/
inductive Based : List Char → Nat × List Char → Prop
  | hexadecimal {x : Char} (letter : x = 'x' ∨ x = 'X') (rest : List Char) :
      Based ('0' :: x :: rest) (16, rest.filter (· ≠ '_'))
  | lettered {x : Char} (letter : x = 'b' ∨ x = 'B' ∨ x = 'o' ∨ x = 'O') (rest : List Char)
      (digits : Nat × List Char) : Based ('0' :: x :: rest) digits
  | padded (c : Char) (rest : List Char) :
      Based ('0' :: c :: rest) (8, (c :: rest).filter (· ≠ '_'))
  | plain {body : List Char} (unpadded : body.head? ≠ some '0' ∨ body = ['0']) :
      Based body (10, body)

theorem based (body : List Char) : Based body (baseDigits body) := by
  unfold baseDigits splitBase
  split
  · rename_i split
    split at split
    all_goals cases split
    · exact .hexadecimal (.inl rfl) _
    · exact .hexadecimal (.inr rfl) _
    · exact .lettered (by simp) _ _
    · exact .lettered (by simp) _ _
    · exact .lettered (by simp) _ _
    · exact .lettered (by simp) _ _
    · exact .padded _ _
    · rename_i unpadded
      cases body with
      | nil => exact .plain (.inl nofun)
      | cons c rest =>
          cases rest with
          | nil =>
              by_cases zero : c = '0'
              · exact .plain (.inr (by rw [zero]))
              · exact .plain (.inl (by simpa using zero))
          | cons d rest =>
              refine .plain (.inl ?_)
              rintro ⟨⟩
              exact unpadded d rest rfl

theorem baseDigits_unpadded {body : List Char} (unpadded : body.head? ≠ some '0' ∨ body = ['0']) :
    baseDigits body = (10, body) := by
  have ways := based body
  generalize baseDigits body = digits at ways
  cases ways with
  | plain => rfl
  | hexadecimal => simp at unpadded
  | lettered => simp at unpadded
  | padded => simp at unpadded

theorem baseDigits_padded {c : Char} (part : Cursor.isDigitPart c = true) (rest : List Char) :
    baseDigits ('0' :: c :: rest) = (8, (c :: rest).filter (· ≠ '_')) := by
  have ways := based ('0' :: c :: rest)
  generalize baseDigits ('0' :: c :: rest) = digits at ways
  cases ways with
  | padded => rfl
  | hexadecimal letter => rcases letter with rfl | rfl <;> cases part
  | lettered letter => rcases letter with rfl | rfl | rfl | rfl <;> cases part
  | plain unpadded => simp at unpadded

/-! ## Spellings -/

/-- The spellings of an integer that the lexer and the library read alike. -/
inductive SharedSpelling (v : Int64) : List Char → Prop
  | hexadecimal {x : Char} {digits : List Char} (letter : x = 'x' ∨ x = 'X')
      (parts : ∀ c ∈ digits, Cursor.isHexPart c = true) : SharedSpelling v ('0' :: x :: digits)
  | decimal {digits : List Char} (each : ∀ c ∈ digits, c.isDigit = true)
      (unpadded : digits.head? ≠ some '0' ∨ digits = ['0']) : SharedSpelling v digits
  | padded {digits : List Char} (parts : ∀ c ∈ digits, Cursor.isDigitPart c = true)
      (some_ : ∃ c ∈ digits, c ≠ '_') (small : v.toInt < 8) : SharedSpelling v ('0' :: digits)

theorem mem_unseparated {c : Char} {digits : List Char} :
    c ∈ digits.filter (· ≠ '_') ↔ c ∈ digits ∧ c ≠ '_' := by
  simp

theorem unseparated_ne_nil {digits : List Char} :
    digits.filter (· ≠ '_') ≠ [] ↔ ∃ c ∈ digits, c ≠ '_' := by
  simp

section

variable {text digits : List Char} {v : Int64} {m : Mark} {ts : List Token}

theorem numeral_unseparated (parts : ∀ c ∈ digits, Cursor.isDigitPart c = true)
    (some_ : ∃ c ∈ digits, c ≠ '_') :
    Numeral 10 (digits.filter (· ≠ '_')) (Decimal.naturalOf (digits.filter (· ≠ '_'))) := by
  refine Text.numeral_decimal (unseparated_ne_nil.mpr some_) fun c member => ?_
  obtain ⟨member, noSeparator⟩ := mem_unseparated.mp member
  simpa [Cursor.isDigitPart, noSeparator] using parts c member

theorem padded_value {mayEnd : Bool} (parts : ∀ c ∈ digits, Cursor.isDigitPart c = true)
    (reads : Reads mayEnd ('0' :: digits) (.int v :: ts)) :
    v.toInt = Decimal.naturalOf (digits.filter (· ≠ '_')) := by
  have whole : ∀ c ∈ '0' :: digits, Cursor.isDigitPart c = true := by
    intro c member
    rcases List.mem_cons.mp member with rfl | later
    · rfl
    · exact parts c later
  exact Source.decimal_value (by decide) whole reads

theorem readInteger_unsigned {base n : Nat} (unsigned : Decimal.splitSign text = (false, text))
    (is : baseDigits text = (base, digits)) (numeral : Numeral base digits n)
    (value : v.toInt = n) : readInteger text 0 64 = .ok v.toInt := by
  refine readInteger_zero_iff.mpr ⟨n, ?_⟩
  rw [unsigned, is]
  exact ⟨numeral, value, v.le_toInt, v.toInt_lt⟩

/-- A literal in such a spelling is read by the library as the integer that it is. -/
theorem readInteger_shared {mayEnd : Bool} (reads : Reads mayEnd text (.int v :: ts))
    (shared : SharedSpelling v text) : readInteger text 0 64 = .ok v.toInt := by
  cases shared with
  | @hexadecimal x digits letter parts =>
      obtain ⟨some_, value⟩ := Source.hexadecimal_value letter parts reads
      have each : ∀ c ∈ digits.filter (· ≠ '_'), Cursor.isHexDigit c = true := by
        intro c member
        obtain ⟨member, noSeparator⟩ := mem_unseparated.mp member
        simpa [Cursor.isHexPart, noSeparator] using parts c member
      have is : baseDigits ('0' :: x :: digits) = (16, digits.filter (· ≠ '_')) := by
        rcases letter with rfl | rfl <;> rfl
      exact readInteger_unsigned rfl is (Text.numeral_hexadecimal some_ each) value
  | decimal each unpadded =>
      cases text with
      | nil => cases reads
      | cons c rest =>
          have parts : ∀ d ∈ c :: rest, Cursor.isDigitPart d = true := by
            intro d member
            simp [Cursor.isDigitPart, each d member]
          have whole : (c :: rest).filter (· ≠ '_') = c :: rest := by
            refine List.filter_eq_self.mpr fun d member => decide_eq_true ?_
            rintro rfl
            cases each '_' member
          have value := Source.decimal_value (each c List.mem_cons_self) parts reads
          rw [whole] at value
          have numeral := Text.numeral_decimal (List.cons_ne_nil c rest) each
          exact readInteger_unsigned (splitSign_unsigned numeral) (baseDigits_unpadded unpadded)
            numeral value
  | @padded digits parts some_ small =>
      have value := padded_value parts reads
      have numeral := (numeral_unseparated parts some_).octal (by omega)
      cases digits with
      | nil => simp at some_
      | cons c rest =>
          exact readInteger_unsigned rfl (baseDigits_padded (parts c List.mem_cons_self) rest)
            numeral value

/-- What the library reads of a literal is spelled like this, or it is the octal value of the digits
behind a leading zero. -/
theorem readInteger_literal {mayEnd : Bool} {w : Int}
    (reads : Reads mayEnd text (.int v :: .mark m :: ts)) (read : readInteger text 0 64 = .ok w) :
    SharedSpelling v text ∨
      ∃ digits n, text = '0' :: digits ∧ (∀ c ∈ digits, Cursor.isDigitPart c = true) ∧
        (∃ c ∈ digits, c ≠ '_') ∧ Numeral 8 (digits.filter (· ≠ '_')) n ∧ w = n := by
  obtain ⟨n, numeral, is, _⟩ := readInteger_zero_iff.mp read
  have unsigned : Decimal.splitSign text = (false, text) := by
    unfold Decimal.splitSign
    split
    · obtain ⟨_, isMark⟩ := Source.reads_sign (.inr rfl) reads
      cases isMark
    · obtain ⟨_, isMark⟩ := Source.reads_sign (.inl rfl) reads
      cases isMark
    · rfl
  rw [unsigned] at numeral is
  dsimp only at numeral is
  have ways := based text
  generalize baseDigits text = taken at ways numeral
  have digit {c : Char} (small : taken.1 ≤ 10) (member : c ∈ taken.2) : c.isDigit = true := by
    obtain ⟨d, value⟩ := Option.ne_none_iff_exists'.mp (numeral.digit member)
    exact (Text.digitValue_decimal small value).1
  cases ways with
  | hexadecimal letter rest =>
      refine .inl (.hexadecimal letter fun c member => ?_)
      by_cases separator : c = '_'
      · simp [Cursor.isHexPart, separator]
      · have hex := numeral.digit (mem_unseparated.mpr ⟨member, separator⟩)
        obtain ⟨d, value⟩ := Option.ne_none_iff_exists'.mp hex
        simp [Cursor.isHexPart, Text.isHexDigit_of_value value]
  | lettered letter rest =>
      refine absurd reads (Source.not_reads_lettered ?_ (fun more => ?_) ?_)
      · rcases letter with rfl | rfl | rfl | rfl <;> decide
      · rcases letter with rfl | rfl | rfl | rfl <;>
          exact Cursor.numberChars_stop (by decide) (by simp) (by decide)
      · rcases letter with rfl | rfl | rfl | rfl <;> decide
  | padded c rest =>
      refine .inr ⟨c :: rest, n, rfl, ?_, unseparated_ne_nil.mp numeral.some_, numeral, is⟩
      intro d member
      by_cases separator : d = '_'
      · simp [Cursor.isDigitPart, separator]
      · have inside := digit (show 8 ≤ 10 by decide) (mem_unseparated.mpr ⟨member, separator⟩)
        simp [Cursor.isDigitPart, inside]
  | plain unpadded =>
      exact .inl (.decimal (fun c member => digit (Nat.le_refl 10) member) unpadded)

end

/-! ## Calls -/

section

variable (ev : Evaluator) (m : Machine)

/-- An integer of sixty-four bits comes out without an error exactly if it is what has been read. -/
theorem integerResult_success (f : StrconvFunction) (text : String)
    {result : Except (Int × NumberFault) Int} (fits : ∀ n, result = .ok n → Fits 64 n)
    (w : Int64) :
    (f.integerResult text result).run ev m = .ok (success (.int w)) m ↔ result = .ok w.toInt := by
  cases result with
  | error e =>
      obtain ⟨id, m', failed⟩ := failed_run ev m f (.int (Int64.ofInt e.1)) text e.2
      have run : (f.integerResult text (.error e)).run ev m = _ := failed
      rw [run]
      simp [success]
  | ok n =>
      have run : (f.integerResult text (.ok n)).run ev m =
          .ok (success (.int (Int64.ofInt n))) m := rfl
      have same : (Int64.ofInt n).toInt = n := by
        obtain ⟨least, most⟩ := fits n rfl
        exact Int64.toInt_ofInt_of_le least most
      rw [run]
      constructor
      · intro is
        cases is
        rw [same]
      · intro is
        cases is
        rw [Int64.ofInt_toInt]

theorem parseInt_zero (text : String) (w : Int64) :
    ((Function.strconv .parseInt).call [.string text, .int 0, .int 64]).run ev m =
      .ok (success (.int w)) m ↔ readInteger text.toList 0 64 = .ok w.toInt := by
  have run : ((Function.strconv .parseInt).call [.string text, .int 0, .int 64]).run ev m =
      (StrconvFunction.integerResult .parseInt text (readInteger text.toList 0 64)).run ev m :=
    parseInt_run ev m text 0 64
  rw [run]
  refine integerResult_success ev m .parseInt text (fun n read => ?_) w
  obtain ⟨_, _, _, fits⟩ := readInteger_zero_iff.mp read
  exact fits

end

/-- An integer literal that is a whole text is parsed, with the base taken from the text, as the
same integer exactly if it is spelled in a way that the lexer and the library share.  If it is
parsed as another one, then the digits behind a leading zero are decimal for the lexer and octal for
the library. -/
theorem literal_parses_iff (ev : Evaluator) (m : Machine) {text : String}
    {tokens : List Source.Located} {v : Int64} (accepted : Source.tokenize text = .ok tokens)
    (single : tokens.map Source.Located.token = [.int v, .mark .semi, .endOfText]) :
    (((Function.strconv .parseInt).call [.string text, .int 0, .int 64]).run ev m =
        .ok (success (.int v)) m ↔ SharedSpelling v text.toList) ∧
    ∀ w, ((Function.strconv .parseInt).call [.string text, .int 0, .int 64]).run ev m =
        .ok (success (.int w)) m → w ≠ v →
      ∃ digits, text.toList = '0' :: digits ∧
        WritesInteger 8 (digits.filter (· ≠ '_')) w.toInt ∧
        WritesInteger 10 (digits.filter (· ≠ '_')) v.toInt := by
  have reads := Source.tokenize_reads accepted
  rw [single] at reads
  have shared := readInteger_shared reads
  constructor
  · rw [parseInt_zero]
    refine ⟨fun read => ?_, shared⟩
    rcases readInteger_literal reads read with spelled | ⟨digits, n, is, parts, some_, octal, value⟩
    · exact spelled
    · rw [is] at reads ⊢
      have decimal := numeral_unseparated parts some_
      have lexed := padded_value parts reads
      rw [← Int.ofNat_inj.mp (lexed.symm.trans value)] at octal
      have small := decimal.small octal
      exact .padded parts some_ (by omega)
  · intro w parsed differs
    have read := (parseInt_zero ev m text w).mp parsed
    rcases readInteger_literal reads read with spelled | ⟨digits, n, is, parts, some_, octal, value⟩
    · have same := Except.ok.inj ((shared spelled).symm.trans read)
      exact absurd (Int64.toInt_inj.mp same.symm) differs
    · rw [is] at reads
      refine ⟨digits, is, ?_, ?_⟩
      · rw [value]
        exact .unsigned octal
      · rw [padded_value parts reads]
        exact .unsigned (numeral_unseparated parts some_)

/-- A hexadecimal literal comes out as it is, and one with a leading zero as another integer. -/
theorem literal_parses_iff_prefixed :
    let ev := Evaluator.ofDepth 0
    let m := Machine.initial {}
    (∃ tokens, Source.tokenize "0X1_f" = .ok tokens ∧
      tokens.map Source.Located.token = [.int 31, .mark .semi, .endOfText] ∧
      ((Function.strconv .parseInt).call [.string "0X1_f", .int 0, .int 64]).run ev m =
        .ok (success (.int 31)) m) ∧
    ∃ tokens, Source.tokenize "010" = .ok tokens ∧
      tokens.map Source.Located.token = [.int 10, .mark .semi, .endOfText] ∧
      ((Function.strconv .parseInt).call [.string "010", .int 0, .int 64]).run ev m =
        .ok (success (.int 8)) m ∧ (8 : Int64) ≠ 10 ∧
      ∃ digits, "010".toList = '0' :: digits ∧
        WritesInteger 8 (digits.filter (· ≠ '_')) (8 : Int64).toInt ∧
        WritesInteger 10 (digits.filter (· ≠ '_')) (10 : Int64).toInt := by
  intro ev m
  have parts : ∀ c ∈ ['1', '_', 'f'], Cursor.isHexPart c = true := List.all_eq_true.mp rfl
  have shared : SharedSpelling 31 "0X1_f".toList := .hexadecimal (.inr rfl) parts
  have parsed : ((Function.strconv .parseInt).call [.string "010", .int 0, .int 64]).run ev m =
      .ok (success (.int 8)) m := rfl
  constructor
  · exact ⟨[⟨.int 31, ⟨1, 1⟩⟩, ⟨.mark .semi, ⟨1, 6⟩⟩, ⟨.endOfText, ⟨1, 6⟩⟩], rfl, rfl,
      (literal_parses_iff ev m rfl rfl).1.mpr shared⟩
  · exact ⟨[⟨.int 10, ⟨1, 1⟩⟩, ⟨.mark .semi, ⟨1, 4⟩⟩, ⟨.endOfText, ⟨1, 4⟩⟩], rfl, rfl, parsed,
      by decide, (literal_parses_iff ev m rfl rfl).2 8 parsed (by decide)⟩

/-- A literal with a leading zero and one with a separator that are not parsed as what they are in a
program. -/
theorem leading_zero_and_separator_differ :
    let ev := Evaluator.ofDepth 0
    let m := Machine.initial {}
    (∃ tokens, Source.tokenize "010" = .ok tokens ∧
      tokens.map Source.Located.token = [.int 10, .mark .semi, .endOfText] ∧
      ((Function.strconv .parseInt).call [.string "010", .int 0, .int 64]).run ev m ≠
        .ok (success (.int 10)) m) ∧
    ∃ tokens, Source.tokenize "1_000" = .ok tokens ∧
      tokens.map Source.Located.token = [.int 1000, .mark .semi, .endOfText] ∧
      ((Function.strconv .parseInt).call [.string "1_000", .int 0, .int 64]).run ev m ≠
        .ok (success (.int 1000)) m := by
  intro ev m
  constructor
  · refine ⟨[⟨.int 10, ⟨1, 1⟩⟩, ⟨.mark .semi, ⟨1, 4⟩⟩, ⟨.endOfText, ⟨1, 4⟩⟩], rfl, rfl, ?_⟩
    rw [Ne, parseInt_zero]
    decide
  · refine ⟨[⟨.int 1000, ⟨1, 1⟩⟩, ⟨.mark .semi, ⟨1, 6⟩⟩, ⟨.endOfText, ⟨1, 6⟩⟩], rfl, rfl, ?_⟩
    rw [Ne, parseInt_zero]
    decide

end Library

end SandboxedGo
