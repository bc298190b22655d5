import Mathlib.Data.List.Find
import SandboxedGo.Proofs.Lexing

/-!
# How far a step of the lexer looks

A step takes some characters and leaves the rest.  It would take the same characters if the text
went on in another way, as long as it could not tell the two apart.  Two names look the same from in
front of them, and nothing looks beyond the end of a line; only a number has to be followed by the
same character.
-/

set_option autoImplicit false

namespace SandboxedGo.Source

open Submission (Stops stops_dropWhile takeWhile_append_stops dropWhile_append_stops)

/-! ## Texts that look alike -/

/-- Two ways in which a text may go on that look the same to what stands in front of them. -/
inductive Alike : List Char → List Char → Prop
  | nil : Alike [] []
  | names {c d : Char} (rest rest' : List Char) (one : Cursor.isNameStart c = true)
      (other : Cursor.isNameStart d = true) : Alike (c :: rest) (d :: rest')
  | newline (rest rest' : List Char) : Alike ('\n' :: rest) ('\n' :: rest')
  | cons (c : Char) {rest rest' : List Char} (more : Alike rest rest') :
      Alike (c :: rest) (c :: rest')

namespace Alike

variable {rest rest' : List Char}

theorem refl : ∀ rest : List Char, Alike rest rest
  | [] => .nil
  | c :: rest => .cons c (refl rest)

theorem append_left (alike : Alike rest rest') :
    ∀ taken : List Char, Alike (taken ++ rest) (taken ++ rest')
  | [] => alike
  | c :: taken => .cons c (append_left alike taken)

/-- What is the same for all beginnings of names is the same for the first characters. -/
theorem head_same {α : Type} {f : Char → α} (alike : Alike rest rest')
    (names : ∀ c d, Cursor.isNameStart c = true → Cursor.isNameStart d = true → f c = f d) :
    rest.head?.map f = rest'.head?.map f := by
  cases alike with
  | nil => rfl
  | names _ _ one other => exact congrArg some (names _ _ one other)
  | newline => rfl
  | cons => rfl

theorem stops {p : Char → Bool} (alike : Alike rest rest')
    (names : ∀ c, Cursor.isNameStart c = true → p c = true) (stops : Stops p rest) :
    Stops p rest' := by
  have same := alike.head_same fun c d one other => (names c one).trans (names d other).symm
  intro d first
  rw [first] at same
  cases before : rest.head? with
  | none => simp [before] at same
  | some c =>
      have no := stops c before
      simp only [before, Option.map_some, Option.some.injEq] at same
      rw [← same, no]

theorem head_iff {c : Char} (alike : Alike rest rest') (noName : Cursor.isNameStart c = false) :
    rest.head? = some c ↔ rest'.head? = some c := by
  have same := alike.head_same (f := fun d => d == c) fun d e one other => by
    have differs : ∀ {d : Char}, Cursor.isNameStart d = true → (d == c) = false := by
      rintro d start
      refine beq_eq_false_iff_ne.mpr ?_
      rintro rfl
      rw [noName] at start
      cases start
    rw [differs one, differs other]
  cases one : rest.head? <;> cases other : rest'.head? <;> simp [one, other] at same ⊢
  exact same

end Alike

theorem not_digit_of_start {c : Char} (start : Cursor.isNameStart c = true) :
    c.isDigit = false := by
  simp only [Cursor.isNameStart, Bool.and_eq_true, Bool.not_eq_true'] at start
  exact start.2

/-- Whether a step has read a number. -/
def Lexeme.isNumber : Lexeme → Bool
  | .token (.int _) | .token (.float _) => true
  | _ => false

namespace Cursor

/-! ## What a reader passes -/

/-- A cursor before some characters and the cursor behind them. -/
def Passes (cur : Cursor) (taken : List Char) (after : Cursor) : Prop :=
  cur.rest = taken ++ after.rest ∧ after.position = taken.foldl Position.after cur.position

theorem passes_skip {cur : Cursor} {taken rest : List Char} (text : cur.rest = taken ++ rest) :
    cur.Passes taken (cur.skip taken.length) := by
  simp [Passes, skip, text]

theorem Passes.eq_skip {cur after : Cursor} {taken : List Char} (passes : cur.Passes taken after) :
    after = cur.skip taken.length := by
  obtain ⟨text, place⟩ := passes
  cases after
  simp only at text place
  simp [skip, text, place]

theorem Passes.unique {cur after after' : Cursor} {taken : List Char}
    (passes : cur.Passes taken after) (again : cur.Passes taken after') : after = after' :=
  passes.eq_skip.trans again.eq_skip.symm

theorem Passes.trans {cur between after : Cursor} {taken more : List Char}
    (first : cur.Passes taken between) (second : between.Passes more after) :
    cur.Passes (taken ++ more) after :=
  ⟨by rw [first.1, second.1, List.append_assoc], by rw [second.2, first.2, List.foldl_append]⟩

theorem Passes.split {cur after : Cursor} {taken more : List Char}
    (passes : cur.Passes (taken ++ more) after) :
    ∃ between, cur.Passes taken between ∧ between.Passes more after := by
  obtain ⟨text, place⟩ := passes
  refine ⟨⟨more ++ after.rest, taken.foldl Position.after cur.position⟩, ⟨?_, rfl⟩, rfl, ?_⟩
  · rw [text, List.append_assoc]
  · rw [place, List.foldl_append]

theorem passes_one {cur : Cursor} {c : Char} {rest : List Char} (text : cur.rest = c :: rest) :
    cur.Passes [c] (cur.skip 1) :=
  passes_skip (show cur.rest = [c] ++ rest from text)

theorem Passes.tail {cur after : Cursor} {c : Char} {more : List Char}
    (passes : cur.Passes (c :: more) after) : (cur.skip 1).Passes more after := by
  obtain ⟨text, place⟩ := passes
  simp [Passes, skip, text, place]

/-! ## Escapes and quotes -/

theorem hexEscape_spans {start : Position} {cur after : Cursor} {letter : Char}
    {rest : List Char} {count code : Nat} (text : cur.rest = letter :: rest)
    (read : hexEscape start cur count = .ok (code, after)) :
    ∃ digits, cur.Passes (letter :: digits) after ∧
      ∀ {start' : Position} {cur' after' : Cursor}, cur'.Passes (letter :: digits) after' →
        hexEscape start' cur' count = .ok (code, after') := by
  unfold hexEscape at read
  dsimp only at read
  split at read
  · rename_i valid
    obtain ⟨long, _⟩ := id valid
    cases read
    rw [text] at valid long ⊢
    rw [List.drop_one, List.tail_cons] at valid long ⊢
    have parts : cur.rest = (letter :: rest.take count) ++ rest.drop count := by
      rw [text, List.cons_append, List.take_append_drop]
    have length : (letter :: rest.take count).length = 1 + count := by
      rw [List.length_cons, long, Nat.add_comm]
    refine ⟨rest.take count, length ▸ passes_skip parts, ?_⟩
    intro start' cur' after' passes
    have same : (cur'.rest.drop 1).take count = rest.take count := by
      rw [passes.1, List.cons_append, List.drop_one, List.tail_cons, List.take_left' long]
    unfold hexEscape
    dsimp only
    rw [same, if_pos valid, passes.eq_skip, length]
  · cases read

theorem unicodeEscape_spans {start : Position} {cur after : Cursor} {letter : Char}
    {rest : List Char} {count : Nat} {bytes : List UInt8} (text : cur.rest = letter :: rest)
    (read : unicodeEscape start cur count = .ok (bytes, after)) :
    ∃ digits, cur.Passes (letter :: digits) after ∧
      ∀ {start' : Position} {cur' after' : Cursor}, cur'.Passes (letter :: digits) after' →
        unicodeEscape start' cur' count = .ok (bytes, after') := by
  unfold unicodeEscape at read
  split at read
  · cases read
  · rename_i hex
    obtain ⟨digits, passes, again⟩ := hexEscape_spans text hex
    split at read
    · rename_i valid
      cases read
      refine ⟨digits, passes, fun passes' => ?_⟩
      unfold unicodeEscape
      simp only [again passes', valid]
    · cases read

theorem readEscape_spans {start : Position} {cur after : Cursor} {bytes : List UInt8}
    (read : readEscape start cur = .ok (bytes, after)) :
    ∃ letter more, cur.Passes (letter :: more) after ∧
      ∀ {start' : Position} {cur' after' : Cursor}, cur'.Passes (letter :: more) after' →
        readEscape start' cur' = .ok (bytes, after') := by
  unfold readEscape at read
  cases text : cur.rest with
  | nil => simp [text] at read
  | cons c rest =>
      simp only [text] at read
      refine ⟨c, ?_⟩
      have begins {more : List Char} {cur' after' : Cursor}
        (passes : cur'.Passes (c :: more) after') :
          cur'.rest = c :: (more ++ after'.rest) := passes.1
      split at read
      · rename_i simple
        cases read
        refine ⟨[], passes_one text, fun passes' => ?_⟩
        simp only [readEscape, begins passes', simple, passes'.eq_skip]
        rfl
      · rename_i simple
        split at read
        · rename_i octal
          split at read
          · rename_i valid
            cases read
            have parts : cur.rest = (c :: rest.take 2) ++ rest.drop 2 := by
              rw [text, List.cons_append, List.take_append_drop]
            have length : (c :: rest.take 2).length = 3 := by rw [List.length_cons, valid.1]
            refine ⟨rest.take 2, length ▸ passes_skip parts, ?_⟩
            intro start' cur' after' passes'
            have same : (rest.take 2 ++ after'.rest).take 2 = rest.take 2 := List.take_left' valid.1
            simp only [readEscape, begins passes', simple, octal, if_true, same]
            rw [if_pos valid, passes'.eq_skip, length]
          · cases read
        · rename_i octal
          split at read
          · rename_i hexadecimal
            split at read
            · cases read
            · rename_i hex
              cases read
              obtain ⟨digits, passes, again⟩ := hexEscape_spans text hex
              refine ⟨digits, passes, fun passes' => ?_⟩
              unfold readEscape
              simp only [begins passes', simple]
              rw [if_neg octal, if_pos hexadecimal, again passes']
          · rename_i hexadecimal
            split at read
            · rename_i short
              obtain ⟨digits, passes, again⟩ := unicodeEscape_spans text read
              refine ⟨digits, passes, fun passes' => ?_⟩
              unfold readEscape
              simp only [begins passes', simple]
              rw [if_neg octal, if_neg hexadecimal, if_pos short, again passes']
            · rename_i short
              split at read
              · rename_i long
                obtain ⟨digits, passes, again⟩ := unicodeEscape_spans text read
                refine ⟨digits, passes, fun passes' => ?_⟩
                unfold readEscape
                simp only [begins passes', simple]
                rw [if_neg octal, if_neg hexadecimal, if_neg short, if_pos long, again passes']
              · cases read

/-- The inside of a literal is read the same whatever follows its closing quote. -/
theorem readQuoted_spans {start : Position} {delimiter : Char} {fault : Fault} :
    ∀ (steps : Nat) (cur : Cursor) (bytes : List UInt8) {result : List UInt8} {after : Cursor},
      readQuoted start delimiter fault steps cur bytes = .ok (result, after) →
      ∃ taken, cur.Passes taken after ∧
        ∀ {start' : Position} {fault' : Fault} {steps' : Nat} {cur' after' : Cursor},
          cur'.Passes taken after' → taken.length ≤ steps' →
          readQuoted start' delimiter fault' steps' cur' bytes = .ok (result, after') := by
  intro steps
  induction steps with
  | zero =>
      intro cur bytes result after read
      simp [readQuoted] at read
  | succ steps ih =>
      intro cur bytes result after read
      unfold readQuoted at read
      cases text : cur.rest with
      | nil => simp [text] at read
      | cons c rest =>
          simp only [text] at read
          -- Each case passes `c` and perhaps more; the steps of the other reading cover that.
          have oneStep {more : List Char} {steps' : Nat} (enough : (c :: more).length ≤ steps') :
              ∃ fewer, steps' = fewer + 1 ∧ more.length ≤ fewer := by
            rw [List.length_cons] at enough
            exact ⟨steps' - 1, by omega, by omega⟩
          split at read
          · cases read
          rename_i line
          split at read
          · rename_i quote
            cases read
            refine ⟨[c], passes_one text, ?_⟩
            intro start' fault' steps' cur' after' passes' enough
            obtain ⟨steps', rfl, _⟩ := oneStep enough
            simp only [readQuoted, passes'.1, List.cons_append, if_neg line, if_pos quote,
              passes'.eq_skip]
            rfl
          rename_i quote
          split at read
          · rename_i slash
            split at read
            · cases read
            · rename_i escaped
              obtain ⟨letter, more, passes, again⟩ := readEscape_spans escaped
              obtain ⟨taken, passesOn, onAgain⟩ := ih _ _ read
              refine ⟨c :: (letter :: more ++ taken),
                (passes_one text).trans (passes.trans passesOn), ?_⟩
              intro start' fault' steps' cur' after' passes' enough
              obtain ⟨steps', rfl, fits⟩ := oneStep enough
              have whole : (cur'.skip 1).Passes ((letter :: more) ++ taken) after' := passes'.tail
              obtain ⟨between, escape, last⟩ := whole.split
              rw [List.length_append] at fits
              simp only [readQuoted, passes'.1, List.cons_append, if_neg line, if_neg quote,
                if_pos slash, again escape]
              exact onAgain last (by omega)
          · rename_i slash
            obtain ⟨taken, passesOn, onAgain⟩ := ih _ _ read
            refine ⟨c :: taken, (passes_one text).trans passesOn, ?_⟩
            intro start' fault' steps' cur' after' passes' enough
            obtain ⟨steps', rfl, fits⟩ := oneStep enough
            simp only [readQuoted, passes'.1, List.cons_append, if_neg line, if_neg quote,
              if_neg slash]
            exact onAgain passes'.tail fits

theorem readString_spans {bound : Nat} {cur after : Cursor} {lexeme : Lexeme} {rest : List Char}
    (text : cur.rest = '"' :: rest) (read : cur.readString bound = .ok (lexeme, after)) :
    ∃ others, cur.Passes ('"' :: others) after ∧
      ∀ {bound' : Nat} {cur' after' : Cursor}, cur'.Passes ('"' :: others) after' →
        others.length ≤ bound' → cur'.readString bound' = .ok (lexeme, after') := by
  unfold readString at read
  cases quoted : readQuoted cur.position '"' .stringNotTerminated bound (cur.skip 1) [] with
  | error e =>
      rw [quoted] at read
      cases read
  | ok result =>
      rw [quoted] at read
      cases read
      obtain ⟨taken, passes, again⟩ := readQuoted_spans _ _ _ quoted
      refine ⟨taken, (passes_one text).trans passes, ?_⟩
      intro bound' cur' after' passes' enough
      unfold readString
      rw [again passes'.tail enough]
      rfl

theorem readRune_spans {bound : Nat} {cur after : Cursor} {lexeme : Lexeme} {rest : List Char}
    (text : cur.rest = '\'' :: rest) (read : cur.readRune bound = .ok (lexeme, after)) :
    ∃ others, cur.Passes ('\'' :: others) after ∧
      ∀ {bound' : Nat} {cur' after' : Cursor}, cur'.Passes ('\'' :: others) after' →
        others.length ≤ bound' → cur'.readRune bound' = .ok (lexeme, after') := by
  unfold readRune at read
  cases quoted : readQuoted cur.position '\'' .runeNotTerminated bound (cur.skip 1) [] with
  | error e =>
      rw [quoted] at read
      cases read
  | ok result =>
      rw [quoted] at read
      simp only [bind, Except.bind] at read
      split at read
      · rename_i single
        cases read
        obtain ⟨taken, passes, again⟩ := readQuoted_spans _ _ _ quoted
        refine ⟨taken, (passes_one text).trans passes, ?_⟩
        intro bound' cur' after' passes' enough
        unfold readRune
        rw [again passes'.tail enough]
        simp only [bind, Except.bind, single]
        rfl
      · cases read

theorem readRawString_spans {cur after : Cursor} {lexeme : Lexeme} {rest : List Char}
    (text : cur.rest = '\x60' :: rest) (read : cur.readRawString = .ok (lexeme, after)) :
    ∃ others, cur.Passes ('\x60' :: others) after ∧
      ∀ {cur' after' : Cursor}, cur'.Passes ('\x60' :: others) after' →
        cur'.readRawString = .ok (lexeme, after') := by
  -- The closing quote is where the run of other characters stops.
  let body := rest.takeWhile (· ≠ '\x60')
  have one := passes_one text
  have inside : (cur.skip 1).rest = rest := by simp [skip, text]
  unfold readRawString readWhile at read
  simp only [inside] at read
  have parts : (cur.skip 1).rest = body ++ rest.dropWhile (· ≠ '\x60') := by
    rw [inside, List.takeWhile_append_dropWhile]
  have passes := passes_skip parts
  split at read
  · cases read
  · rename_i closed
    cases read
    cases ending : rest.dropWhile (· ≠ '\x60') with
    | nil =>
        rw [← List.append_cancel_left (passes.1.symm.trans parts)] at ending
        exact absurd (List.isEmpty_iff.mpr ending) closed
    | cons quote more =>
        have isQuote : quote = '\x60' := by
          have stops := stops_dropWhile (· ≠ '\x60') rest quote (by rw [ending]; rfl)
          simpa using stops
        subst isQuote
        have left : ((cur.skip 1).skip body.length).rest = '\x60' :: more := by
          rw [← ending]
          exact List.append_cancel_left (passes.1.symm.trans parts)
        refine ⟨body ++ ['\x60'], one.trans (passes.trans (passes_one left)), ?_⟩
        intro cur' after' passes'
        obtain ⟨between, bodyAgain, last⟩ := passes'.tail.split
        have noQuote : ∀ c ∈ body, decide (c ≠ '\x60') = true := by
          intro c member
          exact List.mem_takeWhile_imp (p := fun c => decide (c ≠ '\x60')) member
        have run : (cur'.skip 1).rest.takeWhile (· ≠ '\x60') = body := by
          rw [bodyAgain.1, last.1, List.takeWhile_append_of_pos noQuote]
          simp
        unfold readRawString readWhile
        simp only [run, ← bodyAgain.eq_skip]
        rw [last.eq_skip, last.1]
        rfl

/-! ## Numbers -/

section

variable {isFloat : Bool} {c : Char} {rest : List Char}

theorem numberChars_digit (isPart : (c.isDigit || c = '_') = true) :
    numberChars isFloat (c :: rest) =
      (c :: (numberChars isFloat rest).1, (numberChars isFloat rest).2) := by
  rw [numberChars.eq_def]
  simp only [isPart, if_true]

theorem numberChars_point (noDigit : ¬(c.isDigit || c = '_') = true)
    (point : (c = '.' && !isFloat && rest.head? ≠ some '.') = true) :
    numberChars isFloat (c :: rest) =
      (c :: (numberChars true rest).1, (numberChars true rest).2) := by
  rw [numberChars.eq_def]
  simp only [if_neg noDigit, if_pos point]

theorem exponent_cases (exponent : (c = 'e' || c = 'E') = true) :
    ¬(c.isDigit || c = '_') = true ∧ c ≠ '.' := by
  rcases Bool.or_eq_true_iff.mp exponent with e | e <;> rw [of_decide_eq_true e] <;> decide

theorem numberChars_sign {sign : Char} (exponent : (c = 'e' || c = 'E') = true)
    (isSign : (sign = '+' || sign = '-') = true) :
    numberChars isFloat (c :: sign :: rest) =
      (c :: sign :: (numberChars true rest).1, (numberChars true rest).2) := by
  obtain ⟨noDigit, noPoint⟩ := exponent_cases exponent
  rw [numberChars.eq_def]
  simp only [if_neg noDigit, noPoint, decide_false, Bool.false_and, Bool.false_eq_true, if_false,
    if_pos exponent, if_pos isSign]

theorem numberChars_exponent (exponent : (c = 'e' || c = 'E') = true)
    (noSign : ∀ sign, rest.head? = some sign → ¬(sign = '+' || sign = '-') = true) :
    numberChars isFloat (c :: rest) =
      (c :: (numberChars true rest).1, (numberChars true rest).2) := by
  obtain ⟨noDigit, noPoint⟩ := exponent_cases exponent
  rw [numberChars.eq_def]
  simp only [if_neg noDigit, noPoint, decide_false, Bool.false_and, Bool.false_eq_true, if_false,
    if_pos exponent]
  cases rest with
  | nil => rfl
  | cons sign rest => simp only [if_neg (noSign sign rfl)]

theorem numberChars_stop (noDigit : ¬(c.isDigit || c = '_') = true)
    (noPoint : ¬(c = '.' && !isFloat && rest.head? ≠ some '.') = true)
    (noExponent : ¬(c = 'e' || c = 'E') = true) :
    numberChars isFloat (c :: rest) = ([], isFloat) := by
  rw [numberChars.eq_def]
  simp only [if_neg noDigit, if_neg noPoint, if_neg noExponent]

end

/-- The characters of a number depend on what follows by its first character, and by whether two
points follow. -/
theorem numberChars_alike (isFloat : Bool) (chars : List Char) :
    ∃ rest, chars = (numberChars isFloat chars).1 ++ rest ∧
      ∀ rest', Alike rest rest' → rest.head? = rest'.head? →
        numberChars isFloat ((numberChars isFloat chars).1 ++ rest') =
          numberChars isFloat chars := by
  fun_induction numberChars isFloat chars with
  | case1 isFloat =>
      refine ⟨[], rfl, fun rest' _ same => ?_⟩
      have empty : rest' = [] := List.head?_eq_none_iff.mp same.symm
      rw [empty]
      rfl
  | case2 isFloat c rest isPart more result read ih =>
      rw [read] at ih
      obtain ⟨left, parts, again⟩ := ih
      refine ⟨left, congrArg (c :: ·) parts, fun rest' alike same => ?_⟩
      rw [List.cons_append, numberChars_digit isPart, again rest' alike same]
  | case3 isFloat c rest noDigit point more result read ih =>
      rw [read] at ih
      obtain ⟨left, parts, again⟩ := ih
      refine ⟨left, congrArg (c :: ·) parts, fun rest' alike same => ?_⟩
      have next : rest.head? = (more ++ rest').head? := by
        conv => lhs; rw [show rest = more ++ left from parts]
        rw [List.head?_append, List.head?_append, same]
      rw [next] at point
      rw [List.cons_append, numberChars_point noDigit point, again rest' alike same]
  | case4 isFloat c noDigit exponent noPoint =>
      refine ⟨[], rfl, fun rest' _ same => ?_⟩
      have empty : rest' = [] := List.head?_eq_none_iff.mp same.symm
      rw [empty, List.append_nil, numberChars_exponent exponent (by simp)]
      rfl
  | case5 isFloat c noDigit exponent sign rest isSign more result read noPoint ih =>
      rw [read] at ih
      obtain ⟨left, parts, again⟩ := ih
      refine ⟨left, congrArg (fun tail => c :: sign :: tail) parts, fun rest' alike same => ?_⟩
      rw [List.cons_append, List.cons_append, numberChars_sign exponent isSign,
        again rest' alike same]
  | case6 isFloat c noDigit exponent sign rest noSign more result read noPoint ih =>
      rw [read] at ih
      obtain ⟨left, parts, again⟩ := ih
      refine ⟨left, congrArg (c :: ·) parts, fun rest' alike same => ?_⟩
      have next : (more ++ rest').head? = some sign := by
        rw [List.head?_append, ← same, ← List.head?_append,
          ← show sign :: rest = more ++ left from parts]
        rfl
      have noSignNext : ∀ d, (more ++ rest').head? = some d → ¬(d = '+' || d = '-') = true := by
        intro d isNext
        rw [next] at isNext
        cases isNext
        exact noSign
      rw [List.cons_append, numberChars_exponent exponent noSignNext, again rest' alike same]
  | case7 isFloat c rest noDigit noPoint noExponent =>
      refine ⟨c :: rest, rfl, fun rest' alike same => ?_⟩
      cases rest' with
      | nil => cases same
      | cons d rest' =>
          cases same
          refine numberChars_stop noDigit ?_ noExponent
          intro point
          refine noPoint ?_
          simp only [Bool.and_eq_true, decide_eq_true_eq] at point ⊢
          obtain ⟨⟨rfl, whole⟩, noSecond⟩ := point
          refine ⟨⟨rfl, whole⟩, fun second => noSecond ?_⟩
          -- Behind the first point the two texts are still alike.
          cases alike with
          | names _ _ one => cases one
          | cons _ more => exact (more.head_iff rfl).mp second

/-- The number that the characters behind the prefix of a hexadecimal literal write. -/
def hexLexeme? (run : List Char) : Option Lexeme :=
  let digits := run.filter (· ≠ '_')
  if digits.isEmpty || greatestInt < hexNumber digits then none
  else some (.token (.int (Int64.ofNat (hexNumber digits))))

/-- The number that the characters of a decimal literal write. -/
def decimalLexeme? (number : List Char × Bool) : Option Lexeme :=
  let text := number.1.filter (· ≠ '_')
  if number.2 then (Decimal.readFloat? text).map fun value => .token (.float value)
  else if greatestInt < Decimal.naturalOf text then none
  else some (.token (.int (Int64.ofNat (Decimal.naturalOf text))))

/-- The characters that may follow the prefix of a hexadecimal literal. -/
def isHexPart (c : Char) : Bool := isHexDigit c || c = '_'

/-- Whether a text begins with the prefix of a hexadecimal literal. -/
def beginsHex : List Char → Bool
  | [] => false
  | c :: rest => c = '0' && rest.head?.any fun x => x = 'x' || x = 'X'

theorem beginsHex_cases {chars : List Char} (hex : beginsHex chars = true) :
    ∃ x tail, chars = '0' :: x :: tail ∧ (x = 'x' ∨ x = 'X') := by
  match chars, hex with
  | c :: x :: tail, hex =>
      simp only [beginsHex, List.head?_cons, Option.any_some, Bool.and_eq_true, Bool.or_eq_true,
        decide_eq_true_eq] at hex
      obtain ⟨rfl, prefixed⟩ := hex
      exact ⟨x, tail, rfl, prefixed⟩
  | [_], hex => simp [beginsHex] at hex

theorem readNumber_hex {cur after : Cursor} {lexeme : Lexeme} {x : Char} {tail : List Char}
    (text : cur.rest = '0' :: x :: tail) (prefixed : x = 'x' ∨ x = 'X') :
    cur.readNumber = .ok (lexeme, after) ↔
      hexLexeme? (tail.takeWhile isHexPart) = some lexeme ∧
        cur.Passes ('0' :: x :: tail.takeWhile isHexPart) after := by
  have opening : cur.Passes ['0', x] (cur.skip 2) :=
    passes_skip (show cur.rest = ['0', x] ++ tail from text)
  have two : (cur.skip 2).rest = tail := by simp [skip, text]
  have digits : (cur.skip 2).Passes (tail.takeWhile isHexPart) _ :=
    passes_skip (two.trans List.takeWhile_append_dropWhile.symm)
  have passes := opening.trans digits
  have run : ((cur.skip 2).rest.takeWhile fun c => isHexDigit c || c = '_') =
      tail.takeWhile isHexPart := by rw [two]; rfl
  have read : cur.readNumber =
      if ((tail.takeWhile isHexPart).filter (· ≠ '_')).isEmpty ||
          greatestInt < hexNumber ((tail.takeWhile isHexPart).filter (· ≠ '_')) then
        .error ⟨cur.position, .invalidHexLiteral
          (String.ofList ((tail.takeWhile isHexPart).filter (· ≠ '_')))⟩
      else .ok (.token (.int (Int64.ofNat
        (hexNumber ((tail.takeWhile isHexPart).filter (· ≠ '_'))))),
        (cur.skip 2).skip (tail.takeWhile isHexPart).length) := by
    unfold readNumber readWhile
    rw [run]
    rcases prefixed with rfl | rfl <;> simp only [text]
  rw [read]
  unfold hexLexeme?
  dsimp only
  split
  · simp
  · constructor
    · intro same
      cases same
      exact ⟨rfl, passes⟩
    · rintro ⟨same, passes'⟩
      cases same
      rw [passes'.unique passes]

theorem readNumber_decimal {cur after : Cursor} {lexeme : Lexeme}
    (decimal : beginsHex cur.rest = false) :
    cur.readNumber = .ok (lexeme, after) ↔
      decimalLexeme? (numberChars false cur.rest) = some lexeme ∧
        cur.Passes (numberChars false cur.rest).1 after := by
  obtain ⟨left, parts, _⟩ := numberChars_alike false cur.rest
  have passes := passes_skip parts
  unfold readNumber decimalLexeme?
  dsimp only
  split
  · rename_i text
    rw [text] at decimal
    cases decimal
  · rename_i text
    rw [text] at decimal
    cases decimal
  · split
    · cases Decimal.readFloat? ((numberChars false cur.rest).1.filter (· ≠ '_')) with
      | none => simp
      | some value =>
          constructor
          · intro same
            cases same
            exact ⟨rfl, passes⟩
          · rintro ⟨same, passes'⟩
            cases same
            rw [passes'.unique passes]
    · split
      · simp
      · constructor
        · intro same
          cases same
          exact ⟨rfl, passes⟩
        · rintro ⟨same, passes'⟩
          cases same
          rw [passes'.unique passes]

theorem isNumber_of_readNumber {cur after : Cursor} {lexeme : Lexeme}
    (read : cur.readNumber = .ok (lexeme, after)) : lexeme.isNumber = true := by
  cases hex : beginsHex cur.rest with
  | true =>
      obtain ⟨x, tail, text, prefixed⟩ := beginsHex_cases hex
      have written := ((readNumber_hex text prefixed).mp read).1
      unfold hexLexeme? at written
      dsimp only at written
      split at written
      · cases written
      · cases written
        rfl
  | false =>
      have written := ((readNumber_decimal hex).mp read).1
      unfold decimalLexeme? at written
      dsimp only at written
      split at written
      · obtain ⟨value, _, rfl⟩ := Option.map_eq_some_iff.mp written
        rfl
      · split at written
        · cases written
        · cases written
          rfl

theorem readNumber_spans {cur after : Cursor} {lexeme : Lexeme} {first : Char} {rest : List Char}
    (text : cur.rest = first :: rest)
    (start : first.isDigit = true ∨ first = '.' ∧ rest.head? ≠ some '.')
    (read : cur.readNumber = .ok (lexeme, after)) :
    ∃ others, cur.Passes (first :: others) after ∧
      ∀ {cur' after' : Cursor}, cur'.Passes (first :: others) after' →
        Alike after.rest after'.rest → after.rest.head? = after'.rest.head? →
        cur'.readNumber = .ok (lexeme, after') := by
  cases hex : beginsHex cur.rest with
  | true =>
      obtain ⟨x, tail, isText, prefixed⟩ := beginsHex_cases hex
      rw [isText] at text
      cases text
      obtain ⟨written, passes⟩ := (readNumber_hex isText prefixed).mp read
      refine ⟨_, passes, fun {cur' after'} passes' _ same => ?_⟩
      have left : after.rest = tail.dropWhile isHexPart := by
        have whole := isText.symm.trans passes.1
        simp only [List.cons_append, List.cons.injEq, true_and] at whole
        refine List.append_cancel_left (whole.symm.trans ?_)
        exact List.takeWhile_append_dropWhile.symm
      have stops : Stops isHexPart after'.rest := by
        intro c first
        refine stops_dropWhile isHexPart tail c ?_
        rw [← left, same, first]
      have run : (tail.takeWhile isHexPart ++ after'.rest).takeWhile isHexPart =
          tail.takeWhile isHexPart := by
        rw [takeWhile_append_stops stops, List.takeWhile_takeWhile]
        simp
      have text' : cur'.rest = '0' :: x :: (tail.takeWhile isHexPart ++ after'.rest) := passes'.1
      refine (readNumber_hex text' prefixed).mpr ?_
      rw [run]
      exact ⟨written, passes'⟩
  | false =>
      obtain ⟨written, passes⟩ := (readNumber_decimal hex).mp read
      obtain ⟨left, parts, again⟩ := numberChars_alike false cur.rest
      have isLeft : left = after.rest := List.append_cancel_left (parts.symm.trans passes.1)
      subst isLeft
      have some_ : 0 < (numberChars false cur.rest).1.length := by
        rw [text]
        exact numberChars_ne_nil start
      obtain ⟨c, others, chars⟩ := List.exists_cons_of_length_pos some_
      obtain rfl : c = first := by
        rw [chars, text] at parts
        exact (List.cons.inj parts).1.symm
      rw [chars] at passes
      refine ⟨others, passes, fun {cur' after'} passes' alike same => ?_⟩
      rw [← chars] at passes'
      have reading : numberChars false cur'.rest = numberChars false cur.rest := by
        rw [passes'.1, again _ alike same]
      have decimal : beginsHex cur'.rest = false := by
        rw [← hex, passes'.1, chars, passes.1]
        simp only [List.cons_append, beginsHex, List.head?_append, same]
      refine (readNumber_decimal decimal).mpr ?_
      rw [reading]
      exact ⟨written, passes'⟩

/-! ## Names, marks and comments -/

theorem readName_spans {cur : Cursor} {first : Char} {rest : List Char}
    (text : cur.rest = first :: rest) (start : isNameStart first = true) :
    ∃ others, cur.Passes (first :: others) cur.readName.2 ∧
      ∀ {cur' after' : Cursor}, cur'.Passes (first :: others) after' →
        Alike cur.readName.2.rest after'.rest → cur'.readName = (cur.readName.1, after') := by
  have part : isNameChar first = true := by
    simp only [isNameStart, Bool.and_eq_true] at start
    exact start.1
  have run : cur.rest.takeWhile isNameChar = first :: rest.takeWhile isNameChar := by
    rw [text, List.takeWhile_cons_of_pos part]
  have passes : cur.Passes (cur.rest.takeWhile isNameChar) cur.readName.2 :=
    passes_skip List.takeWhile_append_dropWhile.symm
  rw [run] at passes
  refine ⟨_, passes, fun {cur' after'} passes' alike => ?_⟩
  have stops : Stops isNameChar after'.rest := by
    refine alike.stops (fun c start => ?_) ?_
    · simp only [isNameStart, Bool.and_eq_true] at start
      exact start.1
    · rw [show cur.readName.2.rest = cur.rest.dropWhile isNameChar from
        readWhile_rest cur isNameChar]
      exact stops_dropWhile isNameChar cur.rest
  have again : cur'.rest.takeWhile isNameChar = cur.rest.takeWhile isNameChar := by
    rw [passes'.1, ← run, takeWhile_append_stops stops, List.takeWhile_takeWhile]
    simp
  unfold readName readWhile
  rw [again]
  rw [← run] at passes'
  rw [passes'.eq_skip]

theorem spelling_plain : ∀ entry ∈ Mark.spellings, ∀ c ∈ entry.1,
    isNameStart c = false ∧ c ≠ '\n' := by
  have plain : Mark.spellings.all (fun entry =>
      entry.1.all fun c => !isNameStart c && c != '\n') = true := by decide
  simpa only [List.all_eq_true, Bool.and_eq_true, Bool.not_eq_true', bne_iff_ne] using plain

/-- Whether a mark begins a text is the same for texts that look alike. -/
theorem isPrefixOf_alike {rest rest' : List Char} (alike : Alike rest rest') :
    ∀ spelling : List Char, (∀ c ∈ spelling, isNameStart c = false ∧ c ≠ '\n') →
      spelling.isPrefixOf rest = spelling.isPrefixOf rest' := by
  induction alike with
  | nil =>
      intro spelling _
      rfl
  | names _ _ one other =>
      intro spelling plain
      cases spelling with
      | nil => rfl
      | cons c spelling =>
          have noName := (plain c List.mem_cons_self).1
          have differs : ∀ {d : Char}, isNameStart d = true → (c == d) = false := by
            rintro d start
            refine beq_eq_false_iff_ne.mpr ?_
            rintro rfl
            rw [noName] at start
            cases start
          simp [List.isPrefixOf, differs one, differs other]
  | newline =>
      intro spelling plain
      cases spelling with
      | nil => rfl
      | cons c spelling =>
          have differs : (c == '\n') = false :=
            beq_eq_false_iff_ne.mpr (plain c List.mem_cons_self).2
          simp [List.isPrefixOf, differs]
  | cons c _ ih =>
      intro spelling plain
      cases spelling with
      | nil => rfl
      | cons d spelling =>
          simp only [List.isPrefixOf,
            ih spelling fun c member => plain c (List.mem_cons_of_mem d member)]

theorem atStart_alike {rest rest' : List Char} (alike : Alike rest rest') :
    Mark.atStart? rest = Mark.atStart? rest' := by
  unfold Mark.atStart?
  congr 1
  exact List.find?_congr fun entry listed =>
    isPrefixOf_alike alike entry.1 (spelling_plain entry listed)

theorem readMark_spans {cur after : Cursor} {lexeme : Lexeme} {first : Char} {rest : List Char}
    (text : cur.rest = first :: rest) (read : cur.readMark first = .ok (lexeme, after)) :
    ∃ others, cur.Passes (first :: others) after ∧
      ∀ {cur' after' : Cursor}, cur'.Passes (first :: others) after' →
        Alike after.rest after'.rest → cur'.readMark first = .ok (lexeme, after') := by
  unfold readMark at read
  split at read
  · rename_i m length found
    cases read
    obtain ⟨spelling, label, listed, ⟨behind, spelled⟩, rfl⟩ := atStart_some found
    cases spelling with
    | nil => exact absurd rfl (spelling_ne_nil _ listed)
    | cons c others =>
        obtain rfl : c = first := by
          rw [text] at spelled
          exact (List.cons.inj spelled).1
        have passes := passes_skip spelled.symm
        refine ⟨others, passes, fun {cur' after'} passes' alike => ?_⟩
        have same : Mark.atStart? cur'.rest = some (m, (c :: others).length) := by
          rw [← found, passes'.1, passes.1]
          exact (atStart_alike (alike.append_left _)).symm
        simp only [readMark, same, passes'.eq_skip]
  · cases read

/-- The characters that begin neither a literal nor a name nor the space between tokens. -/
def isMarkStart (c : Char) : Bool :=
  !(c = '\n' || (c = ' ' || c = '\t' || c = '\r') || c.isDigit || c = '"' || c = '\x60' ||
    c = '\'' || isNameStart c)

theorem step_mark {bound : Nat} {cur : Cursor} {first : Char} {rest : List Char}
    (text : cur.rest = first :: rest) (start : isMarkStart first = true)
    (noComment : first = '/' → rest.head? ≠ some '/' ∧ rest.head? ≠ some '*')
    (noNumber : first = '.' → ∀ d, rest.head? = some d → d.isDigit = false) :
    cur.step bound first = cur.readMark first := by
  simp only [isMarkStart, Bool.not_eq_true', Bool.or_eq_false_iff, decide_eq_false_iff_not] at start
  obtain ⟨⟨⟨⟨⟨⟨line, space⟩, digit⟩, string⟩, raw⟩, rune⟩, name⟩ := start
  unfold step
  rw [if_neg line, if_neg (by simp [space]), if_neg (by simp [digit]), if_neg string, if_neg raw,
    if_neg rune, if_neg (by simp [name])]
  split
  · rename_i comment
    rw [text, List.cons.injEq] at comment
    exact absurd (by rw [comment.2]; rfl) (noComment comment.1).1
  · rename_i comment
    rw [text, List.cons.injEq] at comment
    exact absurd (by rw [comment.2]; rfl) (noComment comment.1).2
  · rename_i d tail point
    rw [text, List.cons.injEq] at point
    have no := noNumber point.1 d (by rw [point.2]; rfl)
    rw [if_neg (by simp [no])]
  · rfl

/-- A mark stays one where the text goes on in a way that looks the same. -/
theorem step_mark_spans {cur after : Cursor} {first : Char} {rest : List Char} {lexeme : Lexeme}
    (text : cur.rest = first :: rest) (start : isMarkStart first = true)
    (noComment : first = '/' → rest.head? ≠ some '/' ∧ rest.head? ≠ some '*')
    (noNumber : first = '.' → ∀ d, rest.head? = some d → d.isDigit = false)
    (read : cur.readMark first = .ok (lexeme, after)) :
    ∃ others, cur.Passes (first :: others) after ∧
      ∀ {bound : Nat} {cur' after' : Cursor}, cur'.Passes (first :: others) after' →
        Alike after.rest after'.rest → cur'.step bound first = .ok (lexeme, after') := by
  obtain ⟨others, passes, again⟩ := readMark_spans text read
  refine ⟨others, passes, fun {bound cur' after'} passes' alike => ?_⟩
  have whole : rest = others ++ after.rest := (List.cons.inj (text.symm.trans passes.1)).2
  have behind : Alike rest (others ++ after'.rest) := whole ▸ alike.append_left others
  rw [step_mark passes'.1 start ?_ ?_]
  · exact again passes' alike
  · intro slash
    obtain ⟨noLine, noBlock⟩ := noComment slash
    exact ⟨fun is => noLine ((behind.head_iff rfl).mpr is),
      fun is => noBlock ((behind.head_iff rfl).mpr is)⟩
  · intro point d next
    have same := behind.head_same (f := Char.isDigit) fun c d one other =>
      (not_digit_of_start one).trans (not_digit_of_start other).symm
    have next' : (others ++ after'.rest).head? = some d := next
    rw [next'] at same
    cases before : rest.head? with
    | none => simp [before] at same
    | some c =>
        rw [before] at same
        rw [← Option.some.inj same]
        exact noNumber point c before

theorem step_lineComment (bound : Nat) {cur : Cursor} {tail : List Char}
    (text : cur.rest = '/' :: '/' :: tail) :
    cur.step bound '/' = .ok (.blank, (cur.readWhile (· ≠ '\n')).2) := by
  rw [step, if_neg (by decide), if_neg (by decide), if_neg (by decide), if_neg (by decide),
    if_neg (by decide), if_neg (by decide), if_neg (by decide)]
  simp only [text]

theorem step_blockComment (bound : Nat) {cur : Cursor} {tail : List Char} {length : Nat}
    (text : cur.rest = '/' :: '*' :: tail) (closed : commentLength? 2 tail = some length) :
    cur.step bound '/' =
      .ok (if (cur.rest.take length).contains '\n' then .newline else .blank, cur.skip length) := by
  rw [step, if_neg (by decide), if_neg (by decide), if_neg (by decide), if_neg (by decide),
    if_neg (by decide), if_neg (by decide), if_neg (by decide)]
  simp only [text, closed]

theorem step_fraction (bound : Nat) {cur : Cursor} {d : Char} {tail : List Char}
    (text : cur.rest = '.' :: d :: tail) (digit : d.isDigit = true) :
    cur.step bound '.' = cur.readNumber := by
  rw [step, if_neg (by decide), if_neg (by decide), if_neg (by decide), if_neg (by decide),
    if_neg (by decide), if_neg (by decide), if_neg (by decide)]
  simp only [text, digit, if_true]

theorem commentLength_spans {count length : Nat} {chars : List Char}
    (closed : commentLength? count chars = some length) :
    ∃ body rest, chars = body ++ rest ∧ body ≠ [] ∧ length = count + body.length ∧
      ∀ rest', commentLength? count (body ++ rest') = some length := by
  fun_induction commentLength? count chars with
  | case1 count => cases closed
  | case2 count rest =>
      cases closed
      exact ⟨['*', '/'], rest, rfl, by simp, rfl, fun rest' => rfl⟩
  | case3 count c rest noEnd ih =>
      obtain ⟨body, behind, rfl, some_, rfl, again⟩ := ih closed
      refine ⟨c :: body, behind, rfl, by simp, by simp only [List.length_cons]; omega, ?_⟩
      intro rest'
      rw [← again rest', List.cons_append, commentLength?]
      rintro tail rfl ends
      -- The end of the comment would have been there before.
      obtain ⟨d, body, rfl⟩ := List.exists_cons_of_ne_nil some_
      cases ends
      exact noEnd _ rfl rfl

/-! ## Steps -/

/-- A step takes some characters, and it takes them as well where the text goes on in a way that
looks the same. -/
theorem step_spans {bound : Nat} {cur after : Cursor} {first : Char} {rest : List Char}
    {lexeme : Lexeme} (text : cur.rest = first :: rest)
    (read : cur.step bound first = .ok (lexeme, after)) :
    ∃ others, cur.Passes (first :: others) after ∧
      ∀ {bound' : Nat} {cur' after' : Cursor}, cur'.Passes (first :: others) after' →
        others.length ≤ bound' → Alike after.rest after'.rest →
        (lexeme.isNumber = true → after.rest.head? = after'.rest.head?) →
        cur'.step bound' first = .ok (lexeme, after') := by
  unfold step at read
  split at read
  · rename_i line
    cases read
    refine ⟨[], passes_one text, fun passes' _ _ _ => ?_⟩
    rw [step, if_pos line, passes'.eq_skip]
    rfl
  rename_i line
  split at read
  · rename_i space
    cases read
    refine ⟨[], passes_one text, fun passes' _ _ _ => ?_⟩
    rw [step, if_neg line, if_pos space, passes'.eq_skip]
    rfl
  rename_i space
  split at read
  · rename_i digit
    obtain ⟨others, passes, again⟩ := readNumber_spans text (.inl digit) read
    refine ⟨others, passes, fun passes' _ alike same => ?_⟩
    rw [step, if_neg line, if_neg space, if_pos digit]
    exact again passes' alike (same (isNumber_of_readNumber read))
  rename_i digit
  split at read
  · rename_i quote
    subst quote
    obtain ⟨others, passes, again⟩ := readString_spans text read
    exact ⟨others, passes, fun passes' enough _ _ => again passes' enough⟩
  rename_i string
  split at read
  · rename_i quote
    subst quote
    obtain ⟨others, passes, again⟩ := readRawString_spans text read
    exact ⟨others, passes, fun passes' _ _ _ => again passes'⟩
  rename_i raw
  split at read
  · rename_i quote
    subst quote
    obtain ⟨others, passes, again⟩ := readRune_spans text read
    exact ⟨others, passes, fun passes' enough _ _ => again passes' enough⟩
  rename_i rune
  split at read
  · rename_i start
    cases read
    obtain ⟨others, passes, again⟩ := readName_spans text start
    refine ⟨others, passes, fun passes' _ alike _ => ?_⟩
    rw [step, if_neg line, if_neg space, if_neg digit, if_neg string, if_neg raw, if_neg rune,
      if_pos start, again passes' alike]
    rfl
  rename_i name
  have isStart : isMarkStart first = true := by
    simp [isMarkStart, line, digit, string, raw, rune, name]
    simpa using space
  split at read
  · rename_i tail comment
    cases read
    rw [text, List.cons.injEq] at comment
    obtain ⟨rfl, rfl⟩ := comment
    have passes : cur.Passes (cur.rest.takeWhile (· ≠ '\n')) (cur.readWhile (· ≠ '\n')).2 :=
      passes_skip List.takeWhile_append_dropWhile.symm
    have run : cur.rest.takeWhile (· ≠ '\n') = '/' :: '/' :: tail.takeWhile (· ≠ '\n') := by
      rw [text]
      rfl
    rw [run] at passes
    refine ⟨_, passes, fun {bound' cur' after'} passes' _ alike _ => ?_⟩
    have stops : Stops (· ≠ '\n') after'.rest := by
      refine alike.stops (fun c start => ?_) ?_
      · simp only [decide_eq_true_eq]
        rintro rfl
        cases start
      · rw [readWhile_rest]
        exact stops_dropWhile _ _
    have again : cur'.rest.takeWhile (· ≠ '\n') = '/' :: '/' :: tail.takeWhile (· ≠ '\n') := by
      rw [passes'.1, ← run, takeWhile_append_stops stops, List.takeWhile_takeWhile]
      simp
    rw [step_lineComment bound' passes'.1, readWhile, again, passes'.eq_skip]
  · rename_i tail comment
    rw [text, List.cons.injEq] at comment
    obtain ⟨rfl, rfl⟩ := comment
    split at read
    · cases read
    · rename_i length closed
      cases read
      obtain ⟨body, behind, rfl, _, rfl, again⟩ := commentLength_spans closed
      have passes : cur.Passes ('/' :: '*' :: body) (cur.skip ('/' :: '*' :: body).length) :=
        passes_skip text
      have long : 2 + body.length = ('/' :: '*' :: body).length := by
        simp only [List.length_cons]
        omega
      refine ⟨'*' :: body, long ▸ passes, fun {bound' cur' after'} passes' _ _ _ => ?_⟩
      have same : cur'.rest.take (2 + body.length) = cur.rest.take (2 + body.length) := by
        rw [long, passes'.1, passes.1, List.take_left, List.take_left]
      rw [step_blockComment bound' passes'.1 (again _), same, passes'.eq_skip, long]
  · rename_i d tail point
    rw [text, List.cons.injEq] at point
    obtain ⟨rfl, rfl⟩ := point
    split at read
    · rename_i isDigit
      have start : ('.' : Char).isDigit = true ∨ '.' = '.' ∧ (d :: tail).head? ≠ some '.' := by
        refine .inr ⟨rfl, ?_⟩
        rintro ⟨⟩
        cases isDigit
      obtain ⟨others, passes, again⟩ := readNumber_spans text start read
      refine ⟨others, passes, fun {bound' cur' after'} passes' _ alike same => ?_⟩
      have isNumber := isNumber_of_readNumber read
      have second : (others ++ after'.rest).head? = some d := by
        have whole := text.symm.trans passes.1
        simp only [List.cons_append, List.cons.injEq, true_and] at whole
        rw [List.head?_append, ← same isNumber, ← List.head?_append, ← whole]
        rfl
      obtain ⟨tail', goesOn⟩ := List.head?_eq_some_iff.mp second
      rw [step_fraction bound' (passes'.1.trans (congrArg ('.' :: ·) goesOn)) isDigit]
      exact again passes' alike (same isNumber)
    · rename_i noDigit
      obtain ⟨others, passes, again⟩ := step_mark_spans text isStart (by rintro ⟨⟩) (by
        rintro _ c ⟨⟩
        simpa using noDigit) read
      exact ⟨others, passes, fun passes' _ alike _ => again passes' alike⟩
  · rename_i noLine noBlock noPoint
    have noComment : first = '/' → rest.head? ≠ some '/' ∧ rest.head? ≠ some '*' := by
      rintro rfl
      refine ⟨fun is => ?_, fun is => ?_⟩ <;>
      · obtain ⟨tail, rfl⟩ := List.head?_eq_some_iff.mp is
        first
        | exact absurd text (noLine tail)
        | exact absurd text (noBlock tail)
    have noNumber : first = '.' → ∀ d, rest.head? = some d → d.isDigit = false := by
      rintro rfl d is
      obtain ⟨tail, rfl⟩ := List.head?_eq_some_iff.mp is
      exact absurd text (noPoint d tail)
    obtain ⟨others, passes, again⟩ := step_mark_spans text isStart noComment noNumber read
    exact ⟨others, passes, fun passes' _ alike _ => again passes' alike⟩

end Cursor

end SandboxedGo.Source
