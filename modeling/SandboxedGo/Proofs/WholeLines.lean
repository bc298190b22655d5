import SandboxedGo.Proofs.FaithfulRenaming
import SandboxedGo.Proofs.SharedTexts
import SandboxedGo.Proofs.TokenPlaces

/-!
# Texts of whole lines

What the lexer takes in one step ends within a line, unless it is the end of a line itself.  A text
that ends with a line is therefore read the same with further text behind it, and the further text
is read as if it stood alone.
Main statement: `Reads.readAs_append`.
-/

set_option autoImplicit false

namespace SandboxedGo

open Source Submission

namespace Source

/-! ## Whole lines -/

/-- A text that is empty or ends with the end of a line. -/
def WholeLines (text : List Char) : Prop := ∀ c, text.getLast? = some c → c = '\n'

theorem WholeLines.suffix {text left : List Char} (lines : WholeLines text)
    (suffix : left <:+ text) : WholeLines left := by
  obtain ⟨taken, rfl⟩ := suffix
  intro c last
  refine lines c ?_
  rw [List.getLast?_append, last]
  rfl

/-- A text that is empty or ends within a line. -/
def WithinLine (text : List Char) : Prop := ∀ c, text.getLast? = some c → c ≠ '\n'

theorem withinLine_of_all {text : List Char} (all : ∀ c ∈ text, c ≠ '\n') : WithinLine text :=
  fun c last => all c (List.mem_of_getLast? last)

theorem withinLine_concat (text : List Char) {c : Char} (noLine : c ≠ '\n') :
    WithinLine (text ++ [c]) := by
  intro d last
  rw [List.getLast?_concat] at last
  cases last
  exact noLine

namespace Cursor

/-! ## Steps of the lexer -/

theorem readQuoted_ends {start : Position} {delimiter : Char} {fault : Fault} :
    ∀ (steps : Nat) (cur : Cursor) (bytes : List UInt8) {result : List UInt8} {after : Cursor},
      readQuoted start delimiter fault steps cur bytes = .ok (result, after) →
        ∃ inside, cur.rest = (inside ++ [delimiter]) ++ after.rest := by
  intro steps
  induction steps with
  | zero =>
      intro cur bytes result after quoted
      simp [readQuoted] at quoted
  | succ steps ih =>
      intro cur bytes result after quoted
      unfold readQuoted at quoted
      cases given : cur.rest with
      | nil => simp [given] at quoted
      | cons c rest =>
          have skipped : (cur.skip 1).rest = rest := by simp [skip, given]
          simp only [given] at quoted
          split at quoted
          · cases quoted
          split at quoted
          · rename_i quote
            cases quoted
            exact ⟨[], by rw [skipped, quote]; rfl⟩
          split at quoted
          · split at quoted
            · cases quoted
            · rename_i escaped
              obtain ⟨letter, digits, parts, -⟩ := readEscape_digits escaped
              obtain ⟨inside, text⟩ := ih _ _ quoted
              rw [skipped, text] at parts
              exact ⟨c :: letter :: (digits ++ inside), by simp [parts]⟩
          · obtain ⟨inside, text⟩ := ih _ _ quoted
            rw [skipped] at text
            exact ⟨c :: inside, by rw [text]; rfl⟩

theorem readRawString_ends {cur after : Cursor} {lexeme : Lexeme} {rest : List Char}
    (text : cur.rest = '\x60' :: rest) (read : cur.readRawString = .ok (lexeme, after)) :
    ∃ inside, '\x60' :: rest = (inside ++ ['\x60']) ++ after.rest := by
  have skipped : (cur.skip 1).rest = rest := by simp [skip, text]
  have run : ((cur.skip 1).readWhile (· ≠ '\x60')).2.rest = rest.dropWhile (· ≠ '\x60') := by
    rw [readWhile_rest, skipped]
  unfold readRawString at read
  dsimp only at read
  split at read
  · cases read
  · rename_i closed
    cases read
    rw [run] at closed
    cases left : rest.dropWhile (· ≠ '\x60') with
    | nil =>
        rw [left] at closed
        exact absurd rfl closed
    | cons quote more =>
        have isQuote : quote = '\x60' := by
          simpa using stops_dropWhile (· ≠ '\x60') rest quote (by rw [left]; rfl)
        subst isQuote
        refine ⟨'\x60' :: rest.takeWhile (· ≠ '\x60'), ?_⟩
        rw [skip_rest, run, left]
        conv => lhs; rw [← List.takeWhile_append_dropWhile (p := (· ≠ '\x60')) (l := rest), left]
        simp

/-- A step takes the end of a line, or what it takes ends within a line. -/
theorem step_takes {bound : Nat} {cur after : Cursor} {first : Char} {rest : List Char}
    {lexeme : Lexeme} (text : cur.rest = first :: rest)
    (step : cur.step bound first = .ok (lexeme, after)) :
    first = '\n' ∨ ∃ taken, first :: rest = taken ++ after.rest ∧ WithinLine taken := by
  have number (read : cur.readNumber = .ok (lexeme, after)) :
      ∃ taken, first :: rest = taken ++ after.rest ∧ WithinLine taken := by
    obtain ⟨taken, parts, all⟩ := readNumber_takes (p := fun c => c ≠ '\n')
      (fun c part => by
        simp only [decide_eq_true_eq]
        rintro rfl
        cases part) (by decide) read
    exact ⟨taken, text ▸ parts, withinLine_of_all fun c mem => of_decide_eq_true (all c mem)⟩
  have mark (read : cur.readMark first = .ok (lexeme, after)) :
      ∃ taken, first :: rest = taken ++ after.rest ∧ WithinLine taken := by
    unfold readMark at read
    split at read
    · rename_i found
      cases read
      obtain ⟨spelling, label, listed, ⟨behind, spelled⟩, rfl⟩ := atStart_some found
      refine ⟨spelling, ?_, withinLine_of_all fun c mem => (spelling_plain _ listed c mem).2⟩
      rw [skip_rest, ← spelled, List.drop_left, spelled, text]
    · cases read
  have quoted {delimiter : Char} {fault : Fault} {bytes : List UInt8}
      (noLine : delimiter ≠ '\n')
      (read : readQuoted cur.position delimiter fault bound (cur.skip 1) [] = .ok (bytes, after)) :
      ∃ taken, first :: rest = taken ++ after.rest ∧ WithinLine taken := by
    obtain ⟨inside, parts⟩ := readQuoted_ends _ _ _ read
    have skipped : (cur.skip 1).rest = rest := by simp [skip, text]
    refine ⟨first :: inside ++ [delimiter], ?_, withinLine_concat _ noLine⟩
    rw [← skipped, parts]
    rfl
  unfold Cursor.step at step
  split at step
  · exact .inl ‹_›
  refine .inr ?_
  split at step
  · rename_i noLine space
    cases step
    refine ⟨[first], by simp [skip, text], withinLine_of_all ?_⟩
    simpa using noLine
  split at step
  · exact number step
  split at step
  · unfold readString at step
    cases read : readQuoted cur.position '"' .stringNotTerminated bound (cur.skip 1) [] with
    | error e =>
        rw [read] at step
        cases step
    | ok result =>
        rw [read] at step
        cases step
        exact quoted (show '"' ≠ '\n' by decide) read
  split at step
  · rename_i quote
    subst quote
    obtain ⟨inside, parts⟩ := readRawString_ends text step
    exact ⟨inside ++ ['\x60'], parts, withinLine_concat inside (by decide)⟩
  split at step
  · unfold readRune at step
    cases read : readQuoted cur.position '\'' .runeNotTerminated bound (cur.skip 1) [] with
    | error e =>
        rw [read] at step
        cases step
    | ok result =>
        rw [read] at step
        simp only [bind, Except.bind] at step
        split at step
        · cases step
          exact quoted (show '\'' ≠ '\n' by decide) read
        · cases step
  split at step
  · cases step
    refine ⟨cur.rest.takeWhile isNameChar, ?_, withinLine_of_all fun c mem => ?_⟩
    · rw [← text]
      exact List.takeWhile_append_dropWhile.symm.trans
        (congrArg _ (readWhile_rest cur isNameChar).symm)
    · rintro rfl
      cases List.mem_takeWhile_imp mem
  split at step
  · cases step
    refine ⟨cur.rest.takeWhile (· ≠ '\n'), ?_, withinLine_of_all fun c mem => ?_⟩
    · rw [← text, readWhile_rest, List.takeWhile_append_dropWhile]
    · exact of_decide_eq_true (List.mem_takeWhile_imp (p := fun c => decide (c ≠ '\n')) mem)
  · rename_i tail comment
    split at step
    · cases step
    · rename_i length closed
      cases step
      obtain ⟨body, left, rfl, rfl⟩ := commentLength_closes closed
      have whole : cur.rest = ('/' :: '*' :: (body ++ ['*']) ++ ['/']) ++ left := by
        simp [comment]
      have long : 2 + body.length + 2 = ('/' :: '*' :: (body ++ ['*']) ++ ['/']).length := by
        simp only [List.length_cons, List.length_append, List.length_nil]
        omega
      refine ⟨_, ?_, withinLine_concat ('/' :: '*' :: (body ++ ['*'])) (c := '/') (by decide)⟩
      rw [← text, skip_rest, whole, long, List.drop_left]
  · split at step
    · exact number step
    · exact mark step
  · exact mark step

/-- What a step reads at the end of whole lines is the end of the last line. -/
theorem step_last {bound : Nat} {cur after : Cursor} {first : Char} {rest : List Char}
    {lexeme : Lexeme} (text : cur.rest = first :: rest)
    (step : cur.step bound first = .ok (lexeme, after)) (lines : WholeLines (first :: rest))
    (ends : after.rest = []) : first = '\n' ∧ lexeme = .newline ∧ rest = [] := by
  have line : first = '\n' := by
    rcases step_takes text step with line | ⟨taken, parts, within⟩
    · exact line
    · rw [ends, List.append_nil] at parts
      have last := List.getLast?_eq_some_getLast (List.cons_ne_nil first rest)
      exact absurd (lines _ last) (within _ (parts ▸ last))
  subst line
  cases step
  exact ⟨rfl, rfl, by rw [← ends, skip_rest, text]; rfl⟩

theorem step_within {bound : Nat} {cur after : Cursor} {first : Char} {rest : List Char}
    {lexeme : Lexeme} (text : cur.rest = first :: rest)
    (step : cur.step bound first = .ok (lexeme, after)) {behind : List Char}
    (lines : WholeLines (first :: rest)) :
    LexesWithin first (rest ++ behind) lexeme (after.rest ++ behind) := by
  obtain ⟨others, passes, again⟩ := lexesWithin_of_step text step
  have parts : rest = others ++ after.rest := (List.cons.inj (text.symm.trans passes.1)).2
  cases List.eq_nil_or_concat after.rest with
  | inl ends =>
      obtain ⟨rfl, rfl, rfl⟩ := step_last text step lines ends
      rw [ends]
      exact (lexesAs_newline behind).within
  | inr more =>
      obtain ⟨front, last, left⟩ := more
      have isLine : last = '\n' :=
        lines.suffix ⟨first :: others, (congrArg (first :: ·) parts).symm⟩ last (by simp [left])
      subst isLine
      rw [List.concat_eq_append] at left
      rw [parts, List.append_assoc]
      refine again (after.rest ++ behind) ?_ fun _ => ?_
      · rw [left, List.append_assoc]
        exact (Alike.newline [] behind).append_left front
      · rw [left]
        cases front <;> rfl

end Cursor

/-! ## Further text -/

/-- Behind whole lines another text is read as if it stood alone. -/
theorem Reads.readAs_append {mayEnd : Bool} {text behind : List Char} {all us : List Token}
    (reads : Reads mayEnd text all) (lines : WholeLines text) (closed : text = [] → mayEnd = false)
    (more : ReadAs false behind us) :
    ∃ ts, all = ts ++ [.endOfText] ∧ ReadAs mayEnd (text ++ behind) (ts ++ us) := by
  induction reads with
  | endOfText => exact ⟨[], rfl, more⟩
  | endOfLastLine => cases closed rfl
  | token chars step _ ih =>
      obtain ⟨ts, rfl, readAs⟩ := ih (lines.suffix (Cursor.step_suffix chars step)) fun ends => by
        cases (Cursor.step_last chars step lines ends).2.1
      exact ⟨_ :: ts, rfl, .token (Cursor.step_within chars step lines) readAs⟩
  | newline chars step _ ih =>
      obtain ⟨ts, rfl, readAs⟩ := ih (lines.suffix (Cursor.step_suffix chars step)) fun _ => rfl
      exact ⟨ts, rfl, .newline (Cursor.step_within chars step lines) readAs⟩
  | endOfLine chars step _ ih =>
      obtain ⟨ts, rfl, readAs⟩ := ih (lines.suffix (Cursor.step_suffix chars step)) fun _ => rfl
      exact ⟨.mark .semi :: ts, rfl, .newline (Cursor.step_within chars step lines) readAs⟩
  | blank chars step _ ih =>
      obtain ⟨ts, rfl, readAs⟩ := ih (lines.suffix (Cursor.step_suffix chars step)) fun ends => by
        cases (Cursor.step_last chars step lines ends).2.1
      exact ⟨ts, rfl, .blank (Cursor.step_within chars step lines) readAs⟩

theorem Reads.readAs {mayEnd : Bool} {text : List Char} {ts : List Token}
    (reads : Reads mayEnd text ts) : ReadAs mayEnd text ts := by
  have within {bound : Nat} {cur after : Cursor} {first : Char} {rest : List Char}
      {lexeme : Lexeme} (chars : cur.rest = first :: rest)
      (step : cur.step bound first = .ok (lexeme, after)) :
      LexesWithin first rest lexeme after.rest := by
    obtain ⟨others, passes, again⟩ := lexesWithin_of_step chars step
    have parts : rest = others ++ after.rest := (List.cons.inj (chars.symm.trans passes.1)).2
    exact parts ▸ again after.rest (.refl _) fun _ => rfl
  induction reads with
  | endOfText => exact readAs_nil
  | endOfLastLine => exact readAs_endOfLastLine
  | token chars step _ ih => exact .token (within chars step) ih
  | newline chars step _ ih => exact .newline (within chars step) ih
  | endOfLine chars step _ ih => exact .newline (within chars step) ih
  | blank chars step _ ih => exact .blank (within chars step) ih

end Source

end SandboxedGo
