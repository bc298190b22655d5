import SandboxedGo.Proofs.Names

/-!
# Literals read twice

The lexer of the guest language is strict about literals and the scanner is not.  A literal that the
lexer accepts is read by both to the same end and with the same value.
-/

set_option autoImplicit false

namespace SandboxedGo.Submission

open Source

/-! ## Digits of escapes -/

theorem simpleEscape_eq_escapedByte (c : Char) : Cursor.simpleEscape? c = escapedByte? c := by
  unfold Cursor.simpleEscape? escapedByte?
  split <;> first | rfl | skip
  split <;> first | rfl | contradiction

theorem octalDigit_value : ∀ n < 128, Cursor.isOctalDigit (Char.ofNat n) = true →
    Text.digitValue? 8 (Char.ofNat n) = some ((Char.ofNat n).toNat - '0'.toNat) := by
  decide

theorem hexDigit_value : ∀ n < 128, Cursor.isHexDigit (Char.ofNat n) = true →
    Text.digitValue? 16 (Char.ofNat n) = some (Cursor.hexValue (Char.ofNat n)) := by
  decide

theorem octalDigit_basic {c : Char} (h : Cursor.isOctalDigit c = true) : c.toNat < 128 := by
  simp only [Cursor.isOctalDigit, Bool.and_eq_true, decide_eq_true_eq] at h
  have le : c.toNat ≤ '7'.toNat := h.2
  exact Nat.lt_of_le_of_lt le (by decide)

theorem hexDigit_basic {c : Char} (h : Cursor.isHexDigit c = true) : c.toNat < 128 := by
  simp only [Cursor.isHexDigit, Char.isDigit, Bool.or_eq_true, Bool.and_eq_true,
    decide_eq_true_eq] at h
  rcases h with (h | h) | h
  · have le : c.toNat ≤ '9'.toNat := h.2
    exact Nat.lt_of_le_of_lt le (by decide)
  · have le : c.toNat ≤ 'f'.toNat := h.2
    exact Nat.lt_of_le_of_lt le (by decide)
  · have le : c.toNat ≤ 'F'.toNat := h.2
    exact Nat.lt_of_le_of_lt le (by decide)

theorem digitValue_hexDigit {d : Char} (hex : Cursor.isHexDigit d = true) :
    Text.digitValue? 16 d = some (Cursor.hexValue d) := by
  have value := hexDigit_value d.toNat (hexDigit_basic hex)
  rw [Char.ofNat_toNat] at value
  exact value hex

theorem numberAfter_eq_foldl {base : Nat} {value : Char → Nat} :
    ∀ (digits : List Char), (∀ c ∈ digits, Text.digitValue? base c = some (value c)) →
      ∀ read, Text.numberAfter base read digits =
        some (digits.foldl (fun n c => base * n + value c) read) := by
  intro digits
  induction digits with
  | nil =>
      intro _ read
      rfl
  | cons c digits ih =>
      intro each read
      have first := each c (by simp)
      have rest := ih (fun d member => each d (by simp [member]))
      simp only [Text.numberAfter, first, rest, List.foldl_cons]

theorem numberIn_eq_foldl {base : Nat} {value : Char → Nat} {digits : List Char}
    (some_ : digits ≠ []) (each : ∀ c ∈ digits, Text.digitValue? base c = some (value c)) :
    Text.numberIn? base digits = some (digits.foldl (fun n c => base * n + value c) 0) := by
  simp only [Text.numberIn?, List.isEmpty_iff, some_, if_false, numberAfter_eq_foldl digits each]

theorem cutBytes_basic : ∀ (digits rest : List Char), (∀ c ∈ digits, c.toNat < 128) →
    cutBytes digits.length (digits ++ rest) = ⟨digits, [], rest⟩ := by
  intro digits
  induction digits with
  | nil =>
      intro rest _
      cases rest <;> rfl
  | cons c digits ih =>
      intro rest basic
      have size : c.utf8Size = 1 := by
        have low : c.toNat < 128 := basic c (by simp)
        have small : c.val ≤ 0x7f := by
          show c.val.toNat ≤ 127
          exact Nat.le_of_lt_succ low
        simp [Char.utf8Size, small]
      have others := ih rest fun d member => basic d (by simp [member])
      simp only [List.length_cons, List.cons_append, cutBytes, size]
      rw [if_pos (by omega), Nat.add_sub_cancel, others]

theorem numericEscape_digits (l : Literal) {base : Nat} {value : Char → Nat}
    (bytes : Nat → List UInt8) {digits rest : List Char} (chars : l.rest = digits ++ rest)
    (some_ : digits ≠ []) (basic : ∀ c ∈ digits, c.toNat < 128)
    (each : ∀ c ∈ digits, Text.digitValue? base c = some (value c)) :
    numericEscape l base digits.length bytes =
      ⟨digits.reverse ++ l.read,
        (bytes (digits.foldl (fun n c => base * n + value c) 0)).reverse ++ l.bytes, rest⟩ := by
  have number : escapedNumber base ⟨digits, [], rest⟩ =
      digits.foldl (fun n c => base * n + value c) 0 := by
    have plain := numberIn_eq_foldl some_ each
    unfold escapedNumber
    cases digits with
    | nil => exact absurd rfl some_
    | cons c more =>
        by_cases plus : c = '+'
        · have noDigit := each c (by simp)
          subst plus
          simp [Text.digitValue?] at noDigit
        · simp [plus, plain]
  unfold numericEscape
  rw [chars, cutBytes_basic digits rest basic]
  simp only [number, List.reverse_nil, List.nil_append]

/-! ## Escapes -/

theorem hexEscape_ok {start : Position} {cur after : Cursor} {count code : Nat}
    (read : Cursor.hexEscape start cur count = .ok (code, after)) {c : Char} {rest : List Char}
    (chars : cur.rest = c :: rest) :
    ∃ digits, rest = digits ++ after.rest ∧ digits.length = count ∧
      (∀ d ∈ digits, Cursor.isHexDigit d = true) ∧ code = Cursor.hexNumber digits := by
  simp only [Cursor.hexEscape, chars, List.drop_succ_cons, List.drop_zero] at read
  split at read
  · rename_i valid
    obtain ⟨length, digits⟩ := valid
    simp only [Except.ok.injEq, Prod.mk.injEq] at read
    obtain ⟨rfl, rfl⟩ := read
    refine ⟨rest.take count, ?_, length, List.all_eq_true.mp digits, rfl⟩
    simp [Cursor.skip, chars, Nat.add_comm 1 count]
  · cases read

theorem numericEscape_hex (l : Literal) (bytes : Nat → List UInt8) {digits rest : List Char}
    {count : Nat} (chars : l.rest = digits ++ rest) (length : digits.length = count)
    (positive : 0 < count) (hex : ∀ d ∈ digits, Cursor.isHexDigit d = true) :
    ∃ read, numericEscape l 16 count bytes =
      ⟨read, (bytes (Cursor.hexNumber digits)).reverse ++ l.bytes, rest⟩ := by
  have some_ : digits ≠ [] := by
    rintro rfl
    simp only [List.length_nil] at length
    omega
  have basic : ∀ d ∈ digits, d.toNat < 128 := fun d member => hexDigit_basic (hex d member)
  have each : ∀ d ∈ digits, Text.digitValue? 16 d = some (Cursor.hexValue d) :=
    fun d member => digitValue_hexDigit (hex d member)
  subst length
  exact ⟨_, numericEscape_digits l bytes chars some_ basic each⟩

theorem numericEscape_octal (l : Literal) {digits rest : List Char}
    (chars : l.rest = digits ++ rest) (length : digits.length = 3)
    (octal : ∀ d ∈ digits, Cursor.isOctalDigit d = true) :
    ∃ read, numericEscape l 8 3 oneByte =
      ⟨read, UInt8.ofNat (Cursor.octalNumber digits) :: l.bytes, rest⟩ := by
  have some_ : digits ≠ [] := by
    rintro rfl
    simp at length
  have basic : ∀ d ∈ digits, d.toNat < 128 := fun d member => octalDigit_basic (octal d member)
  have each : ∀ d ∈ digits, Text.digitValue? 8 d = some (d.toNat - '0'.toNat) := by
    intro d member
    have value := octalDigit_value d.toNat (basic d member)
    rw [Char.ofNat_toNat] at value
    exact value (octal d member)
  have escape := numericEscape_digits l oneByte chars some_ basic each
  rw [length] at escape
  exact ⟨_, escape⟩

theorem unicodeEscape_ok {start : Position} {cur after : Cursor} {count : Nat}
    {more : List UInt8} (read : Cursor.unicodeEscape start cur count = .ok (more, after)) :
    ∃ code, Cursor.hexEscape start cur count = .ok (code, after) ∧ more = codeBytes code := by
  unfold Cursor.unicodeEscape at read
  split at read
  · cases read
  · rename_i code after' hex
    split at read
    · rename_i c valid
      simp only [Except.ok.injEq, Prod.mk.injEq] at read
      obtain ⟨rfl, rfl⟩ := read
      exact ⟨code, hex, by simp [codeBytes, Text.charOfCode, valid]⟩
    · cases read

/-- An escape that the lexer accepts stands for the same bytes in the scanner. -/
theorem readEscape_agrees {start : Position} {cur after : Cursor} {more : List UInt8}
    (read : Cursor.readEscape start cur = .ok (more, after)) {l : Literal}
    (chars : l.rest = cur.rest) :
    ∃ chars', readEscape l = ⟨chars', more.reverse ++ l.bytes, after.rest⟩ := by
  unfold Cursor.readEscape at read
  unfold readEscape
  cases given : cur.rest with
  | nil => simp [given] at read
  | cons c rest =>
      rw [given] at chars
      simp only [given, chars] at read ⊢
      rw [← simpleEscape_eq_escapedByte]
      cases simple : Cursor.simpleEscape? c with
      | some byte =>
          simp only [simple, Except.ok.injEq, Prod.mk.injEq] at read ⊢
          obtain ⟨rfl, rfl⟩ := read
          exact ⟨c :: l.read, by simp [Literal.push, Cursor.skip, given]⟩
      | none =>
          simp only [simple] at read ⊢
          by_cases octal : Cursor.isOctalDigit c = true
          · have range : ('0' ≤ c && c ≤ '7') = true := octal
            rw [if_pos octal] at read
            rw [if_pos range]
            split at read
            · rename_i valid
              obtain ⟨length, digits⟩ := valid
              simp only [Except.ok.injEq, Prod.mk.injEq] at read
              obtain ⟨rfl, rfl⟩ := read
              have parts : l.rest = (c :: rest.take 2) ++ rest.drop 2 := by
                rw [chars, List.cons_append, List.take_append_drop]
              have all : ∀ d ∈ c :: rest.take 2, Cursor.isOctalDigit d = true := by
                intro d member
                rcases List.mem_cons.mp member with rfl | later
                · exact octal
                · exact List.all_eq_true.mp digits d later
              obtain ⟨read, escape⟩ := numericEscape_octal l parts (by simp [length]) all
              refine ⟨read, escape.trans ?_⟩
              simp [Cursor.skip, given]
            · cases read
          · have range : ¬ ('0' ≤ c && c ≤ '7') = true := octal
            rw [if_neg octal] at read
            rw [if_neg range]
            have behind : (l.push c [] rest).rest = rest := rfl
            by_cases x : c = 'x'
            · rw [if_pos x] at read ⊢
              split at read
              · cases read
              · rename_i code after' hex
                simp only [Except.ok.injEq, Prod.mk.injEq] at read
                obtain ⟨rfl, rfl⟩ := read
                obtain ⟨digits, parts, length, valid, rfl⟩ := hexEscape_ok hex given
                exact numericEscape_hex _ oneByte (behind.trans parts) length (by decide) valid
            · rw [if_neg x] at read ⊢
              by_cases u : c = 'u'
              · rw [if_pos u] at read ⊢
                obtain ⟨code, hex, rfl⟩ := unicodeEscape_ok read
                obtain ⟨digits, parts, length, valid, rfl⟩ := hexEscape_ok hex given
                exact numericEscape_hex _ codeBytes (behind.trans parts) length (by decide) valid
              · rw [if_neg u] at read ⊢
                by_cases capital : c = 'U'
                · rw [if_pos capital] at read ⊢
                  obtain ⟨code, hex, rfl⟩ := unicodeEscape_ok read
                  obtain ⟨digits, parts, length, valid, rfl⟩ := hexEscape_ok hex given
                  exact numericEscape_hex _ codeBytes (behind.trans parts) length (by decide) valid
                · rw [if_neg capital] at read
                  cases read

/-! ## Literals -/

theorem readInterpreted_agrees {start : Position} {fault : Fault} :
    ∀ (steps : Nat) (cur : Cursor) (bytes : List UInt8) {result : List UInt8} {after : Cursor},
      Cursor.readQuoted start '"' fault steps cur bytes = .ok (result, after) →
      ∀ (bound : Nat) (l : Literal), l.rest = cur.rest → l.bytes = bytes →
        cur.rest.length ≤ bound →
        ∃ chars, readInterpreted bound l = ⟨chars, result, after.rest⟩ := by
  -- By induction on the steps of the lexer.  The scanner has a bound of its own, which stays at
  -- least as large as what is left of the text.
  intro steps
  induction steps with
  | zero =>
      intro cur bytes result after read
      simp [Cursor.readQuoted] at read
  | succ steps ih =>
      intro cur bytes result after read bound l same sameBytes enough
      unfold Cursor.readQuoted at read
      cases given : cur.rest with
      | nil => simp [given] at read
      | cons c rest =>
          rw [given] at same enough
          simp only [given] at read
          rw [List.length_cons] at enough
          obtain ⟨bound, rfl⟩ : ∃ fewer, bound = fewer + 1 := ⟨bound - 1, by omega⟩
          have skipped : (cur.skip 1).rest = rest := by simp [Cursor.skip, given]
          unfold readInterpreted
          simp only [same]
          by_cases line : c = '\n'
          · rw [if_pos line] at read
            cases read
          · rw [if_neg line] at read
            by_cases quote : c = '"'
            · rw [if_pos quote] at read ⊢
              simp only [Except.ok.injEq, Prod.mk.injEq] at read
              obtain ⟨rfl, rfl⟩ := read
              exact ⟨c :: l.read, by simp [Literal.push, skipped, sameBytes]⟩
            · rw [if_neg quote] at read ⊢
              rw [if_neg line]
              by_cases escape : c = '\\'
              · rw [if_pos escape] at read ⊢
                split at read
                · cases read
                · rename_i more behind escaped
                  have behindSlash : (l.push c [] rest).rest = (cur.skip 1).rest := skipped.symm
                  obtain ⟨chars, agrees⟩ := readEscape_agrees escaped behindSlash
                  have shorter := length_readEscape (l.push c [] rest)
                  rw [agrees] at shorter
                  have short : behind.rest.length ≤ bound := by
                    have below : behind.rest.length ≤ rest.length := shorter
                    omega
                  rw [agrees]
                  refine ih behind _ read bound _ rfl ?_ short
                  simp [Literal.push, sameBytes]
              · rw [if_neg escape] at read ⊢
                refine ih _ _ read bound _ skipped.symm ?_ (by rw [skipped]; omega)
                simp [Literal.push, sameBytes]

theorem interpretedPiece_agrees {bound : Nat} {cur after : Cursor} {rest : List Char}
    {lexeme : Lexeme} (chars : cur.rest = '"' :: rest)
    (read : cur.readString bound = .ok (lexeme, after)) :
    ∃ value spelled, lexeme = .token (.string value) ∧
      interpretedPiece rest.length rest = (⟨.text value, spelled⟩, after.rest) := by
  unfold Cursor.readString at read
  cases quoted : Cursor.readQuoted cur.position '"' .stringNotTerminated bound (cur.skip 1) [] with
  | error e =>
      rw [quoted] at read
      cases read
  | ok result =>
      obtain ⟨bytes, behind⟩ := result
      rw [quoted] at read
      have ends : (Lexeme.token (.string (Cursor.quotedText bytes)), behind) = (lexeme, after) :=
        Except.ok.inj read
      simp only [Prod.mk.injEq] at ends
      obtain ⟨rfl, rfl⟩ := ends
      have skipped : rest = (cur.skip 1).rest := by simp [Cursor.skip, chars]
      obtain ⟨spelled, agrees⟩ := readInterpreted_agrees bound (cur.skip 1) [] quoted rest.length
        ⟨['"'], [], rest⟩ skipped rfl (by rw [← skipped])
      refine ⟨_, spelled.reverse, rfl, ?_⟩
      unfold interpretedPiece
      rw [agrees]
      rfl

theorem rawPiece_agrees {cur after : Cursor} {rest : List Char} {lexeme : Lexeme}
    (chars : cur.rest = '\x60' :: rest) (read : cur.readRawString = .ok (lexeme, after)) :
    ∃ value spelled, lexeme = .token (.string value) ∧
      rawPiece rest = (⟨.text value, spelled⟩, after.rest) := by
  simp only [Cursor.readRawString, Cursor.readWhile, Cursor.skip, chars, List.drop_succ_cons,
    List.drop_zero, drop_length_takeWhile] at read
  split at read
  · cases read
  · rename_i closed
    simp only [Except.ok.injEq, Prod.mk.injEq] at read
    obtain ⟨rfl, rfl⟩ := read
    cases ending : rest.dropWhile (· ≠ '\x60') with
    | nil =>
        rw [ending] at closed
        exact absurd rfl closed
    | cons quote more =>
        refine ⟨_, '\x60' :: rest.takeWhile (· ≠ '\x60') ++ [quote], rfl, ?_⟩
        unfold rawPiece
        simp only [ending, List.drop_succ_cons, List.drop_zero]

/-! ## Rune literals -/

/-- Behind its letter an escape has digits only. -/
theorem readEscape_digits {start : Position} {cur after : Cursor} {bytes : List UInt8}
    (read : Cursor.readEscape start cur = .ok (bytes, after)) :
    ∃ letter digits, cur.rest = letter :: (digits ++ after.rest) ∧
      ∀ d ∈ digits, Cursor.isHexDigit d = true := by
  unfold Cursor.readEscape at read
  cases chars : cur.rest with
  | nil => simp [chars] at read
  | cons c rest =>
      simp only [chars] at read
      refine ⟨c, ?_⟩
      split at read
      · cases read
        exact ⟨[], by simp [Cursor.skip, chars], by simp⟩
      split at read
      · split at read
        · rename_i valid
          cases read
          refine ⟨rest.take 2, by simp [Cursor.skip, chars], fun d member => ?_⟩
          have octal := List.all_eq_true.mp valid.2 d member
          simp only [Cursor.isOctalDigit, Bool.and_eq_true, decide_eq_true_eq] at octal
          simp only [Cursor.isHexDigit, Char.isDigit, Bool.or_eq_true, Bool.and_eq_true,
            decide_eq_true_eq]
          exact .inl (.inl ⟨octal.1, Nat.le_trans octal.2 (by decide)⟩)
        · cases read
      split at read
      · split at read
        · cases read
        · rename_i hex
          cases read
          obtain ⟨digits, parts, _, valid, _⟩ := hexEscape_ok hex chars
          exact ⟨digits, congrArg (c :: ·) parts, valid⟩
      split at read
      · obtain ⟨_, hex, _⟩ := unicodeEscape_ok read
        obtain ⟨digits, parts, _, valid, _⟩ := hexEscape_ok hex chars
        exact ⟨digits, congrArg (c :: ·) parts, valid⟩
      split at read
      · obtain ⟨_, hex, _⟩ := unicodeEscape_ok read
        obtain ⟨digits, parts, _, valid, _⟩ := hexEscape_ok hex chars
        exact ⟨digits, congrArg (c :: ·) parts, valid⟩
      · cases read

theorem readRune_digits (rest : List Char) : ∀ (digits read : List Char),
    (∀ d ∈ digits, Cursor.isHexDigit d = true) →
      readRune read (digits ++ rest) = readRune (digits.reverse ++ read) rest := by
  intro digits
  induction digits with
  | nil =>
      intro read _
      rfl
  | cons d digits ih =>
      intro read hex
      have plain : ∀ c : Char, Cursor.isHexDigit c = false → d ≠ c := by
        rintro c no rfl
        rw [hex _ List.mem_cons_self] at no
        cases no
      rw [List.cons_append, readRune, if_neg (plain '\'' rfl), if_neg (plain '\n' rfl),
        ih (d :: read) fun c member => hex c (List.mem_cons_of_mem d member)]
      · simp
      · exact fun is _ => plain '\\' rfl is
      · exact fun c tail is => absurd is (plain '\\' rfl)

theorem readRune_agrees {start : Position} {fault : Fault} :
    ∀ (steps : Nat) (cur : Cursor) (bytes : List UInt8) {result : List UInt8} {after : Cursor},
      Cursor.readQuoted start '\'' fault steps cur bytes = .ok (result, after) →
      ∀ read, (readRune read cur.rest).2 = after.rest := by
  intro steps
  induction steps with
  | zero =>
      intro cur bytes result after quoted
      simp [Cursor.readQuoted] at quoted
  | succ steps ih =>
      intro cur bytes result after quoted read
      unfold Cursor.readQuoted at quoted
      cases given : cur.rest with
      | nil => simp [given] at quoted
      | cons c rest =>
          have skipped : (cur.skip 1).rest = rest := by simp [Cursor.skip, given]
          simp only [given] at quoted
          split at quoted
          · cases quoted
          rename_i line
          split at quoted
          · rename_i quote
            cases quoted
            rw [quote, skipped]
            rfl
          rename_i quote
          split at quoted
          · rename_i slash
            split at quoted
            · cases quoted
            · rename_i more behind escaped
              obtain ⟨letter, digits, parts, hex⟩ := readEscape_digits escaped
              rw [skipped] at parts
              rw [slash, parts, readRune, readRune_digits _ _ _ hex]
              exact ih _ _ quoted _
          · rename_i slash
            rw [readRune, if_neg quote, if_neg line, ← skipped]
            · exact ih _ _ quoted _
            · exact fun is _ => slash is
            · exact fun d tail is => absurd is slash

theorem runePiece_agrees {bound : Nat} {cur after : Cursor} {rest : List Char} {lexeme : Lexeme}
    (chars : cur.rest = '\'' :: rest) (read : cur.readRune bound = .ok (lexeme, after)) :
    (∃ c, lexeme = .token (.rune c)) ∧ (runePiece rest).2 = after.rest := by
  have skipped : (cur.skip 1).rest = rest := by simp [Cursor.skip, chars]
  unfold Cursor.readRune at read
  cases quoted : Cursor.readQuoted cur.position '\'' .runeNotTerminated bound (cur.skip 1) [] with
  | error e =>
      rw [quoted] at read
      cases read
  | ok result =>
      rw [quoted] at read
      simp only [bind, Except.bind] at read
      split at read
      · rename_i c _
        cases read
        refine ⟨⟨c, rfl⟩, ?_⟩
        rw [← skipped]
        exact readRune_agrees _ _ _ quoted ['\'']
      · cases read

end SandboxedGo.Submission
