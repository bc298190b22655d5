import SandboxedGo.Proofs.ByteOffsets
import SandboxedGo.Proofs.RenamedPieces
import SandboxedGo.Submission.ByteScan

/-!
# What a look by bytes sees

At the beginning of a character a step by bytes sees the piece that begins there, and gets behind
it.  In between it may stand inside a character: behind a backslash in a rune, behind an escape of a
fixed number of bytes, or in a character that it takes byte by byte.  No byte there is taken for a
character that means something, so the reader comes to the next beginning of a character.  Main
statement: `scanStep?_agrees`.
-/

set_option autoImplicit false

namespace SandboxedGo

open Text (BytesFrom Continues Reached encoded encoded_cons utf8EncodeChar_cons byteLength
  byteLength_append)

namespace Submission

variable {bytes taken left : List UInt8} {i : Nat}

/-! ## Runes -/

theorem runeStop_at {b : UInt8} (stands : BytesFrom bytes i (b :: left)) :
    runeStop bytes i =
      if Char.ofUInt8 b = '\\' then runeStop bytes (i + 2)
      else if Char.ofUInt8 b = '\'' then i + 1
      else if Char.ofUInt8 b = '\n' then i
      else runeStop bytes (i + 1) := by
  rw [runeStop, dif_pos stands.inside, stands.getElem stands.inside]

theorem runeStop_past (past : bytes.length ≤ i) : runeStop bytes i = bytes.length := by
  rw [runeStop, dif_neg (Nat.not_lt_of_ge past)]

theorem runeStop_run (stands : BytesFrom bytes i (taken ++ left))
    (plain : ∀ b ∈ taken, Char.ofUInt8 b ∉ ['\\', '\'', '\n']) :
    runeStop bytes i = runeStop bytes (i + taken.length) := by
  induction taken generalizing i with
  | nil => rfl
  | cons b taken ih =>
      have noMark := plain b List.mem_cons_self
      simp only [List.mem_cons, List.not_mem_nil, or_false, not_or] at noMark
      rw [List.cons_append] at stands
      rw [runeStop_at stands, if_neg noMark.1, if_neg noMark.2.1, if_neg noMark.2.2,
        ih stands.next fun b isIn => plain b (List.mem_cons_of_mem _ isIn), List.length_cons]
      congr 1
      omega

theorem runeStop_agrees (read chars : List Char) (stands : BytesFrom bytes i (encoded chars)) :
    BytesFrom bytes (runeStop bytes i) (encoded (readRune read chars).2) := by
  have basic : ∀ d ∈ ['\\', '\'', '\n'], d.toNat < 128 := by simp
  fun_induction readRune read chars generalizing i with
  | case1 read =>
      rw [runeStop_past (Nat.le_of_eq stands.ends.symm)]
      exact .all bytes
  | case2 read =>
      obtain ⟨b, text, is⟩ := Text.encoded_basic (d := '\\') (by decide) []
      rw [text] at stands
      have past : bytes.length ≤ i + 2 := by
        rw [stands.length]
        exact Nat.add_le_add_left (Nat.le_succ 1) i
      rw [runeStop_at stands, if_pos is, runeStop_past past]
      exact .all bytes
  | case3 read c rest ih =>
      obtain ⟨b, text, is⟩ := Text.encoded_basic (d := '\\') (by decide) (c :: rest)
      obtain ⟨d, more, are⟩ := utf8EncodeChar_cons c
      rw [text, encoded_cons, are] at stands
      -- Two bytes on, the reader may stand inside the character behind the backslash.
      have inside : BytesFrom bytes (i + 2) (more ++ encoded rest) := stands.next.next
      rw [runeStop_at stands, if_pos is,
        runeStop_run inside ((Text.continues_tail are).not_mem basic)]
      exact ih inside.skip
  | case4 read rest _ =>
      obtain ⟨b, text, is⟩ := Text.encoded_basic (d := '\'') (by decide) rest
      rw [text] at stands
      rw [runeStop_at stands, is, if_neg (by decide), if_pos rfl]
      exact stands.next
  | case5 read rest _ _ =>
      have here := stands
      obtain ⟨b, text, is⟩ := Text.encoded_basic (d := '\n') (by decide) rest
      rw [text] at stands
      rw [runeStop_at stands, is, if_neg (by decide), if_neg (by decide), if_pos rfl]
      exact here
  | case6 read c rest noEnd noEscape noQuote noLine ih =>
      have noMark : c ∉ ['\\', '\'', '\n'] := by
        simp only [List.mem_cons, List.not_mem_nil, or_false, not_or]
        refine ⟨fun escape => ?_, noQuote, noLine⟩
        cases rest with
        | nil => exact noEnd escape rfl
        | cons d rest => exact noEscape d rest escape rfl
      rw [encoded_cons] at stands
      rw [runeStop_run stands (Text.bytes_not_mem noMark basic)]
      exact ih stands.skip

/-! ## Escapes -/

/-- The bytes in front of a cut, and those of the character that it splits. -/
theorem cutBytes_bytes (width : Nat) (chars : List Char) : ∃ front,
    encoded (cutBytes width chars).covered = front ++ (cutBytes width chars).spill ∧
      front.length = min width (encoded chars).length ∧ Continues (cutBytes width chars).spill := by
  induction chars generalizing width with
  | nil => cases width <;> exact ⟨[], rfl, (Nat.min_zero _).symm, Text.continues_nil⟩
  | cons c rest ih =>
      cases width with
      | zero =>
          rw [cutBytes_zero]
          exact ⟨[], rfl, (Nat.zero_min _).symm, Text.continues_nil⟩
      | succ width =>
          have size := String.length_utf8EncodeChar c
          have whole : (encoded (c :: rest)).length = c.utf8Size + (encoded rest).length := by
            rw [encoded_cons, List.length_append, size]
          by_cases fits : c.utf8Size ≤ width + 1
          · rw [cutBytes_fits fits, encoded_cons]
            obtain ⟨front, covered, length, continues⟩ := ih (width + 1 - c.utf8Size)
            refine ⟨String.utf8EncodeChar c ++ front, ?_, ?_, continues⟩
            · rw [covered, List.append_assoc]
            · rw [whole, List.length_append, length, size]
              omega
          · rw [cutBytes_splits fits, encoded_cons]
            refine ⟨(String.utf8EncodeChar c).take (width + 1), ?_, ?_, Text.continues_drop c width⟩
            · rw [List.take_append_drop]
              exact List.append_nil _
            · rw [whole, List.length_take, size]
              omega

/-- The digits of an escape are a number only if its end splits no character. -/
theorem digitsNumber_cut (base width : Nat) {chars : List Char} {front : List UInt8}
    (covered : encoded (cutBytes width chars).covered = front ++ (cutBytes width chars).spill)
    (continues : Continues (cutBytes width chars).spill) :
    digitsNumber base front = escapedNumber base (cutBytes width chars) := by
  unfold digitsNumber
  cases spill : (cutBytes width chars).spill with
  | nil =>
      rw [spill, List.append_nil] at covered
      rw [← covered, ← Text.toByteArray_ofList, Text.fromUTF8?_toByteArray]
      simp only [escapedNumber, String.toList_ofList, spill]
  | cons b spilled =>
      have split : (cutBytes width chars).spill ≠ [] := by rw [spill]; exact List.cons_ne_nil _ _
      rw [String.fromUTF8?, dif_neg (Text.not_isValidUTF8_of_continues covered split continues)]
      simp only [escapedNumber, spill]
      rfl

/-- What is read of a literal is what was read by bytes, and the bytes of a character inside which
the reader stands then. -/
def ReadsAs (bytes : List UInt8) (i : Nat) (l after : Literal)
    (read : Option (List UInt8 × Nat)) : Prop :=
  ∃ value stop split, read = some (value, stop) ∧ i ≤ stop ∧ Continues split ∧
    BytesFrom bytes stop (split ++ encoded after.rest) ∧
    after.bytes.reverse = l.bytes.reverse ++ value ++ split

theorem numberEscape?_agrees (l : Literal) (base width : Nat) (value : Nat → List UInt8)
    (stands : BytesFrom bytes i (encoded l.rest)) :
    ReadsAs bytes i l (numericEscape l base width value)
      (numberEscape? bytes i base width value) := by
  obtain ⟨front, covered, length, continues⟩ := cutBytes_bytes width l.rest
  have parts : encoded l.rest =
      front ++ ((cutBytes width l.rest).spill ++ encoded (cutBytes width l.rest).rest) := by
    rw [← List.append_assoc, ← covered, ← Text.encoded_append, covered_cutBytes]
  have stop : min (i + width) bytes.length = i + front.length := by
    rw [stands.length, length]
    omega
  rw [parts] at stands
  refine ⟨value (escapedNumber base (cutBytes width l.rest)), i + front.length,
    (cutBytes width l.rest).spill, ?_, Nat.le_add_right _ _, continues, stands.skip, ?_⟩
  · rw [numberEscape?, stop, stands.between]
    dsimp only [Option.bind_eq_bind, Option.bind_some]
    rw [digitsNumber_cut base width covered continues]
  · simp [numericEscape]

theorem ReadsAs.later {l after : Literal} {c : Char} {rest : List Char}
    {read : Option (List UInt8 × Nat)}
    (reads : ReadsAs bytes (i + 1) (l.push c [] rest) after read) :
    ReadsAs bytes i l after read := by
  obtain ⟨value, stop, split, is, onward, continues, stands, same⟩ := reads
  exact ⟨value, stop, split, is, Nat.le_of_succ_le onward, continues, stands, same⟩

theorem escapedByte?_wide {d : Char} (wide : 128 ≤ d.toNat) : escapedByte? d = none := by
  unfold escapedByte?
  split
  case h_11 => rfl
  all_goals exact absurd wide (by decide)

theorem isOctalDigit_wide {d : Char} (wide : 128 ≤ d.toNat) :
    Source.Cursor.isOctalDigit d = false := by
  refine Bool.and_eq_false_imp.mpr fun _ => decide_eq_false fun least => ?_
  have small : d.toNat ≤ '7'.toNat := UInt32.le_iff_toNat_le.mp least
  exact absurd (Nat.le_trans wide small) (by decide)

theorem escape?_agrees (l : Literal) (stands : BytesFrom bytes i (encoded l.rest)) :
    ReadsAs bytes i l (readEscape l) (escape? bytes i) := by
  obtain ⟨read, value, chars⟩ := l
  cases chars with
  | nil =>
      refine ⟨[], i, [], ?_, Nat.le_refl i, Text.continues_nil, stands, by simp [readEscape]⟩
      rw [escape?, stands.getElem?]
      rfl
  | cons c rest =>
      obtain ⟨b, more, are⟩ := utf8EncodeChar_cons c
      have text : encoded (c :: rest) = b :: (more ++ encoded rest) := by
        rw [encoded_cons, are, List.cons_append]
      have next : BytesFrom bytes (i + 1) (more ++ encoded rest) :=
        BytesFrom.next (b := b) (text ▸ stands)
      have here : bytes[i]? = some b := by
        rw [stands.getElem?, text]
        rfl
      have simple := Text.first_byte escapedByte? (fun _ => escapedByte?_wide) are
      have octal : ('0' ≤ Char.ofUInt8 b && Char.ofUInt8 b ≤ '7') = ('0' ≤ c && c ≤ '7') :=
        Text.first_byte Source.Cursor.isOctalDigit (fun _ => isOctalDigit_wide) are
      have letter {d : Char} (basic : d.toNat < 128) := Text.first_byte_iff basic are
      have number (basic : c.toNat < 128) (base width : Nat) (bytesOf : Nat → List UInt8) :
          ReadsAs bytes i ⟨read, value, c :: rest⟩
            (numericEscape (Literal.push ⟨read, value, c :: rest⟩ c [] rest) base width bytesOf)
            (numberEscape? bytes (i + 1) base width bytesOf) := by
        rw [Text.tail_basic basic are] at next
        exact (numberEscape?_agrees _ base width bytesOf next).later
      simp only [escape?, here, readEscape, simple, octal, letter (d := 'x') (by decide),
        letter (d := 'u') (by decide), letter (d := 'U') (by decide)]
      cases simply : escapedByte? c with
      | some byte =>
          have basic : c.toNat < 128 := by
            refine Nat.lt_of_not_le fun wide => ?_
            rw [escapedByte?_wide wide] at simply
            cases simply
          rw [Text.tail_basic basic are] at next
          exact ⟨[byte], i + 1, [], rfl, Nat.le_succ i, Text.continues_nil, next,
            by simp [Literal.push]⟩
      | none =>
          dsimp only
          split
          · exact numberEscape?_agrees _ 8 3 oneByte stands
          split
          · rename_i is
            exact number (by rw [is]; decide) 16 2 oneByte
          split
          · rename_i is
            exact number (by rw [is]; decide) 16 4 codeBytes
          split
          · rename_i is
            exact number (by rw [is]; decide) 16 8 codeBytes
          · exact ⟨[b], i + 1, more, rfl, Nat.le_succ i, Text.continues_tail are, next,
              by simp [Literal.push, are]⟩

/-! ## Literals -/

theorem interpreted?_at {b : UInt8} (stands : BytesFrom bytes i (b :: left)) (read : List UInt8) :
    interpreted? bytes i read =
      if Char.ofUInt8 b = '"' then some (read, i + 1)
      else if Char.ofUInt8 b = '\n' then some (read, i)
      else if Char.ofUInt8 b = '\\' then
        match escape? bytes (i + 1) with
        | some (value, stop) =>
          if i < stop then interpreted? bytes stop (read ++ value) else none
        | none => none
      else interpreted? bytes (i + 1) (read ++ [b]) := by
  rw [interpreted?, dif_pos stands.inside, stands.getElem stands.inside]
  rfl

theorem interpreted?_run (stands : BytesFrom bytes i (taken ++ left))
    (plain : ∀ b ∈ taken, Char.ofUInt8 b ∉ ['"', '\n', '\\']) (read : List UInt8) :
    interpreted? bytes i read = interpreted? bytes (i + taken.length) (read ++ taken) := by
  induction taken generalizing i read with
  | nil => rw [List.append_nil, List.length_nil, Nat.add_zero]
  | cons b taken ih =>
      have noMark := plain b List.mem_cons_self
      simp only [List.mem_cons, List.not_mem_nil, or_false, not_or] at noMark
      rw [List.cons_append] at stands
      rw [interpreted?_at stands, if_neg noMark.1, if_neg noMark.2.1, if_neg noMark.2.2,
        ih stands.next (fun b isIn => plain b (List.mem_cons_of_mem _ isIn)), List.length_cons,
        List.append_assoc, Nat.add_assoc, Nat.add_comm 1]
      rfl

/-- A literal is read to its end, and its value is that of the bytes read. -/
theorem interpreted?_agrees : ∀ (n : Nat) (l : Literal) {i : Nat}, l.rest.length ≤ n →
    BytesFrom bytes i (encoded l.rest) → ∃ stop,
      interpreted? bytes i l.bytes.reverse = some (l.toEnd.bytes.reverse, stop) ∧
        BytesFrom bytes stop (encoded l.toEnd.rest) := by
  have basic : ∀ d ∈ ['"', '\n', '\\'], d.toNat < 128 := by simp
  intro n
  induction n using Nat.strongRecOn with
  | ind n ih =>
      intro l i enough stands
      obtain ⟨read, value, chars⟩ := l
      cases chars with
      | nil =>
          have past : ¬ i < bytes.length := Nat.not_lt_of_ge (Nat.le_of_eq stands.ends.symm)
          refine ⟨i, ?_, stands⟩
          rw [interpreted?, dif_neg past, toEnd_nil]
      | cons c rest =>
          have shorter : rest.length < n := enough
          by_cases quote : c = '"'
          · subst quote
            obtain ⟨b, text, is⟩ := Text.encoded_basic (d := '"') (by decide) rest
            rw [text] at stands
            exact ⟨i + 1, by rw [interpreted?_at stands, if_pos is]; rfl, stands.next⟩
          by_cases line : c = '\n'
          · subst line
            have here := stands
            obtain ⟨b, text, is⟩ := Text.encoded_basic (d := '\n') (by decide) rest
            rw [text] at stands
            refine ⟨i, ?_, here⟩
            rw [interpreted?_at stands, is, if_neg (by decide), if_pos rfl]
            rfl
          by_cases escape : c = '\\'
          · subst escape
            obtain ⟨b, text, is⟩ := Text.encoded_basic (d := '\\') (by decide) rest
            rw [text] at stands
            obtain ⟨escaped, stop, split, reads, onward, continues, next, same⟩ :=
              escape?_agrees (Literal.push ⟨read, value, '\\' :: rest⟩ '\\' [] rest) stands.next
            have left := length_readEscape (Literal.push ⟨read, value, '\\' :: rest⟩ '\\' [] rest)
            obtain ⟨last, ran, ends⟩ := ih _ shorter _ left next.skip
            rw [toEnd_escape]
            refine ⟨last, ?_, ends⟩
            rw [interpreted?_at stands, is, if_neg (by decide), if_neg (by decide), if_pos rfl,
              reads]
            dsimp only
            rw [if_pos (Nat.lt_of_succ_le onward), interpreted?_run next (continues.not_mem basic),
              ← ran, same]
            rfl
          · have noMark : c ∉ ['"', '\n', '\\'] := by
              simp only [List.mem_cons, List.not_mem_nil, or_false, not_or]
              exact ⟨quote, line, escape⟩
            rw [encoded_cons] at stands
            obtain ⟨last, ran, ends⟩ :=
              ih _ shorter (Literal.push ⟨read, value, c :: rest⟩ c (String.utf8EncodeChar c) rest)
                (Nat.le_refl _) stands.skip
            rw [toEnd_plain read value rest quote line escape]
            refine ⟨last, ?_, ends⟩
            rw [interpreted?_run stands (Text.bytes_not_mem noMark basic), ← ran]
            simp [Literal.push]

variable {chars rest : List Char}

theorem rawText?_agrees (reached : Reached chars i rest) : ∃ stop,
    rawText? chars i = some ((rawPiece rest).1.kind, stop) ∧
      BytesFrom (encoded chars) stop (encoded (rawPiece rest).2) := by
  have parts : rest.takeWhile (· ≠ '\x60') ++ rest.dropWhile (· ≠ '\x60') = rest :=
    List.takeWhile_append_dropWhile
  have body := reached
  rw [← parts] at body
  have close := body.skip.bytes
  have read : rawText? chars i = some (.text (String.ofList ((rest.takeWhile (· ≠ '\x60')).filter
      (· ≠ '\r'))), min (i + byteLength (rest.takeWhile (· ≠ '\x60')) + 1) (encoded chars).length) := by
    rw [rawText?, reached.behind?]
    dsimp only [Option.bind_eq_bind, Option.bind_some]
    rw [body.between?]
    rfl
  unfold rawPiece
  split
  · rename_i unclosed
    rw [unclosed] at close
    refine ⟨_, read, ?_⟩
    rw [close.ends, Nat.min_eq_right (Nat.le_succ _)]
    exact .all _
  · rename_i quote after closed
    have is : quote = '\x60' := by
      have last := List.head?_dropWhile_not (· ≠ '\x60') rest
      rw [closed] at last
      simpa using last
    obtain ⟨b, text, -⟩ := Text.encoded_basic (d := '\x60') (by decide) after
    rw [closed, is, text] at close
    refine ⟨_, read, ?_⟩
    rw [Nat.min_eq_left close.inside]
    exact close.next

/-! ## Comments and runs -/

theorem lineStop?_agrees {chars : List Char} (stands : BytesFrom bytes i (encoded chars)) : ∃ stop,
    lineStop? bytes i = some stop ∧
      BytesFrom bytes stop (encoded (chars.dropWhile (· ≠ '\n'))) := by
  have inside : i ≤ bytes.length := by
    rw [stands.length]
    exact Nat.le_add_right _ _
  have line := stands
  rw [← List.takeWhile_append_dropWhile (p := (· ≠ '\n')) (l := chars), Text.encoded_append] at line
  refine ⟨_, ?_, line.skip⟩
  rw [lineStop?, if_pos inside, stands.drop, Text.takeWhile_encoded (by decide)]

theorem runStop?_agrees (reached : Reached chars i rest) (p : Char → Bool) : ∃ stop,
    runStop? chars i p = some stop ∧
      BytesFrom (encoded chars) stop (encoded (rest.dropWhile p)) := by
  have run := reached
  rw [← List.takeWhile_append_dropWhile (p := p) (l := rest)] at run
  exact ⟨_, by rw [runStop?, reached.behind?]; rfl, run.skip.bytes⟩

theorem readBlockComment_breakFrom (read passed chars : List Char) :
    (readBlockComment read chars).2 =
      ((Text.breakFrom ['*', '/'] passed chars).map Prod.snd).getD [] := by
  fun_induction readBlockComment read chars generalizing passed with
  | case1 read => rfl
  | case2 read rest => rfl
  | case3 read c rest noEnd ih =>
      have no : ['*', '/'].isPrefixOf (c :: rest) = false := by
        refine Bool.eq_false_iff.mpr fun begins => ?_
        obtain ⟨behind, is⟩ := List.isPrefixOf_iff_prefix.mp begins
        obtain ⟨rfl, rfl⟩ := List.cons.inj is
        exact noEnd behind rfl rfl
      rw [Text.breakFrom, no, ih (c :: passed)]
      rfl

theorem commentStop?_agrees (reached : Reached chars i rest) (read : List Char) : ∃ stop,
    commentStop? chars i = some stop ∧
      BytesFrom (encoded chars) stop (encoded (readBlockComment read rest).2) := by
  have ends := readBlockComment_breakFrom read [] rest
  rw [commentStop?, reached.behind?, ends, ← Text.breakOn]
  cases found : Text.breakOn ['*', '/'] rest with
  | none => exact ⟨_, by simp only [Option.bind_eq_bind, Option.bind_some, found], .all _⟩
  | some parts =>
      obtain ⟨body, after⟩ := parts
      have whole : rest = (body ++ ['*', '/']) ++ after := Text.breakFrom_splits found
      rw [whole] at reached
      refine ⟨i + byteLength body + 2,
        by simp only [Option.bind_eq_bind, Option.bind_some, found], ?_⟩
      have behind := reached.skip.bytes
      rw [byteLength_append, ← Nat.add_assoc] at behind
      exact behind

/-! ## Steps -/

theorem isSpace_wide {d : Char} (wide : 128 ≤ d.toNat) : isSpace d = false := by
  have no {x : Char} (basic : x.toNat < 128) : decide (d = x) = false := by
    refine decide_eq_false ?_
    rintro rfl
    omega
  simp only [isSpace, no (x := ' ') (by decide), no (x := '\t') (by decide),
    no (x := '\n') (by decide), no (x := '\x0c') (by decide),
    no (x := '\r') (by decide), Bool.or_self]

theorem isDigit_wide {d : Char} (wide : 128 ≤ d.toNat) : d.isDigit = false := by
  refine Bool.eq_false_iff.mpr fun digit => ?_
  exact absurd (basic_of_digit digit) (Nat.not_lt_of_ge wide)

theorem next_byte_any (p : Char → Bool) (basic : ∀ d : Char, 128 ≤ d.toNat → p d = false)
    (rest : List Char) : ((encoded rest).head?.map Char.ofUInt8).any p = rest.head?.any p := by
  cases rest with
  | nil => rfl
  | cons c rest =>
      obtain ⟨b, more, are⟩ := utf8EncodeChar_cons c
      rw [encoded_cons, are]
      exact Text.first_byte p basic are

theorem next_byte_iff {d : Char} (basic : d.toNat < 128) (rest : List Char) :
    (encoded rest).head?.map Char.ofUInt8 = some d ↔ rest.head? = some d := by
  cases rest with
  | nil => exact Iff.rfl
  | cons c rest =>
      obtain ⟨b, more, are⟩ := utf8EncodeChar_cons c
      rw [encoded_cons, are]
      exact (Option.some.injEq ..).to_iff.trans
        ((Text.first_byte_iff basic are).trans (Option.some.injEq ..).to_iff.symm)

variable {c : Char}

theorem scanStep?_eq (reached : Reached chars i (c :: rest)) :
    scanStep? chars i =
      if isSpace c then some (.blank, i + 1)
      else if c = '/' ∧ rest.head? = some '/' then
        (lineStop? (encoded chars) i).map fun stop => (.blank, stop)
      else if c = '/' ∧ rest.head? = some '*' then
        (commentStop? chars (i + 2)).map fun stop => (.blank, stop)
      else if c = '"' then
        (interpreted? (encoded chars) (i + 1) []).map fun read =>
          (.text (Text.ofBytes ⟨read.1.toArray⟩), read.2)
      else if c = '\x60' then rawText? chars (i + 1)
      else if c = '\'' then some (.other, runeStop (encoded chars) (i + 1))
      else if c = '(' then some (.lParen, i + 1)
      else if c = ')' then some (.rParen, i + 1)
      else if c = '.' ∧ rest.head?.any Char.isDigit = false then some (.dot, i + 1)
      else wordAt? chars i := by
  obtain ⟨b, more, are⟩ := utf8EncodeChar_cons c
  have stands := reached.bytes
  rw [encoded_cons, are, List.cons_append] at stands
  have next (basic : c.toNat < 128) : (encoded chars)[i + 1]? = (encoded rest).head? := by
    rw [Text.tail_basic basic are] at stands
    exact stands.next.getElem?
  have space : isSpace (Char.ofUInt8 b) = isSpace c :=
    Text.first_byte isSpace (fun _ => isSpace_wide) are
  have letter {d : Char} (basic : d.toNat < 128) := Text.first_byte_iff basic are
  have two {d e : Char} (basic : d.toNat < 128) (basic' : e.toNat < 128) :
      Char.ofUInt8 b = d ∧ (encoded chars)[i + 1]?.map Char.ofUInt8 = some e ↔
        c = d ∧ rest.head? = some e := by
    rw [letter basic]
    refine and_congr_right fun is => ?_
    rw [next (is ▸ basic)]
    exact next_byte_iff basic' rest
  have point : Char.ofUInt8 b = '.' ∧
      ((encoded chars)[i + 1]?.map Char.ofUInt8).any Char.isDigit = false ↔
        c = '.' ∧ rest.head?.any Char.isDigit = false := by
    rw [letter (d := '.') (by decide)]
    refine and_congr_right fun is => ?_
    rw [next (is ▸ by decide), next_byte_any Char.isDigit (fun _ => isDigit_wide)]
  rw [scanStep?]
  simp only [dif_pos stands.inside, stands.getElem stands.inside, space,
    two (d := '/') (e := '/') (by decide) (by decide),
    two (d := '/') (e := '*') (by decide) (by decide), letter (d := '"') (by decide),
    letter (d := '\x60') (by decide), letter (d := '\'') (by decide), letter (d := '(') (by decide),
    letter (d := ')') (by decide), point]

/-- What a step sees at the beginning of a character, and the beginning of a character that it comes
to. -/
def Sees (chars : List Char) (seen : Option (PieceKind × Nat)) (piece : Piece × List Char) : Prop :=
  ∃ stop, seen = some (piece.1.kind, stop) ∧ BytesFrom (encoded chars) stop (encoded piece.2)

theorem sees_run {stop? : Option Nat} (kind : PieceKind) (first : Char) {p : Char → Bool}
    (run : ∃ stop, stop? = some stop ∧ BytesFrom (encoded chars) stop (encoded (rest.dropWhile p))) :
    Sees chars (stop?.map fun stop => (kind, stop)) (runPiece kind first p rest) := by
  obtain ⟨stop, rfl, stands⟩ := run
  exact ⟨stop, rfl, stands⟩

/-- What is no mark of its own is a name, a number or a character that is nothing else. -/
theorem wordAt?_agrees (reached : Reached chars i (c :: rest)) (noSpace : isSpace c = false)
    (noMark : c ∉ ['"', '\x60', '\'', '(', ')']) (noComment : c = '/' → rest.head? ≠ some '/' ∧
      rest.head? ≠ some '*') (noPoint : c = '.' → rest.head?.any Char.isDigit = true) :
    Sees chars (wordAt? chars i) (firstPiece rest.length c rest) := by
  simp only [List.mem_cons, List.not_mem_nil, or_false, not_or] at noMark
  obtain ⟨noQuote, noRaw, noRune, noOpening, noClosing⟩ := noMark
  have next : Reached chars (i + c.utf8Size) rest := reached.next
  have here : wordAt? chars i = wordFrom? chars i c := by
    rw [wordAt?, reached.behind?]
    rfl
  rw [here]
  unfold wordFrom? firstPiece
  rw [if_neg (Bool.eq_false_iff.mp noSpace), if_neg noQuote, if_neg noRaw, if_neg noRune,
    if_neg noOpening, if_neg noClosing]
  by_cases start : isNameStart c = true
  · have run := runStop?_agrees reached isNameChar
    rw [List.dropWhile_cons_of_pos (isNameStart_isNameChar start)] at run
    rw [if_pos start, if_pos start]
    exact sees_run .name c run
  rw [if_neg start, if_neg start]
  by_cases digit : c.isDigit = true
  · have single : c.utf8Size = 1 :=
      Char.utf8Size_eq_one_iff.mpr (Nat.le_of_lt_succ (basic_of_digit digit))
    rw [single] at next
    rw [if_pos digit, if_pos (by rw [digit]; rfl)]
    exact sees_run .other c (runStop?_agrees next isNumberChar)
  rw [if_neg digit]
  by_cases point : c = '.'
  · subst point
    rw [if_pos (by decide)]
    have isDigit := noPoint rfl
    cases rest with
    | nil => cases isDigit
    | cons d more =>
        have fraction : d.isDigit = true := isDigit
        simp only [if_pos fraction]
        exact sees_run .other '.' (runStop?_agrees next isNumberChar)
  · rw [if_neg (by simp [digit, point]), Nat.max_eq_left c.utf8Size_pos]
    split
    · exact absurd rfl (noComment rfl).1
    · exact absurd rfl (noComment rfl).2
    · exact absurd rfl point
    · exact absurd rfl point
    · exact ⟨_, rfl, next.bytes⟩

theorem sees_one {kind : PieceKind} (piece : Piece) (single : c.utf8Size = 1)
    (is : piece.kind = kind)
    (reached : Reached chars i (c :: rest)) :
    Sees chars (some (kind, i + 1)) (piece, rest) := by
  have next : Reached chars (i + c.utf8Size) rest := reached.next
  rw [single] at next
  exact ⟨i + 1, by rw [is], next.bytes⟩

theorem utf8Size_of_isSpace {c : Char} (space : isSpace c = true) : c.utf8Size = 1 := by
  refine Char.utf8Size_eq_one_iff.mpr (Nat.le_of_lt_succ (Nat.lt_of_not_le fun wide => ?_))
  rw [isSpace_wide wide] at space
  cases space

/-- At the beginning of a character a step sees the piece that begins there, and it comes to where
that ends. -/
theorem scanStep?_agrees (reached : Reached chars i (c :: rest)) :
    Sees chars (scanStep? chars i) (firstPiece rest.length c rest) := by
  rw [scanStep?_eq reached]
  split
  · rename_i space
    unfold firstPiece
    rw [if_pos space]
    exact sees_one ⟨.blank, [c]⟩ (utf8Size_of_isSpace space) rfl reached
  rename_i noSpace
  split
  · rename_i line
    obtain ⟨rfl, begins⟩ := line
    have stop := lineStop?_agrees reached.bytes
    rw [List.dropWhile_cons_of_pos (by decide)] at stop
    rw [firstPiece_lineComment _ begins]
    exact sees_run .blank '/' stop
  rename_i noLine
  split
  · rename_i block
    obtain ⟨rfl, begins⟩ := block
    obtain ⟨more, rfl⟩ := List.head?_eq_some_iff.mp begins
    have behind : Reached chars (i + 2) more := reached.next.next
    obtain ⟨stop, is, stands⟩ := commentStop?_agrees behind ['*', '/']
    rw [firstPiece_blockComment, is]
    exact ⟨stop, rfl, stands⟩
  rename_i noBlock
  split
  · rename_i quote
    subst quote
    have behind : Reached chars (i + 1) rest := reached.next
    obtain ⟨stop, is, stands⟩ :=
      interpreted?_agrees rest.length ⟨['"'], [], rest⟩ (Nat.le_refl _) behind.bytes
    have read : interpreted? (encoded chars) (i + 1) [] =
      some ((Literal.toEnd ⟨['"'], [], rest⟩).bytes.reverse, stop) := is
    rw [read]
    exact ⟨stop, rfl, stands⟩
  rename_i noQuote
  split
  · rename_i raw
    subst raw
    exact rawText?_agrees reached.next
  rename_i noRaw
  split
  · rename_i rune
    subst rune
    have behind : Reached chars (i + 1) rest := reached.next
    exact ⟨_, rfl, runeStop_agrees ['\''] rest behind.bytes⟩
  rename_i noRune
  split
  · rename_i opening
    subst opening
    exact sees_one ⟨.lParen, ['(']⟩ rfl rfl reached
  rename_i noOpening
  split
  · rename_i closing
    subst closing
    exact sees_one ⟨.rParen, [')']⟩ rfl rfl reached
  rename_i noClosing
  split
  · rename_i point
    obtain ⟨rfl, noDigit⟩ := point
    rw [firstPiece_point _ noDigit]
    exact sees_one ⟨.dot, ['.']⟩ rfl rfl reached
  · rename_i noPoint
    refine wordAt?_agrees reached (Bool.eq_false_iff.mpr noSpace) ?_ ?_ ?_
    · simp only [List.mem_cons, List.not_mem_nil, or_false, not_or]
      exact ⟨noQuote, noRaw, noRune, noOpening, noClosing⟩
    · exact fun slash =>
        ⟨fun begins => noLine ⟨slash, begins⟩, fun begins => noBlock ⟨slash, begins⟩⟩
    · exact fun point => Bool.eq_true_of_not_eq_false fun noDigit => noPoint ⟨point, noDigit⟩

end Submission

end SandboxedGo
