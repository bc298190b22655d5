import SandboxedGo.Proofs.FaithfulRenaming
import SandboxedGo.Proofs.PassedLiterals
import SandboxedGo.Proofs.TextSizes
import SandboxedGo.Proofs.TokenPlaces

/-!
# Braces that match

Where a block ends is found without the lexer.  The reader of braces and the lexer pass a text in
step, and so the end that the reader finds is that of the token that closes the block among the
tokens, at the offset of that token.
Main statement: `matchingBrace_agrees`.
-/

set_option autoImplicit false

namespace SandboxedGo

open Text (byteLength byteLength_append behind? behind?_byteLength)

namespace Source

/-! ## Offsets of places -/

/-- The offset of a place in a text that begins at another place, the offset of which is given. -/
def offsetFrom? (target : Position) : (place : Position) → (offset : Nat) → List Char → Option Nat
  | place, offset, [] => if place = target then some offset else none
  | place, offset, c :: rest =>
    if place = target then some offset
    else offsetFrom? target (place.after c) (offset + c.utf8Size) rest

/-- The offset of a place in a text. -/
def byteOffset? (source : List Char) (target : Position) : Option Nat :=
  offsetFrom? target ⟨1, 1⟩ 0 source

theorem offsetFrom?_foldl (gap left : List Char) (place : Position) (offset : Nat) :
    offsetFrom? (gap.foldl Position.after place) place offset (gap ++ left) =
      some (offset + byteLength gap) := by
  induction gap generalizing place offset with
  | nil =>
      cases left with
      | nil => exact if_pos rfl
      | cons c left => exact if_pos rfl
  | cons c gap ih =>
      have further : place ≠ (c :: gap).foldl Position.after place := by
        intro same
        have before := Position.before_foldl (List.cons_ne_nil c gap) place
        rw [← same] at before
        exact place.not_before_self before
      rw [List.cons_append, offsetFrom?, if_neg further, List.foldl_cons, ih, byteLength,
        Nat.add_assoc]

theorem byteOffset?_behind (gap left : List Char) :
    byteOffset? (gap ++ left) (Position.behind gap) = some (byteLength gap) := by
  have place : gap.foldl Position.after ⟨1, 1⟩ = Position.behind gap := Position.foldl_after [] gap
  rw [byteOffset?, ← place, offsetFrom?_foldl, Nat.zero_add]

/-! ## Braces among tokens -/

/-- Tokens among which every brace belongs to a block that begins and ends there. -/
inductive Balanced : List Token → Prop
  | nil : Balanced []
  | plain {t : Token} {ts : List Token} (noOpening : t.isMark .lBrace = false)
      (noClosing : t.isMark .rBrace = false) (more : Balanced ts) : Balanced (t :: ts)
  | block {inside ts : List Token} (one : Balanced inside) (more : Balanced ts) :
      Balanced (.mark .lBrace :: (inside ++ .mark .rBrace :: ts))

/-- A token that closes the block that tokens stand in. -/
structure Closes (inside : List Located) (closing : Located) : Prop where
  balanced : Balanced (inside.map Located.token)
  brace : closing.token.isMark .rBrace = true

/-- The token that closes the outermost of `inner + 1` blocks that tokens stand in. -/
def closing? : (inner : Nat) → List Located → Option Located
  | _, [] => none
  | inner, t :: ts =>
    if t.token.isMark .lBrace then closing? (inner + 1) ts
    else if t.token.isMark .rBrace then
      if inner = 0 then some t else closing? (inner - 1) ts
    else closing? inner ts

theorem closing?_opening {t : Located} (opens : t.token = .mark .lBrace) (inner : Nat)
    (ts : List Located) : closing? inner (t :: ts) = closing? (inner + 1) ts := by
  rw [closing?, opens]
  rfl

theorem closing?_closing {t : Located} (closes : t.token = .mark .rBrace) (inner : Nat)
    (ts : List Located) :
    closing? inner (t :: ts) = if inner = 0 then some t else closing? (inner - 1) ts := by
  rw [closing?, closes]
  rfl

theorem closing?_plain {t : Located} (noOpening : t.token.isMark .lBrace = false)
    (noClosing : t.token.isMark .rBrace = false) (inner : Nat) (ts : List Located) :
    closing? inner (t :: ts) = closing? inner ts := by
  rw [closing?, noOpening, noClosing]
  rfl

theorem closing?_balanced {ts : List Token} (balanced : Balanced ts) (inner : Nat)
    (read behind : List Located) (are : read.map Located.token = ts) :
    closing? inner (read ++ behind) = closing? inner behind := by
  induction balanced generalizing inner read behind with
  | nil => rw [List.map_eq_nil_iff.mp are, List.nil_append]
  | plain noOpening noClosing _ ih =>
      obtain ⟨t, read, rfl, rfl, rest⟩ := List.map_eq_cons_iff.mp are
      rw [List.cons_append, closing?_plain noOpening noClosing]
      exact ih inner read behind rest
  | block _ _ ihInside ih =>
      obtain ⟨opening, read, rfl, opens, rest⟩ := List.map_eq_cons_iff.mp are
      obtain ⟨inside, read, rfl, isInside, rest⟩ := List.map_eq_append_iff.mp rest
      obtain ⟨closing, read, rfl, closes, rest⟩ := List.map_eq_cons_iff.mp rest
      rw [List.cons_append, closing?_opening opens, List.append_assoc,
        ihInside (inner + 1) inside _ isInside, List.cons_append, closing?_closing closes,
        if_neg (Nat.succ_ne_zero inner), Nat.add_sub_cancel]
      exact ih inner read behind rest

/-- The token that closes a block ends the balanced tokens behind those that close the blocks inside
it. -/
theorem closes_of_closing? : ∀ (n inner : Nat) (ts : List Located) {closing : Located},
    ts.length ≤ n → closing? inner ts = some closing →
      ∃ inside first behind, ts = inside ++ first :: behind ∧ Closes inside first ∧
        match inner with
        | 0 => closing = first
        | inner + 1 => closing? inner behind = some closing := by
  intro n
  -- Behind the block that an opening brace begins the search goes on in a shorter list.
  induction n with
  | zero =>
      intro inner ts closing short found
      rw [List.eq_nil_of_length_eq_zero (Nat.le_zero.mp short)] at found
      cases found
  | succ n ih =>
      intro inner ts closing short found
      cases ts with
      | nil => cases found
      | cons t ts =>
          rw [List.length_cons] at short
          rw [closing?] at found
          split at found
          · rename_i opens
            obtain ⟨inside, first, behind, rfl, closes, found⟩ := ih _ ts (by omega) found
            rw [List.length_append, List.length_cons] at short
            obtain ⟨inside', first', behind', rfl, closes', found⟩ := ih _ behind (by omega) found
            refine ⟨t :: inside ++ first :: inside', first', behind', by simp, ⟨?_, closes'.brace⟩,
              found⟩
            have tokens : (t :: inside ++ first :: inside').map Located.token =
                .mark .lBrace :: (inside.map Located.token ++
                  .mark .rBrace :: inside'.map Located.token) := by
              simp [isMark_iff.mp opens, isMark_iff.mp closes.brace]
            rw [tokens]
            exact .block closes.balanced closes'.balanced
          rename_i noOpening
          split at found
          · rename_i closes
            refine ⟨[], t, ts, rfl, ⟨.nil, closes⟩, ?_⟩
            cases inner with
            | zero => exact (Option.some.inj found).symm
            | succ inner => exact found
          · rename_i noClosing
            obtain ⟨inside, first, behind, rfl, closes, found⟩ := ih _ ts (by omega) found
            exact ⟨t :: inside, first, behind, rfl,
              ⟨.plain (Bool.eq_false_of_not_eq_true noOpening)
                (Bool.eq_false_of_not_eq_true noClosing) closes.balanced, closes.brace⟩, found⟩

/-- What the search among the tokens finds is the token that closes the block. -/
theorem closing?_iff {ts : List Located} {closing : Located} :
    closing? 0 ts = some closing ↔
      ∃ inside behind, ts = inside ++ closing :: behind ∧ Closes inside closing := by
  constructor
  · intro found
    obtain ⟨inside, first, behind, split, closes, rfl⟩ :=
      closes_of_closing? _ 0 ts (Nat.le_refl _) found
    exact ⟨inside, behind, split, closes⟩
  · rintro ⟨inside, behind, rfl, closes⟩
    rw [closing?_balanced closes.balanced 0 inside _ rfl,
      closing?_closing (isMark_iff.mp closes.brace), if_pos rfl]

end Source

namespace Submission

open Source

variable {depth : Nat}

/-! ## Runs of the lexer -/

/-- The tokens that the lexer reads in a text behind another one, each with its place.  Semicolons
need not be written, and what stands behind the end of the text is no brace. -/
inductive ReadsAt : (gap chars : List Char) → List Located → Prop
  | ends {gap : List Char} {ts : List Located}
      (noBraces : ∀ t ∈ ts, braceSpelling? t.token = none) : ReadsAt gap [] ts
  | token {gap taken : List Char} {bound : Nat} {cur after : Cursor} {first : Char}
      {rest : List Char} {t : Token} {ts : List Located} (text : cur.rest = first :: rest)
      (step : cur.step bound first = .ok (.token t, after))
      (passes : first :: rest = taken ++ after.rest)
      (more : ReadsAt (gap ++ taken) after.rest ts) :
      ReadsAt gap (first :: rest) (⟨t, Position.behind gap⟩ :: ts)
  | semicolon {gap taken : List Char} {bound : Nat} {cur after : Cursor} {first : Char}
      {rest : List Char} {ts : List Located} (text : cur.rest = first :: rest)
      (step : cur.step bound first = .ok (.newline, after))
      (passes : first :: rest = taken ++ after.rest)
      (more : ReadsAt (gap ++ taken) after.rest ts) :
      ReadsAt gap (first :: rest) (⟨.mark .semi, Position.behind gap⟩ :: ts)
  | blank {gap taken : List Char} {bound : Nat} {cur after : Cursor} {first : Char}
      {rest : List Char} {lexeme : Lexeme} {ts : List Located} (text : cur.rest = first :: rest)
      (step : cur.step bound first = .ok (lexeme, after))
      (noToken : lexeme = .newline ∨ lexeme = .blank)
      (passes : first :: rest = taken ++ after.rest)
      (more : ReadsAt (gap ++ taken) after.rest ts) : ReadsAt gap (first :: rest) ts

theorem endOfText_readsAt (gap : List Char) (position : Position) (read : List Located) :
    ∃ new, (⟨.endOfText, position⟩ :: Cursor.endLine position read).reverse = read.reverse ++ new ∧
      ReadsAt gap [] new := by
  cases mayEnd : mayEndBehind read with
  | false =>
      rw [endLine_of_false mayEnd]
      exact ⟨[⟨.endOfText, position⟩], by simp, .ends (by simp [braceSpelling?])⟩
  | true =>
      rw [endLine_of_true mayEnd]
      exact ⟨[⟨.mark .semi, position⟩, ⟨.endOfText, position⟩], by simp,
        .ends (by simp [braceSpelling?])⟩

theorem readTokens_readsAt : ∀ (steps : Nat) (cur : Cursor) (read : List Located) (gap : List Char)
    {result : List Located}, cur.rest.length ≤ steps → cur.position = Position.behind gap →
      Cursor.readTokens steps cur read = .ok result →
      ∃ new, result.reverse = read.reverse ++ new ∧ ReadsAt gap cur.rest new := by
  intro steps
  induction steps with
  | zero =>
      intro cur read gap result enough place ran
      cases Except.ok.inj ran
      rw [List.eq_nil_of_length_eq_zero (Nat.le_zero.mp enough)]
      exact endOfText_readsAt gap cur.position read
  | succ steps ih =>
      intro cur read gap result enough place ran
      cases text : cur.rest with
      | nil =>
          rw [Cursor.readTokens, text] at ran
          cases Except.ok.inj ran
          exact endOfText_readsAt gap cur.position read
      | cons first rest =>
          cases step : cur.step steps first with
          | error e =>
              rw [Cursor.readTokens, text] at ran
              simp only [step] at ran
              cases ran
          | ok result =>
              obtain ⟨lexeme, after⟩ := result
              obtain ⟨others, ⟨passes, behind⟩, _⟩ := Cursor.step_spans text step
              have shorter := Cursor.step_shorter text step
              rw [readTokens_step text step] at ran
              rw [place, Position.foldl_after] at behind
              obtain ⟨new, same, reads⟩ := ih _ _ _ (by omega) behind ran
              rw [text] at passes
              cases lexeme with
              | token t =>
                  refine ⟨⟨t, Position.behind gap⟩ :: new, ?_, .token text step passes reads⟩
                  simp [same, Lexeme.addTo, place]
              | blank => exact ⟨new, same, .blank text step (.inr rfl) passes reads⟩
              | newline =>
                  rw [Lexeme.addTo] at same
                  cases mayEnd : mayEndBehind read with
                  | false =>
                      rw [endLine_of_false mayEnd] at same
                      exact ⟨new, same, .blank text step (.inl rfl) passes reads⟩
                  | true =>
                      rw [endLine_of_true mayEnd] at same
                      refine ⟨⟨.mark .semi, Position.behind gap⟩ :: new, ?_,
                        .semicolon text step passes reads⟩
                      simp [same, place]

theorem tokenize_readsAt {source : String} {read : List Located}
    (accepted : tokenize source = .ok read) : ReadsAt [] source.toList read := by
  unfold tokenize at accepted
  cases ran : Cursor.readTokens (Cursor.ofText source).rest.length (Cursor.ofText source) [] with
  | error e =>
      simp only [ran] at accepted
      cases accepted
  | ok result =>
      simp only [ran] at accepted
      cases accepted
      obtain ⟨new, same, reads⟩ :=
        readTokens_readsAt _ (Cursor.ofText source) [] [] (Nat.le_refl _) rfl ran
      rw [same]
      exact reads

/-! ## Blocks -/

/-- Where a reader of a text behind another one has come to, next to the token that closes its
block: behind the brace at the place of the token, or to no end if there is no such token. -/
def EndsAt (gap chars : List Char) (reached : Option (List Char)) : Option Located → Prop
  | none => reached = none
  | some closing => ∃ inside left, chars = inside ++ '\x7d' :: left ∧
      closing.position = Position.behind (gap ++ inside) ∧ reached = some left

variable {gap taken chars left : List Char} {reached : Option (List Char)}
  {closing : Option Located}

theorem EndsAt.passed (ends : EndsAt (gap ++ taken) left reached closing)
    (passes : chars = taken ++ left) : EndsAt gap chars reached closing := by
  cases closing with
  | none => exact ends
  | some closing =>
      obtain ⟨inside, left, rfl, place, rfl⟩ := ends
      refine ⟨taken ++ inside, left, ?_, ?_, rfl⟩
      · rw [passes, List.append_assoc]
      · rw [place, List.append_assoc]

theorem closing?_noBrace {t : Located} (noBrace : braceSpelling? t.token = none) (inner : Nat)
    (ts : List Located) : closing? inner (t :: ts) = closing? inner ts :=
  closing?_plain (isMark_of_noBrace noBrace).1 (isMark_of_noBrace noBrace).2 inner ts

theorem closing?_noBraces {inside : List Located}
    (noBraces : ∀ t ∈ inside, braceSpelling? t.token = none) (inner : Nat) (ts : List Located) :
    closing? inner (inside ++ ts) = closing? inner ts := by
  induction inside with
  | nil => rfl
  | cons t inside ih =>
      rw [List.cons_append, closing?_noBrace (noBraces t List.mem_cons_self),
        ih fun u isIn => noBraces u (List.mem_cons_of_mem t isIn)]

theorem afterToken_noBrace {t : Token} (noBrace : braceSpelling? t = none) :
    afterToken depth left t = afterClosing .code depth left := by
  obtain ⟨noOpening, noClosing⟩ := isMark_of_noBrace noBrace
  rw [afterToken, noOpening, noClosing]
  rfl

/-- The reader of braces comes to the end of its block where the tokens do. -/
theorem ReadsAt.endsAt {ts : List Located} (reads : ReadsAt gap chars ts) (inner : Nat) :
    EndsAt gap chars (afterClosing .code (inner + 1) chars) (closing? inner ts) := by
  induction reads generalizing inner with
  | @ends _ ts noBraces =>
      rw [← List.append_nil ts, closing?_noBraces noBraces]
      rfl
  | blank text step noToken passes _ ih =>
      rw [afterClosing_step text step]
      rcases noToken with rfl | rfl <;> exact (ih inner).passed passes
  | semicolon text step passes _ ih =>
      rw [afterClosing_step text step, closing?_noBrace rfl]
      exact (ih inner).passed passes
  | @token _ _ _ _ after _ _ t _ text step passes _ ih =>
      rw [afterClosing_step text step, afterLexeme]
      cases brace : braceSpelling? t with
      | none =>
          rw [closing?_noBrace brace, afterToken_noBrace brace]
          exact (ih inner).passed passes
      | some c =>
          have spelled := step_brace text step brace
          rcases braceSpelling?_cases brace with ⟨rfl, rfl⟩ | ⟨rfl, rfl⟩
          · exact (ih (inner + 1)).passed passes
          · rw [closing?_closing rfl]
            cases inner with
            | zero => exact ⟨[], after.rest, spelled, by rw [List.append_nil], rfl⟩
            | succ inner => exact (ih inner).passed passes

theorem ReadsAt.opens {ts later : List Located} {opening : Located} (reads : ReadsAt gap chars ts)
    (brace : opening.token = .mark .lBrace) : ∀ {before : List Located},
      ts = before ++ opening :: later → ∃ inside left, chars = inside ++ '\x7b' :: left ∧
        opening.position = Position.behind (gap ++ inside) ∧
        ReadsAt (gap ++ inside ++ ['\x7b']) left later := by
  -- A step in front of the brace makes the text in front of it longer.
  have passed {gap taken chars left : List Char} (passes : chars = taken ++ left) :
      (∃ inside behind, left = inside ++ '\x7b' :: behind ∧
        opening.position = Position.behind (gap ++ taken ++ inside) ∧
        ReadsAt (gap ++ taken ++ inside ++ ['\x7b']) behind later) →
      ∃ inside behind, chars = inside ++ '\x7b' :: behind ∧
        opening.position = Position.behind (gap ++ inside) ∧
        ReadsAt (gap ++ inside ++ ['\x7b']) behind later := by
    rintro ⟨inside, behind, rfl, place, more⟩
    rw [List.append_assoc gap] at place more
    exact ⟨taken ++ inside, behind, by rw [passes, List.append_assoc], place, more⟩
  induction reads with
  | ends noBraces =>
      rintro before rfl
      have noBrace := noBraces opening (by simp)
      rw [brace] at noBrace
      cases noBrace
  | blank _ _ _ passes _ ih => exact fun split => passed passes (ih split)
  | semicolon _ _ passes _ ih =>
      intro before split
      cases before with
      | nil =>
          obtain ⟨rfl, rfl⟩ := List.cons.inj split
          cases brace
      | cons t before => exact passed passes (ih (List.cons.inj split).2)
  | @token gap taken _ _ after _ _ t _ text step passes more ih =>
      intro before split
      cases before with
      | nil =>
          obtain ⟨rfl, rfl⟩ := List.cons.inj split
          have is : t = .mark .lBrace := brace
          subst is
          have spelled := step_brace text step rfl
          have one : taken = ['\x7b'] :=
            List.append_cancel_right (passes.symm.trans spelled)
          subst one
          refine ⟨[], after.rest, spelled, by rw [List.append_nil], ?_⟩
          rw [List.append_nil]
          exact more
      | cons t before => exact passed passes (ih (List.cons.inj split).2)

/-! ## Offsets of blocks -/

theorem afterBlock?_opening (left : List Char) :
    afterBlock? ('\x7b' :: left) = afterClosing .code 1 left := by
  rw [afterBlock?, afterClosing_char (by decide)]
  rfl

theorem matchingBrace?_eq (front left : List Char) :
    matchingBrace? (front ++ '\x7b' :: left) (byteLength front) =
      (afterClosing .code 1 left).map fun rest =>
        byteLength (front ++ '\x7b' :: left) - byteLength rest := by
  rw [matchingBrace?, behind?_byteLength, ← afterBlock?_opening, Option.bind_eq_bind,
    Option.bind_some]
  cases reached : afterBlock? ('\x7b' :: left) <;> rfl

/-- On a text that the lexer accepts, the block that a brace among its tokens opens ends behind the
token that closes it, and has no end if no token closes it. -/
theorem matchingBrace_agrees {source : String} {read before later : List Located}
    {opening : Located} (accepted : tokenize source = .ok read)
    (split : read = before ++ opening :: later) (brace : opening.token.isMark .lBrace = true) :
    ∃ start, byteOffset? source.toList opening.position = some start ∧
      (matchingBrace? source.toList start = none ↔
        ¬∃ inside closing behind, later = inside ++ closing :: behind ∧ Closes inside closing) ∧
      ∀ inside closing behind, later = inside ++ closing :: behind → Closes inside closing →
        ∃ place, byteOffset? source.toList closing.position = some place ∧
          matchingBrace? source.toList start = some (place + 1) := by
  obtain ⟨front, left, text, opens, reads⟩ :=
    (tokenize_readsAt accepted).opens (isMark_iff.mp brace) split
  rw [List.nil_append] at opens reads
  have ends := reads.endsAt 0
  refine ⟨byteLength front, by rw [text, opens, byteOffset?_behind], ?_, ?_⟩
  · rw [text, matchingBrace?_eq, Option.map_eq_none_iff]
    cases found : closing? 0 later with
    | none =>
        rw [found] at ends
        refine iff_of_true ends ?_
        rintro ⟨inside, closing, behind, closes⟩
        rw [closing?_iff.mpr ⟨inside, behind, closes⟩] at found
        cases found
    | some closing =>
        rw [found] at ends
        obtain ⟨_, _, _, _, reached⟩ := ends
        obtain ⟨inside, behind, closes⟩ := closing?_iff.mp found
        refine iff_of_false ?_ (not_not_intro ⟨inside, closing, behind, closes⟩)
        rw [reached]
        exact nofun
  · intro inside closing behind isSplit closes
    rw [closing?_iff.mpr ⟨inside, behind, isSplit, closes⟩] at ends
    obtain ⟨body, rest, rfl, place, reached⟩ := ends
    have whole : source.toList = (front ++ ['\x7b'] ++ body) ++ '\x7d' :: rest := by
      rw [text, List.append_assoc, List.append_assoc]
      rfl
    refine ⟨byteLength (front ++ ['\x7b'] ++ body), by rw [whole, place, byteOffset?_behind], ?_⟩
    rw [text, matchingBrace?_eq, reached, ← text, whole, byteLength_append _ ('\x7d' :: rest)]
    have one : byteLength ('\x7d' :: rest) = 1 + byteLength rest := rfl
    rw [one, Option.map_some]
    congr 1
    omega

/-- A block with braces in a text, a raw text, a rune and a comment. -/
theorem matchingBrace_agrees_literals : ∃ read before later opening,
    tokenize "é \x7b\"\x7d\" + `\x7d` + '\x7d' /* \x7d */ \x7d" = .ok read ∧
      read = before ++ opening :: later ∧ opening.token.isMark .lBrace = true ∧
      ∃ start, byteOffset? "é \x7b\"\x7d\" + `\x7d` + '\x7d' /* \x7d */ \x7d".toList opening.position =
          some start ∧
        matchingBrace? "é \x7b\"\x7d\" + `\x7d` + '\x7d' /* \x7d */ \x7d".toList start =
          some 29 := by
  generalize is : "é \x7b\"\x7d\" + `\x7d` + '\x7d' /* \x7d */ \x7d" = source
  have seen : (tokenize source).toOption.map
      (fun read => read.map fun t => (braceSpelling? t.token, t.position)) =
        some [(none, ⟨1, 1⟩), (some '\x7b', ⟨1, 3⟩), (none, ⟨1, 4⟩), (none, ⟨1, 8⟩), (none, ⟨1, 10⟩),
          (none, ⟨1, 14⟩), (none, ⟨1, 16⟩), (some '\x7d', ⟨1, 28⟩), (none, ⟨1, 29⟩),
          (none, ⟨1, 29⟩)] := by
    subst is
    decide +kernel
  have last : byteOffset? source.toList ⟨1, 28⟩ = some 28 := by
    subst is
    decide +kernel
  cases accepted : tokenize source with
  | error e =>
      rw [accepted] at seen
      cases seen
  | ok read =>
      rw [accepted] at seen
      obtain ⟨name, read, rfl, -, seen⟩ := List.map_eq_cons_iff.mp (Option.some.inj seen)
      obtain ⟨opening, read, rfl, opens, seen⟩ := List.map_eq_cons_iff.mp seen
      -- No brace is among the five tokens in the block.
      obtain ⟨inside, read, rfl, are, seen⟩ := List.map_eq_append_iff.mp
        (seen.trans (List.take_append_drop 5 _).symm)
      obtain ⟨closing, behind, rfl, closes, -⟩ := List.map_eq_cons_iff.mp seen
      rw [Prod.mk.injEq] at opens closes
      have isOpening : opening.token = .mark .lBrace :=
        ((braceSpelling?_cases opens.1).resolve_right (by simp)).1
      have isClosing : closing.token = .mark .rBrace :=
        ((braceSpelling?_cases closes.1).resolve_left (by simp)).1
      have noBraces : ∀ p ∈ inside.map fun t => (braceSpelling? t.token, t.position),
          p.1 = none := by
        rw [are]
        decide
      have found : closing? 0 (inside ++ closing :: behind) = some closing := by
        rw [closing?_noBraces (List.forall_mem_map.mp noBraces),
          closing?_closing isClosing, if_pos rfl]
      obtain ⟨inside', behind', isSplit, ends⟩ := closing?_iff.mp found
      obtain ⟨start, begins, -, agrees⟩ :=
        matchingBrace_agrees accepted (List.cons_append : [name] ++ _ = _).symm
          (isMark_iff.mpr isOpening)
      obtain ⟨place, isPlace, matched⟩ := agrees _ _ _ isSplit ends
      rw [closes.2, last] at isPlace
      cases isPlace
      exact ⟨_, [name], _, opening, rfl, rfl, isMark_iff.mpr isOpening, start, begins, matched⟩

end Submission

end SandboxedGo
