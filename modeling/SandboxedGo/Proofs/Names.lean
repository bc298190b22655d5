import Mathlib.Data.List.TakeWhile
import SandboxedGo.Source.Lexer
import SandboxedGo.Submission.Scan

/-!
# Names as the scanner sees them

The guest language takes every character outside of the basic alphabet for a part of a name; the
scanner only letters and digits.  So a name may be cut into several pieces, but the pieces of a name
do not depend on what stands behind it, and what stands behind it is cut as if it stood alone.
-/

set_option autoImplicit false

namespace SandboxedGo.Submission

/-!
## The pieces of a text, one after another

The scanner is written with a bound on its steps.  Here the bound is shown not to matter, so that a
text is its first piece and then the pieces of what is left.
-/

/-! ## What a reader leaves is no longer than what it was given -/

theorem length_cutBytes_rest : ∀ (width : Nat) (chars : List Char),
    (cutBytes width chars).rest.length ≤ chars.length := by
  intro width chars
  induction chars generalizing width with
  | nil => cases width <;> simp [cutBytes]
  | cons c rest ih =>
      cases width with
      | zero => simp [cutBytes]
      | succ width =>
          unfold cutBytes
          split
          · have shorter := ih (width + 1 - c.utf8Size)
            simp only [List.length_cons]
            omega
          · simp

theorem length_readEscape (l : Literal) : (readEscape l).rest.length ≤ l.rest.length := by
  unfold readEscape
  cases chars : l.rest with
  | nil => simp [chars]
  | cons c rest =>
      have octal := length_cutBytes_rest 3 (c :: rest)
      have two := length_cutBytes_rest 2 rest
      have four := length_cutBytes_rest 4 rest
      have eight := length_cutBytes_rest 8 rest
      simp only [List.length_cons] at octal
      simp only [numericEscape, Literal.push, List.length_cons]
      split
      · simp
      · split
        · rw [chars]
          exact octal
        · split
          · simpa using Nat.le_succ_of_le two
          · split
            · simpa using Nat.le_succ_of_le four
            · split
              · simpa using Nat.le_succ_of_le eight
              · simp

theorem length_readInterpreted : ∀ (steps : Nat) (l : Literal),
    (readInterpreted steps l).rest.length ≤ l.rest.length := by
  intro steps
  induction steps with
  | zero =>
      intro l
      exact Nat.le_refl _
  | succ steps ih =>
      intro l
      unfold readInterpreted
      cases chars : l.rest with
      | nil => simp [chars]
      | cons c rest =>
          dsimp only
          split
          · simp [Literal.push]
          · split
            · simp [chars]
            · split
              · have escape := length_readEscape (l.push c [] rest)
                have more := ih (readEscape (l.push c [] rest))
                simp only [Literal.push, List.length_cons] at *
                omega
              · have more := ih (l.push c (String.utf8EncodeChar c) rest)
                simp only [Literal.push, List.length_cons] at *
                omega

theorem length_readRune (read chars : List Char) :
    (readRune read chars).2.length ≤ chars.length := by
  fun_induction readRune read chars with
  | case1 read => simp
  | case2 read => simp
  | case3 read c rest ih =>
      simp only [List.length_cons]
      omega
  | case4 read rest _ _ => simp
  | case5 read rest _ _ _ => simp
  | case6 read c rest _ _ _ _ ih =>
      simp only [List.length_cons]
      omega

theorem length_readBlockComment (read chars : List Char) :
    (readBlockComment read chars).2.length ≤ chars.length := by
  fun_induction readBlockComment read chars with
  | case1 read => simp
  | case2 read rest =>
      simp only [List.length_cons]
      omega
  | case3 read c rest _ ih =>
      simp only [List.length_cons]
      omega

theorem length_rawPiece (rest : List Char) : (rawPiece rest).2.length ≤ rest.length := by
  have suffix : (rest.dropWhile (· ≠ '\x60')).length ≤ rest.length :=
    (List.dropWhile_sublist _).length_le
  unfold rawPiece
  split
  · simp
  · rename_i quote after found
    rw [found] at suffix
    simp only [List.length_cons] at suffix
    exact Nat.le_of_succ_le suffix

theorem length_runPiece (kind : PieceKind) (first : Char) (p : Char → Bool) (rest : List Char) :
    (runPiece kind first p rest).2.length ≤ rest.length :=
  (List.dropWhile_sublist p).length_le

theorem length_runePiece (rest : List Char) : (runePiece rest).2.length ≤ rest.length :=
  length_readRune ['\''] rest

theorem length_blockCommentPiece (rest : List Char) :
    (blockCommentPiece rest).2.length ≤ rest.length :=
  length_readBlockComment ['*', '/'] rest

/-- Every piece takes at least the character it begins with. -/
theorem length_firstPiece (bound : Nat) (c : Char) (rest : List Char) :
    (firstPiece bound c rest).2.length ≤ rest.length := by
  unfold firstPiece
  split
  · exact Nat.le_refl _
  split
  · exact length_readInterpreted bound ⟨['"'], [], rest⟩
  split
  · exact length_rawPiece rest
  split
  · exact length_runePiece rest
  split
  · exact Nat.le_refl _
  split
  · exact Nat.le_refl _
  split
  · exact length_runPiece _ _ _ _
  split
  · exact length_runPiece _ _ _ _
  split
  · exact length_runPiece _ _ _ _
  · exact Nat.le_succ_of_le (length_blockCommentPiece _)
  · split
    · exact length_runPiece _ _ _ _
    · exact Nat.le_refl _
  · exact Nat.le_refl _
  · exact Nat.le_refl _

/-! ## The bound on the steps -/

theorem readInterpreted_steps : ∀ (steps : Nat) (l : Literal), l.rest.length ≤ steps →
    readInterpreted steps l = readInterpreted l.rest.length l := by
  intro steps
  induction steps using Nat.strongRecOn with
  | ind steps ih =>
      intro l enough
      cases chars : l.rest with
      | nil => cases steps <;> simp [readInterpreted, chars]
      | cons c rest =>
          rw [chars, List.length_cons] at enough
          obtain ⟨steps, rfl⟩ : ∃ fewer, steps = fewer + 1 := ⟨steps - 1, by omega⟩
          have again : ∀ next : Literal, next.rest.length ≤ rest.length →
              readInterpreted steps next = readInterpreted rest.length next := by
            intro next shorter
            rw [ih steps (by omega) next (by omega)]
            by_cases same : rest.length = steps
            · rw [same, ih steps (by omega) next (by omega)]
            · rw [ih rest.length (by omega) next shorter]
          have escape : (readEscape (l.push c [] rest)).rest.length ≤ rest.length :=
            length_readEscape (l.push c [] rest)
          simp only [List.length_cons, readInterpreted, chars]
          rw [again _ escape, again (l.push c (String.utf8EncodeChar c) rest) (Nat.le_refl _)]

theorem interpretedPiece_bound {bound : Nat} {rest : List Char} (enough : rest.length ≤ bound) :
    interpretedPiece bound rest = interpretedPiece rest.length rest := by
  unfold interpretedPiece
  rw [readInterpreted_steps bound ⟨['"'], [], rest⟩ enough]

theorem firstPiece_bound {bound : Nat} {c : Char} {rest : List Char}
    (enough : rest.length ≤ bound) :
    firstPiece bound c rest = firstPiece rest.length c rest := by
  unfold firstPiece
  rw [interpretedPiece_bound enough]

theorem cutPieces_steps : ∀ (steps : Nat) (chars : List Char) (cut : List Piece),
    chars.length ≤ steps → cutPieces steps chars cut = cutPieces chars.length chars [] ++ cut := by
  intro steps
  induction steps using Nat.strongRecOn with
  | ind steps ih =>
      intro chars cut enough
      cases chars with
      | nil => cases steps <;> rfl
      | cons c rest =>
          rw [List.length_cons] at enough
          obtain ⟨steps, rfl⟩ : ∃ fewer, steps = fewer + 1 := ⟨steps - 1, by omega⟩
          have shorter := length_firstPiece rest.length c rest
          have bounded := firstPiece_bound (c := c) (show rest.length ≤ steps by omega)
          simp only [List.length_cons, cutPieces, bounded]
          rw [ih steps (by omega) _ _ (by omega), ih rest.length (by omega) _ [_] shorter]
          simp

theorem pieces_nil : pieces [] = [] := rfl

theorem pieces_cons (c : Char) (rest : List Char) :
    pieces (c :: rest) =
      (firstPiece rest.length c rest).1 :: pieces (firstPiece rest.length c rest).2 := by
  have shorter := length_firstPiece rest.length c rest
  have cut := cutPieces_steps rest.length (firstPiece rest.length c rest).2
    [(firstPiece rest.length c rest).1] shorter
  simp only [pieces, List.length_cons, cutPieces, cut, List.reverse_append, List.reverse_singleton,
    List.singleton_append]

open Source

/-! ## Characters -/

theorem isAlphabetic_basic : ∀ n < 128,
    Text.isAlphabetic (Char.ofNat n) = (Char.ofNat n).isAlpha := by
  decide +kernel

theorem isNumeric_basic : ∀ n < 128,
    Text.isNumeric (Char.ofNat n) = (Char.ofNat n).isDigit := by
  decide +kernel

/-- In the basic alphabet a name of the scanner begins with a letter or an underscore. -/
theorem isNameStart_basic {c : Char} (basic : c.toNat < 128) :
    isNameStart c = (c.isAlpha || c = '_') := by
  have alphabetic := isAlphabetic_basic c.toNat basic
  rw [Char.ofNat_toNat] at alphabetic
  rw [isNameStart, alphabetic]

theorem isNameChar_basic {c : Char} (basic : c.toNat < 128) :
    isNameChar c = (c.isAlphanum || c = '_') := by
  have alphabetic := isAlphabetic_basic c.toNat basic
  have numeric := isNumeric_basic c.toNat basic
  rw [Char.ofNat_toNat] at alphabetic numeric
  rw [isNameChar, Text.isAlphanumeric, alphabetic, numeric, Char.isAlphanum]

theorem isNameChar_wider {c : Char} (h : isNameChar c = true) : Cursor.isNameChar c = true := by
  by_cases basic : c.toNat < 128
  · simp only [isNameChar_basic basic, Bool.or_eq_true, decide_eq_true_eq] at h
    simp only [Cursor.isNameChar, Bool.or_eq_true, decide_eq_true_eq]
    exact .inl h.symm
  · simp only [Cursor.isNameChar, Bool.or_eq_true, decide_eq_true_eq]
    exact .inr (by omega)

theorem isNameStart_isNameChar {c : Char} (h : isNameStart c = true) : isNameChar c = true := by
  simp only [isNameStart, isNameChar, Text.isAlphanumeric, Bool.or_eq_true] at h ⊢
  rcases h with letter | underscore
  · exact .inl (.inl letter)
  · exact .inr underscore

/-- Where a run of characters ends: behind it none of the characters follows. -/
def Stops (p : Char → Bool) (rest : List Char) : Prop :=
  ∀ c, rest.head? = some c → p c = false

theorem Stops.narrower {rest : List Char} (stops : Stops Cursor.isNameChar rest) :
    Stops isNameChar rest := by
  intro c first
  cases h : isNameChar c with
  | false => rfl
  | true => simpa [stops c first] using isNameChar_wider h

theorem stops_dropWhile (p : Char → Bool) (chars : List Char) : Stops p (chars.dropWhile p) := by
  intro c first
  have no := List.head?_dropWhile_not p chars
  simpa [first] using no

theorem takeWhile_append_stops {p : Char → Bool} {rest : List Char} (stops : Stops p rest) :
    ∀ w : List Char, (w ++ rest).takeWhile p = w.takeWhile p := by
  intro w
  induction w with
  | nil =>
      cases rest with
      | nil => rfl
      | cons c rest => simp [stops c rfl]
  | cons c w ih =>
      cases h : p c with
      | true => simp [h, ih]
      | false => simp [h]

theorem dropWhile_append_stops {p : Char → Bool} {rest : List Char} (stops : Stops p rest) :
    ∀ w : List Char, (w ++ rest).dropWhile p = w.dropWhile p ++ rest := by
  intro w
  induction w with
  | nil =>
      cases rest with
      | nil => rfl
      | cons c rest => simp [stops c rfl]
  | cons c w ih =>
      cases h : p c with
      | true => simp [h, ih]
      | false => simp [h]

theorem drop_length_takeWhile (p : Char → Bool) : ∀ chars : List Char,
    chars.drop (chars.takeWhile p).length = chars.dropWhile p := by
  intro chars
  induction chars with
  | nil => rfl
  | cons c rest ih =>
      cases h : p c with
      | true => simp [h, ih]
      | false => simp [h]

/-! ## Pieces of names -/

/-- The first piece of a text that begins with a name character of the guest language. -/
theorem firstPiece_nameChar (bound : Nat) {c : Char} (h : Cursor.isNameChar c = true)
    (rest : List Char) :
    firstPiece bound c rest =
      if isNameStart c then runPiece .name c isNameChar rest
      else if c.isDigit then runPiece .other c isNumberChar rest
      else (⟨.other, [c]⟩, rest) := by
  have plain : ∀ d : Char, Cursor.isNameChar d = false → c ≠ d := by
    intro d no same
    rw [same, no] at h
    cases h
  have space : isSpace c = false := by
    simp [isSpace, plain ' ' rfl, plain '\t' rfl, plain '\n' rfl, plain '\x0c' rfl, plain '\r' rfl]
  unfold firstPiece
  rw [if_neg (by simp [space]), if_neg (plain '"' rfl), if_neg (plain '\x60' rfl),
    if_neg (plain '\'' rfl), if_neg (plain '(' rfl), if_neg (plain ')' rfl)]
  have slash := plain '/' rfl
  have dot := plain '.' rfl
  split
  · rfl
  · split
    · rfl
    · split
      · exact absurd rfl slash
      · exact absurd rfl slash
      · exact absurd rfl dot
      · exact absurd rfl dot
      · rfl

theorem all_dropWhile {p q : Char → Bool} {w : List Char} (all : ∀ c ∈ w, q c = true) :
    ∀ c ∈ w.dropWhile p, q c = true := by
  intro c member
  exact all c ((List.dropWhile_sublist p).subset member)

/-- Behind a name that no point follows, the scanner goes on as if the text began there. -/
theorem pieces_append_name {rest : List Char} (stops : Stops Cursor.isNameChar rest)
    (noPoint : rest.head? ≠ some '.') :
    ∀ (n : Nat) (w : List Char), w.length ≤ n → (∀ c ∈ w, Cursor.isNameChar c = true) →
      pieces (w ++ rest) = pieces w ++ pieces rest := by
  have scannerStops := stops.narrower
  have numberStops : Stops isNumberChar rest := by
    intro c first
    have notPoint : c ≠ '.' := by
      intro same
      rw [same] at first
      exact noPoint first
    simp [isNumberChar, scannerStops c first, notPoint]
  -- Not by induction on the name: a piece of it may be of any length.
  intro n
  induction n with
  | zero =>
      intro w short _
      have empty : w = [] := List.eq_nil_of_length_eq_zero (by omega)
      rw [empty]
      rfl
  | succ n ih =>
      intro w short names
      cases w with
      | nil => rfl
      | cons c w =>
          have first : Cursor.isNameChar c = true := names c (by simp)
          have others : ∀ d ∈ w, Cursor.isNameChar d = true := fun d member =>
            names d (by simp [member])
          rw [List.length_cons] at short
          have goesOn : ∀ p : Char → Bool, Stops p rest →
              pieces ((w ++ rest).dropWhile p) = pieces (w.dropWhile p) ++ pieces rest := by
            intro p ends
            rw [dropWhile_append_stops ends]
            have shorter := (List.dropWhile_sublist p (l := w)).length_le
            exact ih (w.dropWhile p) (by omega) (all_dropWhile others)
          rw [List.cons_append, pieces_cons, pieces_cons, firstPiece_nameChar _ first,
            firstPiece_nameChar _ first]
          split
          · simp only [runPiece, takeWhile_append_stops scannerStops, goesOn _ scannerStops,
              List.cons_append]
          · split
            · simp only [runPiece, takeWhile_append_stops numberStops, goesOn _ numberStops,
                List.cons_append]
            · simp only [ih w (by omega) others, List.cons_append]

/-- A name of the scanner is one piece, whatever follows. -/
theorem pieces_identifier {word : String} (identifier : isIdentifier word = true)
    {rest : List Char} (stops : Stops isNameChar rest) :
    pieces (word.toList ++ rest) = ⟨.name, word.toList⟩ :: pieces rest := by
  unfold isIdentifier at identifier
  cases chars : word.toList with
  | nil => simp [chars] at identifier
  | cons c w =>
      rw [chars] at identifier
      simp only [Bool.and_eq_true, List.all_eq_true] at identifier
      obtain ⟨start, others⟩ := identifier
      have first := isNameChar_wider (isNameStart_isNameChar start)
      have taken : w.takeWhile isNameChar = w := List.takeWhile_eq_self_iff.mpr others
      have dropped : w.dropWhile isNameChar = [] := List.dropWhile_eq_nil_iff.mpr others
      rw [List.cons_append, pieces_cons, firstPiece_nameChar _ first, if_pos start]
      simp only [runPiece, takeWhile_append_stops stops, dropWhile_append_stops stops, taken,
        dropped, List.nil_append]

/-- A name of the guest language begins with a name of the scanner, or with another piece. -/
theorem pieces_name_cases {c : Char} (h : Cursor.isNameChar c = true) (w : List Char) :
    (isNameStart c = true ∧
      pieces (c :: w) = ⟨.name, c :: w.takeWhile isNameChar⟩ :: pieces (w.dropWhile isNameChar)) ∨
      (isNameStart c = false ∧ ∃ chars left, left.Sublist w ∧
        pieces (c :: w) = ⟨.other, chars⟩ :: pieces left) := by
  rw [pieces_cons, firstPiece_nameChar _ h]
  cases start : isNameStart c with
  | true => exact .inl ⟨rfl, rfl⟩
  | false =>
      refine .inr ⟨rfl, ?_⟩
      rw [if_neg (by simp)]
      split
      · exact ⟨_, _, List.dropWhile_sublist isNumberChar, rfl⟩
      · exact ⟨_, _, List.Sublist.refl w, rfl⟩

theorem kind_of_name_piece : ∀ (n : Nat) (w : List Char), w.length ≤ n →
    (∀ c ∈ w, Cursor.isNameChar c = true) → ∀ p ∈ pieces w, p.kind = .name ∨ p.kind = .other := by
  intro n
  induction n with
  | zero =>
      intro w short _ p member
      have empty : w = [] := List.eq_nil_of_length_eq_zero (by omega)
      rw [empty, pieces_nil] at member
      cases member
  | succ n ih =>
      intro w short names p member
      cases w with
      | nil =>
          rw [pieces_nil] at member
          cases member
      | cons c w =>
          rw [List.length_cons] at short
          have later {left : List Char} (sub : left.Sublist w) (inLater : p ∈ pieces left) :
              p.kind = .name ∨ p.kind = .other := by
            refine ih left (Nat.le_trans sub.length_le (by omega)) ?_ p inLater
            exact fun d isIn => names d (List.mem_cons_of_mem _ (sub.subset isIn))
          rcases pieces_name_cases (names c List.mem_cons_self) w with
            ⟨_, cut⟩ | ⟨_, chars, left, sub, cut⟩
          · rw [cut, List.mem_cons] at member
            rcases member with rfl | inLater
            · exact .inl rfl
            · exact later (List.dropWhile_sublist isNameChar) inLater
          · rw [cut, List.mem_cons] at member
            rcases member with rfl | inLater
            · exact .inr rfl
            · exact later sub inLater

end SandboxedGo.Submission
