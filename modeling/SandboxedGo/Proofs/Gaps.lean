import SandboxedGo.Proofs.Lookahead
import SandboxedGo.Proofs.SharedTokens
import SandboxedGo.Source.Lexer
import SandboxedGo.Submission.HostCalls

/-!
# Where the scanner sees a word

Every piece that is the word leaves a gap in a text; the renamed text fills the gaps with another
word.  The scanner is followed along the steps of the lexer.  It may be in the middle of a piece
where the lexer begins a token, for it takes the letters behind a number for a part of it.
-/

set_option autoImplicit false

namespace SandboxedGo

namespace Submission

/-!
## Occurrences of a word

Where the scanner sees a word in a text, where the lexer reads it as a name, and what renaming it
makes of a text and of its tokens.
-/

/-- The places of the pieces that are a word; the first piece is at `place`. -/
def wordPlaces (word : String) : (place : Source.Position) → List Piece → List Source.Position
  | _, [] => []
  | place, p :: ps =>
    let others := wordPlaces word (p.chars.foldl Source.Position.after place) ps
    if p.isWord word then place :: others else others

/-- The places where the scanner sees a word in a source text. -/
def placesSeen (word source : String) : List Source.Position :=
  wordPlaces word (Source.Cursor.ofText source).position (pieces source.toList)

def withHostCallsRenamed (source name : String) : String :=
  String.ofList (renameIdentifier source.toList canonicalHostCall name)

end Submission

namespace Source

def Token.isNamed (t : Token) (word : String) : Bool :=
  match t with
  | .name w => w = word
  | _ => false

/-- The places of the tokens that are a certain name. -/
def namePlaces (word : String) (tokens : List Located) : List Position :=
  (tokens.filter (·.token.isNamed word)).map Located.position

def Token.renamed (old new : String) : Token → Token
  | .name w => .name (if w = old then new else w)
  | t => t

end Source

end SandboxedGo

namespace SandboxedGo.Submission

open Source

/-! ## Texts with gaps -/

/-- The characters of a piece, or a gap if it is the word. -/
def Piece.gaps (word : String) (p : Piece) : List (Option Char) :=
  if p.isWord word then [none] else p.chars.map some

/-- The characters of pieces with a gap for each piece that is the word. -/
def withGaps (word : String) (ps : List Piece) : List (Option Char) :=
  ps.flatMap (Piece.gaps word)

/-- A text whose gaps are filled with a word. -/
def fill (word : List Char) (gaps : List (Option Char)) : List Char :=
  gaps.flatMap fun
    | none => word
    | some c => [c]

/-- The places of the gaps that a word leaves in a text that begins at a place. -/
def gapPlaces (word : List Char) : (place : Position) → List (Option Char) → List Position
  | _, [] => []
  | place, none :: gaps => place :: gapPlaces word (word.foldl Position.after place) gaps
  | place, some c :: gaps => gapPlaces word (place.after c) gaps

section

variable (word : List Char) (gaps more : List (Option Char))

@[simp] theorem fill_nil : fill word [] = [] := rfl

@[simp] theorem fill_none : fill word (none :: gaps) = word ++ fill word gaps := rfl

@[simp] theorem fill_some (c : Char) : fill word (some c :: gaps) = c :: fill word gaps := rfl

@[simp] theorem fill_append : fill word (gaps ++ more) = fill word gaps ++ fill word more :=
  List.flatMap_append

@[simp] theorem fill_map (chars : List Char) : fill word (chars.map some) = chars := by
  induction chars with
  | nil => rfl
  | cons c chars ih => rw [List.map_cons, fill_some, ih]

theorem gapPlaces_append (place : Position) :
    gapPlaces word place (gaps ++ more) =
      gapPlaces word place gaps ++
        gapPlaces word ((fill word gaps).foldl Position.after place) more := by
  induction gaps generalizing place with
  | nil => rfl
  | cons gap gaps ih =>
      cases gap with
      | none => simp [gapPlaces, ih]
      | some c => simp [gapPlaces, ih]

@[simp] theorem gapPlaces_map (place : Position) (chars : List Char) :
    gapPlaces word place (chars.map some) = [] := by
  induction chars generalizing place with
  | nil => rfl
  | cons c chars ih => exact ih _

end

theorem fill_piece (word : String) (p : Piece) : fill word.toList (p.gaps word) = p.chars := by
  unfold Piece.gaps
  split
  · rename_i isWord
    simp only [Piece.isWord, Bool.and_eq_true, decide_eq_true_eq] at isWord
    simp [isWord.2]
  · simp

theorem rename_eq_fill (code : List Char) (old new : String) :
    renameIdentifier code old new = fill new.toList (withGaps old (pieces code)) := by
  unfold renameIdentifier withGaps
  induction pieces code with
  | nil => rfl
  | cons p ps ih =>
      rw [List.flatMap_cons, List.flatMap_cons, fill_append, ih]
      congr 1
      unfold Piece.gaps
      split <;> simp

theorem wordPlaces_eq_gapPlaces (word : String) (place : Position) (ps : List Piece) :
    wordPlaces word place ps = gapPlaces word.toList place (withGaps word ps) := by
  induction ps generalizing place with
  | nil => rfl
  | cons p ps ih =>
      rw [withGaps, List.flatMap_cons, gapPlaces_append, fill_piece, ← withGaps, ← ih]
      simp only [wordPlaces, Piece.gaps]
      split <;> simp [gapPlaces]

/-! ## The characters of pieces -/

theorem covered_cutBytes : ∀ (width : Nat) (chars : List Char),
    (cutBytes width chars).covered ++ (cutBytes width chars).rest = chars := by
  intro width chars
  induction chars generalizing width with
  | nil => cases width <;> rfl
  | cons c rest ih =>
      cases width with
      | zero => rfl
      | succ width =>
          unfold cutBytes
          split
          · simp [ih]
          · rfl

/-- The characters of a literal, those that were read and those that were not. -/
def Literal.whole (l : Literal) : List Char := l.read.reverse ++ l.rest

theorem whole_push {l : Literal} {c : Char} {rest : List Char} (text : l.rest = c :: rest)
    (bytes : List UInt8) : (l.push c bytes rest).whole = l.whole := by
  simp [Literal.whole, Literal.push, text]

theorem whole_numericEscape (l : Literal) (base width : Nat) (bytes : Nat → List UInt8) :
    (numericEscape l base width bytes).whole = l.whole := by
  simp [Literal.whole, numericEscape, covered_cutBytes]

theorem whole_readEscape (l : Literal) : (readEscape l).whole = l.whole := by
  unfold readEscape
  cases text : l.rest with
  | nil => rfl
  | cons c rest =>
      dsimp only
      split
      · exact whole_push text _
      split
      · exact whole_numericEscape ..
      split
      · rw [whole_numericEscape, whole_push text]
      split
      · rw [whole_numericEscape, whole_push text]
      split
      · rw [whole_numericEscape, whole_push text]
      · exact whole_push text _

theorem whole_readInterpreted : ∀ (steps : Nat) (l : Literal),
    (readInterpreted steps l).whole = l.whole := by
  intro steps
  induction steps with
  | zero =>
      intro l
      rfl
  | succ steps ih =>
      intro l
      unfold readInterpreted
      cases text : l.rest with
      | nil => rfl
      | cons c rest =>
          dsimp only
          split
          · exact whole_push text _
          split
          · rfl
          split
          · rw [ih, whole_readEscape, whole_push text]
          · rw [ih, whole_push text]

theorem read_readRune (read chars : List Char) :
    (readRune read chars).1.reverse ++ (readRune read chars).2 = read.reverse ++ chars := by
  fun_induction readRune read chars <;> simp_all

theorem read_readBlockComment (read chars : List Char) :
    (readBlockComment read chars).1.reverse ++ (readBlockComment read chars).2 =
      read.reverse ++ chars := by
  fun_induction readBlockComment read chars <;> simp_all

theorem chars_rawPiece (rest : List Char) :
    (rawPiece rest).1.chars ++ (rawPiece rest).2 = '\x60' :: rest := by
  have parts : rest.takeWhile (· ≠ '\x60') ++ rest.dropWhile (· ≠ '\x60') = rest :=
    List.takeWhile_append_dropWhile
  unfold rawPiece
  split
  · rename_i ending
    rw [ending, List.append_nil] at parts
    simpa using parts
  · rename_i quote after ending
    rw [ending] at parts
    simpa using parts

theorem chars_runPiece (kind : PieceKind) (first : Char) (p : Char → Bool) (rest : List Char) :
    (runPiece kind first p rest).1.chars ++ (runPiece kind first p rest).2 = first :: rest := by
  simp [runPiece, List.takeWhile_append_dropWhile]

theorem chars_firstPiece (bound : Nat) (c : Char) (rest : List Char) :
    (firstPiece bound c rest).1.chars ++ (firstPiece bound c rest).2 = c :: rest := by
  unfold firstPiece
  split
  · rfl
  split
  · rename_i quote
    rw [quote]
    exact whole_readInterpreted bound ⟨['"'], [], rest⟩
  split
  · rename_i quote
    rw [quote]
    exact chars_rawPiece rest
  split
  · rename_i quote
    rw [quote]
    exact read_readRune ['\''] rest
  split
  · rfl
  split
  · rfl
  split
  · exact chars_runPiece ..
  split
  · exact chars_runPiece ..
  split
  · exact chars_runPiece ..
  · exact read_readBlockComment ['*', '/'] _
  · split
    · exact chars_runPiece ..
    · rfl
  · rfl
  · rfl

/-! ## Characters -/

theorem basic_of_digit {c : Char} (digit : c.isDigit = true) : c.toNat < 128 := by
  simp only [Char.isDigit, Bool.and_eq_true, decide_eq_true_eq] at digit
  have least : c.val ≤ 57 := digit.2
  exact Nat.lt_of_le_of_lt (UInt32.le_iff_toNat_le.mp least) (by decide)

theorem digit_noLetter : ∀ n < 128, (Char.ofNat n).isDigit = true →
    (Char.ofNat n).isAlpha = false := by
  decide

theorem isNameStart_digit {c : Char} (digit : c.isDigit = true) : isNameStart c = false := by
  rw [isNameStart_basic (basic_of_digit digit), Bool.or_eq_false_iff, decide_eq_false_iff_not]
  constructor
  · have noLetter := digit_noLetter c.toNat (basic_of_digit digit)
    rw [Char.ofNat_toNat] at noLetter
    exact noLetter digit
  · rintro rfl
    cases digit

/-- The beginning of a name of the scanner begins one of the guest language. -/
theorem isNameStart_wider {c : Char} (start : isNameStart c = true) :
    Cursor.isNameStart c = true := by
  have part := isNameChar_wider (isNameStart_isNameChar start)
  cases digit : c.isDigit with
  | true =>
      rw [isNameStart_digit digit] at start
      cases start
  | false => simp [Cursor.isNameStart, part, digit]

theorem not_nameChar {c : Char} (no : Cursor.isNameChar c = false) : isNameChar c = false := by
  cases part : isNameChar c with
  | false => rfl
  | true =>
      rw [isNameChar_wider part] at no
      cases no

theorem not_nameStart {c : Char} (no : Cursor.isNameChar c = false) : isNameStart c = false := by
  cases start : isNameStart c with
  | false => rfl
  | true =>
      rw [isNameChar_wider (isNameStart_isNameChar start)] at no
      cases no

/-- In the basic alphabet both take the same characters for parts of names. -/
theorem isNameChar_narrower {c : Char} (basic : c.toNat < 128)
    (part : Cursor.isNameChar c = true) : isNameChar c = true := by
  simp only [Cursor.isNameChar, Bool.or_eq_true, decide_eq_true_eq] at part
  simp only [isNameChar_basic basic, Bool.or_eq_true, decide_eq_true_eq]
  rcases part with part | foreign
  · exact part.symm
  · omega

theorem isNameStart_narrower {c : Char} (basic : c.toNat < 128)
    (start : Cursor.isNameStart c = true) : isNameStart c = true := by
  simp only [Cursor.isNameStart, Bool.and_eq_true, Bool.not_eq_true'] at start
  obtain ⟨part, noDigit⟩ := start
  simp only [Cursor.isNameChar, Char.isAlphanum, noDigit, Bool.or_eq_true,
    decide_eq_true_eq] at part
  simp only [isNameStart_basic basic, Bool.or_eq_true, decide_eq_true_eq]
  rcases part with (underscore | letter) | foreign
  · exact .inr underscore
  · exact .inl (by simpa using letter)
  · omega

/-! ## Runs -/

/-- What the scanner is in the middle of. -/
inductive Run
  | nothing
  | number
  | name
  deriving DecidableEq

/-- The characters that belong to the piece that the scanner is in the middle of. -/
def Run.takes : Run → Char → Bool
  | .nothing, _ => false
  | .number, c => isNumberChar c
  | .name, c => isNameChar c

theorem Run.takes_of_plain (run : Run) {c : Char} (noPart : Cursor.isNameChar c = false)
    (noPoint : c ≠ '.') : run.takes c = false := by
  cases run with
  | nothing => rfl
  | number => simp [takes, isNumberChar, not_nameChar noPart, noPoint]
  | name => exact not_nameChar noPart

/-- A text with its gaps, where the scanner is in the middle of a piece that is not the word. -/
def gapsFrom (word : String) (run : Run) (chars : List Char) : List (Option Char) :=
  (chars.takeWhile run.takes).map some ++ withGaps word (pieces (chars.dropWhile run.takes))

section

variable {word : String} {run : Run} {c : Char} {rest behind : List Char}

theorem gapsFrom_nothing (chars : List Char) :
    gapsFrom word .nothing chars = withGaps word (pieces chars) := by
  cases chars <;> rfl

theorem gapsFrom_nil : gapsFrom word run [] = [] := rfl

theorem gapsFrom_takes (takes : run.takes c = true) :
    gapsFrom word run (c :: rest) = some c :: gapsFrom word run rest := by
  simp [gapsFrom, takes]

theorem gapsFrom_all {taken : List Char} (all : ∀ c ∈ taken, run.takes c = true) :
    gapsFrom word run (taken ++ rest) = taken.map some ++ gapsFrom word run rest := by
  induction taken with
  | nil => rfl
  | cons c taken ih =>
      have others := ih fun d member => all d (List.mem_cons_of_mem c member)
      rw [List.cons_append, gapsFrom_takes (all c List.mem_cons_self), others]
      rfl

theorem gapsFrom_stops (word : String) (rest : List Char) (stops : run.takes c = false) :
    gapsFrom word run (c :: rest) = gapsFrom word .nothing (c :: rest) := by
  rw [gapsFrom_nothing]
  simp [gapsFrom, stops]

theorem fill_pieces : ∀ (n : Nat) (chars : List Char), chars.length ≤ n →
    fill word.toList (withGaps word (pieces chars)) = chars := by
  intro n
  induction n with
  | zero =>
      intro chars short
      have empty : chars = [] := List.eq_nil_of_length_eq_zero (by omega)
      rw [empty]
      rfl
  | succ n ih =>
      intro chars short
      cases chars with
      | nil => rfl
      | cons c rest =>
          have shorter := length_firstPiece rest.length c rest
          rw [List.length_cons] at short
          rw [pieces_cons, withGaps, List.flatMap_cons, fill_append, fill_piece, ← withGaps,
            ih _ (by omega), chars_firstPiece]

theorem fill_gapsFrom (word : String) (run : Run) (chars : List Char) :
    fill word.toList (gapsFrom word run chars) = chars := by
  rw [gapsFrom, fill_append, fill_map, fill_pieces _ _ (Nat.le_refl _),
    List.takeWhile_append_dropWhile]

theorem gapsFrom_piece {taken : List Char}
    (noWord : (firstPiece rest.length c rest).1.isWord word = false)
    (leaves : (firstPiece rest.length c rest).2 = behind) (text : c :: rest = taken ++ behind) :
    gapsFrom word .nothing (c :: rest) = taken.map some ++ gapsFrom word .nothing behind := by
  have chars := chars_firstPiece rest.length c rest
  rw [leaves, text] at chars
  rw [gapsFrom_nothing, gapsFrom_nothing, pieces_cons, withGaps, List.flatMap_cons, leaves]
  congr 1
  rw [Piece.gaps, noWord, ← List.append_cancel_right chars]
  rfl

theorem noWord_of_kind {p : Piece} (kind : p.kind ≠ .name) : p.isWord word = false := by
  simp [Piece.isWord, kind]

theorem gapsFrom_one (kind : PieceKind) (noName : kind ≠ .name)
    (one : firstPiece rest.length c rest = (⟨kind, [c]⟩, rest)) :
    gapsFrom word .nothing (c :: rest) = some c :: gapsFrom word .nothing rest :=
  gapsFrom_piece (by rw [one]; exact noWord_of_kind noName) (by rw [one])
    (show c :: rest = [c] ++ rest from rfl)

theorem gapsFrom_run (kind : PieceKind) {run : Run}
    (first : firstPiece rest.length c rest = runPiece kind c run.takes rest)
    (noWord : (⟨kind, c :: rest.takeWhile run.takes⟩ : Piece).isWord word = false) :
    gapsFrom word .nothing (c :: rest) = some c :: gapsFrom word run rest := by
  have text : c :: rest = (c :: rest.takeWhile run.takes) ++ rest.dropWhile run.takes := by
    rw [List.cons_append, List.takeWhile_append_dropWhile]
  rw [gapsFrom_piece (by rw [first]; exact noWord) (by rw [first]; rfl) text, gapsFrom_nothing]
  rfl

theorem gapsFrom_digit (digit : c.isDigit = true) :
    gapsFrom word .nothing (c :: rest) = some c :: gapsFrom word .number rest := by
  have part : Cursor.isNameChar c = true := by simp [Cursor.isNameChar, Char.isAlphanum, digit]
  refine gapsFrom_run .other ?_ (noWord_of_kind (by simp))
  rw [firstPiece_nameChar _ part, isNameStart_digit digit, if_neg (by simp), if_pos digit]
  rfl

theorem gapsFrom_fraction {d : Char} (digit : d.isDigit = true) :
    gapsFrom word .nothing ('.' :: d :: rest) = some '.' :: gapsFrom word .number (d :: rest) := by
  have noDigit : ('.' : Char).isDigit = false := rfl
  refine gapsFrom_run .other ?_ (noWord_of_kind (by simp))
  simp [firstPiece, isSpace, isNameStart_point, noDigit, digit]
  rfl

theorem gapsFrom_name (start : isNameStart c = true)
    (noWord : c :: rest.takeWhile isNameChar ≠ word.toList) :
    gapsFrom word .nothing (c :: rest) = some c :: gapsFrom word .name rest := by
  have part := isNameChar_wider (isNameStart_isNameChar start)
  refine gapsFrom_run .name ?_ ?_
  · rw [firstPiece_nameChar _ part, if_pos start]
    rfl
  · simp only [Piece.isWord, Bool.and_eq_false_iff, decide_eq_false_iff_not]
    exact .inr noWord

theorem gapsFrom_word (start : isNameStart c = true)
    (isWord : c :: rest.takeWhile isNameChar = word.toList) :
    gapsFrom word .nothing (c :: rest) =
      none :: gapsFrom word .nothing (rest.dropWhile isNameChar) := by
  have part := isNameChar_wider (isNameStart_isNameChar start)
  rw [gapsFrom_nothing, gapsFrom_nothing, pieces_cons, firstPiece_nameChar _ part, if_pos start,
    withGaps, List.flatMap_cons]
  simp [runPiece, Piece.gaps, Piece.isWord, isWord]
  rfl

theorem gapsFrom_foreign (part : Cursor.isNameChar c = true) (noStart : isNameStart c = false)
    (noDigit : c.isDigit = false) :
    gapsFrom word .nothing (c :: rest) = some c :: gapsFrom word .nothing rest := by
  refine gapsFrom_one .other (by simp) ?_
  rw [firstPiece_nameChar _ part, noStart, noDigit]
  rfl

end

end SandboxedGo.Submission
