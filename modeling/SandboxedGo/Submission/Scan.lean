import SandboxedGo.Text.Digits
import SandboxedGo.Text.Utf8

/-!
# A tolerant look at source text

A source text is cut into pieces, whatever it is: names, string literals with their values,
parentheses, dots, white space and comments, and other things of which only the extent matters.
Nothing is an error.  A literal that is not closed ends with its line, or with the text if it may
span lines.  The characters of all pieces in order are the text.
-/

set_option autoImplicit false

namespace SandboxedGo.Submission

inductive PieceKind
  | name
  /-- A string literal, with its value. -/
  | text (value : String)
  | lParen | rParen | dot
  /-- White space or a comment. -/
  | blank
  | other
  deriving DecidableEq, Repr

structure Piece where
  kind : PieceKind
  chars : List Char
  deriving DecidableEq, Repr

/-! ## Names -/

def isNameStart (c : Char) : Bool := Text.isAlphabetic c || c = '_'

def isNameChar (c : Char) : Bool := Text.isAlphanumeric c || c = '_'

def isIdentifier (name : String) : Bool :=
  match name.toList with
  | c :: rest => isNameStart c && rest.all isNameChar
  | [] => false

def isSpace (c : Char) : Bool := c = ' ' || c = '\t' || c = '\n' || c = '\x0c' || c = '\r'

/-! ## String literals -/

/-- A literal as far as it has been read. -/
structure Literal where
  /-- The characters read, in reverse. -/
  read : List Char
  /-- The bytes they stand for, in reverse. -/
  bytes : List UInt8
  rest : List Char

namespace Literal

/-- The literal with one more character, which stands for the given bytes. -/
def push (l : Literal) (c : Char) (bytes : List UInt8) (rest : List Char) : Literal :=
  ⟨c :: l.read, bytes.reverse ++ l.bytes, rest⟩

def value (l : Literal) : String := Text.ofBytes ⟨l.bytes.reverse.toArray⟩

end Literal

def escapedByte? (c : Char) : Option UInt8 :=
  match c with
  | 'a' => some 0x07
  | 'b' => some 0x08
  | 'f' => some 0x0c
  | 'n' => some 0x0a
  | 'r' => some 0x0d
  | 't' => some 0x09
  | 'v' => some 0x0b
  | '\\' => some 0x5c
  | '\'' => some 0x27
  | '"' => some 0x22
  | _ => none

/-- The beginning of a text, up to a number of bytes. -/
structure Cut where
  /-- The characters that the beginning covers or splits. -/
  covered : List Char
  /-- The bytes of the last of them that lie behind the cut; none unless it is split. -/
  spill : List UInt8
  rest : List Char

/-- Cut a text behind its first `width` bytes, or at its end. -/
def cutBytes : Nat → List Char → Cut
  | 0, rest => ⟨[], [], rest⟩
  | _ + 1, [] => ⟨[], [], []⟩
  | width + 1, c :: rest =>
    if c.utf8Size ≤ width + 1 then
      let more := cutBytes (width + 1 - c.utf8Size) rest
      { more with covered := c :: more.covered }
    else ⟨[c], (String.utf8EncodeChar c).drop (width + 1), rest⟩

/-- The number that the digits of an escape write, with or without a plus sign; zero if they write
none. -/
def escapedNumber (base : Nat) (cut : Cut) : Nat :=
  if !cut.spill.isEmpty then 0
  else
    match cut.covered with
    | '+' :: digits => (Text.numberIn? base digits).getD 0
    | digits => (Text.numberIn? base digits).getD 0

/-- An escape that writes a number with a fixed number of bytes.  The bytes of a character that the
end of the escape splits stand for themselves. -/
def numericEscape (l : Literal) (base width : Nat) (bytes : Nat → List UInt8) : Literal :=
  let cut := cutBytes width l.rest
  ⟨cut.covered.reverse ++ l.read,
    cut.spill.reverse ++ (bytes (escapedNumber base cut)).reverse ++ l.bytes, cut.rest⟩

def oneByte (n : Nat) : List UInt8 := [UInt8.ofNat n]

def codeBytes (n : Nat) : List UInt8 := String.utf8EncodeChar (Text.charOfCode n)

def readEscape (l : Literal) : Literal :=
  match l.rest with
  | [] => l
  | c :: rest =>
    match escapedByte? c with
    | some byte => l.push c [byte] rest
    | none =>
      if '0' ≤ c && c ≤ '7' then numericEscape l 8 3 oneByte
      else if c = 'x' then numericEscape (l.push c [] rest) 16 2 oneByte
      else if c = 'u' then numericEscape (l.push c [] rest) 16 4 codeBytes
      else if c = 'U' then numericEscape (l.push c [] rest) 16 8 codeBytes
      else l.push c (String.utf8EncodeChar c) rest

/-- An interpreted literal, behind its opening quote.  The steps are bounded by the number of
characters. -/
def readInterpreted : Nat → Literal → Literal
  | 0, l => l
  | steps + 1, l =>
    match l.rest with
    | [] => l
    | c :: rest =>
      if c = '"' then l.push c [] rest
      else if c = '\n' then l
      else if c = '\\' then readInterpreted steps (readEscape (l.push c [] rest))
      else readInterpreted steps (l.push c (String.utf8EncodeChar c) rest)

/-- The characters of a rune literal behind its opening quote, in reverse before those read, and
the rest. -/
def readRune (read : List Char) : List Char → List Char × List Char
  | [] => (read, [])
  | ['\\'] => ('\\' :: read, [])
  | '\\' :: c :: rest => readRune (c :: '\\' :: read) rest
  | c :: rest =>
    if c = '\'' then (c :: read, rest)
    else if c = '\n' then (read, c :: rest)
    else readRune (c :: read) rest

/-! ## Comments -/

/-- A block comment behind its opening, in reverse before what was read, and the rest. -/
def readBlockComment (read : List Char) : List Char → List Char × List Char
  | [] => (read, [])
  | '*' :: '/' :: rest => ('/' :: '*' :: read, rest)
  | c :: rest => readBlockComment (c :: read) rest

/-! ## Pieces -/

/-- The piece of a literal between double quotes, of which at most `bound` characters follow its
first quote, and the rest behind it. -/
def interpretedPiece (bound : Nat) (rest : List Char) : Piece × List Char :=
  let l := readInterpreted bound ⟨['"'], [], rest⟩
  (⟨.text l.value, l.read.reverse⟩, l.rest)

/-- The piece of a literal between backquotes; carriage returns are not part of its value. -/
def rawPiece (rest : List Char) : Piece × List Char :=
  let body := rest.takeWhile (· ≠ '\x60')
  let value := String.ofList (body.filter (· ≠ '\r'))
  match rest.dropWhile (· ≠ '\x60') with
  | [] => (⟨.text value, '\x60' :: body⟩, [])
  | quote :: after => (⟨.text value, '\x60' :: body ++ [quote]⟩, after)

/-- The piece of the characters `first` and those that follow as long as they satisfy `p`. -/
def runPiece (kind : PieceKind) (first : Char) (p : Char → Bool) (rest : List Char) :
    Piece × List Char :=
  (⟨kind, first :: rest.takeWhile p⟩, rest.dropWhile p)

def runePiece (rest : List Char) : Piece × List Char :=
  let result := readRune ['\''] rest
  (⟨.other, result.1.reverse⟩, result.2)

def blockCommentPiece (rest : List Char) : Piece × List Char :=
  let result := readBlockComment ['*', '/'] rest
  (⟨.blank, result.1.reverse⟩, result.2)

def isNumberChar (c : Char) : Bool := isNameChar c || c = '.'

/-- The piece that begins with a character, behind which at most `bound` characters follow, and the
rest behind it. -/
def firstPiece (bound : Nat) (c : Char) (rest : List Char) : Piece × List Char :=
  if isSpace c then (⟨.blank, [c]⟩, rest)
  else if c = '"' then interpretedPiece bound rest
  else if c = '\x60' then rawPiece rest
  else if c = '\'' then runePiece rest
  else if c = '(' then (⟨.lParen, [c]⟩, rest)
  else if c = ')' then (⟨.rParen, [c]⟩, rest)
  else if isNameStart c then runPiece .name c isNameChar rest
  else if c.isDigit then runPiece .other c isNumberChar rest
  else
    match c, rest with
    | '/', '/' :: _ => runPiece .blank c (· ≠ '\n') rest
    | '/', '*' :: more => blockCommentPiece more
    | '.', d :: _ => if d.isDigit then runPiece .other c isNumberChar rest else (⟨.dot, [c]⟩, rest)
    | '.', [] => (⟨.dot, [c]⟩, rest)
    | _, _ => (⟨.other, [c]⟩, rest)

/-- The pieces of a text, added in reverse to those already cut off.  Every step cuts off at least
one character, so the number of characters bounds the number of steps. -/
def cutPieces : Nat → List Char → List Piece → List Piece
  | 0, _, cut => cut
  | _ + 1, [], cut => cut
  | steps + 1, c :: rest, cut =>
    let (piece, after) := firstPiece steps c rest
    cutPieces steps after (piece :: cut)

def pieces (chars : List Char) : List Piece := (cutPieces chars.length chars []).reverse

def tokens (chars : List Char) : List Piece := (pieces chars).filter (·.kind ≠ .blank)

def Piece.isWord (p : Piece) (word : String) : Bool := p.kind = .name && p.chars = word.toList

end SandboxedGo.Submission
