import SandboxedGo.Decimal.Reader
import SandboxedGo.Source.Fault

/-!
# From text to tokens

A cursor stands at a place in the text.  Each step reads one token, one comment, one newline or one
blank and leaves the cursor further on; `tokenize` repeats the step to the end of the text and adds
the semicolons that newlines stand for.  Every step reads at least one character, so the number of
characters bounds the number of steps.
-/

set_option autoImplicit false

namespace SandboxedGo.Source

/-- The text that is still to be read, and the place where it begins. -/
structure Cursor where
  rest : List Char
  position : Position

/-- What one step reads. -/
inductive Lexeme
  | token (t : Token)
  | newline
  | blank

namespace Cursor

def ofText (source : String) : Cursor := ⟨source.toList, ⟨1, 1⟩⟩

/-- The cursor behind the first `n` characters. -/
def skip (cur : Cursor) (n : Nat) : Cursor :=
  ⟨cur.rest.drop n, (cur.rest.take n).foldl Position.after cur.position⟩

/-- The longest run of characters that satisfy `p`, and the cursor behind it. -/
def readWhile (cur : Cursor) (p : Char → Bool) : List Char × Cursor :=
  let run := cur.rest.takeWhile p
  (run, cur.skip run.length)

/-- Characters of names; every character outside of ASCII is one. -/
def isNameChar (c : Char) : Bool := c = '_' || c.isAlphanum || 0x80 ≤ c.toNat

def isNameStart (c : Char) : Bool := isNameChar c && !c.isDigit

def isHexDigit (c : Char) : Bool := c.isDigit || ('a' ≤ c && c ≤ 'f') || ('A' ≤ c && c ≤ 'F')

def hexValue (c : Char) : Nat :=
  if c.isDigit then c.toNat - '0'.toNat
  else if 'a' ≤ c then c.toNat - 'a'.toNat + 10
  else c.toNat - 'A'.toNat + 10

def hexNumber (digits : List Char) : Nat := digits.foldl (fun n c => 16 * n + hexValue c) 0

def octalNumber (digits : List Char) : Nat :=
  digits.foldl (fun n c => 8 * n + (c.toNat - '0'.toNat)) 0

def isOctalDigit (c : Char) : Bool := '0' ≤ c && c ≤ '7'

def readName (cur : Cursor) : Lexeme × Cursor :=
  let (chars, after) := cur.readWhile isNameChar
  let word := String.ofList chars
  (.token (match Keyword.ofWord? word with | some k => .keyword k | none => .name word), after)

/-- The characters of a decimal number and whether it is a float.  A second point, or a point that
another point follows, is not part of it; every `e` is, with the sign behind it. -/
def numberChars (isFloat : Bool) : List Char → List Char × Bool
  | [] => ([], isFloat)
  | c :: rest =>
    if c.isDigit || c = '_' then
      let (more, result) := numberChars isFloat rest
      (c :: more, result)
    else if c = '.' && !isFloat && rest.head? ≠ some '.' then
      let (more, result) := numberChars true rest
      (c :: more, result)
    else if c = 'e' || c = 'E' then
      match rest with
      | [] => ([c], true)
      | sign :: rest' =>
        if sign = '+' || sign = '-' then
          let (more, result) := numberChars true rest'
          (c :: sign :: more, result)
        else
          let (more, result) := numberChars true (sign :: rest')
          (c :: more, result)
    else ([], isFloat)

/-- The greatest integer of the guest language. -/
def greatestInt : Nat := 0x7fffffffffffffff

/-- A number; underscores between its characters do not count. -/
def readNumber (cur : Cursor) : Except ParseError (Lexeme × Cursor) :=
  let fail (fault : Fault) : Except ParseError (Lexeme × Cursor) := .error ⟨cur.position, fault⟩
  match cur.rest with
  | '0' :: 'x' :: _ | '0' :: 'X' :: _ =>
    let (chars, after) := (cur.skip 2).readWhile fun c => isHexDigit c || c = '_'
    let digits := chars.filter (· ≠ '_')
    if digits.isEmpty || greatestInt < hexNumber digits then
      fail (.invalidHexLiteral (String.ofList digits))
    else .ok (.token (.int (Int64.ofNat (hexNumber digits))), after)
  | rest =>
    let (chars, isFloat) := numberChars false rest
    let after := cur.skip chars.length
    let text := chars.filter (· ≠ '_')
    if isFloat then
      match Decimal.readFloat? text with
      | some value => .ok (.token (.float value), after)
      | none => fail (.invalidFloatLiteral (String.ofList text))
    else if greatestInt < Decimal.naturalOf text then fail (.integerOverflow (String.ofList text))
    else .ok (.token (.int (Int64.ofNat (Decimal.naturalOf text))), after)

/-- The first byte of a character, read as a character of its own. -/
def firstByte (c : Char) : Char :=
  match String.utf8EncodeChar c with
  | b :: _ => Char.ofNat b.toNat
  | [] => c

/-- The escapes of one letter and the byte each stands for. -/
def simpleEscape? (c : Char) : Option UInt8 :=
  match c with
  | 'n' => some 0x0a
  | 't' => some 0x09
  | 'r' => some 0x0d
  | 'a' => some 0x07
  | 'b' => some 0x08
  | 'f' => some 0x0c
  | 'v' => some 0x0b
  | '\\' => some 0x5c
  | '"' => some 0x22
  | '\'' => some 0x27
  | _ => none

/-- The number that a fixed count of hexadecimal digits writes behind the letter of an escape. -/
def hexEscape (start : Position) (cur : Cursor) (count : Nat) : Except ParseError (Nat × Cursor) :=
  let digits := (cur.rest.drop 1).take count
  if digits.length = count ∧ digits.all isHexDigit then
    .ok (hexNumber digits, cur.skip (1 + count))
  else .error ⟨start, .invalidHexEscape⟩

def unicodeEscape (start : Position) (cur : Cursor) (count : Nat) :
    Except ParseError (List UInt8 × Cursor) :=
  match hexEscape start cur count with
  | .error e => .error e
  | .ok (code, after) =>
    match Text.charOfCode? code with
    | some c => .ok (String.utf8EncodeChar c, after)
    | none => .error ⟨start, .invalidUnicodeEscape⟩

/-- The bytes that an escape stands for; the cursor is behind the backslash.  An error has the
place `start`, where the literal begins. -/
def readEscape (start : Position) (cur : Cursor) : Except ParseError (List UInt8 × Cursor) :=
  match cur.rest with
  | [] => .error ⟨start, .escapeNotTerminated⟩
  | c :: rest =>
    match simpleEscape? c with
    | some byte => .ok ([byte], cur.skip 1)
    | none =>
      if isOctalDigit c then
        let more := rest.take 2
        if more.length = 2 ∧ more.all isOctalDigit then
          .ok ([UInt8.ofNat (octalNumber (c :: more))], cur.skip 3)
        else .error ⟨start, .invalidOctalEscape⟩
      else if c = 'x' then
        match hexEscape start cur 2 with
        | .error e => .error e
        | .ok (code, after) => .ok ([UInt8.ofNat code], after)
      else if c = 'u' then unicodeEscape start cur 4
      else if c = 'U' then unicodeEscape start cur 8
      else .error ⟨start, .unknownEscape (firstByte c)⟩

/-- The bytes between the quotes of an interpreted literal, added in reverse to those already read;
the cursor is behind the opening quote.  The steps are bounded by the number of characters. -/
def readQuoted (start : Position) (delimiter : Char) (unterminated : Fault) :
    Nat → Cursor → List UInt8 → Except ParseError (List UInt8 × Cursor)
  | 0, _, _ => .error ⟨start, unterminated⟩
  | steps + 1, cur, bytes =>
    match cur.rest with
    | [] => .error ⟨start, unterminated⟩
    | c :: _ =>
      if c = '\n' then .error ⟨start, unterminated⟩
      else if c = delimiter then .ok (bytes, cur.skip 1)
      else if c = '\\' then
        match readEscape start (cur.skip 1) with
        | .error e => .error e
        | .ok (more, after) =>
          readQuoted start delimiter unterminated steps after (more.reverse ++ bytes)
      else
        readQuoted start delimiter unterminated steps (cur.skip 1)
          ((String.utf8EncodeChar c).reverse ++ bytes)

/-- The text of an interpreted literal whose bytes are given in reverse. -/
def quotedText (reversed : List UInt8) : String :=
  Text.ofBytes ⟨reversed.reverse.toArray⟩

/-- A string between double quotes, of at most `bound` characters. -/
def readString (bound : Nat) (cur : Cursor) : Except ParseError (Lexeme × Cursor) := do
  let (bytes, after) ← readQuoted cur.position '"' .stringNotTerminated bound (cur.skip 1) []
  pure (.token (.string (quotedText bytes)), after)

/-- A string between backquotes; carriage returns do not count. -/
def readRawString (cur : Cursor) : Except ParseError (Lexeme × Cursor) :=
  let (chars, after) := (cur.skip 1).readWhile (· ≠ '\x60')
  if after.rest.isEmpty then .error ⟨cur.position, .rawStringNotTerminated⟩
  else .ok (.token (.string (String.ofList (chars.filter (· ≠ '\r')))), after.skip 1)

/-- A character between single quotes, written with at most `bound` characters. -/
def readRune (bound : Nat) (cur : Cursor) : Except ParseError (Lexeme × Cursor) := do
  let (bytes, after) ← readQuoted cur.position '\'' .runeNotTerminated bound (cur.skip 1) []
  match (quotedText bytes).toList with
  | [c] => pure (.token (.rune c), after)
  | _ => throw ⟨cur.position, .runeNotSingle⟩

/-- The number of characters up to and including the end of a block comment, from behind its
beginning, added to those already counted. -/
def commentLength? (count : Nat) : List Char → Option Nat
  | [] => none
  | '*' :: '/' :: _ => some (count + 2)
  | _ :: rest => commentLength? (count + 1) rest

def readMark (cur : Cursor) (first : Char) : Except ParseError (Lexeme × Cursor) :=
  match Mark.atStart? cur.rest with
  | some (m, length) => .ok (.token (.mark m), cur.skip length)
  | none => .error ⟨cur.position, .unexpectedCharacter first⟩

/-- One step at the character `first`, behind which at most `bound` characters follow.  A block
comment that holds a newline counts as one. -/
def step (bound : Nat) (cur : Cursor) (first : Char) : Except ParseError (Lexeme × Cursor) :=
  if first = '\n' then .ok (.newline, cur.skip 1)
  else if first = ' ' || first = '\t' || first = '\r' then .ok (.blank, cur.skip 1)
  else if first.isDigit then cur.readNumber
  else if first = '"' then cur.readString bound
  else if first = '\x60' then cur.readRawString
  else if first = '\'' then cur.readRune bound
  else if isNameStart first then .ok cur.readName
  else
    match cur.rest with
    | '/' :: '/' :: _ => .ok (.blank, (cur.readWhile (· ≠ '\n')).2)
    | '/' :: '*' :: rest =>
      match commentLength? 2 rest with
      | none => .error ⟨cur.position, .commentNotTerminated⟩
      | some length =>
        .ok (if (cur.rest.take length).contains '\n' then .newline else .blank, cur.skip length)
    | '.' :: c :: _ => if c.isDigit then cur.readNumber else cur.readMark first
    | _ => cur.readMark first

/-- The tokens after a newline at `position`: a semicolon if the statement may end there.  Tokens
are kept in reverse. -/
def endLine (position : Position) (read : List Located) : List Located :=
  match read with
  | [] => []
  | last :: _ => if last.token.endsStatement then ⟨.mark .semi, position⟩ :: read else read

/-- The tokens from a cursor on, added in reverse to those already read. -/
def readTokens : Nat → Cursor → List Located → Except ParseError (List Located)
  | 0, cur, read => .ok (⟨.endOfText, cur.position⟩ :: endLine cur.position read)
  | steps + 1, cur, read =>
    match cur.rest with
    | [] => .ok (⟨.endOfText, cur.position⟩ :: endLine cur.position read)
    | first :: _ =>
      match cur.step steps first with
      | .error e => .error e
      | .ok (.token t, after) => readTokens steps after (⟨t, cur.position⟩ :: read)
      | .ok (.newline, after) => readTokens steps after (endLine cur.position read)
      | .ok (.blank, after) => readTokens steps after read

end Cursor

/-- The tokens of a source text, with the semicolons that newlines stand for; the last token marks
the end of the text. -/
def tokenize (source : String) : Except ParseError (List Located) :=
  let cur := Cursor.ofText source
  (Cursor.readTokens cur.rest.length cur []).map List.reverse

end SandboxedGo.Source
