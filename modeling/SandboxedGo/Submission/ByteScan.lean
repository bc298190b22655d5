import SandboxedGo.Submission.Scan
import SandboxedGo.Text.Utf8

/-!
# The tolerant look at source text, by offsets

The same look, byte by byte: tokens are told by the offsets between which they stand, and single
bytes decide how to go on.  An offset may come to stand inside a character here.  Nothing is the
answer where a byte is asked for that is outside of the text, where a text is cut inside a
character, and where a step would not get any further.
-/

set_option autoImplicit false

namespace SandboxedGo.Submission

open Text (behind? between? breakOn byteLength bytesBetween? encoded)

/-- A token and the offsets between which it stands. -/
structure Span where
  kind : PieceKind
  start : Nat
  stop : Nat
  deriving DecidableEq, Repr

/-! ## Where things end -/

def lineStop? (bytes : List UInt8) (start : Nat) : Option Nat :=
  if start ≤ bytes.length then
    some (start + ((bytes.drop start).takeWhile (Char.ofUInt8 · ≠ '\n')).length)
  else none

/-- The offset behind the characters from an offset on that satisfy `p`. -/
def runStop? (chars : List Char) (start : Nat) (p : Char → Bool) : Option Nat := do
  let rest ← behind? start chars
  some (start + byteLength (rest.takeWhile p))

/-- The offset behind a rune literal, from an offset in it on. -/
def runeStop (bytes : List UInt8) (i : Nat) : Nat :=
  if inside : i < bytes.length then
    let c := Char.ofUInt8 bytes[i]
    if c = '\\' then runeStop bytes (i + 2)
    else if c = '\'' then i + 1
    else if c = '\n' then i
    else runeStop bytes (i + 1)
  else bytes.length
termination_by bytes.length - i

/-- The offset behind a block comment, from the offset behind its opening on. -/
def commentStop? (chars : List Char) (start : Nat) : Option Nat := do
  let rest ← behind? start chars
  match breakOn ['*', '/'] rest with
  | some (body, _) => some (start + byteLength body + 2)
  | none => some (encoded chars).length

/-! ## String literals -/

/-- The number that the digits of an escape write; zero if they write none. -/
def digitsNumber (base : Nat) (digits : List UInt8) : Nat :=
  match String.fromUTF8? ⟨digits.toArray⟩ with
  | some text => escapedNumber base ⟨text.toList, [], []⟩
  | none => 0

/-- An escape that writes a number with a fixed number of bytes: its value and the offset behind
it. -/
def numberEscape? (bytes : List UInt8) (start base width : Nat) (value : Nat → List UInt8) :
    Option (List UInt8 × Nat) := do
  let stop := min (start + width) bytes.length
  let digits ← bytesBetween? start stop bytes
  some (value (digitsNumber base digits), stop)

/-- An escape, behind its backslash: its value and the offset behind it. -/
def escape? (bytes : List UInt8) (i : Nat) : Option (List UInt8 × Nat) :=
  match bytes[i]? with
  | none => some ([], i)
  | some b =>
    let c := Char.ofUInt8 b
    match escapedByte? c with
    | some byte => some ([byte], i + 1)
    | none =>
      if '0' ≤ c && c ≤ '7' then numberEscape? bytes i 8 3 oneByte
      else if c = 'x' then numberEscape? bytes (i + 1) 16 2 oneByte
      else if c = 'u' then numberEscape? bytes (i + 1) 16 4 codeBytes
      else if c = 'U' then numberEscape? bytes (i + 1) 16 8 codeBytes
      else some ([b], i + 1)

/-- An interpreted literal from an offset in it on, behind bytes that stand in it already: its value
and the offset behind it. -/
def interpreted? (bytes : List UInt8) (i : Nat) (read : List UInt8) : Option (List UInt8 × Nat) :=
  if inside : i < bytes.length then
    let c := Char.ofUInt8 bytes[i]
    if c = '"' then some (read, i + 1)
    else if c = '\n' then some (read, i)
    else if c = '\\' then
      match escape? bytes (i + 1) with
      | some (value, stop) =>
        if _ : i < stop then interpreted? bytes stop (read ++ value) else none
      | none => none
    else interpreted? bytes (i + 1) (read ++ [bytes[i]])
  else some (read, i)
termination_by bytes.length - i

def rawText? (chars : List Char) (start : Nat) : Option (PieceKind × Nat) := do
  let rest ← behind? start chars
  let close := start + byteLength (rest.takeWhile (· ≠ '\x60'))
  let body ← between? start close chars
  some (.text (String.ofList (body.filter (· ≠ '\r'))), min (close + 1) (encoded chars).length)

/-! ## Steps -/

/-- What begins at an offset of a text with a character, and the offset behind it. -/
def wordFrom? (chars : List Char) (i : Nat) (c : Char) : Option (PieceKind × Nat) :=
  if isNameStart c then (runStop? chars i isNameChar).map fun stop => (.name, stop)
  else if c.isDigit || c = '.' then
    (runStop? chars (i + 1) isNumberChar).map fun stop => (.other, stop)
  else some (.other, i + max c.utf8Size 1)

/-- What stands at an offset of a text where no single byte tells it, and the offset behind it. -/
def wordAt? (chars : List Char) (i : Nat) : Option (PieceKind × Nat) := do
  let rest ← behind? i chars
  wordFrom? chars i (rest.head?.getD '\x00')

/-- What stands at an offset of a text, and the offset behind it.  The byte there and the next one
decide. -/
def scanStep? (chars : List Char) (i : Nat) : Option (PieceKind × Nat) :=
  let bytes := encoded chars
  if inside : i < bytes.length then
    let c := Char.ofUInt8 bytes[i]
    let next := bytes[i + 1]?.map Char.ofUInt8
    if isSpace c then some (.blank, i + 1)
    else if c = '/' ∧ next = some '/' then (lineStop? bytes i).map fun stop => (.blank, stop)
    else if c = '/' ∧ next = some '*' then
      (commentStop? chars (i + 2)).map fun stop => (.blank, stop)
    else if c = '"' then
      (interpreted? bytes (i + 1) []).map fun read =>
        (.text (Text.ofBytes ⟨read.1.toArray⟩), read.2)
    else if c = '\x60' then rawText? chars (i + 1)
    else if c = '\'' then some (.other, runeStop bytes (i + 1))
    else if c = '(' then some (.lParen, i + 1)
    else if c = ')' then some (.rParen, i + 1)
    else if c = '.' ∧ next.any Char.isDigit = false then some (.dot, i + 1)
    else wordAt? chars i
  else none

def scanFrom? (chars : List Char) (i : Nat) : Option (List Span) :=
  if _ : i < (encoded chars).length then
    match scanStep? chars i with
    | some (kind, stop) =>
      if _ : i < stop then
        (scanFrom? chars stop).map fun later =>
          if kind = .blank then later else ⟨kind, i, stop⟩ :: later
      else none
    | none => none
  else some []
termination_by (encoded chars).length - i

def scan? (source : String) : Option (List Span) := scanFrom? source.toList 0

end SandboxedGo.Submission
