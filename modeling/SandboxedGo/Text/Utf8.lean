import SandboxedGo.Text.Character
import SandboxedGo.Text.Search

/-!
# Bytes and text

Texts are sequences of characters; guest programs also see their bytes.  Decoding is total: each
longest piece of an ill-formed sequence that could begin a character, and each byte that could not,
becomes one replacement character.  A text can be cut at an offset in bytes only where a character
begins, or at its end.
-/

set_option autoImplicit false

namespace SandboxedGo.Text

/-- Whether a byte continues a character. -/
def isContinuation (b : UInt8) : Bool := b &&& 0xc0 = 0x80

/-- Whether `b` may follow the first byte of a three-byte or four-byte character. -/
def mayFollow (first b : UInt8) : Bool :=
  if first = 0xe0 then 0xa0 ≤ b && b ≤ 0xbf
  else if first = 0xed then 0x80 ≤ b && b ≤ 0x9f
  else if first = 0xf0 then 0x90 ≤ b && b ≤ 0xbf
  else if first = 0xf4 then 0x80 ≤ b && b ≤ 0x8f
  else isContinuation b

/-- The bits that a byte adds to a character when `kept` is the mask of its payload. -/
def payload (b kept : UInt8) : Nat := (b &&& kept).toNat

/-- The character that begins with the byte `a`, and how many of the bytes after `a` belong to it.
An ill-formed beginning is a replacement character, as long as the bytes could still have been the
beginning of a character. -/
def firstChar (a : UInt8) (rest : List UInt8) : Char × Nat :=
  if a < 0x80 then (Char.ofNat a.toNat, 0)
  else if 0xc2 ≤ a && a ≤ 0xdf then
    match rest with
    | b :: _ =>
      if isContinuation b then (Char.ofNat (payload a 0x1f * 64 + payload b 0x3f), 1)
      else (replacement, 0)
    | [] => (replacement, 0)
  else if 0xe0 ≤ a && a ≤ 0xef then
    match rest with
    | b :: c :: _ =>
      if !mayFollow a b then (replacement, 0)
      else if !isContinuation c then (replacement, 1)
      else (Char.ofNat ((payload a 0x0f * 64 + payload b 0x3f) * 64 + payload c 0x3f), 2)
    | [b] => (replacement, if mayFollow a b then 1 else 0)
    | [] => (replacement, 0)
  else if 0xf0 ≤ a && a ≤ 0xf4 then
    match rest with
    | b :: c :: d :: _ =>
      if !mayFollow a b then (replacement, 0)
      else if !isContinuation c then (replacement, 1)
      else if !isContinuation d then (replacement, 2)
      else
        (Char.ofNat (((payload a 0x07 * 64 + payload b 0x3f) * 64 + payload c 0x3f) * 64 +
          payload d 0x3f), 3)
    | [b, c] => (replacement, if !mayFollow a b then 0 else if isContinuation c then 2 else 1)
    | [b] => (replacement, if mayFollow a b then 1 else 0)
    | [] => (replacement, 0)
  else (replacement, 0)

/-- The characters of a byte sequence, after skipping a number of bytes. -/
def decodeAfter : Nat → List UInt8 → List Char
  | _, [] => []
  | skip + 1, _ :: rest => decodeAfter skip rest
  | 0, a :: rest =>
    let (c, extra) := firstChar a rest
    c :: decodeAfter extra rest

/-- The characters of a byte sequence; ill-formed pieces become replacement characters. -/
def decodeBytes (bytes : List UInt8) : List Char := decodeAfter 0 bytes

/-- The text of a byte sequence.  A well-formed sequence is taken as it is. -/
def ofBytes (bytes : ByteArray) : String :=
  match String.fromUTF8? bytes with
  | some s => s
  | none => String.ofList (decodeBytes bytes.toList)

def bytesOf (s : String) : List UInt8 := s.toUTF8.toList

def byteAt? (s : String) (i : Nat) : Option UInt8 :=
  if h : (⟨i⟩ : String.Pos.Raw) < s.rawEndPos then some (s.getUTF8Byte ⟨i⟩ h) else none

/-- The text of the bytes from offset `lo` up to offset `hi`. -/
def byteSlice (s : String) (lo hi : Nat) : String := ofBytes (s.toUTF8.extract lo hi)

/-! ## Offsets -/

/-- The texts before and behind an offset; none if the offset is inside a character or outside the
text. -/
def cutAt? : (offset : Nat) → List Char → Option (List Char × List Char)
  | 0, chars => some ([], chars)
  | _ + 1, [] => none
  | offset + 1, c :: rest =>
    if c.utf8Size ≤ offset + 1 then
      (cutAt? (offset + 1 - c.utf8Size) rest).map fun parts => (c :: parts.1, parts.2)
    else none

def behind? (offset : Nat) (chars : List Char) : Option (List Char) :=
  (cutAt? offset chars).map Prod.snd

def between? (start stop : Nat) (chars : List Char) : Option (List Char) := do
  let parts ← cutAt? stop chars
  behind? start parts.1

def encoded (chars : List Char) : List UInt8 := chars.flatMap String.utf8EncodeChar

/-- The bytes between two offsets; none if there are no such. -/
def bytesBetween? (start stop : Nat) (bytes : List UInt8) : Option (List UInt8) :=
  if start ≤ stop ∧ stop ≤ bytes.length then some ((bytes.take stop).drop start) else none

theorem cutAt?_zero (chars : List Char) : cutAt? 0 chars = some ([], chars) := by
  rw [cutAt?]

theorem cutAt?_byteLength (front back : List Char) :
    cutAt? (byteLength front) (front ++ back) = some (front, back) := by
  induction front with
  | nil => exact cutAt?_zero back
  | cons c front ih =>
      have size := c.utf8Size_pos
      obtain ⟨offset, is⟩ : ∃ offset, c.utf8Size + byteLength front = offset + 1 :=
        ⟨c.utf8Size + byteLength front - 1, by omega⟩
      have left : offset + 1 - c.utf8Size = byteLength front := by omega
      rw [byteLength, is, List.cons_append, cutAt?, if_pos (by omega), left, ih]
      rfl

theorem behind?_byteLength (front back : List Char) :
    behind? (byteLength front) (front ++ back) = some back := by
  rw [behind?, cutAt?_byteLength]
  rfl

end SandboxedGo.Text
