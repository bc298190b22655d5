import SandboxedGo.Text.Digits

/-!
# Digests

The SHA-256 hash of a text, which stands for the text where it is looked up.  A digest is written
as sixty-four hexadecimal digits and read back from them in either case.
-/

set_option autoImplicit false

namespace SandboxedGo

/-!
## The hash function SHA-256

A message is padded to whole blocks of sixty-four bytes.  Each block is expanded to a schedule of
sixty-four words, and one round for each of them changes the state of eight words.
-/

namespace Sha256

structure HashState where
  a : UInt32
  b : UInt32
  c : UInt32
  d : UInt32
  e : UInt32
  f : UInt32
  g : UInt32
  h : UInt32

def HashState.initial : HashState :=
  ⟨0x6a09e667, 0xbb67ae85, 0x3c6ef372, 0xa54ff53a, 0x510e527f, 0x9b05688c, 0x1f83d9ab, 0x5be0cd19⟩

def roundConstants : List UInt32 :=
  [0x428a2f98, 0x71374491, 0xb5c0fbcf, 0xe9b5dba5, 0x3956c25b, 0x59f111f1, 0x923f82a4, 0xab1c5ed5,
   0xd807aa98, 0x12835b01, 0x243185be, 0x550c7dc3, 0x72be5d74, 0x80deb1fe, 0x9bdc06a7, 0xc19bf174,
   0xe49b69c1, 0xefbe4786, 0x0fc19dc6, 0x240ca1cc, 0x2de92c6f, 0x4a7484aa, 0x5cb0a9dc, 0x76f988da,
   0x983e5152, 0xa831c66d, 0xb00327c8, 0xbf597fc7, 0xc6e00bf3, 0xd5a79147, 0x06ca6351, 0x14292967,
   0x27b70a85, 0x2e1b2138, 0x4d2c6dfc, 0x53380d13, 0x650a7354, 0x766a0abb, 0x81c2c92e, 0x92722c85,
   0xa2bfe8a1, 0xa81a664b, 0xc24b8b70, 0xc76c51a3, 0xd192e819, 0xd6990624, 0xf40e3585, 0x106aa070,
   0x19a4c116, 0x1e376c08, 0x2748774c, 0x34b0bcb5, 0x391c0cb3, 0x4ed8aa4a, 0x5b9cca4f, 0x682e6ff3,
   0x748f82ee, 0x78a5636f, 0x84c87814, 0x8cc70208, 0x90befffa, 0xa4506ceb, 0xbef9a3f7, 0xc67178f2]

/-! ### Functions of words -/

def rotateRight (x n : UInt32) : UInt32 := (x >>> n) ||| (x <<< (32 - n))

def choice (x y z : UInt32) : UInt32 := (x &&& y) ^^^ (~~~x &&& z)

def majority (x y z : UInt32) : UInt32 := (x &&& y) ^^^ (x &&& z) ^^^ (y &&& z)

def capitalSigma0 (x : UInt32) : UInt32 := rotateRight x 2 ^^^ rotateRight x 13 ^^^ rotateRight x 22

def capitalSigma1 (x : UInt32) : UInt32 := rotateRight x 6 ^^^ rotateRight x 11 ^^^ rotateRight x 25

def smallSigma0 (x : UInt32) : UInt32 := rotateRight x 7 ^^^ rotateRight x 18 ^^^ (x >>> 3)

def smallSigma1 (x : UInt32) : UInt32 := rotateRight x 17 ^^^ rotateRight x 19 ^^^ (x >>> 10)

/-! ### Bytes and words -/

/-- The four bytes of a word, most significant first. -/
def bytesOfWord (w : UInt32) : List UInt8 :=
  [(w >>> 24).toUInt8, (w >>> 16).toUInt8, (w >>> 8).toUInt8, w.toUInt8]

/-- The byte at a place; zero behind the end. -/
def byteAt (bytes : ByteArray) (i : Nat) : UInt32 := ((bytes[i]?).getD 0).toUInt32

def wordAt (bytes : ByteArray) (i : Nat) : UInt32 :=
  (byteAt bytes i <<< 24) ||| (byteAt bytes (i + 1) <<< 16) ||| (byteAt bytes (i + 2) <<< 8) |||
    byteAt bytes (i + 3)

def lengthBytes (size : Nat) : List UInt8 :=
  bytesOfWord (UInt32.ofNat (size * 8 / Nat.pow 2 32)) ++ bytesOfWord (UInt32.ofNat (size * 8))

/-- The message with a mark, zeros and its length behind it, in whole blocks. -/
def padded (message : ByteArray) : ByteArray :=
  let zeros := List.replicate ((119 - message.size % 64) % 64) (0 : UInt8)
  message ++ ⟨(0x80 :: zeros ++ lengthBytes message.size).toArray⟩

/-! ### Compression -/

def nextWord (words : Array UInt32) : UInt32 :=
  let back (n : Nat) : UInt32 := (words[words.size - n]?).getD 0
  smallSigma1 (back 2) + back 7 + smallSigma0 (back 15) + back 16

/-- A schedule with `n` more words. -/
def extendSchedule : (n : Nat) → Array UInt32 → Array UInt32
  | 0, words => words
  | n + 1, words => extendSchedule n (words.push (nextWord words))

def schedule (bytes : ByteArray) (start : Nat) : Array UInt32 :=
  extendSchedule 48 ((List.range 16).map fun i => wordAt bytes (start + 4 * i)).toArray

def round (s : HashState) (word constant : UInt32) : HashState :=
  let t1 := s.h + capitalSigma1 s.e + choice s.e s.f s.g + constant + word
  let t2 := capitalSigma0 s.a + majority s.a s.b s.c
  ⟨t1 + t2, s.a, s.b, s.c, s.d + t1, s.e, s.f, s.g⟩

def HashState.add (s t : HashState) : HashState :=
  ⟨s.a + t.a, s.b + t.b, s.c + t.c, s.d + t.d, s.e + t.e, s.f + t.f, s.g + t.g, s.h + t.h⟩

def compress (bytes : ByteArray) (s : HashState) (start : Nat) : HashState :=
  let words := (schedule bytes start).toList
  s.add ((words.zip roundConstants).foldl (fun t w => round t w.1 w.2) s)

def hash (message : ByteArray) : HashState :=
  let bytes := padded message
  (List.range (bytes.size / 64)).foldl (fun s block => compress bytes s (64 * block)) .initial

def HashState.words (s : HashState) : List UInt32 := [s.a, s.b, s.c, s.d, s.e, s.f, s.g, s.h]

end Sha256

/-! ## Digests of texts -/

structure Digest where
  bytes : List UInt8
  length_bytes : bytes.length = 32

namespace Digest

instance : DecidableEq Digest := fun a b =>
  decidable_of_iff (a.bytes = b.bytes) ⟨fun h => by cases a; cases b; simp_all, fun h => by rw [h]⟩

def ofBytes (message : ByteArray) : Digest :=
  ⟨(Sha256.hash message).words.flatMap Sha256.bytesOfWord, by
    simp [Sha256.HashState.words, Sha256.bytesOfWord]⟩

def ofText (text : String) : Digest := ofBytes text.toUTF8

def hexOfBytes (bytes : List UInt8) : List Char := bytes.flatMap fun b => Text.digitsIn 16 2 b.toNat

def bytesOfHex? : List Char → Option (List UInt8)
  | [] => some []
  | [_] => none
  | a :: b :: rest => do
    let high ← Text.digitValue? 16 a
    let low ← Text.digitValue? 16 b
    return UInt8.ofNat (16 * high + low) :: (← bytesOfHex? rest)

def hex (d : Digest) : String := String.ofList (hexOfBytes d.bytes)

def short (d : Digest) : String := String.ofList ((hexOfBytes d.bytes).take 12)

def diagnostic (d : Digest) : String := "Digest(" ++ d.short ++ ")"

def parse? (text : String) : Option Digest := do
  let bytes ← bytesOfHex? text.toList
  if h : bytes.length = 32 then some ⟨bytes, h⟩ else none

def invalidMessage (text : String) : String := "invalid digest hex: " ++ text

end Digest

end SandboxedGo
