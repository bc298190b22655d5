/-!
# Searching in text

Occurrences of one list of characters in another, from the left and without overlap.
-/

set_option autoImplicit false

namespace SandboxedGo.Text

/-- The text before the first occurrence of `needle`, added in reverse to what was passed already,
and the text behind it. -/
def breakFrom (needle passed : List Char) : List Char → Option (List Char × List Char)
  | [] => if needle.isEmpty then some (passed.reverse, []) else none
  | c :: rest =>
    if needle.isPrefixOf (c :: rest) then some (passed.reverse, (c :: rest).drop needle.length)
    else breakFrom needle (c :: passed) rest

/-- The texts before and behind the first occurrence of `needle`. -/
def breakOn (needle hay : List Char) : Option (List Char × List Char) := breakFrom needle [] hay

/-- The text before the last occurrence of `needle`. -/
def beforeLast (needle hay : List Char) : Option (List Char) :=
  (breakOn needle.reverse hay.reverse).map fun parts => parts.2.reverse

def containsText (needle hay : List Char) : Bool := (breakOn needle hay).isSome

/-- The pieces of a text between occurrences of a needle that is not empty, at most
`separators + 1` of them. -/
def splitAtMost (needle : List Char) : Nat → List Char → List (List Char)
  | 0, hay => [hay]
  | separators + 1, hay =>
    match breakOn needle hay with
    | none => [hay]
    | some (before, after) => before :: splitAtMost needle separators after

/-- The pieces of a text between all occurrences of a needle that is not empty. -/
def splitAll (needle hay : List Char) : List (List Char) := splitAtMost needle hay.length hay

/-- A text with up to `count` occurrences of the empty text replaced: before each character and at
the end. -/
def intersperseAtMost (new : List Char) : Nat → List Char → List Char
  | 0, hay => hay
  | _ + 1, [] => new
  | count + 1, c :: rest => new ++ c :: intersperseAtMost new count rest

/-- A text with up to `count` occurrences of `old` replaced by `new`. -/
def replaceAtMost (old new : List Char) (count : Nat) (hay : List Char) : List Char :=
  if old.isEmpty then intersperseAtMost new count hay
  else List.flatten ((splitAtMost old count hay).intersperse new)

/-- A text with all occurrences of `old` replaced by `new`. -/
def replaceAll (old new hay : List Char) : List Char :=
  replaceAtMost old new (hay.length + 1) hay

def byteLength : List Char → Nat
  | [] => 0
  | c :: rest => c.utf8Size + byteLength rest

end SandboxedGo.Text
