import SandboxedGo.Eval.Basic
import SandboxedGo.Library.Arguments
import SandboxedGo.Text.Case

/-!
# Functions on texts

Places in a text are counted in bytes; pieces and cut sets are made of characters.
-/

set_option autoImplicit false

namespace SandboxedGo.Library

/-! ## Searching -/

def firstPlace? (needle hay : String) : Option Nat :=
  (Text.breakOn needle.toList hay.toList).map fun parts => Text.byteLength parts.1

/-- The place of the last occurrence of a text. -/
def lastPlace? (needle hay : String) : Option Nat :=
  (Text.beforeLast needle.toList hay.toList).map Text.byteLength

/-- The place of the first character with a property, `passed` bytes further. -/
def placeWhere? (p : Char → Bool) (passed : Nat) : List Char → Option Nat
  | [] => none
  | c :: rest => if p c then some passed else placeWhere? p (passed + c.utf8Size) rest

/-- A place as programs see it; minus one if there is none. -/
def placeValue : Option Nat → Value
  | some place => countValue place
  | none => .int (-1)

/-- How often a text occurs in another one, without overlap; the empty text occurs around every
character. -/
def occurrences (needle hay : String) : Nat :=
  if needle.isEmpty then hay.length + 1
  else (Text.splitAll needle.toList hay.toList).length - 1

/-! ## Pieces -/

/-- The pieces of a text between separators: at most `limit` of them if it is positive, all of them
if it is negative, and none at all if it is zero.  The empty separator stands between any two
characters. -/
def pieces (text separator : String) (limit : Int) : Option (List String) :=
  if limit = 0 then none
  else if separator.isEmpty then
    let chars := text.toList
    if 0 < limit ∧ limit.toNat < chars.length then
      let head := limit.toNat - 1
      some ((chars.take head).map (fun c => String.ofList [c]) ++ [String.ofList (chars.drop head)])
    else some (chars.map fun c => String.ofList [c])
  else
    let parts :=
      if 0 < limit then Text.splitAtMost separator.toList (limit.toNat - 1) text.toList
      else Text.splitAll separator.toList text.toList
    some (parts.map String.ofList)

def textSlice (texts : List String) : Eval Value := Eval.newSlice (texts.map .string)

def textSlice? : Option (List String) → Eval Value
  | some texts => textSlice texts
  | none => Eval.nilSlice

/-- The words of a text, given the characters of the word that is being read in reverse. -/
def wordsFrom (word : List Char) : List Char → List String
  | [] => if word.isEmpty then [] else [String.ofList word.reverse]
  | c :: rest =>
    if Text.isBlank c then
      if word.isEmpty then wordsFrom [] rest
      else String.ofList word.reverse :: wordsFrom [] rest
    else wordsFrom (c :: word) rest

def words (text : String) : List String := wordsFrom [] text.toList

/-! ## Changing -/

/-- A text with the first letter of every word in upper case. -/
def titleFrom (atStart : Bool) : List Char → List Char
  | [] => []
  | c :: rest =>
    let form := if atStart && Text.isAlphabetic c then Text.CaseMap.upper.apply c else [c]
    let inWord := Text.isAlphanumeric c || c = '_' || c = '\''
    form ++ titleFrom (!inWord) rest

/-- A text without the characters with a property at its end. -/
def trimEnd (p : Char → Bool) (chars : List Char) : List Char :=
  (chars.reverse.dropWhile p).reverse

/-- A text repeated; nothing repeated is nothing. -/
def repeatText (text : String) (count : Nat) : String :=
  if text.isEmpty then "" else String.join (List.replicate count text)

/-! ## Functions of the program -/

/-- Drop characters from the front while a function of the program holds of them. -/
def dropWhileCalled (f : Value) : List Char → Eval (List Char)
  | [] => pure []
  | c :: rest => do
    if ← Eval.asBool (← Eval.callFunction f [countValue c.toNat]) then dropWhileCalled f rest
    else return c :: rest

/-- Replace every character by the one that a function of the program gives; none for a negative
number. -/
def mapCalled (f : Value) : List Char → String → Eval String
  | [], out => pure out
  | c :: rest, out => do
    let mapped ← Eval.asInt (← Eval.callFunction f [countValue c.toNat])
    mapCalled f rest
      (if mapped < 0 then out else out.push ((runeOf? mapped).getD Text.replacement))

namespace StringsFunction

def call (f : StringsFunction) (arguments : List Value) : Eval Value := do
  let self : Function := .strings f
  match f with
  | contains =>
    let (s, sub) ← twoTexts self arguments
    return .bool (firstPlace? sub s).isSome
  | containsAny =>
    let (s, chars) ← twoTexts self arguments
    return .bool (s.toList.any chars.toList.contains)
  | containsRune =>
    checkCount self arguments 2
    let s ← textArgument self arguments 0
    let r ← intArgument self arguments 1
    return .bool ((runeOf? r).any s.toList.contains)
  | hasPrefix =>
    let (s, start) ← twoTexts self arguments
    return .bool (start.toList.isPrefixOf s.toList)
  | hasSuffix =>
    let (s, ending) ← twoTexts self arguments
    return .bool (ending.toList.isSuffixOf s.toList)
  | index =>
    let (s, sub) ← twoTexts self arguments
    return placeValue (firstPlace? sub s)
  | indexAny =>
    let (s, chars) ← twoTexts self arguments
    return placeValue (placeWhere? chars.toList.contains 0 s.toList)
  | indexByte =>
    checkCount self arguments 2
    let s ← textArgument self arguments 0
    let b ← intArgument self arguments 1
    return placeValue ((Text.bytesOf s).findIdx? (· = b.toUInt64.toUInt8))
  | indexRune =>
    checkCount self arguments 2
    let s ← textArgument self arguments 0
    let r ← intArgument self arguments 1
    return placeValue ((runeOf? r).bind fun c => placeWhere? (· = c) 0 s.toList)
  | lastIndex =>
    let (s, sub) ← twoTexts self arguments
    return placeValue (lastPlace? sub s)
  | split =>
    let (s, separator) ← twoTexts self arguments
    textSlice? (pieces s separator (-1))
  | splitN =>
    checkCount self arguments 3
    let s ← textArgument self arguments 0
    let separator ← textArgument self arguments 1
    let limit ← intArgument self arguments 2
    textSlice? (pieces s separator limit.toInt)
  | fields => textSlice (words (← oneText self arguments))
  | join =>
    checkCount self arguments 2
    let items ← match ← argument self arguments 0 with
      | .slice view => Eval.elements view
      | .nil => pure []
      | other => Eval.error (.libraryArgument (← Eval.typeName other) "[]string" self.label)
    let separator ← textArgument self arguments 1
    return .string (String.intercalate separator (← Eval.asStrings items))
  | replace =>
    checkCount self arguments 4
    let s ← textArgument self arguments 0
    let old ← textArgument self arguments 1
    let new ← textArgument self arguments 2
    let count ← intArgument self arguments 3
    return .string (String.ofList
      (if count < 0 then Text.replaceAll old.toList new.toList s.toList
       else Text.replaceAtMost old.toList new.toList count.toInt.toNat s.toList))
  | replaceAll =>
    checkCount self arguments 3
    let s ← textArgument self arguments 0
    let old ← textArgument self arguments 1
    let new ← textArgument self arguments 2
    return .string (String.ofList (Text.replaceAll old.toList new.toList s.toList))
  | toUpper => return .string (Text.toUpper (← oneText self arguments))
  | toLower => return .string (Text.toLower (← oneText self arguments))
  | title => return .string (String.ofList (titleFrom true (← oneText self arguments).toList))
  | trimSpace => return .string (String.ofList (Text.trim (← oneText self arguments).toList))
  | trim =>
    let (s, cutset) ← twoTexts self arguments
    let cut := cutset.toList.contains
    return .string (String.ofList (trimEnd cut (s.toList.dropWhile cut)))
  | trimLeft =>
    let (s, cutset) ← twoTexts self arguments
    return .string (String.ofList (s.toList.dropWhile cutset.toList.contains))
  | trimRight =>
    let (s, cutset) ← twoTexts self arguments
    return .string (String.ofList (trimEnd cutset.toList.contains s.toList))
  | trimPrefix =>
    let (s, start) ← twoTexts self arguments
    return .string (if start.toList.isPrefixOf s.toList then
      String.ofList (s.toList.drop start.length) else s)
  | trimSuffix =>
    let (s, ending) ← twoTexts self arguments
    return .string (if ending.toList.isSuffixOf s.toList then
      String.ofList (s.toList.take (s.length - ending.length)) else s)
  | trimFunc =>
    checkCount self arguments 2
    let s ← textArgument self arguments 0
    let holds ← argument self arguments 1
    let rest ← dropWhileCalled holds s.toList
    let kept ← dropWhileCalled holds rest.reverse
    return .string (String.ofList kept.reverse)
  | repeated =>
    checkCount self arguments 2
    let s ← textArgument self arguments 0
    let count ← intArgument self arguments 1
    if count < 0 then Eval.panic .negativeRepeat
    let count := count.toInt.toNat
    Eval.checkAlloc (s.utf8ByteSize * count) .repeatTooLong
    return .string (repeatText s count)
  | count =>
    let (s, sub) ← twoTexts self arguments
    return countValue (occurrences sub s)
  | equalFold =>
    let (a, b) ← twoTexts self arguments
    return .bool (Text.toLower a = Text.toLower b)
  | compare =>
    let (a, b) ← twoTexts self arguments
    return .int (match Ord.compare a b with
      | .lt => -1
      | .eq => 0
      | .gt => 1)
  | cut =>
    let (s, separator) ← twoTexts self arguments
    match Text.breakOn separator.toList s.toList with
    | some (before, after) =>
      return .tuple [.string (String.ofList before), .string (String.ofList after), .bool true]
    | none => return .tuple [.string s, .string "", .bool false]
  | map =>
    checkCount self arguments 2
    let f ← argument self arguments 0
    let s ← textArgument self arguments 1
    return .string (← mapCalled f s.toList "")

end StringsFunction

end SandboxedGo.Library
