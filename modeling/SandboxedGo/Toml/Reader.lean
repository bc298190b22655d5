import SandboxedGo.Text.Character
import SandboxedGo.Toml.Scalar

/-!
# Reading TOML

A reader takes characters off the front of a text and fails if they do not fit.  Loops are bounded
by the number of characters left, and values may be nested only so deep.
-/

set_option autoImplicit false

namespace SandboxedGo.Toml

abbrev Read := StateT (List Char) Option

namespace Read

/-- The next character, left where it is. -/
def peek? : Read (Option Char) := fun chars => some (chars.head?, chars)

def expect (word : List Char) : Read Unit := fun chars =>
  if word.isPrefixOf chars then some ((), chars.drop word.length) else none

def takeWhile (p : Char → Bool) : Read (List Char) := fun chars =>
  some (chars.takeWhile p, chars.dropWhile p)

/-! ## Blanks, comments and ends of lines -/

def isBlank (c : Char) : Bool := c = ' ' || c = '\t'

/-- Characters that may stand in comments and literal strings. -/
def isShown (c : Char) : Bool := c = '\t' || (' ' ≤ c && c ≠ '\x7f')

def blanks : Read Unit := do
  let _ ← takeWhile isBlank

def comment : Read Unit := fun chars =>
  match chars with
  | '#' :: rest => some ((), rest.dropWhile isShown)
  | rest => some ((), rest)

def afterNewline? : List Char → Option (List Char)
  | '\n' :: rest => some rest
  | '\r' :: '\n' :: rest => some rest
  | _ => none

def lineEnd : Read Unit := fun chars =>
  if chars.isEmpty then some ((), []) else (afterNewline? chars).map fun rest => ((), rest)

def restOfLine : Read Unit := do
  blanks
  comment
  lineEnd

/-- The text behind blanks, comments and newlines; none if a comment does not end its line.  The
steps are bounded by the number of characters. -/
def afterSpace? : Nat → List Char → Option (List Char)
  | 0, chars => some chars
  | steps + 1, chars =>
    match chars with
    | '#' :: rest =>
      match afterNewline? (rest.dropWhile isShown) with
      | some after => afterSpace? steps after
      | none => none
    | c :: rest =>
      if isBlank c then afterSpace? steps rest
      else
        match afterNewline? (c :: rest) with
        | some after => afterSpace? steps after
        | none => some (c :: rest)
    | [] => some []

def space : Read Unit := fun chars => (afterSpace? chars.length chars).map fun rest => ((), rest)

/-! ## Strings -/

def escapedCode (width : Nat) : Read Char := fun chars =>
  let digits := chars.take width
  if digits.length = width then do
    let code ← Text.numberIn? 16 digits
    return (← Text.charOfCode? code, chars.drop width)
  else none

def escape : Read Char := fun chars =>
  match chars with
  | 'b' :: rest => some ('\x08', rest)
  | 't' :: rest => some ('\t', rest)
  | 'n' :: rest => some ('\n', rest)
  | 'f' :: rest => some ('\x0c', rest)
  | 'r' :: rest => some ('\r', rest)
  | '"' :: rest => some ('"', rest)
  | '\\' :: rest => some ('\\', rest)
  | 'u' :: rest => escapedCode 4 rest
  | 'U' :: rest => escapedCode 8 rest
  | _ => none

/-- A string with escapes on one line behind its quote, added in reverse to what was read. -/
def basicTail : Nat → List Char → Read String
  | 0, _ => failure
  | steps + 1, read => fun chars =>
    match chars with
    | '"' :: rest => some (String.ofList read.reverse, rest)
    | '\\' :: rest => do
      let (c, rest) ← escape rest
      basicTail steps (c :: read) rest
    | c :: rest => if isShown c then basicTail steps (c :: read) rest else none
    | [] => none

def literalTail : Read String := do
  let body ← takeWhile fun c => isShown c && c ≠ '\''
  expect ['\'']
  return String.ofList body

/-- A string over several lines behind its three quotes, added in reverse to what was read.  Up to
two quotes may stand before the closing ones.  Of a basic string, a backslash at the end of a line
removes the white space up to the next character. -/
def multilineTail (quote : Char) : Nat → List Char → Read String
  | 0, _ => failure
  | steps + 1, read => fun chars =>
    match chars with
    | [] => none
    | c :: rest =>
      if c = quote then
        let quotes := chars.takeWhile (· = quote)
        let after := chars.dropWhile (· = quote)
        if quotes.length < 3 then multilineTail quote steps (quotes ++ read) after
        else if quotes.length ≤ 5 then
          some (String.ofList (List.replicate (quotes.length - 3) quote ++ read).reverse, after)
        else none
      else if c = '\\' && quote = '"' then
        match afterNewline? (rest.dropWhile isBlank) with
        | some after =>
          multilineTail quote steps read
            (after.dropWhile fun c => isBlank c || c = '\n' || c = '\r')
        | none => do
          let (c, rest) ← escape rest
          multilineTail quote steps (c :: read) rest
      else
        match afterNewline? chars with
        | some after => multilineTail quote steps ('\n' :: read) after
        | none => if isShown c then multilineTail quote steps (c :: read) rest else none

/-- A string over several lines; a newline behind its opening quotes is not part of it. -/
def multiline (quote : Char) : Read String := fun chars =>
  let body := (afterNewline? chars).getD chars
  multilineTail quote (body.length + 1) [] body

def shortString : Read String := fun chars =>
  match chars with
  | '"' :: rest => basicTail (rest.length + 1) [] rest
  | '\'' :: rest => literalTail rest
  | _ => none

def string : Read String := fun chars =>
  match chars with
  | '"' :: '"' :: '"' :: rest => multiline '"' rest
  | '\'' :: '\'' :: '\'' :: rest => multiline '\'' rest
  | rest => shortString rest

/-! ## Keys -/

def isBareKeyChar (c : Char) : Bool := c.isAlphanum || c = '_' || c = '-'

def simpleKey : Read String := do
  match ← peek? with
  | some '"' | some '\'' => shortString
  | _ =>
    let chars ← takeWhile isBareKeyChar
    if chars.isEmpty then failure else return String.ofList chars

def dottedKey : Nat → Read (List String)
  | 0 => failure
  | steps + 1 => do
    blanks
    let key ← simpleKey
    blanks
    match ← peek? with
    | some '.' =>
      expect ['.']
      return key :: (← dottedKey steps)
    | _ => return [key]

/-- Keys have fewer parts than this, and values are nested less deep. -/
def nestingLimit : Nat := 80

/-- A key: the path to its table and its last part. -/
def key : Read (List String × String) := do
  let parts ← dottedKey (nestingLimit - 1)
  match parts.getLast? with
  | some last => return (parts.dropLast, last)
  | none => failure

/-! ## Values -/

def isWordChar (c : Char) : Bool :=
  c.isAlphanum || c = '+' || c = '-' || c = '_' || c = '.' || c = ':'

/-- A number, a date or a word.  A time may follow a date behind a blank. -/
def scalar : Read Toml := do
  let word ← takeWhile isWordChar
  if isDate word then
    fun chars =>
      match chars with
      | ' ' :: rest =>
        if isOffsetTime (rest.takeWhile isWordChar) then some (.date, rest.dropWhile isWordChar)
        else some (.date, chars)
      | _ => some (.date, chars)
  else
    match scalar? word with
    | some value => return value
    | none => failure

def items (value : Read Toml) : Nat → List Toml → Read (List Toml)
  | 0, _ => failure
  | steps + 1, read => do
    space
    match ← peek? with
    | some ']' =>
      expect [']']
      return read.reverse
    | _ =>
      let item ← value
      space
      match ← peek? with
      | some ',' =>
        expect [',']
        items value steps (item :: read)
      | _ =>
        expect [']']
        return (item :: read).reverse

/-- A line of a table: a key and a value. -/
def pair (value : Read Toml) : Read (List String × String × Toml) := do
  let (path, last) ← key
  expect ['=']
  blanks
  return (path, last, ← value)

def inlineEntries (value : Read Toml) : Nat → Entries → Read Entries
  | 0, _ => failure
  | steps + 1, read => do
    let (path, last, v) ← pair value
    blanks
    match put? path last v read with
    | none => failure
    | some read =>
      match ← peek? with
      | some ',' =>
        expect [',']
        inlineEntries value steps read
      | _ =>
        expect ['\x7d']
        return read

def value : (depth : Nat) → Read Toml
  | 0 => failure
  | depth + 1 => do
    match ← peek? with
    | some '"' | some '\'' => return .string (← string)
    | some '[' =>
      if depth = 0 then failure
      expect ['[']
      return .array (← items (value depth) ((← get).length + 1) [])
    | some '\x7b' =>
      if depth = 0 then failure
      expect ['\x7b']
      blanks
      match ← peek? with
      | some '\x7d' =>
        expect ['\x7d']
        return .table .inlined []
      | _ => return .table .inlined (← inlineEntries (value depth) ((← get).length + 1) [])
    | _ => scalar

/-! ## Documents -/

/-- A line of a document that is not blank, up to its end. -/
def line (d : Draft) : Read Draft := fun chars =>
  match chars with
  | '[' :: '[' :: rest =>
    (do
      let (path, last) ← key
      expect [']', ']']
      restOfLine
      d.openElement? (path ++ [last]) : Read Draft) rest
  | '[' :: rest =>
    (do
      let (path, last) ← key
      expect [']']
      restOfLine
      d.openTable? (path ++ [last]) : Read Draft) rest
  | rest =>
    (do
      let (path, last, v) ← pair (value nestingLimit)
      restOfLine
      d.put? path last v : Read Draft) rest

def lines : Nat → Draft → Read Draft
  | 0, _ => failure
  | steps + 1, d => do
    blanks
    match ← peek? with
    | none => return d
    | some '#' | some '\n' | some '\r' =>
      restOfLine
      lines steps d
    | some _ =>
      let d ← line d
      lines steps d

end Read

def dropByteOrderMark (chars : List Char) : List Char :=
  match chars with
  | '\ufeff' :: rest => rest
  | rest => rest

def parse? (text : String) : Option Entries :=
  let chars := dropByteOrderMark text.toList
  match Read.lines (chars.length + 1) {} chars with
  | some (draft, _) => draft.close?
  | none => none

end SandboxedGo.Toml
