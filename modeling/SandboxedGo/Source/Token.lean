/-!
# Tokens

The words of the guest language.  A newline that ends a statement is a semicolon token.
-/

set_option autoImplicit false

namespace SandboxedGo.Source

/-- A place in a source text; both numbers count from one. -/
structure Position where
  line : Nat
  column : Nat
  deriving DecidableEq, Repr, Inhabited

namespace Position

def after (p : Position) (c : Char) : Position :=
  if c = '\n' then ⟨p.line + 1, 1⟩ else ⟨p.line, p.column + 1⟩

end Position

inductive Keyword
  | «break» | case | chan | const | «continue» | default | defer | «else» | fallthrough | «for»
  | func | go | goto | «if» | «import» | interface | map | package | range | «return» | select
  | struct | switch | type | var
  deriving DecidableEq, Repr

namespace Keyword

def spellings : List (String × Keyword) :=
  [("break", .break), ("case", .case), ("chan", .chan), ("const", .const),
   ("continue", .continue), ("default", .default), ("defer", .defer), ("else", .else),
   ("fallthrough", .fallthrough), ("for", .for), ("func", .func), ("go", .go), ("goto", .goto),
   ("if", .if), ("import", .import), ("interface", .interface), ("map", .map),
   ("package", .package), ("range", .range), ("return", .return), ("select", .select),
   ("struct", .struct), ("switch", .switch), ("type", .type), ("var", .var)]

def ofWord? (word : String) : Option Keyword := spellings.lookup word

def spelling (k : Keyword) : String :=
  ((spellings.find? (·.2 = k)).map Prod.fst).getD ""

end Keyword

inductive Mark
  | plus | minus | star | slash | percent | amp | pipe | caret | shl | shr | andNot
  | plusAssign | minusAssign | starAssign | slashAssign | percentAssign | ampAssign | pipeAssign
  | caretAssign | shlAssign | shrAssign
  | andAnd | orOr | arrow | inc | dec | eqEq | notEq | lt | le | gt | ge | not
  | assign | define | ellipsis
  | lParen | rParen | lBrack | rBrack | lBrace | rBrace | comma | dot | semi | colon
  deriving DecidableEq, Repr

namespace Mark

/-- Every mark: its spelling and the word that diagnostics use for it.  A spelling stands before
the shorter ones that begin it, so the first match is the right one.  There is no compound
assignment for the and-not operator. -/
def spellings : List (List Char × Mark × String) :=
  [(['&', '^'], .andNot, "andnot"),
   (['<', '<', '='], .shlAssign, "shlassign"),
   (['>', '>', '='], .shrAssign, "shrassign"),
   (['.', '.', '.'], .ellipsis, "ellipsis"),
   (['<', '<'], .shl, "shl"),
   (['>', '>'], .shr, "shr"),
   (['+', '='], .plusAssign, "plusassign"),
   (['-', '='], .minusAssign, "minusassign"),
   (['*', '='], .starAssign, "starassign"),
   (['/', '='], .slashAssign, "slashassign"),
   (['%', '='], .percentAssign, "percentassign"),
   (['&', '='], .ampAssign, "ampassign"),
   (['|', '='], .pipeAssign, "pipeassign"),
   (['^', '='], .caretAssign, "caretassign"),
   (['&', '&'], .andAnd, "andand"),
   (['|', '|'], .orOr, "oror"),
   (['<', '-'], .arrow, "arrow"),
   (['+', '+'], .inc, "inc"),
   (['-', '-'], .dec, "dec"),
   (['=', '='], .eqEq, "eqeq"),
   (['!', '='], .notEq, "noteq"),
   (['<', '='], .le, "le"),
   (['>', '='], .ge, "ge"),
   ([':', '='], .define, "define"),
   (['+'], .plus, "plus"),
   (['-'], .minus, "minus"),
   (['*'], .star, "star"),
   (['/'], .slash, "slash"),
   (['%'], .percent, "percent"),
   (['&'], .amp, "amp"),
   (['|'], .pipe, "pipe"),
   (['^'], .caret, "caret"),
   (['<'], .lt, "lt"),
   (['>'], .gt, "gt"),
   (['!'], .not, "not"),
   (['='], .assign, "assign"),
   (['('], .lParen, "lparen"),
   ([')'], .rParen, "rparen"),
   (['['], .lBrack, "lbrack"),
   ([']'], .rBrack, "rbrack"),
   (['\x7b'], .lBrace, "lbrace"),
   (['\x7d'], .rBrace, "rbrace"),
   ([','], .comma, "comma"),
   (['.'], .dot, "dot"),
   ([';'], .semi, "newline"),
   ([':'], .colon, "colon")]

/-- The word that diagnostics use for a mark. -/
def label (m : Mark) : String :=
  ((spellings.find? (·.2.1 = m)).map (·.2.2)).getD ""

/-- The mark that a text begins with, and the number of its characters. -/
def atStart? (chars : List Char) : Option (Mark × Nat) :=
  (spellings.find? (·.1.isPrefixOf chars)).map fun entry => (entry.2.1, entry.1.length)

end Mark

inductive Token
  | name (word : String)
  | int (value : Int64)
  | float (value : Float)
  | string (value : String)
  | rune (value : Char)
  | keyword (k : Keyword)
  | mark (m : Mark)
  | endOfText

namespace Token

/-- Whether a newline after this token ends the statement. -/
def endsStatement : Token → Bool
  | .name _ | .int _ | .float _ | .string _ | .rune _ => true
  | .keyword k => k = .break ∨ k = .continue ∨ k = .fallthrough ∨ k = .return
  | .mark m => m = .inc ∨ m = .dec ∨ m = .rParen ∨ m = .rBrack ∨ m = .rBrace
  | .endOfText => false

def isMark (t : Token) (m : Mark) : Bool :=
  match t with
  | .mark m' => m' = m
  | _ => false

def isKeyword (t : Token) (k : Keyword) : Bool :=
  match t with
  | .keyword k' => k' = k
  | _ => false

def isName : Token → Bool
  | .name _ => true
  | _ => false

end Token

/-- A token and the place of its first character. -/
structure Located where
  token : Token
  position : Position

end SandboxedGo.Source
