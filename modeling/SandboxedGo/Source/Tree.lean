import SandboxedGo.Source.Token

/-!
# Syntax trees

The shape of a guest program after parsing.  Types, expressions and statements carry exactly what
their evaluation needs; only statements, declarations of values and functions remember a line.
-/

set_option autoImplicit false

namespace SandboxedGo.Source

mutual

inductive TypeExpr
  | named (name : String)
  | qualified (package : String) (name : String)
  | slice (element : TypeExpr)
  /-- An array; the length is absent where the literal's elements are to be counted. -/
  | array (length : Option Nat) (element : TypeExpr)
  | map (key : TypeExpr) (value : TypeExpr)
  | pointer (target : TypeExpr)
  | func
  /-- An interface, by the names of the methods it asks for. -/
  | interface (methods : List String)
  | struct (fields : List FieldDecl)

inductive FieldDecl
  | mk (name : String) (type : TypeExpr) (tag : Option String) (embedded : Bool)

end

namespace FieldDecl

def name : FieldDecl → String
  | mk name _ _ _ => name

def type : FieldDecl → TypeExpr
  | mk _ type _ _ => type

def tag : FieldDecl → Option String
  | mk _ _ tag _ => tag

def embedded : FieldDecl → Bool
  | mk _ _ _ embedded => embedded

end FieldDecl

instance : Inhabited TypeExpr := ⟨.func⟩

def TypeExpr.display : TypeExpr → String
  | .named name => name
  | .qualified package name => package ++ "." ++ name
  | .slice element => "[]" ++ element.display
  | .array (some length) element => "[" ++ toString length ++ "]" ++ element.display
  | .array none element => "[...]" ++ element.display
  | .map key value => "map[" ++ key.display ++ "]" ++ value.display
  | .pointer target => "*" ++ target.display
  | .func => "func"
  | .interface [] => "interface \x7b\x7d"
  | .interface _ => "interface"
  | .struct _ => "struct"

structure Param where
  name : Option String
  type : TypeExpr

inductive BinaryOp
  | add | sub | mul | div | rem | and | or | xor | shl | shr | andNot
  | eq | ne | lt | le | gt | ge | logAnd | logOr
  deriving DecidableEq, Repr

namespace BinaryOp

/-- How tightly an operator binds, from one to five. -/
def precedence : BinaryOp → Nat
  | .logOr => 1
  | .logAnd => 2
  | .eq | .ne | .lt | .le | .gt | .ge => 3
  | .add | .sub | .or | .xor => 4
  | .mul | .div | .rem | .shl | .shr | .and | .andNot => 5

def symbol : BinaryOp → String
  | .add => "+"
  | .sub => "-"
  | .mul => "*"
  | .div => "/"
  | .rem => "%"
  | .and => "&"
  | .or => "|"
  | .xor => "^"
  | .shl => "<<"
  | .shr => ">>"
  | .andNot => "&^"
  | .eq => "=="
  | .ne => "!="
  | .lt => "<"
  | .le => "<="
  | .gt => ">"
  | .ge => ">="
  | .logAnd => "&&"
  | .logOr => "||"

def ofMark? : Mark → Option BinaryOp
  | .orOr => some .logOr
  | .andAnd => some .logAnd
  | .eqEq => some .eq
  | .notEq => some .ne
  | .lt => some .lt
  | .le => some .le
  | .gt => some .gt
  | .ge => some .ge
  | .plus => some .add
  | .minus => some .sub
  | .pipe => some .or
  | .caret => some .xor
  | .star => some .mul
  | .slash => some .div
  | .percent => some .rem
  | .shl => some .shl
  | .shr => some .shr
  | .amp => some .and
  | .andNot => some .andNot
  | _ => none

def ofAssignment? : Mark → Option BinaryOp
  | .plusAssign => some .add
  | .minusAssign => some .sub
  | .starAssign => some .mul
  | .slashAssign => some .div
  | .percentAssign => some .rem
  | .ampAssign => some .and
  | .pipeAssign => some .or
  | .caretAssign => some .xor
  | .shlAssign => some .shl
  | .shrAssign => some .shr
  | _ => none

end BinaryOp

inductive UnaryOp
  | neg | plus | not | bitNot | deref | addr
  deriving DecidableEq, Repr

namespace UnaryOp

def symbol : UnaryOp → String
  | .neg => "-"
  | .plus => "+"
  | .not => "!"
  | .bitNot => "^"
  | .deref => "*"
  | .addr => "&"

def ofMark? : Mark → Option UnaryOp
  | .minus => some .neg
  | .plus => some .plus
  | .not => some .not
  | .caret => some .bitNot
  | .star => some .deref
  | .amp => some .addr
  | _ => none

end UnaryOp

structure TypeSpec where
  name : String
  type : TypeExpr

mutual

inductive Expr
  | name (word : String)
  | int (value : Int64)
  | float (value : Float)
  | string (value : String)
  | rune (value : Char)
  | composite (type : TypeExpr) (elements : List (Option Expr × Expr))
  | function (literal : FuncLit)
  | unary (op : UnaryOp) (operand : Expr)
  | binary (op : BinaryOp) (left : Expr) (right : Expr)
  /-- A call; the last argument of a spread call is a slice of arguments. -/
  | call (callee : Expr) (arguments : List Expr) (spread : Bool)
  | select (base : Expr) (field : String)
  | index (base : Expr) (key : Expr)
  | slice (base : Expr) (low : Option Expr) (high : Option Expr)
  | assert (subject : Expr) (type : TypeExpr)
  /-- A type in the place of an expression, as in a conversion. -/
  | type (type : TypeExpr)

/-- The signature and body of a function.  The type of a variadic last parameter is a slice. -/
inductive FuncLit
  | mk (params : List Param) (results : List Param) (variadic : Bool) (body : List Stmt)

inductive Stmt
  | mk (line : Nat) (kind : StmtKind)

inductive StmtKind
  | empty
  | expr (e : Expr)
  | «var» (spec : ValueSpec)
  | const (spec : ValueSpec)
  | typeDecl (spec : TypeSpec)
  | define (names : List String) (values : List Expr)
  | assign (targets : List Expr) (values : List Expr)
  | opAssign (op : BinaryOp) (target : Expr) (value : Expr)
  | increment (target : Expr)
  | decrement (target : Expr)
  | block (body : List Stmt)
  | «if» (init : Option Stmt) (condition : Expr) (body : List Stmt) (otherwise : Option Stmt)
  | «for» (init : Option Stmt) (condition : Option Expr) (post : Option Stmt) (body : List Stmt)
  | range (key : Option Expr) (value : Option Expr) (define : Bool) (subject : Expr)
      (body : List Stmt)
  | switch (init : Option Stmt) (tag : Option Expr) (cases : List SwitchCase)
  | typeSwitch (init : Option Stmt) (binding : Option String) (subject : Expr)
      (cases : List TypeCase)
  | «return» (values : List Expr)
  | «break»
  | «continue»
  | fallthrough
  | defer (call : Expr)

/-- Names declared together.  `iota` is the place in a group of constants. -/
inductive ValueSpec
  | mk (line : Nat) (names : List String) (type : Option TypeExpr) (values : List Expr)
      (iota : Nat)

inductive SwitchCase
  | mk (isDefault : Bool) (values : List Expr) (body : List Stmt)

/-- A case of a type switch; an absent type stands for `nil`. -/
inductive TypeCase
  | mk (isDefault : Bool) (types : List (Option TypeExpr)) (body : List Stmt)

end

instance : Inhabited Expr := ⟨.name ""⟩
instance : Inhabited FuncLit := ⟨.mk [] [] false []⟩

namespace FuncLit

def params : FuncLit → List Param
  | mk params _ _ _ => params

def results : FuncLit → List Param
  | mk _ results _ _ => results

def variadic : FuncLit → Bool
  | mk _ _ variadic _ => variadic

def body : FuncLit → List Stmt
  | mk _ _ _ body => body

end FuncLit

namespace Stmt

def line : Stmt → Nat
  | mk line _ => line

def kind : Stmt → StmtKind
  | mk _ kind => kind

end Stmt

namespace ValueSpec

def line : ValueSpec → Nat
  | mk line _ _ _ _ => line

def names : ValueSpec → List String
  | mk _ names _ _ _ => names

def type : ValueSpec → Option TypeExpr
  | mk _ _ type _ _ => type

def values : ValueSpec → List Expr
  | mk _ _ _ values _ => values

def iota : ValueSpec → Nat
  | mk _ _ _ _ iota => iota

end ValueSpec

namespace SwitchCase

def isDefault : SwitchCase → Bool
  | mk isDefault _ _ => isDefault

def values : SwitchCase → List Expr
  | mk _ values _ => values

def body : SwitchCase → List Stmt
  | mk _ _ body => body

end SwitchCase

namespace TypeCase

def isDefault : TypeCase → Bool
  | mk isDefault _ _ => isDefault

def types : TypeCase → List (Option TypeExpr)
  | mk _ types _ => types

def body : TypeCase → List Stmt
  | mk _ _ body => body

end TypeCase

structure Receiver where
  name : Option String
  typeName : String
  isPointer : Bool

structure FuncDecl where
  line : Nat
  name : String
  receiver : Option Receiver
  function : FuncLit
  deriving Inhabited

structure Import where
  givenName : Option String
  path : String
  deriving DecidableEq, Repr

/-- The name of an imported package inside the program: its alias, or else the last segment of its
path. -/
def Import.localName (i : Import) : String :=
  i.givenName.getD (String.ofList ((i.path.toList.reverse.takeWhile (· ≠ '/')).reverse))

inductive Decl
  | func (decl : FuncDecl)
  | «var» (specs : List ValueSpec)
  | const (specs : List ValueSpec)
  | types (specs : List TypeSpec)

structure Program where
  package : String
  imports : List Import
  decls : List Decl

end SandboxedGo.Source
