import SandboxedGo.Source.Parser

/-!
# Trees in other words

A tree with its names replaced, and without the lines that it remembers.  Two programs that differ
in nothing but names and layout are the same in the same words.
-/

set_option autoImplicit false

namespace SandboxedGo.Source

/-- The names that the parser gives a meaning of their own. -/
def parserNames : List String := ["any", "error", "Stringer", "nil"]

section

variable (f : String → String)

def Token.reworded : Token → Token
  | .name word => .name (f word)
  | t => t

mutual

def TypeExpr.reworded : TypeExpr → TypeExpr
  | .named name => .named (f name)
  | .qualified package name => .qualified (f package) (f name)
  | .slice element => .slice element.reworded
  | .array length element => .array length element.reworded
  | .map key value => .map key.reworded value.reworded
  | .pointer target => .pointer target.reworded
  | .func => .func
  | .interface methods => .interface (methods.map f)
  | .struct fields => .struct (rewordedFields fields)

def FieldDecl.reworded : FieldDecl → FieldDecl
  | .mk name type tag embedded => .mk (f name) type.reworded tag embedded

def rewordedFields : List FieldDecl → List FieldDecl
  | [] => []
  | field :: rest => field.reworded :: rewordedFields rest

end

def Param.reworded (p : Param) : Param := ⟨p.name.map f, p.type.reworded f⟩

def TypeSpec.reworded (spec : TypeSpec) : TypeSpec := ⟨f spec.name, spec.type.reworded f⟩

mutual

def Expr.reworded : Expr → Expr
  | .name word => .name (f word)
  | .int value => .int value
  | .float value => .float value
  | .string value => .string value
  | .rune value => .rune value
  | .composite type elements => .composite (type.reworded f) (rewordedElements elements)
  | .function literal => .function literal.reworded
  | .unary op operand => .unary op operand.reworded
  | .binary op left right => .binary op left.reworded right.reworded
  | .call callee arguments spread => .call callee.reworded (rewordedExprs arguments) spread
  | .select base field => .select base.reworded (f field)
  | .index base key => .index base.reworded key.reworded
  | .slice base low high => .slice base.reworded (rewordedExpr? low) (rewordedExpr? high)
  | .assert subject type => .assert subject.reworded (type.reworded f)
  | .type type => .type (type.reworded f)

def FuncLit.reworded : FuncLit → FuncLit
  | .mk params results variadic body =>
    .mk (params.map (Param.reworded f)) (results.map (Param.reworded f)) variadic
      (rewordedStmts body)

def Stmt.reworded : Stmt → Stmt
  | .mk _ kind => .mk 0 kind.reworded

def StmtKind.reworded : StmtKind → StmtKind
  | .empty => .empty
  | .expr e => .expr e.reworded
  | .var spec => .var spec.reworded
  | .const spec => .const spec.reworded
  | .typeDecl spec => .typeDecl (spec.reworded f)
  | .define names values => .define (names.map f) (rewordedExprs values)
  | .assign targets values => .assign (rewordedExprs targets) (rewordedExprs values)
  | .opAssign op target value => .opAssign op target.reworded value.reworded
  | .increment target => .increment target.reworded
  | .decrement target => .decrement target.reworded
  | .block body => .block (rewordedStmts body)
  | .if init condition body otherwise =>
    .if (rewordedStmt? init) condition.reworded (rewordedStmts body) (rewordedStmt? otherwise)
  | .for init condition post body =>
    .for (rewordedStmt? init) (rewordedExpr? condition) (rewordedStmt? post) (rewordedStmts body)
  | .range key value define subject body =>
    .range (rewordedExpr? key) (rewordedExpr? value) define subject.reworded (rewordedStmts body)
  | .switch init tag cases =>
    .switch (rewordedStmt? init) (rewordedExpr? tag) (rewordedCases cases)
  | .typeSwitch init binding subject cases =>
    .typeSwitch (rewordedStmt? init) (binding.map f) subject.reworded (rewordedTypeCases cases)
  | .return values => .return (rewordedExprs values)
  | .break => .break
  | .continue => .continue
  | .fallthrough => .fallthrough
  | .defer call => .defer call.reworded

def ValueSpec.reworded : ValueSpec → ValueSpec
  | .mk _ names type values iota =>
    .mk 0 (names.map f) (type.map (TypeExpr.reworded f)) (rewordedExprs values) iota

def SwitchCase.reworded : SwitchCase → SwitchCase
  | .mk isDefault values body => .mk isDefault (rewordedExprs values) (rewordedStmts body)

def TypeCase.reworded : TypeCase → TypeCase
  | .mk isDefault types body =>
    .mk isDefault (types.map (Option.map (TypeExpr.reworded f))) (rewordedStmts body)

def rewordedExpr? : Option Expr → Option Expr
  | none => none
  | some e => some e.reworded

def rewordedExprs : List Expr → List Expr
  | [] => []
  | e :: rest => e.reworded :: rewordedExprs rest

def rewordedElement : Option Expr × Expr → Option Expr × Expr
  | (key, value) => (rewordedExpr? key, value.reworded)

def rewordedElements : List (Option Expr × Expr) → List (Option Expr × Expr)
  | [] => []
  | element :: rest => rewordedElement element :: rewordedElements rest

def rewordedStmt? : Option Stmt → Option Stmt
  | none => none
  | some s => some s.reworded

def rewordedStmts : List Stmt → List Stmt
  | [] => []
  | s :: rest => s.reworded :: rewordedStmts rest

def rewordedCases : List SwitchCase → List SwitchCase
  | [] => []
  | c :: rest => c.reworded :: rewordedCases rest

def rewordedTypeCases : List TypeCase → List TypeCase
  | [] => []
  | c :: rest => c.reworded :: rewordedTypeCases rest

end

def Receiver.reworded (r : Receiver) : Receiver := ⟨r.name.map f, f r.typeName, r.isPointer⟩

def FuncDecl.reworded (d : FuncDecl) : FuncDecl :=
  ⟨0, f d.name, d.receiver.map (Receiver.reworded f), d.function.reworded f⟩

def Import.reworded (i : Import) : Import := ⟨i.givenName.map f, i.path⟩

def Decl.reworded : Decl → Decl
  | .func decl => .func (decl.reworded f)
  | .var specs => .var (specs.map (ValueSpec.reworded f))
  | .const specs => .const (specs.map (ValueSpec.reworded f))
  | .types specs => .types (specs.map (TypeSpec.reworded f))

def Program.reworded (p : Program) : Program :=
  ⟨f p.package, p.imports.map (Import.reworded f), p.decls.map (Decl.reworded f)⟩

end

end SandboxedGo.Source
