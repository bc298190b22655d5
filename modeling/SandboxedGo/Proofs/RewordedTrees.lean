import Mathlib.Logic.Basic
import SandboxedGo.Source.Reworded

/-!
# Rewording twice

Rewording a tree twice is rewording it once with both.  The lists and options inside of trees are
reworded one by one.
-/

set_option autoImplicit false

namespace SandboxedGo.Source

variable (f g : String → String)

mutual

theorem TypeExpr.reworded_reworded (t : TypeExpr) :
    (t.reworded f).reworded g = t.reworded (g ∘ f) := by
  cases t with
  | named | qualified | func => rfl
  | slice element => exact congrArg TypeExpr.slice element.reworded_reworded
  | array length element => exact congrArg (TypeExpr.array length) element.reworded_reworded
  | map key value => exact congrArg₂ TypeExpr.map key.reworded_reworded value.reworded_reworded
  | pointer target => exact congrArg TypeExpr.pointer target.reworded_reworded
  | interface methods => exact congrArg TypeExpr.interface List.map_map
  | struct fields => exact congrArg TypeExpr.struct (rewordedFields_reworded fields)

theorem FieldDecl.reworded_reworded (field : FieldDecl) :
    (field.reworded f).reworded g = field.reworded (g ∘ f) := by
  obtain ⟨name, type, tag, embedded⟩ := field
  exact congrArg (FieldDecl.mk (g (f name)) · tag embedded) type.reworded_reworded

theorem rewordedFields_reworded (fields : List FieldDecl) :
    rewordedFields g (rewordedFields f fields) = rewordedFields (g ∘ f) fields := by
  cases fields with
  | nil => rfl
  | cons field rest =>
      exact congrArg₂ List.cons field.reworded_reworded (rewordedFields_reworded rest)

end

theorem Param.reworded_reworded (p : Param) :
    (p.reworded f).reworded g = p.reworded (g ∘ f) :=
  congrArg₂ Param.mk (Option.map_map g f p.name) (p.type.reworded_reworded f g)

theorem TypeSpec.reworded_reworded (spec : TypeSpec) :
    (spec.reworded f).reworded g = spec.reworded (g ∘ f) :=
  congrArg (TypeSpec.mk _) (spec.type.reworded_reworded f g)

theorem map_twice {α β γ : Type} {h : β → γ} {k : α → β} {both : α → γ}
    (each : ∀ a, h (k a) = both a) (items : List α) : (items.map k).map h = items.map both := by
  rw [List.map_map]
  exact List.map_congr_left fun a _ => each a

theorem option_twice {α β γ : Type} {h : β → γ} {k : α → β} {both : α → γ}
    (each : ∀ a, h (k a) = both a) (a : Option α) : (a.map k).map h = a.map both := by
  rw [Option.map_map]
  exact congrArg (Option.map · a) (funext each)

mutual

theorem Expr.reworded_reworded (e : Expr) : (e.reworded f).reworded g = e.reworded (g ∘ f) := by
  cases e with
  | name | int | float | string | rune => rfl
  | composite type elements =>
      exact congrArg₂ Expr.composite (type.reworded_reworded f g)
        (rewordedElements_reworded elements)
  | function literal => exact congrArg Expr.function literal.reworded_reworded
  | unary op operand => exact congrArg (Expr.unary op) operand.reworded_reworded
  | binary op left right =>
      exact congrArg₂ (Expr.binary op) left.reworded_reworded right.reworded_reworded
  | call callee arguments spread =>
      exact congrArg₂ (Expr.call · · spread) callee.reworded_reworded
        (rewordedExprs_reworded arguments)
  | select base field => exact congrArg (Expr.select · _) base.reworded_reworded
  | index base key => exact congrArg₂ Expr.index base.reworded_reworded key.reworded_reworded
  | slice base low high =>
      simp only [Expr.reworded, base.reworded_reworded, rewordedExpr?_reworded low,
        rewordedExpr?_reworded high]
  | assert subject type =>
      exact congrArg₂ Expr.assert subject.reworded_reworded (type.reworded_reworded f g)
  | type type => exact congrArg Expr.type (type.reworded_reworded f g)

theorem FuncLit.reworded_reworded (literal : FuncLit) :
    (literal.reworded f).reworded g = literal.reworded (g ∘ f) := by
  obtain ⟨params, results, variadic, body⟩ := literal
  simp only [FuncLit.reworded, map_twice (Param.reworded_reworded f g),
    rewordedStmts_reworded body]

theorem Stmt.reworded_reworded (s : Stmt) : (s.reworded f).reworded g = s.reworded (g ∘ f) := by
  obtain ⟨line, kind⟩ := s
  exact congrArg (Stmt.mk 0) kind.reworded_reworded

theorem StmtKind.reworded_reworded (kind : StmtKind) :
    (kind.reworded f).reworded g = kind.reworded (g ∘ f) := by
  cases kind with
  | empty | «break» | «continue» | fallthrough => rfl
  | expr e => exact congrArg StmtKind.expr e.reworded_reworded
  | var spec => exact congrArg StmtKind.var spec.reworded_reworded
  | const spec => exact congrArg StmtKind.const spec.reworded_reworded
  | typeDecl spec => exact congrArg StmtKind.typeDecl (spec.reworded_reworded f g)
  | define names values =>
      exact congrArg₂ StmtKind.define List.map_map (rewordedExprs_reworded values)
  | assign targets values =>
      exact congrArg₂ StmtKind.assign (rewordedExprs_reworded targets)
        (rewordedExprs_reworded values)
  | opAssign op target value =>
      exact congrArg₂ (StmtKind.opAssign op) target.reworded_reworded value.reworded_reworded
  | increment target => exact congrArg StmtKind.increment target.reworded_reworded
  | decrement target => exact congrArg StmtKind.decrement target.reworded_reworded
  | block body => exact congrArg StmtKind.block (rewordedStmts_reworded body)
  | «if» init condition body otherwise =>
      simp only [StmtKind.reworded, rewordedStmt?_reworded init, condition.reworded_reworded,
        rewordedStmts_reworded body, rewordedStmt?_reworded otherwise]
  | «for» init condition post body =>
      simp only [StmtKind.reworded, rewordedStmt?_reworded init, rewordedExpr?_reworded condition,
        rewordedStmt?_reworded post, rewordedStmts_reworded body]
  | range key value define subject body =>
      simp only [StmtKind.reworded, rewordedExpr?_reworded key, rewordedExpr?_reworded value,
        subject.reworded_reworded, rewordedStmts_reworded body]
  | switch init tag cases =>
      simp only [StmtKind.reworded, rewordedStmt?_reworded init, rewordedExpr?_reworded tag,
        rewordedCases_reworded cases]
  | typeSwitch init binding subject cases =>
      simp only [StmtKind.reworded, rewordedStmt?_reworded init, Option.map_map,
        subject.reworded_reworded, rewordedTypeCases_reworded cases]
  | «return» values => exact congrArg StmtKind.return (rewordedExprs_reworded values)
  | defer call => exact congrArg StmtKind.defer call.reworded_reworded

theorem ValueSpec.reworded_reworded (spec : ValueSpec) :
    (spec.reworded f).reworded g = spec.reworded (g ∘ f) := by
  obtain ⟨line, names, type, values, iota⟩ := spec
  simp only [ValueSpec.reworded, List.map_map, option_twice (TypeExpr.reworded_reworded f g),
    rewordedExprs_reworded values]

theorem SwitchCase.reworded_reworded (c : SwitchCase) :
    (c.reworded f).reworded g = c.reworded (g ∘ f) := by
  obtain ⟨isDefault, values, body⟩ := c
  exact congrArg₂ (SwitchCase.mk isDefault) (rewordedExprs_reworded values)
    (rewordedStmts_reworded body)

theorem TypeCase.reworded_reworded (c : TypeCase) :
    (c.reworded f).reworded g = c.reworded (g ∘ f) := by
  obtain ⟨isDefault, types, body⟩ := c
  exact congrArg₂ (TypeCase.mk isDefault)
    (map_twice (option_twice (TypeExpr.reworded_reworded f g)) types) (rewordedStmts_reworded body)

theorem rewordedExpr?_reworded (e : Option Expr) :
    rewordedExpr? g (rewordedExpr? f e) = rewordedExpr? (g ∘ f) e := by
  cases e with
  | none => rfl
  | some e => exact congrArg some e.reworded_reworded

theorem rewordedExprs_reworded (exprs : List Expr) :
    rewordedExprs g (rewordedExprs f exprs) = rewordedExprs (g ∘ f) exprs := by
  cases exprs with
  | nil => rfl
  | cons e rest => exact congrArg₂ List.cons e.reworded_reworded (rewordedExprs_reworded rest)

theorem rewordedElement_reworded (element : Option Expr × Expr) :
    rewordedElement g (rewordedElement f element) = rewordedElement (g ∘ f) element := by
  obtain ⟨key, value⟩ := element
  exact congrArg₂ Prod.mk (rewordedExpr?_reworded key) value.reworded_reworded

theorem rewordedElements_reworded (elements : List (Option Expr × Expr)) :
    rewordedElements g (rewordedElements f elements) = rewordedElements (g ∘ f) elements := by
  cases elements with
  | nil => rfl
  | cons element rest =>
      exact congrArg₂ List.cons (rewordedElement_reworded element) (rewordedElements_reworded rest)

theorem rewordedStmt?_reworded (s : Option Stmt) :
    rewordedStmt? g (rewordedStmt? f s) = rewordedStmt? (g ∘ f) s := by
  cases s with
  | none => rfl
  | some s => exact congrArg some s.reworded_reworded

theorem rewordedStmts_reworded (stmts : List Stmt) :
    rewordedStmts g (rewordedStmts f stmts) = rewordedStmts (g ∘ f) stmts := by
  cases stmts with
  | nil => rfl
  | cons s rest => exact congrArg₂ List.cons s.reworded_reworded (rewordedStmts_reworded rest)

theorem rewordedCases_reworded (cases : List SwitchCase) :
    rewordedCases g (rewordedCases f cases) = rewordedCases (g ∘ f) cases := by
  cases cases with
  | nil => rfl
  | cons c rest => exact congrArg₂ List.cons c.reworded_reworded (rewordedCases_reworded rest)

theorem rewordedTypeCases_reworded (cases : List TypeCase) :
    rewordedTypeCases g (rewordedTypeCases f cases) = rewordedTypeCases (g ∘ f) cases := by
  cases cases with
  | nil => rfl
  | cons c rest => exact congrArg₂ List.cons c.reworded_reworded (rewordedTypeCases_reworded rest)

end

theorem FuncDecl.reworded_reworded (d : FuncDecl) :
    (d.reworded f).reworded g = d.reworded (g ∘ f) := by
  simp only [FuncDecl.reworded, FuncLit.reworded_reworded, Option.map_map]
  congr 2
  funext r
  simp [Receiver.reworded, Option.map_map]

theorem Decl.reworded_reworded (d : Decl) : (d.reworded f).reworded g = d.reworded (g ∘ f) := by
  cases d with
  | func decl => exact congrArg Decl.func (decl.reworded_reworded f g)
  | var specs => exact congrArg Decl.var (map_twice (ValueSpec.reworded_reworded f g) specs)
  | const specs => exact congrArg Decl.const (map_twice (ValueSpec.reworded_reworded f g) specs)
  | types specs => exact congrArg Decl.types (map_twice (TypeSpec.reworded_reworded f g) specs)

/-! ## Lists -/

section

variable {f}

@[simp]
theorem rewordedFields_eq_map (fields : List FieldDecl) :
    rewordedFields f fields = fields.map (FieldDecl.reworded f) := by
  induction fields with
  | nil => rfl
  | cons field rest ih => rw [rewordedFields, ih, List.map_cons]

@[simp]
theorem rewordedExpr?_eq_map (e : Option Expr) :
    rewordedExpr? f e = e.map (Expr.reworded f) := by
  cases e <;> rfl

@[simp]
theorem rewordedExprs_eq_map (exprs : List Expr) :
    rewordedExprs f exprs = exprs.map (Expr.reworded f) := by
  induction exprs with
  | nil => rfl
  | cons e rest ih => rw [rewordedExprs, ih, List.map_cons]

@[simp]
theorem rewordedElements_eq_map (elements : List (Option Expr × Expr)) :
    rewordedElements f elements = elements.map (rewordedElement f) := by
  induction elements with
  | nil => rfl
  | cons element rest ih => rw [rewordedElements, ih, List.map_cons]

@[simp]
theorem rewordedStmt?_eq_map (s : Option Stmt) :
    rewordedStmt? f s = s.map (Stmt.reworded f) := by
  cases s <;> rfl

@[simp]
theorem rewordedStmts_eq_map (stmts : List Stmt) :
    rewordedStmts f stmts = stmts.map (Stmt.reworded f) := by
  induction stmts with
  | nil => rfl
  | cons s rest ih => rw [rewordedStmts, ih, List.map_cons]

@[simp]
theorem rewordedCases_eq_map (cases : List SwitchCase) :
    rewordedCases f cases = cases.map (SwitchCase.reworded f) := by
  induction cases with
  | nil => rfl
  | cons c rest ih => rw [rewordedCases, ih, List.map_cons]

@[simp]
theorem rewordedTypeCases_eq_map (cases : List TypeCase) :
    rewordedTypeCases f cases = cases.map (TypeCase.reworded f) := by
  induction cases with
  | nil => rfl
  | cons c rest ih => rw [rewordedTypeCases, ih, List.map_cons]

end

end SandboxedGo.Source
