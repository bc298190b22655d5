import SandboxedGo.Source.Tree

/-!
# How deep syntax trees are

The levels of a tree, where a level of nesting and a link of a chain may cost differently.  With
both at one this is the depth of the tree; with links at nothing it is how deep the program is
nested.
-/

set_option autoImplicit false

namespace SandboxedGo.Source

/-- The greatest of the values at the items of a list. -/
def greatest {α : Type} (f : α → Nat) : List α → Nat
  | [] => 0
  | a :: rest => max (f a) (greatest f rest)

theorem greatest_le_iff {α : Type} {f : α → Nat} {items : List α} {bound : Nat} :
    greatest f items ≤ bound ↔ ∀ a ∈ items, f a ≤ bound := by
  induction items with
  | nil => simp [greatest]
  | cons a rest ih => rw [greatest, Nat.max_le, ih, List.forall_mem_cons]

section Levels

variable (node link : Nat)

mutual

/-- How many levels a tree has, where a level costs `node`, and `link` if it continues a chain: the
left operand of an operator, what stands before a selector, an index, a call or an assertion, and
what follows `else`. -/
def Expr.levels : Expr → Nat
  | .name _ | .int _ | .float _ | .string _ | .rune _ | .type _ => node
  | .composite _ elements => node + entriesLevels elements
  | .function literal => node + literal.levels
  | .unary _ operand => node + operand.levels
  | .binary _ left right => max (link + left.levels) (node + right.levels)
  | .call callee arguments _ => max (link + callee.levels) (node + exprsLevels arguments)
  | .select base _ => max node (link + base.levels)
  | .index base key => max (link + base.levels) (node + key.levels)
  | .slice base low high =>
    max (link + base.levels) (node + max (optionLevels low) (optionLevels high))
  | .assert subject _ => max node (link + subject.levels)

def FuncLit.levels : FuncLit → Nat
  | .mk _ _ _ body => stmtsLevels body

def Stmt.levels : Stmt → Nat
  | .mk _ kind => kind.levels

def StmtKind.levels : StmtKind → Nat
  | .empty | .typeDecl _ | .break | .continue | .fallthrough => node
  | .expr e | .increment e | .decrement e | .defer e => node + e.levels
  | .var spec | .const spec => node + spec.levels
  | .define _ values | .return values => node + exprsLevels values
  | .assign targets values => node + max (exprsLevels targets) (exprsLevels values)
  | .opAssign _ target value => node + max target.levels value.levels
  | .block body => node + stmtsLevels body
  | .if init condition body otherwise =>
    max (node + max (stmtLevels init) (max condition.levels (stmtsLevels body)))
      (link + stmtLevels otherwise)
  | .for init condition post body =>
    node + max (max (stmtLevels init) (optionLevels condition))
      (max (stmtLevels post) (stmtsLevels body))
  | .range key value _ subject body =>
    node + max (max (optionLevels key) (optionLevels value)) (max subject.levels (stmtsLevels body))
  | .switch init tag cases =>
    node + max (max (stmtLevels init) (optionLevels tag)) (casesLevels cases)
  | .typeSwitch init _ subject cases =>
    node + max (max (stmtLevels init) subject.levels) (typeCasesLevels cases)

def ValueSpec.levels : ValueSpec → Nat
  | .mk _ _ _ values _ => exprsLevels values

def SwitchCase.levels : SwitchCase → Nat
  | .mk _ values body => max (exprsLevels values) (stmtsLevels body)

def TypeCase.levels : TypeCase → Nat
  | .mk _ _ body => stmtsLevels body

def optionLevels : Option Expr → Nat
  | none => 0
  | some e => e.levels

def entryLevels : Option Expr × Expr → Nat
  | (key, value) => max (optionLevels key) value.levels

def exprsLevels : List Expr → Nat
  | [] => 0
  | e :: rest => max e.levels (exprsLevels rest)

def entriesLevels : List (Option Expr × Expr) → Nat
  | [] => 0
  | entry :: rest => max (entryLevels entry) (entriesLevels rest)

def stmtLevels : Option Stmt → Nat
  | none => 0
  | some s => s.levels

def stmtsLevels : List Stmt → Nat
  | [] => 0
  | s :: rest => max s.levels (stmtsLevels rest)

def casesLevels : List SwitchCase → Nat
  | [] => 0
  | c :: rest => max c.levels (casesLevels rest)

def typeCasesLevels : List TypeCase → Nat
  | [] => 0
  | c :: rest => max c.levels (typeCasesLevels rest)

end

def Decl.levels : Decl → Nat
  | .func decl => decl.function.levels node link
  | .var specs | .const specs => greatest (ValueSpec.levels node link) specs
  | .types _ => 0

def Program.levels (p : Program) : Nat := greatest (Decl.levels node link) p.decls

-- Where the constructor is known, the levels of a tree are those of its parts.
attribute [grind =] Expr.levels FuncLit.levels Stmt.levels StmtKind.levels ValueSpec.levels
  optionLevels entryLevels exprsLevels stmtLevels stmtsLevels

theorem Stmt.levels_kind (s : Stmt) : s.levels node link = s.kind.levels node link := by
  cases s
  rfl

/-! ## Lists -/

variable {node link}

theorem exprsLevels_le_iff {exprs : List Expr} {bound : Nat} :
    exprsLevels node link exprs ≤ bound ↔ ∀ e ∈ exprs, e.levels node link ≤ bound := by
  induction exprs with
  | nil => simp [exprsLevels]
  | cons e rest ih => rw [exprsLevels, Nat.max_le, ih, List.forall_mem_cons]

theorem entriesLevels_le_iff {entries : List (Option Expr × Expr)} {bound : Nat} :
    entriesLevels node link entries ≤ bound ↔
      ∀ entry ∈ entries, entryLevels node link entry ≤ bound := by
  induction entries with
  | nil => simp [entriesLevels]
  | cons entry rest ih => rw [entriesLevels, Nat.max_le, ih, List.forall_mem_cons]

theorem stmtsLevels_le_iff {stmts : List Stmt} {bound : Nat} :
    stmtsLevels node link stmts ≤ bound ↔ ∀ s ∈ stmts, s.levels node link ≤ bound := by
  induction stmts with
  | nil => simp [stmtsLevels]
  | cons s rest ih => rw [stmtsLevels, Nat.max_le, ih, List.forall_mem_cons]

theorem casesLevels_le_iff {list : List SwitchCase} {bound : Nat} :
    casesLevels node link list ≤ bound ↔ ∀ c ∈ list, c.levels node link ≤ bound := by
  induction list with
  | nil => simp [casesLevels]
  | cons c rest ih => rw [casesLevels, Nat.max_le, ih, List.forall_mem_cons]

theorem typeCasesLevels_le_iff {list : List TypeCase} {bound : Nat} :
    typeCasesLevels node link list ≤ bound ↔ ∀ c ∈ list, c.levels node link ≤ bound := by
  induction list with
  | nil => simp [typeCasesLevels]
  | cons c rest ih => rw [typeCasesLevels, Nat.max_le, ih, List.forall_mem_cons]

end Levels

/-! ## Levels of two kinds -/

section Sum

variable {cost cost' a b x x' y y' : Nat}

theorem cost_add (inner : a ≤ x + x') : cost + cost' + a ≤ (cost + x) + (cost' + x') := by
  omega

theorem max_add (first : a ≤ x + x') (second : b ≤ y + y') :
    max a b ≤ max x y + max x' y' := by
  omega

variable (node link node' link' : Nat)

mutual

theorem Expr.levels_add (e : Expr) :
    e.levels (node + node') (link + link') ≤ e.levels node link + e.levels node' link' := by
  cases e with
  | composite type elements => exact cost_add (entriesLevels_add elements)
  | function literal => exact cost_add literal.levels_add
  | unary op operand => exact cost_add operand.levels_add
  | binary op left right => exact max_add (cost_add left.levels_add) (cost_add right.levels_add)
  | call callee arguments spread =>
      exact max_add (cost_add callee.levels_add) (cost_add (exprsLevels_add arguments))
  | select base field => exact max_add (Nat.le_refl _) (cost_add base.levels_add)
  | index base key => exact max_add (cost_add base.levels_add) (cost_add key.levels_add)
  | slice base low high =>
      have bounds := max_add (optionLevels_add low) (optionLevels_add high)
      exact max_add (cost_add base.levels_add) (cost_add bounds)
  | assert subject type => exact max_add (Nat.le_refl _) (cost_add subject.levels_add)
  | _ => exact Nat.le_refl _

theorem FuncLit.levels_add (literal : FuncLit) :
    literal.levels (node + node') (link + link') ≤
      literal.levels node link + literal.levels node' link' := by
  obtain ⟨params, results, variadic, body⟩ := literal
  exact stmtsLevels_add body

theorem Stmt.levels_add (s : Stmt) :
    s.levels (node + node') (link + link') ≤ s.levels node link + s.levels node' link' := by
  obtain ⟨line, kind⟩ := s
  exact kind.levels_add

theorem StmtKind.levels_add (kind : StmtKind) :
    kind.levels (node + node') (link + link') ≤
      kind.levels node link + kind.levels node' link' := by
  cases kind with
  | expr e | increment e | decrement e | defer e => exact cost_add e.levels_add
  | var spec | const spec => exact cost_add spec.levels_add
  | define names values | «return» values => exact cost_add (exprsLevels_add values)
  | assign targets values =>
      exact cost_add (max_add (exprsLevels_add targets) (exprsLevels_add values))
  | opAssign op target value => exact cost_add (max_add target.levels_add value.levels_add)
  | block body => exact cost_add (stmtsLevels_add body)
  | «if» init condition body otherwise =>
      have inner := max_add condition.levels_add (stmtsLevels_add body)
      have branch := max_add (stmtLevels_add init) inner
      exact max_add (cost_add branch) (cost_add (stmtLevels_add otherwise))
  | «for» init condition post body =>
      have header := max_add (stmtLevels_add init) (optionLevels_add condition)
      have round := max_add (stmtLevels_add post) (stmtsLevels_add body)
      exact cost_add (max_add header round)
  | range key value define subject body =>
      have targets := max_add (optionLevels_add key) (optionLevels_add value)
      have round := max_add subject.levels_add (stmtsLevels_add body)
      exact cost_add (max_add targets round)
  | switch init tag cases =>
      have header := max_add (stmtLevels_add init) (optionLevels_add tag)
      exact cost_add (max_add header (casesLevels_add cases))
  | typeSwitch init binding subject cases =>
      have header := max_add (stmtLevels_add init) subject.levels_add
      exact cost_add (max_add header (typeCasesLevels_add cases))
  | _ => exact Nat.le_refl _

theorem ValueSpec.levels_add (spec : ValueSpec) :
    spec.levels (node + node') (link + link') ≤
      spec.levels node link + spec.levels node' link' := by
  obtain ⟨line, names, type, values, iota⟩ := spec
  exact exprsLevels_add values

theorem SwitchCase.levels_add (c : SwitchCase) :
    c.levels (node + node') (link + link') ≤ c.levels node link + c.levels node' link' := by
  obtain ⟨isDefault, values, body⟩ := c
  exact max_add (exprsLevels_add values) (stmtsLevels_add body)

theorem TypeCase.levels_add (c : TypeCase) :
    c.levels (node + node') (link + link') ≤ c.levels node link + c.levels node' link' := by
  obtain ⟨isDefault, types, body⟩ := c
  exact stmtsLevels_add body

theorem optionLevels_add (e : Option Expr) :
    optionLevels (node + node') (link + link') e ≤
      optionLevels node link e + optionLevels node' link' e := by
  cases e with
  | none => exact Nat.zero_le _
  | some e => exact e.levels_add

theorem entryLevels_add (entry : Option Expr × Expr) :
    entryLevels (node + node') (link + link') entry ≤
      entryLevels node link entry + entryLevels node' link' entry := by
  obtain ⟨key, value⟩ := entry
  exact max_add (optionLevels_add key) value.levels_add

theorem exprsLevels_add (exprs : List Expr) :
    exprsLevels (node + node') (link + link') exprs ≤
      exprsLevels node link exprs + exprsLevels node' link' exprs := by
  cases exprs with
  | nil => exact Nat.zero_le _
  | cons e rest => exact max_add e.levels_add (exprsLevels_add rest)

theorem entriesLevels_add (entries : List (Option Expr × Expr)) :
    entriesLevels (node + node') (link + link') entries ≤
      entriesLevels node link entries + entriesLevels node' link' entries := by
  cases entries with
  | nil => exact Nat.zero_le _
  | cons entry rest => exact max_add (entryLevels_add entry) (entriesLevels_add rest)

theorem stmtLevels_add (s : Option Stmt) :
    stmtLevels (node + node') (link + link') s ≤
      stmtLevels node link s + stmtLevels node' link' s := by
  cases s with
  | none => exact Nat.zero_le _
  | some s => exact s.levels_add

theorem stmtsLevels_add (stmts : List Stmt) :
    stmtsLevels (node + node') (link + link') stmts ≤
      stmtsLevels node link stmts + stmtsLevels node' link' stmts := by
  cases stmts with
  | nil => exact Nat.zero_le _
  | cons s rest => exact max_add s.levels_add (stmtsLevels_add rest)

theorem casesLevels_add (list : List SwitchCase) :
    casesLevels (node + node') (link + link') list ≤
      casesLevels node link list + casesLevels node' link' list := by
  cases list with
  | nil => exact Nat.zero_le _
  | cons c rest => exact max_add c.levels_add (casesLevels_add rest)

theorem typeCasesLevels_add (list : List TypeCase) :
    typeCasesLevels (node + node') (link + link') list ≤
      typeCasesLevels node link list + typeCasesLevels node' link' list := by
  cases list with
  | nil => exact Nat.zero_le _
  | cons c rest => exact max_add c.levels_add (typeCasesLevels_add rest)

end

theorem greatest_add {α : Type} {f g h : α → Nat} (each : ∀ a, f a ≤ g a + h a) (items : List α) :
    greatest f items ≤ greatest g items + greatest h items := by
  induction items with
  | nil => exact Nat.zero_le _
  | cons a rest ih => exact max_add (each a) ih

theorem Decl.levels_add (decl : Decl) :
    decl.levels (node + node') (link + link') ≤
      decl.levels node link + decl.levels node' link' := by
  cases decl with
  | func decl => exact decl.function.levels_add ..
  | var specs | const specs => exact greatest_add (ValueSpec.levels_add node link node' link') specs
  | types specs => exact Nat.zero_le _

theorem Program.levels_add (p : Program) :
    p.levels (node + node') (link + link') ≤ p.levels node link + p.levels node' link' :=
  greatest_add (Decl.levels_add node link node' link') p.decls

end Sum

end SandboxedGo.Source
