import Std.Tactic.Do
import SandboxedGo.Proofs.DeepChains
import SandboxedGo.Proofs.ParserSteps

/-!
# How deep accepted programs are nested

At most two hundred constructs are nested in each other, and each adds at most three levels to the
tree: every parser comes back to the depth where it began.  The links of chains add levels of their
own, as many as the program has.
-/

set_option autoImplicit false
set_option mvcgen.warning false

namespace SandboxedGo.Source.Parser

open Std.Do

/-!
## How parsers come back from nested constructs

`Yields` says that a parser comes back to the depth where it began, together with what is known of
the tree that was read.  It holds of the tools of the parser, and of the parsers of types.
-/

variable {α β : Type} {d : Nat} {P Q : α → Prop}

/-- Begun at a depth, a parser comes back to it, and what it reads is in `Q`. -/
abbrev Yields (d : Nat) (p : Parser α) (Q : α → Prop) : Prop :=
  ⦃fun s => ⌜s.depth = d⌝⦄ p ⦃(fun a s => ⌜s.depth = d ∧ Q a⌝, fun _ _ => ⌜True⌝, ())⦄

/-- A parser comes back to the depth where it began. -/
abbrev Returns (d : Nat) (p : Parser α) : Prop := Yields d p fun _ => True

/-- A parser never comes back. -/
abbrev Fails (p : Parser α) : Prop :=
  ⦃fun _ => ⌜True⌝⦄ p ⦃(fun _ _ => ⌜False⌝, fun _ _ => ⌜True⌝, ())⦄

theorem Yields.of_run {p : Parser α} {s s' : Reading} {a : α} (yields : Yields s.depth p Q)
    (ran : p s = .ok a s') : Q a := by
  have post := yields s rfl
  simp only [wp, PredTrans.apply, EStateM.run, ran] at post
  exact post.2

theorem Yields.weaken {p : Parser α} (yields : Yields d p P) (weaker : ∀ a, P a → Q a) :
    Yields d p Q := by
  mvcgen [yields]
  grind

theorem Yields.bind {p : Parser α} {f : α → Parser β} {R : β → Prop} (first : Yields d p Q)
    (rest : ∀ a, Q a → Yields d (f a) R) : Yields d (p >>= f) R := by
  mvcgen [first, rest] <;> grind

theorem Fails.yields {p : Parser α} (fails : Fails p) : Yields d p Q := by
  mvcgen [fails]
  grind

/-! ## Single tokens -/

@[spec]
theorem next_returns : Returns d next := by
  mvcgen [next]

@[spec]
theorem peek_returns : Returns d peek := by
  mvcgen [peek]
  grind

@[spec]
theorem peekSecond_returns : Returns d peekSecond := by
  mvcgen [peekSecond]

@[spec]
theorem line_returns : Returns d line := by
  mvcgen [line]
  grind

@[spec]
theorem advance_returns : Returns d advance := by
  mvcgen [advance]
  grind

@[spec]
theorem skipSemicolons_returns : Returns d skipSemicolons := by
  mvcgen [skipSemicolons]

@[spec]
theorem fail_fails (fault : Fault) : Fails (fail fault : Parser α) := by
  mvcgen [fail, next]

@[spec]
theorem unexpected_fails (expecting : String) : Fails (unexpected expecting : Parser α) := by
  mvcgen [unexpected, peek, next]

@[spec]
theorem atMark_returns (m : Mark) : Returns d (atMark m) := by
  mvcgen [atMark]
  grind

@[spec]
theorem eat_returns (m : Mark) : Returns d (eat m) := by
  mvcgen [eat] <;> grind

@[spec]
theorem eatKeyword_returns (k : Keyword) : Returns d (eatKeyword k) := by
  mvcgen [eatKeyword, atKeyword] <;> grind

@[spec]
theorem expect_returns (m : Mark) (what : String) : Returns d (expect m what) := by
  mvcgen [expect] <;> grind

@[spec]
theorem name_returns : Returns d name := by
  mvcgen [name] <;> grind

@[spec]
theorem endOfStatement_returns : Returns d endOfStatement := by
  mvcgen [endOfStatement] <;> grind

/-! ## Nesting -/

theorem nested_yields {p : Parser α} (inner : d + 1 ≤ maxNesting → Yields (d + 1) p Q) :
    Yields d (nested p) Q := by
  by_cases room : d + 1 ≤ maxNesting
  · have inside := inner room
    mvcgen [nested, inside] <;> grind
  · mvcgen [nested]
    rename_i s begins entered rest shallow
    have tooDeep : maxNesting < s.depth + 1 := by omega
    exact absurd tooDeep shallow

theorem withLevel_yields (change : Int → Int) {p : Parser α} (inner : Yields d p Q) :
    Yields d (withLevel change p) Q := by
  mvcgen [withLevel, inner]

theorem inHeader_yields {p : Parser α} (inner : Yields d p Q) : Yields d (inHeader p) Q :=
  withLevel_yields _ inner

theorem inBrackets_yields {p : Parser α} (inner : Yields d p Q) : Yields d (inBrackets p) Q :=
  withLevel_yields _ inner

/-! ## Lists -/

/-- What a round adds to a list is in `Q`. -/
def Piece.Adds (Q : α → Prop) : Piece α → Prop
  | .stop => True
  | .last a | .more a => Q a

section

variable {round : List α → Parser (Piece α)}

theorem collectFrom_yields (each : ∀ read, Yields d (round read) (Piece.Adds Q)) (rounds : Nat)
    (read : List α) (known : ∀ a ∈ read, Q a) :
    Yields d (collectFrom round rounds read) fun items => ∀ a ∈ items, Q a := by
  induction rounds generalizing read with
  | zero =>
      mvcgen [collectFrom]
      grind
  | succ rounds ih => mvcgen [collectFrom, each, ih] <;> grind [Piece.Adds]

theorem collectWith_yields (each : ∀ read, Yields d (round read) (Piece.Adds Q)) :
    Yields d (collectWith round) fun items => ∀ a ∈ items, Q a := by
  have loop (rounds : Nat) := collectFrom_yields each rounds [] nofun
  mvcgen [collectWith, loop]

theorem collect_yields {round : Parser (Piece α)} (each : Yields d round (Piece.Adds Q)) :
    Yields d (collect round) fun items => ∀ a ∈ items, Q a :=
  collectWith_yields fun _ => each

theorem entriesTo_yields (closing : Mark) {entry : Parser α} (each : Yields d entry Q) :
    Yields d (entriesTo closing entry) fun items => ∀ a ∈ items, Q a := by
  refine collect_yields ?_
  mvcgen [each] <;> grind [Piece.Adds]

theorem itemsTo_yields (closing : Mark) (spelling : String) {item : List α → Parser α}
    (each : ∀ read, Yields d (item read) Q) :
    Yields d (itemsTo closing spelling item) fun items => ∀ a ∈ items, Q a := by
  refine collectWith_yields fun read => ?_
  mvcgen [each] <;> grind [Piece.Adds]

theorem commaSeparated_yields {item : Parser α} (each : Yields d item Q) :
    Yields d (commaSeparated item) fun items => ∀ a ∈ items, Q a := by
  refine collect_yields ?_
  mvcgen [each] <;> grind [Piece.Adds]

end

/-! ## Types -/

section Types

variable {g : Grammar} (onTypes : ∀ d, Returns d g.type)

include onTypes

theorem paramEntry_returns (read : List ParamEntry) : Returns d (paramEntry g read) := by
  mvcgen [paramEntry, onTypes] <;> grind

theorem params_returns : Returns d (params g) := by
  have entries := itemsTo_yields .rParen ")" (paramEntry_returns (d := d) onTypes)
  mvcgen [params, entries] <;> grind

theorem results_returns : Returns d (results g) := by
  have parameters := params_returns (d := d) onTypes
  mvcgen [results, parameters, onTypes] <;> grind

theorem interfaceEntry_returns : Returns d (interfaceEntry g) := by
  have parameters := params_returns (d := d) onTypes
  have outcome := results_returns (d := d) onTypes
  mvcgen [interfaceEntry, parameters, outcome] <;> grind

theorem structEntry_returns : Returns d (structEntry g) := by
  have names := commaSeparated_yields (name_returns (d := d))
  mvcgen [structEntry, names, onTypes] <;> grind

theorem structFields_returns : Returns d (structFields g) := by
  have entry (d : Nat) := structEntry_returns (d := d) onTypes
  have entries : ∀ d, Yields d (collect do
      skipSemicolons
      if ← eat .rBrace then pure .stop else return .more (← structEntry g)) fun _ => True := by
    intro d
    refine (collect_yields (Q := fun _ => True) fun d => ?_).weaken fun _ _ => trivial
    mvcgen [entry] <;> grind [Piece.Adds]
  mvcgen [structFields, entries]
  grind

omit onTypes in
theorem namedType_returns (word : String) : Returns d (namedType word) := by
  mvcgen [namedType] <;> grind

theorem bracketType_returns : Returns d (bracketType g) := by
  mvcgen [bracketType, onTypes] <;> grind

theorem flatType_returns : Returns d (flatType g) := by
  have parameters := params_returns (d := d) onTypes
  have outcome := results_returns (d := d) onTypes
  have fields := structFields_returns (d := d) onTypes
  have methods := entriesTo_yields .rBrace (interfaceEntry_returns (d := d) onTypes)
  have named (word : String) := namedType_returns (d := d) word
  have bracket := bracketType_returns (d := d) onTypes
  mvcgen [flatType, parameters, outcome, fields, methods, named, bracket, onTypes] <;> grind

theorem type_returns : Returns d (type g) :=
  nested_yields fun _ => flatType_returns onTypes

end Types

end SandboxedGo.Source.Parser

namespace SandboxedGo.Source

namespace Parser

open Std.Do

variable {α β : Type} {d : Nat}

/-- The levels that the constructs may have that can still be nested at a depth. -/
def room (d : Nat) : Nat := 3 * (maxNesting - d)

theorem room_nested {d : Nat} (below : d + 1 ≤ maxNesting) : room d = room (d + 1) + 3 := by
  unfold room
  omega

/-- The trees that the parsers of a grammar read have room at the depth where they begin.  What one
construct adds to the parts nested in it is accounted for where the next depth begins. -/
structure Shallow (g : Grammar) : Prop where
  type : ∀ d, Returns d g.type
  expr : ∀ d, Yields d g.expr fun e => e.levels 1 0 ≤ room d
  unary : ∀ d, Yields d g.unary fun e => e.levels 1 0 + 2 ≤ room d
  binary : ∀ d least, least ≤ 6 →
    Yields d (g.binary least) fun e => e.levels 1 0 + least ≤ room d + 4
  composite : ∀ d type, Yields d (g.composite type) fun e => e.levels 1 0 + 1 ≤ room d
  ifStmt : ∀ d, Yields d g.ifStmt fun s => s.levels 1 0 ≤ room d + 2
  stmts : ∀ d, Yields d g.stmts fun list => stmtsLevels 1 0 list ≤ room d + 1
  block : ∀ d, Yields d g.block fun body => stmtsLevels 1 0 body + 2 ≤ room d

variable {g : Grammar} (shallow : Shallow g)

/-! ## Expressions -/

-- A right operand is read with the next precedence, so five levels of operators are nested at most
-- before one begins that counts.
theorem precedence_le (op : BinaryOp) : op.precedence ≤ 5 := by
  cases op <;> decide

section Expressions

include shallow

theorem functionLiteral_yields :
    Yields d (functionLiteral g) fun e => e.levels 1 0 ≤ room d + 1 := by
  have parameters (d : Nat) := params_returns (d := d) shallow.type
  have outcome (d : Nat) := results_returns (d := d) shallow.type
  have body (d : Nat) := withLevel_yields (fun _ => 0) (shallow.block d)
  mvcgen [functionLiteral, parameters, outcome, body] <;> grind

theorem operand_yields : Yields d (operand g) fun e => e.levels 1 0 ≤ room d + 1 := by
  have inner (d : Nat) := inBrackets_yields (d := d) (shallow.expr d)
  have literal (d : Nat) := functionLiteral_yields (d := d) shallow
  have type (d : Nat) := type_returns (d := d) shallow.type
  mvcgen [operand, inner, literal, type] <;> grind

theorem indexOrSlice_yields {base : Expr} (fits : base.levels 1 0 ≤ room d + 1) :
    Yields d (indexOrSlice g base) fun e => e.levels 1 0 ≤ room d + 1 := by
  have inner := shallow.expr
  mvcgen [indexOrSlice, inner] <;> grind

theorem callArguments_yields :
    Yields d (callArguments g) fun arguments => exprsLevels 1 0 arguments.1 ≤ room d := by
  have inner := shallow.expr
  have argument (_ : List (Expr × Bool)) : Yields d (do
      let e ← g.expr
      return (e, ← eat .ellipsis)) fun a => a.1.levels 1 0 ≤ room d := by
    mvcgen [inner]
    grind
  have arguments := (itemsTo_yields .rParen ")" argument).weaken
    (Q := fun list => exprsLevels 1 0 (list.map Prod.fst) ≤ room d) fun list fits => by
      rw [exprsLevels_le_iff]
      exact List.forall_mem_map.mpr fits
  mvcgen [callArguments, arguments]

theorem element_yields (elided : Option TypeExpr) :
    Yields d (element g elided) fun e => e.levels 1 0 ≤ room d := by
  have inner := shallow.expr
  have literal := shallow.composite
  mvcgen [element, inner, literal] <;> grind

theorem composite_yields (type : TypeExpr) :
    Yields d (composite g type) fun e => e.levels 1 0 + 1 ≤ room d := by
  refine nested_yields fun below => withLevel_yields _ ?_
  generalize elidedTypes type = elided
  obtain ⟨keyType, elementType⟩ := elided
  have part (elided : Option TypeExpr) := element_yields (d := d + 1) shallow elided
  have entry (_ : List (Option Expr × Expr)) : Yields (d + 1) (do
      let first ← element g (keyType <|> elementType)
      if ← eat .colon then return (some first, ← element g elementType)
      else pure (none, first)) fun entry => entryLevels 1 0 entry ≤ room (d + 1) := by
    mvcgen [part] <;> grind
  have entries := (itemsTo_yields .rBrace "\x7d" entry).weaken fun _ => entriesLevels_le_iff.mpr
  have deeper := room_nested below
  mvcgen [entries] <;> grind

theorem selector_yields {base : Expr} (fits : base.levels 1 0 ≤ room d + 1) :
    Yields d (selector g base) fun e => e.levels 1 0 ≤ room d + 1 := by
  have type := shallow.type
  mvcgen [selector, type] <;> grind

/-- What is added behind an operand continues a chain, which costs nothing. -/
theorem postfix_yields {base : Expr} (fits : base.levels 1 0 ≤ room d + 1) :
    Yields d (postfix? g base) fun e => optionLevels 1 0 e ≤ room d + 1 := by
  have selected := selector_yields shallow fits
  have indexed := inBrackets_yields (indexOrSlice_yields shallow fits)
  have arguments := inBrackets_yields (callArguments_yields (d := d) shallow)
  have literal (type : TypeExpr) := composite_yields (d := d) shallow type
  mvcgen [postfix?, selected, indexed, arguments, literal] <;> grind

theorem postfixes_yields (rounds : Nat) {base : Expr} (fits : base.levels 1 0 ≤ room d + 1) :
    Yields d (postfixes g rounds base) fun e => e.levels 1 0 ≤ room d + 1 := by
  induction rounds generalizing base with
  | zero =>
      mvcgen [postfixes]
      grind
  | succ rounds ih =>
      have next := postfix_yields shallow fits
      mvcgen [postfixes, next, ih] <;> grind

theorem primary_yields : Yields d (primary g) fun e => e.levels 1 0 ≤ room d + 1 := by
  have first := operand_yields (d := d) shallow
  have others (rounds : Nat) (base : Expr) (fits : base.levels 1 0 ≤ room d + 1) :=
    postfixes_yields shallow rounds fits
  mvcgen [primary, first, others] <;> grind

theorem unary_yields : Yields d (unary g) fun e => e.levels 1 0 + 2 ≤ room d := by
  refine nested_yields fun below => ?_
  have operand := shallow.unary (d + 1)
  have whole := primary_yields (d := d + 1) shallow
  have deeper := room_nested below
  mvcgen [operand, whole] <;> grind

/-- Operators of one precedence continue a chain; a right operand has operators of a greater one. -/
theorem operators_yields {least : Nat} (rounds : Nat) {left : Expr}
    (fits : left.levels 1 0 + least ≤ room d + 4) :
    Yields d (operators g least rounds left) fun e => e.levels 1 0 + least ≤ room d + 4 := by
  induction rounds generalizing left with
  | zero =>
      mvcgen [operators]
      grind
  | succ rounds ih =>
      have right (op : BinaryOp) :=
        shallow.binary d (op.precedence + 1) (Nat.succ_le_succ (precedence_le op))
      mvcgen [operators, right, ih] <;> grind

theorem binary_yields (least : Nat) (known : least ≤ 6) :
    Yields d (binary g least) fun e => e.levels 1 0 + least ≤ room d + 4 := by
  have left := unary_yields (d := d) shallow
  have others (rounds : Nat) (left : Expr) (fits : left.levels 1 0 + least ≤ room d + 4) :=
    operators_yields shallow rounds fits
  mvcgen [binary, left, others] <;> grind

theorem expr_yields : Yields d (expr g) fun e => e.levels 1 0 ≤ room d := by
  refine nested_yields fun below => ?_
  have inner := binary_yields (d := d + 1) shallow 1 (by omega)
  have deeper := room_nested below
  exact inner.weaken fun e fits => by omega

theorem exprList_yields : Yields d (exprList g) fun list => exprsLevels 1 0 list ≤ room d := by
  exact (commaSeparated_yields (expr_yields shallow)).weaken fun _ => exprsLevels_le_iff.mpr

end Expressions

/-! ## Declarations of values -/

section Statements

theorem numberConstants_levels {bound : Nat} {specs : List ValueSpec}
    (fit : ∀ spec ∈ specs, spec.levels 1 0 ≤ bound)
    {previous : Option (Option TypeExpr × List Expr)}
    (before : ∀ given ∈ previous, exprsLevels 1 0 given.2 ≤ bound) (iota : Nat) :
    ∀ spec ∈ numberConstants previous iota specs, spec.levels 1 0 ≤ bound := by
  induction specs generalizing previous iota with
  | nil => exact fun _ mem => absurd mem List.not_mem_nil
  | cons spec rest ih =>
      obtain ⟨line, names, type, values, place⟩ := spec
      obtain ⟨fits, others⟩ := List.forall_mem_cons.mp fit
      cases values with
      | nil =>
          have behind := ih others before (iota + 1)
          cases previous with
          | none => exact List.forall_mem_cons.mpr ⟨Nat.zero_le _, behind⟩
          | some given => exact List.forall_mem_cons.mpr ⟨before given rfl, behind⟩
      | cons e more =>
          have known : ∀ given ∈ some (type, e :: more), exprsLevels 1 0 given.2 ≤ bound := by
            intro given is
            cases is
            exact fits
          exact List.forall_mem_cons.mpr ⟨fits, ih others known (iota + 1)⟩

include shallow

theorem valueSpec_yields (isConst : Bool) :
    Yields d (valueSpec g isConst) fun spec => spec.levels 1 0 ≤ room d := by
  have names := commaSeparated_yields (name_returns (d := d))
  have type (d : Nat) := type_returns (d := d) shallow.type
  have values (d : Nat) := exprList_yields (d := d) shallow
  mvcgen [valueSpec, names, type, values] <;> grind

theorem valueSpecs_yields (isConst : Bool) :
    Yields d (valueSpecs g isConst) fun specs => ∀ spec ∈ specs, spec.levels 1 0 ≤ room d := by
  have one (d : Nat) := valueSpec_yields (d := d) shallow isConst
  have group (d : Nat) := entriesTo_yields .rParen (one d)
  mvcgen [valueSpecs, one, group] <;> grind [numberConstants_levels]

theorem typeSpecs_returns : Returns d (typeSpecs g) := by
  have type (d : Nat) := type_returns (d := d) shallow.type
  have one : Returns d (typeSpec g) := by
    mvcgen [typeSpec, type]
    grind
  have group := entriesTo_yields .rParen one
  mvcgen [typeSpecs, one, group] <;> grind

/-! ## Simple statements -/

/-- A simple statement or range clause has room, one level of the statement itself not counted. -/
def Simple.Fits (d : Nat) : Simple → Prop
  | .stmt s => s.levels 1 0 ≤ room d + 1
  | .range key value _ subject =>
    optionLevels 1 0 key ≤ room d ∧ optionLevels 1 0 value ≤ room d ∧ subject.levels 1 0 ≤ room d

omit shallow in
theorem single_yields {bound : Nat} {exprs : List Expr} (fit : exprsLevels 1 0 exprs ≤ bound) :
    Yields d (single exprs) fun e => e.levels 1 0 ≤ bound := by
  mvcgen [single] <;> grind

omit shallow in
theorem optionLevels_getElem {bound : Nat} {exprs : List Expr}
    (fit : exprsLevels 1 0 exprs ≤ bound) (i : Nat) : optionLevels 1 0 exprs[i]? ≤ bound := by
  cases found : exprs[i]? with
  | none => exact Nat.zero_le _
  | some e => exact exprsLevels_le_iff.mp fit e (List.mem_of_getElem? found)

theorem definition_yields (start : Nat) (rangeAllowed isDefine : Bool) {targets : List Expr}
    (fit : exprsLevels 1 0 targets ≤ room d) :
    Yields d (definition g start rangeAllowed isDefine targets) (Simple.Fits d) := by
  have subject (d : Nat) := expr_yields (d := d) shallow
  have values (d : Nat) := exprList_yields (d := d) shallow
  have target := optionLevels_getElem fit
  mvcgen [definition, subject, values] <;> grind [Simple.Fits]

theorem simple_yields (rangeAllowed : Bool) : Yields d (simple g rangeAllowed) (Simple.Fits d) := by
  have value (d : Nat) := expr_yields (d := d) shallow
  have targets (d : Nat) := exprList_yields (d := d) shallow
  have only (exprs : List Expr) (fit : exprsLevels 1 0 exprs ≤ room d) := single_yields (d := d) fit
  have defining (start : Nat) (isDefine : Bool) (targets : List Expr)
      (fit : exprsLevels 1 0 targets ≤ room d) :=
    definition_yields shallow start rangeAllowed isDefine fit
  mvcgen [simple, value, targets, only, defining] <;> grind [Simple.Fits]

theorem plain_yields (rangeFault : Fault) :
    Yields d (plain g rangeFault) fun s => s.levels 1 0 ≤ room d + 1 := by
  have statement (d : Nat) := simple_yields (d := d) shallow false
  mvcgen [plain, statement] <;> grind [Simple.Fits]

/-! ## Conditions and loops -/

theorem ifHeader_yields : Yields d (ifHeader g) fun header =>
    stmtLevels 1 0 header.1 ≤ room d + 1 ∧ header.2.levels 1 0 ≤ room d := by
  have first (d : Nat) (fault : Fault) := plain_yields (d := d) shallow fault
  have condition (d : Nat) := expr_yields (d := d) shallow
  mvcgen [ifHeader, first, condition] <;> grind [Stmt.levels_kind]

theorem elseBranch_yields : Yields d (elseBranch g) fun s => s.levels 1 0 ≤ room d + 2 := by
  have further := shallow.ifStmt
  have body := shallow.block
  mvcgen [elseBranch, further, body] <;> grind

/-- What follows `else` continues a chain, which costs nothing. -/
theorem ifStmt_yields : Yields d (ifStmt g) fun s => s.levels 1 0 ≤ room d + 2 := by
  have header (d : Nat) := inHeader_yields (ifHeader_yields (d := d) shallow)
  have body := shallow.block
  have otherwise (d : Nat) := elseBranch_yields (d := d) shallow
  mvcgen [ifStmt, header, body, otherwise] <;> grind

/-- The header of a loop leaves room for the statement that it makes of a body. -/
def HeaderFits (d : Nat) (header : List Stmt → StmtKind) : Prop :=
  ∀ body, stmtsLevels 1 0 body ≤ room d → (header body).levels 1 0 ≤ room d + 2

theorem loopClauses_yields {init : Option Stmt} (fits : stmtLevels 1 0 init ≤ room d + 1) :
    Yields d (loopClauses g init) (HeaderFits d) := by
  have clause (d : Nat) := expr_yields (d := d) shallow
  have post (d : Nat) (fault : Fault) := plain_yields (d := d) shallow fault
  mvcgen [loopClauses, clause, post] <;> grind [HeaderFits]

theorem forHeader_yields : Yields d (forHeader g) (HeaderFits d) := by
  have clauses (init : Option Stmt) (fits : stmtLevels 1 0 init ≤ room d + 1) :=
    loopClauses_yields shallow fits
  have first (d : Nat) := simple_yields (d := d) shallow true
  mvcgen [forHeader, clauses, first] <;> grind [HeaderFits, Simple.Fits, Stmt.levels_kind]

theorem forStmt_yields : Yields d (forStmt g) fun s => s.levels 1 0 ≤ room d + 2 := by
  have header (d : Nat) := inHeader_yields (forHeader_yields (d := d) shallow)
  have body := shallow.block
  mvcgen [forStmt, header, body]
  grind [HeaderFits]

/-! ## Switches -/

theorem switchHeader_yields : Yields d (switchHeader g) fun header =>
    stmtLevels 1 0 header.1 ≤ room d + 1 ∧ stmtLevels 1 0 header.2 ≤ room d + 1 := by
  have part (d : Nat) (fault : Fault) := plain_yields (d := d) shallow fault
  mvcgen [switchHeader, part] <;> grind

theorem stmtsTo_yields (ends : Token → Bool) :
    Yields d (stmtsTo g ends) fun body => stmtsLevels 1 0 body ≤ room d + 1 := by
  have group := shallow.stmts
  refine .bind (collect_yields (Q := fun list => stmtsLevels 1 0 list ≤ room d + 1) ?_) ?_
  · mvcgen [group] <;> grind [Piece.Adds]
  · intro groups fit
    have all : stmtsLevels 1 0 groups.flatten ≤ room d + 1 := by
      rw [stmtsLevels_le_iff]
      intro s mem
      obtain ⟨list, isIn, mem⟩ := List.mem_flatten.mp mem
      exact stmtsLevels_le_iff.mp (fit list isIn) s mem
    mvcgen

theorem caseType_returns : Returns d (caseType g) := by
  have type (d : Nat) := type_returns (d := d) shallow.type
  mvcgen [caseType, type] <;> grind

theorem cases_yields {labels : Parser (List α)} {P : List α → Prop} {Q : β → Prop}
    (make : Bool → List α → List Stmt → β) (none : P [])
    (onLabels : Yields d labels P)
    (makes : ∀ isDefault list body, P list → stmtsLevels 1 0 body ≤ room d + 1 →
      Q (make isDefault list body)) :
    Yields d (cases g labels make) fun list => ∀ c ∈ list, Q c := by
  have body (ends : Token → Bool) := stmtsTo_yields (d := d) shallow ends
  refine collect_yields ?_
  mvcgen [onLabels, body] <;> grind [Piece.Adds]

omit shallow in
theorem typeGuard_yields {bound : Nat} {tag : Option StmtKind}
    (fits : ∀ kind, tag = some kind → kind.levels 1 0 ≤ bound + 1) :
    Yields d (typeGuard? tag) fun guard => optionLevels 1 0 (guard.map Prod.snd) ≤ bound := by
  mvcgen [typeGuard?] <;> grind

omit shallow in
theorem levels_kind_of_tag {bound : Nat} {tag : Option Stmt} (fits : stmtLevels 1 0 tag ≤ bound)
    (kind : StmtKind) (is : tag.map Stmt.kind = some kind) : kind.levels 1 0 ≤ bound := by
  obtain ⟨s, rfl, rfl⟩ := Option.map_eq_some_iff.mp is
  rw [stmtLevels, Stmt.levels_kind] at fits
  exact fits

theorem switchStmt_yields : Yields d (switchStmt g) fun s => s.levels 1 0 ≤ room d + 2 := by
  have header (d : Nat) := (inHeader_yields (switchHeader_yields (d := d) shallow)).weaken
    fun _ fits => And.intro fits.1 (levels_kind_of_tag fits.2)
  have guard (tag : Option StmtKind)
      (fits : ∀ kind, tag = some kind → kind.levels 1 0 ≤ room d + 1) :=
    typeGuard_yields (d := d) fits
  have types := (commaSeparated_yields (caseType_returns (d := d) shallow)).weaken
    (Q := fun _ => True) fun _ _ => trivial
  have typeCases := cases_yields shallow TypeCase.mk
    (Q := fun c => c.levels 1 0 ≤ room d + 1) trivial types fun _ _ _ _ fits => fits
  have valueCases := cases_yields shallow SwitchCase.mk
    (Q := fun c => c.levels 1 0 ≤ room d + 1) (Nat.zero_le _) (exprList_yields shallow)
    fun _ _ _ values fits => Nat.max_le.mpr ⟨Nat.le_succ_of_le values, fits⟩
  have allTypeCases := typeCases.weaken fun _ => typeCasesLevels_le_iff.mpr
  have allValueCases := valueCases.weaken fun _ => casesLevels_le_iff.mpr
  mvcgen [switchStmt, header, guard, allTypeCases, allValueCases] <;> grind

/-! ## All statements -/

theorem block_yields : Yields d (block g) fun body => stmtsLevels 1 0 body + 2 ≤ room d := by
  refine nested_yields fun below => ?_
  have body (ends : Token → Bool) := stmtsTo_yields (d := d + 1) shallow ends
  have deeper := room_nested below
  mvcgen [body] <;> grind

theorem otherStmt_yields (start : Nat) :
    Yields d (otherStmt g start) fun s => s.levels 1 0 ≤ room d + 2 := by
  have body (d : Nat) := block_yields (d := d) shallow
  have statement (d : Nat) (fault : Fault) := plain_yields (d := d) shallow fault
  mvcgen [otherStmt, body, statement] <;> grind

theorem flatStmt_yields : Yields d (flatStmt g) fun s => s.levels 1 0 ≤ room d + 2 := by
  have value (d : Nat) := expr_yields (d := d) shallow
  have values (d : Nat) := exprList_yields (d := d) shallow
  have branch (d : Nat) := ifStmt_yields (d := d) shallow
  have loop (d : Nat) := forStmt_yields (d := d) shallow
  have switch (d : Nat) := switchStmt_yields (d := d) shallow
  have other (d start : Nat) := otherStmt_yields (d := d) shallow start
  mvcgen [flatStmt, noLabel, value, values, branch, loop, switch, other] <;> grind

omit shallow in
theorem specs_levels {bound : Nat} {specs : List α} {statement : α → Stmt} (levels : α → Nat)
    (costs : ∀ spec, (statement spec).levels 1 0 = 1 + levels spec)
    (fit : ∀ spec ∈ specs, levels spec ≤ bound) :
    stmtsLevels 1 0 (specs.map statement) ≤ bound + 1 := by
  rw [stmtsLevels_le_iff, List.forall_mem_map]
  intro spec mem
  rw [costs, Nat.add_comm]
  exact Nat.succ_le_succ (fit spec mem)

theorem stmts_yields : Yields d (stmts g) fun list => stmtsLevels 1 0 list ≤ room d + 1 := by
  have values (d : Nat) (isConst : Bool) := valueSpecs_yields (d := d) shallow isConst
  have types (d : Nat) := typeSpecs_returns (d := d) shallow
  have other : Yields d (nested (flatStmt g)) fun s => s.levels 1 0 ≤ room d + 1 := by
    refine nested_yields fun below => ?_
    have deeper := room_nested below
    exact (flatStmt_yields shallow).weaken fun s fits => by omega
  mvcgen [stmts, values, types, other]
  case vc1 | vc2 => exact ⟨by grind, specs_levels (ValueSpec.levels 1 0) (fun _ => rfl) (by grind)⟩
  case vc3 => exact ⟨by grind, specs_levels (fun _ => 0) (fun _ => rfl) (by grind)⟩
  all_goals grind

end Statements

/-! ## Whole programs -/

theorem shallow_ofDepth (depth : Nat) : Shallow (.ofDepth depth) := by
  induction depth with
  | zero =>
      exact {
        type := fun _ => (fail_fails _).yields
        expr := fun _ => (fail_fails _).yields
        unary := fun _ => (fail_fails _).yields
        binary := fun _ _ _ => (fail_fails _).yields
        composite := fun _ _ => (fail_fails _).yields
        ifStmt := fun _ => (fail_fails _).yields
        stmts := fun _ => (fail_fails _).yields
        block := fun _ => (fail_fails _).yields }
  | succ depth ih =>
      exact {
        type := fun _ => type_returns ih.type
        expr := fun _ => expr_yields ih
        unary := fun _ => unary_yields ih
        binary := fun _ least known => binary_yields ih least known
        composite := fun _ type => composite_yields ih type
        ifStmt := fun _ => ifStmt_yields ih
        stmts := fun _ => stmts_yields ih
        block := fun _ => block_yields ih }

section Programs

@[spec]
theorem importSpec_returns : Returns d importSpec := by
  mvcgen [importSpec] <;> grind

@[spec]
theorem imports_returns : Returns d imports := by
  have group (d : Nat) := entriesTo_yields .rParen (importSpec_returns (d := d))
  have groups : Yields d (collect do
      skipSemicolons
      if ← eatKeyword .import then
        let group ← if ← eat .lParen then entriesTo .rParen importSpec else pure [← importSpec]
        endOfStatement
        pure (.more group)
      else pure .stop) fun _ => True := by
    refine (collect_yields (Q := fun _ => True) ?_).weaken fun _ _ => trivial
    mvcgen [group] <;> grind [Piece.Adds]
  mvcgen [imports, groups]

@[spec]
theorem receiver_returns : Returns d receiver := by
  mvcgen [receiver] <;> grind

include shallow

theorem funcDecl_yields :
    Yields d (funcDecl g) fun decl => decl.function.levels 1 0 ≤ room d := by
  have parameters (d : Nat) := params_returns (d := d) shallow.type
  have outcome (d : Nat) := results_returns (d := d) shallow.type
  have body (d : Nat) := withLevel_yields (fun _ => 0) (shallow.block d)
  mvcgen [funcDecl, parameters, outcome, body]
  grind

theorem decl_yields :
    Yields d (decl g) (Piece.Adds fun decl => decl.levels 1 0 ≤ room d) := by
  have function (d : Nat) := funcDecl_yields (d := d) shallow
  have values (d : Nat) (isConst : Bool) := (valueSpecs_yields (d := d) shallow isConst).weaken
    fun _ => greatest_le_iff.mpr
  have types (d : Nat) := typeSpecs_returns (d := d) shallow
  mvcgen [decl, function, values, types] <;> grind [Piece.Adds, Decl.levels]

theorem program_yields : Yields d (program g) fun p => p.levels 1 0 ≤ room d := by
  have decls (d : Nat) := (collect_yields (decl_yields (d := d) shallow)).weaken
    fun _ => greatest_le_iff.mpr
  mvcgen [program, decls]
  grind [Program.levels]

end Programs

end Parser

open SandboxedGo.Source.Parser

/-- An accepted program is nested at most three levels for each of two hundred constructs, and its
depth is bounded by this and the links of its chains; so it is no deeper than ten levels for each
construct if it has no longer chains than seven links for each. -/
theorem accepted_levels {source : String} {p : Program} (accepted : parseProgram source = .ok p) :
    p.levels 1 0 ≤ 3 * maxNesting ∧ p.levels 1 1 ≤ 3 * maxNesting + p.levels 0 1 ∧
      (p.levels 0 1 ≤ 7 * maxNesting → p.levels 1 1 ≤ 10 * maxNesting) := by
  obtain ⟨located, s', lexed, ran⟩ := parseProgram_ok_iff.mp accepted
  have nested : p.levels 1 0 ≤ room 0 := (program_yields (shallow_ofDepth _)).of_run ran
  have both : p.levels (1 + 0) (0 + 1) ≤ p.levels 1 0 + p.levels 0 1 := Program.levels_add 1 0 0 1 p
  have depth : p.levels 1 1 ≤ 3 * maxNesting + p.levels 0 1 :=
    both.trans (Nat.add_le_add_right nested _)
  exact ⟨nested, depth, fun short => by omega⟩

theorem accepted_levels_chain :
    ∃ p, parseProgram (chainProgram 1000) = .ok p ∧
      p.levels 1 1 ≤ 3 * maxNesting + p.levels 0 1 := by
  obtain ⟨line, accepted⟩ := parseProgram_chainProgram 1000
  exact ⟨_, accepted, (accepted_levels accepted).2.1⟩

/-- Chains are as long as the text allows. -/
theorem chain_exceeds_levels :
    ∃ line, parseProgram (chainProgram 2001) = .ok ⟨"main", [], [chainDecl 2001 line]⟩ ∧
      10 * maxNesting < Program.levels 1 1 ⟨"main", [], [chainDecl 2001 line]⟩ := by
  obtain ⟨line, accepted⟩ := parseProgram_chainProgram 2001
  have long : 10 * maxNesting < 2001 := by decide
  exact ⟨line, accepted, long.trans_le (levels_chainDecl 2001 line)⟩

end SandboxedGo.Source
