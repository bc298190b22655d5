import SandboxedGo.Proofs.ParserProgress

/-!
# The parser gets on

Every construct consumes a token, and so does every round of a list that is not the last one.  A
grammar recurs behind a token of the construct that recurs, so as many rounds and as deep a grammar
as there are tokens are enough: a text is refused for its nesting only where it is nested too
deeply.  Main statement: `parsing_gets_on`.
-/

set_option autoImplicit false

namespace SandboxedGo.Source.Parser

/-! ## Parameters -/

section

variable {n : Nat} {g : Grammar} (type : Consumes n g.type)

include type

theorem paramEntry_consumes (read : List ParamEntry) : Consumes n (paramEntry g read) := by
  have typeOnly {begins : Token → Prop} : Proceeds n begins
      (do return ⟨none, some (← g.type), false⟩ : Parser ParamEntry) fun _ => true :=
    type.here.followed fun _ => .pure rfl
  unfold paramEntry
  split
  · exact .failThen nofun
  refine .peek fun t _ => .peekSecond fun u => ?_
  split
  · exact (Proceeds.token (by nofun)).followed fun _ => .pure rfl
  · exact (Proceeds.token (by nofun)).followed fun _ => .pure rfl
  · exact typeOnly
  · refine (Proceeds.token (by nofun)).followed fun _ => ?_
    exact .eatThen (type.weaken.andThen fun _ => .pure rfl)
      (type.weaken.andThen fun _ => .pure rfl)
  · refine (Proceeds.token (by nofun)).followed fun _ => ?_
    exact type.weaken.andThen fun _ => .pure rfl
  · exact typeOnly

theorem params_consumes : Consumes (n + 1) (params g) := by
  unfold params
  refine Proceeds.expect.behind fun _ => ?_
  refine (itemsTo_loops _ _ (paramEntry_consumes type)).goes.andThen fun entries => ?_
  split
  · split
    · exact .pure rfl
    · exact .failThen nofun
  · exact .pure rfl

theorem results_goes : Goes n (results g) := by
  unfold results
  refine .looks (looks_atMark _) fun _ => ?_
  split
  · exact (params_consumes type).less.followed fun _ => .pure rfl
  refine .peek fun t _ => ?_
  split
  · exact type.here.followed fun _ => .pure rfl
  · exact .pure rfl

/-! ## Interfaces and structs -/

theorem interfaceEntry_consumes : Consumes n (interfaceEntry g) := by
  unfold interfaceEntry
  refine Proceeds.name.followed fun word => .looks (looks_atMark _) fun _ => ?_
  split
  · refine (params_consumes type).less.followed fun _ => ?_
    exact (results_goes type).andThen fun _ => .pure rfl
  · exact .eat (Proceeds.name.followed fun _ => .pure rfl) (.pure rfl)

theorem structEntry_consumes : Consumes n (structEntry g) := by
  unfold structEntry
  refine Proceeds.name.followed fun first => .peek fun t _ => ?_
  split
  · exact .pure rfl
  · exact .pure rfl
  extract_lets behindNames
  have named (more : List String) : Goes n (behindNames more) := by
    refine type.followed fun type => .peek fun t _ => ?_
    extract_lets behindTag
    have tagged (tag : Option String) : Goes n (behindTag tag) :=
      Proceeds.endOfStatement.andThen fun _ => .pure rfl
    split
    · exact (Proceeds.token (by nofun)).followed fun _ => tagged _
    · exact (tagged _).here
  exact .eat ((commaSeparated_consumes .name).followed named) (named []).here

/-- One round of the entries of a struct. -/
def structRound (g : Grammar) : Parser (Piece (List FieldDecl)) := do
  skipSemicolons
  if ← eat .rBrace then pure .stop else return .more (← structEntry g)

theorem structFields_loops : Loops n (structFields g) List.flatten fun _ => structRound g where
  repeats := (map_eq_pure_bind ..).symm
  turns _ := by
    refine .skipSemicolons (.eat (.pure rfl) ?_)
    exact (structEntry_consumes type).here.followed fun _ => .pure rfl

/-! ## Types -/

omit type in
theorem namedType_consumes (word : String) :
    Proceeds n (· = .name word) (namedType word) fun _ => true := by
  unfold namedType
  refine (Proceeds.token (by nofun)).followed fun _ => ?_
  refine .looks (looks_atMark _) fun _ => ?_
  extract_lets plain
  have named : Goes n (plain ()) := .pure rfl
  split
  · refine .peekSecond fun u => ?_
    split
    · exact .advanceThen (.advanceThen (.pure rfl))
    · exact named
  · exact named

theorem bracketType_goes : Goes n (bracketType g) := by
  unfold bracketType
  refine .eat (type.followed fun _ => .pure rfl) (.peek fun t _ => ?_)
  refine .advanceThen ?_
  have behind (length : Option Nat) : Goes n (do
      expect .rBrack "]"
      return .array length (← g.type) : Parser TypeExpr) :=
    Proceeds.expect.followed fun _ => type.followed fun _ => .pure rfl
  split
  · exact behind _
  · exact behind _
  · exact .failThen nofun

theorem flatType_consumes : Consumes (n + 1) (flatType g) := by
  unfold flatType
  refine .peek fun t _ => ?_
  split
  · exact namedType_consumes _
  · exact (Proceeds.token (by nofun)).behind fun _ => bracketType_goes type
  · refine (Proceeds.token (by nofun)).behind fun _ => Proceeds.expect.followed fun _ => ?_
    refine type.followed fun _ => ?_
    exact Proceeds.expect.followed fun _ => type.followed fun _ => .pure rfl
  · exact (Proceeds.token (by nofun)).behind fun _ => type.followed fun _ => .pure rfl
  · refine (Proceeds.token (by nofun)).behind fun _ => ?_
    refine (params_consumes type).less.followed fun _ => ?_
    exact (results_goes type).andThen fun _ => .pure rfl
  · refine (Proceeds.token (by nofun)).behind fun _ => Proceeds.expect.followed fun _ => ?_
    exact (entriesTo_loops _ (interfaceEntry_consumes type)).goes.andThen fun _ => .pure rfl
  · refine (Proceeds.token (by nofun)).behind fun _ => Proceeds.expect.followed fun _ => ?_
    exact (structFields_loops type).goes.andThen fun _ => .pure rfl
  · refine (Proceeds.token (by nofun)).behind fun _ => type.followed fun _ => ?_
    exact Proceeds.expect.followed fun _ => .pure rfl
  · exact .fail nofun
  · exact .unexpected

theorem type_consumes : Consumes (n + 1) (Parser.type g) := .nested (flatType_consumes type)

end

/-- Every parser of a grammar consumes a token where at most so many are left.  The lemmas below
tell the same of a construct for one token more: what is nested in it has fewer left. -/
structure Productive (n : Nat) (g : Grammar) : Prop where
  type : Consumes n g.type
  expr : Consumes n g.expr
  unary : Consumes n g.unary
  binary : ∀ least, Consumes n (g.binary least)
  composite : ∀ type, Consumes n (g.composite type)
  ifStmt : Consumes n g.ifStmt
  /-- An empty statement is none of those that semicolons end. -/
  stmts : Proceeds n (· ≠ .mark .semi) g.stmts fun _ => true
  block : Consumes n g.block

section

variable {n : Nat} {g : Grammar} (productive : Productive n g)

include productive

/-! ## Operands -/

theorem functionLiteral_goes : Goes n (functionLiteral g) := by
  unfold functionLiteral
  refine (params_consumes productive.type).less.followed fun _ => ?_
  refine (results_goes productive.type).andThen fun _ => .looks (looks_atMark _) fun _ => ?_
  split
  · exact (Proceeds.withLevel productive.block).followed fun _ => .pure rfl
  · exact .pure rfl

theorem operand_consumes : Consumes (n + 1) (operand g) := by
  have constant {t : Token} {e : Expr} (notEnd : t ≠ .endOfText) : Proceeds (n + 1) (· = t)
      (do
        advance
        pure e) fun _ => true := (Proceeds.token notEnd).behind fun _ => .pure rfl
  unfold operand
  refine .peek fun t _ => ?_
  split
  · exact constant nofun
  · exact constant nofun
  · exact constant nofun
  · exact constant nofun
  · exact constant nofun
  · refine (Proceeds.token (by nofun)).behind fun _ => ?_
    refine (Proceeds.inBrackets productive.expr).followed fun _ => ?_
    exact Proceeds.expect.followed fun _ => .pure rfl
  · exact (Proceeds.token (by nofun)).behind fun _ => functionLiteral_goes productive
  all_goals first
    | exact (type_consumes productive.type).here.followed fun _ => .pure rfl
    | exact .unexpected

theorem indexOrSlice_goes (base : Expr) : Goes n (indexOrSlice g base) := by
  have optional : Goes n (some <$> g.expr) := productive.expr.weaken.map fun _ => rfl
  unfold indexOrSlice
  refine .looks (looks_atMark _) fun _ => .join (fun _ => .pure rfl) (fun _ => optional)
    fun low => .eat ?_ ?_
  · refine .looks (looks_atMark _) fun _ => .join (fun _ => .pure rfl) (fun _ => optional)
      fun high => .looks (looks_atMark _) fun _ => ?_
    exact .cond (fun _ => .failThen (by nofun)) fun _ => .pure rfl
  · cases low with
    | some key => exact .pure rfl
    | none => exact .fail (by nofun)

/-- One argument of a call, and whether dots follow it. -/
def argument (g : Grammar) : Parser (Expr × Bool) := do
  let e ← g.expr
  return (e, ← eat .ellipsis)

theorem callArguments_loops : Loops n (callArguments g)
    (fun arguments => (arguments.map Prod.fst, arguments.any Prod.snd))
    (itemsRound .rParen ")" fun _ => argument g) where
  repeats := (map_eq_pure_bind ..).symm
  turns := by
    have each : Consumes n (argument g) :=
      productive.expr.followed fun _ => .eatThen (.pure rfl) (.pure rfl)
    exact (itemsTo_loops _ _ fun _ => each).turns

theorem element_consumes (elided : Option TypeExpr) : Consumes n (element g elided) := by
  unfold element
  refine .looks (looks_atMark _) fun _ => ?_
  split
  · split
    · exact (productive.composite _).followed fun _ => .pure rfl
    · exact productive.composite _
    · exact .fail nofun
  · exact productive.expr

/-- An element of a composite literal with its key, if it has one. -/
def keyedElement (g : Grammar) (keyType elementType : Option TypeExpr) :
    Parser (Option Expr × Expr) := do
  let first ← element g (keyType <|> elementType)
  if ← eat .colon then return (some first, ← element g elementType)
  else pure (none, first)

theorem keyedElement_consumes (keyType elementType : Option TypeExpr) :
    Consumes n (keyedElement g keyType elementType) :=
  (element_consumes productive _).followed fun _ =>
    .eat ((element_consumes productive _).followed fun _ => .pure rfl) (.pure rfl)

omit productive in
theorem composite_reads (type : TypeExpr) : Parser.composite g type =
    nested (withLevel (fun _ => 1) do
      expect .lBrace "\x7b"
      let (keyType, elementType) := elidedTypes type
      let elements ← itemsTo .rBrace "\x7d" fun _ => keyedElement g keyType elementType
      pure (.composite type elements)) := rfl

theorem composite_consumes (type : TypeExpr) : Consumes (n + 1) (Parser.composite g type) := by
  rw [composite_reads]
  refine .nested (.withLevel (Proceeds.expect.behind fun _ => ?_))
  exact (itemsTo_loops _ _ fun _ => keyedElement_consumes productive _ _).goes.andThen fun _ =>
    .pure rfl

/-! ## Behind operands -/

theorem selector_goes (base : Expr) : Goes n (selector g base) := by
  unfold selector
  refine .eat ?_ (Proceeds.name.followed fun _ => .pure rfl)
  have behind (type : TypeExpr) : Goes n (do
      expect .rParen ")"
      pure (.assert base type) : Parser Expr) := Proceeds.expect.followed fun _ => .pure rfl
  exact .eatKeyword (behind _) (productive.type.followed behind)

theorem postfix?_proceeds (base : Expr) :
    Proceeds n (fun _ => True) (postfix? g base) Option.isSome := by
  unfold postfix?
  refine .peek fun t _ => ?_
  split
  · exact (Proceeds.token (by nofun)).followed fun _ =>
      (selector_goes productive base).map fun _ => rfl
  · refine (Proceeds.token (by nofun)).followed fun _ => ?_
    refine (Proceeds.inBrackets (indexOrSlice_goes productive base)).andThen fun _ => ?_
    exact Proceeds.expect.followed fun _ => .pure rfl
  · refine (Proceeds.token (by nofun)).followed fun _ => ?_
    exact (Proceeds.inBrackets (callArguments_loops productive).goes).andThen fun _ => .pure rfl
  · refine .looks looks_get fun s => ?_
    split
    · exact (composite_consumes productive _).less.map fun _ => rfl
    · exact .pure rfl
  · exact .pure rfl

theorem postfixes_goes : ∀ (rounds left : Nat), left < rounds → left ≤ n → ∀ base,
    Goes left (postfixes g rounds base) := by
  intro rounds
  induction rounds with
  | zero => exact fun _ fewer => absurd fewer (Nat.not_lt_zero _)
  | succ rounds ih =>
      intro left fewer most base
      cases left with
      | zero => exact .empty
      | succ left =>
          unfold postfixes
          refine ((postfix?_proceeds productive base).anywhere most).turn
            (fun longer more => ?_) fun longer ends => ?_
          · cases longer with
            | some e => exact ih left (Nat.lt_of_succ_lt_succ fewer) (Nat.le_of_succ_le most) e
            | none => cases more
          · cases longer with
            | some e => cases ends
            | none => exact .pure rfl

theorem primary_consumes : Consumes (n + 1) (primary g) := by
  refine (operand_consumes productive).behind fun e => ?_
  exact .rounds fun rounds left fewer most => postfixes_goes productive rounds left fewer most e

/-! ## Operators -/

theorem unary_consumes : Consumes (n + 1) (Parser.unary g) := by
  refine .nested (.peek fun t _ => ?_)
  split
  · exact .fail (by nofun)
  · split
    · exact (Proceeds.token (by nofun)).behind fun _ => productive.unary.followed fun _ => .pure rfl
    · exact (primary_consumes productive).here
  · exact (primary_consumes productive).here

theorem operators_goes (least : Nat) : ∀ (rounds left : Nat), left < rounds → left ≤ n → ∀ e,
    Goes left (operators g least rounds e) := by
  intro rounds
  induction rounds with
  | zero => exact fun _ fewer => absurd fewer (Nat.not_lt_zero _)
  | succ rounds ih =>
      intro left fewer most e
      cases left with
      | zero => exact .empty
      | succ left =>
          unfold operators
          refine .peek fun t _ => ?_
          split
          · split
            · refine .cond (fun _ => .pure rfl) fun _ => ?_
              refine (Proceeds.token (by nofun)).behind fun _ => ?_
              have most := Nat.le_of_succ_le most
              exact ((productive.binary _).anywhere most).followed fun right =>
                ih left (Nat.lt_of_succ_lt_succ fewer) most _
            · exact .pure rfl
          · exact .pure rfl

theorem binary_consumes (least : Nat) : Consumes (n + 1) (Parser.binary g least) := by
  refine (unary_consumes productive).behind fun e => ?_
  exact .rounds fun rounds left fewer most =>
    operators_goes productive least rounds left fewer most e

theorem expr_consumes : Consumes (n + 1) (Parser.expr g) := .nested (binary_consumes productive 1)

theorem exprList_consumes : Consumes (n + 1) (exprList g) :=
  commaSeparated_consumes (expr_consumes productive)

/-! ## Declarations of values -/

theorem valueSpec_consumes (isConst : Bool) : Consumes (n + 1) (valueSpec g isConst) := by
  unfold valueSpec
  refine .looks looks_line fun start => (commaSeparated_consumes .name).followed fun names => ?_
  refine .peek fun t _ => ?_
  extract_lets behindType
  have typed (type : Option TypeExpr) : Goes (n + 1) (behindType type) := by
    have finish (values : List Expr) : Goes (n + 1)
        (if !isConst && type.isNone && values.isEmpty then do
          let r ← fail .missingTypeOrInitializer
          (fun _ : Unit => pure (.mk start names type values 0) : Unit → Parser ValueSpec) r
        else (pure (.mk start names type values 0) : Parser ValueSpec)) :=
      .cond (fun _ => .failThen (by nofun)) fun _ => .pure rfl
    exact .eat ((exprList_consumes productive).followed finish) (finish [])
  have type : Goes (n + 1) (some <$> Parser.type g) :=
    (type_consumes productive.type).weaken.map fun _ => rfl
  split
  · exact (typed none).here
  · exact (typed none).here
  · exact (typed none).here
  · exact (typed none).here
  · exact type.here.andThen typed

theorem valueSpecs_goes (isConst : Bool) : Goes (n + 1) (valueSpecs g isConst) := by
  unfold valueSpecs
  refine .eat ?_ ((valueSpec_consumes productive isConst).followed fun _ => .pure rfl)
  exact (entriesTo_loops _ (valueSpec_consumes productive isConst)).goes.andThen fun _ => .pure rfl

theorem typeSpec_consumes : Consumes (n + 1) (typeSpec g) := by
  have type : Goes (n + 1) (Parser.type g) := (type_consumes productive.type).weaken
  unfold typeSpec
  exact Proceeds.name.followed fun word =>
    .eatThen (type.andThen fun _ => .pure rfl) (type.andThen fun _ => .pure rfl)

theorem typeSpecs_goes : Goes (n + 1) (typeSpecs g) := by
  unfold typeSpecs
  refine .eat ?_ ((typeSpec_consumes productive).followed fun _ => .pure rfl)
  exact (entriesTo_loops _ (typeSpec_consumes productive)).goes

/-! ## Simple statements -/

omit productive in
theorem single_goes (exprs : List Expr) : Goes n (single exprs) := by
  unfold single
  split
  · exact .pure rfl
  · exact .fail (by nofun)

theorem definition_goes (start : Nat) (rangeAllowed isDefine : Bool) (targets : List Expr) :
    Goes (n + 1) (definition g start rangeAllowed isDefine targets) := by
  unfold definition
  extract_lets onward ranged
  have onwards : Goes (n + 1) (onward ()) := by
    refine (exprList_consumes productive).followed fun values => .cond (fun _ => ?_) fun _ => ?_
    · split
      · exact .pure rfl
      · exact .fail (by nofun)
    · exact .pure rfl
  refine .cond (fun _ => .eatKeyword ?_ onwards) fun _ => onwards
  refine .cond (fun _ => .failThen (by nofun)) fun _ => ?_
  exact (expr_consumes productive).followed fun _ => .pure rfl

theorem simple_consumes (rangeAllowed : Bool) : Consumes (n + 1) (simple g rangeAllowed) := by
  unfold simple
  refine .looks looks_line fun start => ?_
  extract_lets onward
  have onwards : Consumes (n + 1) (onward ()) := by
    refine (exprList_consumes productive).followed fun targets => .peek fun t _ => ?_
    have only (kind : Expr → StmtKind) : Goes (n + 1)
        (do return .stmt (.mk start (kind (← single targets))) : Parser Simple) :=
      (single_goes targets).andThen fun _ => .pure rfl
    split
    · exact (Proceeds.token (by nofun)).followed fun _ => definition_goes productive _ _ _ _
    · exact (Proceeds.token (by nofun)).followed fun _ => definition_goes productive _ _ _ _
    · exact (Proceeds.token (by nofun)).followed fun _ => only .increment
    · exact (Proceeds.token (by nofun)).followed fun _ => only .decrement
    · split
      · refine (Proceeds.token (by nofun)).followed fun _ => ?_
        refine (single_goes targets).andThen fun _ => ?_
        exact (expr_consumes productive).followed fun _ => .pure rfl
      · exact (only .expr).here
    · exact (only .expr).here
  refine .cond (fun _ => .eatKeyword ?_ onwards) fun _ => onwards
  exact (expr_consumes productive).followed fun _ => .pure rfl

theorem plain_consumes {fault : Fault} (other : fault ≠ .nestedTooDeeply) :
    Consumes (n + 1) (plain g fault) := by
  unfold plain
  refine (simple_consumes productive false).followed fun s => ?_
  cases s with
  | stmt s => exact .pure rfl
  | range => exact .fail other

/-! ## Conditions and loops -/

theorem ifHeader_goes : Goes (n + 1) (ifHeader g) := by
  unfold ifHeader
  refine (plain_consumes productive (by nofun)).followed fun first => .eat ?_ ?_
  · exact (expr_consumes productive).followed fun _ => .pure rfl
  · split
    · exact .pure rfl
    · exact .fail (by nofun)

theorem elseBranch_goes : Goes n (elseBranch g) := by
  unfold elseBranch
  refine .looks looks_line fun start => .peek fun t _ => ?_
  split
  · exact productive.ifStmt.weaken.here
  · exact productive.block.here.followed fun _ => .pure rfl
  · exact .unexpected

theorem ifStmt_consumes : Consumes (n + 1) (Parser.ifStmt g) := by
  unfold Parser.ifStmt
  refine .looks looks_line fun start => .keyword ?_ ((refuses_unexpected _).bind _)
  refine (Proceeds.inHeader (ifHeader_goes productive).less).andThen fun header => ?_
  obtain ⟨init, condition⟩ := header
  refine productive.block.followed fun body => ?_
  have otherwise : Goes n (some <$> elseBranch g) := (elseBranch_goes productive).map fun _ => rfl
  exact .eatKeyword (otherwise.andThen fun _ => .pure rfl) (.pure rfl)

/-- The clauses of a loop begin with a semicolon at least. -/
theorem loopClauses_goes (init : Option Stmt) : Goes (n + 1) (loopClauses g init) := by
  unfold loopClauses
  refine .looks (looks_atMark _) fun _ => .join (fun _ => .pure rfl)
    (fun _ => (expr_consumes productive).weaken.map fun _ => rfl) fun condition => ?_
  refine Proceeds.expect.followed fun _ => .looks (looks_atMark _) fun _ => ?_
  exact .join (fun _ => .pure rfl)
    (fun _ => (plain_consumes productive (by nofun)).weaken.map fun _ => rfl) fun _ => .pure rfl

theorem forHeader_goes : Goes (n + 1) (forHeader g) := by
  unfold forHeader
  refine .looks (looks_atMark _) fun _ => .cond (fun _ => ?_) fun _ => ?_
  · exact .pure rfl
  refine .eat (loopClauses_goes productive none) ?_
  refine (simple_consumes productive true).followed fun s => ?_
  cases s with
  | range => exact .pure rfl
  | stmt first =>
      refine .eat (loopClauses_goes productive _) ?_
      split
      · exact .pure rfl
      · exact .fail (by nofun)

theorem forStmt_consumes : Consumes (n + 1) (forStmt g) := by
  unfold forStmt
  refine .looks looks_line fun start => .keyword ?_ ((refuses_unexpected _).bind _)
  refine (Proceeds.inHeader (forHeader_goes productive).less).andThen fun header => ?_
  exact productive.block.followed fun _ => .pure rfl

/-! ## Switches -/

theorem switchHeader_goes : Goes (n + 1) (switchHeader g) := by
  have optional : Goes (n + 1) (some <$> plain g .unexpectedRange) :=
    (plain_consumes productive (by nofun)).weaken.map fun _ => rfl
  unfold switchHeader
  refine .looks (looks_atMark _) fun _ => .cond (fun _ => .pure rfl) fun _ => ?_
  refine .looks (looks_atMark _) fun _ => .join (fun _ => .pure rfl) (fun _ => optional)
    fun first => .eat ?_ (.pure rfl)
  exact .looks (looks_atMark _) fun _ => .join (fun _ => .pure rfl) (fun _ => optional)
    fun tag => .pure rfl

omit productive in
theorem typeGuard?_goes (tag : Option StmtKind) : Goes n (typeGuard? tag) := by
  unfold typeGuard?
  split
  · exact .pure rfl
  · exact .pure rfl
  · exact .fail (by nofun)
  · exact .pure rfl

/-- One round of a list of statements. -/
def stmtsRound (g : Grammar) (ends : Token → Bool) : Parser (Piece (List Stmt)) := do
  skipSemicolons
  match ← peek with
  | .endOfText => pure .stop
  | token =>
    if ends token then pure .stop
    else
      let group ← g.stmts
      unless ends (← peek) do endOfStatement
      pure (.more group)

theorem stmtsTo_loops (ends : Token → Bool) :
    Loops n (stmtsTo g ends) List.flatten fun _ => stmtsRound g ends where
  repeats := (map_eq_pure_bind ..).symm
  turns _ := by
    refine .skipSemicolons (.peek fun t notSemi => ?_)
    have group : Proceeds n (· = t) g.stmts fun _ => true := fun s ready left first =>
      productive.stmts s ready left (first ▸ notSemi)
    split
    · exact .pure rfl
    refine .cond (fun _ => .pure rfl) fun _ => group.followed fun group => .peek fun t _ => ?_
    exact .cond (fun _ => .pure rfl) fun _ =>
      Proceeds.endOfStatement.here.andThen fun _ => .pure rfl

theorem block_consumes : Consumes (n + 1) (Parser.block g) := by
  refine .nested (Proceeds.expect.behind fun _ => ?_)
  exact (stmtsTo_loops productive _).goes.andThen fun body =>
    Proceeds.expect.followed fun _ => .pure rfl

theorem caseType_consumes : Consumes (n + 1) (caseType g) := by
  unfold caseType
  refine .peek fun t _ => ?_
  split
  · exact (Proceeds.token (by nofun)).followed fun _ => .pure rfl
  · exact (type_consumes productive.type).here.map fun _ => rfl

/-- One round of the cases of a switch. -/
def casesRound {α β : Type} (g : Grammar) (labels : Parser (List α))
    (make : Bool → List α → List Stmt → β) : Parser (Piece β) := do
  skipSemicolons
  if ← eat .rBrace then pure .stop
  else
    let isDefault ← eatKeyword .default
    let values ←
      if isDefault then pure []
      else
        unless ← eatKeyword .case do unexpected "case or default"
        labels
    expect .colon ":"
    return .more (make isDefault values (← stmtsTo g endsCase))

theorem cases_loops {α β : Type} {labels : Parser (List α)} (goes : Goes n labels)
    (make : Bool → List α → List Stmt → β) :
    Loops n (cases g labels make) id fun _ => casesRound g labels make where
  repeats := (id_map _).symm
  turns _ := by
    refine .skipSemicolons (.eat (.pure rfl) ?_)
    have behind (isDefault : Bool) (values : List α) : Consumes n (do
        expect .colon ":"
        return .more (make isDefault values (← stmtsTo g endsCase)) : Parser (Piece β)) :=
      Proceeds.expect.followed fun _ =>
        (stmtsTo_loops productive endsCase).goes.andThen fun _ => .pure rfl
    refine .eatKeywordThen (behind true []).weaken ?_
    have labelled : Goes n (do
        let values ← labels
        expect .colon ":"
        return .more (make false values (← stmtsTo g endsCase)) : Parser (Piece β)) :=
      goes.andThen fun values => (behind false values).weaken
    exact .eatKeyword labelled .unexpectedThen

theorem switchStmt_consumes : Consumes (n + 1) (switchStmt g) := by
  unfold switchStmt
  refine .looks looks_line fun start => .keyword ?_ ((refuses_unexpected _).bind _)
  refine (Proceeds.inHeader (switchHeader_goes productive).less).andThen fun header => ?_
  obtain ⟨init, tag⟩ := header
  refine (typeGuard?_goes _).andThen fun guard => Proceeds.expect.followed fun _ => ?_
  have types : Goes n (commaSeparated (caseType g)) :=
    (commaSeparated_consumes (caseType_consumes productive).less).weaken
  cases guard with
  | some guard =>
      exact (cases_loops productive types TypeCase.mk).goes.andThen fun _ => .pure rfl
  | none =>
      have valueCases (value : Option Expr) : Goes n (do
          let list ← cases g (exprList g) SwitchCase.mk
          pure (.mk start (.switch init value list)) : Parser Stmt) :=
        have loops := cases_loops productive
          (exprList_consumes productive).less.weaken SwitchCase.mk
        loops.goes.andThen fun _ => .pure rfl
      dsimp -zeta only
      split
      · exact valueCases _
      · exact valueCases _
      · exact .failThen (by nofun)

/-! ## Statements -/

omit productive in
theorem noLabel_goes : Goes n noLabel := by
  unfold noLabel
  exact .peek fun t _ => .cond (fun _ => .fail (by nofun)) fun _ => .pure rfl

theorem otherStmt_consumes (start : Nat) :
    Proceeds (n + 1) (· ≠ .mark .semi) (otherStmt g start) fun _ => true := by
  unfold otherStmt
  refine .peek fun t notSemi => .peekSecond fun u => ?_
  split
  · exact (block_consumes productive).here.followed fun _ => .pure rfl
  · exact absurd rfl notSemi
  · exact .fail (by nofun)
  · exact (plain_consumes productive (by nofun)).here

theorem flatStmt_consumes :
    Proceeds (n + 1) (· ≠ .mark .semi) (flatStmt g) fun _ => true := by
  unfold flatStmt
  refine .looks looks_line fun start => .peek fun t notSemi => ?_
  split
  · refine (Proceeds.token (by nofun)).followed fun _ => .peek fun t _ => ?_
    split
    · exact .pure rfl
    · exact .pure rfl
    · exact (exprList_consumes productive).here.followed fun _ => .pure rfl
  · exact (Proceeds.token (by nofun)).followed fun _ => noLabel_goes.andThen fun _ => .pure rfl
  · exact (Proceeds.token (by nofun)).followed fun _ => noLabel_goes.andThen fun _ => .pure rfl
  · exact (Proceeds.token (by nofun)).followed fun _ => .pure rfl
  · refine (Proceeds.token (by nofun)).followed fun _ => (expr_consumes productive).followed ?_
    intro e
    split
    · exact .pure rfl
    · exact .fail (by nofun)
  · exact .fail (by nofun)
  · exact .fail (by nofun)
  · exact .fail (by nofun)
  · exact (ifStmt_consumes productive).here
  · exact (forStmt_consumes productive).here
  · exact (switchStmt_consumes productive).here
  · exact fun s ready left first =>
      otherStmt_consumes productive start s ready left (first ▸ notSemi)

theorem stmts_consumes :
    Proceeds (n + 1) (· ≠ .mark .semi) (Parser.stmts g) fun _ => true := by
  unfold Parser.stmts
  refine .looks looks_line fun start => ?_
  refine .eatKeyword ((valueSpecs_goes productive _).andThen fun _ => .pure rfl) ?_
  refine .eatKeyword ((valueSpecs_goes productive _).andThen fun _ => .pure rfl) ?_
  refine .eatKeyword ((typeSpecs_goes productive).andThen fun _ => .pure rfl) ?_
  exact (Proceeds.nested (flatStmt_consumes productive)).followed fun _ => .pure rfl

end

/-- A grammar is deep enough for texts with no more tokens than it is deep. -/
theorem productive_ofDepth (depth : Nat) : Productive depth (.ofDepth depth) := by
  induction depth with
  | zero =>
      exact ⟨.empty, .empty, .empty, fun _ => .empty, fun _ => .empty, .empty, .empty, .empty⟩
  | succ depth ih =>
      exact {
        type := type_consumes ih.type
        expr := expr_consumes ih
        unary := unary_consumes ih
        binary := binary_consumes ih
        composite := composite_consumes ih
        ifStmt := ifStmt_consumes ih
        stmts := stmts_consumes ih
        block := block_consumes ih }

/-! ## Programs -/

/-- The path of an import, behind the name that it may be given. -/
def importPath (given : Option String) : Parser Import := do
  let token ← peek
  advance
  match token with
  | .string path => pure ⟨given, path⟩
  | _ => fail .importPathNotString

theorem importPath_consumes {n : Nat} (given : Option String) : Consumes n (importPath given) := by
  refine .peek fun t _ => ?_
  cases t with
  | string path => exact (Proceeds.token (by simp)).followed fun _ => .pure rfl
  | _ => exact .advanceThen (.fail (by simp))

theorem importSpec_consumes {n : Nat} : Consumes n importSpec := by
  unfold importSpec
  refine .peek fun t _ => ?_
  extract_lets behind
  split
  · exact (Proceeds.token (by simp)).followed fun _ => (importPath_consumes _).weaken
  · exact (Proceeds.token (by simp)).followed fun _ => (importPath_consumes _).weaken
  · exact (importPath_consumes _).here

/-- One round of the imports at the head of a file. -/
def importsRound : Parser (Piece (List Import)) := do
  skipSemicolons
  if ← eatKeyword .import then
    let group ← if ← eat .lParen then entriesTo .rParen importSpec else pure [← importSpec]
    endOfStatement
    pure (.more group)
  else pure .stop

theorem imports_loops {n : Nat} : Loops n imports List.flatten fun _ => importsRound where
  repeats := (map_eq_pure_bind ..).symm
  turns _ := by
    have ended (group : List Import) : Goes n (do
        endOfStatement
        pure (.more group) : Parser (Piece (List Import))) :=
      Proceeds.endOfStatement.andThen fun _ => .pure rfl
    refine .skipSemicolons (.eatKeyword (.eat ?_ ?_) (.pure rfl))
    · exact (entriesTo_loops _ importSpec_consumes).goes.andThen ended
    · exact importSpec_consumes.followed fun spec => ended [spec]

theorem receiver_goes {n : Nat} : Goes n receiver := by
  unfold receiver
  refine .eat (.peek fun t _ => .peekSecond fun u => ?_) (.pure rfl)
  extract_lets behind
  have named (word : Option String) : Goes n (behind word) :=
    .eatThen (Proceeds.name.followed fun _ => Proceeds.expect.followed fun _ => .pure rfl)
      (Proceeds.name.followed fun _ => Proceeds.expect.followed fun _ => .pure rfl)
  split
  · exact (Proceeds.token (by nofun)).followed fun _ => named _
  · exact (Proceeds.token (by nofun)).followed fun _ => named _
  · exact (named none).here

section

variable {n : Nat} {g : Grammar} (productive : Productive n g)

include productive

theorem funcDecl_consumes : Consumes (n + 1) (funcDecl g) := by
  unfold funcDecl
  refine .looks looks_line fun start => .keyword ?_ ((refuses_unexpected _).bind _)
  refine receiver_goes.andThen fun recv => Proceeds.name.followed fun word => ?_
  refine (params_consumes productive.type).less.followed fun list => ?_
  obtain ⟨parameters, variadic⟩ := list
  refine (results_goes productive.type).andThen fun outcome => .looks (looks_atMark _) fun _ => ?_
  refine .cond (fun _ => ?_) fun _ => .failThen (by nofun)
  exact (Proceeds.withLevel productive.block).followed fun _ => .pure rfl

theorem decl_turns : Turns n (decl g) := by
  unfold decl
  refine .skipSemicolons (.peek fun t _ => ?_)
  split
  · exact .pure rfl
  extract_lets behind
  have ended (d : Decl) : Goes n (behind d) :=
    Proceeds.endOfStatement.andThen fun _ => .pure rfl
  split
  · have function : Consumes n (Decl.func <$> funcDecl g) :=
      (funcDecl_consumes productive).less.map fun _ => rfl
    exact function.here.followed ended
  · refine (Proceeds.token (by nofun)).followed fun _ => ?_
    exact ((valueSpecs_goes productive _).less.map fun _ => rfl).andThen ended
  · refine (Proceeds.token (by nofun)).followed fun _ => ?_
    exact ((valueSpecs_goes productive _).less.map fun _ => rfl).andThen ended
  · refine (Proceeds.token (by nofun)).followed fun _ => ?_
    exact ((typeSpecs_goes productive).less.map fun _ => rfl).andThen ended
  · exact .failThen (by nofun)
  · exact .unexpectedThen

end

/-! ## The parser as a whole -/

/-- Every construct that a list is made of consumes a token where at most `n` are left. -/
structure ConstructsConsume (n : Nat) (g : Grammar) : Prop where
  expr : Consumes n (Parser.expr g)
  type : Consumes n (Parser.type g)
  /-- Where the list of statements reads one, no semicolon comes next. -/
  stmts : Proceeds n (· ≠ .mark .semi) (Parser.stmts g) fun _ => true
  element : ∀ elided, Consumes n (element g elided)
  importSpec : Consumes n importSpec
  valueSpec : ∀ isConst, Consumes n (valueSpec g isConst)

/-- Every list of the grammar is read in rounds that consume a token or are the last. -/
structure ListsTurn (n : Nat) (g : Grammar) : Prop where
  imports : Loops n imports List.flatten fun _ => importsRound
  importSpecs : Loops n (entriesTo .rParen importSpec) id fun _ => entriesRound .rParen importSpec
  decls : Loops n (collect (decl g)) id fun _ => decl g
  valueSpecs : ∀ isConst, Loops n (entriesTo .rParen (valueSpec g isConst)) id
    fun _ => entriesRound .rParen (valueSpec g isConst)
  typeSpecs : Loops n (entriesTo .rParen (typeSpec g)) id
    fun _ => entriesRound .rParen (typeSpec g)
  methods : Loops n (entriesTo .rBrace (interfaceEntry g)) id
    fun _ => entriesRound .rBrace (interfaceEntry g)
  fields : Loops n (structFields g) List.flatten fun _ => structRound g
  parameters : Loops n (itemsTo .rParen ")" (paramEntry g)) id
    (itemsRound .rParen ")" (paramEntry g))
  names : Loops n (commaSeparated name) id fun _ => commaRound name
  exprs : Loops n (exprList g) id fun _ => commaRound (Parser.expr g)
  caseTypes : Loops n (commaSeparated (caseType g)) id fun _ => commaRound (caseType g)
  valueCases : Loops n (cases g (exprList g) SwitchCase.mk) id
    fun _ => casesRound g (exprList g) SwitchCase.mk
  typeCases : Loops n (cases g (commaSeparated (caseType g)) TypeCase.mk) id
    fun _ => casesRound g (commaSeparated (caseType g)) TypeCase.mk
  statements : ∀ ends, Loops n (stmtsTo g ends) List.flatten fun _ => stmtsRound g ends
  arguments : Loops n (callArguments g)
    (fun arguments => (arguments.map Prod.fst, arguments.any Prod.snd))
    (itemsRound .rParen ")" fun _ => argument g)
  elements : ∀ keyType elementType,
    Loops n (itemsTo .rBrace "\x7d" fun _ => keyedElement g keyType elementType) id
      (itemsRound .rBrace "\x7d" fun _ => keyedElement g keyType elementType)

section

variable {n : Nat} {g : Grammar} (productive : Productive n g)

include productive

theorem constructs_consume : ConstructsConsume n g where
  expr := (expr_consumes productive).less
  type := (type_consumes productive.type).less
  stmts s ready left first := stmts_consumes productive s ready (Nat.le_succ_of_le left) first
  element := element_consumes productive
  importSpec := importSpec_consumes
  valueSpec isConst := (valueSpec_consumes productive isConst).less

theorem lists_turn : ListsTurn n g := by
  have expr : Consumes n (Parser.expr g) := (expr_consumes productive).less
  have caseType : Consumes n (caseType g) := (caseType_consumes productive).less
  exact {
    imports := imports_loops
    importSpecs := entriesTo_loops _ importSpec_consumes
    decls := ⟨(id_map _).symm, fun _ => decl_turns productive⟩
    valueSpecs := fun isConst => entriesTo_loops _ (valueSpec_consumes productive isConst).less
    typeSpecs := entriesTo_loops _ (typeSpec_consumes productive).less
    methods := entriesTo_loops _ (interfaceEntry_consumes productive.type)
    fields := structFields_loops productive.type
    parameters := itemsTo_loops _ _ (paramEntry_consumes productive.type)
    names := commaSeparated_loops .name
    exprs := commaSeparated_loops expr
    caseTypes := commaSeparated_loops caseType
    valueCases := cases_loops productive (exprList_consumes productive).less.weaken _
    typeCases := cases_loops productive (commaSeparated_consumes caseType).weaken _
    statements := stmtsTo_loops productive
    arguments := callArguments_loops productive
    elements := fun _ _ => itemsTo_loops _ _ fun _ => keyedElement_consumes productive _ _ }

theorem program_consumes : Consumes n (program g) := by
  have lists := lists_turn productive
  unfold program
  refine .skipSemicolons (.eatKeyword ?_ .unexpectedThen)
  refine Proceeds.name.followed fun package => Proceeds.endOfStatement.andThen fun _ => ?_
  exact lists.imports.goes.andThen fun imported => lists.decls.goes.andThen fun decls => .pure rfl

end

/-- Whatever tokens are parsed, every construct consumes some of them and every list is read in
rounds that consume some, however deep the grammar.  So the parse of a whole text ends, further on
in the text and before its end, with a program or with a complaint; and this is about the nesting
only where that is too deep, not because rounds or grammar have run out. -/
theorem parsing_gets_on (tokens : List Located) (ended : Ended tokens) :
    (∀ n, ConstructsConsume n (.ofDepth n) ∧ ListsTurn n (.ofDepth n)) ∧
      Outcome ⟨tokens, tokens.length, 0, 0⟩ (fun _ => true)
        (program (.ofDepth tokens.length) ⟨tokens, tokens.length, 0, 0⟩) := by
  refine ⟨fun n => ?_, ?_⟩
  · have productive := productive_ofDepth n
    exact ⟨constructs_consume productive, lists_turn productive⟩
  · exact program_consumes (productive_ofDepth _) _ ⟨ended, Nat.le_refl _⟩ (Nat.le_refl _) trivial

/-- The tokens of a text that ends in blocks that are not closed. -/
def unclosed (blocks : Nat) : List Located :=
  let head : List Token := [.keyword .package, .name "main", .mark .semi, .keyword .func,
    .name "main", .mark .lParen, .mark .rParen]
  let tokens : List Token := head ++ List.replicate blocks (.mark .lBrace) ++ [.endOfText]
  tokens.map (⟨·, ⟨1, 1⟩⟩)

theorem ended_unclosed (blocks : Nat) : Ended (unclosed blocks) := by
  unfold unclosed
  exact ⟨_, ⟨1, 1⟩, List.map_append⟩

theorem parsing_gets_on_unclosed : Ended (unclosed 12) ∧
    Outcome ⟨unclosed 12, (unclosed 12).length, 0, 0⟩ (fun _ => true)
      (program (.ofDepth (unclosed 12).length) ⟨unclosed 12, (unclosed 12).length, 0, 0⟩) :=
  ⟨ended_unclosed 12, (parsing_gets_on (unclosed 12) (ended_unclosed 12)).2⟩

end SandboxedGo.Source.Parser
