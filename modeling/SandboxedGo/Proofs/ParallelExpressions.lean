import SandboxedGo.Proofs.ParallelTypes

/-!
# Expressions beside each other

The parsers of expressions go the same way in two texts that begin alike.  Two of them repeat a
round as often as there are tokens; each round consumes one, so both end before the rounds do.
-/

set_option autoImplicit false

namespace SandboxedGo.Source.Pair

open SandboxedGo.Source.Parser

variable {v : Pair} {g g' : Grammar}

/-! ## Trees from parts -/

section

variable {e e' : Expr} {type type' : TypeExpr} {exprs exprs' : List Expr}

theorem Same.composite {elements elements' : List (Option Expr × Expr)} (ofType : v.Same type type')
    (same : v.Same elements elements') :
    v.Same (Expr.composite type elements) (Expr.composite type' elements') := by
  have each (f : String → String) : rewordedElement f = reword f := by
    funext element
    obtain ⟨key, value⟩ := element
    cases key <;> rfl
  have parts : v.Same (type, elements) (type', elements') := ofType.pair same
  simp only [Same, reword, Expr.reworded, rewordedElements_eq_map, each, Expr.composite.injEq]
  exact ⟨ofType, same⟩

theorem Same.function {params params' results results' : List Param} {variadic : Bool}
    {body body' : List Stmt} (takes : v.Same params params') (gives : v.Same results results')
    (does : v.Same body body') :
    v.Same (FuncLit.mk params results variadic body)
      (FuncLit.mk params' results' variadic body') := by
  simp only [Same, reword, FuncLit.reworded, rewordedStmts_eq_map, FuncLit.mk.injEq]
  exact ⟨takes, gives, trivial, does⟩

theorem Same.call {spread : Bool} (callee : v.Same e e') (arguments : v.Same exprs exprs') :
    v.Same (Expr.call e exprs spread) (Expr.call e' exprs' spread) := by
  simp only [Same, reword, Expr.reworded, rewordedExprs_eq_map, Expr.call.injEq]
  exact ⟨callee, arguments, trivial⟩

theorem Same.slice {low low' high high' : Option Expr} (base : v.Same e e')
    (from_ : v.Same low low') (to_ : v.Same high high') :
    v.Same (Expr.slice e low high) (Expr.slice e' low' high') := by
  simp only [Same, reword, Expr.reworded, rewordedExpr?_eq_map, Expr.slice.injEq]
  exact ⟨base, from_, to_⟩

theorem literalType?_reworded (f : String → String) (e : Expr) (level : Int) :
    literalType? (reword f e) level = reword f (literalType? e level) := by
  cases e with
  | name word =>
      change (if _ then _ else _) = Option.map _ (if _ then _ else _)
      split <;> rfl
  | select base field =>
      cases base with
      | name word =>
          change (if _ then _ else _) = Option.map _ (if _ then _ else _)
          split <;> rfl
      | _ => rfl
  | _ => rfl

theorem elidedTypes_reworded (f : String → String) (type : TypeExpr) :
    elidedTypes (reword f type) = reword f (elidedTypes type) := by
  cases type <;> rfl

end

/-- The elements of a composite literal, whose keys and values may elide their types. -/
def elementsTo (g : Grammar) (keyType elementType : Option TypeExpr) :
    Parser (List (Option Expr × Expr)) :=
  itemsTo .rBrace "\x7d" fun _ => do
    let first ← element g (keyType <|> elementType)
    if ← eat .colon then return (some first, ← element g elementType)
    else pure (none, first)

theorem composite_eq (type : TypeExpr) : Parser.composite g type =
    nested (withLevel (fun _ => 1) do
      expect .lBrace "\x7b"
      return .composite type (← elementsTo g (elidedTypes type).1 (elidedTypes type).2)) := by
  rfl

/-! ## Operands -/

section

variable (grammars : v.Grammars g g')

include grammars

theorem functionLiteral_parallel : v.Parallel v.Same (functionLiteral g) (functionLiteral g') := by
  unfold functionLiteral
  refine (params_parallel grammars.type).andThen fun takes takes' same => ?_
  obtain ⟨parameters, variadic⟩ := takes
  obtain ⟨parameters', variadic'⟩ := takes'
  obtain rfl : variadic' = variadic := same.snd
  refine (results_parallel grammars.type).andThen fun outcome outcome' gives => ?_
  refine (atMark_parallel _).thenEq fun _ => .cond (fun _ => ?_) fun _ => .pure rfl
  refine (withLevel_parallel _ grammars.block).andThen fun body body' does => .pure ?_
  exact congrArg Expr.function (Same.function same.fst gives does)

theorem operand_parallel : v.Parallel v.Same (operand g) (operand g') := by
  unfold operand
  refine .peekName (fun word => .advanceThen (.pure rfl)) fun t other => ?_
  split
  · exact .advanceThen (.pure rfl)
  · exact .advanceThen (.pure rfl)
  · exact .advanceThen (.pure rfl)
  · exact .advanceThen (.pure rfl)
  · cases other
  · refine .advanceThen ((inBrackets_parallel grammars.expr).andThen fun e e' same => ?_)
    exact (expect_parallel _ _).thenEq fun _ => .pure same
  · exact .advanceThen (functionLiteral_parallel grammars)
  · exact (type_parallel grammars.type).andThen fun _ _ same => .pure (congrArg Expr.type same)
  · exact (type_parallel grammars.type).andThen fun _ _ same => .pure (congrArg Expr.type same)
  · exact (type_parallel grammars.type).andThen fun _ _ same => .pure (congrArg Expr.type same)
  · exact (type_parallel grammars.type).andThen fun _ _ same => .pure (congrArg Expr.type same)
  · exact .unexpected

theorem optional_parallel : v.Parallel v.Same (some <$> g.expr) (some <$> g'.expr) :=
  .map grammars.expr fun _ _ same => same.some

theorem indexOrSlice_parallel {base base' : Expr} (same : v.Same base base') :
    v.Parallel v.Same (indexOrSlice g base) (indexOrSlice g' base') := by
  unfold indexOrSlice
  refine (atMark_parallel _).thenEq fun _ => .join (fun _ => .pure rfl)
    (fun _ => optional_parallel grammars) fun low low' sameLow => ?_
  refine (eat_parallel _).thenEq fun _ => .cond (fun _ => ?_) fun _ => ?_
  · refine (atMark_parallel _).thenEq fun _ => .join (fun _ => .pure rfl)
      (fun _ => optional_parallel grammars) fun high high' sameHigh => ?_
    refine (atMark_parallel _).thenEq fun _ => .cond (fun _ => .failThen) fun _ => ?_
    exact .pure (same.slice sameLow sameHigh)
  · rcases sameLow.option with ⟨rfl, rfl⟩ | ⟨key, key', rfl, rfl, sameKey⟩
    · exact .fail
    · exact .pure (congrArg₂ Expr.index same sameKey)

theorem callArguments_parallel : v.Parallel v.Same (callArguments g) (callArguments g') := by
  unfold callArguments
  refine (itemsTo_parallel _ _ fun _ _ _ => grammars.expr.andThen fun e e' same => ?_).andThen
    fun arguments arguments' same => .pure ?_
  · exact (eat_parallel _).thenEq fun _ => .pure (same.pair rfl)
  · have spread : arguments'.any Prod.snd = arguments.any Prod.snd := by
      refine same.observe (f := fun arguments => arguments.any Prod.snd) fun words arguments => ?_
      change (List.map _ arguments).any _ = _
      rw [List.any_map]
      rfl
    rw [spread]
    exact (Same.map (fun _ _ same => same.fst) same).pair rfl

theorem element_parallel {elided elided' : Option TypeExpr} (same : v.Same elided elided') :
    v.Parallel v.Same (element g elided) (element g' elided') := by
  unfold element
  refine (atMark_parallel _).thenEq fun _ => .cond (fun _ => ?_) fun _ => grammars.expr
  rcases same.option with ⟨rfl, rfl⟩ | ⟨type, type', rfl, rfl, sameType⟩
  · exact .fail
  cases type with
  | pointer target =>
      cases type' with
      | pointer target' =>
          refine (grammars.composite (TypeExpr.pointer.inj sameType)).andThen
            fun _ _ same => .pure ?_
          exact congrArg (Expr.unary .addr) same
      | _ => cases sameType
  | _ =>
      cases type' with
      | pointer => cases sameType
      | _ => exact grammars.composite sameType

theorem elementsTo_parallel {keyType keyType' elementType elementType' : Option TypeExpr}
    (key : v.Same keyType keyType') (value : v.Same elementType elementType') :
    v.Parallel v.Same (elementsTo g keyType elementType) (elementsTo g' keyType' elementType') := by
  have first : v.Same (keyType <|> elementType) (keyType' <|> elementType') := by
    rcases key.option with ⟨rfl, rfl⟩ | ⟨key, key', rfl, rfl, same⟩
    · exact value
    · exact same.some
  refine itemsTo_parallel _ _ fun _ _ _ => ?_
  refine (element_parallel grammars first).andThen fun e e' sameFirst => ?_
  refine (eat_parallel _).thenEq fun _ => .cond (fun _ => ?_) fun _ => ?_
  · refine (element_parallel grammars value).andThen fun _ _ sameSecond => .pure ?_
    exact sameFirst.some.pair sameSecond
  · exact .pure (Same.pair rfl sameFirst)

theorem composite_parallel {type type' : TypeExpr} (same : v.Same type type') :
    v.Parallel v.Same (Parser.composite g type) (Parser.composite g' type') := by
  have elided : v.Same (elidedTypes type) (elidedTypes type') :=
    same.apply fun words type => (elidedTypes_reworded words type).symm
  rw [composite_eq, composite_eq]
  refine nested_parallel (withLevel_parallel _ ((expect_parallel _ _).thenEq fun _ => ?_))
  refine (elementsTo_parallel grammars elided.fst elided.snd).andThen fun _ _ elements => .pure ?_
  exact same.composite elements

/-! ## Behind operands -/

theorem selector_parallel {base base' : Expr} (same : v.Same base base') :
    v.Parallel v.Same (selector g base) (selector g' base') := by
  unfold selector
  refine (eat_parallel _).thenEq fun _ => .cond (fun _ => ?_) fun _ => ?_
  · refine (eatKeyword_parallel _).thenEq fun _ =>
      .join (fun _ => .pure ?_) (fun _ => grammars.type) fun type type' sameType => ?_
    · exact congrArg TypeExpr.named ((v.keeps "type" List.mem_cons_self "type").mpr rfl).symm
    · refine (expect_parallel _ _).thenEq fun _ => .pure ?_
      exact congrArg₂ Expr.assert same sameType
  · exact name_parallel.andThen fun _ _ field => .pure (congrArg₂ Expr.select same field)

theorem literalBehind_parallel {base base' : Expr} (same : v.Same base base') (level : Int) :
    v.Parallel v.Same
      (match literalType? base level with
        | some type => some <$> Parser.composite g type
        | none => pure none)
      (match literalType? base' level with
        | some type => some <$> Parser.composite g' type
        | none => pure none) := by
  have same : v.Same (literalType? base level) (literalType? base' level) :=
    same.apply (f := (literalType? · level)) fun words e =>
      (literalType?_reworded words e level).symm
  rcases same.option with ⟨none, none'⟩ | ⟨type, type', some, some', sameType⟩
  · rw [none, none']
    exact .pure rfl
  · rw [some, some']
    exact .map (composite_parallel grammars sameType) fun _ _ same => same.some

theorem postfix?_parallel {base base' : Expr} (same : v.Same base base') :
    v.Parallel v.Same (postfix? g base) (postfix? g' base') := by
  unfold postfix?
  refine .peekBlind (fun _ _ => rfl) fun t => ?_
  split
  · exact .advanceThen (.map (selector_parallel grammars same) fun _ _ same => same.some)
  · refine .advanceThen ((inBrackets_parallel (indexOrSlice_parallel grammars same)).andThen ?_)
    intro e e' same
    exact (expect_parallel _ _).thenEq fun _ => .pure same.some
  · refine .advanceThen ((inBrackets_parallel (callArguments_parallel grammars)).andThen ?_)
    rintro ⟨arguments, spread⟩ ⟨arguments', spread'⟩ given
    obtain rfl : spread' = spread := given.snd
    exact .pure (same.call given.fst).some
  · exact .levelThen fun level => literalBehind_parallel grammars same level
  · exact .pure rfl

theorem postfix?_consumes {base base' e : Expr} (same : v.Same base base') {s s' : Reading}
    (ran : postfix? g base s = .ok (some e) s') (left : 2 ≤ s'.rest.length) :
    s'.rest.length < s.rest.length := by
  unfold postfix? at ran
  obtain ⟨t, _, peeked, ran⟩ := bind_ok ran
  obtain ⟨isFirst, rfl⟩ := peek_ok peeked
  split at ran
  · obtain ⟨_, between, advanced, ran⟩ := bind_ok ran
    have selected : v.Parallel v.Same (some <$> selector g base) (some <$> selector g' base') :=
      .map (selector_parallel grammars same) fun _ _ same => same.some
    exact shorter_of_behindFirst (advance_ok advanced ▸ selected.shrinks ran) left
  · obtain ⟨_, between, advanced, ran⟩ := bind_ok ran
    obtain ⟨_, behind, inside, ran⟩ := bind_ok ran
    obtain ⟨_, _, closed, ran⟩ := bind_ok ran
    obtain ⟨_, rfl⟩ := pure_ok ran
    have closing := (expect_parallel (v := v) _ _).shrinks closed
    have indexed := (inBrackets_parallel (indexOrSlice_parallel grammars same)).shrinks inside
    exact shorter_of_behindFirst (advance_ok advanced ▸ Nat.le_trans closing indexed) left
  · obtain ⟨_, between, advanced, ran⟩ := bind_ok ran
    obtain ⟨_, _, inside, ran⟩ := bind_ok ran
    obtain ⟨_, rfl⟩ := pure_ok ran
    have called := (inBrackets_parallel (callArguments_parallel grammars)).shrinks inside
    exact shorter_of_behindFirst (advance_ok advanced ▸ called) left
  · obtain ⟨_, _, got, ran⟩ := bind_ok ran
    cases got
    cases literal : literalType? base s.level with
    | none =>
        rw [literal] at ran
        obtain ⟨none, _⟩ := pure_ok ran
        cases none
    | some type =>
        simp only [literal, map_eq_pure_bind] at ran
        obtain ⟨_, _, read, ran⟩ := bind_ok ran
        obtain ⟨_, rfl⟩ := pure_ok ran
        rw [composite_eq] at read
        obtain ⟨_, _, deeper, rfl⟩ := nested_ok read
        obtain ⟨_, inside, rfl⟩ := withLevel_ok deeper
        obtain ⟨_, _, opening, behind⟩ := bind_ok inside
        obtain ⟨_, _, elements, finished⟩ := bind_ok behind
        obtain ⟨_, rfl⟩ := pure_ok finished
        have elided := (Same.of_total v type).apply fun words type =>
          (elidedTypes_reworded words type).symm
        have shorter := (elementsTo_parallel grammars elided.fst elided.snd).shrinks elements
        obtain ⟨_, rfl⟩ := expect_ok opening
        exact shorter_of_behindFirst shorter left
  · obtain ⟨none, _⟩ := pure_ok ran
    cases none

theorem postfixes_shrinks : ∀ (rounds : Nat) {base e : Expr} {s s' : Reading},
    postfixes g rounds base s = .ok e s' → s'.rest.length ≤ s.rest.length := by
  intro rounds
  induction rounds with
  | zero =>
      intro base e s s' ran
      exact (fail_ok ran).elim
  | succ rounds ih =>
      intro base e s s' ran
      unfold postfixes at ran
      obtain ⟨more, between, once, ran⟩ := bind_ok ran
      have shorter := (postfix?_parallel grammars (Same.of_total v base)).shrinks once
      cases more with
      | none =>
          obtain ⟨_, rfl⟩ := pure_ok ran
          exact shorter
      | some longer => exact Nat.le_trans (ih ran) shorter

/-- There are rounds enough as long as there are more of them than tokens. -/
theorem postfixes_goes : ∀ (rounds rounds' : Nat) {s s' r : Reading} {base base' e : Expr},
    v.Beside s r → v.Same base base' → s.rest.length < rounds → r.rest.length < rounds' →
    postfixes g rounds base s = .ok e s' → v.behind.length ≤ s'.rest.length →
    ∃ e' r', postfixes g' rounds' base' r = .ok e' r' ∧ v.Beside s' r' ∧ v.Same e e' := by
  intro rounds
  induction rounds with
  | zero => exact fun _ _ _ _ _ _ _ _ _ fewer => absurd fewer (Nat.not_lt_zero _)
  | succ rounds ih =>
      intro rounds' s s' r base base' e beside same enough enough' ran stays
      obtain ⟨rounds', rfl⟩ := Nat.exists_eq_add_one.mpr (Nat.zero_lt_of_lt enough')
      have two : 2 ≤ v.behind.length := Nat.le_add_left 2 v.others.length
      unfold postfixes at ran ⊢
      obtain ⟨more, between, once, ran⟩ := bind_ok ran
      cases more with
      | none =>
          obtain ⟨rfl, rfl⟩ := pure_ok ran
          obtain ⟨more', between', once', beside', sameMore⟩ :=
            (postfix?_parallel grammars same).goes beside once stays
          rw [bind_eq once']
          cases more' with
          | none => exact ⟨base', between', rfl, beside', same⟩
          | some => cases sameMore
      | some longer =>
          have later := Nat.le_trans stays (postfixes_shrinks grammars rounds ran)
          obtain ⟨more', between', once', beside', sameMore⟩ :=
            (postfix?_parallel grammars same).goes beside once later
          rw [bind_eq once']
          have consumed := postfix?_consumes grammars same once (Nat.le_trans two later)
          have lengths := beside.lengths
          have lengths' := beside'.lengths
          cases more' with
          | none => cases sameMore
          | some longer' =>
              exact ih rounds' beside' (Option.some.inj sameMore) (by omega) (by omega) ran stays

theorem primary_parallel : v.Parallel v.Same (primary g) (primary g') where
  shrinks ran := by
    obtain ⟨base, between, read, ran⟩ := bind_ok ran
    obtain ⟨_, _, got, ran⟩ := bind_ok ran
    cases got
    exact Nat.le_trans (postfixes_shrinks grammars _ ran) ((operand_parallel grammars).shrinks read)
  goes {s s' r a} beside ran stays := by
    obtain ⟨base, between, read, ran⟩ := bind_ok ran
    obtain ⟨_, _, got, ran⟩ := bind_ok ran
    cases got
    have later := Nat.le_trans stays (postfixes_shrinks grammars _ ran)
    obtain ⟨base', between', read', beside', same⟩ :=
      (operand_parallel grammars).goes beside read later
    unfold primary
    rw [bind_eq read']
    exact postfixes_goes grammars _ _ beside' same (Nat.lt_succ_of_le beside'.enough)
      (Nat.lt_succ_of_le beside'.enough') ran stays

/-! ## Operators -/

theorem unary_parallel : v.Parallel v.Same (Parser.unary g) (Parser.unary g') := by
  unfold Parser.unary
  refine nested_parallel (.peekBlind (fun _ _ => rfl) fun t => ?_)
  split
  · exact .fail
  · split
    · exact .advanceThen (grammars.unary.andThen
        fun _ _ same => .pure (congrArg (Expr.unary _) same))
    · exact primary_parallel grammars
  · exact primary_parallel grammars

theorem operators_shrinks (least : Nat) : ∀ (rounds : Nat) {left e : Expr} {s s' : Reading},
    operators g least rounds left s = .ok e s' → s'.rest.length ≤ s.rest.length := by
  intro rounds
  induction rounds with
  | zero =>
      intro left e s s' ran
      exact (fail_ok ran).elim
  | succ rounds ih =>
      intro left e s s' ran
      unfold operators at ran
      obtain ⟨t, _, peeked, ran⟩ := bind_ok ran
      obtain ⟨_, rfl⟩ := peek_ok peeked
      have ended (ran : (pure left : Parser Expr) s = .ok e s') :
          s'.rest.length ≤ s.rest.length := by
        obtain ⟨_, rfl⟩ := pure_ok ran
        exact Nat.le_refl _
      cases t with
      | mark m =>
          cases op : BinaryOp.ofMark? m with
          | none =>
              simp only [op] at ran
              exact ended ran
          | some op' =>
              simp only [op] at ran
              split at ran
              · exact ended ran
              · obtain ⟨_, between, advanced, ran⟩ := bind_ok ran
                obtain ⟨right, behind, read, ran⟩ := bind_ok ran
                have consumed := (advance_parallel (v := v)).shrinks advanced
                exact Nat.le_trans (ih ran)
                  (Nat.le_trans ((grammars.binary _).shrinks read) consumed)
      | _ => exact ended ran

theorem operators_goes (least : Nat) : ∀ (rounds rounds' : Nat) {s s' r : Reading}
    {left left' e : Expr}, v.Beside s r → v.Same left left' → s.rest.length < rounds →
    r.rest.length < rounds' → operators g least rounds left s = .ok e s' →
    v.behind.length ≤ s'.rest.length →
    ∃ e' r', operators g' least rounds' left' r = .ok e' r' ∧ v.Beside s' r' ∧ v.Same e e' := by
  intro rounds
  induction rounds with
  | zero => exact fun _ _ _ _ _ _ _ _ _ fewer => absurd fewer (Nat.not_lt_zero _)
  | succ rounds ih =>
      intro rounds' s s' r left left' e beside same enough enough' ran stays
      obtain ⟨rounds', rfl⟩ := Nat.exists_eq_add_one.mpr (Nat.zero_lt_of_lt enough')
      have two : 2 ≤ v.behind.length := Nat.le_add_left 2 v.others.length
      have ended (ran : (pure left : Parser Expr) s = .ok e s') :
          ∃ e' r', (pure left' : Parser Expr) r = .ok e' r' ∧ v.Beside s' r' ∧ v.Same e e' := by
        obtain ⟨rfl, rfl⟩ := pure_ok ran
        exact ⟨left', r, rfl, beside, same⟩
      unfold operators at ran ⊢
      obtain ⟨t, _, peeked, ran⟩ := bind_ok ran
      obtain ⟨isFirst, rfl⟩ := peek_ok peeked
      rw [bind_eq (peek_eq r), beside.first, isFirst]
      cases t with
      | mark m =>
          simp only [Token.reworded] at ran ⊢
          cases op : BinaryOp.ofMark? m with
          | none =>
              simp only [op] at ran ⊢
              exact ended ran
          | some op' =>
              simp only [op] at ran ⊢
              split at ran
              · rename_i loose
                rw [if_pos loose]
                exact ended ran
              · rename_i tight
                rw [if_neg tight]
                obtain ⟨_, between, advanced, ran⟩ := bind_ok ran
                obtain ⟨right, behind, read, ran⟩ := bind_ok ran
                have later := Nat.le_trans stays (operators_shrinks grammars least rounds ran)
                have shorter := (grammars.binary _).shrinks read
                obtain ⟨_, between', advanced', beside', _⟩ :=
                  advance_parallel.goes beside advanced (Nat.le_trans later shorter)
                obtain ⟨right', behind', read', beside'', sameRight⟩ :=
                  (grammars.binary _).goes beside' read later
                rw [bind_eq advanced', bind_eq read']
                have consumed := shorter_of_behindFirst (advance_ok advanced ▸ shorter)
                  (Nat.le_trans two later)
                have lengths := beside.lengths
                have lengths' := beside''.lengths
                have both : v.Same (Expr.binary op' left right) (Expr.binary op' left' right') :=
                  congrArg₂ (Expr.binary op') same sameRight
                exact ih rounds' beside'' both (by omega) (by omega) ran stays
      | _ => exact ended ran

theorem binary_parallel (least : Nat) :
    v.Parallel v.Same (Parser.binary g least) (Parser.binary g' least) where
  shrinks ran := by
    obtain ⟨left, between, read, ran⟩ := bind_ok ran
    obtain ⟨_, _, got, ran⟩ := bind_ok ran
    cases got
    exact Nat.le_trans (operators_shrinks grammars _ _ ran) ((unary_parallel grammars).shrinks read)
  goes {s s' r a} beside ran stays := by
    obtain ⟨left, between, read, ran⟩ := bind_ok ran
    obtain ⟨_, _, got, ran⟩ := bind_ok ran
    cases got
    have later := Nat.le_trans stays (operators_shrinks grammars _ _ ran)
    obtain ⟨left', between', read', beside', same⟩ :=
      (unary_parallel grammars).goes beside read later
    unfold Parser.binary
    rw [bind_eq read']
    exact operators_goes grammars _ _ _ beside' same (Nat.lt_succ_of_le beside'.enough)
      (Nat.lt_succ_of_le beside'.enough') ran stays

theorem expr_parallel : v.Parallel v.Same (Parser.expr g) (Parser.expr g') :=
  nested_parallel (binary_parallel grammars 1)

theorem exprList_parallel : v.Parallel v.Same (exprList g) (exprList g') :=
  commaSeparated_parallel (expr_parallel grammars)

end

end SandboxedGo.Source.Pair
