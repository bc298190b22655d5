import SandboxedGo.Proofs.ParallelExpressions

/-!
# Statements beside each other

The parsers of statements and declarations go the same way in two texts that begin alike.
-/

set_option autoImplicit false

namespace SandboxedGo.Source

open SandboxedGo.Source.Parser

instance : Worded Simple where
  reword f
    | .stmt s => .stmt (reword f s)
    | .range key value define subject =>
      .range (reword f key) (reword f value) define (reword f subject)
  reword_id f simple := by
    cases simple with
    | stmt s => exact congrArg Simple.stmt (reword_id f s)
    | range key value define subject => simp only [reword_id]

namespace Pair

variable {v : Pair} {g g' : Grammar}

/-! ## Trees from parts -/

section

variable {e e' : Expr} {start start' : Nat}

theorem Same.valueSpec {names names' : List String} {type type' : Option TypeExpr}
    {values values' : List Expr} {iota : Nat} (sameNames : v.Same names names')
    (sameType : v.Same type type') (sameValues : v.Same values values') :
    v.Same (ValueSpec.mk start names type values iota)
      (ValueSpec.mk start' names' type' values' iota) := by
  simp only [Same, reword, ValueSpec.reworded, rewordedExprs_eq_map, ValueSpec.mk.injEq]
  exact ⟨trivial, sameNames, sameType, sameValues, trivial⟩

theorem Same.stmt {kind kind' : StmtKind} (same : v.Same kind kind') :
    v.Same (Stmt.mk start kind) (Stmt.mk start' kind') :=
  congrArg (Stmt.mk 0) same

theorem Same.define {names names' : List String} {values values' : List Expr}
    (sameNames : v.Same names names') (same : v.Same values values') :
    v.Same (StmtKind.define names values) (StmtKind.define names' values') := by
  simp only [Same, reword, StmtKind.reworded, rewordedExprs_eq_map]
  exact congrArg₂ StmtKind.define sameNames same

theorem Same.assign {targets targets' values values' : List Expr}
    (sameTargets : v.Same targets targets') (same : v.Same values values') :
    v.Same (StmtKind.assign targets values) (StmtKind.assign targets' values') := by
  simp only [Same, reword, StmtKind.reworded, rewordedExprs_eq_map]
  exact congrArg₂ StmtKind.assign sameTargets same

theorem Same.block {body body' : List Stmt} (same : v.Same body body') :
    v.Same (StmtKind.block body) (StmtKind.block body') := by
  simp only [Same, reword, StmtKind.reworded, rewordedStmts_eq_map]
  exact congrArg StmtKind.block same

theorem Same.return {values values' : List Expr} (same : v.Same values values') :
    v.Same (StmtKind.return values) (StmtKind.return values') := by
  simp only [Same, reword, StmtKind.reworded, rewordedExprs_eq_map]
  exact congrArg StmtKind.return same

theorem Same.if {init init' otherwise otherwise' : Option Stmt} {body body' : List Stmt}
    (sameInit : v.Same init init') (condition : v.Same e e') (same : v.Same body body')
    (sameOtherwise : v.Same otherwise otherwise') :
    v.Same (StmtKind.if init e body otherwise) (StmtKind.if init' e' body' otherwise') := by
  simp only [Same, reword, StmtKind.reworded, rewordedStmts_eq_map, rewordedStmt?_eq_map,
    StmtKind.if.injEq]
  exact ⟨sameInit, condition, same, sameOtherwise⟩

theorem Same.for {init init' post post' : Option Stmt} {condition condition' : Option Expr}
    {body body' : List Stmt} (sameInit : v.Same init init')
    (sameCondition : v.Same condition condition') (samePost : v.Same post post')
    (same : v.Same body body') :
    v.Same (StmtKind.for init condition post body) (StmtKind.for init' condition' post' body') := by
  simp only [Same, reword, StmtKind.reworded, rewordedStmts_eq_map, rewordedStmt?_eq_map,
    rewordedExpr?_eq_map, StmtKind.for.injEq]
  exact ⟨sameInit, sameCondition, samePost, same⟩

theorem Same.range {key key' value value' : Option Expr} {define : Bool} {body body' : List Stmt}
    (sameKey : v.Same key key') (sameValue : v.Same value value') (subject : v.Same e e')
    (same : v.Same body body') :
    v.Same (StmtKind.range key value define e body)
      (StmtKind.range key' value' define e' body') := by
  simp only [Same, reword, StmtKind.reworded, rewordedStmts_eq_map, rewordedExpr?_eq_map,
    StmtKind.range.injEq]
  exact ⟨sameKey, sameValue, trivial, subject, same⟩

theorem Same.switch {init init' : Option Stmt} {tag tag' : Option Expr}
    {cases cases' : List SwitchCase} (sameInit : v.Same init init') (sameTag : v.Same tag tag')
    (same : v.Same cases cases') :
    v.Same (StmtKind.switch init tag cases) (StmtKind.switch init' tag' cases') := by
  simp only [Same, reword, StmtKind.reworded, rewordedStmt?_eq_map, rewordedExpr?_eq_map,
    rewordedCases_eq_map, StmtKind.switch.injEq]
  exact ⟨sameInit, sameTag, same⟩

theorem Same.typeSwitch {init init' : Option Stmt} {binding binding' : Option String}
    {cases cases' : List TypeCase} (sameInit : v.Same init init')
    (sameBinding : v.Same binding binding') (subject : v.Same e e')
    (same : v.Same cases cases') :
    v.Same (StmtKind.typeSwitch init binding e cases)
      (StmtKind.typeSwitch init' binding' e' cases') := by
  simp only [Same, reword, StmtKind.reworded, rewordedStmt?_eq_map, rewordedTypeCases_eq_map,
    StmtKind.typeSwitch.injEq]
  exact ⟨sameInit, sameBinding, subject, same⟩

theorem Same.switchCase {isDefault : Bool} {values values' : List Expr} {body body' : List Stmt}
    (sameValues : v.Same values values') (same : v.Same body body') :
    v.Same (SwitchCase.mk isDefault values body) (SwitchCase.mk isDefault values' body') := by
  simp only [Same, reword, SwitchCase.reworded, rewordedStmts_eq_map, rewordedExprs_eq_map]
  exact congrArg₂ (SwitchCase.mk isDefault) sameValues same

theorem Same.typeCase {isDefault : Bool} {types types' : List (Option TypeExpr)}
    {body body' : List Stmt} (sameTypes : v.Same types types') (same : v.Same body body') :
    v.Same (TypeCase.mk isDefault types body) (TypeCase.mk isDefault types' body') := by
  simp only [Same, reword, TypeCase.reworded, rewordedStmts_eq_map]
  exact congrArg₂ (TypeCase.mk isDefault) sameTypes same

theorem Same.exprKind {kind kind' : StmtKind} (same : v.Same kind kind') :
    (∃ e e', kind = .expr e ∧ kind' = .expr e' ∧ v.Same e e') ∨
      (∀ e, kind ≠ .expr e) ∧ ∀ e', kind' ≠ .expr e' := by
  cases kind with
  | expr e =>
      cases kind' with
      | expr e' => exact .inl ⟨e, e', rfl, rfl, StmtKind.expr.inj same⟩
      | _ => cases same
  | _ =>
      refine .inr ⟨nofun, ?_⟩
      rintro e' rfl
      cases same

theorem numberConstants_reworded (f : String → String) :
    ∀ (specs : List ValueSpec) (previous : Option (Option TypeExpr × List Expr)) (iota : Nat),
      numberConstants (reword f previous) iota (reword f specs) =
        reword f (numberConstants previous iota specs) := by
  intro specs
  induction specs with
  | nil => exact fun _ _ => rfl
  | cons spec rest ih =>
      intro previous iota
      obtain ⟨start, names, type, values, place⟩ := spec
      cases values with
      | nil =>
          cases previous with
          | none =>
              refine congrArg₂ List.cons ?_ (ih none (iota + 1))
              rfl
          | some given =>
              refine congrArg₂ List.cons ?_ (ih (some given) (iota + 1))
              obtain ⟨type', values'⟩ := given
              simp [reword, ValueSpec.reworded]
      | cons e more =>
          have others := ih (some (type, e :: more)) (iota + 1)
          cases previous <;>
          · simp only [reword, List.map_cons, ValueSpec.reworded, rewordedExprs_eq_map,
              numberConstants, Option.map_some, Option.map_none, Prod.map_apply] at others ⊢
            rw [others]

theorem definedNames_reworded (f : String → String) (targets : List Expr) :
    definedNames (reword f targets) = reword f (definedNames targets) := by
  induction targets with
  | nil => rfl
  | cons target rest ih =>
      cases target with
      | name word =>
          simp only [reword, List.map_cons, Expr.reworded, definedNames] at ih ⊢
          rw [ih, Option.map_map, Option.map_map]
          rfl
      | _ => rfl

end

/-! ## Declarations of values -/

section

variable (grammars : v.Grammars g g')

include grammars

theorem valueSpec_parallel (isConst : Bool) :
    v.Parallel v.Same (valueSpec g isConst) (valueSpec g' isConst) := by
  unfold valueSpec
  refine line_parallel.thenAny fun start start' => ?_
  refine (commaSeparated_parallel name_parallel).andThen fun names names' sameNames => ?_
  refine .peekBlind (fun _ _ => rfl) fun t => ?_
  split
  all_goals
    first
    | refine .andThen (.pure (a := none) rfl) fun type type' sameType => ?_
    | refine .andThen (.map (type_parallel grammars.type) fun _ _ same => same.some)
        fun type type' sameType => ?_
    refine (eat_parallel _).thenEq fun _ => .join (fun _ => exprList_parallel grammars)
      (fun _ => .pure rfl) fun values values' sameValues => ?_
    simp only [sameType.isNone, sameValues.isEmpty]
    refine .cond (fun _ => .failThen) fun _ => .pure ?_
    exact .valueSpec sameNames sameType sameValues

theorem valueSpecs_parallel (isConst : Bool) :
    v.Parallel v.Same (valueSpecs g isConst) (valueSpecs g' isConst) := by
  unfold valueSpecs
  refine (eat_parallel _).thenEq fun _ => .cond (fun _ => ?_) fun _ => ?_
  · refine (entriesTo_parallel _ (valueSpec_parallel grammars isConst)).andThen
      fun specs specs' same => .pure ?_
    cases isConst with
    | false => exact same
    | true =>
        have each (f : String → String) (specs : List ValueSpec) :=
          (numberConstants_reworded f specs none 0).symm
        exact same.apply each
  · exact (valueSpec_parallel grammars isConst).andThen fun _ _ same => .pure (same.cons rfl)

theorem typeSpec_parallel : v.Parallel v.Same (typeSpec g) (typeSpec g') := by
  unfold typeSpec
  refine name_parallel.andThen fun word word' same => (eat_parallel _).thenEq fun _ => ?_
  refine (type_parallel grammars.type).andThen fun _ _ sameType => .pure ?_
  exact congrArg₂ TypeSpec.mk same sameType

theorem typeSpecs_parallel : v.Parallel v.Same (typeSpecs g) (typeSpecs g') := by
  unfold typeSpecs
  refine (eat_parallel _).thenEq fun _ => .cond (fun _ => ?_) fun _ => ?_
  · exact entriesTo_parallel _ (typeSpec_parallel grammars)
  · exact (typeSpec_parallel grammars).andThen fun _ _ same => .pure (same.cons rfl)

/-! ## Simple statements -/

omit grammars in
theorem single_parallel {exprs exprs' : List Expr} (same : v.Same exprs exprs') :
    v.Parallel v.Same (single exprs) (single exprs') := by
  have length := same.length
  match exprs, exprs', length with
  | [], [], _ => exact .fail
  | [e], [e'], _ => exact .pure (List.cons.inj same).1
  | _ :: _ :: _, _ :: _ :: _, _ => exact .fail

theorem definition_parallel (start start' : Nat) (rangeAllowed isDefine : Bool)
    {targets targets' : List Expr} (same : v.Same targets targets') :
    v.Parallel v.Same (definition g start rangeAllowed isDefine targets)
      (definition g' start' rangeAllowed isDefine targets') := by
  unfold definition
  extract_lets onward ranged onward' ranged'
  have onwards : v.Parallel v.Same (onward ()) (onward' ()) := by
    refine (exprList_parallel grammars).andThen fun values values' sameValues => ?_
    refine .cond (fun _ => ?_) fun _ => .pure ?_
    · have names : v.Same (definedNames targets) (definedNames targets') :=
        same.apply fun f targets => (definedNames_reworded f targets).symm
      rcases names.option with ⟨none, none'⟩ | ⟨names, names', some, some', sameNames⟩
      · rw [none, none']
        exact .fail
      · rw [some, some']
        exact .pure (congrArg Simple.stmt (Same.define sameNames sameValues).stmt)
    · exact congrArg Simple.stmt (Same.assign same sameValues).stmt
  refine .cond (fun _ => (eatKeyword_parallel _).thenEq fun _ => ?_) fun _ => onwards
  refine .cond (fun _ => ?_) fun _ => onwards
  rw [same.length]
  refine .cond (fun _ => .failThen) fun _ => ?_
  refine (expr_parallel grammars).andThen fun e e' sameSubject => .pure ?_
  have keys := same.getElem? 0
  have values := same.getElem? 1
  simp only [Same] at keys values sameSubject
  simp only [Same, reword, Simple.range.injEq]
  exact ⟨keys, values, trivial, sameSubject⟩

theorem simple_parallel (rangeAllowed : Bool) :
    v.Parallel v.Same (simple g rangeAllowed) (simple g' rangeAllowed) := by
  unfold simple
  refine line_parallel.thenAny fun start start' => ?_
  extract_lets onward onward'
  have onwards : v.Parallel v.Same (onward ()) (onward' ()) := by
    refine (exprList_parallel grammars).andThen fun targets targets' same => ?_
    have only {kind kind' : Expr → StmtKind}
        (alike : ∀ e e', v.Same e e' → v.Same (kind e) (kind' e')) :
        v.Parallel v.Same (do return .stmt (.mk start (kind (← single targets))) : Parser Simple)
          (do return .stmt (.mk start' (kind' (← single targets')))) :=
      (single_parallel same).andThen
        fun e e' same => .pure (congrArg Simple.stmt (alike e e' same).stmt)
    refine .peekBlind (fun _ _ => rfl) fun t => ?_
    split
    · exact .advanceThen (definition_parallel grammars _ _ _ _ same)
    · exact .advanceThen (definition_parallel grammars _ _ _ _ same)
    · exact .advanceThen (only fun _ _ same => congrArg StmtKind.increment same)
    · exact .advanceThen (only fun _ _ same => congrArg StmtKind.decrement same)
    · split
      · refine .advanceThen ((single_parallel same).andThen fun _ _ target => ?_)
        refine (expr_parallel grammars).andThen fun _ _ value => .pure ?_
        exact congrArg Simple.stmt (Same.stmt (congrArg₂ (StmtKind.opAssign _) target value))
      · exact only fun _ _ same => congrArg StmtKind.expr same
    · exact only fun _ _ same => congrArg StmtKind.expr same
  refine .cond (fun _ => (eatKeyword_parallel _).thenEq fun _ => ?_) fun _ => onwards
  refine .cond (fun _ => ?_) fun _ => onwards
  exact (expr_parallel grammars).andThen
    fun _ _ same => .pure (congrArg (Simple.range none none false) same)

theorem plain_parallel (fault : Fault) : v.Parallel v.Same (plain g fault) (plain g' fault) := by
  unfold plain
  refine (simple_parallel grammars false).andThen fun s s' same => ?_
  cases s with
  | stmt s =>
      cases s' with
      | stmt s' => exact .pure (Simple.stmt.inj same)
      | _ => cases same
  | _ => exact .fail

/-! ## Conditions and loops -/

omit grammars in
theorem Same.kind {s s' : Stmt} (same : v.Same s s') : v.Same s.kind s'.kind := by
  obtain ⟨line, kind⟩ := s
  obtain ⟨line', kind'⟩ := s'
  exact (Stmt.mk.inj same).2

theorem ifHeader_parallel : v.Parallel v.Same (ifHeader g) (ifHeader g') := by
  unfold ifHeader
  refine (plain_parallel grammars _).andThen fun first first' same => ?_
  refine (eat_parallel _).thenEq fun _ => .cond (fun _ => ?_) fun _ => ?_
  · exact (expr_parallel grammars).andThen fun _ _ condition => .pure (same.some.pair condition)
  · rcases same.kind.exprKind with ⟨e, e', kind, kind', condition⟩ | ⟨other, other'⟩
    · rw [kind, kind']
      exact .pure (Same.pair rfl condition)
    · split
      · rename_i e kind
        exact absurd kind (other e)
      · exact .fail

theorem elseBranch_parallel : v.Parallel v.Same (elseBranch g) (elseBranch g') := by
  unfold elseBranch
  refine line_parallel.thenAny fun start start' => .peekBlind (fun _ _ => rfl) fun t => ?_
  split
  · exact grammars.ifStmt
  · exact grammars.block.andThen fun _ _ same => .pure same.block.stmt
  · exact .unexpected

theorem ifStmt_parallel : v.Parallel v.Same (Parser.ifStmt g) (Parser.ifStmt g') := by
  unfold Parser.ifStmt
  refine line_parallel.thenAny fun start start' => (eatKeyword_parallel _).thenEq fun _ => ?_
  refine .cond (fun _ => ?_) fun _ => .unexpectedThen
  refine (inHeader_parallel (ifHeader_parallel grammars)).andThen fun header header' same => ?_
  obtain ⟨init, condition⟩ := header
  obtain ⟨init', condition'⟩ := header'
  refine grammars.block.andThen
    fun body body' sameBody => (eatKeyword_parallel _).thenEq fun _ => ?_
  refine .join (fun _ => .map (elseBranch_parallel grammars) fun _ _ same => same.some)
    (fun _ => .pure rfl) fun otherwise otherwise' sameOtherwise => .pure ?_
  exact (Same.if same.fst same.snd sameBody sameOtherwise).stmt

/-- What the headers of two loops make of bodies that are the same. -/
def SameHeader (v : Pair) (header header' : List Stmt → StmtKind) : Prop :=
  ∀ body body', v.Same body body' → v.Same (header body) (header' body')

theorem loopClauses_parallel {init init' : Option Stmt} (same : v.Same init init') :
    v.Parallel v.SameHeader (loopClauses g init) (loopClauses g' init') := by
  unfold loopClauses
  refine (atMark_parallel _).thenEq fun _ => .join (fun _ => .pure rfl)
    (fun _ => .map (expr_parallel grammars) fun _ _ same => same.some)
    fun condition condition' sameCondition => ?_
  refine (expect_parallel _ _).thenEq fun _ => (atMark_parallel _).thenEq fun _ => ?_
  refine .join (fun _ => .pure rfl)
    (fun _ => .map (plain_parallel grammars _) fun _ _ same => same.some)
    fun post post' samePost => .pure ?_
  exact fun body body' sameBody => .for same sameCondition samePost sameBody

theorem forHeader_parallel : v.Parallel v.SameHeader (forHeader g) (forHeader g') := by
  unfold forHeader
  refine (atMark_parallel _).thenEq fun _ => .cond (fun _ => .pure ?_) fun _ => ?_
  · exact fun body body' same => .for rfl rfl rfl same
  refine (eat_parallel _).thenEq fun _ => .cond (fun _ => ?_) fun _ => ?_
  · exact loopClauses_parallel grammars rfl
  refine (simple_parallel grammars true).andThen fun s s' same => ?_
  cases s with
  | range key value define subject =>
      cases s' with
      | range key' value' define' subject' =>
          simp only [Same, reword, Simple.range.injEq] at same
          obtain ⟨sameKey, sameValue, rfl, sameSubject⟩ := same
          exact .pure fun body body' same => .range sameKey sameValue sameSubject same
      | _ => cases same
  | stmt first =>
      cases s' with
      | range => cases same
      | stmt first' =>
          have same : v.Same first first' := Simple.stmt.inj same
          refine (eat_parallel _).thenEq fun _ => .cond (fun _ => ?_) fun _ => ?_
          · exact loopClauses_parallel grammars same.some
          rcases same.kind.exprKind with ⟨e, e', kind, kind', condition⟩ | ⟨other, other'⟩
          · rw [kind, kind']
            exact .pure fun body body' same => .for rfl condition.some rfl same
          · split
            · rename_i e kind
              exact absurd kind (other e)
            · exact .fail

theorem forStmt_parallel : v.Parallel v.Same (forStmt g) (forStmt g') := by
  unfold forStmt
  refine line_parallel.thenAny fun start start' => (eatKeyword_parallel _).thenEq fun _ => ?_
  refine .cond (fun _ => ?_) fun _ => .unexpectedThen
  refine (inHeader_parallel (forHeader_parallel grammars)).bindShrinking ?_ ?_
  · intro header s s' loop ran
    obtain ⟨body, _, read, ran⟩ := bind_ok ran
    obtain ⟨_, rfl⟩ := pure_ok ran
    exact grammars.block.shrinks read
  · exact fun header header' same =>
      grammars.block.andThen fun _ _ body => .pure (same _ _ body).stmt

/-! ## Switches -/

theorem switchHeader_parallel : v.Parallel v.Same (switchHeader g) (switchHeader g') := by
  unfold switchHeader
  have some_ : v.Parallel v.Same (some <$> plain g .unexpectedRange)
      (some <$> plain g' .unexpectedRange) :=
    .map (plain_parallel grammars _) fun _ _ same => same.some
  refine (atMark_parallel _).thenEq fun _ => .cond (fun _ => .pure rfl) fun _ => ?_
  refine (atMark_parallel _).thenEq fun _ => .join (fun _ => .pure rfl) (fun _ => some_)
    fun first first' same => ?_
  refine (eat_parallel _).thenEq fun _ => .cond (fun _ => ?_) fun _ => ?_
  · refine (atMark_parallel _).thenEq fun _ => .join (fun _ => .pure rfl) (fun _ => some_)
      fun tag tag' sameTag => .pure ?_
    exact same.pair sameTag
  · exact .pure (Same.pair rfl same)

/-- The subject of a type guard. -/
def guarded? : Expr → Option Expr
  | .assert subject (.named word) => if word = "type" then some subject else none
  | _ => none

omit grammars in
theorem guarded?_same {e e' : Expr} (same : v.Same e e') : v.Same (guarded? e) (guarded? e') := by
  cases e with
  | assert subject type =>
      cases e' with
      | assert subject' type' =>
          obtain ⟨sameSubject, sameType⟩ := Expr.assert.inj same
          cases type with
          | named word =>
              cases type' with
              | named word' =>
                  obtain rfl : word' = v.words word := TypeExpr.named.inj sameType
                  simp only [guarded?, v.keeps "type" List.mem_cons_self word]
                  split
                  · exact congrArg some sameSubject
                  · rfl
              | _ => cases sameType
          | _ =>
              cases type' with
              | named => cases sameType
              | _ => rfl
      | _ => cases same
  | _ =>
      cases e' with
      | assert => cases same
      | _ => rfl

omit grammars in
theorem typeGuard?_expr (e : Expr) :
    typeGuard? (some (.expr e)) = pure ((guarded? e).map fun subject => (none, subject)) := by
  cases e with
  | assert subject type =>
      cases type with
      | named word =>
          by_cases isType : word = "type"
          · subst isType
            rfl
          · simp [typeGuard?, guarded?, isType]
      | _ => rfl
  | _ => rfl

omit grammars in
theorem typeGuard?_define (word : String) (e : Expr) :
    typeGuard? (some (.define [word] [e])) =
      match guarded? e with
      | some subject => pure (some (some word, subject))
      | none => fail .switchHeader := by
  cases e with
  | assert subject type =>
      cases type with
      | named word' =>
          by_cases isType : word' = "type"
          · subst isType
            rfl
          · simp [typeGuard?, guarded?, isType]
      | _ => rfl
  | _ => rfl

omit grammars in
theorem typeGuard?_several (word : String) (e e' : Expr) (rest : List Expr) :
    typeGuard? (some (.define [word] (e :: e' :: rest))) = pure none := by
  simp [typeGuard?]

omit grammars in
theorem typeGuard?_define_parallel {names names' : List String} {values values' : List Expr}
    (sameNames : v.Same names names') (sameValues : v.Same values values') :
    v.Parallel v.Same (typeGuard? (some (.define names values)))
      (typeGuard? (some (.define names' values'))) := by
  match names, names', sameNames.length, values, values', sameValues.length with
  | [word], [word'], _, [e], [e'], _ =>
      have sameWord : v.Same word word' := (List.cons.inj sameNames).1
      have same : v.Same e e' := (List.cons.inj sameValues).1
      rw [typeGuard?_define, typeGuard?_define]
      rcases (guarded?_same same).option with
        ⟨none, none'⟩ | ⟨subject, subject', some, some', same⟩
      · rw [none, none']
        exact .fail
      · rw [some, some']
        exact .pure (sameWord.some.pair same).some
  | [_], [_], _, [], [], _ => exact .pure rfl
  | [_], [_], _, _ :: _ :: _, _ :: _ :: _, _ =>
      rw [typeGuard?_several, typeGuard?_several]
      exact .pure rfl
  | [], [], _, _, _, _ => exact .pure rfl
  | _ :: _ :: _, _ :: _ :: _, _, _, _, _ => exact .pure rfl

omit grammars in
theorem typeGuard?_parallel {tag tag' : Option StmtKind} (same : v.Same tag tag') :
    v.Parallel v.Same (typeGuard? tag) (typeGuard? tag') := by
  rcases same.option with ⟨rfl, rfl⟩ | ⟨kind, kind', rfl, rfl, sameKind⟩
  · exact .pure rfl
  cases kind with
  | expr e =>
      cases kind' with
      | expr e' =>
          rw [typeGuard?_expr, typeGuard?_expr]
          rcases (guarded?_same (StmtKind.expr.inj sameKind)).option with
            ⟨none, none'⟩ | ⟨subject, subject', some, some', same⟩
          · rw [none, none']
            exact .pure rfl
          · rw [some, some']
            have none_ : v.Same (none : Option String) none := rfl
            exact .pure (none_.pair same).some
      | _ => cases sameKind
  | define names values =>
      cases kind' with
      | define names' values' =>
          simp only [Same, reword, StmtKind.reworded, rewordedExprs_eq_map,
            StmtKind.define.injEq] at sameKind
          obtain ⟨sameNames, sameValues⟩ := sameKind
          exact typeGuard?_define_parallel sameNames sameValues
      | _ => cases sameKind
  | _ =>
      cases kind' with
      | expr | define => cases sameKind
      | _ => exact .pure rfl

theorem stmtsTo_parallel (ends : Token → Bool)
    (blind : ∀ word word', ends (.name word) = ends (.name word')) :
    v.Parallel v.Same (stmtsTo g ends) (stmtsTo g' ends) := by
  unfold stmtsTo
  refine (collect_parallel ?_).andThen fun _ _ same => .pure same.flatten
  refine skipSemicolons_parallel.thenEq fun _ => .peekBlind (fun word word' => ?_) fun t => ?_
  · simp only [blind word word']
  split
  · exact .pure rfl
  refine .cond (fun _ => .pure rfl) fun _ => grammars.stmts.andThen fun group group' same => ?_
  refine .peekBlind (fun word word' => ?_) fun t => ?_
  · simp only [blind word word']
  refine .cond (fun _ => .pure (congrArg Piece.more same)) fun _ => ?_
  exact endOfStatement_parallel.thenEq fun _ => .pure (congrArg Piece.more same)

theorem caseType_parallel : v.Parallel v.Same (caseType g) (caseType g') := by
  unfold caseType
  have typed : v.Parallel v.Same (some <$> Parser.type g) (some <$> Parser.type g') :=
    .map (type_parallel grammars.type) fun _ _ same => same.some
  refine .peekName (fun word => ?_) fun t other => ?_
  · have isNil : v.words word = "nil" ↔ word = "nil" := v.keeps "nil" (by decide) word
    by_cases nil : word = "nil"
    · subst nil
      rw [isNil.mpr rfl]
      exact .advanceThen (.pure rfl)
    · have nil' := mt isNil.mp nil
      split
      · rename_i same
        exact absurd (Token.name.inj same) nil
      · split
        · rename_i same
          exact absurd (Token.name.inj same) nil'
        · exact typed
  · split
    · cases other
    · exact typed

theorem cases_parallel {α β : Type} [Worded α] [Worded β] {labels labels' : Parser (List α)}
    (make : Bool → List α → List Stmt → β) (sameLabels : v.Parallel v.Same labels labels')
    (made : ∀ isDefault {values values' : List α} {body body' : List Stmt}, v.Same values values' →
      v.Same body body' → v.Same (make isDefault values body) (make isDefault values' body')) :
    v.Parallel v.Same (cases g labels make) (cases g' labels' make) := by
  unfold cases
  refine collect_parallel (skipSemicolons_parallel.thenEq fun _ => ?_)
  refine (eat_parallel _).thenEq fun _ => .cond (fun _ => .pure rfl) fun _ => ?_
  refine (eatKeyword_parallel _).thenEq fun isDefault => ?_
  extract_lets onward labelled onward' labelled'
  have onwards {values values' : List α} (same : v.Same values values') :
      v.Parallel v.Same (onward values) (onward' values') := by
    refine (expect_parallel _ _).thenEq fun _ => ?_
    refine (stmtsTo_parallel grammars _ fun _ _ => rfl).andThen fun body body' sameBody => .pure ?_
    exact congrArg Piece.more (made isDefault same sameBody)
  refine .cond (fun _ => ?_) fun _ => ?_
  · have unlabelled : v.Parallel v.Same (pure ([] : List α)) (pure []) := .pure rfl
    exact unlabelled.andThen fun _ _ same => onwards same
  · refine (eatKeyword_parallel _).thenEq fun _ => .cond (fun _ => ?_) fun _ => .unexpectedThen
    exact sameLabels.andThen fun _ _ same => onwards same

theorem switchStmt_parallel : v.Parallel v.Same (switchStmt g) (switchStmt g') := by
  have valueCases := cases_parallel grammars SwitchCase.mk (exprList_parallel grammars)
    fun isDefault {_ _ _ _} sameValues sameBody => .switchCase sameValues sameBody
  have typeCases := cases_parallel grammars TypeCase.mk
    (commaSeparated_parallel (caseType_parallel grammars))
    fun isDefault {_ _ _ _} sameTypes sameBody => .typeCase sameTypes sameBody
  unfold switchStmt
  refine line_parallel.thenAny fun start start' => (eatKeyword_parallel _).thenEq fun _ => ?_
  refine .cond (fun _ => ?_) fun _ => .unexpectedThen
  refine (inHeader_parallel (switchHeader_parallel grammars)).andThen fun header header' same => ?_
  obtain ⟨init, tag⟩ := header
  obtain ⟨init', tag'⟩ := header'
  have sameInit : v.Same init init' := same.fst
  have sameTag : v.Same tag tag' := same.snd
  have kinds : v.Same (tag.map Stmt.kind) (tag'.map Stmt.kind) := by
    rcases sameTag.option with ⟨rfl, rfl⟩ | ⟨s, s', rfl, rfl, sameStmt⟩
    · rfl
    · exact sameStmt.kind.some
  refine (typeGuard?_parallel kinds).andThen fun guard guard' sameGuard => ?_
  refine (expect_parallel _ _).thenEq fun _ => ?_
  rcases sameGuard.option with
    ⟨rfl, rfl⟩ | ⟨⟨binding, subject⟩, ⟨binding', subject'⟩, rfl, rfl, bound⟩
  · dsimp -zeta only
    extract_lets onward onward'
    have onwards {value value' : Option Expr} (sameValue : v.Same value value') :
        v.Parallel v.Same (onward value) (onward' value') :=
      valueCases.andThen fun _ _ list => .pure (Same.switch sameInit sameValue list).stmt
    generalize tag.map Stmt.kind = kind at kinds ⊢
    generalize tag'.map Stmt.kind = kind' at kinds ⊢
    rcases kinds.option with ⟨rfl, rfl⟩ | ⟨kind, kind', rfl, rfl, sameKind⟩
    · exact .andThen (.pure rfl) fun _ _ same => onwards same
    rcases sameKind.exprKind with ⟨e, e', rfl, rfl, sameExpr⟩ | ⟨other, _⟩
    · exact .andThen (.pure sameExpr.some) fun _ _ same => onwards same
    · cases kind with
      | expr e => exact absurd rfl (other e)
      | _ => exact .failThen
  · dsimp only
    exact typeCases.andThen fun _ _ list =>
      .pure (Same.typeSwitch sameInit bound.fst bound.snd list).stmt

/-! ## Statements -/

omit grammars in
theorem noLabel_parallel : v.Parallel Eq noLabel noLabel := by
  unfold noLabel
  refine .peekBlind (fun _ _ => rfl) fun t => ?_
  exact .cond (fun _ => .fail) fun _ => .pure rfl

theorem block_parallel : v.Parallel v.Same (Parser.block g) (Parser.block g') := by
  unfold Parser.block
  refine nested_parallel ((expect_parallel _ _).thenEq fun _ => ?_)
  refine (stmtsTo_parallel grammars _ fun _ _ => rfl).andThen fun body body' same => ?_
  exact (expect_parallel _ _).thenEq fun _ => .pure same

theorem otherStmt_parallel (start start' : Nat) :
    v.Parallel v.Same (otherStmt g start) (otherStmt g' start') := by
  unfold otherStmt
  have others := plain_parallel grammars .rangeOutsideFor
  refine .peekBoth fun t u u' seen => ?_
  cases t with
  | name word =>
      obtain rfl := seen nofun
      cases u with
      | mark m =>
          cases m with
          | colon => exact .fail
          | _ => exact others
      | _ => exact others
  | mark m =>
      cases m with
      | lBrace => exact (block_parallel grammars).andThen fun _ _ same => .pure same.block.stmt
      | semi => exact .pure rfl
      | _ => exact others
  | _ => exact others

theorem flatStmt_parallel : v.Parallel v.Same (flatStmt g) (flatStmt g') := by
  unfold flatStmt
  refine line_parallel.thenAny fun start start' => .peekBlind (fun _ _ => rfl) fun t => ?_
  split
  · refine .advanceThen (.peekBlind (fun _ _ => rfl) fun t => ?_)
    split
    · exact .pure rfl
    · exact .pure rfl
    · exact (exprList_parallel grammars).andThen fun _ _ same => .pure same.return.stmt
  · exact .advanceThen (noLabel_parallel.thenEq fun _ => .pure rfl)
  · exact .advanceThen (noLabel_parallel.thenEq fun _ => .pure rfl)
  · exact .advanceThen (.pure rfl)
  · refine .advanceThen ((expr_parallel grammars).andThen fun e e' same => ?_)
    cases e with
    | call callee arguments spread =>
        cases e' with
        | call callee' arguments' spread' =>
            exact .pure (Same.stmt (congrArg StmtKind.defer same))
        | _ => cases same
    | _ => exact .fail
  · exact .fail
  · exact .fail
  · exact .fail
  · exact ifStmt_parallel grammars
  · exact forStmt_parallel grammars
  · exact switchStmt_parallel grammars
  · exact otherStmt_parallel grammars _ _

theorem stmts_parallel : v.Parallel v.Same (Parser.stmts g) (Parser.stmts g') := by
  unfold Parser.stmts
  refine line_parallel.thenAny fun start start' => ?_
  refine (eatKeyword_parallel _).thenEq fun _ => .cond (fun _ => ?_) fun _ => ?_
  · refine (valueSpecs_parallel grammars false).andThen fun specs specs' same => .pure ?_
    refine Same.map (fun _ _ same => Same.stmt ?_) same
    exact congrArg StmtKind.var same
  refine (eatKeyword_parallel _).thenEq fun _ => .cond (fun _ => ?_) fun _ => ?_
  · refine (valueSpecs_parallel grammars true).andThen fun specs specs' same => .pure ?_
    refine Same.map (fun _ _ same => Same.stmt ?_) same
    exact congrArg StmtKind.const same
  refine (eatKeyword_parallel _).thenEq fun _ => .cond (fun _ => ?_) fun _ => ?_
  · refine (typeSpecs_parallel grammars).andThen fun specs specs' same => .pure ?_
    refine Same.map (fun _ _ same => Same.stmt ?_) same
    exact congrArg StmtKind.typeDecl same
  · exact (nested_parallel (flatStmt_parallel grammars)).andThen
      fun _ _ same => .pure (same.cons rfl)

end

theorem grammars_ofDepth : ∀ {depth depth' : Nat}, depth ≤ depth' →
    v.Grammars (.ofDepth depth) (.ofDepth depth') := by
  intro depth
  induction depth with
  | zero =>
      intro depth' _
      exact ⟨.fail, .fail, .fail, fun _ => .fail, fun _ => .fail, .fail, .fail, .fail⟩
  | succ depth ih =>
      intro depth' deeper
      obtain ⟨depth', rfl⟩ := Nat.exists_eq_add_one.mpr (Nat.zero_lt_of_lt deeper)
      have grammars := ih (Nat.le_of_succ_le_succ deeper)
      exact ⟨type_parallel grammars.type, expr_parallel grammars, unary_parallel grammars,
        binary_parallel grammars, composite_parallel grammars, ifStmt_parallel grammars,
        stmts_parallel grammars, block_parallel grammars⟩

end Pair

end SandboxedGo.Source
