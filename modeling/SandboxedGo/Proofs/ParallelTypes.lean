import SandboxedGo.Proofs.ParallelParsing

/-!
# Types beside each other

The parsers of types and signatures go the same way in two texts that begin alike.
-/

set_option autoImplicit false

namespace SandboxedGo.Source

open SandboxedGo.Source.Parser

instance : Worded ParamEntry where
  reword f entry := ⟨entry.name.map f, entry.type.map (TypeExpr.reworded f), entry.variadic⟩
  reword_id f entry := by
    simp [option_twice (fun t => TypeExpr.reworded_reworded f id t)]

namespace Pair

/-- The grammars of two texts: each parser goes the same way as its counterpart. -/
structure Grammars (v : Pair) (g g' : Grammar) : Prop where
  type : v.Parallel v.Same g.type g'.type
  expr : v.Parallel v.Same g.expr g'.expr
  unary : v.Parallel v.Same g.unary g'.unary
  binary : ∀ least, v.Parallel v.Same (g.binary least) (g'.binary least)
  composite : ∀ {type type' : TypeExpr}, v.Same type type' →
    v.Parallel v.Same (g.composite type) (g'.composite type')
  ifStmt : v.Parallel v.Same g.ifStmt g'.ifStmt
  stmts : v.Parallel v.Same g.stmts g'.stmts
  block : v.Parallel v.Same g.block g'.block

variable {v : Pair} {g g' : Grammar}

section

variable (type : v.Parallel v.Same g.type g'.type)

include type

/-! ## Parameters -/

theorem paramEntry_parallel {read read' : List ParamEntry} (same : v.Same read read') :
    v.Parallel v.Same (paramEntry g read) (paramEntry g' read') := by
  have variadic : read'.any (·.variadic) = read.any (·.variadic) :=
    same.observe (f := fun read => read.any (·.variadic)) fun words read => List.any_map
  have typeOnly : v.Parallel v.Same
      (do return ⟨none, some (← g.type), false⟩ : Parser ParamEntry)
      (do return ⟨none, some (← g'.type), false⟩) :=
    type.andThen fun t t' same => .pure (congrArg (ParamEntry.mk none · false) same.some)
  have both (word : String) : v.Parallel v.Same
      (do
        advance
        let variadic ← eat .ellipsis
        return ⟨some word, some (← g.type), variadic⟩ : Parser ParamEntry)
      (do
        advance
        let variadic ← eat .ellipsis
        return ⟨some (v.words word), some (← g'.type), variadic⟩) := by
    refine .advanceThen ((eat_parallel _).thenEq fun variadic => ?_)
    exact type.andThen fun t t' same => .pure (congrArg (ParamEntry.mk _ · variadic) same.some)
  unfold paramEntry
  rw [variadic]
  refine .cond (fun _ => .failThen) fun _ => .peekBoth fun t u u' seen => ?_
  cases t with
  | name word =>
      obtain rfl := seen nofun
      cases u with
      | mark m =>
          cases m with
          | comma | rParen => exact .advanceThen (.pure rfl)
          | dot => exact typeOnly
          | _ => exact both word
      | _ => exact both word
  | mark m =>
      cases m with
      | ellipsis =>
          refine .advanceThen (type.andThen fun t t' same => .pure ?_)
          exact congrArg (ParamEntry.mk none · true) same.some
      | _ => exact typeOnly
  | _ => exact typeOnly

omit type in
theorem namedParams_reworded (f : String → String) (pending : List String)
    (entries : List ParamEntry) :
    namedParams (pending.map f) (entries.map (reword f)) =
      (namedParams pending entries).map (reword f) := by
  induction entries generalizing pending with
  | nil => cases pending <;> rfl
  | cons entry rest ih =>
      obtain ⟨name, type, variadic⟩ := entry
      cases name with
      | none => rfl
      | some word =>
          have more : pending.map f ++ [f word] = (pending ++ [word]).map f := by simp
          cases type with
          | none =>
              simp only [List.map_cons, namedParams, reword, Option.map_none, Option.map_some]
              rw [more]
              exact ih _
          | some type =>
              have behind := ih []
              simp only [List.map_cons, namedParams, reword, Option.map_some] at behind ⊢
              rw [more, ← List.map_nil (f := f), behind, Option.map_map, Option.map_map]
              congr 1
              funext params
              simp [Param.reworded, Function.comp_def]

omit type in
theorem unnamedParams_reworded (f : String → String) (entries : List ParamEntry) :
    unnamedParams (entries.map (reword f)) = reword f (unnamedParams entries) := by
  unfold unnamedParams
  change _ = List.map _ (List.filterMap _ entries)
  rw [List.filterMap_map, List.map_filterMap]
  congr 1
  funext entry
  obtain ⟨name, type, variadic⟩ := entry
  cases type <;> cases name <;> rfl

omit type in
theorem sliceLast_reworded (f : String → String) (list : List Param) :
    sliceLast (reword f list) = reword f (sliceLast list) := by
  induction list with
  | nil => rfl
  | cons p rest ih =>
      cases rest with
      | nil => rfl
      | cons q rest => exact congrArg (List.cons _) ih

theorem params_parallel : v.Parallel v.Same (params g) (params g') := by
  unfold params
  refine (expect_parallel _ _).thenEq fun _ => ?_
  refine (itemsTo_parallel _ _ fun _ _ same => paramEntry_parallel type same).andThen
    fun entries entries' same => ?_
  have variadic : entries'.any (·.variadic) = entries.any (·.variadic) :=
    same.observe (f := fun entries => entries.any (·.variadic)) fun words entries => List.any_map
  have mixed : entries'.any (fun e => e.name.isSome && e.type.isSome) =
      entries.any fun e => e.name.isSome && e.type.isSome := by
    refine same.observe (f := fun entries => entries.any fun e => e.name.isSome && e.type.isSome)
      fun words entries => ?_
    change (List.map _ entries).any _ = _
    rw [List.any_map]
    congr 1
    funext e
    simp [reword]
  have finish {list list' : List Param} (same : v.Same list list') :
      v.Same (if entries.any (·.variadic) then sliceLast list else list,
          entries.any (·.variadic))
        (if entries.any (·.variadic) then sliceLast list' else list', entries.any (·.variadic)) := by
    refine Same.pair ?_ rfl
    split
    · exact same.apply fun words list => (sliceLast_reworded words list).symm
    · exact same
  rw [variadic, mixed]
  refine .cond (fun _ => ?_) fun _ => ?_
  · have named : v.Same (namedParams [] entries) (namedParams [] entries') :=
      same.apply fun words entries => (namedParams_reworded words [] entries).symm
    rcases named.option with ⟨none, none'⟩ | ⟨list, list', some, some', same⟩
    · simp only [none, none']
      exact .failThen
    · simp only [some, some']
      exact .pure (finish same)
  · exact .pure
      (finish (same.apply fun words entries => (unnamedParams_reworded words entries).symm))

theorem results_parallel : v.Parallel v.Same (results g) (results g') := by
  unfold results
  refine (atMark_parallel _).thenEq fun _ => .cond (fun _ => ?_) fun _ => .peekThen fun t => ?_
  · exact (params_parallel type).andThen fun _ _ same => .pure same.fst
  · have begins : beginsType (t.reworded v.words) = beginsType t := by cases t <;> rfl
    rw [begins]
    refine .cond (fun _ => ?_) fun _ => .pure rfl
    exact type.andThen fun t t' same => .pure (congrArg (fun t => [Param.mk none t]) same)

/-! ## Interfaces and structs -/

omit type in
theorem Same.struct {fields fields' : List FieldDecl} (same : v.Same fields fields') :
    v.Same (TypeExpr.struct fields) (TypeExpr.struct fields') := by
  simp only [Same, reword, TypeExpr.reworded, rewordedFields_eq_map] at same ⊢
  rw [same]

theorem interfaceEntry_parallel : v.Parallel v.Same (interfaceEntry g) (interfaceEntry g') := by
  have reserved {word word' : String} (same : v.Same word word') {method : String}
      (member : method ∈ parserNames) : word' = method ↔ word = method := by
    rw [show word' = v.words word from same]
    exact v.keeps method (List.mem_cons_of_mem _ member) word
  unfold interfaceEntry
  refine name_parallel.andThen fun word word' same => ?_
  refine (atMark_parallel _).thenEq fun _ => .cond (fun _ => ?_) fun _ => ?_
  · refine (params_parallel type).andThen
      fun _ _ _ => (results_parallel type).andThen fun _ _ _ => ?_
    exact .pure (same.cons rfl)
  refine (eat_parallel _).thenEq fun _ => .cond (fun _ => ?_) fun _ => ?_
  · refine name_parallel.andThen fun member member' same => ?_
    simp only [reserved same (show "Stringer" ∈ parserNames by decide)]
    refine .pure ?_
    split
    · exact congrArg (fun word => [word]) v.keepsMethods.1.symm
    · rfl
  · simp only [reserved same (show "error" ∈ parserNames by decide)]
    refine .pure ?_
    split
    · exact congrArg (fun word => [word]) v.keepsMethods.2.symm
    · rfl

theorem structEntry_parallel : v.Parallel v.Same (structEntry g) (structEntry g') := by
  unfold structEntry
  have fields {names names' : List String} (same : v.Same names names') {t t' : TypeExpr}
      (sameType : v.Same t t') (tag : Option String) :
      v.Same (names.map fun n => FieldDecl.mk n t tag false)
        (names'.map fun n => FieldDecl.mk n t' tag false) := by
    have spread (f : String → String) (names : List String) (t : TypeExpr) :
        reword f (names.map fun n => FieldDecl.mk n t tag false) =
          (reword f names).map fun n => FieldDecl.mk n (reword f t) tag false := by
      change List.map _ (List.map _ names) = List.map _ (List.map _ names)
      rw [List.map_map, List.map_map]
      rfl
    unfold Same
    rw [spread, spread, same, sameType]
  refine name_parallel.andThen fun first first' same => .peekBlind (fun _ _ => rfl) fun t => ?_
  split
  · exact .pure (congrArg (fun word => [FieldDecl.mk word (.named word) none true]) same)
  · exact .pure (congrArg (fun word => [FieldDecl.mk word (.named word) none true]) same)
  refine (eat_parallel _).thenEq fun _ => .join (fun _ => commaSeparated_parallel name_parallel)
    (fun _ => .pure rfl) fun more more' others => ?_
  refine type.andThen fun t t' sameType => .peekBlind (fun _ _ => rfl) fun t => ?_
  split
  · refine .advanceThen (endOfStatement_parallel.thenEq fun _ => .pure ?_)
    exact fields (same.cons others) sameType _
  · exact endOfStatement_parallel.thenEq fun _ => .pure (fields (same.cons others) sameType _)

theorem structFields_parallel : v.Parallel v.Same (structFields g) (structFields g') := by
  unfold structFields
  refine (collect_parallel ?_).andThen fun _ _ same => .pure same.flatten
  refine skipSemicolons_parallel.thenEq fun _ => (eat_parallel _).thenEq fun _ => ?_
  refine .cond (fun _ => .pure rfl) fun _ => (structEntry_parallel type).andThen fun _ _ same => ?_
  exact .pure (congrArg Piece.more same)

/-! ## Types -/

omit type in
theorem namedType_eq (word : String) : namedType word = (do
    advance
    let first ← peek
    let second ← peekSecond
    if first.isMark .dot then
      if let .name member := second then
        advance
        advance
        return .qualified word member
    pure (if word = "any" then .interface [] else .named word)) := by
  funext s
  unfold namedType atMark
  simp only [bind_eq (advance_eq s), bind_assoc, pure_bind]
  rw [bind_eq (peek_eq _), bind_eq (peek_eq _), bind_eq (peekSecond_eq _)]
  split
  · exact bind_eq (peekSecond_eq _) _
  · rfl

omit type in
theorem namedType_parallel (word : String) :
    v.Parallel v.Same (namedType word) (namedType (v.words word)) := by
  have isAny : v.words word = "any" ↔ word = "any" :=
    v.keeps "any" (by decide) word
  have named : v.Same (if word = "any" then TypeExpr.interface [] else .named word)
      (if v.words word = "any" then .interface [] else .named (v.words word)) := by
    simp only [isAny]
    split <;> rfl
  rw [namedType_eq, namedType_eq]
  refine .advanceThen (.peekBoth fun t u u' second => ?_)
  rw [reworded_isMark]
  refine .cond (fun dot => ?_) fun _ => .pure named
  obtain rfl := second (by rintro rfl; cases dot)
  cases u with
  | name member => exact .advanceThen (.advanceThen (.pure rfl))
  | _ => exact .pure named

theorem bracketType_parallel : v.Parallel v.Same (bracketType g) (bracketType g') := by
  unfold bracketType
  refine (eat_parallel _).thenEq fun _ => .cond (fun _ => ?_) fun _ => ?_
  · exact type.andThen fun t t' same => .pure (congrArg TypeExpr.slice same)
  have behind (length : Option Nat) : v.Parallel v.Same
      (do
        expect .rBrack "]"
        return .array length (← g.type) : Parser TypeExpr)
      (do
        expect .rBrack "]"
        return .array length (← g'.type)) := by
    refine (expect_parallel _ _).thenEq fun _ => type.andThen fun t t' same => .pure ?_
    exact congrArg (TypeExpr.array length) same
  refine .peekBlind (fun _ _ => rfl) fun token => .advanceThen ?_
  split
  · exact behind _
  · exact behind _
  · exact .failThen

theorem flatType_parallel : v.Parallel v.Same (flatType g) (flatType g') := by
  unfold flatType
  refine .peekName namedType_parallel fun t other => ?_
  split
  · cases other
  · exact .advanceThen (bracketType_parallel type)
  · refine .advanceThen ((expect_parallel _ _).thenEq fun _ => type.andThen fun _ _ key => ?_)
    refine (expect_parallel _ _).thenEq fun _ => type.andThen fun _ _ value => .pure ?_
    exact congrArg₂ TypeExpr.map key value
  · exact .advanceThen (type.andThen fun _ _ same => .pure (congrArg TypeExpr.pointer same))
  · refine .advanceThen ((params_parallel type).andThen fun _ _ _ => ?_)
    exact (results_parallel type).andThen fun _ _ _ => .pure rfl
  · refine .advanceThen ((expect_parallel _ _).thenEq fun _ => ?_)
    refine (entriesTo_parallel _ (interfaceEntry_parallel type)).andThen fun _ _ same => .pure ?_
    exact congrArg TypeExpr.interface same.flatten
  · refine .advanceThen ((expect_parallel _ _).thenEq fun _ => ?_)
    exact (structFields_parallel type).andThen fun _ _ same => .pure same.struct
  · refine .advanceThen (type.andThen fun _ _ same => ?_)
    exact (expect_parallel _ _).thenEq fun _ => .pure same
  · exact .fail
  · exact .unexpected

theorem type_parallel : v.Parallel v.Same (Parser.type g) (Parser.type g') :=
  nested_parallel (flatType_parallel type)

end

end Pair

end SandboxedGo.Source
