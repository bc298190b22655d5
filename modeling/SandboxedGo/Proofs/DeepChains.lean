import SandboxedGo.Proofs.HiddenAlias
import SandboxedGo.Proofs.TreeLevels

/-!
# Programs with long chains

Selectors are read in a loop, which no limit stops.  For every length there is an accepted program
with a chain of that many selectors, and its tree is as deep as the chain is long.
-/

set_option autoImplicit false

namespace SandboxedGo.Source

open Submission

/-- A variable of many selectors and the line end behind it. -/
def selectors : Nat → String
  | 0 => "\n"
  | n + 1 => ".a" ++ selectors n

/-- The program that has one variable, of a chain of selectors. -/
def chainProgram (n : Nat) : String := "package main\n" ++ "var a = a" ++ selectors n

/-- The chain of selectors behind an expression. -/
def selected (base : Expr) : Nat → Expr
  | 0 => base
  | n + 1 => selected (.select base "a") n

def chainDecl (n line : Nat) : Decl := .var [.mk line ["a"] none [selected (.name "a") n] 0]

theorem levels_selected (n : Nat) (base : Expr) :
    n ≤ (selected base n).levels 1 1 := by
  suffices below : n + base.levels 1 1 ≤ (selected base n).levels 1 1 by omega
  induction n generalizing base with
  | zero => simp [selected]
  | succ n ih =>
      have rest := ih (.select base "a")
      simp only [Expr.levels] at rest
      simp only [selected]
      omega

/-! ## Its tokens -/

/-- The tokens of a chain and the line end behind it. -/
def selectorTokens : Nat → List Token
  | 0 => [.mark .semi, .endOfText]
  | n + 1 => .mark .dot :: .name "a" :: selectorTokens n

theorem selectorTokens_ne_nil (n : Nat) : selectorTokens n ≠ [] := by
  cases n <;> exact List.cons_ne_nil _ _

theorem length_selectorTokens (n : Nat) : n ≤ (selectorTokens n).length := by
  induction n with
  | zero => exact Nat.zero_le _
  | succ n ih =>
      simp only [selectorTokens, List.length_cons]
      omega

theorem lexesAs_mark {first : Char} {rest : List Char} {m : Mark}
    (reads : ∀ (cur : Cursor) (bound : Nat), cur.rest = first :: rest →
      cur.step bound first = cur.readMark first)
    (found : Mark.atStart? (first :: rest) = some (m, 1)) :
    LexesAs first rest (.token (.mark m)) rest := by
  intro cur bound text
  refine ⟨cur.skip 1, ?_, ?_⟩
  · rw [reads cur bound text, Cursor.readMark, text, found]
  · rw [Cursor.skip_rest, text]
    rfl

theorem lexesAs_dot (rest : List Char) :
    LexesAs '.' ('a' :: rest) (.token (.mark .dot)) ('a' :: rest) := by
  refine lexesAs_mark (fun cur bound text => ?_) rfl
  have noName : Cursor.isNameStart '.' = false := rfl
  unfold Cursor.step
  rw [noName, text]
  rfl

theorem lexesAs_assign (rest : List Char) :
    LexesAs '=' (' ' :: rest) (.token (.mark .assign)) (' ' :: rest) := by
  refine lexesAs_mark (fun cur bound text => ?_) rfl
  have noName : Cursor.isNameStart '=' = false := rfl
  unfold Cursor.step
  rw [noName, text]
  rfl

theorem lexesAs_a {behind : List Char} (stops : Stops Cursor.isNameChar behind) :
    LexesAs 'a' behind (.token (.name "a")) behind := by
  have chars : "a".toList = ['a'] := by decide
  rw [← wordToken_of_none (show Keyword.ofWord? "a" = _ by decide)]
  exact lexesAs_word chars rfl nofun stops

theorem stops_selectors (n : Nat) : Stops Cursor.isNameChar (selectors n).toList := by
  cases n with
  | zero =>
      rintro c ⟨⟩
      rfl
  | succ n =>
      rw [selectors, String.toList_append]
      rintro c ⟨⟩
      rfl

theorem readAs_selectors (n : Nat) : ReadAs true (selectors n).toList (selectorTokens n) := by
  induction n with
  | zero => exact readAs_endOfLine (lexesAs_newline _) readAs_nil
  | succ n ih =>
      have chars : (selectors (n + 1)).toList = '.' :: 'a' :: (selectors n).toList := by
        rw [selectors, String.toList_append]
        rfl
      rw [chars]
      exact readAs_token (lexesAs_dot _) (readAs_token (lexesAs_a (stops_selectors n)) ih)

theorem lexes_chainProgram (n : Nat) :
    ∃ located, tokenize (chainProgram n) = .ok located ∧
      located.map Located.token = .keyword .package :: .name "main" :: .mark .semi ::
        .keyword .var :: .name "a" :: .mark .assign :: .name "a" :: selectorTokens n := by
  have declared : "var a = a".toList = 'v' :: ("ar".toList ++ [' ', 'a', ' ', '=', ' ', 'a']) := by
    decide
  have «var» (rest : List Char) :
      LexesAs 'v' ("ar".toList ++ ' ' :: rest) (.token (.keyword .var)) (' ' :: rest) := by
    rw [← wordToken_of_some (show Keyword.ofWord? "var" = _ by decide)]
    exact lexesAs_word (by decide) rfl (List.all_eq_true.mp (by decide))
      (stops_space rest)
  apply tokenize_of_readAs
  rw [chainProgram, String.toList_append, String.toList_append, declared, List.append_assoc]
  refine readAs_packageMain ?_
  simp only [List.append_assoc, List.cons_append, List.nil_append]
  refine readAs_token («var» _) (readAs_blank (lexesAs_space _) ?_)
  refine readAs_token (lexesAs_a (stops_space _)) (readAs_blank (lexesAs_space _) ?_)
  refine readAs_token (lexesAs_assign _) (readAs_blank (lexesAs_space _) ?_)
  exact readAs_token (lexesAs_a (stops_selectors n)) (readAs_selectors n)

/-! ## Its tree -/

namespace Parser

theorem located_of_tokens {located : List Located} {t : Token} {ts : List Token}
    (tokens : located.map Located.token = t :: ts) :
    ∃ place behind, located = ⟨t, place⟩ :: behind ∧ behind.map Located.token = ts := by
  cases located with
  | nil => cases tokens
  | cons first behind =>
      obtain ⟨token, place⟩ := first
      obtain ⟨same, others⟩ := List.cons.inj tokens
      exact ⟨place, behind, by rw [← same], others⟩

/-- From the first token of a chain, a parser reads it whole. -/
def ReadsChain (n : Nat) (p : Parser Expr) (depth : Nat) : Prop :=
  ∀ (bound : Nat) (place : Position) (rest : List Located), n ≤ bound →
    rest.map Located.token = selectorTokens n →
    ∃ behind, behind.map Located.token = selectorTokens 0 ∧
      p ⟨⟨.name "a", place⟩ :: rest, bound, 0, depth⟩ =
        .ok (selected (.name "a") n) ⟨behind, bound, 0, depth⟩

theorem postfixes_selectors {g : Grammar} {bound depth : Nat} (n : Nat) :
    ∀ (rounds : Nat) (base : Expr) (rest : List Located), n < rounds →
      rest.map Located.token = selectorTokens n →
      ∃ behind, behind.map Located.token = selectorTokens 0 ∧
        postfixes g rounds base ⟨rest, bound, 0, depth⟩ =
          .ok (selected base n) ⟨behind, bound, 0, depth⟩ := by
  induction n with
  | zero =>
      intro rounds base rest enough tokens
      obtain ⟨rounds, rfl⟩ := Nat.exists_eq_add_one.mpr enough
      obtain ⟨place, behind, rfl, _⟩ := located_of_tokens tokens
      exact ⟨_, tokens, rfl⟩
  | succ n ih =>
      intro rounds base rest enough tokens
      obtain ⟨rounds, rfl⟩ := Nat.exists_eq_add_one.mpr (Nat.zero_lt_of_lt enough)
      obtain ⟨_, named, rfl, fromName⟩ := located_of_tokens tokens
      obtain ⟨_, others, rfl, more⟩ := located_of_tokens fromName
      obtain ⟨behind, ends, ran⟩ := ih rounds (.select base "a") others (by omega) more
      refine ⟨behind, ends, ?_⟩
      cases others with
      | nil => exact absurd more.symm (selectorTokens_ne_nil n)
      | cons t others => exact ran

variable {g : Grammar} {n depth : Nat}

theorem primary_selectors : ReadsChain n (primary g) depth := by
  intro bound place rest enough tokens
  obtain ⟨behind, ends, ran⟩ := postfixes_selectors n (bound + 1) (.name "a") rest (by omega) tokens
  refine ⟨behind, ends, ?_⟩
  cases rest with
  | nil => exact absurd tokens.symm (selectorTokens_ne_nil n)
  | cons t others => exact ran

theorem ReadsChain.nested {p : Parser Expr} (inner : ReadsChain n p (depth + 1))
    (below : depth + 1 ≤ maxNesting) : ReadsChain n (nested p) depth := by
  intro bound place rest enough tokens
  obtain ⟨behind, ends, ran⟩ := inner bound place rest enough tokens
  have whole := nested_eq (s := ⟨⟨.name "a", place⟩ :: rest, bound, 0, depth⟩) below ran
  exact ⟨behind, ends, whole⟩

theorem unary_selectors (below : depth + 1 ≤ maxNesting) : ReadsChain n (unary g) depth :=
  ReadsChain.nested (fun bound place rest => primary_selectors bound place rest) below

theorem binary_selectors {least : Nat} (below : depth + 1 ≤ maxNesting) :
    ReadsChain n (binary g least) depth := by
  intro bound place rest enough tokens
  obtain ⟨behind, ends, ran⟩ := unary_selectors below bound place rest enough tokens
  refine ⟨behind, ends, ?_⟩
  obtain ⟨_, others, rfl, _⟩ := located_of_tokens ends
  exact bind_eq ran _

theorem expr_selectors (below : depth + 2 ≤ maxNesting) : ReadsChain n (expr g) depth :=
  ReadsChain.nested (binary_selectors below) (by omega)

theorem exprList_selectors {bound : Nat} (place : Position) {rest : List Located}
    (enough : n ≤ bound) (tokens : rest.map Located.token = selectorTokens n) :
    ∃ behind, behind.map Located.token = selectorTokens 0 ∧
      exprList g ⟨⟨.name "a", place⟩ :: rest, bound, 0, 0⟩ =
        .ok [selected (.name "a") n] ⟨behind, bound, 0, 0⟩ := by
  have below : 0 + 2 ≤ maxNesting := by decide
  obtain ⟨behind, ends, ran⟩ := expr_selectors (g := g) below bound place rest enough tokens
  refine ⟨behind, ends, ?_⟩
  obtain ⟨_, others, rfl, _⟩ := located_of_tokens ends
  have round := bind_eq ran fun e => do
    if ← eat .comma then pure (Piece.more e) else pure (Piece.last e)
  exact bind_eq round _

theorem decl_selectors {bound : Nat} {rest : List Located} (enough : n ≤ bound)
    (tokens : rest.map Located.token = selectorTokens n) («var» word assign first : Position) :
    ∃ endOfText, decl g ⟨⟨.keyword .var, «var»⟩ :: ⟨.name "a", word⟩ :: ⟨.mark .assign, assign⟩ ::
        ⟨.name "a", first⟩ :: rest, bound, 0, 0⟩ =
      .ok (.more (chainDecl n word.line))
        ⟨[⟨.endOfText, endOfText⟩], bound, 0, 0⟩ := by
  obtain ⟨behind, ends, ran⟩ := exprList_selectors (g := g) first enough tokens
  obtain ⟨_, _, rfl, endTokens⟩ := located_of_tokens ends
  obtain ⟨endOfText, _, rfl, noTokens⟩ := located_of_tokens endTokens
  cases List.map_eq_nil_iff.mp noTokens
  refine ⟨endOfText, ?_⟩
  have spec : valueSpec g false ⟨⟨.name "a", word⟩ :: ⟨.mark .assign, assign⟩ ::
      ⟨.name "a", first⟩ :: rest, bound, 0, 0⟩ = .ok (.mk word.line ["a"] none _ 0) _ :=
    bind_eq ran fun values => do
      if values.isEmpty then fail .missingTypeOrInitializer
      pure (ValueSpec.mk word.line ["a"] none values 0)
  have specs := bind_eq spec fun spec => pure [spec]
  have declared : (Decl.var <$> valueSpecs g false) ⟨⟨.name "a", word⟩ :: ⟨.mark .assign, assign⟩ ::
      ⟨.name "a", first⟩ :: rest, bound, 0, 0⟩ = .ok (.var _) _ :=
    bind_eq specs fun specs => pure (Decl.var specs)
  exact bind_eq declared fun d => do
    endOfStatement
    pure (Piece.more d)

theorem program_selectors {bound : Nat} {chain : List Located} (enough : n ≤ bound)
    (tokens : chain.map Located.token = selectorTokens n)
    (package main semi «var» word assign first : Position) :
    ∃ s', program g ⟨⟨.keyword .package, package⟩ :: ⟨.name "main", main⟩ :: ⟨.mark .semi, semi⟩ ::
        ⟨.keyword .var, «var»⟩ :: ⟨.name "a", word⟩ :: ⟨.mark .assign, assign⟩ ::
        ⟨.name "a", first⟩ :: chain, bound + 1, 0, 0⟩ =
      .ok ⟨"main", [], [chainDecl n word.line]⟩ s' := by
  obtain ⟨endOfText, ran⟩ :=
    decl_selectors (g := g) (Nat.le_succ_of_le enough) tokens «var» word assign first
  have decls : collect (decl g) ⟨⟨.keyword .var, «var»⟩ :: ⟨.name "a", word⟩ ::
        ⟨.mark .assign, assign⟩ :: ⟨.name "a", first⟩ :: chain, bound + 1, 0, 0⟩ =
      .ok [chainDecl n word.line] ⟨[⟨.endOfText, endOfText⟩], bound + 1, 0, 0⟩ := by
    change collectFrom (fun _ => decl g) (bound + 1 + 1) [] _ = _
    rw [collectFrom, bind_eq ran]
    rfl
  exact ⟨_, bind_eq decls fun decls => pure (Program.mk "main" [] decls)⟩

theorem parseProgram_chainProgram (n : Nat) :
    ∃ line, parseProgram (chainProgram n) = .ok ⟨"main", [], [chainDecl n line]⟩ := by
  obtain ⟨located, lexed, tokens⟩ := lexes_chainProgram n
  obtain ⟨package, _, rfl, behindPackage⟩ := located_of_tokens tokens
  obtain ⟨main, _, rfl, behindMain⟩ := located_of_tokens behindPackage
  obtain ⟨semi, _, rfl, behindSemi⟩ := located_of_tokens behindMain
  obtain ⟨«var», _, rfl, behindVar⟩ := located_of_tokens behindSemi
  obtain ⟨word, _, rfl, behindWord⟩ := located_of_tokens behindVar
  obtain ⟨assign, _, rfl, behindAssign⟩ := located_of_tokens behindWord
  obtain ⟨first, chain, rfl, chainTokens⟩ := located_of_tokens behindAssign
  have enough : n ≤ chain.length + 6 := by
    have long := length_selectorTokens n
    rw [← chainTokens, List.length_map] at long
    omega
  obtain ⟨s', ran⟩ := program_selectors (g := .ofDepth (chain.length + 7)) enough chainTokens
    package main semi «var» word assign first
  exact ⟨word.line, parseProgram_ok_iff.mpr ⟨_, s', lexed, ran⟩⟩

end Parser

theorem levels_chainDecl (n line : Nat) :
    n ≤ Program.levels 1 1 ⟨"main", [], [chainDecl n line]⟩ := by
  have deep := levels_selected n (.name "a")
  simpa [Program.levels, chainDecl, Decl.levels, greatest, ValueSpec.levels, exprsLevels] using deep

theorem accepts_deeper (n : Nat) :
    ∃ source p, parseProgram source = .ok p ∧ n ≤ p.levels 1 1 := by
  obtain ⟨line, accepted⟩ := Parser.parseProgram_chainProgram n
  exact ⟨chainProgram n, _, accepted, levels_chainDecl n line⟩

end SandboxedGo.Source
