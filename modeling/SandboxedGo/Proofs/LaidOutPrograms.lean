import SandboxedGo.Proofs.ParallelStatements

/-!
# Programs made of pieces

A program is laid out in pieces if each of its imports and declarations, taken for itself, is read
up to the semicolon behind it.  Then the pieces can be put together in other words or with some of
them left out: what is read is what the pieces say.  Main statement: `Layout.reads`.
-/

set_option autoImplicit false

namespace SandboxedGo.Source

open SandboxedGo.Source.Parser

/-!
## Programs beside each other

The declarations of a program are read the same where other declarations follow them.
-/

instance : Worded Receiver := ⟨Receiver.reworded, fun f r => by simp [Receiver.reworded]⟩

instance : Worded Import := ⟨Import.reworded, fun f i => by simp [Import.reworded]⟩

namespace Parser

/-- One of the entries that semicolons end, if a token comes next that begins one. -/
def entry {α : Type} (begins : Token → Bool) (body : Token → Parser α) : Parser (Piece α) := do
  skipSemicolons
  let t ← peek
  if begins t then
    let x ← body t
    endOfStatement
    pure (.more x)
  else pure .stop

def isNoEnd : Token → Bool
  | .endOfText => false
  | _ => true

/-- The declaration that a token begins. -/
def declarationAt (g : Grammar) (t : Token) : Parser Decl :=
  match t with
  | .keyword .func => .func <$> funcDecl g
  | .keyword .var => do
    advance
    .var <$> valueSpecs g false
  | .keyword .const => do
    advance
    .const <$> valueSpecs g true
  | .keyword .type => do
    advance
    .types <$> typeSpecs g
  | .keyword .import => fail .importAfterDeclarations
  | _ => unexpected "declaration"

theorem decl_eq (g : Grammar) : decl g = entry isNoEnd (declarationAt g) := by
  unfold decl entry
  congr 1
  funext _
  congr 1
  funext t
  cases t with
  | keyword k => cases k <;> simp only [declarationAt, isNoEnd, bind_assoc, if_true]
  | _ => rfl

def importClause : Parser (List Import) := do
  advance
  if ← eat .lParen then entriesTo .rParen importSpec else pure [← importSpec]

theorem imports_eq :
    imports = List.flatten <$> collect (entry (·.isKeyword .import) fun _ => importClause) := by
  have round : (do
      skipSemicolons
      if ← eatKeyword .import then
        let group ← if ← eat .lParen then entriesTo .rParen importSpec else pure [← importSpec]
        endOfStatement
        pure (.more group)
      else pure .stop : Parser (Piece (List Import))) =
      entry (·.isKeyword .import) fun _ => importClause := by
    unfold entry
    congr 1
    funext _ s
    rw [bind_eq (eatKeyword_eq _ s), bind_eq (peek_eq s)]
    cases found : (firstToken s.rest).isKeyword .import with
    | false => simp only [found, Bool.false_eq_true, if_false]
    | true =>
        simp only [found, importClause, if_true, bind_assoc]
        rw [bind_eq (advance_eq s), bind_eq (eat_eq _ _), bind_eq (eat_eq _ _)]
        split
        · rfl
        · simp only [bind_assoc, pure_bind]
  unfold imports
  rw [map_eq_pure_bind, ← round]

end Parser

namespace Pair

variable {v : Pair} {g g' : Grammar}

theorem receiver_parallel : v.Parallel v.Same receiver receiver := by
  have behind {word word' : Option String} (same : v.Same word word') : v.Parallel v.Same
      (do
        let isPointer ← eat .star
        let typeName ← name
        expect .rParen ")"
        pure (some ⟨word, typeName, isPointer⟩) : Parser (Option Receiver))
      (do
        let isPointer ← eat .star
        let typeName ← name
        expect .rParen ")"
        pure (some ⟨word', typeName, isPointer⟩)) := by
    refine (eat_parallel _).thenEq fun isPointer => name_parallel.andThen fun _ _ sameName => ?_
    refine (expect_parallel _ _).thenEq fun _ => .pure ?_
    exact congrArg some (congrArg₂ (Receiver.mk · · isPointer) same sameName)
  have nothing : v.Same (none : Option String) none := rfl
  have unnamed := Parallel.andThen (S := v.Same) (.pure nothing) fun _ _ => behind
  unfold receiver
  refine (eat_parallel _).thenEq fun _ => .cond (fun _ => ?_) fun _ => .pure rfl
  refine .peekBoth fun t u u' seen => ?_
  cases t with
  | name word =>
      obtain rfl := seen nofun
      have named : v.Parallel v.Same (do
          advance
          pure (some word)) (do
          advance
          pure (some (v.words word))) := .advanceThen (.pure rfl)
      cases u with
      | name => exact .advanceThen (.andThen (.pure rfl) fun _ _ => behind)
      | mark m =>
          cases m with
          | star => exact .advanceThen (.andThen (.pure rfl) fun _ _ => behind)
          | _ => exact unnamed
      | _ => exact unnamed
  | _ => exact unnamed

section

variable (grammars : v.Grammars g g')

include grammars

theorem funcDecl_parallel : v.Parallel v.Same (funcDecl g) (funcDecl g') := by
  unfold funcDecl
  refine line_parallel.thenAny fun start start' => (eatKeyword_parallel _).thenEq fun _ => ?_
  refine .cond (fun _ => ?_) fun _ => .unexpectedThen
  refine receiver_parallel.andThen fun recv recv' sameReceiver => ?_
  refine name_parallel.andThen fun word word' sameName => ?_
  refine (params_parallel grammars.type).andThen fun list list' same => ?_
  obtain ⟨parameters, variadic⟩ := list
  obtain ⟨parameters', variadic'⟩ := list'
  obtain rfl : variadic' = variadic := same.snd
  refine (results_parallel grammars.type).andThen fun outcome outcome' sameResults => ?_
  refine (atMark_parallel _).thenEq fun _ => .cond (fun _ => ?_) fun _ => .failThen
  refine (withLevel_parallel _ grammars.block).andThen fun body body' sameBody => .pure ?_
  have literal : v.Same (FuncLit.mk parameters outcome variadic' body)
      (FuncLit.mk parameters' outcome' variadic' body') :=
    Same.function same.fst sameResults sameBody
  exact (FuncDecl.mk.injEq ..).mpr ⟨rfl, sameName, sameReceiver, literal⟩

theorem declarationAt_parallel (t : Token) :
    v.Parallel v.Same (declarationAt g t) (declarationAt g' t) := by
  unfold declarationAt
  split
  · exact .map (funcDecl_parallel grammars) fun _ _ same => congrArg Decl.func same
  · exact .advanceThen
      (.map (valueSpecs_parallel grammars _) fun _ _ same => congrArg Decl.var same)
  · exact .advanceThen
      (.map (valueSpecs_parallel grammars _) fun _ _ same => congrArg Decl.const same)
  · exact .advanceThen (.map (typeSpecs_parallel grammars) fun _ _ same => congrArg Decl.types same)
  · exact .fail
  · exact .unexpected

end

theorem importPath_parallel {given given' : Option String} (same : v.Same given given') :
    v.Parallel v.Same
      (do
        let token ← peek
        advance
        match token with
        | .string path => pure ⟨given, path⟩
        | _ => fail .importPathNotString : Parser Import)
      (do
        let token ← peek
        advance
        match token with
        | .string path => pure ⟨given', path⟩
        | _ => fail .importPathNotString) := by
  refine .peekBlind (fun _ _ => rfl) fun t => .advanceThen ?_
  split
  · exact .pure (congrArg (Import.mk · _) same)
  · exact .fail

theorem importSpec_parallel : v.Parallel v.Same importSpec importSpec := by
  unfold importSpec
  refine .peekName
    (fun word => .advanceThen (.andThen (.pure rfl) fun _ _ => importPath_parallel))
    fun t other => ?_
  split
  · cases other
  · refine .advanceThen (.andThen (.pure ?_) fun _ _ => importPath_parallel)
    exact congrArg some v.keepsPoint.symm
  · exact .andThen (.pure rfl) fun _ _ => importPath_parallel

theorem importClause_parallel : v.Parallel v.Same importClause importClause := by
  unfold importClause
  refine .advanceThen ((eat_parallel _).thenEq fun _ => .cond (fun _ => ?_) fun _ => ?_)
  · exact entriesTo_parallel _ importSpec_parallel
  · exact importSpec_parallel.andThen fun _ _ same => .pure (same.cons rfl)

end Pair

/-! ## Pieces -/

/-- New names that leave those alone to which the parser gives a meaning. -/
structure Harmless (words : String → String) : Prop where
  keeps : ∀ word ∈ "type" :: parserNames, ∀ other, words other = word ↔ other = word
  keepsMethods : words "String" = "String" ∧ words "Error" = "Error"
  keepsPoint : words "." = "."

/-- The end of a text that consists of one piece. -/
def pieceEnd : List Located := [⟨.mark .semi, default⟩, ⟨.endOfText, default⟩]

/-- Tokens that a parser reads, up to the semicolon behind them. -/
def ReadsFront {α : Type} (p : Parser α) (front : List Located) (a : α) : Prop :=
  p ⟨front ++ pieceEnd, (front ++ pieceEnd).length, 0, 0⟩ =
    .ok a ⟨pieceEnd, (front ++ pieceEnd).length, 0, 0⟩

def IsDeclaration (front : List Located) (d : Decl) : Prop :=
  ReadsFront (declarationAt (.ofDepth (front ++ pieceEnd).length) (firstToken front)) front d

structure IsImport (front : List Located) (list : List Import) : Prop where
  begins : firstToken front = .keyword .import
  reads : ReadsFront importClause front list

/-- A reading outside of all brackets, before certain tokens. -/
structure Before (r : Reading) (tokens : List Token) : Prop where
  text : r.rest.map Located.token = tokens
  level : r.level = 0
  depth : r.depth = 0
  enough : r.rest.length ≤ r.bound

section

variable {α : Type} [Worded α] {words : String → String} {r : Reading} {front : List Located}
  {rest : List Token} {a : α}

theorem Before.first {t : Token} (before : Before r (t :: rest)) : firstToken r.rest = t := by
  have text := before.text
  match r.rest, text with
  | u :: others, text => exact (List.cons.inj text).1

theorem Before.advance {t : Token} (before : Before r (t :: rest)) (goesOn : rest ≠ []) :
    ∃ r', Parser.advance r = .ok () r' ∧ Before r' rest := by
  refine ⟨_, advance_eq r, ?_⟩
  obtain ⟨text, level, depth, enough⟩ := before
  obtain ⟨tokens, bound, l, d⟩ := r
  match tokens, text with
  | [u], text => exact absurd (List.cons.inj text).2.symm goesOn
  | _ :: u :: others, text =>
      exact ⟨(List.cons.inj text).2, level, depth, Nat.le_of_succ_le enough⟩

theorem Before.eatKeyword {k : Keyword} (before : Before r (.keyword k :: rest))
    (goesOn : rest ≠ []) : ∃ r', Parser.eatKeyword k r = .ok true r' ∧ Before r' rest := by
  obtain ⟨r', advanced, later⟩ := before.advance goesOn
  refine ⟨r', ?_, later⟩
  have found : (firstToken r.rest).isKeyword k = true := by simp [before.first, Token.isKeyword]
  unfold Parser.eatKeyword
  rw [bind_eq (atKeyword_eq k r), found, if_pos rfl, bind_eq advanced]
  rfl

theorem Before.name {word : String} (before : Before r (.name word :: rest))
    (goesOn : rest ≠ []) : ∃ r', Parser.name r = .ok word r' ∧ Before r' rest := by
  obtain ⟨r', advanced, later⟩ := before.advance goesOn
  refine ⟨r', ?_, later⟩
  unfold Parser.name
  rw [bind_eq (peek_eq r), before.first]
  dsimp only
  rw [bind_eq advanced]
  rfl

theorem Before.endOfStatement (before : Before r (.mark .semi :: rest)) (goesOn : rest ≠ []) :
    ∃ r', Parser.endOfStatement r = .ok () r' ∧ Before r' rest := by
  obtain ⟨r', advanced, later⟩ := before.advance goesOn
  refine ⟨r', ?_, later⟩
  unfold Parser.endOfStatement
  rw [bind_eq (peek_eq r), before.first]
  exact advanced

/-- What a piece is read as does not depend on what is behind it, and other names may stand in
it. -/
theorem ReadsFront.before {p : Parser α} (reads : ReadsFront p front a) (p' : Parser α)
    (harmless : Harmless words)
    (parallel : ∀ v : Pair, v.words = words → v.Parallel v.Same p p')
    (before : Before r ((front.map fun t => t.token.reworded words) ++ .mark .semi :: rest))
    (goesOn : rest ≠ []) :
    ∃ a' r', p' r = .ok a' r' ∧ Before r' (.mark .semi :: rest) ∧
      reword id a' = reword words a := by
  obtain ⟨text, level, depth, enough⟩ := before
  obtain ⟨front', behind, split, isFront, isBehind⟩ := List.map_eq_append_iff.mp text
  obtain ⟨semi, others, rfl, isSemi, isRest⟩ := List.map_eq_cons_iff.mp isBehind
  obtain ⟨next, others, rfl⟩ : ∃ next more, others = next :: more := by
    cases others with
    | nil => exact absurd isRest.symm goesOn
    | cons next more => exact ⟨next, more, rfl⟩
  obtain ⟨token, place⟩ := semi
  obtain rfl : token = .mark .semi := isSemi
  let v : Pair := ⟨words, harmless.keeps, harmless.keepsMethods, harmless.keepsPoint,
    default, ⟨.endOfText, default⟩, [], place, next, others⟩
  have lengths : front'.length = front.length := by simpa using congrArg List.length isFront
  have beside : v.Beside ⟨front ++ pieceEnd, (front ++ pieceEnd).length, 0, 0⟩ r := by
    refine ⟨⟨front, front', rfl, split, isFront⟩, level, depth, ?_, Nat.le_refl _, enough⟩
    rw [split] at enough
    simp only [List.length_append, List.length_cons, lengths] at enough
    simp only [pieceEnd, List.length_append, List.length_cons, List.length_nil]
    omega
  obtain ⟨a', r', ran, beside, same⟩ := (parallel v rfl).goes beside reads (Nat.le_refl _)
  refine ⟨a', r', ran, ⟨?_, beside.level, beside.depth, beside.enough'⟩, same⟩
  obtain ⟨⟨seen, seen', text, text', isSame⟩, _⟩ := beside
  obtain rfl : seen = [] :=
    List.append_left_eq_self.mp (show seen ++ pieceEnd = pieceEnd from text.symm)
  obtain rfl : seen' = [] := List.map_eq_nil_iff.mp isSame
  rw [text']
  exact congrArg (Token.mark .semi :: ·) isRest

end

/-! ## Entries -/

section

variable {α : Type} {r : Reading} {t : Token} {a : α} {rest : List Token}

theorem Before.skipSemicolons (before : Before r (t :: rest)) (noSemi : t ≠ .mark .semi) :
    Parser.skipSemicolons r = .ok () r := by
  have text := before.text
  obtain ⟨tokens, bound, level, depth⟩ := r
  match tokens, text with
  | u :: others, text =>
      obtain rfl : u.token = t := (List.cons.inj text).1
      have stays : u.token.isMark .semi = false :=
        Bool.eq_false_iff.mpr fun isSemi => noSemi (eq_mark isSemi)
      show EStateM.Result.ok () _ = _
      simp only [List.dropWhile_cons, stays, Bool.false_eq_true, if_false]

theorem entry_stops (begins : Token → Bool) (body : Token → Parser α)
    (before : Before r (t :: rest)) (noSemi : t ≠ .mark .semi) (ends : begins t = false) :
    entry begins body r = .ok .stop r := by
  unfold entry
  rw [bind_eq (before.skipSemicolons noSemi), bind_eq (peek_eq r), before.first, ends]
  rfl

theorem entry_reads {r' : Reading} (begins : Token → Bool) (body : Token → Parser α)
    (before : Before r (t :: rest)) (noSemi : t ≠ .mark .semi)
    (goesOn : begins t = true) (ran : body t r = .ok a r') {more : List Token}
    (left : Before r' (.mark .semi :: more)) (others : more ≠ []) :
    ∃ r'', entry begins body r = .ok (.more a) r'' ∧ Before r'' more := by
  obtain ⟨r'', ended, later⟩ := left.endOfStatement others
  refine ⟨r'', ?_, later⟩
  unfold entry
  rw [bind_eq (before.skipSemicolons noSemi), bind_eq (peek_eq r), before.first, goesOn, if_pos rfl,
    bind_eq ran, bind_eq ended]
  rfl

end

/-! ## Lists of entries -/

section

variable {α : Type} [Worded α] {words : String → String} {round : Parser (Piece α)}

/-- The tokens of pieces in other words, with a semicolon behind each of them. -/
def pieceTokens (words : String → String) (pieces : List (List Located × α)) : List Token :=
  pieces.flatMap fun p => (p.1.map fun t => t.token.reworded words) ++ [.mark .semi]

/-- A round of a list reads a piece in other words, wherever it stands. -/
def ReadsPiece (words : String → String) (round : Parser (Piece α)) (p : List Located × α) : Prop :=
  ∀ (more : List Token) (r : Reading),
    Before r ((p.1.map fun t => t.token.reworded words) ++ .mark .semi :: more) → more ≠ [] →
    ∃ a r', round r = .ok (.more a) r' ∧ Before r' more ∧ reword id a = reword words p.2

theorem collectFrom_pieces {behind : List Token} (goesOn : behind ≠ [])
    (stops : ∀ r, Before r behind → round r = .ok .stop r) (pieces : List (List Located × α))
    (each : ∀ p ∈ pieces, ReadsPiece words round p) {rounds : Nat} (enough : pieces.length < rounds)
    {r : Reading} (read : List α) (before : Before r (pieceTokens words pieces ++ behind)) :
    ∃ list r', collectFrom (fun _ => round) rounds read r = .ok (read.reverse ++ list) r' ∧
      Before r' behind ∧ list.map (reword id) = (pieces.map Prod.snd).map (reword words) := by
  induction pieces generalizing rounds r read with
  | nil =>
      obtain ⟨rounds, rfl⟩ := Nat.exists_eq_add_one.mpr enough
      refine ⟨[], r, ?_, before, rfl⟩
      unfold collectFrom
      rw [bind_eq (stops r before), List.append_nil]
      rfl
  | cons p pieces ih =>
      obtain ⟨rounds, rfl⟩ := Nat.exists_eq_add_one.mpr (Nat.zero_lt_of_lt enough)
      have fewer := Nat.lt_of_succ_lt_succ enough
      rw [pieceTokens, List.flatMap_cons, List.append_assoc, List.append_assoc] at before
      obtain ⟨a, between, once, before, same⟩ :=
        each p List.mem_cons_self (pieceTokens words pieces ++ behind) r before
          (List.append_ne_nil_of_right_ne_nil _ goesOn)
      obtain ⟨list, r', others, left, sameOthers⟩ :=
        ih (fun q mem => each q (List.mem_cons_of_mem p mem)) fewer (a :: read) before
      refine ⟨a :: list, r', ?_, left, congrArg₂ List.cons same sameOthers⟩
      unfold collectFrom
      rw [bind_eq once]
      rw [List.reverse_cons, List.append_assoc] at others
      exact others

omit [Worded α] in
theorem length_pieceTokens (words : String → String) (pieces : List (List Located × α)) :
    pieces.length ≤ (pieceTokens words pieces).length := by
  induction pieces with
  | nil => exact Nat.le_refl _
  | cons p pieces ih =>
      have tokens : pieceTokens words (p :: pieces) =
          (p.1.map fun t => t.token.reworded words) ++ [.mark .semi] ++ pieceTokens words pieces :=
        List.flatMap_cons
      rw [tokens, List.length_append, List.length_append, List.length_cons, List.length_singleton]
      omega

omit [Worded α] in
theorem length_le_pieceTokens (words : String → String) {pieces : List (List Located × α)}
    {p : List Located × α} (mem : p ∈ pieces) :
    p.1.length < (pieceTokens words pieces).length := by
  obtain ⟨before, behind, rfl⟩ := List.append_of_mem mem
  simp only [pieceTokens, List.flatMap_append, List.flatMap_cons, List.length_append,
    List.length_map, List.length_singleton]
  omega

theorem collect_pieces (round : Parser (Piece α)) (behind : List Token) (goesOn : behind ≠ [])
    (stops : ∀ r, Before r behind → round r = .ok .stop r) {pieces : List (List Located × α)}
    (each : ∀ p ∈ pieces, ReadsPiece words round p) {r : Reading}
    (before : Before r (pieceTokens words pieces ++ behind)) :
    ∃ list r', collect round r = .ok list r' ∧ Before r' behind ∧
      list.map (reword id) = (pieces.map Prod.snd).map (reword words) := by
  have enough : pieces.length < r.bound + 1 := by
    have text := congrArg List.length before.text
    rw [List.length_map, List.length_append] at text
    have shorter := length_pieceTokens words pieces
    have bound := before.enough
    omega
  exact collectFrom_pieces goesOn stops pieces each enough [] before

end

/-! ## Programs -/

/-- A program in pieces: the name of its package, its imports and its declarations. -/
structure Layout where
  package : String
  imports : List (List Located × List Import)
  decls : List (List Located × Decl)
  imports_read : ∀ p ∈ imports, IsImport p.1 p.2
  decls_read : ∀ p ∈ decls, IsDeclaration p.1 p.2

namespace Layout

/-- The tokens in front of the declarations, in other words. -/
def headTokens (l : Layout) (words : String → String) : List Token :=
  .keyword .package :: .name (words l.package) :: .mark .semi :: pieceTokens words l.imports

/-- The tokens of a program in pieces, in other words. -/
def tokens (l : Layout) (words : String → String) : List Token :=
  l.headTokens words ++ (pieceTokens words l.decls ++ [.endOfText])

/-- What the pieces say. -/
def program (l : Layout) : Program :=
  ⟨l.package, (l.imports.map Prod.snd).flatten, l.decls.map Prod.snd⟩

end Layout

section

variable {words : String → String} {front : List Located} {r : Reading}

theorem reworded_isMark_semi (t : Token) (f : String → String) :
    t.reworded f = .mark .semi ↔ t = .mark .semi := by
  cases t <;> simp [Token.reworded]

theorem firstToken_reworded (words : String → String) (more : List Token) {t : Token}
    (first : firstToken front = t) (some_ : t ≠ .endOfText) :
    ∃ others, (front.map fun t => t.token.reworded words) ++ more =
      t.reworded words :: others := by
  match front, first with
  | [], first => exact absurd first.symm some_
  | u :: others, first => exact ⟨_, by rw [← first]; rfl⟩

theorem IsImport.readsPiece {list : List Import} (isImport : IsImport front list)
    (harmless : Harmless words) :
    ReadsPiece words (entry (·.isKeyword .import) fun _ => importClause) (front, list) := by
  intro more r before goesOn
  obtain ⟨a, r', ran, left, same⟩ := isImport.reads.before importClause harmless
    (fun v _ => Pair.importClause_parallel) before goesOn
  obtain ⟨others, begins⟩ := firstToken_reworded words (.mark .semi :: more) isImport.begins nofun
  rw [begins] at before
  obtain ⟨r'', entered, later⟩ := entry_reads (·.isKeyword .import) (fun _ => importClause) before
    nofun rfl ran left goesOn
  exact ⟨a, r'', entered, later, same⟩

theorem IsDeclaration.begins {d : Decl} (isDecl : IsDeclaration front d) :
    isNoEnd (firstToken front) = true ∧ firstToken front ≠ .mark .semi ∧
      (firstToken front).isKeyword .import = false := by
  unfold IsDeclaration ReadsFront at isDecl
  cases first : firstToken front with
  | keyword k =>
      refine ⟨rfl, nofun, ?_⟩
      cases k with
      | «import» =>
          rw [first] at isDecl
          exact (fail_ok isDecl).elim
      | _ => rfl
  | _ =>
      rw [first] at isDecl
      exact (unexpected_ok isDecl).elim

theorem declarationAt_reworded (g : Grammar) (t : Token) :
    declarationAt g (t.reworded words) = declarationAt g t := by
  cases t <;> rfl

theorem IsDeclaration.readsPiece {d : Decl} (isDecl : IsDeclaration front d)
    (harmless : Harmless words) {depth : Nat} (deep : (front ++ pieceEnd).length ≤ depth) :
    ReadsPiece words (decl (.ofDepth depth)) (front, d) := by
  intro more r before goesOn
  obtain ⟨a, r', ran, left, same⟩ := isDecl.before
    (declarationAt (.ofDepth depth) (firstToken front)) harmless
    (fun v _ => Pair.declarationAt_parallel (Pair.grammars_ofDepth deep) _) before goesOn
  obtain ⟨goes, noSemi, -⟩ := isDecl.begins
  obtain ⟨others, begins⟩ := firstToken_reworded words (.mark .semi :: more)
    (rfl : firstToken front = firstToken front) fun isEnd => by
      rw [isEnd] at goes
      cases goes
  rw [begins] at before
  rw [← declarationAt_reworded] at ran
  have beginsOne : isNoEnd ((firstToken front).reworded words) = true := by
    cases first : firstToken front with
    | endOfText =>
        rw [first] at goes
        cases goes
    | _ => rfl
  obtain ⟨r'', entered, later⟩ := entry_reads isNoEnd (declarationAt (.ofDepth depth)) before
    (fun isSemi => noSemi ((reworded_isMark_semi _ _).mp isSemi)) beginsOne ran left goesOn
  exact ⟨a, r'', (decl_eq (.ofDepth depth)).symm ▸ entered, later, same⟩

theorem first_of_declarations (words : String → String) {pieces : List (List Located × Decl)}
    (areDecls : ∀ p ∈ pieces, IsDeclaration p.1 p.2) :
    ∃ t others, pieceTokens words pieces ++ [.endOfText] = t :: others ∧ t ≠ .mark .semi ∧
      t.isKeyword .import = false := by
  cases pieces with
  | nil => exact ⟨_, _, rfl, nofun, rfl⟩
  | cons p pieces =>
      obtain ⟨front, d⟩ := p
      obtain ⟨goes, noSemi, noImport⟩ := (areDecls _ List.mem_cons_self).begins
      cases front with
      | nil => cases goes
      | cons u front =>
          refine ⟨_, _, rfl, fun isSemi => noSemi ((reworded_isMark_semi _ _).mp isSemi), ?_⟩
          rw [Pair.reworded_isKeyword]
          exact noImport

/-- A program in pieces is read piece by piece, in other words as in its own. -/
theorem Layout.reads (l : Layout) (harmless : Harmless words) {located : List Located}
    (text : located.map Located.token = l.tokens words) :
    ∃ p s', Parser.program (.ofDepth located.length) ⟨located, located.length, 0, 0⟩ = .ok p s' ∧
      p.reworded id = l.program.reworded words := by
  have before : Before ⟨located, located.length, 0, 0⟩ (l.tokens words) :=
    ⟨text, rfl, rfl, Nat.le_refl _⟩
  have deep : ∀ p ∈ l.decls, (p.1 ++ pieceEnd).length ≤ located.length := by
    intro p mem
    have shorter := length_le_pieceTokens words mem
    have length := congrArg List.length text
    simp only [Layout.tokens, Layout.headTokens, List.length_map, List.length_cons,
      List.length_append] at length
    simp only [List.length_append, pieceEnd, List.length_cons, List.length_nil]
    omega
  obtain ⟨r₁, package, before₁⟩ := before.eatKeyword (List.cons_ne_nil _ _)
  obtain ⟨r₂, word, before₂⟩ := before₁.name (List.cons_ne_nil _ _)
  obtain ⟨r₃, ended, before₃⟩ := before₂.endOfStatement (by simp)
  obtain ⟨t, others, declTokens, noSemi, noImport⟩ := first_of_declarations words l.decls_read
  obtain ⟨groups, r₄, imported, before₄, sameImports⟩ := collect_pieces
    (entry (·.isKeyword .import) fun _ => importClause)
    (pieceTokens words l.decls ++ [.endOfText]) (by simp)
    (fun r before => entry_stops _ _ (declTokens ▸ before) noSemi noImport)
    (fun p mem => (l.imports_read p mem).readsPiece harmless) before₃
  obtain ⟨list, r₅, declared, before₅, sameDecls⟩ := collect_pieces
    (Parser.decl (.ofDepth located.length)) [.endOfText] (List.cons_ne_nil _ _)
    (fun r before => (decl_eq _).symm ▸ entry_stops _ _ before nofun rfl)
    (fun p mem => (l.decls_read p mem).readsPiece harmless (deep p mem)) before₄
  refine ⟨⟨words l.package, groups.flatten, list⟩, r₅, ?_, ?_⟩
  · unfold Parser.program
    rw [bind_eq (before.skipSemicolons nofun), bind_eq package]
    dsimp only
    rw [if_pos rfl, bind_eq word, bind_eq ended, imports_eq, map_eq_pure_bind, bind_assoc,
      bind_eq imported, pure_bind, bind_eq declared]
    rfl
  · refine (Program.mk.injEq ..).mpr ⟨rfl, ?_, sameDecls⟩
    change groups.flatten.map (reword id) = ((l.imports.map Prod.snd).flatten).map (reword words)
    rw [List.map_flatten, List.map_flatten]
    exact congrArg List.flatten sameImports

end

/-! ## Programs without some of their pieces -/

/-- Whether a declaration declares a function or variables of a name, and nothing else. -/
def Decl.declaresOnly (name : String) : Decl → Bool
  | .func d => d.receiver.isNone && d.name = name
  | .var specs => !specs.isEmpty && specs.all fun spec => spec.names.all (· = name)
  | .const _ | .types _ => false

/-- A program without the functions and variables of a name. -/
def Program.without (name : String) (p : Program) : Program :=
  { p with decls := p.decls.filter fun d => !d.declaresOnly name }

namespace Layout

/-- The pieces of a program without the declarations that have a property. -/
def without (l : Layout) (gone : Decl → Bool) : Layout :=
  { l with
    decls := l.decls.filter fun p => !gone p.2
    decls_read := fun p mem => l.decls_read p (List.mem_filter.mp mem).1 }

theorem without_program (l : Layout) (words : String → String) (name : String) :
    (l.without fun d => (d.reworded words).declaresOnly name).program.reworded words =
      (l.program.reworded words).without name := by
  refine (Program.mk.injEq ..).mpr ⟨rfl, rfl, ?_⟩
  change ((l.decls.filter _).map Prod.snd).map (Decl.reworded words) =
    ((l.decls.map Prod.snd).map (Decl.reworded words)).filter _
  rw [List.filter_map, List.filter_map]
  rfl

theorem parses (l : Layout) {words : String → String} (harmless : Harmless words) {source : String}
    {located : List Located} (lexed : tokenize source = .ok located)
    (laid : located.map Located.token = l.tokens words) :
    ∃ p, parseProgram source = .ok p ∧ p.reworded id = l.program.reworded words := by
  obtain ⟨p, s, ran, same⟩ := l.reads harmless laid
  exact ⟨p, parseProgram_ok_iff.mpr ⟨located, s, lexed, ran⟩, same⟩

end Layout

theorem harmless_id : Harmless id := ⟨fun _ _ _ => .rfl, ⟨rfl, rfl⟩, rfl⟩

theorem Import.reworded_reworded (f g : String → String) (i : Import) :
    (i.reworded f).reworded g = i.reworded (g ∘ f) :=
  congrArg (Import.mk · i.path) (Option.map_map g f i.givenName)

theorem Program.reworded_reworded (f g : String → String) (p : Program) :
    (p.reworded f).reworded g = p.reworded (g ∘ f) := by
  refine (Program.mk.injEq ..).mpr ⟨rfl, ?_, ?_⟩
  · exact map_twice (Import.reworded_reworded f g) p.imports
  · exact map_twice (Decl.reworded_reworded f g) p.decls

end SandboxedGo.Source
