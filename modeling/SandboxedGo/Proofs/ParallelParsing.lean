import SandboxedGo.Proofs.ParserSteps
import SandboxedGo.Proofs.RewordedTrees

/-!
# Parsers beside each other

A parser that has not gone beyond a semicolon has seen nothing of what comes behind it.  Before
another text behind another semicolon it goes the same way, and also where the names are other ones
or the positions.  What it reads there is the same in the same words.
-/

set_option autoImplicit false

namespace SandboxedGo.Source

/-! ## What can be reworded -/

/-- What parsers read: it holds names, and maybe lines that do not count. -/
class Worded (α : Type) where
  reword : (String → String) → α → α
  reword_id : ∀ (f : String → String) (a : α), reword id (reword f a) = reword f a

export Worded (reword reword_id)

instance : Worded Unit := ⟨fun _ a => a, fun _ _ => rfl⟩
instance : Worded Bool := ⟨fun _ a => a, fun _ _ => rfl⟩
instance : Worded String := ⟨fun f word => f word, fun _ _ => rfl⟩
instance : Worded TypeExpr := ⟨TypeExpr.reworded, fun f => TypeExpr.reworded_reworded f id⟩
instance : Worded FieldDecl := ⟨FieldDecl.reworded, fun f => FieldDecl.reworded_reworded f id⟩
instance : Worded Param := ⟨Param.reworded, fun f => Param.reworded_reworded f id⟩
instance : Worded TypeSpec := ⟨TypeSpec.reworded, fun f => TypeSpec.reworded_reworded f id⟩
instance : Worded Expr := ⟨Expr.reworded, fun f => Expr.reworded_reworded f id⟩
instance : Worded FuncLit := ⟨FuncLit.reworded, fun f => FuncLit.reworded_reworded f id⟩
instance : Worded Stmt := ⟨Stmt.reworded, fun f => Stmt.reworded_reworded f id⟩
instance : Worded StmtKind := ⟨StmtKind.reworded, fun f => StmtKind.reworded_reworded f id⟩
instance : Worded ValueSpec := ⟨ValueSpec.reworded, fun f => ValueSpec.reworded_reworded f id⟩
instance : Worded SwitchCase := ⟨SwitchCase.reworded, fun f => SwitchCase.reworded_reworded f id⟩
instance : Worded TypeCase := ⟨TypeCase.reworded, fun f => TypeCase.reworded_reworded f id⟩
instance : Worded FuncDecl := ⟨FuncDecl.reworded, fun f => FuncDecl.reworded_reworded f id⟩
instance : Worded Decl := ⟨Decl.reworded, fun f => Decl.reworded_reworded f id⟩

instance {α : Type} [Worded α] : Worded (List α) :=
  ⟨fun f => List.map (reword f), fun f => map_twice (reword_id f)⟩

instance {α : Type} [Worded α] : Worded (Option α) :=
  ⟨fun f => Option.map (reword f), fun f => option_twice (reword_id f)⟩

instance {α β : Type} [Worded α] [Worded β] : Worded (α × β) :=
  ⟨fun f => Prod.map (reword f) (reword f),
    fun f a => Prod.ext (reword_id f a.1) (reword_id f a.2)⟩

/-- A round of a loop in other words. -/
def Parser.Piece.map {α β : Type} (f : α → β) : Parser.Piece α → Parser.Piece β
  | .stop => .stop
  | .last a => .last (f a)
  | .more a => .more (f a)

instance {α : Type} [Worded α] : Worded (Parser.Piece α) where
  reword f := Parser.Piece.map (reword f)
  reword_id f piece := by
    cases piece with
    | stop => rfl
    | last a => exact congrArg Parser.Piece.last (reword_id f a)
    | more a => exact congrArg Parser.Piece.more (reword_id f a)

/-! ## Two readings -/

/-- Two texts that begin alike, the second in other words: the words, and what comes behind each of
them from the semicolon on that ends what they have in common. -/
structure Pair where
  words : String → String
  keeps : ∀ word ∈ "type" :: parserNames, ∀ other, words other = word ↔ other = word
  keepsMethods : words "String" = "String" ∧ words "Error" = "Error"
  keepsPoint : words "." = "."
  place : Position
  next : Located
  others : List Located
  place' : Position
  next' : Located
  others' : List Located

def Pair.behind (v : Pair) : List Located := ⟨.mark .semi, v.place⟩ :: v.next :: v.others

def Pair.behind' (v : Pair) : List Located := ⟨.mark .semi, v.place'⟩ :: v.next' :: v.others'

/-- The readings of two texts at the same place. -/
structure Pair.Beside (v : Pair) (s r : Reading) : Prop where
  alike : ∃ seen seen', s.rest = seen ++ v.behind ∧ r.rest = seen' ++ v.behind' ∧
    seen'.map Located.token = seen.map fun t => t.token.reworded v.words
  level : r.level = s.level
  depth : r.depth = s.depth
  bound : s.bound ≤ r.bound
  enough : s.rest.length ≤ s.bound
  enough' : r.rest.length ≤ r.bound

/-- The same in the words of the second text. -/
def Pair.Same (v : Pair) {α : Type} [Worded α] (a a' : α) : Prop :=
  reword id a' = reword v.words a

/-- Two parsers that go the same way before the end of what two texts have in common; what they
read is in a relation. -/
structure Pair.Parallel (v : Pair) {α α' : Type} (R : α → α' → Prop) (p : Parser α)
    (p' : Parser α') : Prop where
  shrinks : ∀ {s s' : Reading} {a : α}, p s = .ok a s' → s'.rest.length ≤ s.rest.length
  goes : ∀ {s s' r : Reading} {a : α}, v.Beside s r → p s = .ok a s' →
    v.behind.length ≤ s'.rest.length →
    ∃ a' r', p' r = .ok a' r' ∧ v.Beside s' r' ∧ R a a'

variable {v : Pair} {α α' β β' γ : Type}

namespace Pair

theorem Same.of_total [Worded α] (v : Pair) (a : α) : v.Same a (reword v.words a) :=
  reword_id v.words a

section

variable [Worded α] [Worded β] {a a' : α} {b b' : β} {list list' : List α}

theorem Same.cons (first : v.Same a a') (others : v.Same list list') :
    v.Same (a :: list) (a' :: list') :=
  congrArg₂ List.cons first others

theorem Same.reverse (same : v.Same list list') : v.Same list.reverse list'.reverse := by
  change list'.reverse.map _ = list.reverse.map _
  rw [List.map_reverse, List.map_reverse]
  exact congrArg List.reverse same

theorem Same.map {f f' : α → β} (alike : ∀ a a', v.Same a a' → v.Same (f a) (f' a')) :
    ∀ {list list' : List α}, v.Same list list' → v.Same (list.map f) (list'.map f')
  | [], [], _ => rfl
  | _ :: _, _ :: _, same =>
    .cons (alike _ _ (List.cons.inj same).1) (Same.map alike (List.cons.inj same).2)

/-- What a function makes of the same is the same, if it does not look at names. -/
theorem Same.apply {f : α → β} (same : v.Same a a')
    (natural : ∀ words a, reword words (f a) = f (reword words a)) : v.Same (f a) (f a') := by
  unfold Same
  rw [natural, natural, same]

theorem Same.observe {γ : Type} {f : α → γ} (same : v.Same a a')
    (blind : ∀ words a, f (reword words a) = f a) : f a' = f a := by
  rw [← blind id a', same, blind]

theorem Same.some (same : v.Same a a') : v.Same (some a) (some a') := congrArg Option.some same

theorem Same.option {x x' : Option α} (same : v.Same x x') :
    x = none ∧ x' = none ∨ ∃ a a', x = Option.some a ∧ x' = Option.some a' ∧ v.Same a a' := by
  cases x with
  | none =>
      cases x' with
      | none => exact .inl ⟨rfl, rfl⟩
      | some a' => cases same
  | some a =>
      cases x' with
      | none => cases same
      | some a' => exact .inr ⟨a, a', rfl, rfl, Option.some.inj same⟩

theorem Same.isNone {x x' : Option α} (same : v.Same x x') : x'.isNone = x.isNone :=
  same.observe (f := fun x : Option α => x.isNone) fun _ _ => Option.isNone_map

theorem Same.isEmpty (same : v.Same list list') : list'.isEmpty = list.isEmpty :=
  same.observe (f := fun list : List α => list.isEmpty) fun _ _ => List.isEmpty_map

theorem Same.length (same : v.Same list list') : list'.length = list.length :=
  same.observe (f := fun list : List α => list.length) fun _ _ => List.length_map _

theorem Same.getElem? (same : v.Same list list') (i : Nat) : v.Same list[i]? list'[i]? :=
  same.apply (f := fun list => list[i]?) fun _ _ => List.getElem?_map.symm

theorem Same.pair (first : v.Same a a') (second : v.Same b b') : v.Same (a, b) (a', b') :=
  congrArg₂ Prod.mk first second

theorem Same.fst {both both' : α × β} (same : v.Same both both') : v.Same both.1 both'.1 :=
  congrArg Prod.fst same

theorem Same.snd {both both' : α × β} (same : v.Same both both') : v.Same both.2 both'.2 :=
  congrArg Prod.snd same

theorem Same.flatten {lists lists' : List (List α)} (same : v.Same lists lists') :
    v.Same lists.flatten lists'.flatten := by
  change lists'.flatten.map _ = lists.flatten.map _
  rw [List.map_flatten, List.map_flatten]
  exact congrArg List.flatten same

end

theorem Beside.first {s r : Reading} (beside : v.Beside s r) :
    firstToken r.rest = (firstToken s.rest).reworded v.words := by
  obtain ⟨seen, seen', text, text', same⟩ := beside.alike
  rw [text, text']
  match seen, seen', same with
  | [], [], _ => rfl
  | t :: seen, t' :: seen', same => exact (List.cons.inj same).1

theorem Beside.lengths {s r : Reading} (beside : v.Beside s r) :
    s.rest.length + v.behind'.length = r.rest.length + v.behind.length := by
  obtain ⟨seen, seen', text, text', same⟩ := beside.alike
  have as_many := congrArg List.length same
  simp only [List.length_map] at as_many
  simp only [text, text', List.length_append]
  omega

theorem behindFirst_append (t : Located) (seen : List Located) (v : Pair) :
    behindFirst (t :: (seen ++ v.behind)) = seen ++ v.behind ∧
      behindFirst (t :: (seen ++ v.behind')) = seen ++ v.behind' := by
  cases seen with
  | nil => exact ⟨rfl, rfl⟩
  | cons => exact ⟨rfl, rfl⟩

theorem Beside.advance {s r : Reading} (beside : v.Beside s r)
    (stays : v.behind.length ≤ (behindFirst s.rest).length) :
    v.Beside { s with rest := behindFirst s.rest } { r with rest := behindFirst r.rest } := by
  obtain ⟨⟨seen, seen', text, text', same⟩, level, depth, bound, enough, enough'⟩ := beside
  match seen, seen', same with
  | [], [], _ =>
      rw [text] at stays
      exact absurd stays (Nat.not_succ_le_self _)
  | t :: seen, t' :: seen', same =>
      have left : behindFirst s.rest = seen ++ v.behind := by
        rw [text]
        exact (behindFirst_append t seen v).1
      have left' : behindFirst r.rest = seen' ++ v.behind' := by
        rw [text']
        exact (behindFirst_append t' seen' v).2
      rw [text, List.cons_append, List.length_cons] at enough
      rw [text', List.cons_append, List.length_cons] at enough'
      refine ⟨⟨seen, seen', left, left', (List.cons.inj same).2⟩, level, depth, bound, ?_, ?_⟩
      · rw [left]
        exact Nat.le_of_succ_le enough
      · rw [left']
        exact Nat.le_of_succ_le enough'

end Pair

theorem Pair.Beside.second {s r : Reading} (beside : v.Beside s r)
    (noSemi : firstToken s.rest ≠ .mark .semi) :
    secondToken r.rest = (secondToken s.rest).reworded v.words := by
  obtain ⟨seen, seen', text, text', same⟩ := beside.alike
  rw [text] at noSemi ⊢
  rw [text']
  cases seen with
  | nil => exact absurd rfl noSemi
  | cons t seen =>
      cases seen' with
      | nil => cases same
      | cons t' seen' =>
          have same := (List.cons.inj same).2
          cases seen with
          | nil =>
              rw [List.map_eq_nil_iff.mp same]
              rfl
          | cons u seen =>
              cases seen' with
              | nil => cases same
              | cons u' seen' => exact (List.cons.inj same).1

open SandboxedGo.Source.Parser

namespace Pair

variable {R : α → α' → Prop} {S : β → β' → Prop}

/-! ## Sequences -/

namespace Parallel

theorem pure {a : α} {a' : α'} (same : R a a') : v.Parallel R (pure a) (pure a') where
  shrinks ran := by
    obtain ⟨_, rfl⟩ := pure_ok ran
    exact Nat.le_refl _
  goes beside ran _ := by
    obtain ⟨rfl, rfl⟩ := pure_ok ran
    exact ⟨a', _, rfl, beside, same⟩

theorem fail {p' : Parser α'} {fault : Fault} : v.Parallel R (fail fault) p' where
  shrinks ran := (fail_ok ran).elim
  goes _ ran _ := (fail_ok ran).elim

theorem unexpected {p' : Parser α'} {what : String} : v.Parallel R (unexpected what) p' where
  shrinks ran := (unexpected_ok ran).elim
  goes _ ran _ := (unexpected_ok ran).elim

/-- One parser after another, the second of which consumes no fewer tokens than none. -/
theorem bindShrinking {p : Parser α} {p' : Parser α'} {f : α → Parser β} {f' : α' → Parser β'}
    (first : v.Parallel R p p')
    (shrinks : ∀ a {s s' b}, f a s = .ok b s' → s'.rest.length ≤ s.rest.length)
    (next : ∀ a a', R a a' → v.Parallel S (f a) (f' a')) : v.Parallel S (p >>= f) (p' >>= f') where
  shrinks ran := by
    obtain ⟨a, between, before, behind⟩ := bind_ok ran
    exact Nat.le_trans (shrinks a behind) (first.shrinks before)
  goes beside ran stays := by
    obtain ⟨a, between, before, behind⟩ := bind_ok ran
    obtain ⟨a', between', before', beside, same⟩ :=
      first.goes beside before (Nat.le_trans stays (shrinks a behind))
    obtain ⟨b, r, behind', beside, same⟩ := (next a a' same).goes beside behind stays
    exact ⟨b, r, (bind_eq before' f').trans behind', beside, same⟩

/-- One parser after another; what the first one reads is related to something anyway. -/
theorem bind {p : Parser α} {p' : Parser α'} {f : α → Parser β} {f' : α' → Parser β'}
    (anyway : ∀ a, ∃ a', R a a') (first : v.Parallel R p p')
    (next : ∀ a a', R a a' → v.Parallel S (f a) (f' a')) : v.Parallel S (p >>= f) (p' >>= f') := by
  refine first.bindShrinking (fun a {_ _ _} ran => ?_) next
  obtain ⟨a', same⟩ := anyway a
  exact (next a a' same).shrinks ran

theorem andThen [Worded α] {p p' : Parser α} {f : α → Parser β} {f' : α → Parser β'}
    (first : v.Parallel v.Same p p')
    (next : ∀ a a', v.Same a a' → v.Parallel S (f a) (f' a')) :
    v.Parallel S (p >>= f) (p' >>= f') :=
  .bind (fun a => ⟨_, .of_total v a⟩) first next

theorem thenEq {p p' : Parser α} {f : α → Parser β} {f' : α → Parser β'}
    (first : v.Parallel Eq p p') (next : ∀ a, v.Parallel S (f a) (f' a)) :
    v.Parallel S (p >>= f) (p' >>= f') :=
  .bind (fun a => ⟨a, rfl⟩) first fun a _ same => same ▸ next a

theorem thenAny {p p' : Parser α} {f : α → Parser β} {f' : α → Parser β'}
    (first : v.Parallel (fun _ _ => True) p p') (next : ∀ a a', v.Parallel S (f a) (f' a')) :
    v.Parallel S (p >>= f) (p' >>= f') :=
  .bind (fun a => ⟨a, trivial⟩) first fun a a' _ => next a a'

theorem map [Worded α] {p p' : Parser α} {f : α → β} {f' : α → β'}
    (first : v.Parallel v.Same p p') (same : ∀ a a', v.Same a a' → S (f a) (f' a')) :
    v.Parallel S (f <$> p) (f' <$> p') := by
  rw [map_eq_pure_bind, map_eq_pure_bind]
  exact first.andThen fun a a' related => .pure (same a a' related)

theorem cond {c : Prop} [Decidable c] {p q : Parser α} {p' q' : Parser α'}
    (yes : c → v.Parallel R p p') (no : ¬c → v.Parallel R q q') :
    v.Parallel R (if c then p else q) (if c then p' else q') := by
  by_cases h : c
  · rw [if_pos h, if_pos h]
    exact yes h
  · rw [if_neg h, if_neg h]
    exact no h

theorem join [Worded α] {c : Prop} [Decidable c] {p q p' q' : Parser α} {f : α → Parser β}
    {f' : α → Parser β'} (yes : c → v.Parallel v.Same p p') (no : ¬c → v.Parallel v.Same q q')
    (next : ∀ a a', v.Same a a' → v.Parallel S (f a) (f' a')) :
    v.Parallel S (if c then p >>= f else q >>= f) (if c then p' >>= f' else q' >>= f') :=
  .cond (fun h => (yes h).andThen next) fun h => (no h).andThen next

theorem failThen {fault : Fault} {f : α → Parser β} {p' : Parser β'} :
    v.Parallel S (Parser.fail fault >>= f) p' where
  shrinks ran := by
    obtain ⟨_, _, failed, _⟩ := bind_ok ran
    exact (fail_ok failed).elim
  goes _ ran _ := by
    obtain ⟨_, _, failed, _⟩ := bind_ok ran
    exact (fail_ok failed).elim

theorem unexpectedThen {what : String} {f : α → Parser β} {p' : Parser β'} :
    v.Parallel S (Parser.unexpected what >>= f) p' where
  shrinks ran := by
    obtain ⟨_, _, failed, _⟩ := bind_ok ran
    exact (unexpected_ok failed).elim
  goes _ ran _ := by
    obtain ⟨_, _, failed, _⟩ := bind_ok ran
    exact (unexpected_ok failed).elim

end Parallel

/-! ## Single tokens -/

theorem reworded_isMark (f : String → String) (t : Token) (m : Mark) :
    (t.reworded f).isMark m = t.isMark m := by
  cases t <;> rfl

theorem reworded_isKeyword (f : String → String) (t : Token) (k : Keyword) :
    (t.reworded f).isKeyword k = t.isKeyword k := by
  cases t <;> rfl

theorem peek_parallel : v.Parallel (fun t t' => t' = t.reworded v.words) peek peek where
  shrinks ran := by
    obtain ⟨_, rfl⟩ := peek_ok ran
    exact Nat.le_refl _
  goes {s s' r a} beside ran _ := by
    obtain ⟨rfl, rfl⟩ := peek_ok ran
    exact ⟨_, r, peek_eq r, beside, beside.first⟩

theorem Parallel.peekThen {f : Token → Parser β} {f' : Token → Parser β'}
    (next : ∀ t, v.Parallel S (f t) (f' (t.reworded v.words))) :
    v.Parallel S (peek >>= f) (peek >>= f') :=
  .bind (R := fun t t' => t' = t.reworded v.words) (fun _ => ⟨_, rfl⟩) peek_parallel
    fun t _ same => same ▸ next t

theorem Parallel.peekBlind {f f' : Token → Parser β} {S : β → β → Prop}
    (blind : ∀ word word', f' (.name word) = f' (.name word'))
    (next : ∀ t, v.Parallel S (f t) (f' t)) : v.Parallel S (peek >>= f) (peek >>= f') := by
  refine .peekThen fun t => ?_
  have same : f' (t.reworded v.words) = f' t := by
    cases t with
    | name word => exact blind _ _
    | _ => rfl
  rw [same]
  exact next t

theorem Parallel.peekName {f f' : Token → Parser β} {S : β → β → Prop}
    (names : ∀ word, v.Parallel S (f (.name word)) (f' (.name (v.words word))))
    (others : ∀ t, t.isName = false → v.Parallel S (f t) (f' t)) :
    v.Parallel S (peek >>= f) (peek >>= f') := by
  refine .peekThen fun t => ?_
  cases t with
  | name word => exact names word
  | _ => exact others _ rfl

/-- Two tokens are seen at once; what follows a semicolon does not count. -/
theorem Parallel.peekBoth {f f' : Token → Token → Parser β}
    {S : β → β → Prop} (next : ∀ t u u', (t ≠ .mark .semi → u' = u.reworded v.words) →
      v.Parallel S (f t u) (f' (t.reworded v.words) u')) :
    v.Parallel S (peek >>= fun t => peekSecond >>= fun u => f t u)
      (peek >>= fun t => peekSecond >>= fun u => f' t u) where
  shrinks {s s' a} ran := by
    rw [bind_eq (peek_eq s), bind_eq (peekSecond_eq s)] at ran
    exact (next _ _ _ fun _ => rfl).shrinks ran
  goes {s s' r a} beside ran stays := by
    rw [bind_eq (peek_eq s), bind_eq (peekSecond_eq s)] at ran
    rw [bind_eq (peek_eq r), bind_eq (peekSecond_eq r), beside.first]
    exact (next _ _ _ beside.second).goes beside ran stays

theorem line_parallel : v.Parallel (fun _ _ => True) line line where
  shrinks {s s' a} ran := by
    obtain ⟨t, between, got, ran⟩ := bind_ok ran
    obtain ⟨_, rfl⟩ := pure_ok ran
    obtain ⟨rest, bound, level, depth⟩ := s
    cases rest <;> cases got <;> exact Nat.le_refl _
  goes {s s' r a} beside ran _ := by
    have same : s' = s := by
      obtain ⟨t, between, got, ran⟩ := bind_ok ran
      obtain ⟨_, rfl⟩ := pure_ok ran
      obtain ⟨rest, bound, level, depth⟩ := s
      cases rest <;> cases got <;> rfl
    subst same
    obtain ⟨rest, bound, level, depth⟩ := r
    cases rest <;> exact ⟨_, _, rfl, beside, trivial⟩

theorem advance_parallel : v.Parallel Eq advance advance where
  shrinks {s s' a} ran := by
    rw [advance_ok ran]
    match s.rest with
    | [] => exact Nat.le_refl _
    | [_] => exact Nat.le_refl _
    | _ :: _ :: _ => exact Nat.le_succ _
  goes {s s' r a} beside ran stays := by
    rw [advance_eq] at ran
    cases ran
    exact ⟨(), _, advance_eq r, beside.advance stays, rfl⟩

theorem Parallel.advanceThen {f : Unit → Parser β} {f' : Unit → Parser β'}
    (next : v.Parallel S (f ()) (f' ())) : v.Parallel S (advance >>= f) (advance >>= f') :=
  advance_parallel.thenEq fun _ => next

theorem atMark_parallel (m : Mark) : v.Parallel Eq (atMark m) (atMark m) := by
  unfold atMark
  refine .peekThen fun t => .pure ?_
  rw [reworded_isMark]

theorem atKeyword_parallel (k : Keyword) : v.Parallel Eq (atKeyword k) (atKeyword k) := by
  unfold atKeyword
  refine .peekThen fun t => .pure ?_
  rw [reworded_isKeyword]

theorem eat_parallel (m : Mark) : v.Parallel Eq (eat m) (eat m) := by
  unfold eat
  refine (atMark_parallel m).thenEq fun found => .cond (fun _ => ?_) fun _ => .pure rfl
  exact .advanceThen (.pure rfl)

theorem eatKeyword_parallel (k : Keyword) : v.Parallel Eq (eatKeyword k) (eatKeyword k) := by
  unfold eatKeyword
  refine (atKeyword_parallel k).thenEq fun found => .cond (fun _ => ?_) fun _ => .pure rfl
  exact .advanceThen (.pure rfl)

theorem expect_parallel (m : Mark) (what : String) :
    v.Parallel Eq (expect m what) (expect m what) := by
  unfold expect
  exact (eat_parallel m).thenEq fun taken => .cond (fun _ => .pure rfl) fun _ => .unexpected

theorem name_parallel : v.Parallel v.Same name name := by
  unfold name
  refine .peekThen fun t => ?_
  cases t with
  | name word => exact .advanceThen (.pure rfl)
  | _ => exact .unexpected

theorem dropSemicolons_alike : ∀ seen seen' : List Located,
    seen'.map Located.token = (seen.map fun t => t.token.reworded v.words) →
    v.behind.length ≤ ((seen ++ v.behind).dropWhile (·.token.isMark .semi)).length →
    ∃ left left', (seen ++ v.behind).dropWhile (·.token.isMark .semi) = left ++ v.behind ∧
      (seen' ++ v.behind').dropWhile (·.token.isMark .semi) = left' ++ v.behind' ∧
      left'.map Located.token = left.map fun t => t.token.reworded v.words := by
  intro seen
  induction seen with
  | nil =>
      intro seen' _ stays
      have shorter := (List.dropWhile_suffix (·.token.isMark .semi)
        (l := v.next :: v.others)).length_le
      exact absurd (Nat.le_trans stays shorter) (Nat.not_succ_le_self _)
  | cons t seen ih =>
      intro seen' same stays
      match seen', same with
      | t' :: seen', same =>
          obtain ⟨first, others⟩ := List.cons.inj same
          have isSemi : t'.token.isMark .semi = t.token.isMark .semi := by
            rw [show t'.token = _ from first, reworded_isMark]
          simp only [List.cons_append, List.dropWhile_cons, isSemi] at stays ⊢
          split
          · rename_i semi
            rw [if_pos semi] at stays
            exact ih seen' others stays
          · exact ⟨t :: seen, t' :: seen', rfl, rfl, same⟩

theorem skipSemicolons_parallel : v.Parallel Eq skipSemicolons skipSemicolons where
  shrinks ran := by
    rw [skipSemicolons_ok ran]
    exact (List.dropWhile_suffix _).length_le
  goes {s s' r a} beside ran stays := by
    cases ran
    obtain ⟨⟨seen, seen', text, text', same⟩, level, depth, bound, enough, enough'⟩ := beside
    simp only [text] at stays
    obtain ⟨left, left', text₁, text₁', same⟩ := dropSemicolons_alike seen seen' same stays
    have shorter := (List.dropWhile_suffix (·.token.isMark .semi) (l := s.rest)).length_le
    have shorter' := (List.dropWhile_suffix (·.token.isMark .semi) (l := r.rest)).length_le
    rw [← text] at text₁
    rw [← text'] at text₁'
    exact ⟨(), _, rfl, ⟨⟨left, left', text₁, text₁', same⟩, level, depth, bound,
      Nat.le_trans shorter enough, Nat.le_trans shorter' enough'⟩, rfl⟩

theorem endOfStatement_parallel : v.Parallel Eq endOfStatement endOfStatement := by
  unfold endOfStatement
  refine .peekThen fun t => ?_
  cases t with
  | mark m =>
      cases m with
      | semi => exact advance_parallel
      | rParen | rBrace => exact .pure rfl
      | _ => exact .unexpected
  | endOfText => exact .pure rfl
  | _ => exact .unexpected

/-! ## Levels -/

theorem Parallel.levelThen {f f' : Int → Parser β} {S : β → β → Prop}
    (next : ∀ level, v.Parallel S (f level) (f' level)) :
    v.Parallel S (get >>= fun s => f s.level) (get >>= fun s => f' s.level) where
  shrinks ran := (next _).shrinks ran
  goes {s s' r a} beside ran stays := by
    have level := beside.level
    obtain ⟨a', r', ran', same⟩ := (next s.level).goes beside ran stays
    refine ⟨a', r', ?_, same⟩
    rw [← level] at ran'
    exact ran'

variable {p : Parser α} {p' : Parser α'}

theorem nested_parallel (inner : v.Parallel R p p') : v.Parallel R (nested p) (nested p') where
  shrinks ran := by
    obtain ⟨_, between, inside, rfl⟩ := nested_ok ran
    have shorter := inner.shrinks inside
    exact shorter
  goes {s s' r a} beside ran stays := by
    obtain ⟨below, between, inside, rfl⟩ := nested_ok ran
    have deeper : v.Beside { s with depth := s.depth + 1 } { r with depth := r.depth + 1 } :=
      { beside with depth := congrArg (· + 1) beside.depth }
    obtain ⟨a', left, inside', beside', same⟩ := inner.goes deeper inside stays
    rw [← beside.depth] at below
    exact ⟨a', _, nested_eq below inside',
      { beside' with depth := congrArg (· - 1) beside'.depth }, same⟩

theorem withLevel_parallel (change : Int → Int) (inner : v.Parallel R p p') :
    v.Parallel R (withLevel change p) (withLevel change p') where
  shrinks ran := by
    obtain ⟨between, inside, rfl⟩ := withLevel_ok ran
    have shorter := inner.shrinks inside
    exact shorter
  goes {s s' r a} beside ran stays := by
    obtain ⟨between, inside, rfl⟩ := withLevel_ok ran
    have changed : v.Beside { s with level := change s.level } { r with level := change r.level } :=
      { beside with level := congrArg change beside.level }
    obtain ⟨a', left, inside', beside', same⟩ := inner.goes changed inside stays
    exact ⟨a', _, withLevel_eq inside', { beside' with level := beside.level }, same⟩

theorem inHeader_parallel (inner : v.Parallel R p p') : v.Parallel R (inHeader p) (inHeader p') :=
  withLevel_parallel _ inner

theorem inBrackets_parallel (inner : v.Parallel R p p') :
    v.Parallel R (inBrackets p) (inBrackets p') :=
  withLevel_parallel _ inner

/-! ## Loops -/

section

variable [Worded γ]

theorem collectFrom_parallel {round round' : List γ → Parser (Piece γ)}
    (each : ∀ read read', v.Same read read' → v.Parallel v.Same (round read) (round' read')) :
    ∀ (rounds rounds' : Nat) (read read' : List γ), rounds ≤ rounds' → v.Same read read' →
      v.Parallel v.Same (collectFrom round rounds read) (collectFrom round' rounds' read') := by
  intro rounds
  induction rounds with
  | zero => exact fun _ _ _ _ _ => .fail
  | succ rounds ih =>
      intro rounds' read read' enough same
      obtain ⟨rounds', rfl⟩ := Nat.exists_eq_add_one.mpr (Nat.zero_lt_of_lt enough)
      unfold collectFrom
      refine (each read read' same).andThen fun piece piece' alike => ?_
      cases piece with
      | stop =>
          cases piece' with
          | stop => exact .pure same.reverse
          | _ => cases alike
      | last a =>
          cases piece' with
          | last a' => exact .pure (Same.cons (Piece.last.inj alike) same).reverse
          | _ => cases alike
      | more a =>
          cases piece' with
          | more a' =>
              exact ih rounds' _ _ (Nat.le_of_succ_le_succ enough)
                (.cons (Piece.more.inj alike) same)
          | _ => cases alike

theorem collectWith_parallel {round round' : List γ → Parser (Piece γ)}
    (each : ∀ read read', v.Same read read' → v.Parallel v.Same (round read) (round' read')) :
    v.Parallel v.Same (collectWith round) (collectWith round') where
  shrinks {s s' a} ran := by
    have loop := collectFrom_parallel each (s.bound + 1) _ [] [] (Nat.le_refl _) rfl
    exact loop.shrinks ran
  goes {s s' r a} beside ran stays := by
    have loop := collectFrom_parallel each (s.bound + 1) (r.bound + 1) [] []
      (Nat.succ_le_succ beside.bound) rfl
    exact loop.goes beside ran stays

theorem collect_parallel {round round' : Parser (Piece γ)}
    (each : v.Parallel v.Same round round') : v.Parallel v.Same (collect round) (collect round') :=
  collectWith_parallel fun _ _ _ => each

theorem entriesTo_parallel (closing : Mark) {entry entry' : Parser γ}
    (each : v.Parallel v.Same entry entry') :
    v.Parallel v.Same (entriesTo closing entry) (entriesTo closing entry') := by
  unfold entriesTo
  refine collect_parallel (skipSemicolons_parallel.thenEq fun _ => ?_)
  refine (eat_parallel closing).thenEq fun taken => .cond (fun _ => .pure rfl) fun _ => ?_
  refine each.andThen fun a a' same => endOfStatement_parallel.thenEq fun _ => ?_
  exact .pure (congrArg Piece.more same)

theorem itemsTo_parallel (closing : Mark) (spelling : String) {item item' : List γ → Parser γ}
    (each : ∀ read read', v.Same read read' → v.Parallel v.Same (item read) (item' read')) :
    v.Parallel v.Same (itemsTo closing spelling item) (itemsTo closing spelling item') := by
  unfold itemsTo
  refine collectWith_parallel fun read read' same => skipSemicolons_parallel.thenEq fun _ => ?_
  refine (eat_parallel closing).thenEq fun taken => .cond (fun _ => .pure rfl) fun _ => ?_
  refine (each read read' same).andThen fun a a' same => ?_
  refine (eat_parallel .comma).thenEq fun more => .cond (fun _ => ?_) fun _ => ?_
  · exact .pure (congrArg Piece.more same)
  · refine skipSemicolons_parallel.thenEq fun _ => ?_
    exact (expect_parallel closing spelling).thenEq fun _ => .pure (congrArg Piece.last same)

theorem commaSeparated_parallel {item item' : Parser γ} (each : v.Parallel v.Same item item') :
    v.Parallel v.Same (commaSeparated item) (commaSeparated item') := by
  unfold commaSeparated
  refine collect_parallel (each.andThen fun a a' same => ?_)
  refine (eat_parallel .comma).thenEq fun more => .cond (fun _ => ?_) fun _ => ?_
  · exact .pure (congrArg Piece.more same)
  · exact .pure (congrArg Piece.last same)

end

end Pair

end SandboxedGo.Source
