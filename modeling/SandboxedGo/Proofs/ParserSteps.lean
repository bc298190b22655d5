import SandboxedGo.Source.Parser

/-!
# What the parser's tools do

Each tool is told by the tokens before and behind it.  A parser that succeeds has succeeded in every
step, so what a parser has read follows from its steps one by one.
-/

set_option autoImplicit false

namespace SandboxedGo.Source

/-- The first of the tokens that are left. -/
def firstToken : List Located → Token
  | t :: _ => t.token
  | [] => .endOfText

/-- The tokens behind the first one; the last one stays. -/
def behindFirst : List Located → List Located
  | _ :: t :: rest => t :: rest
  | rest => rest

/-- The token behind the next one, or the next one if it is the last. -/
def secondToken : List Located → Token
  | _ :: t :: _ => t.token
  | rest => firstToken rest

namespace Parser

section

variable {α β : Type} {s s' : Reading}

/-! ## Sequences -/

theorem bind_ok {p : Parser α} {f : α → Parser β} {b : β} (ran : (p >>= f) s = .ok b s') :
    ∃ a between, p s = .ok a between ∧ f a between = .ok b s' := by
  change EStateM.bind p f s = .ok b s' at ran
  unfold EStateM.bind at ran
  cases first : p s with
  | ok a between =>
      rw [first] at ran
      exact ⟨a, between, rfl, ran⟩
  | error e between =>
      rw [first] at ran
      cases ran

theorem bind_eq {p : Parser α} {a : α} (ran : p s = .ok a s') (f : α → Parser β) :
    (p >>= f) s = f a s' := by
  change EStateM.bind p f s = _
  rw [EStateM.bind, ran]

theorem pure_ok {a b : α} (ran : (pure a : Parser α) s = .ok b s') : a = b ∧ s = s' := by
  cases ran
  exact ⟨rfl, rfl⟩

theorem fail_ok {fault : Fault} {a : α} (ran : (fail fault : Parser α) s = .ok a s') : False := by
  obtain ⟨t, between, _, thrown⟩ := bind_ok ran
  cases thrown

theorem unexpected_ok {what : String} {a : α} (ran : (unexpected what : Parser α) s = .ok a s') :
    False := by
  obtain ⟨t, between, _, failed⟩ := bind_ok ran
  exact fail_ok failed

/-! ## Single tokens -/

theorem peek_eq (s : Reading) : peek s = .ok (firstToken s.rest) s := by
  obtain ⟨rest, bound, level, depth⟩ := s
  cases rest <;> rfl

theorem peekSecond_eq (s : Reading) : peekSecond s = .ok (secondToken s.rest) s := by
  obtain ⟨rest, bound, level, depth⟩ := s
  match rest with
  | [] => rfl
  | [_] => rfl
  | _ :: _ :: _ => rfl

theorem advance_eq (s : Reading) :
    advance s = .ok () { s with rest := behindFirst s.rest } := by
  obtain ⟨rest, bound, level, depth⟩ := s
  cases rest with
  | nil => rfl
  | cons t rest => cases rest <;> rfl

theorem peek_ok {t : Token} (ran : peek s = .ok t s') : firstToken s.rest = t ∧ s = s' := by
  rw [peek_eq] at ran
  cases ran
  exact ⟨rfl, rfl⟩

theorem advance_ok {u : Unit} (ran : advance s = .ok u s') : s'.rest = behindFirst s.rest := by
  rw [advance_eq] at ran
  cases ran
  rfl

/-- With two tokens or more left in the end, the token before them has been consumed. -/
theorem shorter_of_behindFirst {tokens rest : List Located}
    (onward : rest.length ≤ (behindFirst tokens).length) (left : 2 ≤ rest.length) :
    rest.length < tokens.length := by
  match tokens with
  | [] =>
      simp only [behindFirst, List.length_nil] at onward
      omega
  | [_] =>
      simp only [behindFirst, List.length_singleton] at onward
      omega
  | _ :: _ :: _ =>
      simp only [behindFirst, List.length_cons] at onward ⊢
      omega

theorem skipSemicolons_ok {u : Unit} (ran : skipSemicolons s = .ok u s') :
    s'.rest = s.rest.dropWhile (·.token.isMark .semi) := by
  cases ran
  rfl

theorem eq_mark {t : Token} {m : Mark} (isMark : t.isMark m = true) : t = .mark m := by
  cases t with
  | mark m' =>
      simp only [Token.isMark, decide_eq_true_eq] at isMark
      rw [isMark]
  | _ => cases isMark

theorem eq_keyword {t : Token} {k : Keyword} (isKeyword : t.isKeyword k = true) :
    t = .keyword k := by
  cases t with
  | keyword k' =>
      simp only [Token.isKeyword, decide_eq_true_eq] at isKeyword
      rw [isKeyword]
  | _ => cases isKeyword

theorem eat_ok {m : Mark} {taken : Bool} (ran : eat m s = .ok taken s') :
    taken = true ∧ firstToken s.rest = .mark m ∧ s'.rest = behindFirst s.rest ∨
      taken = false ∧ s'.rest = s.rest := by
  unfold eat atMark at ran
  obtain ⟨found, between, peeked, ran⟩ := bind_ok ran
  obtain ⟨t, between', peeked, same⟩ := bind_ok peeked
  obtain ⟨rfl, rfl⟩ := peek_ok peeked
  obtain ⟨rfl, rfl⟩ := pure_ok same
  split at ran
  · rename_i isMark
    obtain ⟨_, between', advanced, ran⟩ := bind_ok ran
    obtain ⟨rfl, rfl⟩ := pure_ok ran
    exact .inl ⟨rfl, eq_mark isMark, advance_ok advanced⟩
  · obtain ⟨rfl, rfl⟩ := pure_ok ran
    exact .inr ⟨rfl, rfl⟩

theorem eatKeyword_ok {k : Keyword} {taken : Bool} (ran : eatKeyword k s = .ok taken s') :
    taken = true ∧ firstToken s.rest = .keyword k ∧ s'.rest = behindFirst s.rest ∨
      taken = false ∧ s'.rest = s.rest := by
  unfold eatKeyword atKeyword at ran
  obtain ⟨found, between, peeked, ran⟩ := bind_ok ran
  obtain ⟨t, between', peeked, same⟩ := bind_ok peeked
  obtain ⟨rfl, rfl⟩ := peek_ok peeked
  obtain ⟨rfl, rfl⟩ := pure_ok same
  split at ran
  · rename_i isKeyword
    obtain ⟨_, between', advanced, ran⟩ := bind_ok ran
    obtain ⟨rfl, rfl⟩ := pure_ok ran
    exact .inl ⟨rfl, eq_keyword isKeyword, advance_ok advanced⟩
  · obtain ⟨rfl, rfl⟩ := pure_ok ran
    exact .inr ⟨rfl, rfl⟩

theorem atMark_eq (m : Mark) (s : Reading) :
    atMark m s = .ok ((firstToken s.rest).isMark m) s := by
  unfold atMark
  rw [bind_eq (peek_eq s)]
  rfl

theorem atKeyword_eq (k : Keyword) (s : Reading) :
    atKeyword k s = .ok ((firstToken s.rest).isKeyword k) s := by
  unfold atKeyword
  rw [bind_eq (peek_eq s)]
  rfl

theorem eat_eq (m : Mark) (s : Reading) :
    eat m s = .ok ((firstToken s.rest).isMark m)
      (if (firstToken s.rest).isMark m then { s with rest := behindFirst s.rest } else s) := by
  unfold eat
  rw [bind_eq (atMark_eq m s)]
  split
  · rw [bind_eq (advance_eq s)]
    rename_i isMark
    rw [isMark]
    rfl
  · rename_i other
    rw [Bool.eq_false_iff.mpr other]
    rfl

theorem eatKeyword_eq (k : Keyword) (s : Reading) :
    eatKeyword k s = .ok ((firstToken s.rest).isKeyword k)
      (if (firstToken s.rest).isKeyword k then { s with rest := behindFirst s.rest } else s) := by
  unfold eatKeyword
  rw [bind_eq (atKeyword_eq k s)]
  split
  · rw [bind_eq (advance_eq s)]
    rename_i isKeyword
    rw [isKeyword]
    rfl
  · rename_i other
    rw [Bool.eq_false_iff.mpr other]
    rfl

theorem expect_ok {m : Mark} {what : String} {u : Unit} (ran : expect m what s = .ok u s') :
    firstToken s.rest = .mark m ∧ s' = { s with rest := behindFirst s.rest } := by
  unfold expect at ran
  rw [bind_eq (eat_eq m s)] at ran
  cases found : (firstToken s.rest).isMark m with
  | true =>
      rw [found] at ran
      obtain ⟨_, rfl⟩ := pure_ok ran
      exact ⟨eq_mark found, rfl⟩
  | false =>
      rw [found] at ran
      exact (unexpected_ok ran).elim

theorem name_ok {word : String} (ran : name s = .ok word s') :
    firstToken s.rest = .name word ∧ s'.rest = behindFirst s.rest := by
  unfold name at ran
  obtain ⟨t, between, peeked, ran⟩ := bind_ok ran
  obtain ⟨isFirst, rfl⟩ := peek_ok peeked
  split at ran
  · obtain ⟨_, between, advanced, ran⟩ := bind_ok ran
    obtain ⟨rfl, rfl⟩ := pure_ok ran
    exact ⟨isFirst, advance_ok advanced⟩
  · exact (unexpected_ok ran).elim

/-- The tokens that end a statement and stay. -/
def endsWithout : Token → Bool
  | .mark .rParen | .mark .rBrace | .endOfText => true
  | _ => false

theorem endOfStatement_ok {u : Unit} (ran : endOfStatement s = .ok u s') :
    firstToken s.rest = .mark .semi ∧ s'.rest = behindFirst s.rest ∨
      endsWithout (firstToken s.rest) = true ∧ s'.rest = s.rest := by
  unfold endOfStatement at ran
  obtain ⟨t, between, peeked, ran⟩ := bind_ok ran
  obtain ⟨isFirst, rfl⟩ := peek_ok peeked
  rw [isFirst]
  split at ran
  · exact .inl ⟨rfl, advance_ok ran⟩
  · obtain ⟨_, rfl⟩ := pure_ok ran
    exact .inr ⟨rfl, rfl⟩
  · obtain ⟨_, rfl⟩ := pure_ok ran
    exact .inr ⟨rfl, rfl⟩
  · obtain ⟨_, rfl⟩ := pure_ok ran
    exact .inr ⟨rfl, rfl⟩
  · exact (unexpected_ok ran).elim

/-! ## Levels -/

theorem nested_eq {p : Parser α} {a : α} (below : s.depth + 1 ≤ maxNesting)
    (ran : p { s with depth := s.depth + 1 } = .ok a s') :
    nested p s = .ok a { s' with depth := s'.depth - 1 } := by
  have shallow : ¬maxNesting < s.depth + 1 := by omega
  have entered : nested p s = (p >>= fun a => do
      modify fun s => { s with depth := s.depth - 1 }
      pure a) { s with depth := s.depth + 1 } := by
    unfold nested
    change (if _ then _ else _ : Parser α) _ = _
    rw [if_neg shallow]
  rw [entered, bind_eq ran]
  rfl

theorem nested_ok {p : Parser α} {a : α} (ran : nested p s = .ok a s') :
    s.depth + 1 ≤ maxNesting ∧ ∃ between, p { s with depth := s.depth + 1 } = .ok a between ∧
      s' = { between with depth := between.depth - 1 } := by
  unfold nested at ran
  obtain ⟨_, entered, deeper, ran⟩ := bind_ok ran
  obtain ⟨_, _, got, ran⟩ := bind_ok ran
  cases deeper
  cases got
  by_cases deep : maxNesting < s.depth + 1
  · rw [if_pos deep] at ran
    obtain ⟨_, _, failed, _⟩ := bind_ok ran
    exact (fail_ok failed).elim
  · rw [if_neg deep] at ran
    obtain ⟨result, between, inner, ran⟩ := bind_ok ran
    obtain ⟨_, left, back, ran⟩ := bind_ok ran
    cases back
    obtain ⟨rfl, rfl⟩ := pure_ok ran
    exact ⟨Nat.le_of_not_lt deep, between, inner, rfl⟩

theorem withLevel_eq {change : Int → Int} {p : Parser α} {a : α}
    (ran : p { s with level := change s.level } = .ok a s') :
    withLevel change p s = .ok a { s' with level := s.level } := by
  have entered : withLevel change p s = (p >>= fun a => do
      modify fun t => { t with level := s.level }
      pure a) { s with level := change s.level } := rfl
  rw [entered, bind_eq ran]
  rfl

theorem withLevel_ok {change : Int → Int} {p : Parser α} {a : α}
    (ran : withLevel change p s = .ok a s') :
    ∃ between, p { s with level := change s.level } = .ok a between ∧
      s' = { between with level := s.level } := by
  unfold withLevel at ran
  obtain ⟨_, _, got, ran⟩ := bind_ok ran
  cases got
  obtain ⟨_, _, entered, ran⟩ := bind_ok ran
  cases entered
  obtain ⟨result, between, inner, ran⟩ := bind_ok ran
  obtain ⟨_, left, back, ran⟩ := bind_ok ran
  cases back
  obtain ⟨rfl, rfl⟩ := pure_ok ran
  exact ⟨between, inner, rfl⟩

/-! ## Loops -/

/-- Where a round of a loop leads: on to `keeps`, or to `ends`. -/
def LeadsTo (keeps ends : List α → List Located → Prop) (read : List α) (rest : List Located) :
    Piece α → Prop
  | .stop => ends read rest
  | .last a => ends (a :: read) rest
  | .more a => keeps (a :: read) rest

/-- What every round of a loop keeps, of the items read and the tokens left, holds where it
began and leads to what holds at the end. -/
theorem collectFrom_ok {round : List α → Parser (Piece α)}
    (keeps ends : List α → List Located → Prop)
    (step : ∀ (read : List α) (s s' : Reading) (piece : Piece α), keeps read s.rest →
      round read s = .ok piece s' → LeadsTo keeps ends read s'.rest piece) :
    ∀ (rounds : Nat) (read : List α) (s s' : Reading) (result : List α), keeps read s.rest →
      collectFrom round rounds read s = .ok result s' →
      ∃ last, result = last.reverse ∧ ends last s'.rest := by
  intro rounds
  induction rounds with
  | zero =>
      intro read s s' result _ ran
      exact (fail_ok ran).elim
  | succ rounds ih =>
      intro read s s' result kept ran
      unfold collectFrom at ran
      obtain ⟨piece, between, once, ran⟩ := bind_ok ran
      have next := step read s between piece kept once
      cases piece with
      | stop =>
          obtain ⟨rfl, rfl⟩ := pure_ok ran
          exact ⟨read, rfl, next⟩
      | last a =>
          obtain ⟨rfl, rfl⟩ := pure_ok ran
          exact ⟨a :: read, rfl, next⟩
      | more a => exact ih (a :: read) between s' result next ran

theorem collect_ok {round : Parser (Piece α)} (keeps ends : List α → List Located → Prop)
    (step : ∀ (read : List α) (s s' : Reading) (piece : Piece α), keeps read s.rest →
      round s = .ok piece s' → LeadsTo keeps ends read s'.rest piece)
    {result : List α} (begins : keeps [] s.rest) (ran : collect round s = .ok result s') :
    ∃ last, result = last.reverse ∧ ends last s'.rest := by
  unfold collect collectWith at ran
  obtain ⟨given, between, got, ran⟩ := bind_ok ran
  cases got
  exact collectFrom_ok keeps ends step _ [] s s' result begins ran

end

end Parser

/-! ## Whole texts -/

theorem parseProgram_ok_iff {source : String} {p : Program} :
    parseProgram source = .ok p ↔ ∃ located s', tokenize source = .ok located ∧
      Parser.program (.ofDepth located.length) ⟨located, located.length, 0, 0⟩ = .ok p s' := by
  unfold parseProgram
  cases lexed : tokenize source with
  | error e =>
      constructor
      · nofun
      · rintro ⟨located, s', ⟨⟩, _⟩
  | ok located =>
      simp only [bind, Except.bind, EStateM.run]
      constructor
      · intro accepted
        split at accepted
        · rename_i q s' ran
          cases accepted
          exact ⟨located, s', rfl, ran⟩
        · cases accepted
      · rintro ⟨_, s', ⟨⟩, ran⟩
        rw [ran]
        rfl

end SandboxedGo.Source
