import SandboxedGo.Proofs.ParserSteps

/-!
# Precedence climbing

A chain of operands with operators between them has exactly one tree that keeps its order and in
which operators that bind more tightly stand below the others, those of one precedence associating
to the left.  The parser finds it: a right operand is read by the same parser with the next
precedence, so it ends in front of the first operator that binds no more tightly than the one before
it, and the loop goes on from there.  Main statement: `expr_climbs`.
-/

set_option autoImplicit false

namespace SandboxedGo.Source

/-! ## Chains and their trees -/

/-- What a name or a literal is as an expression. -/
def operandOf? : Token → Option Expr
  | .name word => some (.name word)
  | .int value => some (.int value)
  | .float value => some (.float value)
  | .string value => some (.string value)
  | .rune value => some (.rune value)
  | _ => none

/-- The operator that a token is between two operands. -/
def operatorOf? : Token → Option BinaryOp
  | .mark m => BinaryOp.ofMark? m
  | _ => none

/-- Whether a token behind an operand continues it. -/
def opensPostfix : Token → Bool
  | .mark m => m = .dot ∨ m = .lBrack ∨ m = .lParen ∨ m = .lBrace
  | _ => false

/-- Operators, each with the operand behind it. -/
abbrev Tail := List (Located × Located)

def Tail.tokens (tail : Tail) : List Located := tail.flatMap fun p => [p.1, p.2]

/-- An operand and the operators behind it with their right operands. -/
def chain (first : Located) (tail : Tail) : List Located := first :: tail.tokens

/-- The tokens that a tree says in order. -/
inductive InOrder : Expr → List Token → Prop
  | operand {t : Token} {e : Expr} (is : operandOf? t = some e) : InOrder e [t]
  | binary {t : Token} {op : BinaryOp} {left right : Expr} {before behind : List Token}
      (is : operatorOf? t = some op) (ofLeft : InOrder left before)
      (ofRight : InOrder right behind) :
      InOrder (.binary op left right) (before ++ t :: behind)

/-- How tightly the root of a tree binds; what is not binary binds more tightly than all
operators. -/
def Expr.tightness : Expr → Nat
  | .binary op _ _ => op.precedence
  | _ => 6

/-- At every node a binary left child binds as tightly or more, a binary right child more
tightly. -/
inductive Climbs : Expr → Prop
  | operand {e : Expr} (single : e.tightness = 6) : Climbs e
  | binary {op : BinaryOp} {left right : Expr} (atLeft : op.precedence ≤ left.tightness)
      (atRight : op.precedence < right.tightness) (ofLeft : Climbs left) (ofRight : Climbs right) :
      Climbs (.binary op left right)

theorem precedence_pos (op : BinaryOp) : 1 ≤ op.precedence := by
  cases op <;> decide

theorem precedence_lt (op : BinaryOp) : op.precedence < 6 := by
  cases op <;> decide

section

variable {t : Token} {e : Expr} {op : BinaryOp}

theorem tightness_of_operand (is : operandOf? t = some e) : e.tightness = 6 := by
  cases t <;> cases is <;> rfl

theorem no_operator_of_operand (is : operandOf? t = some e) : operatorOf? t = none := by
  cases t <;> cases is <;> rfl

theorem operator_no_postfix (is : operatorOf? t = some op) : opensPostfix t = false := by
  cases t with
  | mark m => cases m <;> first | rfl | cases is
  | _ => cases is

end

/-! ## There is only one tree -/

/-- Two places in a list are the same, or the first comes before the second, or behind it. -/
theorem split_cases {α : Type} {a a' b b' : List α} {x x' : α}
    (same : a ++ x :: b = a' ++ x' :: b') :
    (a = a' ∧ x = x' ∧ b = b') ∨ (∃ more, a' = a ++ x :: more ∧ b = more ++ x' :: b') ∨
      ∃ more, a = a' ++ x' :: more ∧ b' = more ++ x :: b := by
  rcases List.append_eq_append_iff.mp same with ⟨more, longer, rest⟩ | ⟨more, longer, rest⟩
  · cases more with
    | nil =>
        obtain ⟨rfl, rfl⟩ := List.cons.inj rest
        exact .inl ⟨by rw [longer, List.append_nil], rfl, rfl⟩
    | cons y more =>
        rw [List.cons_append, List.cons.injEq] at rest
        obtain ⟨rfl, rest⟩ := rest
        exact .inr (.inl ⟨more, longer, rest⟩)
  · cases more with
    | nil =>
        obtain ⟨rfl, rfl⟩ := List.cons.inj rest
        exact .inl ⟨by rw [longer, List.append_nil], rfl, rfl⟩
    | cons y more =>
        rw [List.cons_append, List.cons.injEq] at rest
        obtain ⟨rfl, rest⟩ := rest
        exact .inr (.inr ⟨more, longer, rest⟩)

namespace InOrder

variable {e e' : Expr} {tokens : List Token}

theorem ne_nil (inOrder : InOrder e tokens) : tokens ≠ [] := by
  cases inOrder with
  | operand => exact List.cons_ne_nil _ _
  | binary => exact List.append_ne_nil_of_right_ne_nil _ (List.cons_ne_nil _ _)

theorem tightness_le (inOrder : InOrder e tokens) (climbs : Climbs e) :
    ∀ t ∈ tokens, ∀ op, operatorOf? t = some op → e.tightness ≤ op.precedence := by
  induction inOrder with
  | operand is =>
      intro t member op isOp
      rw [List.mem_singleton.mp member, no_operator_of_operand is] at isOp
      cases isOp
  | @binary m root left right before behind is ofLeft ofRight ihLeft ihRight =>
      cases climbs with
      | operand single => exact absurd single (Nat.ne_of_lt (precedence_lt root))
      | binary atLeft atRight climbsLeft climbsRight =>
          intro t member op isOp
          rw [List.mem_append, List.mem_cons] at member
          rcases member with inLeft | rfl | inRight
          · exact Nat.le_trans atLeft (ihLeft climbsLeft t inLeft op isOp)
          · rw [is] at isOp
            cases isOp
            exact Nat.le_refl _
          · exact Nat.le_trans (Nat.le_of_lt atRight) (ihRight climbsRight t inRight op isOp)

/-- The root is the last of the operators that bind least tightly, so it cannot stand further to the
left in one tree than in another. -/
theorem root_not_before {t t' : Token} {op op' : BinaryOp} {left right left' right' : Expr}
    {before behind before' behind' more : List Token}
    (is : operatorOf? t = some op) (is' : operatorOf? t' = some op')
    (ofRight : InOrder right behind) (ofLeft' : InOrder left' before')
    (climbs : Climbs (.binary op left right)) (climbs' : Climbs (.binary op' left' right'))
    (longer : before' = before ++ t :: more) (rest : behind = more ++ t' :: behind') : False := by
  cases climbs with
  | operand single => exact absurd single (Nat.ne_of_lt (precedence_lt op))
  | binary atLeft atRight climbsLeft climbsRight =>
      cases climbs' with
      | operand single => exact absurd single (Nat.ne_of_lt (precedence_lt op'))
      | binary atLeft' atRight' climbsLeft' climbsRight' =>
          have left_ := ofLeft'.tightness_le climbsLeft' t (by rw [longer]; simp) op is
          have right_ := ofRight.tightness_le climbsRight t' (by rw [rest]; simp) op' is'
          omega

theorem unique (inOrder : InOrder e tokens) (climbs : Climbs e) (inOrder' : InOrder e' tokens)
    (climbs' : Climbs e') : e' = e := by
  induction inOrder generalizing e' with
  | @operand t e is =>
      generalize single : [t] = tokens at inOrder'
      cases inOrder' with
      | operand is' =>
          obtain ⟨rfl, -⟩ := List.cons.inj single
          rw [is] at is'
          exact (Option.some.inj is').symm
      | binary _ ofLeft ofRight =>
          have left_ := List.length_pos_iff.mpr ofLeft.ne_nil
          have length := congrArg List.length single
          simp only [List.length_cons, List.length_append, List.length_nil] at length
          omega
  | @binary t op left right before behind is ofLeft ofRight ihLeft ihRight =>
      generalize same : before ++ t :: behind = tokens at inOrder'
      cases inOrder' with
      | @operand t' _ is' =>
          have left_ := List.length_pos_iff.mpr ofLeft.ne_nil
          have length := congrArg List.length same
          simp only [List.length_cons, List.length_append, List.length_nil] at length
          omega
      | @binary t' op' left' right' before' behind' is' ofLeft' ofRight' =>
          rcases split_cases same with ⟨rfl, rfl, rfl⟩ | ⟨more, longer, rest⟩ | ⟨more, longer, rest⟩
          · cases is.symm.trans is'
            cases climbs with
            | operand single => exact absurd single (Nat.ne_of_lt (precedence_lt op))
            | binary _ _ climbsLeft climbsRight =>
                cases climbs' with
                | operand single => exact absurd single (Nat.ne_of_lt (precedence_lt op))
                | binary _ _ climbsLeft' climbsRight' =>
                    rw [ihLeft climbsLeft ofLeft' climbsLeft',
                      ihRight climbsRight ofRight' climbsRight']
          · exact (root_not_before is is' ofRight ofLeft' climbs climbs' longer rest).elim
          · exact (root_not_before is' is ofRight' ofLeft climbs' climbs longer rest).elim

theorem root (inOrder : InOrder e tokens) :
    e.tightness = 6 ∨
      ∃ t ∈ tokens, ∃ op, operatorOf? t = some op ∧ op.precedence = e.tightness := by
  cases inOrder with
  | operand is => exact .inl (tightness_of_operand is)
  | binary is ofLeft ofRight => exact .inr ⟨_, by simp, _, is, rfl⟩

end InOrder

/-! ## The parser finds it -/

/-- Operators that bind at least so tightly, with operands behind them. -/
def Tail.Binds (least : Nat) (tail : Tail) : Prop :=
  ∀ p ∈ tail, (∃ op, operatorOf? p.1.token = some op ∧ least ≤ op.precedence) ∧
    ∃ e, operandOf? p.2.token = some e

/-- A token in front of which a chain ends whose operators bind at least so tightly. -/
structure Token.Ends (least : Nat) (t : Token) : Prop where
  noPostfix : opensPostfix t = false
  looser : ∀ op, operatorOf? t = some op → op.precedence < least

namespace Tail

variable {least : Nat} {tail : Tail}

theorem length_tokens (tail : Tail) : tail.tokens.length = 2 * tail.length := by
  induction tail with
  | nil => rfl
  | cons p tail ih =>
      have both : tokens (p :: tail) = p.1 :: p.2 :: tokens tail := rfl
      rw [both, List.length_cons, List.length_cons, ih, List.length_cons]
      omega

theorem binds_nil (least : Nat) : Binds least [] := fun _ member => absurd member List.not_mem_nil

/-- Behind an operator come those that bind more tightly, which belong to its right operand, and
then others, of which the first does not. -/
theorem Binds.split (binds : tail.Binds least) (op : BinaryOp) :
    ∃ inner outer : Tail, tail = inner ++ outer ∧ inner.Binds (op.precedence + 1) ∧
      outer.Binds least ∧ ∀ p ∈ outer.head?, ∀ op', operatorOf? p.1.token = some op' →
        op'.precedence ≤ op.precedence := by
  induction tail with
  | nil => exact ⟨[], [], rfl, binds_nil _, binds_nil _, fun p first => nomatch first⟩
  | cons p tail ih =>
      obtain ⟨⟨op', is, tight⟩, operand⟩ := binds p List.mem_cons_self
      have others : Binds least tail := fun q member => binds q (List.mem_cons_of_mem p member)
      by_cases tighter : op.precedence < op'.precedence
      · obtain ⟨inner, outer, rfl, ofInner, ofOuter, first⟩ := ih others
        refine ⟨p :: inner, outer, rfl, ?_, ofOuter, first⟩
        intro q member
        rcases List.mem_cons.mp member with rfl | member
        · exact ⟨⟨op', is, tighter⟩, operand⟩
        · exact ofInner q member
      · refine ⟨[], p :: tail, rfl, binds_nil _, binds, ?_⟩
        intro q isFirst op'' is''
        obtain rfl : p = q := Option.some.inj isFirst
        obtain rfl : op' = op'' := Option.some.inj (is.symm.trans is'')
        exact Nat.le_of_not_lt tighter

theorem Binds.operator_of_mem (binds : tail.Binds least) {t : Located} (member : t ∈ tail.tokens)
    {op : BinaryOp} (is : operatorOf? t.token = some op) : least ≤ op.precedence := by
  obtain ⟨p, inTail, isOne⟩ := List.mem_flatMap.mp member
  obtain ⟨⟨op', is', tight⟩, e, operand⟩ := binds p inTail
  simp only [List.mem_cons, List.not_mem_nil, or_false] at isOne
  rcases isOne with rfl | rfl
  · obtain rfl : op = op' := Option.some.inj (is.symm.trans is')
    exact tight
  · rw [no_operator_of_operand operand] at is
    cases is

/-- Where the operators end that belong to a right operand, another one stands or what stands
behind the whole chain. -/
theorem Binds.next (binds : tail.Binds least) (bound : Nat) (within : least ≤ bound)
    (first : ∀ p ∈ tail.head?, ∀ op, operatorOf? p.1.token = some op → op.precedence < bound)
    {follow : Located} (ends : follow.token.Ends least) (others : List Located) :
    ∃ next more, tail.tokens ++ follow :: others = next :: more ∧ next.token.Ends bound := by
  cases tail with
  | nil =>
      refine ⟨follow, others, rfl, ends.noPostfix, fun op is => ?_⟩
      exact Nat.lt_of_lt_of_le (ends.looser op is) within
  | cons p tail =>
      obtain ⟨⟨op, is, _⟩, _⟩ := binds p List.mem_cons_self
      exact ⟨p.1, _, rfl, operator_no_postfix is, first p rfl⟩

end Tail

namespace Parser

variable {g : Grammar} {s : Reading} {t next follow : Located} {more others : List Located}
  {e : Expr}

theorem operand_reads (text : s.rest = t :: next :: more) (is : operandOf? t.token = some e) :
    operand g s = .ok e { s with rest := next :: more } := by
  obtain ⟨rest, bound, level, depth⟩ := s
  obtain ⟨token, place⟩ := t
  obtain rfl : rest = _ := text
  cases token <;> cases is <;> rfl

theorem postfix_none (noPostfix : opensPostfix (firstToken s.rest) = false) (base : Expr) :
    postfix? g base s = .ok none s := by
  unfold postfix?
  rw [bind_eq (peek_eq s)]
  cases first : firstToken s.rest with
  | mark m =>
      rw [first] at noPostfix
      cases m <;> first | rfl | cases noPostfix
  | _ => rfl

theorem primary_reads (text : s.rest = t :: next :: more) (is : operandOf? t.token = some e)
    (noPostfix : opensPostfix next.token = false) :
    primary g s = .ok e { s with rest := next :: more } := by
  unfold primary
  rw [bind_eq (operand_reads text is)]
  have none_ := postfix_none (g := g) (s := { s with rest := next :: more }) noPostfix e
  exact bind_eq none_ _

theorem unary_reads (text : s.rest = t :: next :: more) (is : operandOf? t.token = some e)
    (noPostfix : opensPostfix next.token = false) (below : s.depth + 1 ≤ maxNesting) :
    unary g s = .ok e { s with rest := next :: more } := by
  refine @nested_eq _ s { s with rest := next :: more, depth := s.depth + 1 } _ e below ?_
  have first : firstToken s.rest = t.token := by rw [text]; rfl
  rw [bind_eq (peek_eq _), first]
  have whole := primary_reads (g := g) (s := { s with depth := s.depth + 1 }) text is noPostfix
  cases isFirst : t.token with
  | mark m =>
      rw [isFirst] at is
      cases is
  | _ => exact whole

/-- A parser reads every chain of at most `n` operators that bind at least as tightly as `least`, up
to a token where it ends. -/
def ReadsChains (n least : Nat) (p : Parser Expr) : Prop :=
  ∀ {s : Reading} {first follow : Located} {tail : Tail} {others : List Located} {e : Expr},
    s.rest = chain first tail ++ follow :: others → operandOf? first.token = some e →
    tail.Binds least → follow.token.Ends least → tail.length ≤ n → tail.length ≤ s.bound →
    s.depth + 1 ≤ maxNesting →
    ∃ tree, p s = .ok tree { s with rest := follow :: others } ∧
      InOrder tree ((chain first tail).map Located.token) ∧ Climbs tree

theorem operators_end {least : Nat} (ends : (firstToken s.rest).Ends least) (rounds : Nat)
    (left : Expr) : operators g least (rounds + 1) left s = .ok left s := by
  unfold operators
  rw [bind_eq (peek_eq s)]
  cases first : firstToken s.rest with
  | mark m =>
      dsimp only
      cases is : BinaryOp.ofMark? m with
      | none => rfl
      | some op =>
          have looser : op.precedence < least := ends.looser op (by rw [first]; exact is)
          dsimp only
          rw [if_pos looser]
          rfl
  | _ => rfl

theorem operators_next {least : Nat} {op : BinaryOp} (text : s.rest = t :: next :: more)
    (is : operatorOf? t.token = some op) (tight : least ≤ op.precedence) (rounds : Nat)
    (left : Expr) :
    operators g least (rounds + 1) left s =
      (g.binary (op.precedence + 1) >>= fun right =>
        operators g least rounds (.binary op left right)) { s with rest := next :: more } := by
  have first : firstToken s.rest = t.token := by rw [text]; rfl
  have behind : behindFirst s.rest = next :: more := by rw [text]; rfl
  conv => lhs; unfold operators
  rw [bind_eq (peek_eq s), first]
  cases isMark : t.token with
  | mark m =>
      rw [isMark] at is
      have found : BinaryOp.ofMark? m = some op := is
      dsimp only
      rw [found]
      dsimp only
      rw [if_neg (Nat.not_lt.mpr tight), bind_eq (advance_eq s), behind]
  | _ =>
      rw [isMark] at is
      cases is

theorem tightness_of_chain {least : Nat} {first : Located} {tail : Tail} {tree : Expr}
    (operand : operandOf? first.token = some e) (binds : tail.Binds least) (some_ : least ≤ 6)
    (inOrder : InOrder tree ((chain first tail).map Located.token)) : least ≤ tree.tightness := by
  rcases inOrder.root with single | ⟨token, member, op, is, same⟩
  · rw [single]
    exact some_
  · rw [← same]
    rcases List.mem_cons.mp member with rfl | inTail
    · rw [no_operator_of_operand operand] at is
      cases is
    · obtain ⟨located, located_mem, rfl⟩ := List.mem_map.mp inTail
      exact binds.operator_of_mem located_mem is

/-- The loop reads the rest of a chain if the first operator in it binds no more tightly than what
was read before.  It goes on at the end of each right operand. -/
theorem operators_read {n least : Nat} (inner : ∀ least, ReadsChains n least (g.binary least)) :
    ∀ (rounds : Nat) {s : Reading} {left : Expr} {before : List Token} {tail : Tail},
      s.rest = tail.tokens ++ follow :: others → InOrder left before → Climbs left →
      tail.Binds least → (∀ p ∈ tail.head?, ∀ op, operatorOf? p.1.token = some op →
        op.precedence ≤ left.tightness) → follow.token.Ends least → tail.length ≤ n + 1 →
      tail.length < rounds → tail.length ≤ s.bound → s.depth + 1 ≤ maxNesting →
      ∃ tree, operators g least rounds left s = .ok tree { s with rest := follow :: others } ∧
        InOrder tree (before ++ tail.tokens.map Located.token) ∧ Climbs tree := by
  intro rounds
  induction rounds with
  | zero => exact fun _ _ _ _ _ _ _ enough => absurd enough (Nat.not_lt_zero _)
  | succ rounds ih =>
      intro s left before tail text inOrder climbs binds fits ends short enough bound below
      cases tail with
      | nil =>
          have first : firstToken s.rest = follow.token := by rw [text]; rfl
          refine ⟨left, ?_, by simpa [Tail.tokens] using inOrder, climbs⟩
          rw [operators_end (by rw [first]; exact ends)]
          obtain ⟨rest, bound, level, depth⟩ := s
          obtain rfl : rest = _ := text
          rfl
      | cons p tail =>
          obtain ⟨o, x⟩ := p
          obtain ⟨⟨op, is, tight⟩, e, operand⟩ := binds (o, x) List.mem_cons_self
          have others_ : Tail.Binds least tail := fun q member =>
            binds q (List.mem_cons_of_mem _ member)
          obtain ⟨mine, outer, rfl, tighter, ofOuter, atMost⟩ := others_.split op
          obtain ⟨next, more, isNext, endsMine⟩ := ofOuter.next
            (op.precedence + 1) (by omega)
            (fun q first op' is' => Nat.lt_succ_of_le (atMost q first op' is')) ends others
          simp only [List.length_cons, List.length_append] at short enough bound
          have whole : s.rest = o :: x :: (mine.tokens ++ next :: more) := by
            rw [text, ← isNext]
            simp [Tail.tokens]
          obtain ⟨right, ran, inOrderRight, climbsRight⟩ :=
            inner (op.precedence + 1) (s := { s with rest := chain x mine ++ next :: more }) rfl
              operand tighter endsMine (by omega) (show mine.length ≤ s.bound by omega) below
          have lessRight := tightness_of_chain operand tighter (precedence_lt op) inOrderRight
          have step : Climbs (.binary op left right) :=
            .binary (fits (o, x) rfl op is) lessRight climbs climbsRight
          obtain ⟨tree, ranOn, inOrderTree, climbsTree⟩ :=
            ih (s := { s with rest := next :: more }) isNext.symm
              (.binary is inOrder inOrderRight) step ofOuter atMost ends (by omega) (by omega)
              (show outer.length ≤ s.bound by omega) below
          refine ⟨tree, ?_, by simpa [Tail.tokens, chain] using inOrderTree, climbsTree⟩
          rw [operators_next whole is tight]
          exact (bind_eq ran _).trans ranOn

theorem binary_reads {n least : Nat} (inner : ∀ least, ReadsChains n least (g.binary least)) :
    ReadsChains (n + 1) least (binary g least) := by
  intro s first follow tail others e text operand binds ends short bound below
  obtain ⟨next, more, isNext, endsOperand⟩ := binds.next (6 + least) (by omega)
    (fun p isFirst op is => Nat.lt_of_lt_of_le (precedence_lt op) (by omega)) ends others
  have whole : s.rest = first :: next :: more := by
    rw [text, ← isNext]
    rfl
  have single := tightness_of_operand operand
  obtain ⟨tree, ran, inOrder, climbs⟩ := operators_read inner (s.bound + 1)
    (s := { s with rest := next :: more }) isNext.symm (.operand operand) (.operand single) binds
    (fun p isFirst op is => by rw [single]; exact Nat.le_of_lt (precedence_lt op)) ends short
    (Nat.lt_succ_of_le bound) bound below
  refine ⟨tree, ?_, inOrder, climbs⟩
  unfold binary
  rw [bind_eq (unary_reads whole operand endsOperand.noPostfix below)]
  exact ran

theorem binary_reads_single {least : Nat} : ReadsChains 0 least (binary g least) := by
  intro s first follow tail others e text operand binds ends short bound below
  obtain rfl := List.eq_nil_of_length_eq_zero (Nat.le_zero.mp short)
  have ended : (firstToken (follow :: others)).Ends least := ends
  refine ⟨e, ?_, .operand operand, .operand (tightness_of_operand operand)⟩
  unfold binary
  rw [bind_eq (unary_reads text operand ends.noPostfix below)]
  exact operators_end (s := { s with rest := follow :: others }) ended _ e

theorem binary_ofDepth (n : Nat) :
    ∀ {depth least : Nat}, n ≤ depth → ReadsChains n least (binary (.ofDepth depth) least) := by
  induction n with
  | zero => exact fun _ => binary_reads_single
  | succ n ih =>
      intro depth least deep
      obtain ⟨depth, rfl⟩ := Nat.exists_eq_add_one.mpr (Nat.zero_lt_of_lt deep)
      exact binary_reads fun least => ih (Nat.le_of_succ_le_succ deep)

end Parser

/-- An expression that is a chain of operators is read to its end and no further, and the tree is
the only one in the order of the chain in which precedence and association to the left are kept. -/
theorem Parser.expr_climbs {depth : Nat} {s : Reading} {first follow : Located} {tail : Tail}
    {others : List Located} (text : s.rest = chain first tail ++ follow :: others)
    (operand : (operandOf? first.token).isSome)
    (operators : ∀ p ∈ tail, (operatorOf? p.1.token).isSome ∧ (operandOf? p.2.token).isSome)
    (noOperator : operatorOf? follow.token = none) (noPostfix : opensPostfix follow.token = false)
    (below : s.depth + 2 ≤ maxNesting) (enough : s.rest.length ≤ s.bound)
    (deep : s.rest.length ≤ depth) :
    ∃ e, Parser.expr (.ofDepth depth) s = .ok e { s with rest := follow :: others } ∧
      InOrder e ((chain first tail).map Located.token) ∧ Climbs e ∧
      ∀ e', InOrder e' ((chain first tail).map Located.token) → Climbs e' → e' = e := by
  have binds : tail.Binds 1 := by
    intro p member
    obtain ⟨isOperator, isOperand⟩ := operators p member
    obtain ⟨op, is⟩ := Option.isSome_iff_exists.mp isOperator
    exact ⟨⟨op, is, precedence_pos op⟩, Option.isSome_iff_exists.mp isOperand⟩
  have ends : follow.token.Ends 1 := by
    refine ⟨noPostfix, fun op is => ?_⟩
    rw [noOperator] at is
    cases is
  have short : tail.length ≤ s.rest.length := by
    rw [text, chain, List.length_append, List.length_cons, tail.length_tokens]
    omega
  obtain ⟨e, is⟩ := Option.isSome_iff_exists.mp operand
  obtain ⟨tree, ran, inOrder, climbs⟩ := Parser.binary_ofDepth tail.length (Nat.le_trans short deep)
    (s := { s with depth := s.depth + 1 }) text is binds ends (Nat.le_refl _)
    (Nat.le_trans short enough) below
  refine ⟨tree, ?_, inOrder, climbs, fun e' inOrder' climbs' =>
    inOrder.unique climbs inOrder' climbs'⟩
  exact Parser.nested_eq (by omega) ran

/-- In front of `a - b - c * d == 1;`. -/
def mixedReading : Reading where
  rest := [⟨.name "a", ⟨1, 1⟩⟩, ⟨.mark .minus, ⟨1, 3⟩⟩, ⟨.name "b", ⟨1, 5⟩⟩, ⟨.mark .minus, ⟨1, 7⟩⟩,
    ⟨.name "c", ⟨1, 9⟩⟩, ⟨.mark .star, ⟨1, 11⟩⟩, ⟨.name "d", ⟨1, 13⟩⟩, ⟨.mark .eqEq, ⟨1, 15⟩⟩,
    ⟨.int 1, ⟨1, 18⟩⟩, ⟨.mark .semi, ⟨1, 19⟩⟩]
  bound := 10

/-- Subtraction associates to the left, and the product and the comparison are where they belong. -/
theorem Parser.expr_climbs_mixed :
    mixedReading.depth + 2 ≤ maxNesting ∧
      Parser.expr (.ofDepth 10) mixedReading =
        .ok (.binary .eq
            (.binary .sub (.binary .sub (.name "a") (.name "b"))
              (.binary .mul (.name "c") (.name "d")))
            (.int 1))
          { mixedReading with rest := [⟨.mark .semi, ⟨1, 19⟩⟩] } := by
  have below : mixedReading.depth + 2 ≤ maxNesting := by decide
  have operators : ∀ p ∈ [(⟨.mark .minus, ⟨1, 3⟩⟩, ⟨.name "b", ⟨1, 5⟩⟩),
      (⟨.mark .minus, ⟨1, 7⟩⟩, ⟨.name "c", ⟨1, 9⟩⟩), (⟨.mark .star, ⟨1, 11⟩⟩, ⟨.name "d", ⟨1, 13⟩⟩),
      ((⟨.mark .eqEq, ⟨1, 15⟩⟩ : Located), (⟨.int 1, ⟨1, 18⟩⟩ : Located))],
      (operatorOf? p.1.token).isSome ∧ (operandOf? p.2.token).isSome := by
    simp [operatorOf?, operandOf?, BinaryOp.ofMark?]
  obtain ⟨e, ran, -, -, only⟩ := @Parser.expr_climbs 10 mixedReading ⟨.name "a", ⟨1, 1⟩⟩
    ⟨.mark .semi, ⟨1, 19⟩⟩ _ [] rfl rfl operators rfl rfl below (by decide) (by decide)
  have leaf {e : Expr} (single : e.tightness = 6) : Climbs e := .operand single
  have climbs : Climbs (.binary .eq
      (.binary .sub (.binary .sub (.name "a") (.name "b")) (.binary .mul (.name "c") (.name "d")))
      (.int 1)) :=
    .binary (by decide) (by decide)
      (.binary (by decide) (by decide)
        (.binary (by decide) (by decide) (leaf rfl) (leaf rfl))
        (.binary (by decide) (by decide) (leaf rfl) (leaf rfl)))
      (leaf rfl)
  have inOrder := InOrder.binary (t := .mark .eqEq) rfl
    (.binary (t := .mark .minus) rfl
      (.binary (t := .mark .minus) rfl (.operand (t := .name "a") rfl)
        (.operand (t := .name "b") rfl))
      (.binary (t := .mark .star) rfl (.operand (t := .name "c") rfl)
        (.operand (t := .name "d") rfl)))
    (.operand (t := .int 1) rfl)
  exact ⟨below, by rw [only _ inOrder climbs]; exact ran⟩

end SandboxedGo.Source
