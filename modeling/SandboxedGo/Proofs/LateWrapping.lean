import SandboxedGo.Proofs.NarrowIntegers
import SandboxedGo.Proofs.PointedVariables
import SandboxedGo.Proofs.TreeLevels

/-!
# Reducing late

Operators work on 64 bits, whatever the types of their operands, and only the value that is stored
in a variable of a narrow type is reduced.  For trees of sums, products, complements, operators on
bits and shifts to the left this makes no difference: reducing after every operator gives the same.
Main statement: `reduced_late`.
-/

set_option autoImplicit false

namespace SandboxedGo

open Source Operators IntWidth

/-! ## Trees of operators -/

/-- The integers that the variables of a scope hold. -/
def Store.integers (s : Store) (scope : ScopeId) (name : String) : Option Int64 :=
  match s.resolve? scope name with
  | none => none
  | some found =>
    match s.cell found.cell with
    | .int n => some n
    | _ => none

namespace Source

/-- Operators between integers whose low bits depend on the low bits of the operands. -/
def BinaryOp.isRing : BinaryOp → Bool
  | .add | .sub | .mul | .and | .or | .xor | .andNot => true
  | _ => false

variable (values : String → Option Int64)

/-- The integer at a leaf of a tree: a literal, or what a variable holds. -/
def Expr.leaf? : Expr → Option Int64
  | .name x => values x
  | .int n => some n
  | .rune c => some (Int64.ofNat c.toNat)
  | _ => none

/-- The integer that a tree of operators stands for, where `after` is applied to the result of every
operator. -/
def Expr.integer? (after : Int64 → Int64) : Expr → Option Int64
  | .unary .neg e => do return after (-(← e.integer? after))
  | .unary .bitNot e => do return after (~~~(← e.integer? after))
  | .binary op a b => do
    let x ← a.integer? after
    let y ← b.integer? after
    match intOp op x y with
    | .ok n => return after n
    | .error _ => none
  | e => e.leaf? values

/-- A tree of `+`, `-`, `*`, `&`, `|`, `^` and `&^` over integers of any size, with shifts to the
left by constants that are not negative. -/
inductive RingTree : Expr → Prop
  | leaf {e : Expr} {n : Int64} (is : e.leaf? values = some n) : RingTree e
  | negative {e : Expr} (operand : RingTree e) : RingTree (.unary .neg e)
  | complement {e : Expr} (operand : RingTree e) : RingTree (.unary .bitNot e)
  | operator {op : BinaryOp} {a b : Expr} (ring : op.isRing = true) (left : RingTree a)
      (right : RingTree b) : RingTree (.binary op a b)
  | shift {a count : Expr} {n : Int64} (left : RingTree a) (constant : count.leaf? values = some n)
      (notNegative : ¬ n < 0) : RingTree (.binary .shl a count)

variable {values} {after : Int64 → Int64} {e : Expr} {n : Int64}

theorem Expr.integer?_leaf (is : e.leaf? values = some n) : e.integer? values after = some n := by
  unfold Expr.leaf? at is
  split at is
  · exact is
  · exact is
  · exact is
  · cases is

end Source

/-! ## One operator -/

/-- A ring operator always gives an integer, whose low bits depend on those of the operands only. -/
theorem intOp_low {op : BinaryOp} (ring : op.isRing = true) {w : IntWidth} {a b c d : Int64}
    (left : w.low a = w.low b) (right : w.low c = w.low d) :
    ∃ n k, intOp op a c = .ok n ∧ intOp op b d = .ok k ∧ w.low n = w.low k := by
  cases op with
  | add => exact ⟨_, _, rfl, rfl, low_add left right⟩
  | sub => exact ⟨_, _, rfl, rfl, low_sub left right⟩
  | mul => exact ⟨_, _, rfl, rfl, low_mul left right⟩
  | and => exact ⟨_, _, rfl, rfl, low_and left right⟩
  | or => exact ⟨_, _, rfl, rfl, low_or left right⟩
  | xor => exact ⟨_, _, rfl, rfl, low_xor left right⟩
  | andNot => exact ⟨_, _, rfl, rfl, low_and left (low_not right)⟩
  | _ => cases ring

theorem intOp_shl {count : Int64} (notNegative : ¬ count < 0) (a : Int64) :
    intOp .shl a count = .ok (if 64 ≤ count then 0 else a <<< count) :=
  if_neg notNegative

theorem intOp_shl_low {w : IntWidth} {a b count : Int64} (same : w.low a = w.low b)
    (notNegative : ¬ count < 0) :
    ∃ n k, intOp .shl a count = .ok n ∧ intOp .shl b count = .ok k ∧ w.low n = w.low k := by
  refine ⟨_, _, intOp_shl notNegative a, intOp_shl notNegative b, ?_⟩
  split
  · rfl
  · exact low_shiftLeft same count

/-! ## A whole tree -/

/-- What reducing after every operator gives has the low bits of what is not reduced at all. -/
theorem Source.RingTree.low_eq {values : String → Option Int64} {e : Expr}
    (tree : RingTree values e)
    (w : IntWidth) :
    ∃ n k, e.integer? values id = some n ∧ e.integer? values w.wrap = some k ∧
      w.low n = w.low k ∧ (e.leaf? values = some k ∨ w.Fits k) := by
  induction tree with
  | @leaf e n is => exact ⟨n, n, Expr.integer?_leaf is, Expr.integer?_leaf is, rfl, .inl is⟩
  | negative _ ih =>
      obtain ⟨n, k, wide, narrow, same, -⟩ := ih
      refine ⟨-n, w.wrap (-k), ?_, ?_, ?_, .inr (fits_wrap w _)⟩
      · rw [Expr.integer?, wide]
        rfl
      · rw [Expr.integer?, narrow]
        rfl
      · rw [low_wrap]
        exact low_neg same
  | complement _ ih =>
      obtain ⟨n, k, wide, narrow, same, -⟩ := ih
      refine ⟨~~~n, w.wrap (~~~k), ?_, ?_, ?_, .inr (fits_wrap w _)⟩
      · rw [Expr.integer?, wide]
        rfl
      · rw [Expr.integer?, narrow]
        rfl
      · rw [low_wrap]
        exact low_not same
  | operator ring _ _ left right =>
      obtain ⟨n, k, wide, narrow, same, -⟩ := left
      obtain ⟨n', k', wide', narrow', same', -⟩ := right
      obtain ⟨r, t, whole, reduced, agree⟩ := intOp_low ring same same'
      refine ⟨r, w.wrap t, ?_, ?_, ?_, .inr (fits_wrap w _)⟩
      · simp [Expr.integer?, wide, wide', whole]
      · simp [Expr.integer?, narrow, narrow', reduced]
      · rw [low_wrap]
        exact agree
  | @shift a count c _ constant notNegative ih =>
      obtain ⟨n, k, wide, narrow, same, -⟩ := ih
      obtain ⟨r, t, whole, reduced, agree⟩ := intOp_shl_low same notNegative
      have counted : ∀ after, count.integer? values after = some c :=
        fun after => Expr.integer?_leaf constant
      refine ⟨r, w.wrap t, ?_, ?_, ?_, .inr (fits_wrap w _)⟩
      · simp [Expr.integer?, wide, counted, whole]
      · simp [Expr.integer?, narrow, counted, reduced]
      · rw [low_wrap]
        exact agree

namespace Eval

variable {m : Machine} {scope : ScopeId} {depth : Nat} {e : Expr} {n : Int64}

theorem eval_leaf_run (is : e.leaf? (m.store.integers scope) = some n) :
    (eval e scope).run (Evaluator.ofDepth (depth + 1)) m = .ok (.int n) m.working := by
  unfold Expr.leaf? at is
  split at is
  · rename_i x
    unfold Store.integers at is
    split at is
    · cases is
    · rename_i found declared
      split at is
      · rename_i k holds
        rw [eval_name_run declared, holds, Option.some.inj is]
      · cases is
  · cases is
    rfl
  · cases is
    rfl
  · cases is

theorem binary_int_run {op : BinaryOp} {x y : Int64} (ran : intOp op x y = .ok n)
    (ev : Evaluator) : (binary op (.int x) (.int y)).run ev m = .ok (.int n) m := by
  have computed : (do return Value.int (← ofExcept (intOp op x y)) : Eval Value).run ev m =
      .ok (.int n) m := by
    rw [ran]
    rfl
  cases op with
  | eq => cases ran
  | ne => cases ran
  | lt => cases ran
  | le => cases ran
  | gt => cases ran
  | ge => cases ran
  | _ => exact computed

theorem binary_logical {op : BinaryOp} {x y : Int64} (ran : intOp op x y = .ok n) :
    op ≠ .logAnd ∧ op ≠ .logOr := by
  constructor <;> (rintro rfl; cases ran)

theorem eval_binary_run {op : BinaryOp} {a b : Expr} {x y : Int64} {between after : Machine}
    (first : (eval a scope).run (Evaluator.ofDepth depth) m.working = .ok (.int x) between)
    (second : (eval b scope).run (Evaluator.ofDepth depth) between = .ok (.int y) after)
    (ran : intOp op x y = .ok n) :
    (eval (.binary op a b) scope).run (Evaluator.ofDepth (depth + 1)) m = .ok (.int n) after := by
  have inOrder : (do
      let a ← eval a scope
      let b ← eval b scope
      binary op a b).run (Evaluator.ofDepth depth) m.working = .ok (.int n) after := by
    rw [bind_run_ok first, bind_run_ok second, binary_int_run ran]
  obtain ⟨noAnd, noOr⟩ := binary_logical ran
  cases op with
  | logAnd => exact absurd rfl noAnd
  | logOr => exact absurd rfl noOr
  | _ => exact inOrder

theorem levels_leaf {values : String → Option Int64} (is : e.leaf? values = some n) :
    e.levels 1 1 = 1 := by
  unfold Expr.leaf? at is
  split at is
  · rfl
  · rfl
  · rfl
  · cases is

theorem eval_unary_run {op : UnaryOp} {operand : Expr} {v r : Value} {after : Machine}
    (notAddr : op ≠ .addr)
    (first : (eval operand scope).run (Evaluator.ofDepth depth) m.working = .ok v after)
    (ran : (unary op v).run (Evaluator.ofDepth depth) after = .ok r after) :
    (eval (.unary op operand) scope).run (Evaluator.ofDepth (depth + 1)) m = .ok r after := by
  have inOrder : (do unary op (← eval operand scope)).run (Evaluator.ofDepth depth) m.working =
      .ok r after := by
    rw [bind_run_ok first, ran]
  cases op with
  | addr => exact absurd rfl notAddr
  | _ => exact inOrder

/-- A tree gives the integer that it stands for; all that changes is the count of the work. -/
theorem eval_ring_run {s : Store} (tree : RingTree (s.integers scope) e) :
    ∀ (depth : Nat) (m : Machine), m.store = s → e.levels 1 1 ≤ depth →
      ∃ n works, (eval e scope).run (Evaluator.ofDepth depth) m = .ok (.int n) { m with works } ∧
        e.integer? (s.integers scope) id = some n := by
  induction tree with
  | @leaf e n is =>
      intro depth m same enough
      rw [levels_leaf is] at enough
      obtain ⟨depth, rfl⟩ := Nat.exists_eq_add_of_le' enough
      subst same
      exact ⟨n, _, eval_leaf_run is, Expr.integer?_leaf is⟩
  | negative _ ih =>
      intro depth m same enough
      rw [Expr.levels] at enough
      obtain ⟨depth, rfl⟩ := Nat.exists_eq_add_of_le' (Nat.le_of_add_right_le enough)
      obtain ⟨n, works, ran, is⟩ := ih depth m.working same (by omega)
      refine ⟨-n, works, eval_unary_run (by decide) ran rfl, ?_⟩
      rw [Expr.integer?, is]
      rfl
  | complement _ ih =>
      intro depth m same enough
      rw [Expr.levels] at enough
      obtain ⟨depth, rfl⟩ := Nat.exists_eq_add_of_le' (Nat.le_of_add_right_le enough)
      obtain ⟨n, works, ran, is⟩ := ih depth m.working same (by omega)
      refine ⟨~~~n, works, eval_unary_run (by decide) ran rfl, ?_⟩
      rw [Expr.integer?, is]
      rfl
  | operator ring _ _ left right =>
      intro depth m same enough
      rw [Expr.levels] at enough
      obtain ⟨depth, rfl⟩ := Nat.exists_eq_add_of_le' (show 1 ≤ depth by omega)
      obtain ⟨x, between, first, isLeft⟩ := left depth m.working same (by omega)
      obtain ⟨y, works, second, isRight⟩ :=
        right depth { m with works := between } same (by omega)
      obtain ⟨n, -, computed, -⟩ := intOp_low ring (rfl : int8.low x = _) (rfl : int8.low y = _)
      refine ⟨n, works, eval_binary_run first second computed, ?_⟩
      simp [Expr.integer?, isLeft, isRight, computed]
  | @shift a count c _ constant notNegative ih =>
      intro depth m same enough
      rw [Expr.levels, levels_leaf constant] at enough
      obtain ⟨depth, rfl⟩ := Nat.exists_eq_add_of_le' (show 2 ≤ depth by omega)
      obtain ⟨x, between, first, isLeft⟩ :=
        ih (depth + 1) m.working same (by omega)
      have second : (eval count scope).run (Evaluator.ofDepth (depth + 1))
          { m with works := between } = .ok (.int c) _ := eval_leaf_run (same ▸ constant)
      have counted : count.integer? (s.integers scope) id = some c := Expr.integer?_leaf constant
      refine ⟨_, _, eval_binary_run first second (intOp_shl notNegative x), ?_⟩
      simp [Expr.integer?, isLeft, counted, intOp_shl notNegative x]

/-- Reducing only what a tree of operators gives in the end is the same as reducing after every
operator.  A tree that is a single operand has no operator: it has to be in the range itself. -/
theorem reduced_late (w : IntWidth) (tree : RingTree (m.store.integers scope) e)
    (operand : ∀ n, e.leaf? (m.store.integers scope) = some n → w.Fits n)
    (enough : e.levels 1 1 ≤ depth) :
    ∃ n works, (eval e scope).run (Evaluator.ofDepth depth) m = .ok (.int n) { m with works } ∧
      e.integer? (m.store.integers scope) w.wrap = some (w.wrap n) := by
  obtain ⟨n, works, ran, wide⟩ := eval_ring_run tree depth m rfl enough
  obtain ⟨n', k, wide', narrow, same, range⟩ := tree.low_eq w
  obtain rfl : n = n' := Option.some.inj (wide.symm.trans wide')
  have fits : w.Fits k := range.elim (operand k) id
  have reduced : w.wrap n = k := (wrap_congr same).trans (wrap_of_fits fits)
  exact ⟨n, works, ran, reduced ▸ narrow⟩

/-- A machine with a variable `b` of the type `byte`. -/
def byteMachine : Machine :=
  { Machine.initial {} with
    store :=
      { cells := #[.int 200]
        scopes := #[{ declared := [("b", ⟨⟨0⟩, some .uint8⟩)] }] } }

theorem byteMachine_integers : byteMachine.store.integers globalScope "b" = some 200 := by
  have declared : byteMachine.store.resolve? globalScope "b" = some ⟨⟨0⟩, some .uint8⟩ := by
    rw [Store.resolve?]
    rfl
  rw [Store.integers, declared]
  rfl

/-- The tree `-b * b << 1 &^ 100`, whose product alone leaves the range of a byte. -/
theorem reduced_late_byte :
    ∃ n works, (eval (.binary .andNot
          (.binary .shl (.binary .mul (.unary .neg (.name "b")) (.name "b")) (.int 1)) (.int 100))
        globalScope).run (Evaluator.ofDepth 5) byteMachine =
          .ok (.int n) { byteMachine with works } ∧
      Expr.integer? (byteMachine.store.integers globalScope) (IntWidth.wrap .uint8)
          (.binary .andNot (.binary .shl (.binary .mul (.unary .neg (.name "b")) (.name "b"))
            (.int 1)) (.int 100)) = some (IntWidth.wrap .uint8 n) := by
  have b : RingTree (byteMachine.store.integers globalScope) (.name "b") :=
    .leaf byteMachine_integers
  have product : RingTree _ (.binary .mul (.unary .neg (.name "b")) (.name "b")) :=
    .operator rfl (.negative b) b
  have doubled : RingTree _ (.binary .shl _ (.int 1)) := .shift product rfl (by decide)
  have tree : RingTree _ (.binary .andNot _ (.int 100)) := .operator rfl doubled (.leaf rfl)
  exact reduced_late .uint8 tree (fun n is => nomatch is) (by decide)

end Eval

end SandboxedGo
