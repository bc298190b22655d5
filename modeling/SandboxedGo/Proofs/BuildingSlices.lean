import SandboxedGo.Eval.Literals
import SandboxedGo.Proofs.AppendedSlices
import SandboxedGo.Proofs.Building

/-!
# Building slices

Slices are made, appended to and listed in literals; arrays come with their zero values.  A literal
asks for the index of an element, not for the length that the element makes, so each element may be
one place beyond the cap.
-/

set_option autoImplicit false

namespace SandboxedGo.Eval

variable {ev : Evaluator} {m m' : Machine} {depth : Nat}

/-! ## Appending -/

theorem append_returns {view : SliceView} {items : List Value} {limit : Nat}
    (enough : view.length + items.length ≤ limit) (s : Store) :
    ∃ longer s', s.append view items limit = (some longer, s') ∧
      longer.length = view.length + items.length := by
  cases inPlace : Store.appendsInPlace view items.length with
  | true => exact ⟨_, _, Store.append_inPlace inPlace enough, rfl⟩
  | false => exact ⟨_, _, Store.append_grown inPlace enough, rfl⟩

theorem append_extends {s : Store} {view longer : SliceView} {items : List Value} {limit : Nat}
    {s' : Store} (appended : s.append view items limit = (some longer, s')) :
    longer.length = view.length + items.length := by
  by_cases enough : view.length + items.length ≤ limit
  · obtain ⟨_, _, returned, length⟩ := append_returns enough s
    cases returned.symm.trans appended
    exact length
  · rw [Store.append_tooLong (Nat.not_le.mp enough)] at appended
    cases appended

theorem appendItems_run (view : SliceView) (items : List Value) (ev : Evaluator) (m : Machine) :
    (appendItems view items).run ev m =
      match m.store.append view items m.limits.maxAlloc with
      | (some longer, store) => .ok (.slice longer) { m with store }
      | (none, store) => .error (.signal (.panic .sliceTooLong)) { m with store } := by
  unfold appendItems
  rw [bind_run_ok rfl]
  have added := onStore_run (·.append view items m.limits.maxAlloc) ev m
  rw [bind_run_ok added]
  generalize m.store.append view items m.limits.maxAlloc = result
  obtain ⟨longer, store⟩ := result
  cases longer <;> rfl

theorem appendItems_builds (view : SliceView) (items : List Value) :
    SurelyBuilds (appendItems view items) ev m (some (view.length + items.length)) returnedSize
      (view.length + items.length) where
  refused large := by
    rw [Machine.allows_some, Nat.not_le] at large
    rw [appendItems_run, Store.append_tooLong large]
    exact ⟨.sliceTooLong, m, rfl⟩
  sized v m' ran := by
    rw [appendItems_run] at ran
    cases appended : m.store.append view items m.limits.maxAlloc with
    | mk added store =>
        rw [appended] at ran
        cases added with
        | none => cases ran
        | some longer =>
            cases ran
            exact append_extends appended
  returns allowed := by
    rw [Machine.allows_some] at allowed
    obtain ⟨longer, store, appended, -⟩ := append_returns allowed m.store
    rw [appendItems_run, appended]
    exact ⟨_, _, rfl⟩

theorem copied_returns (v : Value) (m : Machine) :
    ∃ copy m', (copied v).run ev m = .ok copy m' := by
  unfold copied
  split
  · exact ⟨_, _, rfl⟩
  · exact ⟨_, _, rfl⟩

theorem copiedAll_returns (values : List Value) (m : Machine) :
    ∃ copies m', (copiedAll values).run ev m = .ok copies m' ∧ copies.length = values.length :=
  mapM_returns copied_returns values m

/-- What may be appended to: a slice, or nil for the empty one. -/
inductive IsList : Value → Prop
  | slice (view : SliceView) : IsList (.slice view)
  | nil : IsList .nil

theorem append_builds {v : Value} (list : IsList v) (items : List Value) :
    SurelyBuilds (builtin .append (v :: items)) (Evaluator.ofDepth depth) m
      (some (v.extent + items.length)) returnedSize (v.extent + items.length) := by
  obtain ⟨copies, between, copying, length⟩ := copiedAll_returns items m
  rw [← length]
  cases list with
  | slice view =>
      have unfolded : builtin .append (.slice view :: items) =
          (copiedAll items >>= fun copies => appendItems view copies) := rfl
      rw [unfolded]
      exact .behind copying (limits_kept copying) (appendItems_builds view copies)
  | nil =>
      have unfolded : builtin .append (.nil :: items) = (copiedAll items >>= fun copies =>
          onStore (·.newSlice #[]) >>= fun empty =>
            appendItems { empty with isNil := true } copies) := rfl
      rw [unfolded]
      refine .behind copying (limits_kept copying) (.behind (onStore_run _ _ _) rfl ?_)
      exact appendItems_builds _ copies

/-! ## Making -/

theorem repeated_size {count : Nat} {x : Eval Value} {acc items : Array Value}
    (ran : (repeated count x acc).run ev m = .ok items m') : items.size = acc.size + count := by
  induction count generalizing acc m with
  | zero =>
      obtain ⟨rfl, -⟩ := pure_ok ran
      rfl
  | succ count ih =>
      obtain ⟨v, between, -, ran⟩ := bind_ok ran
      have size := ih ran
      rw [Array.size_push] at size
      omega

theorem others_size {count : Nat} {x : Eval Value} {first : Value} {items : Array Value}
    (ran : (if Store.hasContents first then repeated count x #[first]
      else pure (Array.replicate (count + 1) first)).run ev m = .ok items m') :
    items.size = count + 1 := by
  split at ran
  · have size := repeated_size ran
    simp only [List.size_toArray, List.length_cons, List.length_nil] at size
    omega
  · obtain ⟨rfl, -⟩ := pure_ok ran
    exact Array.size_replicate

theorem zeros_size {count : Nat} {zero : Eval Value} {items : Array Value}
    (ran : (zeros count zero).run ev m = .ok items m') : items.size = count := by
  cases count with
  | zero =>
      obtain ⟨rfl, -⟩ := pure_ok ran
      rfl
  | succ count =>
      obtain ⟨first, between, -, ran⟩ := bind_ok ran
      exact others_size ran

theorem filled_size {count : Nat} {zero : Eval Value} {items : Array Value}
    (ran : (filled count zero).run ev m = .ok items m') : items.size = count := by
  cases count with
  | zero =>
      obtain ⟨rfl, -⟩ := pure_ok ran
      rfl
  | succ count =>
      obtain ⟨_, ticked, -, ran⟩ := bind_ok ran
      obtain ⟨first, begun, -, ran⟩ := bind_ok ran
      obtain ⟨_, counted, -, ran⟩ := bind_ok ran
      exact others_size ran

theorem makeSlice_builds (element : Source.TypeExpr) (length capacity : Int) :
    Builds (makeSlice element length capacity) ev m
      (some (max length.toNat capacity.toNat)) returnedSize length.toNat where
  refused large := by
    rw [Machine.allows_some, Nat.not_le] at large
    unfold makeSlice
    by_cases negative : length < 0
    · rw [if_pos negative]
      exact ⟨_, m, rfl⟩
    · by_cases smaller : capacity < length
      · rw [if_neg negative, if_pos smaller]
        exact ⟨_, m, rfl⟩
      · rw [if_neg negative, if_neg smaller]
        by_cases long : m.limits.maxAlloc < length.toNat
        · exact ⟨_, m, bind_run_error (checkAlloc_panics long _) _⟩
        · rw [bind_run_ok (checkAlloc_passes (Nat.not_lt.mp long) _)]
          exact ⟨_, m, bind_run_error (checkAlloc_panics (by omega) _) _⟩
  sized v after ran := by
    unfold makeSlice at ran
    by_cases negative : length < 0
    · rw [if_pos negative] at ran
      cases ran
    · by_cases smaller : capacity < length
      · rw [if_neg negative, if_pos smaller] at ran
        cases ran
      · rw [if_neg negative, if_neg smaller] at ran
        obtain ⟨_, _, -, ran⟩ := bind_ok ran
        obtain ⟨_, _, -, ran⟩ := bind_ok ran
        obtain ⟨items, filledIn, filling, ran⟩ := bind_ok ran
        cases ran
        exact filled_size filling

theorem make_builds {ty element : Source.TypeExpr}
    (under : m.types.underlying ty = .slice element) (length : Int64) (capacity : Option Int64) :
    Builds (make ty (length :: capacity.toList)) ev m
      (some (max length.toInt.toNat (capacity.getD length).toInt.toNat)) returnedSize
      length.toInt.toNat := by
  unfold make
  refine .behind (underlying_run under) rfl ?_
  cases capacity with
  | none => exact makeSlice_builds element length.toInt length.toInt
  | some capacity => exact makeSlice_builds element length.toInt capacity.toInt

theorem zeroArray_builds (levels : Nat) (length : Option Nat) (element : Source.TypeExpr) :
    Builds (zeroWithin (levels + 1) (.array length element)) ev m (some (length.getD 0))
      returnedSize (length.getD 0) := by
  have unfolded : zeroWithin (levels + 1) (.array length element) =
      (checkAlloc (length.getD 0) .arrayTooLong >>= fun _ => do
        let items ← zeros (length.getD 0) (zeroWithin levels element)
        return .slice { (← onStore (·.newSlice items)) with isArray := true }) := rfl
  rw [unfolded]
  refine .asking fun v after ran => ?_
  obtain ⟨items, filledIn, filling, ran⟩ := bind_ok ran
  cases ran
  exact zeros_size filling

/-! ## Listing -/

variable {ty : Source.TypeExpr} {scope : ScopeId}

theorem putItem_size {items gap : Array Value} {place : Nat} (v : Value)
    (filled : gap.size = place - items.size) :
    (putItem (items ++ gap) place v).size = max items.size (place + 1) := by
  unfold putItem
  rw [Array.size_append, filled]
  split
  · rw [Array.size_setIfInBounds, Array.size_append, filled]
    omega
  · rw [Array.size_push, Array.size_append, filled]
    omega

theorem sequence_following {e : Source.Expr} {rest : List (Option Source.Expr × Source.Expr)}
    {next : Nat} {items gap : Array Value} {v : Value} {evaluated filled : Machine}
    (evaluating : (element e ty scope).run ev m = .ok v evaluated)
    (filling : (zeros (next - items.size) (zeroValue ty)).run ev evaluated = .ok gap filled) :
    (sequence ty scope ((none, e) :: rest) next items).run ev m =
      (sequence ty scope rest (next + 1) (putItem (items ++ gap) next v)).run ev filled := by
  have unfolded : sequence ty scope ((none, e) :: rest) next items = (do
      let v ← element e ty scope
      let gap ← zeros (next - items.size) (zeroValue ty)
      sequence ty scope rest (next + 1) (putItem (items ++ gap) next v)) := rfl
  rw [unfolded, bind_run_ok evaluating]
  exact bind_run_ok filling _

/-- An element with an index is one without an index that follows there, if the cap allows it. -/
theorem sequence_indexed {key e : Source.Expr}
    {rest : List (Option Source.Expr × Source.Expr)} {next : Nat} {items : Array Value}
    {index : Int64} {read : Machine}
    (reading : (eval key scope >>= asInt).run ev m = .ok index read) (notNegative : ¬ index < 0) :
    (sequence ty scope ((some key, e) :: rest) next items).run ev m =
      (checkAlloc index.toInt.toNat .literalIndexTooLarge >>= fun _ =>
        sequence ty scope ((none, e) :: rest) index.toInt.toNat items).run ev read := by
  have unfolded : sequence ty scope ((some key, e) :: rest) next items = (do
      let at_ ← asInt (← eval key scope)
      if at_ < 0 then error (.negativeLiteralIndex at_.toInt)
      checkAlloc at_.toInt.toNat .literalIndexTooLarge
      sequence ty scope ((none, e) :: rest) at_.toInt.toNat items) := rfl
  obtain ⟨v, evaluated, evaluating, reading⟩ := bind_ok reading
  rw [unfolded, bind_run_ok evaluating, bind_run_ok reading, if_neg notNegative]

/-- Elements of a literal that can all be evaluated: `size` places are filled before them, and the
place of one without an index is `next`.  They ask for the largest of their indices, if they have
any, and `built` places are filled behind them. -/
inductive Listing (ev : Evaluator) (ty : Source.TypeExpr) (scope : ScopeId) :
    List (Option Source.Expr × Source.Expr) → (next size : Nat) → Machine → (asked : Option Nat) →
      (built : Nat) → Prop
  | ended (next size : Nat) (m : Machine) : Listing ev ty scope [] next size m none size
  | following {e : Source.Expr} {rest : List (Option Source.Expr × Source.Expr)}
      {next size built : Nat} {asked : Option Nat} {m evaluated filled : Machine} {v : Value}
      {gap : Array Value} (evaluating : (element e ty scope).run ev m = .ok v evaluated)
      (filling : (zeros (next - size) (zeroValue ty)).run ev evaluated = .ok gap filled)
      (others : Listing ev ty scope rest (next + 1) (max size (next + 1)) filled asked built) :
      Listing ev ty scope ((none, e) :: rest) next size m asked built
  | indexed {key e : Source.Expr} {rest : List (Option Source.Expr × Source.Expr)}
      {next size built : Nat} {asked : Option Nat} {m read : Machine} {index : Int64}
      (reading : (eval key scope >>= asInt).run ev m = .ok index read)
      (notNegative : ¬ index < 0)
      (placed : Listing ev ty scope ((none, e) :: rest) index.toInt.toNat size read asked built) :
      Listing ev ty scope ((some key, e) :: rest) next size m
        (some (max index.toInt.toNat (asked.getD 0))) built

variable {elements : List (Option Source.Expr × Source.Expr)} {next size built : Nat}
variable {asked : Option Nat} {items : Array Value}

theorem Listing.returns
    (listing : Listing (.ofDepth depth) ty scope elements next size m asked built)
    (before : items.size = size) (allowed : m.Allows asked) :
    ∃ result m', (sequence ty scope elements next items).run (.ofDepth depth) m =
      .ok result m' ∧ result.size = built := by
  induction listing generalizing items with
  | ended => exact ⟨items, _, rfl, before⟩
  | following evaluating filling others ih =>
      subst before
      rw [sequence_following evaluating filling]
      have limits := (limits_kept filling).trans (limits_kept evaluating)
      exact ih (putItem_size _ (zeros_size filling)) ((Machine.allows_congr limits).mpr allowed)
  | indexed reading notNegative _ ih =>
      obtain ⟨enough, allowed⟩ := Machine.allows_max.mp allowed
      have limits := limits_kept reading
      rw [sequence_indexed reading notNegative,
        bind_run_ok (checkAlloc_passes (limits ▸ enough) .literalIndexTooLarge)]
      exact ih before ((Machine.allows_congr limits).mpr allowed)

theorem Listing.refused
    (listing : Listing (.ofDepth depth) ty scope elements next size m asked built)
    (before : items.size = size) (large : ¬ m.Allows asked) :
    ∃ m', (sequence ty scope elements next items).run (.ofDepth depth) m =
      .error (.signal (.panic .literalIndexTooLarge)) m' := by
  induction listing generalizing items with
  | ended => exact absurd (Machine.allows_none _) large
  | following evaluating filling others ih =>
      subst before
      rw [sequence_following evaluating filling]
      have limits := (limits_kept filling).trans (limits_kept evaluating)
      exact ih (putItem_size _ (zeros_size filling)) (mt (Machine.allows_congr limits).mp large)
  | @indexed _ _ _ _ _ _ _ m read index reading notNegative _ ih =>
      have limits := limits_kept reading
      rw [sequence_indexed reading notNegative]
      by_cases enough : index.toInt.toNat ≤ read.limits.maxAlloc
      · rw [bind_run_ok (checkAlloc_passes enough .literalIndexTooLarge)]
        refine ih before fun allowed => large (Machine.allows_max.mpr ⟨limits ▸ enough, ?_⟩)
        exact (Machine.allows_congr limits).mp allowed
      · exact ⟨read, bind_run_error (checkAlloc_panics (Nat.not_le.mp enough) _) _⟩

theorem Listing.sized
    (listing : Listing (.ofDepth depth) ty scope elements next size m asked built)
    (before : items.size = size) {result : Array Value}
    (ran : (sequence ty scope elements next items).run (.ofDepth depth) m = .ok result m') :
    result.size = built := by
  by_cases allowed : m.Allows asked
  · obtain ⟨_, _, returned, exact⟩ := listing.returns before allowed
    cases returned.symm.trans ran
    exact exact
  · obtain ⟨_, panicked⟩ := listing.refused before allowed
    cases panicked.symm.trans ran

/-- Whatever a literal lists when it is evaluated is such a list of elements. -/
theorem Listing.of_run {result : Array Value}
    (ran : (sequence ty scope elements next items).run (.ofDepth depth) m = .ok result m') :
    ∃ asked, Listing (.ofDepth depth) ty scope elements next items.size m asked result.size := by
  induction elements generalizing next items m with
  | nil =>
      obtain ⟨rfl, -⟩ := pure_ok ran
      exact ⟨none, .ended next _ m⟩
  | cons element rest ih =>
      obtain ⟨key, e⟩ := element
      have following {next : Nat} {m : Machine}
          (ran : (sequence ty scope ((none, e) :: rest) next items).run (.ofDepth depth) m =
            .ok result m') : ∃ asked,
          Listing (.ofDepth depth) ty scope ((none, e) :: rest) next items.size m asked
            result.size := by
        obtain ⟨_, _, placed, ran⟩ := bind_ok ran
        obtain ⟨rfl, rfl⟩ := pure_ok placed
        obtain ⟨v, evaluated, evaluating, ran⟩ := bind_ok ran
        obtain ⟨gap, filled, filling, ran⟩ := bind_ok ran
        obtain ⟨asked, others⟩ := ih ran
        rw [putItem_size v (zeros_size filling)] at others
        exact ⟨asked, .following evaluating filling others⟩
      cases key with
      | none => exact following ran
      | some key =>
          obtain ⟨v, evaluated, evaluating, ran⟩ := bind_ok ran
          obtain ⟨index, read, reading, ran⟩ := bind_ok ran
          by_cases negative : index < 0
          · rw [if_pos negative] at ran
            cases ran
          · rw [if_neg negative] at ran
            obtain ⟨_, checked, checking, ran⟩ := bind_ok ran
            obtain ⟨-, rfl⟩ := checkAlloc_ok checking
            obtain ⟨asked, placed⟩ := following ran
            refine ⟨_, .indexed ?_ negative placed⟩
            rw [bind_run_ok evaluating, reading]

/-- Elements without indices ask for nothing, however many they are. -/
theorem Listing.unindexed {expressions : List Source.Expr} {ev : Evaluator}
    (listing : Listing ev ty scope (expressions.map (none, ·)) size size m asked built) :
    asked = none ∧ built = size + expressions.length := by
  induction expressions generalizing size m with
  | nil =>
      cases listing
      exact ⟨rfl, rfl⟩
  | cons e rest ih =>
      cases listing with
      | following _ _ others =>
          rw [Nat.max_eq_right (Nat.le_succ size)] at others
          obtain ⟨free, exact⟩ := ih others
          rw [List.length_cons]
          exact ⟨free, by omega⟩

/-- The cap is asked for the indices of a literal, and its elements may go one place beyond. -/
theorem literal_builds {whole : Source.TypeExpr}
    (under : m.types.underlying whole = .slice ty ∨ m.types.underlying whole = .array none ty)
    (listing : Listing (.ofDepth depth) ty scope elements 0 0 m asked built) :
    SurelyBuilds (composite whole elements scope) (.ofDepth depth) m asked returnedSize built := by
  have empty : (#[] : Array Value).size = 0 := rfl
  -- Whether it is a slice or an array, its value is made of the elements that are listed.
  have made : ∃ rest : Array Value → Eval Value,
      (composite whole elements scope).run (.ofDepth depth) m =
        (sequence ty scope elements 0 #[] >>= rest).run (.ofDepth depth) m ∧
      ∀ items between, ∃ v after, (rest items).run (.ofDepth depth) between = .ok v after ∧
        returnedSize after v = items.size := by
    unfold composite
    obtain under | under := under
    · exact ⟨_, bind_run_ok (underlying_run under) _, fun items between => ⟨_, _, rfl, rfl⟩⟩
    · exact ⟨_, bind_run_ok (underlying_run under) _, fun items between => ⟨_, _, rfl, rfl⟩⟩
  obtain ⟨rest, same, completes⟩ := made
  refine .of_run same ⟨⟨fun large => ?_, fun v after ran => ?_⟩, fun allowed => ?_⟩
  · obtain ⟨m', panicked⟩ := listing.refused empty large
    exact ⟨_, m', bind_run_error panicked rest⟩
  · obtain ⟨items, between, listed, ran⟩ := bind_ok ran
    obtain ⟨w, after', completed, exact⟩ := completes items between
    cases completed.symm.trans ran
    exact exact.trans (listing.sized empty listed)
  · obtain ⟨items, between, listed, -⟩ := listing.returns empty allowed
    obtain ⟨v, after, completed, -⟩ := completes items between
    exact ⟨v, after, by rw [bind_run_ok listed, completed]⟩

theorem listed_builds {whole : Source.TypeExpr} (under : m.types.underlying whole = .slice ty)
    {elements : List Source.Expr} {items : Array Value} {listed : Machine}
    (listing : (sequence ty scope (elements.map (none, ·)) 0 #[]).run (.ofDepth depth) m =
      .ok items listed) :
    SurelyBuilds (composite whole (elements.map (none, ·)) scope) (.ofDepth depth) m
      none returnedSize elements.length := by
  obtain ⟨asked, listing⟩ := Listing.of_run listing
  obtain ⟨rfl, exact⟩ := Listing.unindexed listing
  rw [exact] at listing
  rw [← Nat.zero_add elements.length]
  exact literal_builds (.inl under) listing

/-- A literal of an array asks for its whole length once its elements are listed. -/
theorem arrayLiteral_builds {whole : Source.TypeExpr} {length : Nat}
    (under : m.types.underlying whole = .array (some length) ty)
    (listing : Listing (.ofDepth depth) ty scope elements 0 0 m asked built)
    (fits : built ≤ length) :
    Builds (composite whole elements scope) (.ofDepth depth) m (some length) returnedSize
      length := by
  have empty : (#[] : Array Value).size = 0 := rfl
  by_cases allowed : m.Allows asked
  · obtain ⟨items, listed, returned, rfl⟩ := listing.returns empty allowed
    have asks : Builds (checkAlloc length .arrayTooLong >>= fun _ => do
        let all ← pure (items ++ (← zeros (length - items.size) (zeroValue ty)))
        return .slice { (← onStore (·.newSlice all)) with isArray := true })
        (.ofDepth depth) listed (some length) returnedSize length := by
      refine .asking fun v after ran => ?_
      obtain ⟨gap, filled, filling, ran⟩ := bind_ok ran
      cases ran
      show (items ++ gap).size = length
      rw [Array.size_append, zeros_size filling]
      omega
    -- The elements are listed before the cap is asked, under the same limits.
    unfold composite
    refine .behind (underlying_run under) rfl (.behind returned (limits_kept returned) ?_)
    dsimp only
    rw [if_neg (Nat.not_lt.mpr fits)]
    exact asks
  · -- An index that is refused ends the literal before its length is asked for.
    obtain ⟨m', panicked⟩ := listing.refused empty allowed
    have ends : (composite whole elements scope).run (.ofDepth depth) m =
        .error (.signal (.panic .literalIndexTooLarge)) m' := by
      unfold composite
      rw [bind_run_ok (underlying_run under)]
      exact bind_run_error panicked _
    exact ⟨fun _ => ⟨_, m', ends⟩, fun v after ran => by cases ends.symm.trans ran⟩

end SandboxedGo.Eval
