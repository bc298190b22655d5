import SandboxedGo.Eval.Perform
import SandboxedGo.Proofs.DeclaredVariables
import SandboxedGo.Proofs.Following

/-!
# The variables of a loop

Every round of a loop has variables of its own: behind the body, new ones take the values of the old
ones, and what the round has captured keeps the old ones.  The loop makes the new variables without
the widths of the old ones, and it takes a struct or an array as it is, so that the old variable and
the new one share its contents.  As long as no variable of the loop has a width or such contents,
the loop runs as if each round had variables of the same widths and with contents of their own.
Main statement: `loops_perIteration`.
-/

set_option autoImplicit false

namespace SandboxedGo

namespace Store

variable {s s' s'' : Store} {scope inner next : ScopeId} {names : List String}

/-! ## New variables -/

/-- A name stands for a variable of the scope or for what it stands for around it. -/
theorem resolve?_cases {outer : ScopeId} {name : String} {found : Variable}
    (around : (s.scopes[scope.index]?).map (·.parent) = some (some outer))
    (is : s.resolve? scope name = some found) :
    s.localVariable? scope name = some found ∨
      outer.index < scope.index ∧ s.resolve? outer name = some found := by
  obtain ⟨there, stored, parent⟩ := Option.map_eq_some_iff.mp around
  rw [Store.resolve?, stored] at is
  rw [Store.localVariable?, stored]
  cases declared : there.declared.lookup name with
  | some v =>
      simp only [declared] at is
      exact .inl (declared.trans is)
  | none =>
      simp only [declared, parent] at is
      split at is
      case isTrue older => exact .inr ⟨older, is⟩
      case isFalse => cases is

/-- Variables have been declared in a scope, each with a new cell. -/
structure DeclaredIn (next : ScopeId) (s s' : Store) : Prop where
  scopes : ∀ i, i ≠ next.index → s'.scopes[i]? = s.scopes[i]?
  parent : (s'.scopes[next.index]?).map (·.parent) = (s.scopes[next.index]?).map (·.parent)
  size : s.cells.size ≤ s'.cells.size
  cells : ∀ c : CellId, c.index < s.cells.size → s'.cell c = s.cell c
  new : ∀ name found, s'.localVariable? next name = some found →
    s.localVariable? next name = some found ∨ s.cells.size ≤ found.cell.index

namespace DeclaredIn

theorem refl (next : ScopeId) (s : Store) : DeclaredIn next s s where
  scopes _ _ := rfl
  parent := rfl
  size := Nat.le_refl _
  cells _ _ := rfl
  new _ _ is := .inl is

theorem trans (first : DeclaredIn next s s') (second : DeclaredIn next s' s'') :
    DeclaredIn next s s'' where
  scopes i apart := (second.scopes i apart).trans (first.scopes i apart)
  parent := second.parent.trans first.parent
  size := Nat.le_trans first.size second.size
  cells c inside :=
    (second.cells c (Nat.lt_of_lt_of_le inside first.size)).trans (first.cells c inside)
  new name found is := by
    rcases second.new name found is with before | new
    · exact first.new name found before
    · exact .inr (Nat.le_trans first.size new)

theorem define (s : Store) (next : ScopeId) (name : String) (v : Value)
    (width : Option IntWidth) : DeclaredIn next s (s.define next name v width) := by
  by_cases blank : name = "_"
  · rw [Store.define, if_pos blank]
    exact refl next s
  · refine ⟨fun i apart => ?_, ?_, ?_, fun c inside => ?_, fun other found is => ?_⟩
    · rw [define_named blank, Array.getElem?_modify, if_neg apart.symm]
    · rw [define_named blank, Array.getElem?_modify, if_pos rfl, Option.map_map]
      rfl
    · simp [cells_define blank, newCell]
    · simp only [cell, cells_define blank]
      exact cell_newCell inside v
    · rcases localVariable?_define_cases is with before | ⟨-, -, -, -, rfl⟩
      · exact .inl before
      · exact .inr (Nat.le_refl _)

theorem rooted (declared : DeclaredIn next s s') (inside : next.index < s.scopes.size) :
    next.index < s'.scopes.size := by
  have there := congrArg Option.isSome declared.parent
  simpa [inside] using there

theorem localVariable? (declared : DeclaredIn next s s') (apart : scope.index ≠ next.index)
    (name : String) : s'.localVariable? scope name = s.localVariable? scope name := by
  unfold Store.localVariable?
  rw [declared.scopes _ apart]

theorem resolve? (declared : DeclaredIn next s s') (older : scope.index < next.index)
    (name : String) : s'.resolve? scope name = s.resolve? scope name :=
  resolve?_of_scopes (fun i below => declared.scopes i (Nat.ne_of_lt below)) older name

end DeclaredIn

/-- The store when a variable of `inner`, if it is there, has been declared anew in `next`. -/
def renewed (inner next : ScopeId) (s : Store) (name : String) : Store :=
  match s.localVariable? inner name with
  | some found => s.define next name (s.cell found.cell) none
  | none => s

theorem renewed_declaredIn (inner next : ScopeId) (s : Store) (name : String) :
    DeclaredIn next s (s.renewed inner next name) := by
  unfold renewed
  split
  · exact .define _ _ _ _ _
  · exact .refl next s

theorem foldl_renewed_declaredIn (inner next : ScopeId) (names : List String) (s : Store) :
    DeclaredIn next s (names.foldl (renewed inner next) s) := by
  induction names generalizing s with
  | nil => exact .refl next s
  | cons name rest ih => exact (renewed_declaredIn inner next s name).trans (ih _)

theorem localVariable?_renewed_of_ne {name other : String} (apart : name ≠ other) :
    (s.renewed inner next other).localVariable? next name = s.localVariable? next name := by
  unfold renewed
  split
  case h_1 found is =>
    by_cases blank : other = "_"
    · rw [Store.define, if_pos blank]
    by_cases rooted : next.index < s.scopes.size
    · rw [localVariable?_define blank rooted, if_neg apart]
    · exact localVariable?_define_outside rooted
  case h_2 => rfl

theorem localVariable?_foldl_renewed {name : String} (others : name ∉ names) :
    (names.foldl (renewed inner next) s).localVariable? next name = s.localVariable? next name := by
  induction names generalizing s with
  | nil => rfl
  | cons other rest ih =>
      rw [List.mem_cons, not_or] at others
      rw [List.foldl_cons, ih others.2, localVariable?_renewed_of_ne others.1]

/-- A variable of the loop that has been declared anew: its cell is new and its value the old one,
and it has no width. -/
structure Renewal (s : Store) (old : Variable) (s' : Store) (new : Variable) : Prop where
  isNew : s.cells.size ≤ new.cell.index
  value : s'.cell new.cell = s.cell old.cell
  width : new.width = none

theorem exists_renewal {name : String} {found : Variable} (isIn : name ∈ names)
    (named : name ≠ "_") (apart : inner.index ≠ next.index) (rooted : next.index < s.scopes.size)
    (is : s.localVariable? inner name = some found) (inside : found.cell.index < s.cells.size) :
    ∃ new, (names.foldl (renewed inner next) s).localVariable? next name = some new ∧
      Renewal s found (names.foldl (renewed inner next) s) new := by
  induction names generalizing s with
  | nil => cases isIn
  | cons head rest ih =>
      have first := renewed_declaredIn inner next s head
      rw [List.foldl_cons]
      by_cases later : name ∈ rest
      · obtain ⟨new, declared, renewal⟩ := ih later (first.rooted rooted)
          ((first.localVariable? apart name).trans is) (Nat.lt_of_lt_of_le inside first.size)
        exact ⟨new, declared, Nat.le_trans first.size renewal.isNew,
          renewal.value.trans (first.cells _ inside), renewal.width⟩
      · obtain rfl : name = head := (List.mem_cons.mp isIn).resolve_right later
        have others := foldl_renewed_declaredIn inner next rest (s.renewed inner next name)
        have defined : s.renewed inner next name =
            s.define next name (s.cell found.cell) none := by
          rw [renewed, is]
        have last : (s.renewed inner next name).cells =
            (s.newCell (s.cell found.cell)).2.cells := by
          rw [defined, cells_define named]
        refine ⟨⟨⟨s.cells.size⟩, none⟩, ?_, Nat.le_refl _, ?_, rfl⟩
        · rw [localVariable?_foldl_renewed later, defined, localVariable?_define named rooted,
            if_pos rfl]
        · rw [others.cells _ (by simp [last, newCell]), cell, last]
          exact cell_newCell_self s _

/-- What a round of a loop begins with when the variables have been declared anew: each is a new one
with the value of the old one, a name stands for a new variable or for what it stands for outside of
the loop, and whoever has the old variables keeps them. -/
structure NewRound (names : List String) (scope inner : ScopeId) (s s' : Store) : Prop where
  renews : ∀ name ∈ names, name ≠ "_" → ∀ found, s.localVariable? inner name = some found →
    ∃ new, s'.localVariable? ⟨s.scopes.size⟩ name = some new ∧ Renewal s found s' new
  finds : ∀ name found, s'.resolve? ⟨s.scopes.size⟩ name = some found →
    s.cells.size ≤ found.cell.index ∨ s.resolve? scope name = some found
  keepsNames : ∀ older : ScopeId, older.index < s.scopes.size → ∀ name,
    s'.resolve? older name = s.resolve? older name
  keepsCells : ∀ c : CellId, c.index < s.cells.size → s'.cell c = s.cell c

theorem localVariable?_newScope_self (s : Store) (parent : Option ScopeId) (name : String) :
    (s.newScope parent).2.localVariable? ⟨s.scopes.size⟩ name = none := by
  simp [Store.localVariable?, newScope]

theorem resolve?_newScope (parent : Option ScopeId) (older : scope.index < s.scopes.size)
    (name : String) : (s.newScope parent).2.resolve? scope name = s.resolve? scope name :=
  resolve?_of_scopes
    (fun i below => by rw [newScope, Array.getElem?_push, if_neg (Nat.ne_of_lt below)]) older name

theorem newRound (own : s.OwnCells) (names : List String) (scope inner : ScopeId) :
    NewRound names scope inner s
      (names.foldl (renewed inner ⟨s.scopes.size⟩) (s.newScope (some scope)).2) := by
  have declared := foldl_renewed_declaredIn inner ⟨s.scopes.size⟩ names (s.newScope (some scope)).2
  have keepsNames (older : ScopeId) (inside : older.index < s.scopes.size) (name : String) :=
    (declared.resolve? inside name).trans (resolve?_newScope (some scope) inside name)
  refine ⟨fun name isIn named found is => ?_, fun name found is => ?_, keepsNames,
    fun c inside => declared.cells c inside⟩
  · have rooted : inner.index < s.scopes.size := by
      refine Nat.lt_of_not_le fun outside => ?_
      rw [Store.localVariable?, Array.getElem?_eq_none outside] at is
      cases is
    have is' := (s.localVariable?_newScope (some scope) inner name).trans is
    have last : s.scopes.size < (s.newScope (some scope)).2.scopes.size := by simp [newScope]
    have apart : inner.index ≠ (⟨s.scopes.size⟩ : ScopeId).index := Nat.ne_of_lt rooted
    obtain ⟨new, there, renewal⟩ := exists_renewal isIn named apart last is' (own.inside is)
    exact ⟨new, there, renewal.isNew, renewal.value, renewal.width⟩
  · -- The new scope is the one behind the scope around the loop, and it was empty.
    have around := declared.parent.trans (by simp [newScope] : _ = some (some scope))
    rcases resolve?_cases around is with declaredThere | ⟨older, outside⟩
    · rcases declared.new name found declaredThere with before | new
      · rw [localVariable?_newScope_self] at before
        cases before
      · exact .inl new
    · exact .inr ((keepsNames scope older name).symm.trans outside)

end Store

namespace Eval

open Source

/-! ## Variables of their own -/

/-- Declare the variables of a loop anew, with the widths that they have and with contents of their
own. -/
def renewWhole (scope next : ScopeId) : List String → Eval Unit
  | [] => pure ()
  | name :: rest => do
    match ← viewStore (·.localVariable? scope name) with
    | some found => define next name (← copied (← readCell found.cell)) found.width
    | none => pure ()
    renewWhole scope next rest

/-- A round up to the end of its body; whether the loop goes on. -/
def roundHead (test : Option Expr) (body : List Stmt) (inner : ScopeId) : Flow Bool := do
  undertake .round (pure ())
  if ← condition test inner then loopBody body (← newScope inner) else return false

/-- The statement behind the body; the next round has the same variables. -/
def afterRound (post : Option Stmt) (next : ScopeId) : Flow (Option ScopeId) := do
  match post with
  | some s => Flow.exec s next
  | none => pure ()
  return some next

/-- What follows the body: new variables, and then the statement behind it. -/
def roundTail (renew : ScopeId → ScopeId → List String → Eval Unit) (names : List String)
    (post : Option Stmt) (scope inner : ScopeId) : Flow (Option ScopeId) := do
  let next ←
    if names.isEmpty then pure inner
    else do
      let next ← newScope scope
      renew inner next names
      pure next
  afterRound post next

def roundWith (renew : ScopeId → ScopeId → List String → Eval Unit) (names : List String)
    (test : Option Expr) (post : Option Stmt) (body : List Stmt) (scope inner : ScopeId) :
    Flow (Option ScopeId) := do
  if ← roundHead test body inner then roundTail renew names post scope inner else return none

/-- What comes before the first round: the scope of its variables. -/
def openLoop (line : Nat) (init : Option Stmt) (scope : ScopeId) : Flow ScopeId := do
  setLine line
  undertake .statement (pure ())
  let inner ← newScope scope
  execOptional init inner
  return inner

/-- A loop whose variables are declared anew by `renew`. -/
def loopWith (renew : ScopeId → ScopeId → List String → Eval Unit) (line : Nat)
    (init : Option Stmt) (test : Option Expr) (post : Option Stmt) (body : List Stmt)
    (scope : ScopeId) : Flow Unit := do
  let inner ← openLoop line init scope
  loop (roundWith renew (loopNames init) test post body scope) inner

/-- The loop in which every round has variables of the same widths and with contents of their
own. -/
def perIterationLoop (line : Nat) (init : Option Stmt) (test : Option Expr) (post : Option Stmt)
    (body : List Stmt) (scope : ScopeId) : Flow Unit :=
  loopWith renewWhole line init test post body scope

variable {ev : Evaluator} {m : Machine} {names : List String} {test : Option Expr}
  {post : Option Stmt} {body : List Stmt} {scope inner : ScopeId}

/-- A round declares its variables anew without their widths and contents. -/
theorem round_run (names : List String) (test : Option Expr) (post : Option Stmt)
    (body : List Stmt) (scope inner : ScopeId) (ev : Evaluator) (m : Machine) :
    (round names test post body scope inner).run ev m =
      (roundWith renewVariables names test post body scope inner).run ev m := by
  unfold round roundWith
  rw [bind_run, bind_run (roundHead test body inner), roundHead, bind_run]
  cases (liftM (undertake .round (pure ())) : Flow Unit).run ev m with
  | error stop after => rfl
  | ok _ begun =>
      dsimp only
      rw [bind_run, bind_run]
      cases (liftM (condition test inner) : Flow Bool).run ev begun with
      | error stop after => rfl
      | ok holds tested =>
          cases holds with
          | false => rfl
          | true =>
              obtain ⟨inside, opened, opening⟩ : ∃ inside opened,
                  (liftM (newScope inner) : Flow ScopeId).run ev tested = .ok inside opened :=
                ⟨_, _, rfl⟩
              dsimp only
              rw [if_pos rfl, if_pos rfl, bind_run_ok opening, bind_run_ok opening, bind_run]
              cases (loopBody body inside).run ev opened with
              | error stop after => rfl
              | ok goesOn after => cases goesOn <;> rfl

theorem execute_for_run (line : Nat) (init : Option Stmt) (test : Option Expr) (post : Option Stmt)
    (body : List Stmt) (scope : ScopeId) (ev : Evaluator) (m : Machine) :
    (execute (.mk line (.for init test post body)) scope).run ev m =
      (loopWith renewVariables line init test post body scope).run ev m := by
  have rounds : (fun inner => (round (loopNames init) test post body scope inner).run ev) =
      fun inner => (roundWith renewVariables (loopNames init) test post body scope inner).run ev :=
    funext fun inner => funext fun m => round_run _ test post body scope inner ev m
  have loops (inner : ScopeId) :
      (loop (round (loopNames init) test post body scope) inner).run ev =
        (loop (roundWith renewVariables (loopNames init) test post body scope) inner).run ev :=
    congrArg (fun round => Action.iterate round ev.rounds inner) rounds
  show (liftM (setLine line) >>= fun _ => liftM (undertake .statement (pure ())) >>= fun _ =>
    forLoop init test post body scope : Flow Unit).run ev m = _
  unfold loopWith openLoop forLoop
  rw [bind_run, bind_run, bind_run]
  cases (liftM (setLine line) : Flow Unit).run ev m with
  | error stop after => rfl
  | ok _ numbered =>
      dsimp only
      rw [bind_run, bind_run]
      cases (liftM (undertake .statement (pure ())) : Flow Unit).run ev numbered with
      | error stop after => rfl
      | ok _ begun =>
          dsimp only
          rw [bind_run, bind_run]
          cases (liftM (newScope scope) : Flow ScopeId).run ev begun with
          | error stop after => rfl
          | ok inner opened =>
              dsimp only
              rw [bind_run, bind_run]
              cases (execOptional init inner).run ev opened with
              | error stop after => rfl
              | ok _ started => exact congrFun (loops inner) started

/-! ## New variables -/

theorem localVariable?_run (scope : ScopeId) (name : String) (ev : Evaluator) (m : Machine) :
    (viewStore (·.localVariable? scope name)).run ev m =
      .ok (m.store.localVariable? scope name) m := rfl

theorem renewVariables_cons (inner next : ScopeId) (name : String) (rest : List String)
    (ev : Evaluator) (m : Machine) :
    (renewVariables inner next (name :: rest)).run ev m =
      (renewVariables inner next rest).run ev
        { m with store := m.store.renewed inner next name } := by
  rw [renewVariables, bind_run_ok (localVariable?_run inner name ev m)]
  unfold Store.renewed
  cases m.store.localVariable? inner name <;> rfl

theorem renewVariables_run (inner next : ScopeId) (names : List String) (ev : Evaluator)
    (m : Machine) :
    (renewVariables inner next names).run ev m =
      .ok () { m with store := names.foldl (·.renewed inner next ·) m.store } := by
  induction names generalizing m with
  | nil => rfl
  | cons name rest ih => rw [renewVariables_cons, ih, List.foldl_cons]

/-! ## Plain variables -/

/-- No variable of a loop has a width or holds a struct or an array. -/
def PlainVariables (names : List String) (inner : ScopeId) (s : Store) : Prop :=
  ∀ name ∈ names, ∀ found ∈ s.localVariable? inner name,
    found.width = none ∧ Store.hasContents (s.cell found.cell) = false

instance (names : List String) (inner : ScopeId) (s : Store) :
    Decidable (PlainVariables names inner s) :=
  inferInstanceAs (Decidable (∀ name ∈ names, ∀ found ∈ s.localVariable? inner name,
    found.width = none ∧ Store.hasContents (s.cell found.cell) = false))

/-- Whether the variables of a loop are plain whenever they are declared anew. -/
def staysPlain (ev : Evaluator) (names : List String) (test : Option Expr) (post : Option Stmt)
    (body : List Stmt) (scope : ScopeId) : (rounds : Nat) → ScopeId → Machine → Bool
  | 0, _, _ => true
  | rounds + 1, inner, m =>
    match (roundHead test body inner).run ev m with
    | .ok true before =>
      decide (PlainVariables names inner before.store) &&
        match (roundTail renewVariables names post scope inner).run ev before with
        | .ok (some next) after => staysPlain ev names test post body scope rounds next after
        | _ => true
    | _ => true

/-- Whether the variables of a loop are plain from its first round on. -/
def opensPlain (ev : Evaluator) (line : Nat) (init : Option Stmt) (test : Option Expr)
    (post : Option Stmt) (body : List Stmt) (scope : ScopeId) (m : Machine) : Bool :=
  match (openLoop line init scope).run ev m with
  | .ok inner start => staysPlain ev (loopNames init) test post body scope ev.rounds inner start
  | .error _ _ => true

theorem PlainVariables.define {s : Store} (plain : PlainVariables names inner s) {v : Value}
    (noContents : Store.hasContents v = false) (next : ScopeId) (other : String) :
    PlainVariables names inner (s.define next other v none) := by
  by_cases blank : other = "_"
  · rw [Store.define, if_pos blank]
    exact plain
  have cells (c : CellId) : (s.define next other v none).cell c = (s.newCell v).2.cell c := by
    simp only [Store.cell, Store.cells_define blank]
  have new : (s.newCell v).2.cell ⟨s.cells.size⟩ = v := Store.cell_newCell_self s v
  intro name isIn found is
  rw [cells]
  rcases Store.localVariable?_define_cases is with before | ⟨-, -, -, -, rfl⟩
  · obtain ⟨width, contents⟩ := plain name isIn found before
    refine ⟨width, ?_⟩
    by_cases last : found.cell = ⟨s.cells.size⟩
    · rw [last, new, noContents]
    · rwa [Store.cell_newCell_of_ne last]
  · exact ⟨rfl, by rw [new, noContents]⟩

theorem copied_of_plain {v : Value} (noContents : Store.hasContents v = false) :
    copied v = pure v := by
  rw [copied, noContents]
  rfl

/-- Plain variables are declared anew with widths and contents of their own as they are without. -/
theorem renewWhole_run {m : Machine} (plain : PlainVariables names inner m.store) (next : ScopeId)
    (ev : Evaluator) :
    (renewWhole inner next names).run ev m = (renewVariables inner next names).run ev m := by
  induction names generalizing m with
  | nil => rfl
  | cons name rest ih =>
      have restPlain : PlainVariables rest inner m.store :=
        fun other isIn => plain other (List.mem_cons_of_mem name isIn)
      rw [renewVariables_cons, renewWhole,
        bind_run_ok (localVariable?_run inner name ev m)]
      unfold Store.renewed
      cases declared : m.store.localVariable? inner name with
      | none => exact ih restPlain
      | some found =>
          obtain ⟨width, contents⟩ := plain name List.mem_cons_self found declared
          have read : (readCell found.cell).run ev m = .ok (m.store.cell found.cell) m := rfl
          show (readCell found.cell >>= fun v => copied v >>= fun v =>
            define next name v found.width >>= fun _ => renewWhole inner next rest).run ev m = _
          rw [bind_run_ok read, copied_of_plain contents, width]
          exact ih (restPlain.define contents next name)

theorem PlainVariables.newScope {s : Store} (plain : PlainVariables names inner s)
    (parent : Option ScopeId) : PlainVariables names inner (s.newScope parent).2 :=
  fun name isIn found is =>
    plain name isIn found ((s.localVariable?_newScope parent inner name).symm.trans is)

theorem roundTail_run (plain : PlainVariables names inner m.store) (post : Option Stmt)
    (scope : ScopeId) (ev : Evaluator) :
    (roundTail renewVariables names post scope inner).run ev m =
      (roundTail renewWhole names post scope inner).run ev m := by
  unfold roundTail
  cases none : names.isEmpty with
  | true => rfl
  | false =>
      let next : ScopeId := ⟨m.store.scopes.size⟩
      let opened : Machine := { m with store := (m.store.newScope (some scope)).2 }
      have opens : (liftM (newScope scope) : Flow ScopeId).run ev m = .ok next opened := rfl
      have renewals : (liftM (renewWhole inner next names) : Flow Unit).run ev opened =
          (liftM (renewVariables inner next names) : Flow Unit).run ev opened :=
        renewWhole_run (plain.newScope (some scope)) next ev
      rw [if_neg Bool.false_ne_true, if_neg Bool.false_ne_true, bind_run_ok opens,
        bind_run_ok opens, bind_run, bind_run, renewals]

/-- As long as the variables stay plain, the rounds are those with variables of the same widths and
with contents of their own. -/
theorem rounds_run (rounds : Nat)
    (stays : staysPlain ev names test post body scope rounds inner m = true) :
    Action.iterate (fun inner =>
        (roundWith renewVariables names test post body scope inner).run ev) rounds inner m =
      Action.iterate (fun inner =>
        (roundWith renewWhole names test post body scope inner).run ev) rounds inner m := by
  induction rounds generalizing inner m with
  | zero => rfl
  | succ rounds ih =>
      rw [staysPlain] at stays
      rw [Action.iterate, Action.iterate]
      dsimp only
      unfold roundWith
      rw [bind_run, bind_run]
      cases head : (roundHead test body inner).run ev m with
      | error stop before => rfl
      | ok goesOn before =>
          cases goesOn with
          | false => rfl
          | true =>
              rw [head] at stays
              obtain ⟨plain, goesOn⟩ := Bool.and_eq_true_iff.mp stays
              dsimp only
              rw [if_pos rfl, if_pos rfl, ← roundTail_run (of_decide_eq_true plain)]
              cases tail : (roundTail renewVariables names post scope inner).run ev before with
              | error stop after => rfl
              | ok next after =>
                  cases next with
                  | none => rfl
                  | some next =>
                      rw [tail] at goesOn
                      exact ih goesOn

/-! ## Loops -/

theorem roundTail_renews (nonempty : names ≠ []) (own : m.store.OwnCells) (post : Option Stmt)
    (scope inner : ScopeId) (ev : Evaluator) :
    ∃ after, (roundTail renewVariables names post scope inner).run ev m =
        (afterRound post ⟨m.store.scopes.size⟩).run ev { m with store := after } ∧
      Store.NewRound names scope inner m.store after := by
  refine ⟨_, ?_, Store.newRound own names scope inner⟩
  let next : ScopeId := ⟨m.store.scopes.size⟩
  let opened : Machine := { m with store := (m.store.newScope (some scope)).2 }
  have opens : (liftM (newScope scope) : Flow ScopeId).run ev m = .ok next opened := rfl
  let after : Machine :=
    { opened with store := names.foldl (·.renewed inner next ·) opened.store }
  have renewals : (liftM (renewVariables inner next names) : Flow Unit).run ev opened =
      .ok () after :=
    renewVariables_run inner next names ev opened
  have isNonempty : ¬ names.isEmpty = true := by simpa using nonempty
  unfold roundTail
  rw [if_neg isNonempty, bind_run_ok opens, bind_run_ok renewals]
  rfl

/-- What a loop does. -/
structure PerIteration (line : Nat) (init : Option Stmt) (test : Option Expr) (post : Option Stmt)
    (body : List Stmt) (scope : ScopeId) (ev : Evaluator) (m : Machine) : Prop where
  /-- The loop declares its variables anew behind every body. -/
  runs : (execute (.mk line (.for init test post body)) scope).run ev m =
    (loopWith renewVariables line init test post body scope).run ev m
  /-- What follows the body is executed with the new variables. -/
  renews : loopNames init ≠ [] → ∀ (inner : ScopeId) (before : Machine), before.store.OwnCells →
    ∃ after, (roundTail renewVariables (loopNames init) post scope inner).run ev before =
        (afterRound post ⟨before.store.scopes.size⟩).run ev { before with store := after } ∧
      Store.NewRound (loopNames init) scope inner before.store after
  /-- Plain variables keep their widths, and nothing is shared. -/
  refines : opensPlain ev line init test post body scope m = true →
    (execute (.mk line (.for init test post body)) scope).run ev m =
      (perIterationLoop line init test post body scope).run ev m

/-- In every round a loop has new variables with the values of the old ones; as long as they are
plain, they are like the old ones in every way and share nothing with them. -/
theorem loops_perIteration (line : Nat) (init : Option Stmt) (test : Option Expr)
    (post : Option Stmt) (body : List Stmt) (scope : ScopeId) (ev : Evaluator) (m : Machine) :
    PerIteration line init test post body scope ev m where
  runs := execute_for_run line init test post body scope ev m
  renews nonempty inner _ own := roundTail_renews nonempty own post scope inner ev
  refines plain := by
    rw [execute_for_run]
    unfold perIterationLoop loopWith
    rw [bind_run, bind_run]
    cases opens : (openLoop line init scope).run ev m with
    | error stop after => rfl
    | ok inner start =>
        rw [opensPlain, opens] at plain
        exact rounds_run ev.rounds plain

/-- The statement `for i := 0; i < 2; i++ { }`. -/
theorem loops_perIteration_counter :
    (execute (.mk 1 (.for (some (.mk 1 (.define ["i"] [.int 0])))
        (some (.binary .lt (.name "i") (.int 2))) (some (.mk 1 (.increment (.name "i")))) []))
      globalScope).run (.ofDepth 5) (Machine.initial {}) =
    (perIterationLoop 1 (some (.mk 1 (.define ["i"] [.int 0])))
        (some (.binary .lt (.name "i") (.int 2))) (some (.mk 1 (.increment (.name "i")))) []
      globalScope).run (.ofDepth 5) (Machine.initial {}) :=
  (loops_perIteration _ _ _ _ _ _ _ _).refines (by decide +kernel)

end Eval

end SandboxedGo
