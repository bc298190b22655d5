import SandboxedGo.Execution.Interpreted

/-!
# The accounts of a pool

However runs interleave, a pool never keeps more instances than it has room for, and those that it
keeps, those that are held and those that were not given back are together at least as many.  They
may be more, since a run that finds no idle instance takes a fresh one.  So once no run holds an
instance and all were given back, the pool is full.  Main statement: `pool_refills`.
-/

set_option autoImplicit false

namespace SandboxedGo

namespace PoolRun

variable {α : Type}

/-- Whether a run holds an instance that it got from the pool. -/
def holds : PoolRun α → Bool
  | ⟨false, .holding _⟩ => true
  | _ => false

/-- Whether a run has lost an instance that it got from the pool. -/
def hasLost : PoolRun α → Bool
  | ⟨false, .lost⟩ => true
  | _ => false

/-- Whether a run got an instance from the pool that it has not given back. -/
def owes (run : PoolRun α) : Bool := run.holds || run.hasLost

theorem countP_owes (runs : List (PoolRun α)) :
    runs.countP owes = runs.countP holds + runs.countP hasLost := by
  induction runs with
  | nil => rfl
  | cons run rest ih =>
      have exclusive : run.holds = true → run.hasLost = false := by
        intro holding
        unfold holds at holding
        split at holding
        · rfl
        · cases holding
      simp only [List.countP_cons, ih, owes, Bool.or_eq_true]
      cases holding : run.holds with
      | false =>
          simp
          omega
      | true =>
          simp [exclusive holding]
          omega

end PoolRun

/-! ## The pool -/

namespace Pool

variable {α : Type} {p p' : Pool α} {bridged : Bool} {stage stage' : RunStage α} {step : RunStep α}

@[simp] theorem capacity_acquire (p : Pool α) (fresh : α) :
    (p.acquire fresh).2.capacity = p.capacity := by
  unfold acquire
  split
  · rfl
  · rfl

@[simp] theorem capacity_release (p : Pool α) (a : α) : (p.release a).capacity = p.capacity := by
  unfold release
  split
  · rfl
  · rfl

theorem available_acquire (p : Pool α) (fresh : α) :
    (p.acquire fresh).2.available = p.available - 1 := by
  unfold acquire available
  split
  · simp [*]
  · simp [*]

theorem available_release (p : Pool α) (a : α) :
    (p.release a).available =
      if p.available < p.capacity then p.available + 1 else p.available := by
  unfold release available
  split
  · rfl
  · rfl

theorem acquire_cases (p : Pool α) (fresh : α) :
    (p.acquire fresh).1 ∈ p.idle ∨ p.idle = [] ∧ (p.acquire fresh).1 = fresh := by
  unfold acquire
  split
  · simp [*]
  · simp [*]

/-- What a step of a run does to its stage and to the pool. -/
inductive Moves (p : Pool α) : Bool → RunStage α → RunStep α → RunStage α → Pool α → Prop
  | acquired (fresh : α) :
    Moves p false .waiting (.acquire fresh) (.holding (p.acquire fresh).1) (p.acquire fresh).2
  | brought (fresh : α) : Moves p true .waiting (.acquire fresh) (.holding fresh) p
  | released {a : α} {reason : StopReason} {failure : Option RunFailure}
    (reusable : InterpretedBackend.leavesReusable reason failure = true) :
    Moves p false (.holding a) (.report reason failure) .returned (p.release a)
  | withheld {bridged : Bool} {a : α} {reason : StopReason} {failure : Option RunFailure}
    (unfit : (!bridged && InterpretedBackend.leavesReusable reason failure) = false) :
    Moves p bridged (.holding a) (.report reason failure) .lost p
  | vanished {bridged : Bool} {a : α} : Moves p bridged (.holding a) .vanish .lost p

theorem advance_cases (advances : p.advance? bridged stage step = some (stage', p')) :
    p.Moves bridged stage step stage' p' := by
  unfold advance? at advances
  split at advances
  · cases bridged with
    | false =>
        cases advances
        exact .acquired _
    | true =>
        cases advances
        exact .brought _
  · split at advances
    · rename_i reusable
      rw [Bool.and_eq_true, Bool.not_eq_true'] at reusable
      obtain ⟨rfl, reusable⟩ := reusable
      cases advances
      exact .released reusable
    · rename_i unfit
      cases advances
      exact .withheld (Bool.eq_false_iff.mpr unfit)
  · cases advances
    exact .vanished
  · cases advances

theorem Moves.capacity (moves : p.Moves bridged stage step stage' p') :
    p'.capacity = p.capacity := by
  cases moves with
  | acquired fresh => exact p.capacity_acquire fresh
  | released reusable => exact p.capacity_release _
  | brought fresh | withheld unfit | vanished => rfl

theorem Moves.bounded (moves : p.Moves bridged stage step stage' p')
    (bounded : p.available ≤ p.capacity) : p'.available ≤ p'.capacity := by
  rw [moves.capacity]
  cases moves with
  | acquired fresh =>
      rw [available_acquire]
      omega
  | released reusable =>
      rw [available_release]
      split
      · omega
      · exact bounded
  | brought fresh | withheld unfit | vanished => exact bounded

/-- What a pool and its runs are short of does not grow: an instance that is given back fills a
place, or there is none to fill. -/
theorem Moves.accounted {others : Nat} (moves : p.Moves bridged stage step stage' p')
    (accounted : p.capacity ≤ p.available + others + (PoolRun.owes ⟨bridged, stage⟩).toNat) :
    p'.capacity ≤ p'.available + others + (PoolRun.owes ⟨bridged, stage'⟩).toNat := by
  rw [moves.capacity]
  cases moves with
  | acquired fresh =>
      rw [available_acquire]
      simp [PoolRun.owes, PoolRun.holds, PoolRun.hasLost] at accounted ⊢
      omega
  | brought fresh => exact accounted
  | released reusable =>
      rw [available_release]
      simp [PoolRun.owes, PoolRun.holds, PoolRun.hasLost] at accounted ⊢
      split <;> omega
  | withheld unfit | vanished => cases bridged <;> exact accounted

end Pool

/-! ## The traffic -/

namespace PoolTraffic

variable {α : Type} {t t' : PoolTraffic α} {e : PoolEvent α} {events : List (PoolEvent α)}

def held (t : PoolTraffic α) : Nat := t.runs.countP PoolRun.holds

def lost (t : PoolTraffic α) : Nat := t.runs.countP PoolRun.hasLost

/-- What an event does to the pool and the runs. -/
inductive Happens (t : PoolTraffic α) : PoolEvent α → PoolTraffic α → Prop
  | begun (bridged : Bool) :
    Happens t (.begin bridged) { t with runs := t.runs ++ [{ bridged := bridged }] }
  | step {i : Nat} {bridged : Bool} {stage stage' : RunStage α} {step : RunStep α} {pool : Pool α}
    (at_ : t.runs[i]? = some ⟨bridged, stage⟩)
    (moves : t.pool.Moves bridged stage step stage' pool) :
    Happens t (.step i step) ⟨pool, t.runs.set i ⟨bridged, stage'⟩⟩

theorem after_cases (after : t.after? e = some t') : t.Happens e t' := by
  cases e with
  | begin bridged =>
      cases after
      exact .begun bridged
  | step i step =>
      simp only [after?] at after
      split at after
      · rename_i run at_
        split at after
        · rename_i stage pool advances
          cases after
          exact .step at_ (Pool.advance_cases advances)
        · cases after
      · cases after

theorem run_cases {rest : List (PoolEvent α)} (ran : t.run? (e :: rest) = some t') :
    ∃ next, t.Happens e next ∧ next.run? rest = some t' := by
  obtain ⟨next, after, ran⟩ := Option.bind_eq_some_iff.mp ran
  exact ⟨next, after_cases after, ran⟩

theorem Happens.capacity (happens : t.Happens e t') : t'.pool.capacity = t.pool.capacity := by
  cases happens with
  | begun bridged => rfl
  | step at_ moves => exact moves.capacity

/-- A pool keeps no more than it has room for, and what it keeps and what it is owed is together at
least as much. -/
structure Balanced (t : PoolTraffic α) : Prop where
  bounded : t.pool.available ≤ t.pool.capacity
  accounted : t.pool.capacity ≤ t.pool.available + t.runs.countP PoolRun.owes

theorem balanced_opened (capacity : Nat) (a : α) : Balanced (opened capacity a) := by
  have full : (opened capacity a).pool.available = capacity := List.length_replicate
  have room : (opened capacity a).pool.capacity = capacity := rfl
  constructor
  · omega
  · omega

theorem exists_others {runs : List (PoolRun α)} {i : Nat} {run : PoolRun α}
    (at_ : runs[i]? = some run) :
    ∃ others, runs.countP PoolRun.owes = others + run.owes.toNat ∧
      ∀ run', (runs.set i run').countP PoolRun.owes = others + run'.owes.toNat := by
  obtain ⟨inside, rfl⟩ := List.getElem?_eq_some_iff.mp at_
  let others := (runs.take i).countP PoolRun.owes + (runs.drop (i + 1)).countP PoolRun.owes
  have after (run' : PoolRun α) :
      (runs.set i run').countP PoolRun.owes = others + run'.owes.toNat := by
    rw [List.set_eq_take_append_cons_drop, if_pos inside, List.countP_append, List.countP_cons]
    cases run'.owes with
    | false => simp [others]
    | true =>
        simp [others]
        omega
  refine ⟨others, ?_, after⟩
  rw [← after, List.set_getElem_self]

theorem Balanced.happens (balanced : Balanced t) (happens : t.Happens e t') : Balanced t' := by
  cases happens with
  | begun bridged =>
      refine ⟨balanced.bounded, ?_⟩
      have accounted := balanced.accounted
      simp only [List.countP_append]
      omega
  | step at_ moves =>
      obtain ⟨others, before, after⟩ := exists_others at_
      have accounted := balanced.accounted
      rw [before, ← Nat.add_assoc] at accounted
      refine ⟨moves.bounded balanced.bounded, ?_⟩
      rw [after, ← Nat.add_assoc]
      exact moves.accounted accounted

theorem Balanced.run (balanced : Balanced t) (ran : t.run? events = some t') :
    Balanced t' ∧ t'.pool.capacity = t.pool.capacity := by
  induction events generalizing t with
  | nil =>
      cases ran
      exact ⟨balanced, rfl⟩
  | cons e rest ih =>
      obtain ⟨next, happens, ran⟩ := run_cases ran
      obtain ⟨balanced, same⟩ := ih (balanced.happens happens) ran
      exact ⟨balanced, same.trans happens.capacity⟩

/-- A run that waits can take an instance, an idle one or, if there is none, a fresh one. -/
theorem acquires {i : Nat} {run : PoolRun α} (at_ : t.runs[i]? = some run)
    (waiting : run.stage = .waiting) (fresh : α) :
    ∃ a t', t.after? (.step i (.acquire fresh)) = some t' ∧
      t'.runs[i]? = some { run with stage := .holding a } ∧
      (a ∈ t.pool.idle ∨ a = fresh) := by
  obtain ⟨bridged, stage⟩ := run
  subst waiting
  have inside := (List.getElem?_eq_some_iff.mp at_).1
  have moved (a : α) : (t.runs.set i ⟨bridged, .holding a⟩)[i]? = some ⟨bridged, .holding a⟩ :=
    List.getElem?_set_self inside
  simp only [after?, at_]
  cases bridged with
  | false => exact ⟨_, _, rfl, moved _, (t.pool.acquire_cases fresh).imp_right And.right⟩
  | true => exact ⟨_, _, rfl, moved fresh, .inr rfl⟩

/-- However runs over a pool interleave, whether they give their instances back or not: the pool has
no more idle instances than it has room for; these, those that are held and those that were lost are
at least as many; every run that waits gets an instance; and once none is held and none was lost,
the pool is full again. -/
theorem pool_refills {capacity : Nat} {a : α} (ran : (opened capacity a).run? events = some t) :
    t.pool.available ≤ capacity ∧
    capacity ≤ t.pool.available + t.held + t.lost ∧
    (∀ {i : Nat} {run : PoolRun α} (fresh : α), t.runs[i]? = some run → run.stage = .waiting →
      ∃ a t', t.after? (.step i (.acquire fresh)) = some t' ∧
        t'.runs[i]? = some { run with stage := .holding a } ∧ (a ∈ t.pool.idle ∨ a = fresh)) ∧
    (t.held = 0 → t.lost = 0 → t.pool.available = capacity) := by
  obtain ⟨⟨bounded, accounted⟩, same⟩ := (balanced_opened capacity a).run ran
  have room : t.pool.capacity = capacity := same
  have owed : t.runs.countP PoolRun.owes = t.held + t.lost := PoolRun.countP_owes t.runs
  refine ⟨by omega, by omega, fun fresh at_ waiting => acquires at_ waiting fresh, ?_⟩
  intro held lost
  omega

/-- Of two runs over a pool for one, the second gets a fresh instance and gives it back first.  The
instance of the first is dropped, and that of a run with a bridge does not count: the pool is full
again. -/
theorem pool_refills_crowded :
    ∃ t, (opened 1 'a').run? [.begin false, .begin false, .begin true, .step 0 (.acquire 'b'),
        .step 1 (.acquire 'c'), .step 2 (.acquire 'd'), .step 1 (.report .running none),
        .step 0 (.report .running none), .step 2 .vanish] = some t ∧
      t.pool.idle = ['c'] ∧ t.held = 0 ∧ t.lost = 0 ∧ t.pool.available = 1 := by
  refine ⟨_, rfl, rfl, rfl, rfl, ?_⟩
  obtain ⟨_, _, _, full⟩ := @pool_refills Char _ [.begin false, .begin false, .begin true,
    .step 0 (.acquire 'b'), .step 1 (.acquire 'c'), .step 2 (.acquire 'd'),
    .step 1 (.report .running none), .step 0 (.report .running none), .step 2 .vanish] 1 'a' rfl
  exact full rfl rfl

end PoolTraffic

/-- An execution does to the pool what its run does if no other one comes between. -/
theorem InterpretedBackend.execute_pool (b : InterpretedBackend) (request : ExecutionRequest) :
    let failure := (runSource request.source (b.runOptions request)).failure
    ∃ t, PoolTraffic.run? { pool := b.pool } [.begin request.bridge.isSome, .step 0 (.acquire {}),
        .step 0 (.report (stopReason request failure) failure)] = some t ∧
      t.pool = (b.execute request).2.pool := by
  intro failure
  cases bridge : request.bridge with
  | none =>
      cases reusable : leavesReusable (stopReason request failure) failure with
      | false =>
          refine ⟨⟨(b.pool.acquire {}).2, [⟨false, .lost⟩]⟩, ?_, ?_⟩
          · simp [PoolTraffic.run?, PoolTraffic.after?, Pool.advance?, reusable]
          · unfold failure at reusable
            simp [execute, bridge, reusable]
      | true =>
          refine ⟨⟨(b.pool.acquire {}).2.release (b.pool.acquire {}).1, [⟨false, .returned⟩]⟩,
            ?_, ?_⟩
          · simp [PoolTraffic.run?, PoolTraffic.after?, Pool.advance?, reusable]
          · unfold failure at reusable
            simp [execute, bridge, reusable]
  | some bridge =>
      refine ⟨⟨b.pool, [⟨true, .lost⟩]⟩, ?_, ?_⟩
      · simp [PoolTraffic.run?, PoolTraffic.after?, Pool.advance?]
      · simp [execute, bridge]

end SandboxedGo
