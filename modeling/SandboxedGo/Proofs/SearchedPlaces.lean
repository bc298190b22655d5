import Mathlib.Algebra.Group.Int.Defs
import SandboxedGo.Proofs.Following
import SandboxedGo.Run

/-!
# Places found by halving

A range of places is halved until nothing is left of it: each round asks a function of the program
about the place in the middle, and goes on below that place or behind it.  The function may hold of
any places; all that carries the rounds is that it holds of the place behind the range, or that is
the end, and fails at the one before it.  The numbers have 64 bits, and none of them overflows.
Main statement: `search_finds_edge`.
-/

set_option autoImplicit false

namespace SandboxedGo.Library

variable {p : Int64 → Bool} {low high count place : Int64} {asked : List Int64}

/-! ## Rounds -/

/-- The numbers that a round makes are those of unbounded integers. -/
structure ExactRound (low high : Int64) : Prop where
  distance : (high - low).toInt = high.toInt - low.toInt
  middle : (midpoint low high).toInt = low.toInt + (high.toInt - low.toInt) / 2
  behind : (midpoint low high + 1).toInt = (midpoint low high).toInt + 1

/-- The rounds in which a range is halved by a predicate, the places it is asked about and the place
that is found; no round overflows. -/
inductive Rounds (p : Int64 → Bool) :
    (low high : Int64) → (asked : List Int64) → (place : Int64) → Prop
  | empty {low high : Int64} (empty : ¬ low < high) : Rounds p low high [] low
  | lower {low high place : Int64} {asked : List Int64} (range : low < high)
      (exact : ExactRound low high) (holds : p (midpoint low high) = true)
      (others : Rounds p low (midpoint low high) asked place) :
      Rounds p low high (midpoint low high :: asked) place
  | upper {low high place : Int64} {asked : List Int64} (range : low < high)
      (exact : ExactRound low high) (fails : p (midpoint low high) = false)
      (others : Rounds p (midpoint low high + 1) high asked place) :
      Rounds p low high (midpoint low high :: asked) place

theorem exact_of_nonneg (nonneg : 0 ≤ low) (range : low < high) : ExactRound low high :=
  ⟨toInt_distance nonneg range, toInt_midpoint nonneg range, toInt_midpoint_succ nonneg range⟩

/-- Both parts of a range are at most half as long. -/
theorem ExactRound.halves (exact : ExactRound low high) {k : Nat}
    (short : high.toInt - low.toInt < 2 ^ (k + 1)) :
    (midpoint low high).toInt - low.toInt < 2 ^ k ∧
      high.toInt - (midpoint low high + 1).toInt < 2 ^ k := by
  rw [exact.behind, exact.middle]
  rw [Int.pow_succ] at short
  omega

theorem Rounds.inside (rounds : Rounds p low high asked place) :
    ∀ i ∈ asked, low ≤ i ∧ i < high := by
  induction rounds with
  | empty _ => exact nofun
  | @lower low high place asked range exact holds others ih =>
      have middle := exact.middle
      simp only [Int64.le_iff_toInt_le, Int64.lt_iff_toInt_lt] at range ih ⊢
      intro i isAsked
      rcases List.mem_cons.mp isAsked with rfl | later
      · omega
      · have inside := ih i later
        omega
  | @upper low high place asked range exact fails others ih =>
      have middle := exact.middle
      have behind := exact.behind
      simp only [Int64.le_iff_toInt_le, Int64.lt_iff_toInt_lt] at range ih ⊢
      intro i isAsked
      rcases List.mem_cons.mp isAsked with rfl | later
      · omega
      · have inside := ih i later
        omega

/-- The predicate holds of the place that is found unless that is the end of the range, and fails at
the place before it unless that is the beginning. -/
theorem Rounds.edge (rounds : Rounds p low high asked place) (ordered : low ≤ high) :
    low ≤ place ∧ place ≤ high ∧ (p place = true ∨ place = high) ∧
      (p (place - 1) = false ∨ place = low) := by
  induction rounds with
  | @empty low high empty =>
      have met : low = high := Int64.le_antisymm ordered (Int64.not_lt.mp empty)
      exact ⟨Int64.le_refl low, ordered, .inr met, .inr rfl⟩
  | @lower low high place asked range exact holds others ih =>
      have middle := exact.middle
      rw [Int64.lt_iff_toInt_lt] at range
      obtain ⟨above, inside, found, before⟩ := ih (by rw [Int64.le_iff_toInt_le]; omega)
      refine ⟨above, ?_, ?_, before⟩
      · rw [Int64.le_iff_toInt_le] at inside ⊢
        omega
      · rcases found with found | rfl
        · exact .inl found
        · exact .inl holds
  | @upper low high place asked range exact fails others ih =>
      have middle := exact.middle
      have behind := exact.behind
      rw [Int64.lt_iff_toInt_lt] at range
      obtain ⟨above, inside, found, before⟩ := ih (by rw [Int64.le_iff_toInt_le]; omega)
      refine ⟨?_, inside, found, ?_⟩
      · rw [Int64.le_iff_toInt_le] at above ⊢
        omega
      · rcases before with before | rfl
        · exact .inl before
        · rw [Int64.add_sub_cancel]
          exact .inl fails

/-! ## What is found -/

/-- A predicate that holds of all places behind one that it holds of. -/
def Upward (p : Int64 → Bool) (count : Int64) : Prop :=
  ∀ i j, 0 ≤ i → i ≤ j → j < count → p i = true → p j = true

/-- A place among the first `count` ones, or behind them, where a predicate begins to hold. -/
structure IsEdge (p : Int64 → Bool) (count place : Int64) : Prop where
  nonneg : 0 ≤ place
  within : place ≤ max count 0
  holds : p place = true ∨ place = max count 0
  before : p (place - 1) = false ∨ place = 0
  /-- A predicate that goes on to hold does so from this place on, and not before. -/
  least : Upward p count → ∀ i, 0 ≤ i → i < count → (p i = true ↔ place ≤ i)

theorem toInt_max_zero (count : Int64) : (max count 0).toInt = max count.toInt 0 := by
  have zero : (0 : Int64).toInt = 0 := rfl
  by_cases positive : count ≤ 0
  · have is : max count 0 = 0 := if_pos positive
    rw [Int64.le_iff_toInt_le] at positive
    rw [is, zero]
    omega
  · have is : max count 0 = count := if_neg positive
    rw [Int64.le_iff_toInt_le] at positive
    rw [is]
    omega

theorem toInt_pred (positive : 0 < place) : (place - 1).toInt = place.toInt - 1 := by
  rw [Int64.lt_iff_toInt_lt] at positive
  have below := Int64.toInt_lt place
  have zero : (0 : Int64).toInt = 0 := rfl
  have one : (1 : Int64).toInt = 1 := rfl
  rw [Int64.toInt_sub, one, Int.bmod_eq_of_le] <;> omega

/-- An edge of a predicate that goes on to hold is the first place where it holds. -/
theorem least_of_edge (begun : 0 ≤ place) (within : place ≤ max count 0)
    (holds : p place = true ∨ place = max count 0) (before : p (place - 1) = false ∨ place = 0)
    (upward : Upward p count) {i : Int64}
    (isPlace : 0 ≤ i) (isBelow : i < count) : p i = true ↔ place ≤ i := by
  have zero : (0 : Int64).toInt = 0 := rfl
  have nonneg : 0 ≤ i.toInt := Int64.le_iff_toInt_le.mp isPlace
  have below : i.toInt < count.toInt := Int64.lt_iff_toInt_lt.mp isBelow
  have end_ : (max count 0).toInt = count.toInt := by
    rw [toInt_max_zero]
    omega
  rw [Int64.le_iff_toInt_le, end_] at within
  constructor
  · intro holdsHere
    refine Int64.not_lt.mp fun less => ?_
    rw [Int64.lt_iff_toInt_lt] at less
    have positive : 0 < place := by
      rw [Int64.lt_iff_toInt_lt]
      omega
    have pred := toInt_pred positive
    have still : p (place - 1) = true := by
      refine upward i (place - 1) isPlace ?_ ?_ holdsHere
      · rw [Int64.le_iff_toInt_le]
        omega
      · rw [Int64.lt_iff_toInt_lt]
        omega
    rcases before with fails | rfl
    · rw [still] at fails
      cases fails
    · omega
  · intro behind
    rcases holds with holds | rfl
    · exact upward place i begun behind isBelow holds
    · rw [Int64.le_iff_toInt_le] at behind
      omega

theorem Rounds.isEdge (rounds : Rounds p 0 count asked place) : IsEdge p count place := by
  have end_ := toInt_max_zero count
  by_cases ordered : 0 ≤ count
  · obtain ⟨begun, within, holds, before⟩ := rounds.edge ordered
    have whole : max count 0 = count := by
      rw [← Int64.toInt_inj, end_]
      rw [Int64.le_iff_toInt_le] at ordered
      exact Int.max_eq_left ordered
    rw [← whole] at within holds
    exact ⟨begun, within, holds, before, fun upward i isPlace isBelow =>
      least_of_edge begun within holds before upward isPlace isBelow⟩
  · have none : max count 0 = 0 := if_pos (Int64.le_of_lt (Int64.not_le.mp ordered))
    cases rounds with
    | empty _ =>
        refine ⟨Int64.le_refl 0, ?_, .inr none.symm, .inr rfl, fun _ i isPlace isBelow => ?_⟩
        · rw [none]
          exact Int64.le_refl 0
        · exact absurd (Int64.le_of_lt (Int64.lt_of_le_of_lt isPlace isBelow)) ordered
    | lower range _ _ _ => exact absurd (Int64.le_of_lt range) ordered
    | upper range _ _ _ => exact absurd (Int64.le_of_lt range) ordered

/-! ## Asking a function of the program -/

section Asking

variable {f : Value} {ev : Evaluator} {first m : Machine} {limit : Nat}

/-- Calls of a function of the program about places, one after another, and the machine that they
leave. -/
inductive Calls (f : Value) (ev : Evaluator) : Machine → List Int64 → Machine → Prop
  | none (m : Machine) : Calls f ev m [] m
  | call {m between after : Machine} {i : Int64} {later : List Int64} {answer : Bool}
      (answers : (askPlace f i).run ev m = .ok answer between)
      (others : Calls f ev between later after) : Calls f ev m (i :: later) after

/-- A function of the program is a predicate of the first `count` places: behind fewer than `limit`
calls about them, whichever these are, it answers a call about any of them as the predicate does. -/
def Decides (f : Value) (p : Int64 → Bool) (count : Int64) (ev : Evaluator) (limit : Nat)
    (first : Machine) : Prop :=
  ∀ asked m, Calls f ev first asked m → (∀ i ∈ asked, 0 ≤ i ∧ i < count) → asked.length < limit →
    ∀ i, 0 ≤ i → i < count → ∃ after, (askPlace f i).run ev m = .ok (p i) after

theorem Decides.answers (decides : Decides f p count ev (limit + 1) m) {i : Int64}
    (isPlace : 0 ≤ i) (isBelow : i < count) :
    ∃ after, (askPlace f i).run ev m = .ok (p i) after ∧ Decides f p count ev limit after := by
  obtain ⟨after, answer⟩ := decides [] m (.none m) nofun (Nat.succ_pos limit) i isPlace isBelow
  refine ⟨after, answer, fun asked between calls inside short => ?_⟩
  have all : ∀ j ∈ i :: asked, 0 ≤ j ∧ j < count :=
    List.forall_mem_cons.mpr ⟨⟨isPlace, isBelow⟩, inside⟩
  exact decides (i :: asked) between (.call answer calls) all (Nat.succ_lt_succ short)

/-- The search is its rounds.  The induction is on how often the range can still be halved. -/
theorem searchPlace_run (nonneg : 0 ≤ low) (within : high ≤ count)
    (short : high.toInt - low.toInt < 2 ^ limit) (decides : Decides f p count ev limit m) :
    ∃ place asked after, (searchPlace (askPlace f) low high nonneg).run ev m = .ok place after ∧
      Rounds p low high asked place ∧ Calls f ev m asked after ∧ asked.length ≤ limit := by
  induction limit generalizing low high m with
  | zero =>
      have empty : ¬ low < high := by
        rw [Int64.lt_iff_toInt_lt]
        omega
      refine ⟨low, [], m, ?_, .empty empty, .none m, Nat.le_refl 0⟩
      rw [searchPlace, dif_neg empty]
      rfl
  | succ limit ih =>
      by_cases range : low < high
      · have exact_ := exact_of_nonneg nonneg range
        obtain ⟨shortBelow, shortBehind⟩ := exact_.halves short
        obtain ⟨above, inside⟩ := midpoint_inside nonneg range
        obtain ⟨between, answer, later⟩ := decides.answers (Int64.le_trans nonneg above)
          (Int64.lt_of_lt_of_le inside within)
        cases is : p (midpoint low high) with
        | true =>
            rw [is] at answer
            obtain ⟨place, asked, after, ran, rounds, calls, length⟩ := ih nonneg
              (Int64.le_trans (Int64.le_of_lt inside) within) shortBelow later
            refine ⟨place, midpoint low high :: asked, after, ?_, .lower range exact_ is rounds,
              .call answer calls, Nat.succ_le_succ length⟩
            rw [searchPlace, dif_pos range, Eval.bind_run_ok answer, if_pos rfl]
            exact ran
        | false =>
            rw [is] at answer
            obtain ⟨place, asked, after, ran, rounds, calls, length⟩ :=
              ih (nonneg_midpoint_succ nonneg range) within shortBehind later
            refine ⟨place, midpoint low high :: asked, after, ?_, .upper range exact_ is rounds,
              .call answer calls, Nat.succ_le_succ length⟩
            rw [searchPlace, dif_pos range, Eval.bind_run_ok answer, if_neg Bool.false_ne_true]
            exact ran
      · refine ⟨low, [], m, ?_, .empty range, .none m, Nat.zero_le _⟩
        rw [searchPlace, dif_neg range]
        rfl

/-- Searching the first `count` places by a predicate ends at an edge of it, after at most 63 calls
about places among them and nothing else, and none of its numbers overflows. -/
theorem search_finds_edge (count : Int64) (f : Value) (p : Int64 → Bool) (ev : Evaluator)
    (m : Machine) (decides : Decides f p count ev 63 m) :
    ∃ place asked after,
      ((Function.sort .search).call [.int count, f]).run ev m = .ok (.int place) after ∧
      Rounds p 0 count asked place ∧ Calls f ev m asked after ∧
      (∀ i ∈ asked, 0 ≤ i ∧ i < count) ∧ asked.length ≤ 63 ∧ IsEdge p count place := by
  have greatest := Int64.toInt_lt count
  have zero : (0 : Int64).toInt = 0 := rfl
  obtain ⟨place, asked, after, ran, rounds, calls, length⟩ :=
    searchPlace_run (by decide : (0 : Int64) ≤ 0) (Int64.le_refl count) (by omega) decides
  refine ⟨place, asked, after, ?_, rounds, calls, rounds.inside, length, rounds.isEdge⟩
  have called : ((Function.sort .search).call [.int count, f]).run ev m =
      (searchPlace (askPlace f) 0 count (by decide) >>= fun place => pure (.int place)).run ev m :=
    rfl
  rw [called, Eval.bind_run_ok ran]
  rfl

/-! ### Upper case letters -/

/-- Whether the character that a number stands for is an upper case letter. -/
def isUpperCode (i : Int64) : Bool := (runeOf? i).any Text.isUpper

/-- A machine that nothing stops, whatever number of steps it has made. -/
structure Unlimited (m : Machine) : Prop where
  maxSteps : m.limits.maxSteps = none
  stopAt : m.limits.stopAt = none
  stopRequested : m.stopRequested = false

theorem askPlace_isUpper (i : Int64) (unlimited : Unlimited m) (depth : Nat) :
    (askPlace (.func (.library (.unicode .isUpper))) i).run (.ofDepth (depth + 1)) m =
      .ok (isUpperCode i) (m.working.stepped.undertaking .libraryCall) := by
  have calm : m.working.stepped.isStopRequested = false := by
    simp [Machine.isStopRequested, Machine.stepped, Machine.working, unlimited.stopAt,
      unlimited.stopRequested]
  have ticked : Action.tick m.working = .ok () m.working.stepped := by
    have noBudget : m.working.stepped.limits.maxSteps = none := unlimited.maxSteps
    simp [Action.tick, Action.checkBudget, Action.checkStop, noBudget, calm]
  have began : (Eval.undertake .libraryCall (pure ())).run ⟨depth, perform depth⟩ m.working =
      .ok () (m.working.stepped.undertaking .libraryCall) := by
    show EStateM.bind Action.tick _ m.working = _
    simp only [EStateM.bind, ticked]
    rfl
  have called : (Eval.callFunction (.func (.library (.unicode .isUpper))) [.int i]).run
      (.ofDepth (depth + 1)) m =
      (Eval.undertake .libraryCall (pure ()) >>= fun _ =>
        (Function.unicode .isUpper).call [.int i]).run ⟨depth, perform depth⟩ m.working := rfl
  rw [askPlace, Eval.bind_run, called, Eval.bind_run_ok began]
  rfl

theorem unlimited_of_calls {depth : Nat} {after : Machine} (unlimited : Unlimited m)
    (calls : Calls (.func (.library (.unicode .isUpper))) (.ofDepth (depth + 1)) m asked after) :
    Unlimited after := by
  induction calls with
  | none m => exact unlimited
  | call answers others ih =>
      rw [askPlace_isUpper _ unlimited] at answers
      cases answers
      exact ih ⟨unlimited.maxSteps, unlimited.stopAt, unlimited.stopRequested⟩

theorem decides_isUpper (unlimited : Unlimited m) (count : Int64) (limit depth : Nat) :
    Decides (.func (.library (.unicode .isUpper))) isUpperCode count (.ofDepth (depth + 1)) limit
      m := by
  intro asked after calls _ _ i _ _
  exact ⟨_, askPlace_isUpper i (unlimited_of_calls unlimited calls) depth⟩

/-- Upper case letters stand at many places among the numbers; the search finds the edge of one of
their runs, or the end. -/
theorem search_finds_edge_upperCase :
    let upper : Value := .func (.library (.unicode .isUpper))
    let m := Machine.initial {}
    Decides upper isUpperCode Int64.maxValue (.ofDepth 1) 63 m ∧
      ∃ place asked after,
        ((Function.sort .search).call [.int Int64.maxValue, upper]).run (.ofDepth 1) m =
          .ok (.int place) after ∧
        Rounds isUpperCode 0 Int64.maxValue asked place ∧ Calls upper (.ofDepth 1) m asked after ∧
        (∀ i ∈ asked, 0 ≤ i ∧ i < Int64.maxValue) ∧ asked.length ≤ 63 ∧
        IsEdge isUpperCode Int64.maxValue place := by
  intro upper m
  have decides : Decides upper isUpperCode Int64.maxValue (.ofDepth 1) 63 m :=
    decides_isUpper ⟨rfl, rfl, rfl⟩ _ _ 0
  exact ⟨decides, search_finds_edge Int64.maxValue upper isUpperCode (.ofDepth 1) m decides⟩

end Asking

end SandboxedGo.Library
