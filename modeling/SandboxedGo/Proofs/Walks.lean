import Mathlib.Data.Set.Finite.Lemmas
import Mathlib.Data.Fintype.Order
import Mathlib.Logic.Relation
import Mathlib.Order.WellFounded
import SandboxedGo.Walk

/-!
# Where walks come to an end

A walk has an answer exactly if it does not run in a circle: if no place that it asks for an answer
asks, directly or by way of others, for its own.  This holds wherever the places that can be asked
are finitely many.
-/

set_option autoImplicit false

namespace SandboxedGo

open Relation

variable {α : Type} {ρ : α → Type} {β γ : Type}

namespace Visit

/-- The places that are asked, in order, up to the first one without an answer. -/
def asked (answer : (place : α) → Option (ρ place)) : Visit ρ β → List α
  | done _ => []
  | ask place next =>
    place :: match answer place with
      | some r => (next r).asked answer
      | none => []

theorem mem_asked (answer : (place : α) → Option (ρ place)) (place : α)
    (next : ρ place → Visit ρ β) : place ∈ (ask place next).asked answer := by
  simp [asked]

theorem follow_isSome_iff (answer : (place : α) → Option (ρ place)) (x : Visit ρ β) :
    (x.follow answer).isSome ↔ ∀ place ∈ x.asked answer, (answer place).isSome := by
  induction x with
  | done b => simp [follow, asked]
  | ask place next ih =>
      cases known : answer place with
      | none => simp [follow, asked, known]
      | some r => simp [follow, asked, known, ih r]

theorem follow_more {fewer more : (place : α) → Option (ρ place)} {x : Visit ρ β}
    (le : ∀ place r, fewer place = some r → more place = some r)
    (ends : (x.follow fewer).isSome) :
    x.follow more = x.follow fewer ∧ x.asked more = x.asked fewer := by
  induction x with
  | done b => exact ⟨rfl, rfl⟩
  | ask place next ih =>
      cases known : fewer place with
      | none => simp [follow, known] at ends
      | some r =>
          have known' := le place r known
          simp only [follow, known] at ends
          obtain ⟨sameResult, sameAsked⟩ := ih r ends
          simp only [follow, asked, known, known', sameResult, sameAsked, and_self]

/-! ## What a visit keeps to -/

/-- A visit asks only the places in `P` and ends with a result in `R`, given that what a place
answers is in `Q`. -/
def Keeps (P : α → Prop) (Q : (place : α) → ρ place → Prop) (R : β → Prop) : Visit ρ β → Prop
  | done b => R b
  | ask place next => P place ∧ ∀ r, Q place r → (next r).Keeps P Q R

section Keeping

variable {P : α → Prop} {Q : (place : α) → ρ place → Prop} {R : β → Prop} {S : γ → Prop}

theorem Keeps.pure {b : β} (is : R b) : (pure b : Visit ρ β).Keeps P Q R := is

theorem Keeps.consult (place : α) (is : P place) : (Visit.consult place).Keeps P Q (Q place) :=
  ⟨is, fun _ answered => answered⟩

theorem Keeps.bind {x : Visit ρ β} {f : β → Visit ρ γ} (first : x.Keeps P Q R)
    (then_ : ∀ b, R b → (f b).Keeps P Q S) : (x >>= f).Keeps P Q S := by
  induction x with
  | done b => exact then_ b first
  | ask place next ih => exact ⟨first.1, fun r answered => ih r (first.2 r answered)⟩

theorem Keeps.weaken {R' : β → Prop} {x : Visit ρ β} (keeps : x.Keeps P Q R)
    (weaker : ∀ b, R b → R' b) : x.Keeps P Q R' := by
  induction x with
  | done b => exact weaker b keeps
  | ask place next ih => exact ⟨keeps.1, fun r answered => ih r (keeps.2 r answered)⟩

theorem Keeps.follow {answer : (place : α) → Option (ρ place)}
    (answers : ∀ place r, answer place = some r → Q place r) {x : Visit ρ β} (keeps : x.Keeps P Q R)
    {b : β} (followed : x.follow answer = some b) : R b := by
  induction x with
  | done b' =>
      cases followed
      exact keeps
  | ask place next ih =>
      cases known : answer place with
      | none => simp [Visit.follow, known] at followed
      | some r =>
          simp only [Visit.follow, known] at followed
          exact ih r (keeps.2 r (answers place r known)) followed

theorem Keeps.asked {answer : (place : α) → Option (ρ place)}
    (answers : ∀ place r, answer place = some r → Q place r) {x : Visit ρ β} (keeps : x.Keeps P Q R)
    {place : α} (asks : place ∈ x.asked answer) : P place := by
  induction x with
  | done b => simp [Visit.asked] at asks
  | ask first next ih =>
      simp only [Visit.asked, List.mem_cons] at asks
      rcases asks with rfl | later
      · exact keeps.1
      · cases known : answer first with
        | none => simp [known] at later
        | some r =>
            simp only [known] at later
            exact ih r (keeps.2 r (answers first r known)) later

/-! ### Several items in a row -/

variable {ε δ : Type} {items : List γ}

theorem Keeps.collect {f : γ → Visit ρ (Except ε δ)} {E : Except ε δ → Prop}
    (each : ∀ item ∈ items, (f item).Keeps P Q E) :
    (Visit.collect f items).Keeps P Q fun _ => True := by
  suffices ∀ read, (Visit.collectFrom f read items).Keeps P Q fun _ => True from this []
  induction items with
  | nil => intro read; exact trivial
  | cons item rest ih =>
      intro read
      refine (each item List.mem_cons_self).bind fun result _ => ?_
      cases result with
      | error e => exact trivial
      | ok d => exact ih (fun later mem => each later (List.mem_cons_of_mem _ mem)) (d :: read)

theorem Keeps.foldlM {f : β → γ → Visit ρ β} {b : β} (start : R b)
    (each : ∀ item ∈ items, ∀ b, R b → (f b item).Keeps P Q R) :
    (items.foldlM f b).Keeps P Q R := by
  induction items generalizing b with
  | nil => exact start
  | cons item rest ih =>
      refine (each item List.mem_cons_self b start).bind fun b' reached => ?_
      exact ih reached fun later mem => each later (List.mem_cons_of_mem _ mem)

theorem Keeps.anyM {f : γ → Visit ρ Bool} {T : Bool → Prop}
    (each : ∀ item ∈ items, (f item).Keeps P Q T) : (items.anyM f).Keeps P Q fun _ => True := by
  induction items with
  | nil => exact trivial
  | cons item rest ih =>
      refine (each item List.mem_cons_self).bind fun found _ => ?_
      cases found with
      | true => exact trivial
      | false => exact ih fun later mem => each later (List.mem_cons_of_mem _ mem)

theorem Keeps.findSomeM?_some {f : γ → Visit ρ (Option δ)} {T : δ → Prop}
    (each : ∀ item ∈ items, (f item).Keeps P Q fun found => ∀ d, found = some d → T d) :
    (items.findSomeM? f).Keeps P Q fun found => ∀ d, found = some d → T d := by
  induction items with
  | nil => exact nofun
  | cons item rest ih =>
      refine (each item List.mem_cons_self).bind fun found is => ?_
      cases found with
      | some d => exact is
      | none => exact ih fun later mem => each later (List.mem_cons_of_mem _ mem)

theorem Keeps.findSomeM? {f : γ → Visit ρ (Option δ)} {T : Option δ → Prop}
    (each : ∀ item ∈ items, (f item).Keeps P Q T) :
    (items.findSomeM? f).Keeps P Q fun _ => True := by
  have any : ∀ item ∈ items, (f item).Keeps P Q fun found => ∀ d, found = some d → True :=
    fun item mem => (each item mem).weaken fun _ _ _ _ => trivial
  exact (Keeps.findSomeM?_some any).weaken fun _ _ => trivial

end Keeping

end Visit

/-! ## Finite relations -/

/-- Among finitely many places there is no endless way if no place on it comes next to itself, by
way of others. -/
theorem acc_of_straight {next : α → α → Prop} {places : Set α} (finite : places.Finite)
    (closed : ∀ place ∈ places, ∀ other, next place other → other ∈ places) {place : α}
    (mem : place ∈ places)
    (straight : ∀ other, ReflTransGen next place other → ¬ TransGen next other other) :
    Acc (flip next) place := by
  let Reached : Type := {other : α // other ∈ places ∧ ReflTransGen next place other}
  let below : Reached → Reached → Prop := fun x y => TransGen next y.1 x.1
  have finiteReached : Finite Reached :=
    (finite.subset fun (_ : α) (is : _ ∧ _) => is.1).to_subtype
  have transitive : IsTrans Reached below := ⟨fun _ _ _ down further => further.trans down⟩
  have irreflexive : Std.Irrefl below := ⟨fun x circle => straight x.1 x.2.2 circle⟩
  have wellFounded : WellFounded below := Finite.wellFounded_of_trans_of_irrefl below
  suffices ∀ x : Reached, Acc (flip next) x.1 from this ⟨place, mem, .refl⟩
  intro x
  induction x using wellFounded.induction with
  | _ x ih =>
      refine .intro x.1 fun other leads => ?_
      have otherMem : other ∈ places := closed x.1 x.2.1 other leads
      exact ih ⟨other, otherMem, x.2.2.tail leads⟩ (.single leads)

/-! ## Ends and circles -/

section Circles

variable (visit : (place : α) → Visit ρ (ρ place))

/-- The walk from one place asks for the answer at another one. -/
def Asks (place other : α) : Prop := other ∈ (visit place).asked (walk visit)

/-- The walk from a place comes to a place that asks, by way of others, for its own answer. -/
def RunsInCircle (place : α) : Prop :=
  ∃ other, ReflTransGen (Asks visit) place other ∧ TransGen (Asks visit) other other

variable {visit}

theorem runsInCircle_of_asks {place : α} (asks : Asks visit place place) :
    RunsInCircle visit place :=
  ⟨place, .refl, .single asks⟩

theorem walk_of_acc {place : α} (acc : Acc (flip (Asks visit)) place) :
    (walk visit place).isSome := by
  induction acc with
  | intro place _ ih =>
      rw [walk, Visit.follow_isSome_iff]
      exact ih

theorem acc_of_walk {place : α} {r : ρ place} (answered : walk visit place = some r) :
    Acc (flip (Asks visit)) place := by
  -- What a partial walk has answered, the whole walk answers in the same way.
  suffices walk visit place = some r ∧ Acc (flip (Asks visit)) place from this.2
  refine walk.partial_correctness visit
    (fun place r => walk visit place = some r ∧ Acc (flip (Asks visit)) place) ?_ place r answered
  intro part sound place r followed
  have ends : ((visit place).follow part).isSome := by simp [followed]
  obtain ⟨sameResult, sameAsked⟩ :=
    Visit.follow_more (fun other r' known => (sound other r' known).1) ends
  refine ⟨by rw [walk, sameResult, followed], .intro place fun other asks => ?_⟩
  have isAsked : other ∈ (visit place).asked part := sameAsked ▸ asks
  have known := (Visit.follow_isSome_iff part _).mp ends other isAsked
  obtain ⟨r', answer⟩ := Option.isSome_iff_exists.mp known
  exact (sound other r' answer).2

theorem walk_isSome_iff_acc (place : α) :
    (walk visit place).isSome ↔ Acc (flip (Asks visit)) place := by
  constructor
  · intro ends
    obtain ⟨r, answered⟩ := Option.isSome_iff_exists.mp ends
    exact acc_of_walk answered
  · exact walk_of_acc

theorem acc_of_reached {place other : α} (acc : Acc (flip (Asks visit)) place)
    (reached : ReflTransGen (Asks visit) place other) : Acc (flip (Asks visit)) other := by
  induction reached with
  | refl => exact acc
  | tail _ asks ih => exact ih.inv asks

theorem not_runsInCircle_of_acc {place : α} (acc : Acc (flip (Asks visit)) place) :
    ¬ RunsInCircle visit place := by
  rintro ⟨other, reached, circle⟩
  have accOther := (acc_of_reached acc reached).transGen
  have back : TransGen (flip (Asks visit)) other other := transGen_swap.mpr circle
  clear reached circle
  -- Below a place in a circle there is always that place itself.
  induction accOther with
  | intro other _ ih => exact ih other back back

theorem walk_none_of_runsInCircle {place : α} (circle : RunsInCircle visit place) :
    walk visit place = none := by
  rw [← Option.not_isSome_iff_eq_none, walk_isSome_iff_acc]
  intro acc
  exact not_runsInCircle_of_acc acc circle

theorem acc_of_not_runsInCircle {places : Set α} (finite : places.Finite)
    (closed : ∀ place ∈ places, ∀ other, Asks visit place other → other ∈ places) {place : α}
    (mem : place ∈ places) (straight : ¬ RunsInCircle visit place) :
    Acc (flip (Asks visit)) place :=
  acc_of_straight finite closed mem fun other reached circle => straight ⟨other, reached, circle⟩

/-! ## Walks among finitely many places -/

variable {next : α → α → Prop} {Q : (place : α) → ρ place → Prop}

/-- The answers of a walk are as promised, if each visit keeps the promise as long as the places
that it asks do. -/
theorem walk_answers (keeps : ∀ place, (visit place).Keeps (next place) Q (Q place)) (place : α)
    (r : ρ place) (answered : walk visit place = some r) : Q place r := by
  refine walk.partial_correctness visit Q ?_ place r answered
  intro part sound place r followed
  exact (keeps place).follow sound followed

theorem next_of_asks (keeps : ∀ place, (visit place).Keeps (next place) Q (Q place))
    {place other : α} (asks : Asks visit place other) : next place other :=
  (keeps place).asked (walk_answers keeps) asks

/-- A walk ends exactly if it does not run in a circle, where only finitely many places come next to
each other. -/
theorem walk_isSome_iff (keeps : ∀ place, (visit place).Keeps (next place) Q (Q place))
    {places : Set α} (finite : places.Finite)
    (closed : ∀ place ∈ places, ∀ other, next place other → other ∈ places) {place : α}
    (mem : place ∈ places) : (walk visit place).isSome ↔ ¬ RunsInCircle visit place := by
  rw [walk_isSome_iff_acc]
  constructor
  · exact not_runsInCircle_of_acc
  · intro straight
    refine acc_of_not_runsInCircle finite ?_ mem straight
    intro inner innerMem other asks
    exact closed inner innerMem other (next_of_asks keeps asks)

end Circles

end SandboxedGo
