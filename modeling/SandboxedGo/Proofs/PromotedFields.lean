import SandboxedGo.Proofs.Documents
import SandboxedGo.Proofs.Following
import SandboxedGo.Proofs.Traversals

/-!
# Promoted fields

The fields of embedded structs are fields of the struct around them.  They are looked for in one
embedded struct after another, each of them searched to the bottom before the next one.  So a field
that is declared deep inside of an earlier embedded struct is met before a field of the same name
right in a later one.  Main statement: `findField_shallowest_iff`, when the field that is met is the
shallowest one.
-/

set_option autoImplicit false

namespace SandboxedGo.Store

open Relation

variable {s : Store} {o inner : StructId} {name : String} {slot : StructId × Nat}

/-! ## Embedding -/

/-- One struct embeds another, by value or through a pointer. -/
def Embeds (s : Store) (o inner : StructId) : Prop := inner ∈ s.embeddedStructs o

/-- No struct that is reached by embedding embeds itself, directly or by way of others. -/
def Acyclic (s : Store) (o : StructId) : Prop :=
  ∀ other, ReflTransGen s.Embeds o other → ¬TransGen s.Embeds other other

theorem embeds_of_listed {before behind : List StructId}
    (listed : s.embeddedStructs o = before ++ inner :: behind) : s.Embeds o inner := by
  rw [Embeds, listed]
  exact List.mem_append_right before List.mem_cons_self

theorem embeds_of_before {before behind : List StructId}
    (listed : s.embeddedStructs o = before ++ behind) (isIn : inner ∈ before) :
    s.Embeds o inner := by
  rw [Embeds, listed]
  exact List.mem_append_left behind isIn

theorem Acyclic.acc (acyclic : s.Acyclic o) : Acc (flip s.Embeds) o := by
  refine acc_of_straight (finite_structsIn (s.finite_within (.struct o))) ?closed ?mem acyclic
  case closed =>
    intro outer _ inner embeds
    exact (holds_of_mem_embedded embeds).imp mem_within_of_holds mem_within_of_holds
  case mem => exact .inl (s.mem_within_self (.struct o))

/-- Structs that only embed structs of a lower rank embed none in a circle. -/
theorem acyclic_of_rank (rank : StructId → Nat)
    (lower : ∀ o inner, s.Embeds o inner → rank inner < rank o) (o : StructId) : s.Acyclic o := by
  have below {other inner : StructId} (path : TransGen s.Embeds other inner) :
      rank inner < rank other := by
    induction path with
    | single embeds => exact lower _ _ embeds
    | tail _ embeds ih => exact Nat.lt_trans (lower _ _ embeds) ih
  exact fun other _ circle => Nat.lt_irrefl _ (below circle)

/-- The structs that are embedded a number of levels deep, in order. -/
def embeddedAt (s : Store) : (levels : Nat) → StructId → List StructId
  | 0, o => [o]
  | levels + 1, o => (s.embeddedStructs o).flatMap (s.embeddedAt levels)

/-- Where a field is declared a number of levels deep. -/
def declaredAt (s : Store) (name : String) (levels : Nat) (o : StructId) : List (StructId × Nat) :=
  (s.embeddedAt levels o).filterMap fun owner =>
    (fieldPlace? (s.structObject owner).type name).map fun place => (owner, place)

/-- A field of this name is declared in a struct or, at some level, in one that it embeds. -/
def Declares (s : Store) (name : String) (o : StructId) : Prop :=
  ∃ levels, s.declaredAt name levels o ≠ []

/-- The field of a name that is declared at the least level, and at that level it is the only
one. -/
def IsShallowest (s : Store) (name : String) (o : StructId) (slot : StructId × Nat) : Prop :=
  ∃ levels, slot ∈ s.declaredAt name levels o ∧
    (∀ other ∈ s.declaredAt name levels o, other = slot) ∧
    ∀ shallower < levels, s.declaredAt name shallower o = []

theorem declaredAt_zero (s : Store) (name : String) (o : StructId) :
    s.declaredAt name 0 o =
      ((fieldPlace? (s.structObject o).type name).map fun place => (o, place)).toList := by
  rw [declaredAt, embeddedAt, List.filterMap_cons]
  cases fieldPlace? (s.structObject o).type name with
  | none => rfl
  | some place => rfl

theorem declaredAt_succ (s : Store) (name : String) (levels : Nat) (o : StructId) :
    s.declaredAt name (levels + 1) o =
      (s.embeddedStructs o).flatMap (s.declaredAt name levels) := by
  unfold declaredAt
  rw [embeddedAt, List.filterMap_flatMap]

theorem declares_iff : s.Declares name o ↔
    fieldPlace? (s.structObject o).type name ≠ none ∨
      ∃ inner ∈ s.embeddedStructs o, s.Declares name inner := by
  constructor
  · rintro ⟨levels, declared⟩
    cases levels with
    | zero =>
        refine .inl fun undeclared => declared ?_
        rw [declaredAt_zero, undeclared]
        rfl
    | succ levels =>
        rw [declaredAt_succ] at declared
        simp only [ne_eq, List.flatMap_eq_nil_iff, not_forall] at declared
        obtain ⟨inner, embeds, declared⟩ := declared
        exact .inr ⟨inner, embeds, levels, declared⟩
  · rintro (declared | ⟨inner, embeds, levels, declared⟩)
    · obtain ⟨place, is⟩ := Option.ne_none_iff_exists'.mp declared
      refine ⟨0, ?_⟩
      rw [declaredAt_zero, is]
      exact List.cons_ne_nil _ _
    · refine ⟨levels + 1, ?_⟩
      rw [declaredAt_succ, ne_eq, List.flatMap_eq_nil_iff]
      exact fun none => declared (none inner embeds)

/-! ## The field that is met -/

/-- The way down to a field is clear: no struct on it declares the name but the last one, and
neither does any struct that is embedded before the next one on the way, at any level. -/
inductive WayClear (s : Store) (name : String) : StructId → StructId × Nat → Prop
  | own {o : StructId} {place : Nat}
      (declared : fieldPlace? (s.structObject o).type name = some place) :
      WayClear s name o (o, place)
  | embedded {o inner : StructId} {slot : StructId × Nat} {before behind : List StructId}
      (undeclared : fieldPlace? (s.structObject o).type name = none)
      (listed : s.embeddedStructs o = before ++ inner :: behind)
      (clear : ∀ other ∈ before, ¬s.Declares name other) (way : WayClear s name inner slot) :
      WayClear s name o slot

/-- Where the field of a name is met, if anywhere. -/
def met (s : Store) (name : String) (o : StructId) : Option (StructId × Nat) :=
  (s.findField o name).join

theorem follow_findSomeM? {α β δ : Type} {ρ : α → Type} {answer : (place : α) → Option (ρ place)}
    {x : β → Visit ρ (Option δ)} {r : β → Option δ} {items : List β}
    (each : ∀ item ∈ items, (x item).follow answer = some (r item)) :
    (items.findSomeM? x).follow answer = some (items.findSome? r) := by
  induction items with
  | nil => rfl
  | cons item rest ih =>
      have others := ih fun later isIn => each later (List.mem_cons_of_mem _ isIn)
      rw [List.findSomeM?, Visit.follow_bind (each item List.mem_cons_self), List.findSome?_cons]
      cases r item with
      | none => exact others
      | some d => rfl

theorem findField_eq (s : Store) (o : StructId) (name : String) :
    s.findField o name = (s.fieldVisit name o).follow fun inner => s.findField inner name := by
  rw [findField, walk]
  rfl

theorem findField_of_acc (acc : Acc (flip s.Embeds) o) (name : String) :
    s.findField o name = some (match fieldPlace? (s.structObject o).type name with
      | some place => some (o, place)
      | none => (s.embeddedStructs o).findSome? (s.met name)) := by
  induction acc with
  | intro o _ ih =>
      rw [findField_eq, fieldVisit]
      cases fieldPlace? (s.structObject o).type name with
      | some place => rfl
      | none =>
          refine follow_findSomeM? fun inner embeds => (Visit.follow_consult _).trans ?_
          rw [met, ih inner embeds]
          rfl

theorem findField_eq_met (acc : Acc (flip s.Embeds) o) (name : String) :
    s.findField o name = some (s.met name o) := by
  rw [met, findField_of_acc acc]
  rfl

theorem met_eq (acc : Acc (flip s.Embeds) o) (name : String) :
    s.met name o = match fieldPlace? (s.structObject o).type name with
      | some place => some (o, place)
      | none => (s.embeddedStructs o).findSome? (s.met name) := by
  rw [met, findField_of_acc acc]
  rfl

theorem met_eq_none_iff (acc : Acc (flip s.Embeds) o) (name : String) :
    s.met name o = none ↔ ¬s.Declares name o := by
  induction acc with
  | intro o below ih =>
      rw [met_eq (.intro o below), declares_iff]
      cases own : fieldPlace? (s.structObject o).type name with
      | some place => simp
      | none =>
          simp only [ne_eq, not_true_eq_false, false_or, not_exists, not_and,
            List.findSome?_eq_none_iff]
          exact forall₂_congr fun inner embeds => ih inner embeds

theorem met_eq_some_iff (acc : Acc (flip s.Embeds) o) (name : String) (slot : StructId × Nat) :
    s.met name o = some slot ↔ s.WayClear name o slot := by
  induction acc with
  | intro o below ih =>
      rw [met_eq (.intro o below)]
      constructor
      · intro is
        split at is
        · rename_i declared
          cases is
          exact .own declared
        · rename_i undeclared
          obtain ⟨before, inner, behind, listed, found, clear⟩ := List.findSome?_eq_some_iff.mp is
          have embeds := embeds_of_listed listed
          refine .embedded undeclared listed (fun other earlier => ?_) ((ih inner embeds).mp found)
          have embedsOther := embeds_of_before listed earlier
          exact (met_eq_none_iff (below other embedsOther) name).mp (clear other earlier)
      · intro way
        cases way with
        | own declared => rw [declared]
        | @embedded _ inner _ before behind undeclared listed clear way =>
            have found := (ih inner (embeds_of_listed listed)).mpr way
            rw [undeclared]
            refine List.findSome?_eq_some_iff.mpr
              ⟨before, inner, behind, listed, found, fun other earlier => ?_⟩
            have embedsOther := embeds_of_before listed earlier
            exact (met_eq_none_iff (below other embedsOther) name).mpr (clear other earlier)

theorem IsShallowest.declares (shallowest : s.IsShallowest name o slot) : s.Declares name o := by
  obtain ⟨levels, isIn, -⟩ := shallowest
  exact ⟨levels, List.ne_nil_of_mem isIn⟩

/-! ## Reading and writing -/

/-- The value that is stored at the place of a field. -/
def valueAt (s : Store) (slot : StructId × Nat) : Option Value :=
  (s.structObject slot.1).fields[slot.2]?

/-- What a promoted field is: one place that is read and written under the name. -/
structure Reaches (s : Store) (name : String) (o : StructId) (found : StructId × Nat) : Prop where
  reads : s.lookupField o name = some (s.valueAt found)
  writes (ev : Evaluator) (m : Machine) (base : Value) (same : m.store = s)
    (isBase : base = .struct o ∨ base = .pointer o) (v : Value) :
    (Eval.assignField base name v).run ev m =
      .ok () { m with
        store := s.setFieldAt found.1 found.2 (((s.valueAt found).getD .nil).keepingFloat v) }

theorem reaches_of_findField {found : StructId × Nat}
    (is : s.findField o name = some (some found)) :
    s.Reaches name o found where
  reads := by
    rw [lookupField, is]
    rfl
  writes := by
    rintro ev m base rfl isBase v
    have looked : (Eval.viewStore (·.findField o name)).run ev m = .ok (some (some found)) m := by
      rw [← is]
      rfl
    have searched : (Eval.walkStore (·.findField o name)).run ev m = .ok (some found) m :=
      Eval.bind_run_ok looked _
    rw [Eval.assignField_eq]
    rcases isBase with rfl | rfl
    · exact Eval.bind_run_ok searched _
    · exact Eval.bind_run_ok searched _

/-- In a struct without circles, the name of a shallowest field is read and written at one place,
and that is the shallowest field exactly if the way down to it is clear. -/
theorem findField_shallowest_iff (acyclic : s.Acyclic o)
    (shallowest : s.IsShallowest name o slot) :
    ∃ found, s.Reaches name o found ∧ (found = slot ↔ s.WayClear name o slot) := by
  have acc := acyclic.acc
  have isMet : s.met name o ≠ none := fun none =>
    (met_eq_none_iff acc name).mp none shallowest.declares
  obtain ⟨found, is⟩ := Option.ne_none_iff_exists'.mp isMet
  refine ⟨found, reaches_of_findField (is ▸ findField_eq_met acc name), ?_⟩
  rw [← met_eq_some_iff acc, is, Option.some.injEq]

end SandboxedGo.Store
