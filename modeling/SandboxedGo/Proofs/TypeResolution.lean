import Mathlib.Data.Set.Finite.Lemmas
import Mathlib.Data.Set.Finite.List
import SandboxedGo.Eval.Expressions
import SandboxedGo.Proofs.Traversals

/-!
# Where types are resolved

Any names can be declared to stand for each other.  Looking for the type under a name follows at
most thirty-two of them, and zero values are built at most thirty-two types deep, so both always
end.  Asking whether a value has a type has no such bound: it ends exactly if it does not run in a
circle, as it does for two names that stand for each other.
-/

set_option autoImplicit false

namespace SandboxedGo

open Source

namespace TypeTable

variable {types : TypeTable}

/-! ## The type under a name -/

/-- A type is a name that stands for another type. -/
def Renames (types : TypeTable) (ty inner : TypeExpr) : Prop :=
  ∃ name, ty = .named name ∧ types.get? name = some (.synonym inner)

/-- One type comes from another one by following some number of names. -/
def Follows (types : TypeTable) : Nat → TypeExpr → TypeExpr → Prop
  | 0, ty, under => ty = under
  | steps + 1, ty, under => ∃ inner, types.Renames ty inner ∧ types.Follows steps inner under

theorem underlyingWithin_follows (limit : Nat) (ty : TypeExpr) :
    ∃ steps ≤ limit, types.Follows steps ty (types.underlyingWithin limit ty) ∧
      (steps < limit → ∀ inner, ¬ types.Renames (types.underlyingWithin limit ty) inner) := by
  induction limit generalizing ty with
  | zero => exact ⟨0, Nat.le_refl 0, rfl, fun less => absurd less (Nat.lt_irrefl 0)⟩
  | succ limit ih =>
      by_cases renamed : ∃ inner, types.Renames ty inner
      · obtain ⟨inner, name, rfl, found⟩ := renamed
        obtain ⟨steps, within, follows, last⟩ := ih inner
        have step : types.underlyingWithin (limit + 1) (.named name) =
            types.underlyingWithin limit inner := by
          simp only [underlyingWithin, found]
        rw [step]
        refine ⟨steps + 1, by omega, ⟨inner, ⟨name, rfl, found⟩, follows⟩, ?_⟩
        intro less
        exact last (by omega)
      · have stays : types.underlyingWithin (limit + 1) ty = ty := by
          cases ty with
          | named name =>
              simp only [underlyingWithin]
              split
              · rename_i inner found
                exact absurd ⟨inner, name, rfl, found⟩ renamed
              · rfl
          | _ => rfl
        rw [stays]
        exact ⟨0, Nat.zero_le _, rfl, fun _ inner is => renamed ⟨inner, is⟩⟩

/-! ## The types that resolution meets -/

/-- The types that are met from a type on, behind pointers and names. -/
inductive Meets (types : TypeTable) (ty : TypeExpr) : TypeExpr → Prop
  | self : Meets types ty ty
  | target {inner : TypeExpr} (pointer : Meets types ty (.pointer inner)) : Meets types ty inner
  | synonym {name : String} {inner : TypeExpr} (found : types.get? name = some (.synonym inner)) :
      Meets types ty inner

/-- A type, and the types behind its pointers. -/
def pointed (ty : TypeExpr) : List TypeExpr :=
  match ty with
  | .pointer inner => .pointer inner :: pointed inner
  | ty => [ty]

theorem mem_pointed_self (ty : TypeExpr) : ty ∈ pointed ty := by
  cases ty <;> exact List.mem_cons_self

theorem mem_pointed_target {ty inner : TypeExpr} (mem : .pointer inner ∈ pointed ty) :
    inner ∈ pointed ty := by
  fun_induction pointed ty with
  | case1 target ih =>
      rcases List.mem_cons.mp mem with same | deeper
      · cases same
        exact List.mem_cons_of_mem _ (mem_pointed_self inner)
      · exact List.mem_cons_of_mem _ (ih deeper)
  | case2 ty notPointer => exact absurd (List.mem_singleton.mp mem).symm (notPointer inner)

/-- The types that a declaration brings in. -/
def declaredTypes : TypeDecl → List TypeExpr
  | .synonym inner => pointed inner
  | .struct _ _ => []

theorem finite_meets (types : TypeTable) (ty : TypeExpr) :
    {other | types.Meets ty other}.Finite := by
  let met := pointed ty ++ types.entries.flatMap fun entry => declaredTypes entry.2
  refine met.finite_toSet.subset fun other meets => ?_
  show other ∈ met
  induction meets with
  | self => exact List.mem_append_left _ (mem_pointed_self ty)
  | target _ ih =>
      rcases List.mem_append.mp ih with written | declared
      · exact List.mem_append_left _ (mem_pointed_target written)
      · obtain ⟨⟨name, decl⟩, isEntry, mem⟩ := List.mem_flatMap.mp declared
        cases decl with
        | struct def_ fields => exact absurd mem List.not_mem_nil
        | synonym inner =>
            refine List.mem_append_right _ (List.mem_flatMap.mpr ⟨_, isEntry, ?_⟩)
            exact mem_pointed_target mem
  | @synonym name inner found =>
      refine List.mem_append_right _ (List.mem_flatMap.mpr ⟨_, Table.mem_of_get found, ?_⟩)
      exact mem_pointed_self inner

end TypeTable

/-! ## Having a type -/

namespace Guest

/-- Where the question whether a value has a type goes next. -/
def Next (g : Guest) (place next : Value × TypeExpr) : Prop :=
  (next.1 = place.1 ∨ g.store.Holds next.1) ∧
    (place.2 = .pointer next.2 ∨ ∃ name, g.types.get? name = some (.synonym next.2))

theorem hasTypeVisit_keeps (g : Guest) (place : Value × TypeExpr) :
    (g.hasTypeVisit place).Keeps (g.Next place) (fun _ _ => True) fun _ => True := by
  obtain ⟨v, ty⟩ := place
  cases ty with
  | named name =>
      simp only [hasTypeVisit]
      split
      · exact trivial
      · split
        · exact trivial
        · split
          · split <;> exact trivial
          · split
            · split <;> exact trivial
            · exact trivial
            · rename_i inner _ found
              exact .consult _ ⟨.inl rfl, .inr ⟨name, found⟩⟩
            · exact trivial
  | qualified package name =>
      simp only [hasTypeVisit]
      split
      · exact trivial
      · split <;> exact trivial
  | pointer inner =>
      simp only [hasTypeVisit]
      split
      · exact trivial
      · exact .consult _ ⟨.inr (.cell _), .inl rfl⟩
      · exact trivial
  | _ =>
      simp only [hasTypeVisit]
      first | exact trivial | (split <;> exact trivial)

theorem hasType_isSome_iff (g : Guest) (v : Value) (ty : TypeExpr) :
    (g.hasType? v ty).isSome ↔ ¬ RunsInCircle g.hasTypeVisit (v, ty) := by
  let places : Set (Value × TypeExpr) := g.store.within v ×ˢ {other | g.types.Meets ty other}
  have finite : places.Finite := (g.store.finite_within v).prod (g.types.finite_meets ty)
  refine walk_isSome_iff g.hasTypeVisit_keeps finite ?_ ⟨g.store.mem_within_self v, .self⟩
  intro (w, inner) ⟨wMem, met⟩ (w', inner') ⟨value, type⟩
  constructor
  · rcases value with rfl | holds
    · exact wMem
    · exact Store.mem_within_of_holds holds
  · rcases type with rfl | ⟨name, found⟩
    · exact .target met
    · exact .synonym found

end Guest

/-! ## Zero values -/

/-- A computation has come to an end: normally, with an error or with a panic. -/
inductive Ended {α : Type} : EStateM.Result Stop Machine α → Prop
  | ok (a : α) (m : Machine) : Ended (.ok a m)
  | error (cause : RuntimeError) (m : Machine) : Ended (.error (.signal (.error cause)) m)
  | panic (cause : Panic) (m : Machine) : Ended (.error (.signal (.panic cause)) m)

namespace Eval

variable {α β : Type}

/-- Wherever it starts, a computation comes to an end. -/
def Ends (x : Eval α) : Prop := ∀ ev m, Ended (x.run ev m)

theorem Ends.pure (a : α) : (Pure.pure a : Eval α).Ends := fun _ m => .ok a m

theorem Ends.view (f : Guest → α) : (view f).Ends := fun _ m => .ok (f m.toGuest) m

theorem Ends.onGuest (f : Guest → α × Guest) : (onGuest f).Ends := fun _ _ => .ok _ _

theorem Ends.error (cause : RuntimeError) : (error cause : Eval α).Ends := fun _ m => .error cause m

theorem Ends.bind {x : Eval α} {f : α → Eval β} (first : x.Ends) (rest : ∀ a, (f a).Ends) :
    (x >>= f).Ends := by
  intro ev m
  have ended := first ev m
  rw [bind_run]
  generalize x.run ev m = result at ended
  cases ended with
  | ok a between => exact rest a ev between
  | error cause between => exact .error cause between
  | panic cause between => exact .panic cause between

theorem Ends.checkAlloc (size : Nat) (cause : Panic) : (checkAlloc size cause).Ends := by
  intro ev m
  rw [checkAlloc_run]
  split
  · exact .panic cause m
  · exact .ok () m

theorem Ends.mapM {f : α → Eval β} {items : List α} (each : ∀ item ∈ items, (f item).Ends) :
    (items.mapM f).Ends := by
  induction items with
  | nil => exact .pure []
  | cons item rest ih =>
      rw [List.mapM_cons]
      refine (each item List.mem_cons_self).bind fun b => ?_
      have others := ih fun later mem => each later (List.mem_cons_of_mem _ mem)
      exact others.bind fun _ => .pure _

theorem Ends.repeated {x : Eval Value} (once : x.Ends) (count : Nat) (acc : Array Value) :
    (repeated count x acc).Ends := by
  induction count generalizing acc with
  | zero => exact .pure acc
  | succ count ih => exact once.bind fun v => ih (acc.push v)

theorem Ends.zeros {zero : Eval Value} (once : zero.Ends) (count : Nat) :
    (zeros count zero).Ends := by
  cases count with
  | zero => exact .pure #[]
  | succ count =>
      refine once.bind fun first => ?_
      split
      · exact once.repeated count #[first]
      · exact .pure _

theorem Ends.newStruct (type : StructDef) {fields : Eval (List Value)} (once : fields.Ends) :
    (fields >>= fun values => Eval.newStruct type values).Ends :=
  once.bind fun _ => (Ends.onGuest _).bind fun _ => .pure _

theorem Ends.qualifiedName (package name : String) : (qualifiedName package name).Ends := by
  refine (Ends.view _).bind fun found => ?_
  cases found with
  | some p => exact .pure _
  | none => exact .error _

theorem zeroWithin_ends (levels : Nat) (ty : TypeExpr) : (zeroWithin levels ty).Ends := by
  induction levels generalizing ty with
  | zero => exact .error _
  | succ levels ih =>
      cases ty with
      | named name =>
          simp only [zeroWithin]
          split
          iterate 4 exact .pure _
          split
          · exact .pure _
          · refine (Ends.view _).bind fun declared => ?_
            split
            · rename_i def_ types
              exact .newStruct def_ (.mapM fun ty _ => ih ty)
            · rename_i inner
              exact ih inner
            · exact .error _
      | qualified package name =>
          refine (Ends.qualifiedName package name).bind fun qualified => ?_
          refine (Ends.view _).bind fun declared => ?_
          split
          · rename_i def_ types
            exact .newStruct def_ (.mapM fun ty _ => ih ty)
          · exact .error _
      | slice element => exact (Ends.onGuest _).bind fun _ => .pure _
      | array length element =>
          refine (Ends.checkAlloc _ _).bind fun _ => ?_
          refine ((ih element).zeros _).bind fun items => ?_
          exact (Ends.onGuest _).bind fun _ => .pure _
      | map key value => exact (ih value).bind fun _ => .pure _
      | struct fields =>
          refine Ends.bind (.bind (.onGuest _) fun _ => .pure _) fun def_ => ?_
          exact .newStruct def_ (.mapM fun field _ => ih field.type)
      | pointer _ | func | interface _ => exact .pure _

end Eval

/-- Looking for the type under a type follows names until there are no more, or thirty-two of them;
the zero value of a type is built, refused with an error or stopped by the cap; and asking whether a
value has a type ends exactly if it does not run in a circle. -/
theorem type_resolution_ends_iff (ev : Evaluator) (m : Machine) (v : Value) (ty : TypeExpr) :
    ((m.hasType? v ty).isSome ↔ ¬ RunsInCircle m.toGuest.hasTypeVisit (v, ty)) ∧
    (∃ steps ≤ 32, m.types.Follows steps ty (m.types.underlying ty) ∧
      (steps < 32 → ∀ inner, ¬ m.types.Renames (m.types.underlying ty) inner)) ∧
    Ended ((Eval.zeroValue ty).run ev m) := by
  refine ⟨m.hasType_isSome_iff v ty, ?_, Eval.zeroWithin_ends _ ty ev m⟩
  exact TypeTable.underlyingWithin_follows TypeTable.resolutionLimit ty

/-! ## Names that are declared in a circle -/

/-- A name that has no meaning of its own. -/
def IsFree (name : String) : Prop := BasicType.ofName? name = none ∧ name ≠ "error" ∧ name ≠ "any"

namespace Guest

variable {g : Guest} {v : Value} {a b : String}

theorem asks_synonym (free : IsFree a) {inner : TypeExpr}
    (notInterface : ∀ methods, inner ≠ .interface methods)
    (declared : g.types.get? a = some (.synonym inner)) :
    Asks g.hasTypeVisit (v, .named a) (v, inner) := by
  obtain ⟨notBasic, notError, notAny⟩ := free
  simp only [Asks, hasTypeVisit, notBasic, notError, notAny, declared, if_false]
  cases inner with
  | interface methods => exact absurd rfl (notInterface methods)
  | _ => exact Visit.mem_asked ..

theorem asks_target {c : CellId} {inner : TypeExpr} :
    Asks g.hasTypeVisit (.ref c, .pointer inner) (g.store.cell c, inner) := by
  cases inner <;> exact Visit.mem_asked ..

/-- No value can be asked whether it has a type under one of two names that stand for each other. -/
theorem hasType_mutual (freeA : IsFree a) (freeB : IsFree b)
    (first : g.types.get? a = some (.synonym (.named b)))
    (second : g.types.get? b = some (.synonym (.named a))) : g.hasType? v (.named a) = none := by
  have there : Asks g.hasTypeVisit (v, .named a) (v, .named b) := asks_synonym freeA nofun first
  have back : Asks g.hasTypeVisit (v, .named b) (v, .named a) := asks_synonym freeB nofun second
  have circle := (Relation.TransGen.single there).tail back
  exact walk_none_of_runsInCircle ⟨_, .refl, circle⟩

/-- A variable that holds its own address cannot be asked whether it has a type that is a pointer to
itself. -/
theorem hasType_ownAddress {c : CellId} (free : IsFree a)
    (declared : g.types.get? a = some (.synonym (.pointer (.named a))))
    (own : g.store.cell c = .ref c) : g.hasType? (.ref c) (.named a) = none := by
  have there : Asks g.hasTypeVisit (.ref c, .named a) (.ref c, .pointer (.named a)) :=
    asks_synonym free nofun declared
  have back : Asks g.hasTypeVisit (.ref c, .pointer (.named a)) (g.store.cell c, .named a) :=
    asks_target
  rw [own] at back
  have circle := (Relation.TransGen.single there).tail back
  exact walk_none_of_runsInCircle ⟨_, .refl, circle⟩

end Guest

namespace Eval

theorem declareType_run {name : String} {ty : TypeExpr} (notStruct : ∀ fields, ty ≠ .struct fields)
    (ev : Evaluator) (m : Machine) :
    (declareType ⟨name, ty⟩).run ev m =
      .ok () { m with types := m.types.put name (.synonym ty) } := by
  cases ty with
  | struct fields => exact absurd rfl (notStruct fields)
  | _ => rfl

/-- Once two names were declared to stand for each other, asking for a type under one of them does
not come to an end. -/
theorem hasType_declared_mutual {a b : String} (freeA : IsFree a) (freeB : IsFree b)
    (different : a ≠ b) (v : Value) (ev : Evaluator) (m : Machine) :
    ∃ m', (do
      declareType ⟨a, .named b⟩
      declareType ⟨b, .named a⟩
      hasType v (.named a)).run ev m = .error (.halt .unfinished) m' := by
  let types := (m.types.put a (.synonym (.named b))).put b (.synonym (.named a))
  let g : Guest := { m.toGuest with types }
  have first : g.types.get? a = some (.synonym (.named b)) := by
    rw [Table.get_put, if_neg different, Table.get_put, if_pos rfl]
  have second : g.types.get? b = some (.synonym (.named a)) := by
    rw [Table.get_put, if_pos rfl]
  have endless : g.hasType? v (.named a) = none := Guest.hasType_mutual freeA freeB first second
  have notStruct (name : String) (fields : List FieldDecl) :
      TypeExpr.named name ≠ .struct fields := by
    intro same
    cases same
  rw [bind_run_ok (declareType_run (notStruct b) ev m)]
  rw [bind_run_ok (declareType_run (notStruct a) ev _)]
  exact ofWalk_endless endless

end Eval

/-- Asking for such a type has no answer: a name for pointers to itself, asked of a variable that
holds its own address, and two names that were declared to stand for each other. -/
theorem declared_circles_have_no_end :
    let g : Guest :=
      { store := { cells := #[.ref ⟨0⟩] }
        types := (∅ : TypeTable).put "A" (.synonym (.pointer (.named "A"))) }
    g.hasType? (.ref ⟨0⟩) (.named "A") = none ∧
    ∃ m', (do
      Eval.declareType ⟨"A", .named "B"⟩
      Eval.declareType ⟨"B", .named "A"⟩
      Eval.hasType .nil (.named "A")).run (.ofDepth 1) (Machine.initial {}) =
        .error (.halt .unfinished) m' := by
  intro g
  have freeA : IsFree "A" := ⟨rfl, by decide, by decide⟩
  have freeB : IsFree "B" := ⟨rfl, by decide, by decide⟩
  refine ⟨Guest.hasType_ownAddress freeA ?_ rfl, ?_⟩
  · rw [Table.get_put, if_pos rfl]
  · exact Eval.hasType_declared_mutual freeA freeB (by decide) .nil (.ofDepth 1)
      (Machine.initial {})

end SandboxedGo
