import Mathlib.Data.Set.Finite.List
import SandboxedGo.Eval.Assignment
import SandboxedGo.Eval.DynamicType
import SandboxedGo.Proofs.AppendedSlices
import SandboxedGo.Proofs.Following
import SandboxedGo.Proofs.Walks
import SandboxedGo.Store.Boundary

/-!
# Where traversals of a store end

The documents, the type names, the promoted fields and the promoted methods of values are found by
walks through the store that count no steps.  Whatever a program has stored, such a walk ends
exactly if it does not run in a circle.  A slice that is its own element, or a struct that embeds a
pointer to itself, is such a circle.
-/

set_option autoImplicit false

namespace SandboxedGo

open Relation

namespace Store

/-! ## What a store holds -/

/-- The values that stand somewhere in a store. -/
inductive Holds (s : Store) : Value → Prop
  | cell (c : CellId) : Holds s (s.cell c)
  | element (view : SliceView) (i : Nat) : Holds s (s.element view i)
  | entry {m : Option MapId} {key : MapKey} {v : Value} (mem : (key, v) ∈ s.mapList m) : Holds s v
  | field {o : StructId} {field : FieldDef} {v : Value} (mem : (field, v) ∈ s.structFields o) :
      Holds s v

/-- The values that a store holds, one after another. -/
def held (s : Store) : List Value :=
  .nil :: s.cells.toList ++ s.backings.toList.flatMap Array.toList ++
    s.maps.toList.flatMap (fun m => m.toList.map Prod.snd) ++
    s.structs.toList.flatMap fun object => object.fields.toList

theorem mem_held_of_holds {s : Store} {v : Value} (holds : s.Holds v) : v ∈ s.held := by
  cases holds with
  | cell c =>
      cases found : s.cells[c.index]? with
      | none => simp [held, cell, found]
      | some v =>
          have mem := Array.mem_of_getElem? found
          simp [held, cell, found, mem]
  | element view i =>
      cases found : (s.backing view.backing)[view.start + i]? with
      | none => simp [held, element, found]
      | some v =>
          have mem := Array.mem_of_getElem? found
          cases array : s.backings[view.backing.index]? with
          | none => simp [backing, array] at mem
          | some items =>
              have arrayMem := Array.mem_of_getElem? array
              simp only [backing, array, Option.getD_some] at mem
              simp only [held, element, found, Option.getD_some, List.mem_append, List.mem_flatMap]
              exact .inl (.inl (.inr ⟨items, by simpa using arrayMem, by simpa using mem⟩))
  | entry mem =>
      rename_i m key
      cases m with
      | none => simp [mapList] at mem
      | some m =>
          cases map : s.maps[m.index]? with
          | none =>
              simp only [mapList, mapEntries, map, Option.getD_none] at mem
              exact absurd mem List.not_mem_nil
          | some entries =>
              have mapMem := Array.mem_of_getElem? map
              simp only [mapList, mapEntries, map, Option.getD_some] at mem
              simp only [held, List.mem_append, List.mem_flatMap]
              exact .inl (.inr ⟨entries, by simpa using mapMem, List.mem_map.mpr ⟨_, mem, rfl⟩⟩)
  | field mem =>
      rename_i o field
      have stored := (List.of_mem_zip mem).2
      cases struct : s.structs[o.index]? with
      | none => simp [structObject, struct] at stored
      | some object =>
          have structMem := Array.mem_of_getElem? struct
          simp only [structObject, struct, Option.getD_some] at stored
          simp only [held, List.mem_append, List.mem_flatMap]
          exact .inr ⟨object, by simpa using structMem, stored⟩

theorem finite_holds (s : Store) : {v | s.Holds v}.Finite :=
  s.held.finite_toSet.subset fun _ => mem_held_of_holds

theorem holds_of_mem_elements {s : Store} {view : SliceView} {v : Value}
    (mem : v ∈ s.elements view) : s.Holds v := by
  obtain ⟨i, -, rfl⟩ := List.mem_map.mp mem
  exact .element view i

/-- A value, and all that a store holds. -/
def within (s : Store) (v : Value) : Set Value := insert v {w | s.Holds w}

theorem finite_within (s : Store) (v : Value) : (s.within v).Finite := s.finite_holds.insert v

theorem mem_within_self (s : Store) (v : Value) : v ∈ s.within v := Set.mem_insert v _

theorem mem_within_of_holds {s : Store} {v w : Value} (holds : s.Holds w) : w ∈ s.within v :=
  Set.mem_insert_of_mem v holds

/-! ## Names of types -/

theorem typeNameVisit_keeps (s : Store) (v : Value) :
    (s.typeNameVisit v).Keeps s.Holds (fun _ _ => True) fun _ => True := by
  cases v with
  | slice view =>
      simp only [typeNameVisit]
      split
      · exact trivial
      · refine .bind (.consult _ (.element view 0)) ?_
        exact fun _ _ => trivial
  | ref c =>
      simp only [typeNameVisit]
      refine .bind (.consult _ (.cell c)) ?_
      exact fun _ _ => trivial
  | _ => exact trivial

theorem typeName_isSome_iff (s : Store) (v : Value) :
    (s.typeName? v).isSome ↔ ¬ RunsInCircle s.typeNameVisit v :=
  walk_isSome_iff s.typeNameVisit_keeps (s.finite_within v)
    (fun _ _ _ holds => mem_within_of_holds holds) (s.mem_within_self v)

/-! ## Fields -/

theorem holds_of_mem_embedded {s : Store} {o inner : StructId} (mem : inner ∈ s.embeddedStructs o) :
    s.Holds (.struct inner) ∨ s.Holds (.pointer inner) := by
  obtain ⟨⟨field, v⟩, stored, embedded⟩ := List.mem_filterMap.mp mem
  split at embedded
  · rename_i is
    cases embedded
    dsimp only at is
    exact .inl (.field (is ▸ stored))
  · rename_i is
    cases embedded
    dsimp only at is
    exact .inr (.field (is ▸ stored))
  · exact absurd embedded nofun

theorem fieldVisit_keeps (s : Store) (name : String) (o : StructId) :
    (s.fieldVisit name o).Keeps
      (fun inner => s.Holds (.struct inner) ∨ s.Holds (.pointer inner)) (fun _ _ => True)
      fun _ => True := by
  unfold fieldVisit
  split
  · exact trivial
  · exact .findSomeM? fun inner mem => .consult _ (holds_of_mem_embedded mem)

/-- The structs that a set of values stands for. -/
def structsIn (values : Set Value) : Set StructId :=
  {o | Value.struct o ∈ values ∨ Value.pointer o ∈ values}

theorem finite_structsIn {values : Set Value} (finite : values.Finite) :
    (structsIn values).Finite := by
  have structs := finite.preimage (f := Value.struct) fun _ _ _ _ same => Value.struct.inj same
  have pointers := finite.preimage (f := Value.pointer) fun _ _ _ _ same => Value.pointer.inj same
  exact structs.union pointers

theorem findField_isSome_iff (s : Store) (o : StructId) (name : String) :
    (s.findField o name).isSome ↔ ¬ RunsInCircle (s.fieldVisit name) o :=
  walk_isSome_iff (s.fieldVisit_keeps name) (finite_structsIn (s.finite_within (.struct o)))
    (fun _ _ _ holds => holds.imp mem_within_of_holds mem_within_of_holds)
    (.inl (s.mem_within_self (.struct o)))

/-! ## Documents -/

/-- Where the walk for a document goes next. -/
def DocumentPlace.Next (s : Store) (place : DocumentPlace) : DocumentPlace → Prop
  | value w => s.Holds w
  | fields o =>
    place = value (.struct o) ∨ place = value (.pointer o) ∨
      s.Holds (.struct o) ∨ s.Holds (.pointer o)

/-- The fields of a struct in JSON come from the store. -/
def DocumentPlace.Promise (s : Store) : (place : DocumentPlace) → place.Answer → Prop
  | value _, _ => True
  | fields _, read => ∀ entry ∈ read, s.Holds entry.2

theorem jsonField_keeps {s : Store} {o : StructId} {field : FieldDef} {v : Value}
    (mem : (field, v) ∈ s.structFields o) (place : DocumentPlace) :
    (s.jsonField field v).Keeps (DocumentPlace.Next s place) (DocumentPlace.Promise s)
      fun read => ∀ entry ∈ read, s.Holds entry.2 := by
  have holds : s.Holds v := .field mem
  unfold jsonField
  extract_lets own
  split
  · exact .consult (DocumentPlace.fields _) (.inr (.inr (.inl holds)))
  · exact .consult (DocumentPlace.fields _) (.inr (.inr (.inr holds)))
  · refine .pure fun entry isOwn => ?_
    dsimp only [own] at isOwn
    split at isOwn
    · exact absurd isOwn List.not_mem_nil
    · split at isOwn
      · exact absurd isOwn List.not_mem_nil
      · rw [List.mem_singleton.mp isOwn]
        exact holds

theorem jsonFieldsVisit_keeps (s : Store) (o : StructId) (place : DocumentPlace) :
    (s.jsonFieldsVisit o).Keeps (DocumentPlace.Next s place) (DocumentPlace.Promise s)
      fun read => ∀ entry ∈ read, s.Holds entry.2 := by
  refine .foldlM (fun _ mem => absurd mem List.not_mem_nil) ?_
  intro (field, v) mem read readHeld
  refine (jsonField_keeps mem place).bind fun more moreHeld => .pure fun entry entryMem => ?_
  rcases List.mem_append.mp entryMem with before | now
  · exact readHeld entry before
  · exact moreHeld entry now

theorem consultDocument_keeps {s : Store} {v : Value} (holds : s.Holds v) (place : DocumentPlace) :
    (consultDocument v).Keeps (DocumentPlace.Next s place) (DocumentPlace.Promise s)
      fun _ => True :=
  .consult (DocumentPlace.value v) holds

theorem entriesVisit_keeps {s : Store} {entries : List (String × Value)}
    (held : ∀ entry ∈ entries, s.Holds entry.2) (place : DocumentPlace) :
    (entriesVisit entries).Keeps (DocumentPlace.Next s place) (DocumentPlace.Promise s)
      fun _ => True := by
  refine .bind (.collect (E := fun _ => True) fun entry mem => ?_) fun _ _ => trivial
  exact .bind (consultDocument_keeps (held entry mem) place) fun _ _ => trivial

theorem documentVisit_keeps (s : Store) (v : Value) :
    (s.documentVisit v).Keeps (DocumentPlace.Next s (.value v)) (DocumentPlace.Promise s)
      fun _ => True := by
  cases v with
  | float f =>
      simp only [documentVisit]
      split <;> exact trivial
  | slice view =>
      simp only [documentVisit]
      split
      · exact trivial
      · refine .bind (.collect (E := fun _ => True) fun item mem => ?_) fun _ _ => trivial
        exact consultDocument_keeps (holds_of_mem_elements mem) _
  | map entries zero =>
      simp only [documentVisit]
      split
      · exact trivial
      · refine entriesVisit_keeps (fun entry mem => ?_) _
        obtain ⟨⟨key, v⟩, mapped, rfl⟩ := List.mem_map.mp mem
        exact .entry mapped
  | struct o =>
      exact .bind (.consult (DocumentPlace.fields o) (.inl rfl))
        fun read held => entriesVisit_keeps held _
  | pointer o =>
      exact .bind (.consult (DocumentPlace.fields o) (.inr (.inl rfl)))
        fun read held => entriesVisit_keeps held _
  | ref c => exact consultDocument_keeps (.cell c) _
  | _ => exact trivial

theorem boundaryVisit_keeps (s : Store) (place : DocumentPlace) :
    (s.boundaryVisit place).Keeps (DocumentPlace.Next s place) (DocumentPlace.Promise s)
      (DocumentPlace.Promise s place) := by
  cases place with
  | value v => exact s.documentVisit_keeps v
  | fields o => exact s.jsonFieldsVisit_keeps o _

theorem toJson_isSome_iff (s : Store) (v : Value) :
    (s.toJson? v).isSome ↔ ¬ RunsInCircle s.boundaryVisit (.value v) := by
  let places : Set DocumentPlace :=
    DocumentPlace.value '' s.within v ∪ DocumentPlace.fields '' structsIn (s.within v)
  have finite : places.Finite :=
    ((s.finite_within v).image _).union ((finite_structsIn (s.finite_within v)).image _)
  refine walk_isSome_iff s.boundaryVisit_keeps finite ?_ (.inl ⟨v, s.mem_within_self v, rfl⟩)
  intro place mem other next
  cases other with
  | value w => exact .inl ⟨w, mem_within_of_holds next, rfl⟩
  | fields o =>
      refine .inr ⟨o, ?_, rfl⟩
      rcases next with rfl | rfl | holds | holds
      · simp [places] at mem
        exact .inl mem
      · simp [places] at mem
        exact .inr mem
      · exact .inl (mem_within_of_holds holds)
      · exact .inr (mem_within_of_holds holds)

end Store

/-! ## Promoted methods -/

theorem Guest.promotedVisit_keeps (g : Guest) (name : String) (v : Value) :
    (g.promotedVisit name v).Keeps g.store.Holds (fun _ _ => True) fun _ => True := by
  have embedded (o : StructId) :
      ((g.store.structFields o).anyM fun ((field, inner) : FieldDef × Value) =>
        if field.embedded then Visit.consult inner else pure false).Keeps
          g.store.Holds (fun (_ : Value) (_ : Bool) => True) fun _ => True := by
    refine .anyM (T := fun _ => True) fun (field, inner) mem => ?_
    dsimp only
    split
    · exact .consult _ (.field mem)
    · exact trivial
  cases v with
  | struct o | pointer o =>
      simp only [Guest.promotedVisit]
      split
      · exact trivial
      · exact embedded o
  | _ => exact trivial

theorem Guest.hasPromotedMethod_isSome_iff (g : Guest) (name : String) (v : Value) :
    (g.hasPromotedMethod? name v).isSome ↔ ¬ RunsInCircle (g.promotedVisit name) v :=
  walk_isSome_iff (g.promotedVisit_keeps name) (g.store.finite_within v)
    (fun _ _ _ holds => Store.mem_within_of_holds holds) (g.store.mem_within_self v)

/-- Passing a value to the host, naming its type, looking up a field and looking for a promoted
method end exactly if the walk that does it does not run in a circle, whatever the program has
stored. -/
theorem traversals_end_iff (g : Guest) (v : Value) (o : StructId) (name : String) :
    ((g.store.toJson? v).isSome ↔ ¬ RunsInCircle g.store.boundaryVisit (.value v)) ∧
    ((g.store.typeName? v).isSome ↔ ¬ RunsInCircle g.store.typeNameVisit v) ∧
    ((g.store.lookupField o name).isSome ↔ ¬ RunsInCircle (g.store.fieldVisit name) o) ∧
    ((g.hasPromotedMethod? name v).isSome ↔ ¬ RunsInCircle (g.promotedVisit name) v) := by
  refine ⟨g.store.toJson_isSome_iff v, g.store.typeName_isSome_iff v, ?_,
    g.hasPromotedMethod_isSome_iff name v⟩
  rw [Store.lookupField, Option.isSome_map]
  exact g.store.findField_isSome_iff o name

/-! ## Circles that a program can build -/

namespace Store

variable {s : Store}

section OwnElement

variable {view : SliceView} (own : s.element view 0 = .slice view) (filled : 0 < view.length)

include own filled

theorem typeName_ownElement : s.typeName? (.slice view) = none := by
  refine walk_none_of_runsInCircle (runsInCircle_of_asks ?_)
  have filled' : view.length ≠ 0 := Nat.ne_of_gt filled
  simp [Asks, typeNameVisit, filled', own, Visit.consult, bind, Visit.bind, Visit.asked]

theorem toJson_ownElement (notNil : view.isNil = false) : s.toJson? (.slice view) = none := by
  refine walk_none_of_runsInCircle (runsInCircle_of_asks ?_)
  obtain ⟨n, is⟩ := Nat.exists_eq_succ_of_ne_zero (Nat.ne_of_gt filled)
  have first : s.elements view = .slice view :: (s.elements view).tail := by
    have range : List.range view.length = 0 :: (List.range n).map Nat.succ := by
      rw [is, List.range_succ_eq_map]
    simp only [elements, range, List.map_cons, List.tail_cons]
    exact congrArg (· :: _) own
  simp only [Asks, boundaryVisit, documentVisit, notNil]
  rw [first]
  exact Visit.mem_asked ..

end OwnElement

theorem typeName_ownAddress {c : CellId} (own : s.cell c = .ref c) :
    s.typeName? (.ref c) = none := by
  refine walk_none_of_runsInCircle (runsInCircle_of_asks ?_)
  simp only [Asks, typeNameVisit, own]
  exact Visit.mem_asked ..

theorem toJson_ownAddress {c : CellId} (own : s.cell c = .ref c) : s.toJson? (.ref c) = none := by
  refine walk_none_of_runsInCircle (runsInCircle_of_asks ?_)
  simp only [Asks, boundaryVisit, documentVisit, own]
  exact Visit.mem_asked ..

/-- A struct that embeds a pointer to itself first does not come to an end over a name that it does
not have itself. -/
theorem lookupField_ownEmbedding {o : StructId} {name : String} {others : List StructId}
    (missing : fieldPlace? (s.structObject o).type name = none)
    (own : s.embeddedStructs o = o :: others) : s.lookupField o name = none := by
  have endless : s.findField o name = none := by
    refine walk_none_of_runsInCircle (runsInCircle_of_asks ?_)
    simp only [Asks, fieldVisit, missing, own]
    exact Visit.mem_asked ..
  rw [lookupField, endless, Option.map_none]

end Store

/-- The same of the methods of such a struct; the fields in front of the embedding do not matter. -/
theorem Guest.hasPromotedMethod_ownEmbedding {g : Guest} {o : StructId} {name : String}
    {before after : List (FieldDef × Value)} {field : FieldDef}
    (notBuilder : g.store.structName o ≠ builderType)
    (missing : g.method? (g.store.structName o) name = none)
    (fields : g.store.structFields o = before ++ (field, .pointer o) :: after)
    (plain : ∀ entry ∈ before, entry.1.embedded = false) (embedded : field.embedded = true) :
    g.hasPromotedMethod? name (.pointer o) = none := by
  refine walk_none_of_runsInCircle (runsInCircle_of_asks ?_)
  simp only [Asks, promotedVisit, notBuilder, missing, fields]
  clear fields
  induction before with
  | nil =>
      simp only [List.nil_append, List.anyM, embedded]
      exact Visit.mem_asked ..
  | cons entry rest ih =>
      have notAsked : entry.1.embedded = false := plain entry List.mem_cons_self
      simp only [List.cons_append, List.anyM, notAsked]
      exact ih fun later mem => plain later (List.mem_cons_of_mem _ mem)

/-! ## Building a circle -/

namespace Eval

theorem asIndex_zero_run {length : Nat} (filled : 0 < length) (ev : Evaluator) (m : Machine) :
    (asIndex (.int 0) length).run ev m = .ok 0 m := by
  have inside : ¬ (((0 : Int64) < 0 || length ≤ (0 : Int64).toInt.toNat) = true) := by
    simp
    omega
  unfold asIndex
  rw [bind_run_ok rfl, if_neg inside]
  rfl

theorem assignElement_slice_run {view : SliceView} (filled : 0 < view.length) (v : SliceView)
    (ev : Evaluator) (m : Machine) :
    (assignElement (.slice view) (.int 0) (.slice v)).run ev m =
      .ok () { m with store := m.store.setElement view 0 (.slice v) } := by
  have kept (old : Value) : old.keepingFloat (.slice v) = .slice v := by
    cases old <;> rfl
  unfold assignElement
  rw [bind_run_ok rfl]
  show (asIndex (.int 0) view.length >>= _).run ev m = _
  rw [bind_run_ok (asIndex_zero_run filled ev m), bind_run_ok rfl, kept]
  rfl

theorem hostArgument_endless {v : Value} {ev : Evaluator} {m : Machine}
    (endless : m.store.toJson? v = none) (name : String) :
    ∃ m', (hostArgument name v).run ev m = .error (.halt .unfinished) m' := by
  have stops : ∃ m', (walkStore (·.toJson? v)).run ev m = .error (.halt .unfinished) m' :=
    ofWalk_endless endless
  obtain ⟨m', stops⟩ := stops
  exact ⟨m', bind_run_error stops _⟩

/-- Once a slice was stored in its first element, passing it to the host does not come to an end. -/
theorem hostArgument_ownElement {view : SliceView} {ev : Evaluator} {m : Machine}
    (filled : 0 < view.length) (notNil : view.isNil = false)
    (stored : view.backing.index < m.store.backings.size) (name : String) :
    ∃ m', (do
      assignElement (.slice view) (.int 0) (.slice view)
      hostArgument name (.slice view)).run ev m = .error (.halt .unfinished) m' := by
  rw [bind_run_ok (assignElement_slice_run filled view ev m)]
  have own := Store.element_setElement_self stored filled (.slice view)
  refine hostArgument_endless ?_ name
  exact Store.toJson_ownElement own filled notNil

end Eval

/-- A slice of one element. -/
def oneElement : SliceView := ⟨⟨0⟩, 0, 1, 1, false, false⟩

/-- A variable that holds its own address, a slice that is its own element, and a struct that embeds
a pointer to itself. -/
def circles : Store where
  cells := #[.ref ⟨0⟩]
  backings := #[#[.slice oneElement]]
  structs := #[⟨⟨0, "T", [⟨"T", true, none, false⟩]⟩, #[.pointer ⟨0⟩]⟩]

/-- None of the four has an answer about such values, which programs build by assignments. -/
theorem circles_have_no_end :
    let g : Guest := { store := circles }
    let built : Store := { backings := #[#[.nil]] }
    (circles.toJson? (.slice oneElement) = none ∧ circles.typeName? (.slice oneElement) = none) ∧
    (circles.toJson? (.ref ⟨0⟩) = none ∧ circles.typeName? (.ref ⟨0⟩) = none) ∧
    circles.lookupField ⟨0⟩ "missing" = none ∧
    g.hasPromotedMethod? "missing" (.pointer ⟨0⟩) = none ∧
    ∃ m', (do
      Eval.assignElement (.slice oneElement) (.int 0) (.slice oneElement)
      Eval.hostArgument "host" (.slice oneElement)).run (.ofDepth 1)
        { Machine.initial {} with store := built } = .error (.halt .unfinished) m' := by
  intro g built
  have own : circles.element oneElement 0 = .slice oneElement := rfl
  have filled : 0 < oneElement.length := by decide
  refine ⟨⟨Store.toJson_ownElement own filled rfl, Store.typeName_ownElement own filled⟩,
    ⟨Store.toJson_ownAddress rfl, Store.typeName_ownAddress rfl⟩,
    Store.lookupField_ownEmbedding (by decide) rfl, ?_,
    Eval.hostArgument_ownElement filled rfl (by decide) "host"⟩
  have fields : g.store.structFields ⟨0⟩ =
      [] ++ (⟨"T", true, none, false⟩, .pointer ⟨0⟩) :: [] := rfl
  exact Guest.hasPromotedMethod_ownEmbedding (by decide) rfl fields nofun rfl

end SandboxedGo
