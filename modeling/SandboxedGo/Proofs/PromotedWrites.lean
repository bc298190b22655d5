import SandboxedGo.Proofs.ListedFields

/-!
# Reading and writing promoted fields

Reading a field looks for the place where it is stored; writing it tries one struct after another.
Main statement: `promoted_writes_agree`, that in every struct without circles of embedding both come
to the same place, whatever else is embedded on the way and however often.
-/

set_option autoImplicit false

namespace SandboxedGo.Store

variable {s : Store} {o owner : StructId} {name : String} {place : Nat} {v : Value}

/-! ## Changing one field -/

theorem structs_setFieldAt (s : Store) (owner : StructId) (place : Nat) (v : Value) (index : Nat) :
    (s.setFieldAt owner place v).structs[index]? =
      (s.structs[index]?).map fun object =>
        if owner.index = index then
          { object with fields := object.fields.setIfInBounds place v }
        else object := by
  rw [setFieldAt, Array.getElem?_modify]
  split <;> cases s.structs[index]? <;> rfl

theorem type_setFieldAt (s : Store) (owner : StructId) (place : Nat) (v : Value) (o : StructId) :
    ((s.setFieldAt owner place v).structObject o).type = (s.structObject o).type := by
  unfold structObject
  rw [structs_setFieldAt]
  cases s.structs[o.index]? with
  | none => rfl
  | some object =>
      simp only [Option.map_some, Option.getD_some]
      split <;> rfl

theorem structObject_setFieldAt_other (other : o ≠ owner) (place : Nat) (v : Value) :
    (s.setFieldAt owner place v).structObject o = s.structObject o := by
  have apart : owner.index ≠ o.index := by
    obtain ⟨i⟩ := o
    obtain ⟨j⟩ := owner
    rintro rfl
    exact other rfl
  unfold structObject
  rw [structs_setFieldAt]
  cases s.structs[o.index]? with
  | none => rfl
  | some object => simp only [Option.map_some, Option.getD_some, if_neg apart]

theorem valueAt_setFieldAt (s : Store) (slot : StructId × Nat) (v : Value) :
    (s.setFieldAt slot.1 slot.2 v).valueAt slot = (s.valueAt slot).map fun _ => v := by
  unfold valueAt structObject
  rw [structs_setFieldAt]
  cases s.structs[slot.1.index]? with
  | none => rfl
  | some object =>
      simp only [Option.map_some, Option.getD_some, ↓reduceIte, Array.getElem?_setIfInBounds]
      split
      · rename_i within
        simp [within]
      · rename_i beyond
        simp [Nat.le_of_not_lt beyond]

theorem valueAt_setFieldAt_other {slot other : StructId × Nat} (apart : other ≠ slot) (v : Value) :
    (s.setFieldAt slot.1 slot.2 v).valueAt other = s.valueAt other := by
  by_cases same : other.1 = slot.1
  · have places : slot.2 ≠ other.2 := fun is => apart (Prod.ext same is.symm)
    unfold valueAt structObject
    rw [structs_setFieldAt, same]
    cases s.structs[slot.1.index]? with
    | none => rfl
    | some object =>
        simp only [Option.map_some, Option.getD_some, ↓reduceIte]
        exact Array.getElem?_setIfInBounds_ne places
  · rw [valueAt, structObject_setFieldAt_other same, ← valueAt]

/-- Of all that a store holds, at most what is stored in one field differs from another store. -/
structure ChangesField (s after : Store) (slot : StructId × Nat) (v : Value) : Prop where
  there : after.valueAt slot = (s.valueAt slot).map fun _ => v
  others : ∀ other, other ≠ slot → after.valueAt other = s.valueAt other
  types : ∀ o, (after.structObject o).type = (s.structObject o).type
  count : after.structs.size = s.structs.size
  outside : { after with structs := s.structs } = s

theorem changesField_setFieldAt (s : Store) (slot : StructId × Nat) (v : Value) :
    s.ChangesField (s.setFieldAt slot.1 slot.2 v) slot v where
  there := valueAt_setFieldAt s slot v
  others _ apart := valueAt_setFieldAt_other apart v
  types := type_setFieldAt s slot.1 slot.2 v
  count := Array.size_modify
  outside := rfl

/-! ## Looking for the field again -/

theorem WayClear.declared {slot : StructId × Nat} (way : s.WayClear name o slot) :
    fieldPlace? (s.structObject slot.1).type name = some slot.2 := by
  induction way with
  | own declared => exact declared
  | embedded _ _ _ _ ih => exact ih

/-- Changing a declared field changes no struct that is passed through in search of its name. -/
theorem fieldVisit_setFieldAt (declared : fieldPlace? (s.structObject owner).type name = some place)
    (v : Value) (o : StructId) :
    (s.setFieldAt owner place v).fieldVisit name o = s.fieldVisit name o := by
  unfold fieldVisit
  rw [type_setFieldAt]
  cases own : fieldPlace? (s.structObject o).type name with
  | some _ => rfl
  | none =>
      have other : o ≠ owner := by
        rintro rfl
        rw [own] at declared
        cases declared
      unfold embeddedStructs structFields
      rw [structObject_setFieldAt_other other]

theorem findField_setFieldAt (declared : fieldPlace? (s.structObject owner).type name = some place)
    (v : Value) (o : StructId) :
    (s.setFieldAt owner place v).findField o name = s.findField o name := by
  have visits : (s.setFieldAt owner place v).fieldVisit name = s.fieldVisit name :=
    funext (fieldVisit_setFieldAt declared v)
  rw [findField, visits, findField]

/-! ## Both together -/

/-- What reading and writing a field have to do with each other: `found` is the place where the
field is found when it is read, if anywhere; writing it succeeds or not, and ends in the store
`after`. -/
structure WritesAsRead (s : Store) (o : StructId) (name : String) (v : Value)
    (found : Option (StructId × Nat)) (written : Bool) (after : Store) : Prop where
  reads : s.lookupField o name = some (found.bind s.valueAt)
  writes : s.writeField o name v = some (written, after)
  succeeds : written = true ↔ ∃ slot, found = some slot
  finds (stored : ∀ slot, found = some slot → (s.valueAt slot).isSome = true) :
    written = true ↔ ∃ old, s.lookupField o name = some (some old)
  fails : written = false → after = s
  changes {slot : StructId × Nat} (is : found = some slot) : s.ChangesField after slot v
  readsBack {slot : StructId × Nat} (is : found = some slot) :
    after.lookupField o name = some ((s.valueAt slot).map fun _ => v)
  /-- An assignment writes the value in the form of what the field held before. -/
  assigns (ev : Evaluator) (m : Machine) (base w : Value) (same : m.store = s)
    (isBase : base = .struct o ∨ base = .pointer o)
    (is : ((found.bind s.valueAt).getD .nil).keepingFloat w = v) :
    (Eval.assignField base name w).run ev m =
      if written then .ok () { m with store := after }
      else .error (.signal (.error (.missingField (s.structName o) name))) m

theorem lookupField_of_findField {found : Option (StructId × Nat)}
    (is : s.findField o name = some found) :
    s.lookupField o name = some (found.bind s.valueAt) := by
  rw [lookupField, is]
  rfl

theorem writesAsRead_none (is : s.findField o name = some none) (v : Value) :
    s.WritesAsRead o name v none false s where
  reads := lookupField_of_findField is
  writes := writeField_of_findField is v
  succeeds := by simp
  finds _ := by simp [lookupField_of_findField is]
  fails _ := rfl
  changes := nofun
  readsBack := nofun
  assigns := by
    rintro ev m base w rfl isBase -
    have searched : (Eval.walkStore (·.findField o name)).run ev m = .ok none m := by
      show (Eval.ofWalk (m.store.findField o name)).run ev m = _
      rw [is]
      rfl
    rw [Eval.assignField_eq]
    rcases isBase with rfl | rfl
    · exact Eval.bind_run_ok searched _
    · exact Eval.bind_run_ok searched _

theorem writesAsRead_some {slot : StructId × Nat} (is : s.findField o name = some (some slot))
    (declared : fieldPlace? (s.structObject slot.1).type name = some slot.2) (v : Value) :
    s.WritesAsRead o name v (some slot) true (s.setFieldAt slot.1 slot.2 v) where
  reads := lookupField_of_findField is
  writes := writeField_of_findField is v
  succeeds := by simp
  finds stored := by
    obtain ⟨old, isOld⟩ := Option.isSome_iff_exists.mp (stored slot rfl)
    rw [lookupField_of_findField is, Option.bind_some, isOld]
    exact iff_of_true rfl ⟨old, rfl⟩
  fails := nofun
  changes := by
    rintro _ ⟨⟩
    exact changesField_setFieldAt s slot v
  readsBack := by
    rintro _ ⟨⟩
    have again := (findField_setFieldAt declared v o).trans is
    rw [lookupField_of_findField again, Option.bind_some, valueAt_setFieldAt]
  assigns := by
    rintro ev m base w same isBase rfl
    exact (reaches_of_findField is).writes ev m base same isBase w

/-- In a struct that embeds none in a circle, a field is written exactly where it is found when it
is read, and is read back as it was written; where there is no such field nothing changes, and
otherwise that one field. -/
theorem promoted_writes_agree (acyclic : s.Acyclic o) (name : String) (v : Value) :
    ∃ found written after, s.findField o name = some found ∧
      s.WritesAsRead o name v found written after := by
  have acc := acyclic.acc
  have searched := findField_eq_met acc name
  cases is : s.met name o with
  | none =>
      rw [is] at searched
      exact ⟨none, false, s, searched, writesAsRead_none searched v⟩
  | some slot =>
      rw [is] at searched
      have declared := ((met_eq_some_iff acc name slot).mp is).declared
      exact ⟨some slot, true, _, searched, writesAsRead_some searched declared v⟩

/-- A struct that embeds two others, which both embed a pointer to the same third one. -/
def sharedEmbedding : Store where
  structs := #[
    ⟨⟨0, "C", [numberField]⟩, #[.int 1]⟩,
    ⟨⟨1, "A", [embedding "C"]⟩, #[.pointer ⟨0⟩]⟩,
    ⟨⟨2, "B", [embedding "C"]⟩, #[.pointer ⟨0⟩]⟩,
    ⟨⟨3, "S", [embedding "A", embedding "B"]⟩, #[.struct ⟨1⟩, .struct ⟨2⟩]⟩]

theorem acyclic_sharedEmbedding : sharedEmbedding.Acyclic ⟨3⟩ := by
  refine acyclic_of_rank StructId.index (fun o inner embeds => ?_) _
  obtain ⟨place⟩ := o
  match place with
  | 0 => cases embeds
  | 1 | 2 =>
      obtain rfl : inner = ⟨0⟩ := List.mem_singleton.mp embeds
      decide
  | 3 =>
      have two : inner ∈ [⟨1⟩, ⟨2⟩] := embeds
      rcases List.mem_cons.mp two with rfl | one
      · decide
      · obtain rfl : inner = ⟨2⟩ := List.mem_singleton.mp one
        decide
  | place + 4 => cases embeds

/-- The field that is reached in two ways is written once. -/
theorem promoted_writes_agree_shared :
    sharedEmbedding.Acyclic ⟨3⟩ ∧
      ∃ after, sharedEmbedding.writeField ⟨3⟩ "X" (.int 5) = some (true, after) ∧
        after.lookupField ⟨3⟩ "X" = some (some (.int 5)) ∧
        sharedEmbedding.ChangesField after (⟨0⟩, 0) (.int 5) := by
  have acyclic := acyclic_sharedEmbedding
  have way : sharedEmbedding.WayClear "X" ⟨3⟩ (⟨0⟩, 0) :=
    @WayClear.embedded _ _ ⟨3⟩ ⟨1⟩ _ [] [⟨2⟩] rfl rfl (fun _ isIn => absurd isIn List.not_mem_nil)
      (@WayClear.embedded _ _ ⟨1⟩ ⟨0⟩ _ [] [] rfl rfl
        (fun _ isIn => absurd isIn List.not_mem_nil) (.own rfl))
  have isMet := (met_eq_some_iff acyclic.acc "X" _).mpr way
  obtain ⟨found, written, after, searched, agree⟩ := promoted_writes_agree acyclic "X" (.int 5)
  rw [findField_eq_met acyclic.acc, isMet, Option.some.injEq] at searched
  have succeeds := agree.succeeds.mpr ⟨_, searched.symm⟩
  exact ⟨acyclic, after, succeeds ▸ agree.writes, agree.readsBack searched.symm,
    agree.changes searched.symm⟩

end SandboxedGo.Store
