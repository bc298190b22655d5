import SandboxedGo.Eval.Conversion
import SandboxedGo.Library.Sort
import SandboxedGo.Proofs.AppendedSlices
import SandboxedGo.Proofs.Copies
import SandboxedGo.Proofs.Walks

/-!
# What a change of the store puts where

A variable, a field, an element or an entry of a map that is written holds the value that is
written, and nobody else comes to hold anything.  Assignments go to what a value refers to: to a
field of the struct or of one that is embedded in it, and to what is behind a chain of references.
What holders that are apart read is not changed by an assignment through another one of them.
-/

set_option autoImplicit false

namespace SandboxedGo

open Source World Store

/-! ## Changes of a store -/

namespace Store

variable {s : Store} {v w : Value}

/-- A value that is stored, or one that refers to nothing in its place. -/
def Passes (v w : Value) : Prop := w = v ∨ w.IsPlain

theorem Passes.put {slot : Holder} (passes : Passes v w) :
    w.IsPlain ∨ ∃ i, slot = (fun _ : Nat => slot) i ∧ [v][i]? = some w := by
  rcases passes with rfl | plain
  · exact .inr ⟨0, rfl, rfl⟩
  · exact .inl plain

theorem passes_int (v : Value) (n : Int64) : Passes v (.int n) := .inr rfl

theorem passes_keepingFloat (old v : Value) : Passes v (old.keepingFloat v) := by
  unfold Value.keepingFloat
  split
  · exact .inr rfl
  · exact .inl rfl

theorem passes_adapt (types : TypeTable) (ty : TypeExpr) (v : Value) :
    Passes v (types.adapt ty v) := by
  unfold TypeTable.adapt
  split
  · split
    · exact .inr rfl
    · exact .inr rfl
    · exact .inl rfl
  · split
    · split
      · exact .inr rfl
      · exact .inl rfl
    · exact .inl rfl
  · exact .inl rfl

theorem puts_define (scope : ScopeId) (name : String) (width : Option IntWidth)
    (passes : Passes v w) :
    Puts (fun _ => .cell ⟨s.cells.size⟩) [v] s (s.define scope name w width) where
  stored h u holds := by
    unfold define at holds
    split at holds
    · exact .inr (.inl holds)
    · rcases holdsAt_pushCell holds with before | ⟨rfl, rfl⟩
      · exact .inr (.inl before)
      · exact passes.put.imp_right .inr
  has x := by
    unfold define
    split
    · exact .rfl
    · cases x <;> exact .rfl
  count := by
    unfold define
    split <;> rfl

theorem puts_setCell (c : CellId) (passes : Passes v w) :
    Puts (fun _ => .cell c) [v] s (s.setCell c w) where
  stored h u holds := by
    rcases holdsAt_setCell holds with before | ⟨rfl, rfl⟩
    · exact .inr (.inl before)
    · exact passes.put.imp_right .inr
  has x := by cases x <;> exact .rfl
  count := rfl

theorem puts_mapInsert (m : MapId) (key : MapKey) (passes : Passes v w) :
    Puts (fun _ => .entry m key.identity) [v] s (s.mapInsert m key w) where
  stored h u holds := by
    rcases holdsAt_mapInsert holds with before | ⟨rfl, rfl⟩
    · exact .inr (.inl before)
    · exact passes.put.imp_right .inr
  has x := by cases x <;> exact .rfl
  count := rfl

theorem has_modifyBackings (b : BackingId) (f : Array Value → Array Value) (x : Storage) :
    Has { s with backings := s.backings.modify b.index f } x ↔ s.Has x := by
  cases x with
  | fields o => exact .rfl
  | items b => simp [Has]

theorem has_modifyStructs (o : StructId) (f : StructObject → StructObject) (x : Storage) :
    Has { s with structs := s.structs.modify o.index f } x ↔ s.Has x := by
  cases x with
  | fields o => simp [Has]
  | items b => exact .rfl

theorem puts_setFieldAt (o : StructId) (place : Nat) (passes : Passes v w) :
    Puts (fun _ => .field o place) [v] s (s.setFieldAt o place w) where
  stored h u holds := by
    rcases holdsAt_modifyStruct holds with before | ⟨object, i, stored, rfl, is⟩
    · exact .inr (.inl before)
    · rw [Array.getElem?_setIfInBounds] at is
      split at is
      · rename_i same
        subst same
        split at is
        · cases is
          exact passes.put.imp_right .inr
        · cases is
      · exact .inr (.inl (.field stored is))
  has := has_modifyStructs o _
  count := by simp [setFieldAt, storageCount]

theorem puts_setFields (o : StructId) (fields : Array Value) :
    Puts (.field o) fields.toList s (s.setFields o fields) where
  stored h u holds := by
    rcases holdsAt_modifyStruct holds with before | ⟨object, i, stored, rfl, is⟩
    · exact .inr (.inl before)
    · exact .inr (.inr ⟨i, rfl, by simpa using is⟩)
  has := has_modifyStructs o _
  count := by simp [setFields, storageCount]

/-! ### Backing arrays -/

theorem writeAt_get {items : Array Value} {place i : Nat} {u : Value}
    (is : (writeAt items place v)[i]? = some u) :
    u.IsPlain ∨ (items[i]? = some u ∧ i ≠ place) ∨ i = place ∧ u = v := by
  unfold writeAt at is
  split at is
  · rw [Array.getElem?_setIfInBounds] at is
    split at is
    · rename_i same
      exact .inr (.inr ⟨same.symm, (Option.some.inj is).symm⟩)
    · rename_i other
      exact .inr (.inl ⟨is, fun same => other same.symm⟩)
  · rename_i beyond
    rw [Array.getElem?_push] at is
    split at is
    · rename_i last
      refine .inr (.inr ⟨?_, (Option.some.inj is).symm⟩)
      rw [Array.size_append, Array.size_replicate] at last
      omega
    · rw [Array.getElem?_append] at is
      split at is
      · exact .inr (.inl ⟨is, by omega⟩)
      · have filler : u = .nil := by
          have mem := Array.mem_of_getElem? is
          simpa using (Array.mem_replicate.mp mem).2
        exact .inl (filler ▸ rfl)

theorem writeFrom_get {values : List Value} {items : Array Value} {place i : Nat} {u : Value}
    (is : (writeFrom items place values)[i]? = some u) :
    u.IsPlain ∨ items[i]? = some u ∨ ∃ k, i = place + k ∧ values[k]? = some u := by
  induction values generalizing items place with
  | nil => exact .inr (.inl is)
  | cons v rest ih =>
      rcases ih is with plain | written | ⟨k, rfl, later⟩
      · exact .inl plain
      · rcases writeAt_get written with plain | ⟨before, -⟩ | ⟨rfl, rfl⟩
        · exact .inl plain
        · exact .inr (.inl before)
        · exact .inr (.inr ⟨0, rfl, rfl⟩)
      · exact .inr (.inr ⟨k + 1, by omega, later⟩)

theorem holdsAt_setElement {view : SliceView} {i : Nat} {h : Holder} {u : Value}
    (inside : i < view.length) (holds : (s.setElement view i v).HoldsAt h u) :
    u.IsPlain ∨ (s.HoldsAt h u ∧ h ≠ .element view.backing (view.start + i)) ∨
      h = .element view.backing (view.start + i) ∧ u = v := by
  rw [setElement, if_pos inside] at holds
  rcases holdsAt_modifyBacking holds with ⟨before, other⟩ | ⟨items, j, stored, rfl, is⟩
  · exact .inr (.inl ⟨before, other _⟩)
  · rcases writeAt_get is with plain | ⟨before, other⟩ | ⟨rfl, rfl⟩
    · exact .inl plain
    · exact .inr (.inl ⟨.element stored before, fun same => other (Holder.element.inj same).2⟩)
    · exact .inr (.inr ⟨rfl, rfl⟩)

theorem puts_setElement (view : SliceView) (i : Nat) (passes : Passes v w) :
    Puts (fun _ => .element view.backing (view.start + i)) [v] s (s.setElement view i w) where
  stored h u holds := by
    unfold setElement at holds
    split at holds
    · rcases holdsAt_modifyBacking holds with ⟨before, -⟩ | ⟨items, j, stored, rfl, is⟩
      · exact .inr (.inl before)
      · rcases writeAt_get is with plain | ⟨before, -⟩ | ⟨rfl, rfl⟩
        · exact .inl plain
        · exact .inr (.inl (.element stored before))
        · exact passes.put.imp_right .inr
    · exact .inr (.inl holds)
  has x := by
    unfold setElement
    split
    · exact has_modifyBackings view.backing _ x
    · exact .rfl
  count := by
    unfold setElement
    split
    · simp [storageCount]
    · rfl

theorem puts_writeFrom (b : BackingId) (place : Nat) (values : List Value) :
    Puts (fun k => .element b (place + k)) values s
      { s with backings := s.backings.modify b.index (writeFrom · place values) } where
  stored h u holds := by
    rcases holdsAt_modifyBacking holds with ⟨before, -⟩ | ⟨items, j, stored, rfl, is⟩
    · exact .inr (.inl before)
    · rcases writeFrom_get is with plain | before | ⟨k, rfl, later⟩
      · exact .inl plain
      · exact .inr (.inl (.element stored before))
      · exact .inr (.inr ⟨k, rfl, later⟩)
  has := has_modifyBackings b _
  count := by simp [storageCount]

/-! ### Sorted slices -/

theorem insertBehind_perm (order : Value → Value → Ordering) (v : Value) (sorted : List Value) :
    (Library.insertBehind order v sorted).Perm (v :: sorted) := by
  induction sorted with
  | nil => exact .refl _
  | cons last before ih =>
      rw [Library.insertBehind]
      split
      · exact (ih.cons last).trans (.swap v last before)
      · exact .refl _

/-- Sorting moves values, whatever their order is. -/
theorem sortedBy_perm (order : Value → Value → Ordering) (items : List Value) :
    (Library.sortedBy order items).Perm items := by
  have inserted (sorted : List Value) :
      (items.foldl (fun sorted v => Library.insertBehind order v sorted) sorted).Perm
        (items ++ sorted) := by
    induction items generalizing sorted with
    | nil => exact .refl _
    | cons v rest ih =>
        refine (ih _).trans (((insertBehind_perm order v sorted).append_left rest).trans ?_)
        exact List.perm_middle
  unfold Library.sortedBy
  split
  · have all := inserted []
    rw [List.append_nil] at all
    exact (List.reverse_perm _).trans all
  · exact List.mergeSort_perm items _

theorem holdsAt_element {view : SliceView} {i : Nat} {u : Value}
    (is : (s.elements view)[i]? = some u) :
    u.IsPlain ∨ s.HoldsAt (.element view.backing (view.start + i)) u := by
  have inside := (List.getElem?_eq_some_iff.mp is).1
  rw [length_elements] at inside
  rw [getElem?_elements inside, Option.some.injEq] at is
  subst is
  unfold element backing
  cases stored : s.backings[view.backing.index]? with
  | none => exact .inl rfl
  | some items =>
      cases at_ : items[view.start + i]? with
      | none => exact .inl (by simp [at_]; rfl)
      | some u => exact .inr (.element stored (by simp [at_]))

/-- Writing values over the elements of a slice leaves none of those that were there. -/
theorem holdsAt_writeElements {view : SliceView} {values : List Value} {place : Nat} {h : Holder}
    {u : Value} (inside : place + values.length ≤ view.length)
    (holds : (Library.writeElements view place values s).HoldsAt h u) :
    u.IsPlain ∨
      (s.HoldsAt h u ∧
        ∀ i < values.length, h ≠ .element view.backing (view.start + (place + i))) ∨
      ∃ i, h = .element view.backing (view.start + (place + i)) ∧ values[i]? = some u := by
  induction values generalizing place s with
  | nil => exact .inr (.inl ⟨holds, nofun⟩)
  | cons v rest ih =>
      rw [List.length_cons] at inside
      rcases ih (by omega) holds with plain | ⟨before, others⟩ | ⟨i, rfl, is⟩
      · exact .inl plain
      · rcases holdsAt_setElement (by omega) before with plain | ⟨before, other⟩ | ⟨rfl, rfl⟩
        · exact .inl plain
        · refine .inr (.inl ⟨before, fun i within => ?_⟩)
          cases i with
          | zero => exact other
          | succ i =>
              rw [show place + (i + 1) = place + 1 + i by omega]
              exact others i (Nat.lt_of_succ_lt_succ within)
        · exact .inr (.inr ⟨0, rfl, rfl⟩)
      · exact .inr (.inr ⟨i + 1, by rw [show place + (i + 1) = place + 1 + i by omega], is⟩)

theorem has_writeElements (view : SliceView) (values : List Value) (place : Nat) (x : Storage) :
    (Library.writeElements view place values s).Has x ↔ s.Has x := by
  induction values generalizing place s with
  | nil => exact .rfl
  | cons v rest ih => exact (ih (place + 1)).trans ((puts_setElement view place (.inl rfl)).has x)

theorem count_writeElements (view : SliceView) (values : List Value) (place : Nat) :
    (Library.writeElements view place values s).storageCount = s.storageCount := by
  induction values generalizing place s with
  | nil => rfl
  | cons v rest ih => exact (ih (place + 1)).trans (puts_setElement view place (.inl rfl)).count

end Store

/-! ## Where assignments go -/

section

variable {base s : Store} {o owner : StructId} {name : String} {place : Nat}

theorem Store.has_embedded (grown : Extends base s) (closed : base.Closed)
    (has : base.Has (.fields o)) {inner : StructId} (mem : inner ∈ s.embeddedStructs o) :
    base.Has (.fields inner) := by
  obtain ⟨⟨field, v⟩, stored, embedded⟩ := List.mem_filterMap.mp mem
  have isPart : v ∈ s.parts (.fields o) := (List.of_mem_zip stored).2
  rw [grown.parts has] at isPart
  refine closed _ has v isPart _ ?_
  split at embedded
  · rename_i is
    cases embedded
    dsimp only at is
    exact is ▸ List.mem_singleton_self _
  · rename_i is
    cases embedded
    dsimp only at is
    exact is ▸ List.mem_singleton_self _
  · cases embedded

/-- An answer about a struct that was there is a struct that was there. -/
def Store.StaysIn (base : Store) (o : StructId) (found : Option (StructId × Nat)) : Prop :=
  base.Has (.fields o) → ∀ d, found = some d → base.Has (.fields d.1)

theorem Store.fieldVisit_staysIn (grown : Extends base s) (closed : base.Closed) (o : StructId) :
    (s.fieldVisit name o).Keeps (fun _ => True) base.StaysIn (base.StaysIn o) := by
  have asked (inner : StructId) : (Visit.consult inner).Keeps (fun _ => True) base.StaysIn
      (base.StaysIn inner) := .consult inner trivial
  unfold fieldVisit
  split
  · rintro has d ⟨⟩
    exact has
  · by_cases has : base.Has (.fields o)
    · refine (Visit.Keeps.findSomeM?_some fun inner mem => ?_).weaken fun _ inside _ => inside
      exact (asked inner).weaken fun r inside => inside (has_embedded grown closed has mem)
    · exact (Visit.Keeps.findSomeM? fun inner _ => (asked inner).weaken fun _ _ => trivial).weaken
        fun _ (_ : True) isThere => absurd isThere has

/-- A field of a struct that was there is found in a struct that was there. -/
theorem Store.findField_inBase (grown : Extends base s) (closed : base.Closed)
    (has : base.Has (.fields o)) (found : s.findField o name = some (some (owner, place))) :
    base.Has (.fields owner) := by
  exact walk_answers (fieldVisit_staysIn grown closed) o _ found has (owner, place) rfl

theorem World.knows_behind {W : World} (steps : Nat) {v : Value} (knows : v.IsPlain ∨ W.Knows v) :
    (W.store.behind steps v).IsPlain ∨ W.Knows (W.store.behind steps v) := by
  induction steps generalizing v with
  | zero => exact knows
  | succ steps ih =>
      cases v with
      | ref c =>
          refine ih ?_
          unfold cell
          cases is : W.store.cells[c.index]? with
          | none => exact .inl rfl
          | some v => exact .inr (.inl ⟨_, .stored (.cell is)⟩)
      | _ => exact knows

theorem Store.Extends.target (grown : Extends base s) (v : Value) : s.target v = base.target v := by
  have behind : ∀ steps v, s.behind steps v = base.behind steps v := by
    intro steps
    induction steps with
    | zero => exact fun _ => rfl
    | succ steps ih =>
        intro v
        cases v with
        | ref c =>
            have same : s.cell c = base.cell c := by rw [cell, cell, grown.cells]
            exact (congrArg (s.behind steps) same).trans (ih _)
        | _ => rfl
  unfold Store.target
  rw [grown.cells, behind]

end

/-! ## What assignments leave alone -/

/-- An assignment to a field of a struct or to an element of an array. -/
inductive Store.Assigns (s : Store) : Value → Store → Prop
  | field (o : StructId) (place : Nat) (v : Value) : Assigns s (.struct o) (s.setFieldAt o place v)
  | element (view : SliceView) (i : Nat) (v : Value) :
      Assigns s (.slice view) (s.setElement view i v)

section

variable {s s' : Store} {v : Value} {x : Storage}

theorem Store.Assigns.parts (assigns : s.Assigns v s') (other : v.object? ≠ some x) :
    s'.parts x = s.parts x := by
  cases assigns with
  | field o place w =>
      cases x with
      | fields o' =>
          have different : o.index ≠ o'.index := fun same => other <| by
            cases o
            cases o'
            exact congrArg (fun i => some (Storage.fields ⟨i⟩)) same
          simp only [parts, structObject, setFieldAt, Array.getElem?_modify, if_neg different]
      | items b => rfl
  | element view i w =>
      unfold setElement
      split
      · cases x with
        | fields o => rfl
        | items b =>
            have different : view.backing.index ≠ b.index := fun same => other <| by
              obtain ⟨⟨_⟩, _⟩ := view
              cases b
              exact congrArg (fun i => some (Storage.items ⟨i⟩)) same
            simp only [parts, backing, Array.getElem?_modify, if_neg different]
      · rfl

/-- What a holder of a struct or an array reads stays the same when there is an assignment to a part
of what another holder has. -/
def World.Independent (W : World) : Prop :=
  ∀ {h h' : Holder} {v v' : Value} {x x' : Storage} {s' : Store}, W.Holds h v → W.Holds h' v' →
    h ≠ h' → v.storage? = some x → v'.storage? = some x' → W.store.Assigns v s' →
      s'.parts x' = W.store.parts x'

theorem World.Apart.independent {W : World} (apart : W.Apart) : W.Independent := by
  intro h h' v v' x x' s' holds holds' other is is' assigns
  refine assigns.parts fun refers => other ?_
  have contents : v.storage? = v.object? := by
    unfold Value.storage? at is ⊢
    split at is
    · rename_i hasContents
      exact if_pos hasContents
    · cases is
  exact apart.unshared holds holds' (contents.trans refers) is'

end

end SandboxedGo
