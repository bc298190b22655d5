import SandboxedGo.Proofs.AppendedSlices
import SandboxedGo.Proofs.Copies
import SandboxedGo.Proofs.TupleAssignments

/-!
# What assignments store

A variable, a field, an element, an entry of a map and what a pointer points to are assigned in
different ways, but each keeps a float where a float was: an integer that is stored over one becomes
a float.  Nothing else about the old value matters, so a place without a declared width keeps every
other value as it is.  Main statement: `assignments_leave`.
-/

set_option autoImplicit false

namespace SandboxedGo

open Eval

/-! ## Reading what was written -/

namespace Store

variable {s : Store}

theorem mapLookup_mapInsert_self {id : MapId} (stored : id.index < s.maps.size) (key : MapKey)
    (v : Value) : (s.mapInsert id key v).mapLookup id key = some v := by
  unfold mapInsert mapLookup mapEntries
  rw [Array.getElem?_modify, if_pos rfl, Array.getElem?_eq_getElem stored, Option.map_some,
    Option.getD_some, Std.TreeMap.getElem?_insert_self]

theorem fields_setFieldAt_self {o : StructId} {place : Nat} (stored : o.index < s.structs.size)
    (within : place < (s.structObject o).fields.size) (v : Value) :
    ((s.setFieldAt o place v).structObject o).fields[place]? = some v := by
  have object : s.structs[o.index]? = some (s.structObject o) := by
    rw [structObject, Array.getElem?_eq_getElem stored, Option.getD_some]
  unfold setFieldAt
  rw [structObject, Array.getElem?_modify, if_pos rfl, object, Option.map_some, Option.getD_some,
    Array.getElem?_setIfInBounds_self_of_lt within]

end Store

/-! ## Locations -/

/-- What an assignment changes. -/
inductive Location
  | named (found : Variable)
  | pointee (c : CellId)
  | element (view : SliceView) (i : Nat)
  | entry (id : MapId) (key : MapKey) (zero : Value)
  | field (o : StructId) (place : Nat)

namespace Location

variable {s : Store} {v : Value}

def read (s : Store) : Location → Value
  | named found => s.cell found.cell
  | pointee c => s.cell c
  | element view i => s.element view i
  | entry id key zero => (s.mapLookup id key).getD zero
  | field o place => (s.structObject o).fields[place]?.getD .nil

def write (v : Value) (s : Store) : Location → Store
  | named found => s.setCell found.cell v
  | pointee c => s.setCell c v
  | element view i => s.setElement view i v
  | entry id key _ => s.mapInsert id key v
  | field o place => s.setFieldAt o place v

/-- Whether the location is there. -/
def In (s : Store) : Location → Prop
  | named found => found.cell.index < s.cells.size
  | pointee c => c.index < s.cells.size
  | element view i => view.backing.index < s.backings.size ∧ i < view.length
  | entry id _ _ => id.index < s.maps.size
  | field o place => o.index < s.structs.size ∧ place < (s.structObject o).fields.size

/-- The value that decides whether an integer becomes a float: the old one, but for an entry the
zero value of the elements. -/
def old (s : Store) : Location → Value
  | entry _ _ zero => zero
  | l => l.read s

/-- The declared width; only names have one. -/
def width : Location → Option IntWidth
  | named found => found.width
  | _ => none

theorem read_write {l : Location} (there : l.In s) (v : Value) : l.read (l.write v s) = v := by
  cases l with
  | named found => exact Store.cell_setCell_self there v
  | pointee c => exact Store.cell_setCell_self there v
  | element view i => exact Store.element_setElement_self there.1 there.2 v
  | entry id key zero => exact congrArg (·.getD zero) (Store.mapLookup_mapInsert_self there key v)
  | field o place =>
      exact congrArg (·.getD .nil) (Store.fields_setFieldAt_self there.1 there.2 v)

end Location

/-! ## Storing over an old value -/

/-- Whether an integer is stored over a float. -/
def Value.floats (old v : Value) : Prop := ∃ x n, old = .float x ∧ v = .int n

theorem storedOver_none (old v : Value) : storedOver none old v = old.keepingFloat v := by
  unfold storedOver
  cases old.keepingFloat v <;> rfl

theorem storedOver_eq_iff (old v : Value) : storedOver none old v = v ↔ ¬ old.floats v := by
  rw [storedOver_none]
  constructor
  · rintro same ⟨x, n, rfl, rfl⟩
    cases same
  · intro plain
    unfold Value.keepingFloat
    split
    · exact absurd ⟨_, _, rfl, rfl⟩ plain
    · rfl

/-! ## Storing in a place -/

variable {ev : Evaluator} {scope : ScopeId} {m m' : Machine} {place : Place} {l : Location}
  {v : Value}

/-- The location that a place is. -/
inductive Place.Is (ev : Evaluator) (scope : ScopeId) (m : Machine) : Place → Location → Prop
  | named {name : String} {found : Variable} (known : name ≠ "_")
      (declared : m.store.resolve? scope name = some found) :
      Is ev scope m (.named name) (.named found)
  | element {container key : Value} {view : SliceView} {i : Nat}
      (slice : m.store.target container = .slice view)
      (index : (asIndex key view.length).run ev m = .ok i m) :
      Is ev scope m (.element container key) (.element view i)
  | entry {container key zero : Value} {id : MapId} {mapKey : MapKey}
      (map : m.store.target container = .map (some id) zero)
      (isKey : MapKey.ofValue? key = some mapKey) :
      Is ev scope m (.element container key) (.entry id mapKey zero)
  | field {base : Value} {o owner : StructId} {name : String} {place : Nat}
      (struct : base = .struct o ∨ base = .pointer o)
      (found : m.store.findField o name = some (some (owner, place))) :
      Is ev scope m (.field base name) (.field owner place)
  | pointee {c : CellId} : Is ev scope m (.pointee (.ref c)) (.pointee c)

theorem storeAt_run (is : place.Is ev scope m l) (v : Value) :
    (storeAt scope place v).run ev m =
      .ok () { m with store := l.write (storedOver l.width (l.old m.store) v) m.store } := by
  cases is with
  | named known declared => exact assignVariable_run known declared v
  | @element container key view i slice index =>
      have looked : (viewStore (·.target container)).run ev m = .ok (.slice view) m := by
        rw [← slice]
        rfl
      show (assignElement container key v).run ev m = _
      unfold assignElement
      rw [bind_run_ok looked]
      dsimp only [Location.width]
      rw [bind_run_ok index, storedOver_none]
      rfl
  | @entry container key zero id mapKey map isKey =>
      have looked : (viewStore (·.target container)).run ev m = .ok (.map (some id) zero) m := by
        rw [← map]
        rfl
      have keyed : (asKey key).run ev m = .ok mapKey m := by
        rw [asKey, isKey]
        rfl
      show (assignElement container key v).run ev m = _
      unfold assignElement
      rw [bind_run_ok looked]
      dsimp only [Location.width]
      rw [bind_run_ok keyed, storedOver_none]
      rfl
  | @field base o owner name place struct found =>
      have searched : (walkStore (·.findField o name)).run ev m = .ok (some (owner, place)) m := by
        have looked : (viewStore (·.findField o name)).run ev m =
            .ok (some (some (owner, place))) m := by
          rw [← found]
          rfl
        exact bind_run_ok looked _
      show (assignField base name v).run ev m = _
      rw [assignField_eq]
      dsimp only [Location.width]
      rw [storedOver_none]
      rcases struct with rfl | rfl
      · exact bind_run_ok searched _
      · exact bind_run_ok searched _
  | @pointee c =>
      dsimp only [Location.width]
      rw [storedOver_none]
      rfl

/-! ## What can be stored in -/

theorem asInt_ok {n : Int64} (ran : (asInt v).run ev m = .ok n m') : m' = m := by
  unfold asInt at ran
  dsimp only at ran
  split at ran
  · exact (pure_ok ran).2.symm
  · split at ran
    · exact (pure_ok ran).2.symm
    · obtain ⟨_, _, -, ran⟩ := bind_ok ran
      cases ran
  · obtain ⟨_, _, -, ran⟩ := bind_ok ran
    cases ran

theorem asIndex_ok {length i : Nat} (ran : (asIndex v length).run ev m = .ok i m') :
    (asIndex v length).run ev m = .ok i m := by
  obtain ⟨n, between, reading, checked⟩ := bind_ok ran
  obtain rfl := asInt_ok reading
  split at checked
  · cases checked
  · obtain ⟨-, rfl⟩ := pure_ok checked
    exact ran

theorem asKey_ok {key : MapKey} (ran : (asKey v).run ev m = .ok key m') :
    MapKey.ofValue? v = some key := by
  unfold asKey at ran
  split at ran
  · rename_i isKey
    rw [isKey, (pure_ok ran).1]
  · obtain ⟨_, _, -, ran⟩ := bind_ok ran
    cases ran

theorem walkStore_ok {α : Type} {f : Store → Option α} {a : α}
    (ran : (walkStore f).run ev m = .ok a m') : f m.store = some a := by
  obtain ⟨answer, between, looked, answered⟩ := bind_ok ran
  obtain ⟨rfl, rfl⟩ := EStateM.Result.ok.inj looked
  unfold ofWalk at answered
  split at answered
  · rename_i known
    exact known.trans (congrArg some (pure_ok answered).1)
  · cases answered

/-- What is stored in is the blank name, a location, or the struct behind a pointer. -/
theorem storeAt_ok (ran : (storeAt scope place v).run ev m = .ok () m') :
    place = .named "_" ∨ (∃ l, place.Is ev scope m l) ∨ ∃ d, place = .pointee (.pointer d) := by
  cases place with
  | named name =>
      by_cases blank : name = "_"
      · exact .inl (congrArg Place.named blank)
      · cases declared : m.store.resolve? scope name with
        | none =>
            have refused : (assignVariable name v scope).run ev m =
                .error (.signal (.error (.undefined name))) m := by
              unfold assignVariable
              rw [if_neg blank, bind_run_ok (resolve_run scope name m), declared]
              rfl
            exact absurd (refused.symm.trans ran) nofun
        | some found => exact .inr (.inl ⟨_, .named blank declared⟩)
  | element container key =>
      obtain ⟨target, between, looked, ran⟩ := bind_ok ran
      obtain ⟨rfl, rfl⟩ := EStateM.Result.ok.inj looked
      split at ran
      · rename_i view slice
        obtain ⟨i, _, index, -⟩ := bind_ok ran
        exact .inr (.inl ⟨_, .element slice (asIndex_ok index)⟩)
      · rename_i entries zero map
        obtain ⟨mapKey, _, keyed, ran⟩ := bind_ok ran
        cases entries with
        | none => cases ran
        | some id => exact .inr (.inl ⟨_, .entry map (asKey_ok keyed)⟩)
      · cases ran
      · cases ran
      · obtain ⟨_, _, -, ran⟩ := bind_ok ran
        cases ran
  | field base name =>
      change (assignField base name v).run ev m = _ at ran
      rw [assignField_eq] at ran
      cases base with
      | struct o | pointer o =>
          obtain ⟨found, between, searched, ran⟩ := bind_ok ran
          have answer := walkStore_ok searched
          cases found with
          | none => cases ran
          | some place => exact .inr (.inl ⟨_, .field (by simp) answer⟩)
      | nil => cases ran
      | _ =>
          obtain ⟨_, _, -, ran⟩ := bind_ok ran
          cases ran
  | pointee pointer =>
      cases pointer with
      | ref c => exact .inr (.inl ⟨_, .pointee⟩)
      | pointer d => exact .inr (.inr ⟨d, rfl⟩)
      | nil => cases ran
      | _ =>
          obtain ⟨_, _, -, ran⟩ := bind_ok ran
          cases ran

/-! ## Through pointers to structs -/

namespace Store

theorem type_setFields (o : StructId) (fields : Array Value) (s : Store) (d : StructId) :
    ((s.setFields o fields).structObject d).type = (s.structObject d).type := by
  unfold setFields structObject
  rw [Array.getElem?_modify]
  split
  · cases s.structs[d.index]? <;> rfl
  · rfl

end Store

theorem copiedAll_extends {values copies : List Value}
    (ran : (copiedAll values).run ev m = .ok copies m') : Store.Extends m.store m'.store := by
  unfold copiedAll at ran
  induction values generalizing copies m with
  | nil =>
      cases ran
      exact .refl _
  | cons v rest ih =>
      rw [List.mapM_cons, bind_run_ok (copied_run v ev m)] at ran
      obtain ⟨others, _, copying, ran⟩ := bind_ok ran
      cases ran
      exact (Store.extends_copied v m.store).trans (ih copying)

/-- Through a pointer to a struct only a struct can be stored, and the type stays the old one. -/
theorem storeAt_struct {d : StructId} (there : d.index < m.store.structs.size)
    (ran : (storeAt scope (.pointee (.pointer d)) v).run ev m = .ok () m') :
    (∃ o, v = .struct o ∨ v = .pointer o) ∧
      (m'.store.structObject d).type = (m.store.structObject d).type := by
  cases v with
  | struct o | pointer o =>
      refine ⟨⟨o, by simp⟩, ?_⟩
      unfold storeAt assignThrough at ran
      dsimp only at ran
      split at ran
      · rw [(pure_ok ran).2]
      · obtain ⟨object, between, looked, ran⟩ := bind_ok ran
        obtain ⟨rfl, rfl⟩ := EStateM.Result.ok.inj looked
        obtain ⟨fields, copied, copying, ran⟩ := bind_ok ran
        cases ran
        exact (Store.type_setFields d _ copied.store d).trans
          (congrArg StructObject.type ((copiedAll_extends copying).structObject there))
  | _ =>
      obtain ⟨_, _, -, ran⟩ := bind_ok ran
      cases ran

/-! ## Through names of the same scope -/

/-- A short declaration stores in a variable of its scope as if it were behind a pointer. -/
theorem defineNew_redeclares {name : String} {found : Variable} (known : name ≠ "_")
    (declared : m.store.localVariable? scope name = some found)
    (names : List String) (v : Value) (values : List Value) (width : Option IntWidth)
    (widths : List (Option IntWidth)) (anyNew : Bool) :
    (defineNew scope (name :: names) (v :: values) (width :: widths) anyNew).run ev m =
      (do
        storeAt scope (.pointee (.ref found.cell)) (← copied v)
        defineNew scope names values widths anyNew).run ev m := by
  have still : (Store.copied v m.store).2.localVariable? scope name = some found := by
    rw [← declared]
    unfold Store.localVariable?
    rw [(Store.extends_copied v m.store).scopes]
  have looked : (viewStore (·.localVariable? scope name)).run ev
      { m with store := (Store.copied v m.store).2 } =
        .ok (some found) { m with store := (Store.copied v m.store).2 } := by
    rw [← still]
    rfl
  rw [defineNew, if_neg known, bind_run_ok (copied_run v ev m), bind_run_ok looked,
    bind_run_ok (copied_run v ev m)]
  rfl

/-! ## All ways of assigning -/

/-- What assigning a value to a target, a name of the same scope or a result leaves. -/
structure AssignmentsLeave (ev : Evaluator) (scope : ScopeId) (m : Machine) (v : Value) :
    Prop where
  /-- An assignment stores in the place that its target stands for. -/
  targets {target : Source.Expr} {m' : Machine}
    (ran : (assign target v scope).run ev m = .ok () m') :
    ∃ place between, (placeOf target scope).run ev m = .ok place between ∧
      (storeAt scope place v).run ev between = .ok () m'
  /-- There are no places but the blank name, locations, and structs behind pointers. -/
  places {place : Place} {m' : Machine} (ran : (storeAt scope place v).run ev m = .ok () m') :
    place = .named "_" ∨ (∃ l, place.Is ev scope m l) ∨ ∃ d, place = .pointee (.pointer d)
  /-- A location without a declared width reads the value, unless that is an integer that was stored
  over a float.  An entry goes by the zero value of its map, which is nil if the elements are of an
  interface type; then it reads the value in any case. -/
  locations {place : Place} {l : Location} (is : place.Is ev scope m l) (there : l.In m.store) :
    ∃ m', (storeAt scope place v).run ev m = .ok () m' ∧
      l.read m'.store = storedOver l.width (l.old m.store) v ∧
      (l.width = none → (l.read m'.store = v ↔ ¬ (l.old m.store).floats v))
  structs {d : StructId} {m' : Machine} (there : d.index < m.store.structs.size)
    (ran : (storeAt scope (.pointee (.pointer d)) v).run ev m = .ok () m') :
    (∃ o, v = .struct o ∨ v = .pointer o) ∧
      (m'.store.structObject d).type = (m.store.structObject d).type
  /-- A short declaration stores in a variable of its scope as if it were behind a pointer. -/
  redeclared {name : String} {found : Variable} (known : name ≠ "_")
    (declared : m.store.localVariable? scope name = some found) (names : List String)
    (values : List Value) (width : Option IntWidth) (widths : List (Option IntWidth))
    (anyNew : Bool) :
    (defineNew scope (name :: names) (v :: values) (width :: widths) anyNew).run ev m =
      (do
        storeAt scope (.pointee (.ref found.cell)) (← copied v)
        defineNew scope names values widths anyNew).run ev m
  /-- A named result reads what is returned. -/
  results {name : String} {found : Variable}
    (declared : m.store.localVariable? scope name = some found)
    (there : found.cell.index < m.store.cells.size) :
    ∃ m', (assignResults scope [name] [v]).run ev m = .ok () m' ∧ m'.store.cell found.cell = v

/-- For every machine and value: whatever a place holds, it reads the value that was assigned to it
last, but that an integer over a float becomes a float, and that a pointer to a struct keeps the
type of the struct. -/
theorem assignments_leave (ev : Evaluator) (scope : ScopeId) (m : Machine) (v : Value) :
    AssignmentsLeave ev scope m v where
  targets ran := by
    rw [assign_eq] at ran
    exact bind_ok ran
  places := storeAt_ok
  locations is there := by
    refine ⟨_, storeAt_run is v, Location.read_write there _, fun plain => ?_⟩
    dsimp only
    rw [Location.read_write there, plain]
    exact storedOver_eq_iff _ v
  structs := storeAt_struct
  redeclared known declared names values width widths anyNew :=
    defineNew_redeclares known declared names v values width widths anyNew
  results {name found} declared there := by
    have looked : (viewStore (·.localVariable? scope name)).run ev m = .ok (some found) m := by
      rw [← declared]
      rfl
    refine ⟨{ m with store := m.store.setCell found.cell v }, ?_, Store.cell_setCell_self there v⟩
    rw [assignResults, bind_run_ok looked]
    rfl

end SandboxedGo
