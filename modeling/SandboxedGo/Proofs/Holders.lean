import SandboxedGo.Machine
import SandboxedGo.Store.Contents

/-!
# Holders of values

The contents of a struct or of an array lie in the store, where two values could refer to the same
ones.  Values are held by variables, fields, elements and entries, and by calls that are put off; a
method value holds the receiver that it is bound to.  A world is apart if no two of its holders have
a struct or an array with the same contents.  Values that move from the hand of a computation to
holders of their own leave it apart.
-/

set_option autoImplicit false

namespace SandboxedGo

/-! ## Keys -/

namespace MapKey

/-- What the order of keys tells apart. -/
def identity : MapKey → Bool ⊕ Int64 ⊕ Int ⊕ String
  | bool b => .inl b
  | int n => .inr (.inl n)
  | float f => .inr (.inr (.inl (floatRank f)))
  | string s => .inr (.inr (.inr s))

theorem compare_eq_iff (a b : MapKey) : compare a b = .eq ↔ a.identity = b.identity := by
  cases a <;> cases b <;> simp [compare, identity, kindRank]

instance : Std.OrientedCmp compare where
  eq_swap {a b} := by
    cases a <;> cases b <;>
      first
      | rfl
      | exact Std.OrientedOrd.eq_swap

instance : Std.TransCmp compare where
  isLE_trans {a b c} first second := by
    cases a <;> cases b <;> cases c <;>
      first
      | exact Std.TransOrd.isLE_trans first second
      | exact first
      | exact second
      | exact absurd first Bool.false_ne_true
      | exact absurd second Bool.false_ne_true

end MapKey

/-! ## Contents -/

/-- The contents of a struct or of an array. -/
inductive Storage
  | fields (o : StructId)
  | items (b : BackingId)
  deriving DecidableEq

namespace Value

/-- The contents that a value refers to in any way. -/
def object? : Value → Option Storage
  | .struct o | .pointer o => some (.fields o)
  | .slice view => some (.items view.backing)
  | _ => none

/-- The contents that a value is made of: those of a struct or of an array. -/
def storage? (v : Value) : Option Storage := if Store.hasContents v then v.object? else none

/-- The receiver that a method value is bound to. -/
def receiver? : Value → Option Value
  | .func (.method receiver _) => some receiver
  | _ => none

/-- The contents that the receiver of a method value is made of. -/
def bound? (v : Value) : Option Storage := v.receiver?.bind storage?

/-- The contents that a value or the receiver in it refers to. -/
def mentions (v : Value) : List Storage := v.object?.toList ++ (v.receiver?.bind object?).toList

theorem mem_mentions_of_storage {v : Value} {x : Storage} (is : v.storage? = some x) :
    x ∈ v.mentions := by
  unfold storage? at is
  split at is
  · simp [mentions, is]
  · cases is

theorem mem_mentions_of_bound {v : Value} {x : Storage} (is : v.bound? = some x) :
    x ∈ v.mentions := by
  obtain ⟨receiver, isReceiver, is⟩ := Option.bind_eq_some_iff.mp is
  unfold storage? at is
  split at is
  · simp [mentions, isReceiver, is]
  · cases is

theorem bound_ne_of_storage {v : Value} {x : Storage} (is : v.storage? = some x) (y : Storage) :
    v.bound? ≠ some y := by
  cases v with
  | func f => cases is
  | _ => exact nofun

/-- A value that refers to nothing. -/
def IsPlain (v : Value) : Prop := v.mentions = []

theorem IsPlain.storage_ne {v : Value} (plain : v.IsPlain) (x : Storage) :
    v.storage? ≠ some x := by
  intro is
  have mentioned := mem_mentions_of_storage is
  rw [plain] at mentioned
  exact List.not_mem_nil mentioned

theorem IsPlain.bound_ne {v : Value} (plain : v.IsPlain) (x : Storage) : v.bound? ≠ some x := by
  intro is
  have mentioned := mem_mentions_of_bound is
  rw [plain] at mentioned
  exact List.not_mem_nil mentioned

/-- No two values of a list are a struct or an array with the same contents. -/
def Unshared (values : List Value) : Prop :=
  values.Pairwise fun a b => ∀ x, a.storage? = some x → b.storage? ≠ some x

theorem Unshared.perm {values moved : List Value} (perm : moved.Perm values)
    (unshared : Unshared values) : Unshared moved :=
  (perm.pairwise_iff fun one x is is' => one x is' is).mpr unshared

theorem Unshared.place_eq {values : List Value} (unshared : Unshared values) {i j : Nat}
    {u u' : Value} {x : Storage} (at_ : values[i]? = some u) (at' : values[j]? = some u')
    (is : u.storage? = some x) (is' : u'.storage? = some x) : i = j := by
  obtain ⟨inside, rfl⟩ := List.getElem?_eq_some_iff.mp at_
  obtain ⟨inside', rfl⟩ := List.getElem?_eq_some_iff.mp at'
  have apart := List.pairwise_iff_getElem.mp unshared
  rcases Nat.lt_trichotomy i j with less | same | more
  · exact absurd is' (apart i j inside inside' less x is)
  · exact same
  · exact absurd is (apart j i inside' inside more x is')

end Value

namespace Store

/-- Whether the contents exist. -/
def Has (s : Store) : Storage → Prop
  | .fields o => o.index < s.structs.size
  | .items b => b.index < s.backings.size

/-- The values that contents consist of. -/
def parts (s : Store) : Storage → List Value
  | .fields o => (s.structObject o).fields.toList
  | .items b => (s.backing b).toList

end Store

/-! ## Holders -/

/-- What holds a value. -/
inductive Holder
  | cell (c : CellId)
  | field (o : StructId) (place : Nat)
  | element (b : BackingId) (place : Nat)
  | entry (m : MapId) (key : Bool ⊕ Int64 ⊕ Int ⊕ String)
  /-- A call that is put off holds its function and its arguments. -/
  | pending (place : Nat)
  /-- A computation holds the results that it has not stored yet. -/
  | hand (place : Nat)

/-- What the holders in a store hold. -/
inductive Store.HoldsAt (s : Store) : Holder → Value → Prop
  | cell {c : CellId} {v : Value} (is : s.cells[c.index]? = some v) : HoldsAt s (.cell c) v
  | field {o : StructId} {object : StructObject} {place : Nat} {v : Value}
      (stored : s.structs[o.index]? = some object) (is : object.fields[place]? = some v) :
      HoldsAt s (.field o place) v
  | element {b : BackingId} {items : Array Value} {place : Nat} {v : Value}
      (stored : s.backings[b.index]? = some items) (is : items[place]? = some v) :
      HoldsAt s (.element b place) v
  | entry {m : MapId} {entries : MapEntries} {key : MapKey} {v : Value}
      (stored : s.maps[m.index]? = some entries) (is : entries[key]? = some v) :
      HoldsAt s (.entry m key.identity) v

/-- Who holds a part of the contents. -/
def Storage.place : Storage → Nat → Holder
  | fields o => .field o
  | items b => .element b

namespace Store

theorem mem_parts_iff {s : Store} {x : Storage} {part : Value} :
    part ∈ s.parts x ↔ ∃ i, s.HoldsAt (x.place i) part := by
  rw [List.mem_iff_getElem?]
  refine exists_congr fun i => ⟨fun is => ?_, fun holds => ?_⟩
  · cases x with
    | fields o =>
        cases stored : s.structs[o.index]? with
        | none => simp [parts, structObject, stored] at is
        | some object =>
            rw [parts, structObject, stored, Option.getD_some, Array.getElem?_toList] at is
            exact .field stored is
    | items b =>
        cases stored : s.backings[b.index]? with
        | none => simp [parts, backing, stored] at is
        | some items =>
            rw [parts, backing, stored, Option.getD_some, Array.getElem?_toList] at is
            exact .element stored is
  · cases x with
    | fields o =>
        cases holds with
        | field stored is =>
            rwa [parts, structObject, stored, Option.getD_some, Array.getElem?_toList]
    | items b =>
        cases holds with
        | element stored is =>
            rwa [parts, backing, stored, Option.getD_some, Array.getElem?_toList]

/-! ### After a change of the store -/

variable {s : Store} {h : Holder} {u v : Value}

theorem holdsAt_pushCell {scopes : Array Scope}
    (holds : HoldsAt { s with cells := s.cells.push v, scopes } h u) :
    s.HoldsAt h u ∨ h = .cell ⟨s.cells.size⟩ ∧ u = v := by
  cases holds with
  | @cell c _ is =>
      rw [Array.getElem?_push] at is
      split at is
      · rename_i last
        exact .inr ⟨by rw [← last], (Option.some.inj is).symm⟩
      · exact .inl (.cell is)
  | field stored is => exact .inl (.field stored is)
  | element stored is => exact .inl (.element stored is)
  | entry stored is => exact .inl (.entry stored is)

theorem HoldsAt.pushCell {scopes : Array Scope} (holds : s.HoldsAt h u) (v : Value) :
    HoldsAt { s with cells := s.cells.push v, scopes } h u ∧ h ≠ .cell ⟨s.cells.size⟩ := by
  cases holds with
  | @cell c _ is =>
      have inside := (Array.getElem?_eq_some_iff.mp is).1
      refine ⟨.cell ?_, ?_⟩
      · rw [Array.getElem?_push_lt inside, ← Array.getElem?_eq_getElem inside]
        exact is
      · rintro ⟨⟩
        exact Nat.lt_irrefl _ inside
  | field stored is => exact ⟨.field stored is, nofun⟩
  | element stored is => exact ⟨.element stored is, nofun⟩
  | entry stored is => exact ⟨.entry stored is, nofun⟩

theorem holdsAt_setCell {c : CellId} (holds : (s.setCell c v).HoldsAt h u) :
    s.HoldsAt h u ∨ h = .cell c ∧ u = v := by
  cases holds with
  | @cell c' _ is =>
      rw [setCell, Array.getElem?_setIfInBounds] at is
      split at is
      · rename_i same
        split at is
        · obtain ⟨i⟩ := c
          obtain ⟨i'⟩ := c'
          obtain rfl : i = i' := same
          exact .inr ⟨rfl, (Option.some.inj is).symm⟩
        · cases is
      · exact .inl (.cell is)
  | field stored is => exact .inl (.field stored is)
  | element stored is => exact .inl (.element stored is)
  | entry stored is => exact .inl (.entry stored is)

theorem HoldsAt.setCell {c : CellId} (holds : s.HoldsAt h u) (other : h ≠ .cell c) (v : Value) :
    (s.setCell c v).HoldsAt h u := by
  cases holds with
  | @cell c' _ is =>
      refine .cell ?_
      have different : c.index ≠ c'.index := by
        rintro same
        cases c
        cases c'
        exact other (congrArg (Holder.cell ⟨·⟩) same.symm)
      rw [Store.setCell, Array.getElem?_setIfInBounds_ne different]
      exact is
  | field stored is => exact .field stored is
  | element stored is => exact .element stored is
  | entry stored is => exact .entry stored is

theorem holdsAt_newBacking {items : Array Value} (holds : (s.newBacking items).2.HoldsAt h u) :
    s.HoldsAt h u ∨ ∃ i, h = .element ⟨s.backings.size⟩ i ∧ items[i]? = some u := by
  cases holds with
  | cell is => exact .inl (.cell is)
  | field stored is => exact .inl (.field stored is)
  | @element b items' place _ stored is =>
      rw [newBacking, Array.getElem?_push] at stored
      split at stored
      · rename_i last
        cases stored
        exact .inr ⟨place, by rw [← last], is⟩
      · exact .inl (.element stored is)
  | entry stored is => exact .inl (.entry stored is)

theorem holdsAt_newStruct {type : StructDef} {fields : Array Value}
    (holds : (s.newStruct type fields).2.HoldsAt h u) :
    s.HoldsAt h u ∨ ∃ i, h = .field ⟨s.structs.size⟩ i ∧ fields[i]? = some u := by
  cases holds with
  | cell is => exact .inl (.cell is)
  | @field o object place _ stored is =>
      rw [newStruct, Array.getElem?_push] at stored
      split at stored
      · rename_i last
        cases stored
        exact .inr ⟨place, by rw [← last], is⟩
      · exact .inl (.field stored is)
  | element stored is => exact .inl (.element stored is)
  | entry stored is => exact .inl (.entry stored is)

theorem holdsAt_modifyBacking {b : BackingId} {f : Array Value → Array Value}
    (holds : HoldsAt { s with backings := s.backings.modify b.index f } h u) :
    (s.HoldsAt h u ∧ ∀ i, h ≠ .element b i) ∨
      ∃ items i, s.backings[b.index]? = some items ∧ h = .element b i ∧ (f items)[i]? = some u := by
  cases holds with
  | cell is => exact .inl ⟨.cell is, nofun⟩
  | field stored is => exact .inl ⟨.field stored is, nofun⟩
  | @element b' items' place _ stored is =>
      rw [Array.getElem?_modify] at stored
      split at stored
      · rename_i same
        obtain ⟨items, before, rfl⟩ := Option.map_eq_some_iff.mp stored
        obtain ⟨i⟩ := b
        obtain ⟨i'⟩ := b'
        obtain rfl : i = i' := same
        exact .inr ⟨items, place, before, rfl, is⟩
      · rename_i other
        refine .inl ⟨.element stored is, ?_⟩
        rintro _ ⟨⟩
        exact other rfl
  | entry stored is => exact .inl ⟨.entry stored is, nofun⟩

theorem holdsAt_modifyStruct {o : StructId} {f : StructObject → StructObject}
    (holds : HoldsAt { s with structs := s.structs.modify o.index f } h u) :
    s.HoldsAt h u ∨ ∃ object i, s.structs[o.index]? = some object ∧ h = .field o i ∧
      (f object).fields[i]? = some u := by
  cases holds with
  | cell is => exact .inl (.cell is)
  | @field o' object' place _ stored is =>
      rw [Array.getElem?_modify] at stored
      split at stored
      · rename_i same
        obtain ⟨object, before, rfl⟩ := Option.map_eq_some_iff.mp stored
        obtain ⟨i⟩ := o
        obtain ⟨i'⟩ := o'
        obtain rfl : i = i' := same
        exact .inr ⟨object, place, before, rfl, is⟩
      · exact .inl (.field stored is)
  | element stored is => exact .inl (.element stored is)
  | entry stored is => exact .inl (.entry stored is)

theorem holdsAt_mapInsert {m : MapId} {key : MapKey} (holds : (s.mapInsert m key v).HoldsAt h u) :
    s.HoldsAt h u ∨ h = .entry m key.identity ∧ u = v := by
  cases holds with
  | cell is => exact .inl (.cell is)
  | field stored is => exact .inl (.field stored is)
  | element stored is => exact .inl (.element stored is)
  | @entry m' entries' key' _ stored is =>
      rw [mapInsert, Array.getElem?_modify] at stored
      split at stored
      · rename_i same
        obtain ⟨entries, before, rfl⟩ := Option.map_eq_some_iff.mp stored
        obtain ⟨i⟩ := m
        obtain ⟨i'⟩ := m'
        obtain rfl : i = i' := same
        rw [Std.TreeMap.getElem?_insert] at is
        split at is
        · rename_i equal
          rw [(MapKey.compare_eq_iff key key').mp equal]
          exact .inr ⟨rfl, (Option.some.inj is).symm⟩
        · exact .inl (.entry before is)
      · exact .inl (.entry stored is)

theorem holdsAt_newMap (holds : s.newMap.2.HoldsAt h u) : s.HoldsAt h u := by
  cases holds with
  | cell is => exact .cell is
  | field stored is => exact .field stored is
  | element stored is => exact .element stored is
  | entry stored is =>
      rw [newMap, Array.getElem?_push] at stored
      split at stored
      · cases stored
        simp at is
      · exact .entry stored is

/-- Removing entries leaves only entries that were there. -/
theorem holdsAt_fewerEntries {m : MapId} {f : MapEntries → MapEntries}
    (fewer : ∀ (entries : MapEntries) (key : MapKey) (v : Value),
      (f entries)[key]? = some v → entries[key]? = some v)
    (holds : HoldsAt { s with maps := s.maps.modify m.index f } h u) : s.HoldsAt h u := by
  cases holds with
  | cell is => exact .cell is
  | field stored is => exact .field stored is
  | element stored is => exact .element stored is
  | entry stored is =>
      rw [Array.getElem?_modify] at stored
      split at stored
      · obtain ⟨entries, before, rfl⟩ := Option.map_eq_some_iff.mp stored
        exact .entry before (fewer entries _ _ is)
      · exact .entry stored is

theorem holdsAt_mapErase {m : MapId} {key : MapKey} (holds : (s.mapErase m key).HoldsAt h u) :
    s.HoldsAt h u := by
  refine holdsAt_fewerEntries (fun entries other v is => ?_) holds
  rw [Std.TreeMap.getElem?_erase] at is
  split at is
  · cases is
  · exact is

theorem holdsAt_mapClear {m : MapId} (holds : (s.mapClear m).HoldsAt h u) : s.HoldsAt h u :=
  holdsAt_fewerEntries (fun entries key v is => by simp at is) holds

end Store

/-- A store with the values around it. -/
structure World where
  store : Store
  /-- The functions and the arguments of the calls that are put off. -/
  pending : List Value
  /-- The results that are not stored yet. -/
  hand : List Value := []
  /-- The values that a computation only looks at. -/
  shown : List Value := []

namespace World

/-- What the holders of a world hold. -/
inductive Holds (W : World) : Holder → Value → Prop
  | stored {h : Holder} {v : Value} (holds : W.store.HoldsAt h v) : Holds W h v
  | pending {place : Nat} {v : Value} (is : W.pending[place]? = some v) :
      Holds W (.pending place) v
  | hand {place : Nat} {v : Value} (is : W.hand[place]? = some v) : Holds W (.hand place) v

/-- A value that is held or looked at. -/
def Knows (W : World) (v : Value) : Prop := (∃ h, W.Holds h v) ∨ v ∈ W.shown

/-- A value that a computation may look at: one that the world knows, or a reference to something
that exists. -/
def MayShow (W : World) (v : Value) : Prop :=
  W.Knows v ∨ v.bound? = none ∧ ∀ x ∈ v.mentions, W.store.Has x

/-- No two holders have a struct or an array with the same contents, and no method value is bound to
the contents that a holder has. -/
structure Apart (W : World) : Prop where
  unshared {h h' : Holder} {v v' : Value} {x : Storage} : W.Holds h v → W.Holds h' v' →
    v.storage? = some x → v'.storage? = some x → h = h'
  unbound {h : Holder} {v w : Value} {x : Storage} : W.Holds h v → v.storage? = some x →
    W.Knows w → w.bound? ≠ some x

/-- A world that is apart, and whose values refer to contents that exist. -/
structure Sound (W : World) : Prop extends Apart W where
  exist {v : Value} {x : Storage} : W.Knows v → x ∈ v.mentions → W.store.Has x

/-- A world holds nothing but what a sound world holds, each struct and each array once. -/
theorem Sound.of_held {W W' : World} (sound : W.Sound)
    (held : ∀ h u, W'.Holds h u → u.IsPlain ∨ ∃ g, W.Holds g u) (shown : W'.shown = W.shown)
    (has : ∀ x, W.store.Has x → W'.store.Has x)
    (unshared : ∀ h h' u u' x, W'.Holds h u → W'.Holds h' u' → u.storage? = some x →
      u'.storage? = some x → h = h') : W'.Sound := by
  have known {u : Value} (knows : W'.Knows u) : u.IsPlain ∨ W.Knows u := by
    rcases knows with ⟨h, holds⟩ | isShown
    · exact (held h u holds).imp_right .inl
    · exact .inr (.inr (shown ▸ isShown))
  refine ⟨⟨fun holds holds' => unshared _ _ _ _ _ holds holds', ?_⟩, ?_⟩
  · intro h u w x holds is knows bound
    rcases known knows with plain | knew
    · exact plain.bound_ne x bound
    · rcases held h u holds with plain | ⟨g, before⟩
      · exact plain.storage_ne x is
      · exact sound.unbound before is knew bound
  · intro u x knows mentioned
    rcases known knows with plain | knew
    · rw [plain] at mentioned
      exact absurd mentioned List.not_mem_nil
    · exact has x (sound.exist knew mentioned)

/-! ## Values change hands -/

/-- Whatever the holders of a world hold came from an earlier world, where they held it themselves,
or where it was in the hand, at the place `first + i` for `slot i`. -/
def Moves (W W' : World) (first : Nat) (slot : Nat → Holder) : Prop :=
  ∀ h u, W'.Holds h u → u.IsPlain ∨ (W.Holds h u ∧ ∀ i, h ≠ .hand (first + i)) ∨
    ∃ i, h = slot i ∧ W.Holds (.hand (first + i)) u

section

variable {W W' : World} {first : Nat} {slot : Nat → Holder}

theorem Moves.held (moves : Moves W W' first slot) {h : Holder} {u : Value}
    (holds : W'.Holds h u) : u.IsPlain ∨ ∃ g, W.Holds g u := by
  rcases moves h u holds with plain | ⟨before, -⟩ | ⟨i, -, before⟩
  · exact .inl plain
  · exact .inr ⟨_, before⟩
  · exact .inr ⟨_, before⟩

theorem Moves.known (moves : Moves W W' first slot) (shown : W'.shown = W.shown) {u : Value}
    (knows : W'.Knows u) : u.IsPlain ∨ W.Knows u := by
  rcases knows with ⟨h, holds⟩ | isShown
  · exact (moves.held holds).imp_right .inl
  · exact .inr (.inr (shown ▸ isShown))

/-- Values that move from the hand to holders of their own leave a world sound. -/
theorem Sound.of_moves (sound : W.Sound) (moves : Moves W W' first slot)
    (shown : W'.shown = W.shown) (has : ∀ x, W.store.Has x → W'.store.Has x) : W'.Sound := by
  refine sound.of_held (fun h u => moves.held) shown has ?_
  intro h h' u u' x holds holds' is is'
  rcases moves h u holds with plain | ⟨before, other⟩ | ⟨i, at_, before⟩
  · exact absurd is (plain.storage_ne x)
  · rcases moves h' u' holds' with plain | ⟨before', -⟩ | ⟨i', -, before'⟩
    · exact absurd is' (plain.storage_ne x)
    · exact sound.unshared before before' is is'
    · exact absurd (sound.unshared before before' is is') (other i')
  · rcases moves h' u' holds' with plain | ⟨before', other⟩ | ⟨i', at', before'⟩
    · exact absurd is' (plain.storage_ne x)
    · exact absurd (sound.unshared before' before is' is) (other i)
    · have same := sound.unshared before before' is is'
      obtain rfl : i = i' := by
        have places := Holder.hand.inj same
        omega
      rw [at_, at']

end

section

variable {s s' : Store} {pending moved rest shown : List Value} {v : Value} {slot : Nat → Holder}

/-- Results in the hand are put into holders in the store, or are dropped. -/
theorem moves_stored (shown : List Value)
    (stored : ∀ h u, s'.HoldsAt h u → u.IsPlain ∨ s.HoldsAt h u ∨
      ∃ i, h = slot i ∧ moved[i]? = some u) :
    Moves ⟨s, pending, rest ++ moved, shown⟩ ⟨s', pending, rest, shown⟩ rest.length slot := by
  intro h u holds
  cases holds with
  | stored holds =>
      rcases stored h u holds with plain | before | ⟨i, at_, is⟩
      · exact .inl plain
      · refine .inr (.inl ⟨.stored before, ?_⟩)
        rintro i rfl
        cases before
      · refine .inr (.inr ⟨i, at_, .hand ?_⟩)
        rw [List.getElem?_append_right (Nat.le_add_right _ _), Nat.add_sub_cancel_left]
        exact is
  | pending is => exact .inr (.inl ⟨.pending is, nofun⟩)
  | hand is =>
      have inside := (List.getElem?_eq_some_iff.mp is).1
      refine .inr (.inl ⟨.hand ((List.getElem?_append_left inside).trans is), ?_⟩)
      intro i same
      cases same
      exact absurd inside (Nat.not_lt.mpr (Nat.le_add_right rest.length i))

/-- Results in the hand become the function and the arguments of a call that is put off. -/
theorem moves_pending (s : Store) (pending moved shown : List Value) :
    Moves ⟨s, pending, moved, shown⟩ ⟨s, pending ++ moved, [], shown⟩ 0
      fun i => .pending (pending.length + i) := by
  intro h u holds
  cases holds with
  | stored holds =>
      refine .inr (.inl ⟨.stored holds, ?_⟩)
      rintro i rfl
      cases holds
  | @pending place _ is =>
      rcases Nat.lt_or_ge place pending.length with inside | beyond
      · exact .inr (.inl ⟨.pending ((List.getElem?_append_left inside).symm.trans is), nofun⟩)
      · rw [List.getElem?_append_right beyond] at is
        refine .inr (.inr ⟨place - pending.length, ?_, .hand ?_⟩)
        · exact congrArg Holder.pending (Nat.add_sub_cancel' beyond).symm
        · rwa [Nat.zero_add]
  | hand is => cases is

theorem Sound.move (sound : Sound ⟨s, pending, rest ++ moved, shown⟩) (slot : Nat → Holder)
    (stored : ∀ h u, s'.HoldsAt h u → u.IsPlain ∨ s.HoldsAt h u ∨
      ∃ i, h = slot i ∧ moved[i]? = some u)
    (has : ∀ x, s.Has x → s'.Has x) : Sound ⟨s', pending, rest, shown⟩ :=
  sound.of_moves (moves_stored shown stored) rfl has

theorem Sound.unshared_of_held {values : List Value} (sound : Sound ⟨s, pending, rest, shown⟩)
    (slot : Nat → Holder) (distinct : ∀ i j, slot i = slot j → i = j)
    (held : ∀ i u, values[i]? = some u → u.IsPlain ∨ s.HoldsAt (slot i) u) :
    Value.Unshared values := by
  refine List.pairwise_iff_getElem.mpr fun i j inside inside' before x is is' => ?_
  rcases held i _ (List.getElem?_eq_getElem inside) with plain | holds
  · exact plain.storage_ne x is
  · rcases held j _ (List.getElem?_eq_getElem inside') with plain | holds'
    · exact plain.storage_ne x is'
    · have same := distinct i j (sound.unshared (.stored holds) (.stored holds') is is')
      omega

theorem Sound.reorder {values : List Value} (sound : Sound ⟨s, pending, rest, shown⟩)
    (slot : Nat → Holder) (distinct : ∀ i j, slot i = slot j → i = j)
    (held : ∀ i u, values[i]? = some u → u.IsPlain ∨ s.HoldsAt (slot i) u)
    (perm : moved.Perm values)
    (stored : ∀ h u, s'.HoldsAt h u → u.IsPlain ∨
      (s.HoldsAt h u ∧ ∀ i < moved.length, h ≠ slot i) ∨ ∃ i, h = slot i ∧ moved[i]? = some u)
    (has : ∀ x, s.Has x → s'.Has x) : Sound ⟨s', pending, rest, shown⟩ := by
  have unshared : Value.Unshared moved :=
    .perm perm (sound.unshared_of_held slot distinct held)
  have before {h : Holder} {u : Value} (holds : Holds ⟨s', pending, rest, shown⟩ h u) :
      u.IsPlain ∨ (Holds ⟨s, pending, rest, shown⟩ h u ∧
        ∀ i < moved.length, ∀ w, s.HoldsAt (slot i) w → h ≠ slot i) ∨
        ∃ i, (h = slot i ∧ moved[i]? = some u) ∧ ∃ j < moved.length, s.HoldsAt (slot j) u := by
    cases holds with
    | stored holds =>
        rcases stored h u holds with plain | ⟨before, other⟩ | ⟨i, at_, is⟩
        · exact .inl plain
        · exact .inr (.inl ⟨.stored before, fun i inside _ _ => other i inside⟩)
        · obtain ⟨j, was⟩ := List.mem_iff_getElem?.mp (perm.mem_iff.mp (List.mem_of_getElem? is))
          have inside := (List.getElem?_eq_some_iff.mp was).1
          exact (held j u was).imp_right fun holds =>
            .inr ⟨i, ⟨at_, is⟩, j, perm.length_eq ▸ inside, holds⟩
    | pending is => exact .inr (.inl ⟨.pending is, fun i _ w holds same => nomatch same ▸ holds⟩)
    | hand is => exact .inr (.inl ⟨.hand is, fun i _ w holds same => nomatch same ▸ holds⟩)
  refine sound.of_held (fun h u holds => ?_) rfl has ?_
  · rcases before holds with plain | ⟨was, -⟩ | ⟨i, -, j, -, was⟩
    · exact .inl plain
    · exact .inr ⟨h, was⟩
    · exact .inr ⟨slot j, .stored was⟩
  · intro h h' u u' x holds holds' is is'
    rcases before holds with plain | ⟨was, other⟩ | ⟨i, ⟨rfl, at_⟩, j, inside, was⟩
    · exact absurd is (plain.storage_ne x)
    · rcases before holds' with plain | ⟨was', -⟩ | ⟨i', -, j', inside', was'⟩
      · exact absurd is' (plain.storage_ne x)
      · exact sound.unshared was was' is is'
      · exact absurd (sound.unshared was (.stored was') is is') (other j' inside' u' was')
    · rcases before holds' with plain | ⟨was', other⟩ | ⟨i', ⟨rfl, at'⟩, -⟩
      · exact absurd is' (plain.storage_ne x)
      · exact absurd (sound.unshared was' (.stored was) is' is) (other j inside u was)
      · rw [unshared.place_eq at_ at' is is']

/-- If the world that has values in holders of their own is apart, it was apart with these values in
the hand. -/
theorem Apart.of_placed {later : List Value} (apart : Apart ⟨s', later, [], []⟩)
    (slot : Nat → Holder)
    (kept : ∀ h u, Holds ⟨s, pending, [], []⟩ h u →
      u.IsPlain ∨ Holds ⟨s', later, [], []⟩ h u ∧ ∀ i, h ≠ slot i)
    (placed : ∀ i u, moved[i]? = some u → u.IsPlain ∨ Holds ⟨s', later, [], []⟩ (slot i) u)
    (distinct : ∀ i j, i < moved.length → j < moved.length → slot i = slot j → i = j) :
    Apart ⟨s, pending, moved, []⟩ := by
  have after {h : Holder} {u : Value} (holds : Holds ⟨s, pending, moved, []⟩ h u) : u.IsPlain ∨
      (Holds ⟨s', later, [], []⟩ h u ∧ ∀ i, h ≠ slot i) ∨
      ∃ i, (h = .hand i ∧ i < moved.length) ∧ Holds ⟨s', later, [], []⟩ (slot i) u := by
    cases holds with
    | stored holds => exact (kept h u (.stored holds)).imp_right .inl
    | pending is => exact (kept _ u (.pending is)).imp_right .inl
    | @hand i _ is =>
        have inside := (List.getElem?_eq_some_iff.mp is).1
        exact (placed i u is).imp_right fun holds => .inr ⟨i, ⟨rfl, inside⟩, holds⟩
  constructor
  · intro h h' u u' x holds holds' is is'
    rcases after holds with plain | ⟨stays, other⟩ | ⟨i, ⟨at_, inside⟩, stays⟩
    · exact absurd is (plain.storage_ne x)
    · rcases after holds' with plain | ⟨stays', -⟩ | ⟨i', -, stays'⟩
      · exact absurd is' (plain.storage_ne x)
      · exact apart.unshared stays stays' is is'
      · exact absurd (apart.unshared stays stays' is is') (other i')
    · rcases after holds' with plain | ⟨stays', other⟩ | ⟨i', ⟨at', inside'⟩, stays'⟩
      · exact absurd is' (plain.storage_ne x)
      · exact absurd (apart.unshared stays' stays is' is) (other i)
      · rw [at_, at', distinct i i' inside inside' (apart.unshared stays stays' is is')]
  · intro h u w x holds is knows bound
    have laterKnows : w.IsPlain ∨ Knows ⟨s', later, [], []⟩ w := by
      rcases knows with ⟨g, holds⟩ | isShown
      · rcases after holds with plain | ⟨stays, -⟩ | ⟨i, -, stays⟩
        · exact .inl plain
        · exact .inr (.inl ⟨_, stays⟩)
        · exact .inr (.inl ⟨_, stays⟩)
      · cases isShown
    rcases laterKnows with plain | knows
    · exact plain.bound_ne x bound
    · rcases after holds with plain | ⟨stays, -⟩ | ⟨i, -, stays⟩
      · exact plain.storage_ne x is
      · exact apart.unbound stays is knows bound
      · exact apart.unbound stays is knows bound

/-- Values that exist may be taken into the hand where that leaves the world apart. -/
theorem Apart.sound (apart : Apart ⟨s, pending, moved, []⟩)
    (sound : Sound ⟨s, pending, [], shown⟩)
    (exist : ∀ v ∈ moved, ∀ x ∈ v.mentions, s.Has x) : Sound ⟨s, pending, moved, []⟩ := by
  refine ⟨apart, fun {u x} knows mentioned => ?_⟩
  rcases knows with ⟨h, holds⟩ | isShown
  · cases holds with
    | stored holds => exact sound.exist (.inl ⟨h, .stored holds⟩) mentioned
    | pending is => exact sound.exist (.inl ⟨_, .pending is⟩) mentioned
    | hand is => exact exist u (List.mem_of_getElem? is) x mentioned
  · cases isShown

theorem holds_concat {h : Holder} {u : Value}
    (holds : Holds ⟨s, pending, rest ++ [v], shown⟩ h u) :
    Holds ⟨s, pending, rest, shown⟩ h u ∨ h = .hand rest.length ∧ u = v := by
  cases holds with
  | stored holds => exact .inl (.stored holds)
  | pending is => exact .inl (.pending is)
  | @hand place _ is =>
      rcases Nat.lt_or_ge place rest.length with inside | beyond
      · rw [List.getElem?_append_left inside] at is
        exact .inl (.hand is)
      · rw [List.getElem?_append_right beyond, List.getElem?_singleton] at is
        split at is
        · rename_i last
          obtain rfl : place = rest.length := by omega
          exact .inr ⟨rfl, (Option.some.inj is).symm⟩
        · cases is

/-- A value whose contents nobody refers to may be taken into the hand. -/
theorem Sound.take (sound : Sound ⟨s, pending, rest, shown⟩) (exist : ∀ x ∈ v.mentions, s.Has x)
    (own : ∀ x, v.storage? = some x → ∀ w, Knows ⟨s, pending, rest, shown⟩ w → x ∉ w.mentions)
    (free : ∀ h u x, Holds ⟨s, pending, rest, shown⟩ h u → u.storage? = some x →
      v.bound? ≠ some x) :
    Sound ⟨s, pending, rest ++ [v], shown⟩ := by
  have known : ∀ u, Knows ⟨s, pending, rest ++ [v], shown⟩ u →
      Knows ⟨s, pending, rest, shown⟩ u ∨ u = v := by
    rintro u (⟨h, holds⟩ | isShown)
    · rcases holds_concat holds with before | ⟨-, is⟩
      · exact .inl (.inl ⟨h, before⟩)
      · exact .inr is
    · exact .inl (.inr isShown)
  refine ⟨⟨?_, ?_⟩, ?_⟩
  · intro h h' u u' x holds holds' is is'
    rcases holds_concat holds with before | ⟨at_, rfl⟩
    · rcases holds_concat holds' with before' | ⟨-, rfl⟩
      · exact sound.unshared before before' is is'
      · exact absurd (Value.mem_mentions_of_storage is) (own x is' u (.inl ⟨h, before⟩))
    · rcases holds_concat holds' with before' | ⟨at', -⟩
      · exact absurd (Value.mem_mentions_of_storage is') (own x is u' (.inl ⟨h', before'⟩))
      · rw [at_, at']
  · intro h u w x holds is knows bound
    rcases known w knows with knew | rfl
    · rcases holds_concat holds with before | ⟨-, rfl⟩
      · exact sound.unbound before is knew bound
      · exact own x is w knew (Value.mem_mentions_of_bound bound)
    · rcases holds_concat holds with before | ⟨-, rfl⟩
      · exact free h u x before is bound
      · exact Value.bound_ne_of_storage is x bound
  · intro u x knows mentioned
    rcases known u knows with knew | rfl
    · exact sound.exist knew mentioned
    · exact exist x mentioned

theorem Holds.whatever {h : Holder} {u : Value} (holds : Holds ⟨s, pending, rest, shown⟩ h u)
    (others : List Value) : Holds ⟨s, pending, rest, others⟩ h u := by
  cases holds with
  | stored holds => exact .stored holds
  | pending is => exact .pending is
  | hand is => exact .hand is

theorem mayShow_of_plain {W : World} (plain : v.IsPlain) : W.MayShow v := by
  refine .inr ⟨Option.eq_none_iff_forall_ne_some.mpr plain.bound_ne, fun x mentioned => ?_⟩
  rw [plain] at mentioned
  exact absurd mentioned List.not_mem_nil

theorem Sound.look {others : List Value} (sound : Sound ⟨s, pending, rest, shown⟩)
    (may : ∀ u ∈ others, MayShow ⟨s, pending, rest, shown⟩ u) :
    Sound ⟨s, pending, rest, others⟩ := by
  have known : ∀ u, Knows ⟨s, pending, rest, others⟩ u →
      MayShow ⟨s, pending, rest, shown⟩ u := by
    rintro u (⟨h, holds⟩ | isShown)
    · exact .inl (.inl ⟨h, holds.whatever shown⟩)
    · exact may u isShown
  refine ⟨⟨?_, ?_⟩, ?_⟩
  · intro h h' u u' x holds holds'
    exact sound.unshared (holds.whatever shown) (holds'.whatever shown)
  · intro h u w x holds is knows
    rcases known w knows with knew | ⟨unbound, -⟩
    · exact sound.unbound (holds.whatever shown) is knew
    · rw [unbound]
      exact nofun
  · intro u x knows mentioned
    rcases known u knows with knew | ⟨-, exist⟩
    · exact sound.exist knew mentioned
    · exact exist x mentioned

end

end World

end SandboxedGo
