import SandboxedGo.Proofs.Holders

/-!
# Copies are values of their own

A copy of a struct or of an array consists of objects that were not there before, down to the values
that are shared by design.  It is complete because a value is never nested deeper than there are
structs and backing arrays; this in turn stays true because only copies, whose objects are new, are
stored in objects that are there already.
-/

set_option autoImplicit false

namespace SandboxedGo

namespace Store

/-! ## Later stores -/

/-- A store with more objects; those that were there before are as they were. -/
structure Extends (s s' : Store) : Prop where
  cells : s'.cells = s.cells
  scopes : s'.scopes = s.scopes
  maps : s'.maps = s.maps
  backings {i : Nat} {items : Array Value} : s.backings[i]? = some items →
    s'.backings[i]? = some items
  structs {i : Nat} {object : StructObject} : s.structs[i]? = some object →
    s'.structs[i]? = some object

theorem Extends.refl (s : Store) : Extends s s := ⟨rfl, rfl, rfl, id, id⟩

theorem Extends.trans {a b c : Store} (first : Extends a b) (second : Extends b c) :
    Extends a c :=
  ⟨second.cells.trans first.cells, second.scopes.trans first.scopes,
    second.maps.trans first.maps, fun is => second.backings (first.backings is),
    fun is => second.structs (first.structs is)⟩

section

variable {s s' : Store} {x : Storage}

theorem Extends.has (extends_ : Extends s s') (has : s.Has x) : s'.Has x := by
  cases x with
  | fields o =>
      have after := extends_.structs (Array.getElem?_eq_getElem has)
      exact (Array.getElem?_eq_some_iff.mp after).1
  | items b =>
      have after := extends_.backings (Array.getElem?_eq_getElem has)
      exact (Array.getElem?_eq_some_iff.mp after).1

theorem Extends.elements {view : SliceView} (extends_ : Extends s s')
    (has : s.Has (.items view.backing)) : s'.elements view = s.elements view := by
  have before := Array.getElem?_eq_getElem has
  simp only [Store.elements, backing, before, extends_.backings before]

theorem Extends.structObject {o : StructId} (extends_ : Extends s s')
    (there : o.index < s.structs.size) : s'.structObject o = s.structObject o := by
  have before := Array.getElem?_eq_getElem there
  rw [Store.structObject, Store.structObject, before, extends_.structs before]

theorem Extends.parts (extends_ : Extends s s') (has : s.Has x) : s'.parts x = s.parts x := by
  cases x with
  | fields o => rw [Store.parts, Store.parts, extends_.structObject has]
  | items b =>
      have before := Array.getElem?_eq_getElem has
      simp only [Store.parts, backing, before, extends_.backings before]

theorem Extends.holdsAt {h : Holder} {v : Value} (extends_ : Extends s s')
    (holds : s.HoldsAt h v) : s'.HoldsAt h v := by
  cases holds with
  | cell is => exact .cell (extends_.cells ▸ is)
  | field stored is => exact .field (extends_.structs stored) is
  | element stored is => exact .element (extends_.backings stored) is
  | entry stored is => exact .entry (extends_.maps ▸ stored) is

theorem has_of_holdsAt {i : Nat} {v : Value} (holds : s.HoldsAt (x.place i) v) : s.Has x := by
  cases x with
  | fields o =>
      cases holds with
      | field stored _ => exact (Array.getElem?_eq_some_iff.mp stored).1
  | items b =>
      cases holds with
      | element stored _ => exact (Array.getElem?_eq_some_iff.mp stored).1

theorem parts_of_not_has (lacks : ¬ s.Has x) : s.parts x = [] := by
  cases x with
  | fields o => simp [Store.parts, structObject, Array.getElem?_eq_none (Nat.not_lt.mp lacks)]
  | items b => simp [Store.parts, backing, Array.getElem?_eq_none (Nat.not_lt.mp lacks)]

end

/-- How many structs and arrays there can be. -/
def storageCount (s : Store) : Nat := s.structs.size + s.backings.size

/-- A store with one more object, which consists of certain values. -/
structure Adds (x : Storage) (values : List Value) (s s' : Store) : Prop where
  grown : Extends s s'
  new : ¬ s.Has x
  has : s'.Has x
  other {y : Storage} : s'.Has y → y = x ∨ s.Has y
  parts : s'.parts x = values
  count : s'.storageCount = s.storageCount + 1

theorem adds_newBacking (s : Store) (items : Array Value) :
    Adds (.items (s.newBacking items).1) items.toList s (s.newBacking items).2 where
  grown := by
    refine ⟨rfl, rfl, rfl, fun is => ?_, id⟩
    have inside := (Array.getElem?_eq_some_iff.mp is).1
    rwa [newBacking, Array.getElem?_push_lt inside, ← Array.getElem?_eq_getElem inside]
  new := Nat.lt_irrefl _
  has := by simp [Has, newBacking]
  other {y} has := by
    cases y with
    | fields o => exact .inr has
    | items b =>
        simp only [Has, newBacking, Array.size_push] at has
        rcases Nat.lt_succ_iff_lt_or_eq.mp has with before | last
        · exact .inr before
        · exact .inl (by rw [newBacking, ← last])
  parts := by simp [Store.parts, newBacking, backing]
  count := by simp [storageCount, newBacking, Nat.add_assoc]

theorem adds_newStruct (s : Store) (type : StructDef) (fields : Array Value) :
    Adds (.fields (s.newStruct type fields).1) fields.toList s (s.newStruct type fields).2 where
  grown := by
    refine ⟨rfl, rfl, rfl, id, fun is => ?_⟩
    have inside := (Array.getElem?_eq_some_iff.mp is).1
    rwa [newStruct, Array.getElem?_push_lt inside, ← Array.getElem?_eq_getElem inside]
  new := Nat.lt_irrefl _
  has := by simp [Has, newStruct]
  other {y} has := by
    cases y with
    | fields o =>
        simp only [Has, newStruct, Array.size_push] at has
        rcases Nat.lt_succ_iff_lt_or_eq.mp has with before | last
        · exact .inr before
        · exact .inl (by rw [newStruct, ← last])
    | items b => exact .inr has
  parts := by simp [Store.parts, newStruct, structObject]
  count := by simp [storageCount, newStruct]; omega

/-! ### Copying only adds objects -/

theorem extends_copyAll {copy : Value → Store → Value × Store}
    (each : ∀ v s, Extends s (copy v s).2) (values : List Value) (s : Store) :
    Extends s (copyAll copy values s).2 := by
  unfold copyAll
  generalize #[] = done
  induction values generalizing done s with
  | nil => exact .refl s
  | cons v rest ih => exact (each v s).trans (ih _ _)

theorem extends_copyWithin (depth : Nat) (v : Value) (s : Store) :
    Extends s (copyWithin depth v s).2 := by
  induction depth generalizing v s with
  | zero => exact .refl s
  | succ depth ih =>
      unfold copyWithin
      split
      · exact (extends_copyAll ih _ s).trans (adds_newStruct _ _ _).grown
      · split
        · exact (extends_copyAll ih _ s).trans (adds_newBacking _ _).grown
        · exact .refl s
      · exact .refl s

theorem extends_copied (v : Value) (s : Store) : Extends s (s.copied v).2 := by
  unfold copied
  split
  · exact extends_copyWithin _ v s
  · exact .refl s

/-- A store in which values were put into holders, `moved[i]` into `slot i`, with no new objects. -/
structure Puts (slot : Nat → Holder) (moved : List Value) (s s' : Store) : Prop where
  stored : ∀ h u, s'.HoldsAt h u → u.IsPlain ∨ s.HoldsAt h u ∨ ∃ i, h = slot i ∧ moved[i]? = some u
  has : ∀ x, s'.Has x ↔ s.Has x
  count : s'.storageCount = s.storageCount

/-! ## How deep values are nested -/

/-- A value is nested at most so many structs and arrays deep, none of which is there in an old
store. -/
def Nested (s old : Store) : Nat → Value → Prop
  | 0, v => ∀ x, v.storage? = some x → ¬ s.Has x ∧ ¬ old.Has x
  | n + 1, v => ∀ x, v.storage? = some x → ¬ old.Has x ∧ ∀ part ∈ s.parts x, Nested s old n part

section

variable {s s' old old' : Store} {v : Value} {n n' : Nat}

theorem Nested.of_noStorage (none : ∀ x, v.storage? ≠ some x) : Nested s old n v := by
  cases n with
  | zero => exact fun x is => absurd is (none x)
  | succ n => exact fun x is => absurd is (none x)

theorem Nested.succ (nested : Nested s old n v) : Nested s old (n + 1) v := by
  induction n generalizing v with
  | zero =>
      intro x is
      obtain ⟨lacks, new⟩ := nested x is
      refine ⟨new, fun part mem => ?_⟩
      rw [parts_of_not_has lacks] at mem
      exact absurd mem List.not_mem_nil
  | succ n ih =>
      intro x is
      obtain ⟨new, parts⟩ := nested x is
      exact ⟨new, fun part mem => ih (parts part mem)⟩

theorem Nested.mono (nested : Nested s old n v) (le : n ≤ n') : Nested s old n' v := by
  induction le with
  | refl => exact nested
  | step _ ih => exact ih.succ

theorem Nested.weaken (nested : Nested s old n v) (fewer : ∀ x, old'.Has x → old.Has x) :
    Nested s old' n v := by
  induction n generalizing v with
  | zero =>
      intro x is
      obtain ⟨lacks, new⟩ := nested x is
      exact ⟨lacks, fun has => new (fewer x has)⟩
  | succ n ih =>
      intro x is
      obtain ⟨new, parts⟩ := nested x is
      exact ⟨fun has => new (fewer x has), fun part mem => ih (parts part mem)⟩

/-- All that the objects of a store refer to is there. -/
def Closed (s : Store) : Prop :=
  ∀ x, s.Has x → ∀ part ∈ s.parts x, ∀ y ∈ part.mentions, s.Has y

theorem Nested.extend (nested : Nested s old n v) (extends_ : Extends s s') (closed : s.Closed)
    (exists_ : ∀ x, v.storage? = some x → s.Has x) : Nested s' old n v := by
  induction n generalizing v with
  | zero =>
      intro x is
      exact absurd (exists_ x is) (nested x is).1
  | succ n ih =>
      intro x is
      obtain ⟨new, parts⟩ := nested x is
      have has := exists_ x is
      refine ⟨new, fun part mem => ?_⟩
      rw [extends_.parts has] at mem
      exact ih (parts part mem) fun y partIs =>
        closed x has part mem y (Value.mem_mentions_of_storage partIs)

end

/-- No value is nested deeper than there are objects. -/
def Shallow (s : Store) : Prop := ∀ v, Nested s {} s.storageCount v

theorem not_has_empty (x : Storage) : ¬ ({} : Store).Has x := by
  cases x <;> exact Nat.not_lt_zero _

/-- A value without a struct or an array that was there before. -/
def Fresh (base : Store) (v : Value) : Prop := ∀ x, v.storage? = some x → ¬ base.Has x

/-- A store on top of a base: the objects on top of the base consist of such objects, and they are
not nested deeper than there are of them. -/
structure Layered (base s : Store) : Prop where
  grown : Extends base s
  closed : base.Closed
  shallow : base.Shallow
  top {v : Value} : Fresh base v → Nested s base (s.storageCount - base.storageCount) v

theorem Extends.count {s s' : Store} (extends_ : Extends s s') :
    s.storageCount ≤ s'.storageCount := by
  have structs : s.structs.size ≤ s'.structs.size := by
    refine Nat.le_of_not_lt fun fewer => ?_
    exact Nat.lt_irrefl _ (extends_.has (x := .fields ⟨s'.structs.size⟩) fewer)
  have backings : s.backings.size ≤ s'.backings.size := by
    refine Nat.le_of_not_lt fun fewer => ?_
    exact Nat.lt_irrefl _ (extends_.has (x := .items ⟨s'.backings.size⟩) fewer)
  exact Nat.add_le_add structs backings

section

variable {base s s' : Store} {x : Storage} {values : List Value}

theorem Layered.refl (closed : s.Closed) (shallow : s.Shallow) : Layered s s where
  grown := .refl s
  closed := closed
  shallow := shallow
  top fresh := by
    rw [Nat.sub_self]
    exact fun x is => ⟨fresh x is, fresh x is⟩

/-- A new object that consists of new values adds one level at most. -/
theorem nested_adds {old : Store} {n : Nat} (closed : s.Closed) (adds : Adds x values s s')
    (nested : ∀ v, Fresh old v → Nested s old n v)
    (fresh : ∀ w ∈ values, Fresh old w) (exist : ∀ w ∈ values, ∀ y ∈ w.mentions, s.Has y)
    {v : Value} (isFresh : Fresh old v) : Nested s' old (n + 1) v := by
  intro y is
  refine ⟨isFresh y is, fun part mem => ?_⟩
  -- The new object consists of the values; what any other one consists of has not changed.
  by_cases isNew : y = x
  · subst isNew
    rw [adds.parts] at mem
    refine (nested part (fresh part mem)).extend adds.grown closed fun z partIs => ?_
    exact exist part mem z (Value.mem_mentions_of_storage partIs)
  · by_cases has : s.Has y
    · have parts := ((nested v isFresh).succ y is).2
      rw [adds.grown.parts has] at mem
      refine (parts part mem).extend adds.grown closed fun z partIs => ?_
      exact closed y has part mem z (Value.mem_mentions_of_storage partIs)
    · have lacks : ¬ s'.Has y := fun later => (adds.other later).elim isNew has
      rw [parts_of_not_has lacks] at mem
      exact absurd mem List.not_mem_nil

theorem Shallow.adds (shallow : s.Shallow) (closed : s.Closed) (adds : Adds x values s s')
    (exist : ∀ w ∈ values, ∀ y ∈ w.mentions, s.Has y) : s'.Shallow := by
  intro v
  rw [adds.count]
  have anyFresh (w : Value) : Fresh {} w := fun y _ => not_has_empty y
  exact nested_adds closed adds (fun w _ => shallow w) (fun w _ => anyFresh w) exist (anyFresh v)

/-- Values are nested no deeper where contents have parts that they had before. -/
theorem Shallow.of_parts (shallow : s.Shallow) (has : ∀ x, s'.Has x ↔ s.Has x)
    (count : s'.storageCount = s.storageCount)
    (parts : ∀ x, ∀ part ∈ s'.parts x, part.IsPlain ∨ part ∈ s.parts x) : s'.Shallow := by
  have nested : ∀ n v, Nested s {} n v → Nested s' {} n v := by
    intro n
    induction n with
    | zero =>
        intro v nested x is
        exact ⟨fun later => (nested x is).1 ((has x).mp later), (nested x is).2⟩
    | succ n ih =>
        intro v nested x is
        refine ⟨(nested x is).1, fun part mem => ?_⟩
        rcases parts x part mem with plain | mem
        · exact .of_noStorage plain.storage_ne
        · exact ih part ((nested x is).2 part mem)
  intro v
  exact count ▸ nested _ v (shallow v)

/-- How deep values are nested depends on the structs and the backing arrays only. -/
theorem Shallow.congr (shallow : s.Shallow) (structs : s'.structs = s.structs)
    (backings : s'.backings = s.backings) : s'.Shallow := by
  refine shallow.of_parts (fun x => ?_) ?_ fun x part mem => .inr ?_
  · cases x <;> simp only [Has, structs, backings]
  · rw [storageCount, storageCount, structs, backings]
  · cases x <;> simpa only [parts, structObject, backing, structs, backings] using mem

theorem Layered.adds (layered : Layered base s) (closed : s.Closed) (adds : Adds x values s s')
    (fresh : ∀ w ∈ values, Fresh base w) (exist : ∀ w ∈ values, ∀ y ∈ w.mentions, s.Has y) :
    Layered base s' where
  grown := layered.grown.trans adds.grown
  closed := layered.closed
  shallow := layered.shallow
  top isFresh := by
    have count := layered.grown.count
    have deeper : s'.storageCount - base.storageCount =
        s.storageCount - base.storageCount + 1 := by
      rw [adds.count]
      omega
    rw [deeper]
    exact nested_adds closed adds (fun _ => layered.top) fresh exist isFresh

theorem Layered.shallow_top (layered : Layered base s) : s.Shallow := by
  intro v
  have count := layered.grown.count
  by_cases fresh : Fresh base v
  · exact ((layered.top fresh).weaken fun x has => absurd has (not_has_empty x)).mono
      (Nat.sub_le _ _)
  · obtain ⟨x, is, has⟩ : ∃ x, v.storage? = some x ∧ base.Has x := by
      simpa [Fresh] using fresh
    refine ((layered.shallow v).extend layered.grown layered.closed fun y isToo => ?_).mono count
    rw [is] at isToo
    cases isToo
    exact has

/-- Values are still not nested deeper than there are objects after new ones were stored in objects
that were there before. -/
theorem Layered.shallow_write {moved : List Value} (layered : Layered base s)
    (fresh : ∀ w ∈ moved, Fresh base w) (has : ∀ x, s'.Has x ↔ s.Has x)
    (count : s'.storageCount = s.storageCount)
    (written : ∀ x, ∀ part ∈ s'.parts x,
      part.IsPlain ∨ part ∈ s.parts x ∨ base.Has x ∧ part ∈ moved) : s'.Shallow := by
  have top : ∀ n v, Nested s base n v → Nested s' base n v := by
    intro n
    induction n with
    | zero =>
        intro v nested x is
        obtain ⟨lacks, new⟩ := nested x is
        exact ⟨fun later => lacks ((has x).mp later), new⟩
    | succ n ih =>
        intro v nested x is
        obtain ⟨new, parts⟩ := nested x is
        refine ⟨new, fun part mem => ?_⟩
        rcases written x part mem with plain | before | ⟨old, -⟩
        · exact .of_noStorage plain.storage_ne
        · exact ih part (parts part before)
        · exact absurd old new
  have topmost {v : Value} (isFresh : Fresh base v) (n : Nat) :
      Nested s' {} (n + (s.storageCount - base.storageCount)) v :=
    ((top _ v (layered.top isFresh)).weaken fun x has => absurd has (not_has_empty x)).mono
      (Nat.le_add_left _ n)
  have bottom : ∀ n v, Nested base {} n v →
      Nested s' {} (n + (s.storageCount - base.storageCount)) v := by
    intro n
    induction n with
    | zero => exact fun v nested => topmost (fun x is => (nested x is).1) 0
    | succ n ih =>
        intro v nested
        by_cases isFresh : Fresh base v
        · exact topmost isFresh _
        · rw [Nat.add_right_comm]
          intro x is
          obtain ⟨-, parts⟩ := nested x is
          refine ⟨not_has_empty x, fun part mem => ?_⟩
          rcases written x part mem with plain | before | ⟨-, isMoved⟩
          · exact .of_noStorage plain.storage_ne
          · have old : base.Has x := by
              obtain ⟨y, isToo, old⟩ : ∃ y, v.storage? = some y ∧ base.Has y := by
                simpa [Fresh] using isFresh
              rw [is] at isToo
              cases isToo
              exact old
            rw [layered.grown.parts old] at before
            exact ih part (parts part before)
          · exact topmost (fresh part isMoved) n
  intro v
  have grown := layered.grown.count
  have enough : base.storageCount + (s.storageCount - base.storageCount) = s'.storageCount := by
    omega
  exact enough ▸ bottom _ v (layered.shallow v)

end

end Store

/-! ## Copying -/

open World Store

section

variable {s s' base : Store} {pending hand shown : List Value} {v : Value}

theorem World.knows_part {W : World} {x : Storage} {part : Value} (mem : part ∈ W.store.parts x) :
    W.Knows part := by
  obtain ⟨i, holds⟩ := mem_parts_iff.mp mem
  exact .inl ⟨_, .stored holds⟩

theorem World.Sound.closed {W : World} (sound : W.Sound) : W.store.Closed :=
  fun _ _ _ mem _ mentioned => sound.exist (knows_part mem) mentioned

/-- A sound world on top of a base, with only new structs and arrays in the hand. -/
structure Copying (base : Store) (W : World) : Prop where
  sound : W.Sound
  layered : Layered base W.store
  fresh : ∀ v ∈ W.hand, Fresh base v

namespace Copying

theorem shallow {W : World} (copying : Copying base W) : W.store.Shallow :=
  copying.layered.shallow_top

theorem look {others : List Value} (copying : Copying base ⟨s, pending, hand, shown⟩)
    (may : ∀ u ∈ others, MayShow ⟨s, pending, hand, shown⟩ u) :
    Copying base ⟨s, pending, hand, others⟩ :=
  ⟨copying.sound.look may, copying.layered, copying.fresh⟩

theorem drop {moved : List Value} (copying : Copying base ⟨s, pending, hand ++ moved, shown⟩) :
    Copying base ⟨s, pending, hand, shown⟩ where
  sound := copying.sound.move .hand (fun _ _ holds => .inr (.inl holds)) fun _ => id
  layered := copying.layered
  fresh v mem := copying.fresh v (List.mem_append_left moved mem)

theorem takeShared (copying : Copying base ⟨s, pending, hand, shown⟩)
    (may : MayShow ⟨s, pending, hand, shown⟩ v) (shared : ∀ x, v.storage? ≠ some x) :
    Copying base ⟨s, pending, hand ++ [v], shown⟩ where
  sound := by
    refine copying.sound.take (fun x mentioned => ?_) (fun x is => absurd is (shared x)) ?_
    · exact may.elim (copying.sound.exist · mentioned) fun exist => exist.2 x mentioned
    · intro h u x holds is
      rcases may with knows | ⟨unbound, -⟩
      · exact copying.sound.unbound holds is knows
      · rw [unbound]
        exact nofun
  layered := copying.layered
  fresh u mem := by
    rcases List.mem_append.mp mem with before | isLast
    · exact copying.fresh u before
    · obtain rfl := List.mem_singleton.mp isLast
      exact fun x is => absurd is (shared x)

theorem takeAllShared (values : List Value) (copying : Copying base ⟨s, pending, hand, shown⟩)
    (may : ∀ v ∈ values, MayShow ⟨s, pending, hand, shown⟩ v)
    (shared : ∀ v ∈ values, ∀ x, v.storage? ≠ some x) :
    Copying base ⟨s, pending, hand ++ values, shown⟩ := by
  have looking : Copying base ⟨s, pending, hand, values ++ shown⟩ := by
    refine copying.look fun u mem => ?_
    exact (List.mem_append.mp mem).elim (may u) fun isShown => .inl (.inr isShown)
  suffices ∀ (rest : List Value) (hand : List Value), (∀ v ∈ rest, v ∈ values) →
      Copying base ⟨s, pending, hand, values ++ shown⟩ →
      Copying base ⟨s, pending, hand ++ rest, values ++ shown⟩ from
    (this values hand (fun _ mem => mem) looking).look fun u mem =>
      .inl (.inr (List.mem_append_right values mem))
  intro rest
  induction rest with
  | nil =>
      intro hand _ copying
      rwa [List.append_nil]
  | cons v rest ih =>
      intro hand among copying
      have isValue := among v List.mem_cons_self
      have taken := copying.takeShared (.inl (.inr (List.mem_append_left shown isValue)))
        (shared v isValue)
      rw [List.append_cons]
      exact ih _ (fun u mem => among u (List.mem_cons_of_mem v mem)) taken

/-- New values in the hand become what a new struct or array consists of. -/
theorem build {x : Storage} {values : List Value}
    (copying : Copying base ⟨s, pending, hand ++ values, shown⟩) (slot : Nat → Holder)
    (adds : Adds x values s s') (isStorage : v.storage? = some x) (only : v.mentions = [x])
    (stored : ∀ h u, s'.HoldsAt h u → s.HoldsAt h u ∨ ∃ i, h = slot i ∧ values[i]? = some u) :
    Copying base ⟨s', pending, hand ++ [v], shown⟩ := by
  have stored' h u (holds : s'.HoldsAt h u) := Or.inr (a := u.IsPlain) (stored h u holds)
  have moved := copying.sound.move slot stored' fun y => adds.grown.has
  have inHand {w : Value} (mem : w ∈ values) : w ∈ hand ++ values :=
    List.mem_append_right hand mem
  refine ⟨moved.take ?_ ?_ ?_, ?_, ?_⟩
  · intro y mentioned
    rw [only, List.mem_singleton] at mentioned
    exact mentioned ▸ adds.has
  · intro y is w knows mentioned
    rw [isStorage] at is
    cases is
    rcases (moves_stored shown stored').known rfl knows with plain | knew
    · rw [plain] at mentioned
      exact List.not_mem_nil mentioned
    · exact adds.new (copying.sound.exist knew mentioned)
  · exact fun h u y _ _ => Value.bound_ne_of_storage isStorage y
  · refine copying.layered.adds copying.sound.closed adds (fun w mem => ?_) fun w mem y => ?_
    · exact copying.fresh w (inHand mem)
    · obtain ⟨i, is⟩ := List.mem_iff_getElem?.mp (inHand mem)
      exact copying.sound.exist (.inl ⟨_, .hand is⟩)
  · intro u mem
    rcases List.mem_append.mp mem with before | isLast
    · exact copying.fresh u (List.mem_append_left _ before)
    · obtain rfl := List.mem_singleton.mp isLast
      intro y is
      rw [isStorage] at is
      cases is
      exact fun has => adds.new (copying.layered.grown.has has)

theorem buildStruct (type : StructDef) (fields : Array Value)
    (copying : Copying base ⟨s, pending, hand ++ fields.toList, shown⟩) :
    Copying base ⟨(s.newStruct type fields).2, pending,
      hand ++ [.struct (s.newStruct type fields).1], shown⟩ :=
  copying.build (.field ⟨s.structs.size⟩) (adds_newStruct s type fields) rfl rfl
    fun h u holds => by simpa using holdsAt_newStruct holds

theorem buildArray (items : Array Value) (isNil : Bool)
    (copying : Copying base ⟨s, pending, hand ++ items.toList, shown⟩) :
    Copying base ⟨(s.newSlice items).2, pending,
      hand ++ [.slice { (s.newSlice items).1 with isArray := true, isNil }], shown⟩ :=
  copying.build (.element ⟨s.backings.size⟩) (adds_newBacking s items) rfl rfl
    fun h u holds => by simpa using holdsAt_newBacking holds

theorem nested_extend {n : Nat} (copying : Copying base ⟨s, pending, hand, shown⟩)
    (isShown : v ∈ shown) (nested : Nested s {} n v) (extends_ : Extends s s') :
    Nested s' {} n v :=
  nested.extend extends_ copying.sound.closed fun _ is =>
    copying.sound.exist (.inr isShown) (Value.mem_mentions_of_storage is)

/-- A way of copying gives new values, for values that are nested at most `n` deep. -/
def Copies (base : Store) (pending : List Value) (n : Nat)
    (copy : Value → Store → Value × Store) : Prop :=
  ∀ {s hand shown v}, Copying base ⟨s, pending, hand, shown⟩ → v ∈ shown → Nested s {} n v →
    Copying base ⟨(copy v s).2, pending, hand ++ [(copy v s).1], shown⟩ ∧ Extends s (copy v s).2

theorem copyAll {n : Nat} {copy : Value → Store → Value × Store}
    (copies : Copies base pending n copy) (values : List Value)
    (copying : Copying base ⟨s, pending, hand, shown⟩) (areShown : ∀ v ∈ values, v ∈ shown)
    (nested : ∀ v ∈ values, Nested s {} n v) :
    Copying base ⟨(Store.copyAll copy values s).2, pending,
        hand ++ (Store.copyAll copy values s).1.toList, shown⟩ ∧
      Extends s (Store.copyAll copy values s).2 := by
  unfold Store.copyAll
  -- The copies made so far are in the hand.
  suffices ∀ (done : Array Value) (s : Store),
      Copying base ⟨s, pending, hand ++ done.toList, shown⟩ →
      (∀ v ∈ values, Nested s {} n v) →
      let result := values.foldl
        (fun done v => ((done.1.push (copy v done.2).1, (copy v done.2).2) : Array Value × Store))
        (done, s)
      Copying base ⟨result.2, pending, hand ++ result.1.toList, shown⟩ ∧
        Extends s result.2 from
    this #[] s (by simpa using copying) nested
  clear copying nested
  induction values with
  | nil => exact fun done s copying _ => ⟨copying, .refl s⟩
  | cons v rest ih =>
      intro done s copying nested
      obtain ⟨first, grown⟩ :=
        copies copying (areShown v List.mem_cons_self) (nested v List.mem_cons_self)
      have pushed : hand ++ done.toList ++ [(copy v s).1] =
          hand ++ (done.push (copy v s).1).toList := by simp
      rw [pushed] at first
      obtain ⟨others, grows⟩ :=
        ih (fun u mem => areShown u (List.mem_cons_of_mem v mem)) _ _ first fun u mem =>
          copying.nested_extend (areShown u (List.mem_cons_of_mem v mem))
            (nested u (List.mem_cons_of_mem v mem)) grown
      exact ⟨others, grown.trans grows⟩

theorem plain_nil : Value.nil.IsPlain := rfl

theorem mem_elements {view : SliceView} (mem : v ∈ s.elements view) :
    v.IsPlain ∨ v ∈ s.parts (.items view.backing) := by
  obtain ⟨i, -, rfl⟩ := List.mem_map.mp mem
  cases is : (s.backing view.backing)[view.start + i]? with
  | none => exact .inl plain_nil
  | some u =>
      rw [Option.getD_some]
      exact .inr (Array.mem_toList_iff.mpr (Array.mem_of_getElem? is))

/-- The contents of a value are copied by copying its parts into the hand. -/
theorem copyParts {n : Nat} {x : Storage} {values : List Value}
    (copies : Copies base pending n (copyWithin n))
    (copying : Copying base ⟨s, pending, hand, shown⟩)
    (nested : ∀ part ∈ s.parts x, Nested s {} n part)
    (parts : ∀ u ∈ values, u.IsPlain ∨ u ∈ s.parts x) :
    Copying base ⟨(Store.copyAll (copyWithin n) values s).2, pending,
        hand ++ (Store.copyAll (copyWithin n) values s).1.toList, shown⟩ ∧
      Extends s (Store.copyAll (copyWithin n) values s).2 := by
  have looking : Copying base ⟨s, pending, hand, values ++ shown⟩ := by
    refine copying.look fun u mem => ?_
    rcases List.mem_append.mp mem with isPart | isShown
    · exact (parts u isPart).elim mayShow_of_plain fun isPart => .inl (knows_part isPart)
    · exact .inl (.inr isShown)
  obtain ⟨copied, grown⟩ := looking.copyAll copies values
    (fun u mem => List.mem_append_left shown mem) fun u mem =>
      (parts u mem).elim (fun plain => .of_noStorage plain.storage_ne) (nested u)
  refine ⟨copied.look fun u mem => ?_, grown⟩
  exact .inl (.inr (List.mem_append_right values mem))

theorem copyWithin (n : Nat) : Copies base pending n (Store.copyWithin n) := by
  induction n with
  | zero =>
      intro s hand shown v copying isShown nested
      refine ⟨copying.takeShared (.inl (.inr isShown)) fun x is => ?_, .refl s⟩
      have has := copying.sound.exist (.inr isShown) (Value.mem_mentions_of_storage is)
      exact (nested x is).1 has
  | succ n ih =>
      intro s hand shown v copying isShown nested
      have shared (none : v.storage? = none) :
          Copying base ⟨s, pending, hand ++ [v], shown⟩ ∧ Extends s s :=
        ⟨copying.takeShared (.inl (.inr isShown)) (by simp [none]), .refl s⟩
      unfold Store.copyWithin
      split
      · rename_i o
        obtain ⟨copied, grown⟩ := copying.copyParts ih (nested _ rfl).2 fun u mem => .inr mem
        exact ⟨copied.buildStruct _ _, grown.trans (adds_newStruct _ _ _).grown⟩
      · split
        · rename_i view isArray
          have isStorage : (Value.slice view).storage? = some (.items view.backing) := by
            simp [Value.storage?, hasContents, isArray, Value.object?]
          obtain ⟨copied, grown⟩ :=
            copying.copyParts ih (nested _ isStorage).2 fun u mem => mem_elements mem
          exact ⟨copied.buildArray _ _, grown.trans (adds_newBacking _ _).grown⟩
        · rename_i isSlice
          exact shared (by simp [Value.storage?, hasContents, isSlice])
      · rename_i noStruct noSlice
        refine shared ?_
        cases v with
        | struct o => exact absurd rfl (noStruct o)
        | slice view => exact absurd rfl (noSlice view)
        | _ => rfl

theorem copied (copying : Copying base ⟨s, pending, hand, shown⟩) (isShown : v ∈ shown) :
    Copying base ⟨(s.copied v).2, pending, hand ++ [(s.copied v).1], shown⟩ ∧
      Extends s (s.copied v).2 := by
  unfold Store.copied
  split
  · refine copyWithin _ copying isShown ((copying.shallow v).mono ?_)
    simp only [objectCount, storageCount]
    omega
  · rename_i noContents
    exact ⟨copying.takeShared (.inl (.inr isShown)) (by simp [Value.storage?, noContents]), .refl s⟩

/-- New values in the hand are stored in variables, in maps, or in objects of the base. -/
theorem store {moved : List Value} {slot : Nat → Holder}
    (copying : Copying base ⟨s, pending, hand ++ moved, shown⟩) (puts : Puts slot moved s s')
    (inBase : ∀ i x j, i < moved.length → slot i = x.place j → base.Has x) :
    Sound ⟨s', pending, hand, shown⟩ ∧ s'.Shallow := by
  refine ⟨copying.sound.move slot puts.stored fun x => (puts.has x).mpr, ?_⟩
  have fresh : ∀ w ∈ moved, Fresh base w := fun w mem =>
    copying.fresh w (List.mem_append_right hand mem)
  refine copying.layered.shallow_write fresh puts.has puts.count fun x part mem => ?_
  obtain ⟨j, holds⟩ := mem_parts_iff.mp mem
  rcases puts.stored _ part holds with plain | before | ⟨i, at_, is⟩
  · exact .inl plain
  · exact .inr (.inl (mem_parts_iff.mpr ⟨j, before⟩))
  · have inside := (List.getElem?_eq_some_iff.mp is).1
    exact .inr (.inr ⟨inBase i x j inside at_.symm, List.mem_of_getElem? is⟩)

theorem begin_ (sound : Sound ⟨s, pending, [], shown⟩) (shallow : s.Shallow) :
    Copying s ⟨s, pending, [], shown⟩ :=
  ⟨sound, .refl sound.closed shallow, fun _ mem => absurd mem List.not_mem_nil⟩

end Copying

end

end SandboxedGo
