import SandboxedGo.Proofs.StoringCopies
import SandboxedGo.Run

/-!
# When structs and arrays are values of their own

A program stores values by declarations, assignments, calls, literals, loops and predeclared
functions.  Most of these operations store copies.  The others store some values as they are: in the
variable of a type case, for a deferred call, as the receiver of a method value, in the variables of
the next round of a loop, in the slice of the arguments that are left, in a backing array that
replaces a smaller one, in the variable of a named result, and behind a pointer.  Sorting a slice
moves values that it has already.  Whatever a program does, no two holders share a struct or an
array as long as what these operations store is held by nobody else; as soon as it is, two holders
do.  Main statement: `apart_iff_unshared`.

An operation is a step of the evaluator on operands that have been evaluated, and a history is any
list of such steps; no statement here takes a run of a program apart into its history.
-/

set_option autoImplicit false

namespace SandboxedGo

open Source World Store Eval

/-! ## Operations that store values -/

/-- The operations of a program that store values, with the values that they work on. -/
inductive Storing
  -- what they store is copied
  | declare (scope : ScopeId) (type : Option TypeExpr) (width : Option IntWidth)
      (names : List String) (values : List Value)
  | defineShort (scope : ScopeId) (names : List String) (values : List Value)
      (widths : List (Option IntWidth))
  | bindParameters (scope : ScopeId) (params : List Param) (arguments : List Value)
  | bindReceiver (scope : ScopeId) (name : String) (receiver : Receiver) (v : Value)
  | beginRound (inner : ScopeId) (target : Option Expr) (item : Value)
  | assignVariable (name : String) (v : Value) (scope : ScopeId)
  | assignField (target : Value) (field : String) (v : Value)
  | assignElement (container key v : Value)
  | assignThrough (pointer v : Value)
  | copyElements (destination source : Value)
  | structLiteral (type : StructDef) (values : List Value)
  | sequenceLiteral (items : List Value)
  | mapEntry (map : MapId) (keyType valueType : TypeExpr) (key v : Value)
  -- some of what they store is not copied
  | append (v : Value) (items : List Value)
  | bindCase (body : ScopeId) (name : String) (c : TypeCase) (v : Value)
  | defer (function : Value) (arguments : List Value)
  | bindMethod (scope : ScopeId) (name : String) (receiver : Value) (decl : FuncDecl)
  | renew (scope next : ScopeId) (name : String)
  | packArguments (arguments : List Value)
  | nameResult (scope : ScopeId) (name : String) (v : Value)
  | pointTo (v : Value)
  -- what they store was there before
  /-- The elements of a slice are written back in another order. -/
  | reorder (view : SliceView) (values : List Value)
  | delete (v key : Value)
  | clear (v : Value)
  | makeMap
  | openScope (parent : ScopeId)
  -- anything that stores nothing
  | read (x : Eval Unit) (reads : Reads x)

namespace Storing

def run : Storing → Eval Unit
  | declare scope type width names values => defineEach scope type width names values
  | defineShort scope names values widths => do
    let _ ← defineNew scope names values widths false
  | bindParameters scope params arguments => bindEach scope params arguments
  | bindReceiver scope name receiver v => do
    define scope name (← boundReceiver receiver v) none
  | beginRound inner target item => do RangeLoop.declareName inner target (← copied item)
  | assignVariable name v scope => assignEach scope [.name name] [v]
  | assignField target field v => do Eval.assignField target field (← copied v)
  | assignElement container key v => do Eval.assignElement container key (← copied v)
  | assignThrough pointer v => do Eval.assignThrough pointer (← copied v)
  | copyElements destination source => do
    let _ ← Eval.copyElements destination source
  | structLiteral type values => do
    let _ ← newStruct type (← copiedAll values)
  | sequenceLiteral items => do
    let _ ← newSlice (← copiedAll items)
  | mapEntry map keyType valueType key v => do
    let key ← kept keyType key
    let v ← kept valueType v
    addEntry map key v
  | append v items => do
    let _ ← appendTo v items
  | bindCase body name c v => do define body name (← caseValue c v) none
  | defer function arguments => putOff function arguments
  | bindMethod scope name receiver decl => define scope name (.func (.method receiver decl)) none
  | renew scope next name => renewVariables scope next [name]
  | packArguments arguments => do
    let _ ← newSlice arguments
  | nameResult scope name v => assignResults scope [name] [v]
  | pointTo v => do
    let _ ← pointerTo v
  | reorder view values => changeStore (Library.writeElements view 0 values)
  | delete v key => do
    let _ ← deleteFrom v key
  | clear v => do
    let _ ← clearAll v
  | makeMap => do
    let _ ← onStore Store.newMap
  | openScope parent => do
    let _ ← newScope parent
  | read x _ => x

/-- The values that an operation works on. -/
def given : Storing → List Value
  | declare _ _ _ _ values | defineShort _ _ values _ | structLiteral _ values => values
  | bindParameters _ _ values | packArguments values | sequenceLiteral values => values
  | bindReceiver _ _ _ v | beginRound _ _ v | assignVariable _ v _ | bindCase _ _ _ v
  | bindMethod _ _ v _ | nameResult _ _ v | pointTo v | delete v _ | clear v => [v]
  | mapEntry _ _ _ key v => [key, v]
  | assignField target _ v => [target, v]
  | assignElement container _ v => [container, v]
  | assignThrough pointer v => [pointer, v]
  | copyElements destination source => [destination, source]
  | append v items => v :: items
  | defer function arguments => function :: arguments
  | renew _ _ _ | reorder _ _ | makeMap | openScope _ | read _ _ => []

/-- The values that a declaration stores in a variable; the blank name has none. -/
def named (name : String) (v : Value) : List Value := if name = "_" then [] else [v]

/-- The variable that an operation overwrites with a value that is not copied. -/
def overwritten? (s : Store) : Storing → Option CellId
  | nameResult scope name _ => (s.localVariable? scope name).map Variable.cell
  | _ => none

/-- The values that an operation stores as they are. -/
def uncopied (s : Store) (op : Storing) : List Value :=
  match op with
  | append (.slice view) items =>
    if appendsInPlace view items.length then [] else s.elements view
  | bindCase _ name _ v => named name v
  | defer function arguments => function :: arguments
  | bindMethod _ name receiver decl => named name (.func (.method receiver decl))
  | renew scope _ name =>
    match s.localVariable? scope name with
    | some found => named name (s.cell found.cell)
    | none => []
  | packArguments arguments => arguments
  | nameResult _ _ v => if (op.overwritten? s).isSome then [v] else []
  -- a pointer to a struct is the struct
  | pointTo (.struct _) => []
  | pointTo v => [v]
  | _ => []

/-- A store without the value that an operation overwrites with one that is not copied. -/
def cleared (s : Store) (op : Storing) : Store :=
  match op.overwritten? s with
  | some c => s.setCell c .nil
  | none => s

/-- What an operation stores as it is shares no struct and no array with what is held already. -/
def Unshared (op : Storing) (m : Machine) : Prop :=
  Apart ⟨op.cleared m.store, m.pending, op.uncopied m.store, []⟩

/-- The values that are written back are the elements that the slice has. -/
def Reorders (s : Store) : Storing → Prop
  | reorder view values => values.Perm (s.elements view)
  | _ => True

/-- Slices that are sorted by an order of their own are written back so. -/
theorem reorders_sortedBy (s : Store) (view : SliceView) (order : Value → Value → Ordering) :
    (reorder view (Library.sortedBy order (s.elements view))).Reorders s :=
  sortedBy_perm order (s.elements view)

/-- Slices that are sorted by a function of the program are written back so, whatever it answers. -/
theorem reorders_places (s : Store) (view : SliceView) {places : List Nat}
    (all : places.Perm (List.range view.length)) :
    (reorder view (places.map (s.element view))).Reorders s :=
  all.map (s.element view)

/-- The values that an operation works on may be read: they refer to objects that exist, and they
are not bound to contents that a holder has.  A variable that it overwrites exists. -/
structure Ready (op : Storing) (m : Machine) : Prop where
  sound : (m.world [] op.given).Sound
  exist : ∀ c, op.overwritten? m.store = some c → c.index < m.store.cells.size
  reorders : op.Reorders m.store

end Storing

/-! ## Operations that share -/

/-- An operation leaves a machine tidy if the machine was apart with what is stored as it is in the
hand, and apart only if it was. -/
structure Exposes (s : Store) (moved : List Value) (m m' : Machine) : Prop where
  tidy : Apart ⟨s, m.pending, moved, []⟩ → m'.Tidy []
  apart : (m'.world [] []).Apart → Apart ⟨s, m.pending, moved, []⟩

section

variable {s : Store} {m m' : Machine} {moved shown : List Value}

theorem exposes_of_stored (slot : Nat → Holder) (sound : Sound ⟨s, m.pending, [], shown⟩)
    (exist : ∀ v ∈ moved, ∀ x ∈ v.mentions, s.Has x) (pending : m'.pending = m.pending)
    (shallow : m'.store.Shallow) (has : ∀ x, s.Has x → m'.store.Has x)
    (stored : ∀ h u, m'.store.HoldsAt h u → u.IsPlain ∨ s.HoldsAt h u ∨
      ∃ i, h = slot i ∧ moved[i]? = some u)
    (kept : ∀ h u, s.HoldsAt h u → u.IsPlain ∨ m'.store.HoldsAt h u ∧ ∀ i, h ≠ slot i)
    (placed : ∀ i u, moved[i]? = some u → u.IsPlain ∨ m'.store.HoldsAt (slot i) u)
    (inStore : ∀ i k, slot i ≠ .pending k)
    (distinct : ∀ i j, i < moved.length → j < moved.length → slot i = slot j → i = j) :
    Exposes s moved m m' := by
  refine ⟨fun apart => ⟨?_, shallow⟩, fun apart => apart.of_placed slot ?_ ?_ distinct⟩
  · have inHand : Sound ⟨s, m.pending, [] ++ moved, []⟩ := apart.sound sound exist
    rw [Machine.world, pending]
    exact inHand.move slot stored has
  · rintro h u (holds | is | is)
    · exact (kept h u holds).imp_right fun stays => ⟨.stored stays.1, stays.2⟩
    · exact .inr ⟨.pending (pending ▸ is), fun i => (inStore i _).symm⟩
    · cases is
  · exact fun i u is => (placed i u is).imp_right .stored

theorem exposes_nothing (tidy : m.Tidy shown) (later : m'.Tidy shown) :
    Exposes m.store [] m m' := by
  have untouched : m.Tidy [] := tidy.overlook fun _ mem => absurd mem List.not_mem_nil
  exact ⟨fun _ => later.overlook nofun, fun _ => untouched.sound.toApart⟩

theorem adapt_cases (types : TypeTable) (ty : TypeExpr) (v : Value) :
    types.adapt ty v = v ∨ v.IsPlain ∧ (types.adapt ty v).IsPlain := by
  rcases passes_adapt types ty v with same | plain
  · exact .inl same
  · cases v with
    | int n => exact .inr ⟨rfl, plain⟩
    | float f => exact .inr ⟨rfl, plain⟩
    | _ => exact .inl rfl

theorem first_of_singleton {v u : Value} {i : Nat} (is : [v][i]? = some u) : v = u := by
  cases i with
  | zero => exact Option.some.inj is
  | succ i => cases is

theorem distinct_of_singleton {v : Value} {i j : Nat} (inside : i < [v].length)
    (inside' : j < [v].length) : i = j :=
  (Nat.lt_one_iff.mp inside).trans (Nat.lt_one_iff.mp inside').symm

end

namespace Eval

section

variable {ev : Evaluator} {m : Machine} {v w : Value} {shown : List Value}

theorem exposes_pushCell (tidy : m.Tidy shown) (exist : ∀ x ∈ v.mentions, m.store.Has x)
    (same : w = v ∨ v.IsPlain ∧ w.IsPlain) (scopes : Array Scope) :
    Exposes m.store [v] m
      { m with store := { m.store with cells := m.store.cells.push w, scopes } } := by
  refine exposes_of_stored (fun _ => .cell ⟨m.store.cells.size⟩) tidy.sound ?_ rfl
    (tidy.shallow.congr rfl rfl) ?_ ?_ ?_ ?_ (fun _ _ => by rintro ⟨⟩) ?_
  · exact fun u mem => List.mem_singleton.mp mem ▸ exist
  · rintro (o | b) has <;> exact has
  · intro h u holds
    rcases holdsAt_pushCell holds with before | ⟨rfl, rfl⟩
    · exact .inr (.inl before)
    · exact (Passes.put (same.imp_right And.right)).imp_right .inr
  · intro h u holds
    obtain ⟨stays, other⟩ := holds.pushCell w
    exact .inr ⟨stays, fun _ => other⟩
  · intro i u is
    obtain rfl := first_of_singleton is
    rcases same with rfl | ⟨plain, -⟩
    · exact .inr (.cell Array.getElem?_push_size)
    · exact .inl plain
  · exact fun i j inside inside' _ => distinct_of_singleton inside inside'

theorem exposes_define (tidy : m.Tidy shown) (exist : ∀ x ∈ v.mentions, m.store.Has x)
    (same : w = v ∨ v.IsPlain ∧ w.IsPlain) (scope : ScopeId) (name : String)
    (width : Option IntWidth) :
    Ensures [] (define scope name w width) ev m fun _ =>
      Exposes m.store (Storing.named name v) m := by
  show Exposes _ _ _ { m with store := m.store.define scope name w width }
  by_cases blank : name = "_"
  · rw [Storing.named, if_pos blank, Store.define, if_pos blank]
    exact exposes_nothing tidy tidy
  · rw [Storing.named, if_neg blank, Store.define, if_neg blank]
    exact exposes_pushCell tidy exist same _

theorem exposes_pointerTo (tidy : m.Tidy shown) (exist : ∀ x ∈ v.mentions, m.store.Has x) :
    Ensures [] (pointerTo v) ev m fun _ =>
      Exposes m.store ((Storing.pointTo v).uncopied m.store) m := by
  cases v with
  | struct o => exact exposes_nothing tidy tidy
  | _ => exact exposes_pushCell tidy exist (.inl rfl) m.store.scopes

theorem exposes_writeCell (tidy : m.Tidy shown) (exist : ∀ x ∈ v.mentions, m.store.Has x)
    {c : CellId} (inside : c.index < m.store.cells.size) :
    Ensures [] (writeCell c v) ev m fun _ => Exposes (m.store.setCell c .nil) [v] m := by
  show Exposes _ _ _ { m with store := m.store.setCell c v }
  have again : m.store.setCell c v = (m.store.setCell c .nil).setCell c v := by
    simp [Store.setCell]
  have emptied : Puts (fun _ => .cell c) [.nil] m.store (m.store.setCell c .nil) :=
    puts_setCell c (.inl rfl)
  have puts : Puts (fun _ => .cell c) [v] (m.store.setCell c .nil) (m.store.setCell c v) :=
    again ▸ puts_setCell c (.inl rfl)
  have sound : Sound ⟨m.store.setCell c .nil, m.pending, [], shown⟩ := by
    have inHand : Sound ⟨m.store, m.pending, [] ++ [], shown⟩ := tidy.sound
    refine inHand.move (fun _ => .cell c) (fun h u holds => ?_) fun x => (emptied.has x).mpr
    rcases emptied.stored h u holds with plain | before | ⟨i, -, is⟩
    · exact .inl plain
    · exact .inr (.inl before)
    · exact .inl (first_of_singleton is ▸ rfl)
  refine exposes_of_stored _ sound (fun u mem => ?_) rfl ?_ (fun x => (puts.has x).mpr) puts.stored
    ?_ ?_ (fun _ _ => by rintro ⟨⟩) fun i j inside inside' _ => distinct_of_singleton inside inside'
  · exact List.mem_singleton.mp mem ▸ fun x mentioned => (emptied.has x).mpr (exist x mentioned)
  · exact tidy.shallow.congr rfl rfl
  · intro h u holds
    by_cases isSlot : h = .cell c
    · subst isSlot
      cases holds with
      | cell is =>
          obtain rfl : Value.nil = u := by simpa [Store.setCell, inside] using is
          exact .inl rfl
    · refine .inr ⟨?_, fun _ => isSlot⟩
      rw [again]
      exact holds.setCell isSlot v
  · intro i u is
    obtain rfl := first_of_singleton is
    exact .inr (.cell (by simp [Store.setCell, inside]))

theorem ensures_caseValue (c : TypeCase) (v : Value) :
    Ensures shown (caseValue c v) ev m fun w after =>
      after = m ∧ (w = v ∨ v.IsPlain ∧ w.IsPlain) := by
  unfold caseValue
  split
  · exact ⟨rfl, adapt_cases m.types _ v⟩
  · exact ⟨rfl, .inl rfl⟩

/-- The next round of a loop shares the values of its variables with the round before. -/
theorem exposes_renew (tidy : m.Tidy shown) (scope next : ScopeId) (name : String) :
    Ensures [] (renewVariables scope next [name]) ev m fun _ =>
      Exposes m.store ((Storing.renew scope next name).uncopied m.store) m := by
  refine ensures_viewing ?_
  unfold Storing.uncopied
  dsimp only
  cases m.store.localVariable? scope name with
  | some found =>
      refine ensures_viewing ((exposes_define tidy (fun x mentioned => ?_) (.inl rfl) next name
        none).bind fun _ _ exposes => exposes)
      unfold Store.cell at mentioned
      cases is : m.store.cells[found.cell.index]? with
      | none =>
          rw [is] at mentioned
          cases mentioned
      | some v =>
          rw [is] at mentioned
          exact tidy.sound.exist (.inl ⟨_, .stored (.cell is)⟩) mentioned
  | none => exact ⟨fun _ => tidy.overlook fun u mem => absurd mem List.not_mem_nil, id⟩

theorem exposes_newSlice (tidy : m.Tidy shown) (arguments : List Value)
    (exist : ∀ v ∈ arguments, ∀ x ∈ v.mentions, m.store.Has x) :
    Ensures [] (newSlice arguments) ev m fun _ => Exposes m.store arguments m := by
  show Exposes _ _ _ { m with store := (m.store.newBacking arguments.toArray).2 }
  have adds := adds_newBacking m.store arguments.toArray
  refine exposes_of_stored (.element ⟨m.store.backings.size⟩) tidy.sound exist rfl
    (tidy.shallow.adds tidy.sound.closed adds exist) (fun x => adds.grown.has) ?_ ?_ ?_
    (fun _ _ => by rintro ⟨⟩) ?_
  · intro h u holds
    exact .inr (by simpa using holdsAt_newBacking holds)
  · intro h u holds
    refine .inr ⟨adds.grown.holdsAt holds, ?_⟩
    rintro i rfl
    exact adds.new (has_of_holdsAt (x := .items _) holds)
  · intro i u is
    have stored : (m.store.newBacking arguments.toArray).2.backings[m.store.backings.size]? =
        some arguments.toArray := Array.getElem?_push_size
    exact .inr (.element stored (by simpa using is))
  · intro i j _ _ same
    exact (Holder.element.inj same).2

theorem exposes_putOff (tidy : m.Tidy shown) (function : Value) (arguments : List Value)
    (exist : ∀ v ∈ function :: arguments, ∀ x ∈ v.mentions, m.store.Has x) :
    Ensures [] (putOff function arguments) ev m fun _ =>
      Exposes m.store (function :: arguments) m := by
  unfold Ensures
  cases deferred : m.deferred with
  | nil =>
      have ran : (putOff function arguments).run ev m =
          .error (.signal (.error .deferOutsideFunction)) m := by
        show Action.putOff function arguments m = _
        rw [Action.putOff, deferred]
      rw [ran]
      exact tidy.overlook fun u mem => absurd mem List.not_mem_nil
  | cons frame frames =>
      have ran : (putOff function arguments).run ev m =
          .ok () { m with deferred := (⟨function, arguments⟩ :: frame) :: frames } := by
        show Action.putOff function arguments m = _
        rw [Action.putOff, deferred]
      rw [ran]
      have pending : Machine.pending
          { m with deferred := (⟨function, arguments⟩ :: frame) :: frames } =
            m.pending ++ (function :: arguments) := by
        simp [Machine.pending, deferred]
      refine ⟨fun apart => ⟨?_, tidy.shallow⟩, fun apart => ?_⟩
      · rw [Machine.world, pending]
        exact (apart.sound tidy.sound exist).of_moves (moves_pending m.store m.pending _ []) rfl
          fun x => id
      · rw [Machine.world, pending] at apart
        refine apart.of_placed (fun i => .pending (m.pending.length + i)) ?_ ?_ ?_
        · rintro h u (holds | is | is)
          · refine .inr ⟨.stored holds, ?_⟩
            rintro i rfl
            cases holds
          · have inside : _ < m.pending.length := (List.getElem?_eq_some_iff.mp is).1
            refine .inr ⟨.pending ((List.getElem?_append_left inside).trans is), fun i same => ?_⟩
            have place := Holder.pending.inj same
            omega
          · cases is
        · intro i u is
          refine .inr (.pending ?_)
          rw [List.getElem?_append_right (Nat.le_add_right _ _), Nat.add_sub_cancel_left]
          exact is
        · intro i j _ _ same
          have place := Holder.pending.inj same
          omega

/-- Elements that nobody shares have no contents of their own, for their slice holds them. -/
theorem shared_of_apart {view : SliceView}
    (apart : Apart ⟨m.store, m.pending, m.store.elements view, []⟩) :
    ∀ u ∈ m.store.elements view, ∀ x, u.storage? ≠ some x := by
  intro u mem x is
  rcases Copying.mem_elements mem with plain | isPart
  · exact plain.storage_ne x is
  · obtain ⟨i, holds⟩ := mem_parts_iff.mp isPart
    obtain ⟨j, inHand⟩ := List.mem_iff_getElem?.mp mem
    have same := apart.unshared (.stored holds) (.hand inHand) is is
    cases same

theorem copiedAll_run (values : List Value) (ev : Evaluator) (m : Machine) :
    ∃ ws m', (copiedAll values).run ev m = .ok ws m' ∧ m'.deferred = m.deferred := by
  unfold copiedAll
  induction values generalizing m with
  | nil => exact ⟨[], m, rfl, rfl⟩
  | cons v rest ih =>
      have first : ∃ w m', (copied v).run ev m = .ok w m' ∧ m'.deferred = m.deferred := by
        unfold copied
        split <;> exact ⟨_, _, rfl, rfl⟩
      obtain ⟨w, between, copy, kept⟩ := first
      obtain ⟨ws, m', others, keeps⟩ := ih between
      refine ⟨w :: ws, m', ?_, keeps.trans kept⟩
      rw [List.mapM_cons, bind_run_ok copy, bind_run_ok others]
      rfl

/-- A slice that outgrows its backing array holds the elements that the old one holds. -/
theorem apart_before_grown (tidy : m.Tidy shown) {view : SliceView} {added : List Value}
    (isShown : Value.slice view ∈ shown) (areShown : ∀ u ∈ added, u ∈ shown)
    (grows : appendsInPlace view added.length = false) :
    Ensures shown (appendTo (.slice view) added) ev m fun _ m' => (m'.world [] []).Apart →
      Apart ⟨m.store, m.pending, m.store.elements view, []⟩ := by
  obtain ⟨ws, between, copied, deferred⟩ := copiedAll_run added ev m
  have copies : Ensures shown (copiedAll added) ev m _ :=
    ensures_copiedAll added tidy.begin_ areShown
  unfold Ensures at copies
  rw [copied] at copies
  obtain ⟨length, copying⟩ := copies
  have has : m.store.Has (.items view.backing) :=
    tidy.sound.exist (.inr isShown) (List.mem_singleton_self _)
  have grown : Extends m.store between.store := copying.layered.grown
  have pending : between.pending = m.pending := by
    rw [Machine.pending, Machine.pending, deferred]
  unfold Ensures appendTo
  rw [bind_run_ok copied]
  dsimp only
  unfold appendItems
  rw [bind_run_ok rfl, bind_run_ok (onStore_run _ ev between)]
  by_cases fits : view.length + ws.length ≤ between.limits.maxAlloc
  · have appended := append_grown (s := between.store) (length ▸ grows) fits
    rw [appended, grown.elements has]
    intro apart
    let items := (m.store.elements view).toArray ++ ws.toArray
    have adds := adds_newBacking between.store items
    refine apart.of_placed (.element ⟨between.store.backings.size⟩) ?_ ?_ ?_
    · rintro h u (holds | is | is)
      · have stays := grown.holdsAt holds
        refine .inr ⟨.stored (adds.grown.holdsAt stays), ?_⟩
        rintro i rfl
        exact adds.new (has_of_holdsAt (x := .items _) stays)
      · exact .inr ⟨.pending (pending ▸ is), fun _ => by rintro ⟨⟩⟩
      · cases is
    · intro i u is
      have stored : (between.store.newBacking items).2.backings[between.store.backings.size]? =
          some items := Array.getElem?_push_size
      refine .inr (.stored (.element stored ?_))
      have inside := (List.getElem?_eq_some_iff.mp is).1
      rw [Array.getElem?_append_left (by simpa using inside)]
      simpa using is
    · intro i j _ _ same
      exact (Holder.element.inj same).2
  · rw [append_tooLong (Nat.not_le.mp fits)]
    exact copying.tidy

theorem exposes_append (tidy : m.Tidy shown) {items : List Value} (isShown : v ∈ shown)
    (areShown : ∀ u ∈ items, u ∈ shown) :
    Ensures shown (appendTo v items) ev m fun _ =>
      Exposes m.store ((Storing.append v items).uncopied m.store) m := by
  have inTidy (shared) : Ensures shown (appendTo v items) ev m _ :=
    ensures_appendTo tidy isShown areShown shared
  cases v with
  | slice view =>
      unfold Storing.uncopied
      dsimp only
      cases inPlace : appendsInPlace view items.length with
      | true =>
          refine (inTidy ?_).overlook (fun _ mem => mem) fun _ _ => exposes_nothing tidy
          rintro _ ⟨⟩ grows
          rw [inPlace] at grows
          cases grows
      | false =>
          by_cases apart : Apart ⟨m.store, m.pending, m.store.elements view, []⟩
          · refine (inTidy ?_).overlook (fun _ mem => mem) fun _ _ after => ?_
            · rintro _ ⟨⟩ _
              exact shared_of_apart apart
            · exact ⟨fun _ => after.overlook nofun, fun _ => apart⟩
          · refine (apart_before_grown tidy isShown areShown inPlace).overlook
              (fun _ mem => mem) fun _ _ before => ?_
            exact ⟨fun wasApart => absurd wasApart apart, before⟩
  | _ => exact (inTidy nofun).overlook (fun _ mem => mem) fun _ _ => exposes_nothing tidy

end

end Eval

/-! ## Every operation -/

namespace Storing

variable {ev : Evaluator} {m m' : Machine} {op : Storing}

theorem exposes_nameResult {scope : ScopeId} {name : String} {v : Value} (tidy : m.Tidy [])
    (ready : (nameResult scope name v).Ready m) :
    Ensures [] (nameResult scope name v).run ev m fun _ =>
      Exposes ((nameResult scope name v).cleared m.store)
        ((nameResult scope name v).uncopied m.store) m := by
  refine ensures_viewing ?_
  cases declared : m.store.localVariable? scope name with
  | some found =>
      have overwrites : (nameResult scope name v).overwritten? m.store = some found.cell := by
        simp [overwritten?, declared]
      have exist : ∀ x ∈ v.mentions, m.store.Has x :=
        fun _ => ready.sound.exist (.inr (List.mem_singleton_self v))
      rw [cleared, overwrites, show uncopied _ _ = [v] by simp [uncopied, overwrites]]
      exact (exposes_writeCell tidy exist (ready.exist _ overwrites)).unused
  | none =>
      have overwrites : (nameResult scope name v).overwritten? m.store = none := by
        simp [overwritten?, declared]
      rw [cleared, overwrites, show uncopied _ _ = [] by simp [uncopied, overwrites]]
      exact ⟨fun _ => tidy, id⟩

/-- After any operation the values are apart exactly if what it stores as it is was held by nobody;
an operation that fails leaves them apart. -/
theorem exposes (tidy : m.Tidy []) (ready : op.Ready m) :
    Ensures [] op.run ev m fun _ => Exposes (op.cleared m.store) (op.uncopied m.store) m := by
  have given : m.Tidy op.given := ⟨ready.sound, tidy.shallow⟩
  have exist {v : Value} (mem : v ∈ op.given) : ∀ x ∈ v.mentions, m.store.Has x :=
    fun _ => ready.sound.exist (.inr mem)
  have copied (ensures : Ensures op.given op.run ev m fun _ m' => m'.Tidy op.given) :
      Ensures [] op.run ev m fun _ => Exposes m.store [] m :=
    ensures.overlook nofun fun _ _ => exposes_nothing given
  cases op with
  | declare scope type width names values =>
      exact copied (ensures_defineEach scope type width names values m given fun _ mem => mem)
  | defineShort scope names values widths =>
      refine copied (Ensures.unused ?_)
      exact ensures_defineNew scope names values widths false m given fun _ mem => mem
  | bindParameters scope params arguments =>
      exact copied (ensures_bindEach scope params arguments m given fun _ mem => mem)
  | bindReceiver scope name receiver v =>
      refine copied ((ensures_boundReceiver given (List.mem_singleton_self v) receiver).bind ?_)
      exact fun w m' copying => ensures_define copying (.inl rfl) scope name none
  | beginRound inner target item =>
      refine copied (ensures_copying given (List.mem_singleton_self item) ?_)
      exact fun w m' copying => ensures_declareName copying inner target
  | assignVariable name v scope =>
      refine copied (ensures_copying given (List.mem_singleton_self v) fun w m' copying => ?_)
      exact (ensures_assignVariable copying name scope).unused
  | assignField target field v =>
      refine copied (ensures_copying given (List.mem_cons_of_mem _ (List.mem_singleton_self v)) ?_)
      exact fun w m' copying => ensures_assignField given List.mem_cons_self copying field
  | assignElement container key v =>
      refine copied (ensures_copying given (List.mem_cons_of_mem _ (List.mem_singleton_self v)) ?_)
      exact fun w m' copying => ensures_assignElement given List.mem_cons_self copying key
  | assignThrough pointer v =>
      refine copied (ensures_copying given (List.mem_cons_of_mem _ (List.mem_singleton_self v)) ?_)
      exact fun w m' copying => ensures_assignThrough given List.mem_cons_self copying
  | copyElements destination source =>
      exact copied (ensures_copyElements given List.mem_cons_self).unused
  | structLiteral type values =>
      refine copied ((ensures_copiedAll values given.begin_ fun _ mem => mem).bind ?_)
      exact fun ws m' ⟨_, copying⟩ => (ensures_newStruct type copying).unused
  | mapEntry map keyType valueType key v =>
      refine copied ((ensures_kept keyType given.begin_ List.mem_cons_self).bind ?_)
      rintro k m' ⟨w, -, copying⟩
      have isShown := List.mem_cons_of_mem key (List.mem_singleton_self v)
      refine (ensures_kept valueType copying isShown).bind ?_
      exact fun u m' ⟨w, passes, copying⟩ => ensures_addEntry copying passes map k
  | append v items =>
      have added : Ensures (v :: items) (appendTo v items) ev m fun _ => Exposes m.store _ m :=
        exposes_append given List.mem_cons_self fun u mem => List.mem_cons_of_mem v mem
      exact Ensures.unused (added.overlook nofun fun _ _ exposes => exposes)
  | bindCase body name c v =>
      refine (ensures_caseValue c v).bind ?_
      rintro w _ ⟨rfl, same⟩
      exact exposes_define tidy (exist (List.mem_singleton_self v)) same body name none
  | defer function arguments => exact exposes_putOff tidy function arguments fun _ => exist
  | bindMethod scope name receiver decl =>
      have inside := exist (List.mem_singleton_self receiver)
      refine exposes_define tidy (fun x mentioned => inside x ?_) (.inl rfl) scope name none
      exact List.mem_append_left _ mentioned
  | renew scope next name => exact exposes_renew tidy scope next name
  | sequenceLiteral items =>
      refine copied ((ensures_copiedAll items given.begin_ fun _ mem => mem).bind ?_)
      exact fun ws m' ⟨_, copying⟩ => (ensures_newSlice copying).unused
  | pointTo v =>
      have exist := exist (List.mem_singleton_self v)
      exact (exposes_pointerTo tidy exist).unused
  | reorder view values => exact copied (ensures_writeElements given ready.reorders)
  | delete v key => exact copied (ensures_deleteFrom given key).unused
  | clear v =>
      have emptied : Ensures [v] (clearAll v) ev m fun _ m' => m'.Tidy [v] :=
        ensures_clearAll given (List.mem_singleton_self v)
      exact copied emptied.unused
  | makeMap => exact copied (ensures_newMap given).unused
  | openScope parent => exact copied (ensures_newScope given parent).unused
  | read x reads => exact copied ((ensures_reads given.begin_ reads).overlook (fun _ mem => mem)
      fun _ _ copying => copying.tidy)
  | packArguments arguments =>
      exact (exposes_newSlice tidy arguments fun _ => exist).unused
  | nameResult scope name v => exact exposes_nameResult tidy ready

end Storing

/-! ## Whole histories -/

/-- The machine that a history of operations leaves; an operation that fails may be recovered
from. -/
def Storing.afterAll (ev : Evaluator) (history : List Storing) (m : Machine) : Machine :=
  history.foldl (fun m op => op.run.left ev m) m

/-- Every operation of a history works on values that may be read, and what it stores as it is is
held by nobody else. -/
def Storing.AllUnshared (ev : Evaluator) : List Storing → Machine → Prop
  | [], _ => True
  | op :: rest, m => op.Ready m ∧ op.Unshared m ∧ AllUnshared ev rest (op.run.left ev m)

section

variable {ev : Evaluator} {m m' : Machine} {op : Storing} {history : List Storing}

theorem tidy_step (tidy : m.Tidy []) (ready : op.Ready m) (unshared : op.Unshared m) :
    (op.run.left ev m).Tidy [] := by
  refine Ensures.tidy ((op.exposes tidy ready).overlook (fun _ mem => mem) ?_)
  exact fun _ _ exposes => exposes.tidy unshared

theorem tidy_after (tidy : m.Tidy []) (unshared : Storing.AllUnshared ev history m) :
    (Storing.afterAll ev history m).Tidy [] := by
  induction history generalizing m with
  | nil => exact tidy
  | cons op rest ih => exact ih (tidy_step tidy unshared.1 unshared.2.1) unshared.2.2

/-- After a history of operations that share nothing, the next operation leaves no two holders with
one struct or array exactly if what it stores without a copy is held by nobody else; then what one
holder reads stays the same whatever is assigned through another one. -/
theorem apart_iff_unshared (tidy : m.Tidy []) (unshared : Storing.AllUnshared ev history m)
    (ready : op.Ready (Storing.afterAll ev history m))
    (ran : op.run.run ev (Storing.afterAll ev history m) = .ok () m') :
    ((m'.world [] []).Apart ↔ op.Unshared (Storing.afterAll ev history m)) ∧
      (op.Unshared (Storing.afterAll ev history m) → (m'.world [] []).Independent) := by
  have exposes : Ensures [] op.run ev _ _ := op.exposes (tidy_after tidy unshared) ready
  unfold Ensures at exposes
  rw [ran] at exposes
  have apart (unshared : op.Unshared (Storing.afterAll ev history m)) : (m'.world [] []).Apart :=
    (exposes.tidy unshared).sound.toApart
  exact ⟨⟨exposes.apart, apart⟩, fun unshared => (apart unshared).independent⟩

end

theorem tidy_initial (options : RunOptions) : (Machine.initial options).Tidy [] := by
  have unheld {h : Holder} {v : Value} :
      ¬ ((Machine.initial options).world [] []).Holds h v := by
    rintro (holds | is | is)
    · cases holds with
      | cell is => cases is
      | field stored _ => cases stored
      | element stored _ => cases stored
      | entry stored _ => cases stored
    · cases is
    · cases is
  have unknown {v : Value} : ¬ ((Machine.initial options).world [] []).Knows v := by
    rintro (⟨h, holds⟩ | isShown)
    · exact unheld holds
    · cases isShown
  refine ⟨⟨⟨fun holds => absurd holds unheld, fun holds => absurd holds unheld⟩, ?_⟩, ?_⟩
  · exact fun knows => absurd knows unknown
  · exact fun v x _ => ⟨not_has_empty x, not_has_empty x⟩

def structVariable : List Storing :=
  [.structLiteral ⟨1, "T", [⟨"a", false, none, false⟩]⟩ [.int 1],
    .defineShort globalScope ["x"] [.struct ⟨0⟩] [none]]

theorem unshared_structVariable :
    Storing.AllUnshared (Evaluator.ofDepth 0) structVariable (Machine.initial {}) := by
  have tidy := tidy_initial {}
  have first : (Storing.structLiteral ⟨1, "T", [⟨"a", false, none, false⟩]⟩ [.int 1]).Ready
      (Machine.initial {}) := by
    refine ⟨(tidy.look fun u mem => ?_).sound, nofun, trivial⟩
    exact List.mem_singleton.mp mem ▸ mayShow_of_plain rfl
  have later : Machine.Tidy [] ((Storing.run _).left (Evaluator.ofDepth 0) _) :=
    tidy_step tidy first tidy.sound.toApart
  refine ⟨first, tidy.sound.toApart, ⟨(later.look fun u mem => .inr ?_).sound, nofun, trivial⟩,
    later.sound.toApart, trivial⟩
  obtain rfl := List.mem_singleton.mp mem
  refine ⟨rfl, fun x mentioned => ?_⟩
  obtain rfl := List.mem_singleton.mp mentioned
  exact Nat.zero_lt_one

/-- The case of a type switch on the variable. -/
def structCase : Storing :=
  .bindCase globalScope "t" ⟨false, [some (.named "T")], []⟩ (.struct ⟨1⟩)

/-- The variable of a type case shares the struct of the variable that the switch is on. -/
theorem apart_iff_unshared_structCase :
    ∃ m', structCase.run.run (Evaluator.ofDepth 0)
        (Storing.afterAll (Evaluator.ofDepth 0) structVariable (Machine.initial {})) = .ok () m' ∧
      ¬ (m'.world [] []).Apart := by
  have tidy := tidy_initial {}
  have unshared := unshared_structVariable
  have held := tidy_after tidy unshared
  have ready : structCase.Ready
      (Storing.afterAll (Evaluator.ofDepth 0) structVariable (Machine.initial {})) := by
    refine ⟨(held.look fun u mem => .inl (.inl ?_)).sound, nofun, trivial⟩
    obtain rfl := List.mem_singleton.mp mem
    exact ⟨.cell ⟨0⟩, .stored (.cell rfl)⟩
  obtain ⟨m', ran⟩ : ∃ m', structCase.run.run (Evaluator.ofDepth 0)
      (Storing.afterAll (Evaluator.ofDepth 0) structVariable (Machine.initial {})) = .ok () m' :=
    ⟨_, rfl⟩
  refine ⟨m', ran, ?_⟩
  rw [(apart_iff_unshared tidy unshared ready ran).1]
  intro apart
  have isStruct : (Value.struct ⟨1⟩).storage? = some (.fields ⟨1⟩) := rfl
  have same := apart.unshared (.stored (.cell rfl) : World.Holds _ (.cell ⟨0⟩) _)
    (.hand rfl : World.Holds _ (.hand 0) _) isStruct isStruct
  cases same

end SandboxedGo
