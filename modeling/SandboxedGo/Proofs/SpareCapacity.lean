import SandboxedGo.Proofs.BuildingSlices
import SandboxedGo.Proofs.RecoveredPanics
import SandboxedGo.Proofs.StoredValues

/-!
# What is behind the elements of a slice

A slice may be cut again up to its capacity, and then it shows places that nobody may have written.
What was put at which place is kept in a ledger beside the store, which is carried through all
changes of backing arrays: making one, writing an element and appending.  Every element is what the
ledger has for its place, or nil.  So a place that was never written shows the zero value of the
elements exactly if that is nil.  Main statement: `capacity_shows_nil`.
-/

set_option autoImplicit false

namespace SandboxedGo.Store

/-! ## Changes of backing arrays -/

/-- What programs do to backing arrays. -/
inductive SliceChange
  | make (items : Array Value)
  | write (view : SliceView) (i : Nat) (v : Value)
  | append (view : SliceView) (items : List Value) (limit : Nat)

namespace SliceChange

/-- The store after a change. -/
def apply : SliceChange → Store → Store
  | make items, s => (s.newSlice items).2
  | write view i v, s => s.setElement view i v
  | append view items limit, s => (s.append view items limit).2

/-- The slice that is changed shows a backing array of the store. -/
def Refers (s : Store) : SliceChange → Prop
  | make _ => True
  | write view _ _ | append view _ _ => view.backing.index < s.backings.size

end SliceChange

/-! ## The ledger -/

/-- What was last put at a place of a backing array; none if nothing ever was. -/
abbrev Ledger := BackingId → Nat → Option Value

namespace Ledger

/-- Everything that the arrays of a store hold was put there. -/
def ofStore (s : Store) : Ledger := fun b place => (s.backing b)[place]?

/-- The ledger after a change.  An array that has grown out of another one has what was put in the
window on that one; a place of it that was not written stays unwritten. -/
def after (known : Ledger) (s : Store) : SliceChange → BackingId → Nat → Option Value
  | .make items, b, place => if b.index = s.backings.size then items[place]? else known b place
  | .write view i v, b, place =>
    if i < view.length ∧ b = view.backing ∧ place = view.start + i then some v else known b place
  | .append view items limit, b, place =>
    if limit < view.length + items.length then known b place
    else if appendsInPlace view items.length then
      if b = view.backing ∧ view.start + view.length ≤ place ∧
          place < view.start + view.length + items.length then
        items[place - (view.start + view.length)]?
      else known b place
    else if b.index = s.backings.size then
      if place < view.length then known view.backing (view.start + place)
      else items[place - view.length]?
    else known b place

/-- Every place of every array holds what the ledger has for it, or nil. -/
def Agrees (s : Store) (known : Ledger) : Prop :=
  ∀ b : BackingId, b.index < s.backings.size →
    ∀ place, (s.backing b)[place]?.getD .nil = (known b place).getD .nil

theorem agrees_ofStore (s : Store) : Agrees s (ofStore s) := fun _ _ _ => rfl

variable {s : Store} {known : Ledger}

theorem Agrees.element (agrees : Agrees s known) {view : SliceView}
    (stored : view.backing.index < s.backings.size) (i : Nat) :
    s.element view i = (known view.backing (view.start + i)).getD .nil :=
  agrees view.backing stored (view.start + i)

/-- With a new array, the ledger has what that array holds, and the same for the others. -/
theorem Agrees.newBacking (agrees : Agrees s known) {items : Array Value} {known' : Ledger}
    (fresh : ∀ place, items[place]?.getD .nil = (known' ⟨s.backings.size⟩ place).getD .nil)
    (others : ∀ b : BackingId, b.index ≠ s.backings.size → known' b = known b) :
    Agrees (s.newBacking items).2 known' := by
  intro b stored place
  by_cases new : b.index = s.backings.size
  · obtain rfl : b = (s.newBacking items).1 := by
      cases b
      exact congrArg BackingId.mk new
    rw [backing_newBacking]
    exact fresh place
  · have old : b.index < s.backings.size := by
      have within : b.index < s.backings.size + 1 := Nat.lt_of_lt_of_eq stored (Array.size_push _)
      omega
    rw [backing_newBacking_of_lt items old, others b new]
    exact agrees b old place

/-- With an array changed, the ledger has what it holds now, and the same for the others. -/
theorem Agrees.modify (agrees : Agrees s known) {changed : BackingId}
    (stored : changed.index < s.backings.size) {f : Array Value → Array Value} {known' : Ledger}
    (here : ∀ place, (f (s.backing changed))[place]?.getD .nil =
      (known' changed place).getD .nil)
    (others : ∀ b, b ≠ changed → known' b = known b) :
    Agrees { s with backings := s.backings.modify changed.index f } known' := by
  intro b within place
  rw [Array.size_modify] at within
  rw [backing_modify stored]
  by_cases same : b = changed
  · rw [if_pos same, same]
    exact here place
  · rw [if_neg same, others b same]
    exact agrees b within place

theorem Agrees.make (agrees : Agrees s known) (items : Array Value) :
    Agrees (s.newSlice items).2 (known.after s (.make items)) := by
  refine agrees.newBacking (fun place => ?_) fun b old => funext fun place => if_neg old
  rw [after, if_pos rfl]

theorem Agrees.write (agrees : Agrees s known) {view : SliceView}
    (stored : view.backing.index < s.backings.size) (i : Nat) (v : Value) :
    Agrees (s.setElement view i v) (known.after s (.write view i v)) := by
  unfold setElement
  by_cases within : i < view.length
  · rw [if_pos within]
    refine agrees.modify stored (fun place => ?_) fun b other => funext fun place =>
      if_neg fun is => other is.2.1
    rw [writeAt_getD, after]
    by_cases here : place = view.start + i
    · rw [if_pos here, if_pos ⟨within, rfl, here⟩]
      rfl
    · rw [if_neg here, if_neg fun is => here is.2.2]
      exact agrees _ stored place
  · have unchanged : known.after s (.write view i v) = known :=
      funext fun b => funext fun place => if_neg fun is => within is.1
    rw [if_neg within, unchanged]
    exact agrees

theorem Agrees.append (agrees : Agrees s known) {view : SliceView}
    (stored : view.backing.index < s.backings.size) (items : List Value) (limit : Nat) :
    Agrees (s.append view items limit).2 (known.after s (.append view items limit)) := by
  by_cases tooLong : limit < view.length + items.length
  · have unchanged : known.after s (.append view items limit) = known :=
      funext fun b => funext fun place => if_pos tooLong
    rw [append_tooLong tooLong, unchanged]
    exact agrees
  · have fits := Nat.not_lt.mp tooLong
    cases inPlace : appendsInPlace view items.length with
    | true =>
        rw [append_inPlace inPlace fits]
        refine agrees.modify stored (fun place => ?_) fun b other => funext fun place => ?_
        · rw [writeFrom_getD, after, if_neg tooLong, if_pos inPlace]
          by_cases here : view.start + view.length ≤ place ∧
              place < view.start + view.length + items.length
          · rw [if_pos here, if_pos ⟨rfl, here⟩]
          · rw [if_neg here, if_neg fun is => here is.2]
            exact agrees _ stored place
        · rw [after, if_neg tooLong, if_pos inPlace]
          exact if_neg fun is => other is.1
    | false =>
        rw [append_grown inPlace fits]
        refine agrees.newBacking (fun place => ?_) fun b old => funext fun place => ?_
        · rw [after, if_neg tooLong, inPlace, if_neg Bool.false_ne_true, if_pos rfl,
            List.append_toArray, List.getElem?_toArray]
          by_cases held : place < view.length
          · rw [if_pos held, List.getElem?_append_left (by rwa [length_elements]),
              getElem?_elements held]
            exact agrees.element stored place
          · rw [if_neg held, List.getElem?_append_right
              (by rw [length_elements]; exact Nat.not_lt.mp held), length_elements]
        · rw [after, if_neg tooLong, inPlace, if_neg Bool.false_ne_true]
          exact if_neg old

theorem Agrees.change (agrees : Agrees s known) {c : SliceChange} (refers : c.Refers s) :
    Agrees (c.apply s) (known.after s c) := by
  cases c with
  | make items => exact agrees.make items
  | write view i v => exact agrees.write refers i v
  | append view items limit => exact agrees.append refers items limit

end Ledger

/-- A store and a ledger that others came to: by changes of backing arrays, and by other changes of
the store between them. -/
inductive History (s₀ : Store) (known₀ : Ledger) : Store → Ledger → Prop
  | start : History s₀ known₀ s₀ known₀
  | change {s : Store} {known : Ledger} (before : History s₀ known₀ s known) (c : SliceChange)
      (refers : c.Refers s) : History s₀ known₀ (c.apply s) (known.after s c)
  | elsewhere {s s' : Store} {known : Ledger} (before : History s₀ known₀ s known)
      (same : s'.backings = s.backings) : History s₀ known₀ s' known

theorem History.agrees {s₀ s : Store} {known₀ known : Ledger} (agrees : known₀.Agrees s₀)
    (history : History s₀ known₀ s known) : known.Agrees s := by
  induction history with
  | start => exact agrees
  | change before c refers ih => exact ih.change refers
  | @elsewhere s s' known before same ih =>
      intro b stored place
      have unchanged : s'.backing b = s.backing b := by rw [backing, backing, same]
      rw [unchanged]
      exact ih b (same ▸ stored) place

end SandboxedGo.Store

namespace SandboxedGo.Eval

variable {ev : Evaluator} {m m' : Machine}

/-! ## Types are kept -/

/-- A computation leaves the declared types as they are. -/
def KeepsTypes {α : Type} (x : Eval α) : Prop :=
  ∀ ev m a m', x.run ev m = .ok a m' → m'.types = m.types

namespace KeepsTypes

variable {α β : Type}

theorem pure (a : α) : KeepsTypes (pure a : Eval α) := by
  intro ev m b m' ran
  rw [(pure_ok ran).2]

theorem error (cause : RuntimeError) : KeepsTypes (Eval.error cause : Eval α) := by
  intro ev m b m' ran
  cases ran

theorem bind {x : Eval α} {f : α → Eval β} (first : KeepsTypes x) (rest : ∀ a, KeepsTypes (f a)) :
    KeepsTypes (x >>= f) := by
  intro ev m b m' ran
  obtain ⟨a, between, begun, ended⟩ := bind_ok ran
  exact (rest a ev between b m' ended).trans (first ev m a between begun)

theorem view (f : Guest → α) : KeepsTypes (Eval.view f) := by
  intro ev m a m' ran
  cases ran
  rfl

theorem onStore (f : Store → α × Store) : KeepsTypes (Eval.onStore f) := by
  intro ev m a m' ran
  cases ran
  rfl

theorem checkAlloc (size : Nat) (cause : Panic) : KeepsTypes (Eval.checkAlloc size cause) := by
  intro ev m a m' ran
  rw [(checkAlloc_ok ran).2]

theorem tick : KeepsTypes Eval.tick := by
  intro ev m a m' ran
  have stop {a : Unit} (ran : Action.checkStop m.stepped = .ok a m') : m'.types = m.types := by
    unfold Action.checkStop at ran
    split at ran
    · cases ran
    · cases ran
      rfl
  change Action.checkBudget m.stepped = _ at ran
  unfold Action.checkBudget at ran
  split at ran
  · split at ran
    · cases ran
    · exact stop ran
  · exact stop ran

theorem tickTimes (count : Nat) : KeepsTypes (Eval.tickTimes count) := by
  induction count with
  | zero => exact .pure ()
  | succ count ih => exact tick.bind fun _ => ih

theorem mapM {f : α → Eval β} (each : ∀ a, KeepsTypes (f a)) (items : List α) :
    KeepsTypes (items.mapM f) := by
  induction items with
  | nil => exact .pure []
  | cons a rest ih =>
      rw [List.mapM_cons]
      exact (each a).bind fun _ => ih.bind fun _ => .pure _

theorem repeated {x : Eval Value} (each : KeepsTypes x) (count : Nat) (acc : Array Value) :
    KeepsTypes (Eval.repeated count x acc) := by
  induction count generalizing acc with
  | zero => exact .pure acc
  | succ count ih => exact each.bind fun v => ih (acc.push v)

theorem newStruct (type : StructDef) (fields : List Value) :
    KeepsTypes (Eval.newStruct type fields) :=
  (onStore _).bind fun _ => .pure _

theorem zeros {x : Eval Value} (each : KeepsTypes x) (count : Nat) :
    KeepsTypes (Eval.zeros count x) := by
  cases count with
  | zero => exact .pure #[]
  | succ count =>
      refine each.bind fun first => ?_
      split
      · exact each.repeated count _
      · exact .pure _

theorem freshStructDef (name : String) (fields : List Source.FieldDecl) :
    KeepsTypes (Eval.freshStructDef name fields) := by
  intro ev m a m' ran
  cases ran
  rfl

theorem zeroWithin (levels : Nat) (ty : Source.TypeExpr) :
    KeepsTypes (Eval.zeroWithin levels ty) := by
  induction levels generalizing ty with
  | zero => exact .error .recursiveType
  | succ levels ih =>
      have structs (def_ : StructDef) (types : List Source.TypeExpr) :
          KeepsTypes (types.mapM (Eval.zeroWithin levels) >>= Eval.newStruct def_) :=
        (mapM ih types).bind fun _ => .newStruct _ _
      cases ty with
      | named name =>
          unfold Eval.zeroWithin
          dsimp only
          split
          · exact .pure _
          · exact .pure _
          · exact .pure _
          · exact .pure _
          · split
            · exact .pure _
            · refine (view _).bind fun decl => ?_
              split
              · exact structs _ _
              · exact ih _
              · exact .error _
      | qualified package name =>
          unfold Eval.zeroWithin
          dsimp only
          have qualified : KeepsTypes (qualifiedName package name) := by
            refine (view _).bind fun found => ?_
            split
            · exact .pure _
            · exact .error _
          refine qualified.bind fun _ => (view _).bind fun decl => ?_
          split
          · exact structs _ _
          · exact .error _
      | slice element => exact (onStore _).bind fun _ => .pure _
      | array length element =>
          exact (checkAlloc _ _).bind fun _ => ((ih element).zeros _).bind fun _ =>
            (onStore _).bind fun _ => .pure _
      | map key value => exact (ih value).bind fun _ => .pure _
      | pointer target => exact .pure Value.nil
      | func => exact .pure Value.nil
      | interface methods => exact .pure Value.nil
      | struct fields =>
          exact (freshStructDef _ _).bind fun _ => (mapM (fun f => ih _) fields).bind fun _ =>
            .newStruct _ _

end KeepsTypes

/-! ## Making -/

/-- The zero value of a type under certain declared types. -/
def IsZeroOf (types : TypeTable) (ty : Source.TypeExpr) (v : Value) : Prop :=
  ∃ ev m m', m.types = types ∧ (zeroValue ty).run ev m = .ok v m'

theorem isZeroOf_nil (types : TypeTable) (ty : Source.TypeExpr) :
    IsZeroOf types ty .nil ↔ types.zeroIsNil nestingLimit ty = true := by
  constructor
  · rintro ⟨ev, m, m', rfl, gives⟩
    exact (zeroWithin_nil nestingLimit ty ev m).mp ⟨m', gives⟩
  · intro isNil
    let m : Machine := { Machine.initial {} with types }
    obtain ⟨m', gives⟩ := (zeroWithin_nil nestingLimit ty (Evaluator.ofDepth 0) m).mpr isNil
    exact ⟨_, m, m', rfl, gives⟩

theorem repeated_zero {ty : Source.TypeExpr} {count : Nat} {acc items : Array Value}
    (ran : (repeated count (zeroValue ty) acc).run ev m = .ok items m')
    (before : ∀ v ∈ acc, IsZeroOf m.types ty v) : ∀ v ∈ items, IsZeroOf m.types ty v := by
  induction count generalizing acc m with
  | zero =>
      obtain ⟨rfl, -⟩ := pure_ok ran
      exact before
  | succ count ih =>
      obtain ⟨v, between, gives, ran⟩ := bind_ok ran
      have kept : between.types = m.types := KeepsTypes.zeroWithin _ ty ev m v between gives
      rw [← kept]
      refine ih ran fun u isIn => ?_
      rw [kept]
      rcases Array.mem_push.mp isIn with old | rfl
      · exact before u old
      · exact ⟨ev, m, between, rfl, gives⟩

theorem filled_zero {ty : Source.TypeExpr} {count : Nat} {items : Array Value}
    (ran : (filled count (zeroValue ty)).run ev m = .ok items m') :
    ∀ v ∈ items, IsZeroOf m.types ty v := by
  cases count with
  | zero =>
      obtain ⟨rfl, -⟩ := pure_ok ran
      exact fun v isIn => absurd isIn (Array.not_mem_empty v)
  | succ count =>
      obtain ⟨_, ticked, ticks, ran⟩ := bind_ok ran
      obtain ⟨first, begun, gives, ran⟩ := bind_ok ran
      obtain ⟨_, counted, counts, ran⟩ := bind_ok ran
      have ticked_types : ticked.types = m.types := KeepsTypes.tick ev m _ ticked ticks
      have begun_types : begun.types = ticked.types :=
        KeepsTypes.zeroWithin _ ty ev ticked first begun gives
      have counted_types : counted.types = begun.types :=
        KeepsTypes.tickTimes _ ev begun _ counted counts
      have zero : IsZeroOf m.types ty first := ⟨ev, ticked, begun, ticked_types, gives⟩
      split at ran
      · have types : counted.types = m.types := counted_types.trans (begun_types.trans ticked_types)
        rw [← types]
        refine repeated_zero ran fun v isIn => ?_
        obtain rfl : v = first := by simpa using isIn
        rwa [types]
      · obtain ⟨rfl, -⟩ := pure_ok ran
        intro v isIn
        rw [(Array.mem_replicate.mp isIn).2]
        exact zero

/-- A slice that was made: its length and capacity, zero values as its elements, and nothing
written behind them. -/
structure Made (types : TypeTable) (element : Source.TypeExpr) (length capacity : Nat)
    (view : SliceView) (s : Store) : Prop where
  length : view.length = length
  capacity : view.capacity = capacity
  stored : view.backing.index < s.backings.size
  zeros : ∀ i < view.length, IsZeroOf types element (s.element view i)
  spare : ∀ i, view.length ≤ i → Store.Ledger.ofStore s view.backing (view.start + i) = none

theorem made_newSlice {types : TypeTable} {element : Source.TypeExpr} {items : Array Value}
    {length : Nat} (size : items.size = length)
    (zeros : ∀ v ∈ items, IsZeroOf types element v) (capacity : Nat) (s : Store) :
    Made types element length capacity { (s.newSlice items).1 with capacity }
      (s.newSlice items).2 := by
  have held : (s.newBacking items).2.backing (s.newBacking items).1 = items :=
    Store.backing_newBacking items s
  have reads (i : Nat) :
      ((s.newBacking items).2.backing (s.newBacking items).1)[0 + i]? = items[i]? := by
    rw [held, Nat.zero_add]
  refine ⟨size, rfl, ?stored, fun i within => ?zeros, fun i behind => ?spare⟩
  case stored => exact Nat.lt_of_lt_of_eq (Nat.lt_succ_self _) (Array.size_push _).symm
  case zeros =>
    have inside : i < items.size := within
    show IsZeroOf types element
      (((s.newBacking items).2.backing (s.newBacking items).1)[0 + i]?.getD .nil)
    rw [reads, Array.getElem?_eq_getElem inside]
    exact zeros _ (Array.getElem_mem inside)
  case spare => exact (reads i).trans (Array.getElem?_eq_none behind)

theorem makeSlice_made {element : Source.TypeExpr} {length capacity : Int} {v : Value}
    (ran : (makeSlice element length capacity).run ev m = .ok v m') :
    ∃ view, v = .slice view ∧
      Made m.types element length.toNat capacity.toNat view m'.store := by
  unfold makeSlice at ran
  by_cases negative : length < 0
  · rw [if_pos negative] at ran
    cases ran
  by_cases smaller : capacity < length
  · rw [if_neg negative, if_pos smaller] at ran
    cases ran
  rw [if_neg negative, if_neg smaller] at ran
  obtain ⟨_, checked, fits, ran⟩ := bind_ok ran
  obtain ⟨-, rfl⟩ := checkAlloc_ok fits
  obtain ⟨_, checked, fits, ran⟩ := bind_ok ran
  obtain ⟨-, rfl⟩ := checkAlloc_ok fits
  obtain ⟨items, filledIn, filling, ran⟩ := bind_ok ran
  cases ran
  exact ⟨_, rfl, made_newSlice (filled_size filling) (filled_zero filling) _ _⟩

/-! ## Cutting up to the capacity -/

/-- A place up to the capacity of a slice at which nothing was ever put. -/
def Unwritten (known : Store.Ledger) (seen : SliceView) (i : Nat) : Prop :=
  known seen.backing (seen.start + i) = none

theorem reslice_whole (seen : SliceView) :
    ∃ whole, reslice seen 0 seen.capacity = .ok whole ∧ whole.length = seen.capacity ∧
      whole.backing = seen.backing ∧ whole.start = seen.start := by
  have inside : ¬(seen.capacity < 0 ∨ seen.capacity < seen.capacity) := by omega
  unfold reslice
  rw [if_neg inside]
  exact ⟨_, rfl, rfl, rfl, rfl⟩

/-- What a slice shows that is cut up to its capacity: what was put at each place, or nil.  So it
shows values of some kind where nothing was put exactly if nil is one, or something was put
everywhere; and if all that was put there is of that kind, the same goes for all that it shows. -/
structure ShowsWritten (s : Store) (known : Store.Ledger) (seen whole : SliceView) : Prop where
  length : whole.length = seen.capacity
  reads : ∀ i < seen.capacity,
    s.element whole i = (known seen.backing (seen.start + i)).getD .nil
  unwritten (P : Value → Prop) :
    (∀ i < seen.capacity, Unwritten known seen i → P (s.element whole i)) ↔
      P .nil ∨ ∀ i < seen.capacity, ¬Unwritten known seen i
  all (P : Value → Prop)
    (written : ∀ i < seen.capacity, ∀ v, known seen.backing (seen.start + i) = some v → P v) :
    (∀ i < seen.capacity, P (s.element whole i)) ↔
      P .nil ∨ ∀ i < seen.capacity, ¬Unwritten known seen i

theorem showsWritten {s : Store} {known : Store.Ledger} (agrees : known.Agrees s)
    {seen : SliceView} (stored : seen.backing.index < s.backings.size) :
    ∃ whole, reslice seen 0 seen.capacity = .ok whole ∧ ShowsWritten s known seen whole := by
  obtain ⟨whole, cut, length, same, start⟩ := reslice_whole seen
  have reads (i : Nat) : s.element whole i = (known seen.backing (seen.start + i)).getD .nil := by
    rw [agrees.element (same ▸ stored), same, start]
  have unwritten (P : Value → Prop) :
      (∀ i < seen.capacity, Unwritten known seen i → P (s.element whole i)) ↔
        P .nil ∨ ∀ i < seen.capacity, ¬Unwritten known seen i := by
    constructor
    · intro each
      by_cases isNil : P .nil
      · exact .inl isNil
      · refine .inr fun i within never => isNil ?_
        have shown := each i within never
        rwa [reads, never] at shown
    · rintro (isNil | written) i within never
      · rw [reads, never]
        exact isNil
      · exact absurd never (written i within)
  refine ⟨whole, cut, length, fun i _ => reads i, unwritten, fun P written => ?_⟩
  rw [← unwritten P]
  constructor
  · exact fun each i within _ => each i within
  · intro each i within
    cases put : known seen.backing (seen.start + i) with
    | none => exact each i within put
    | some v =>
        rw [reads, put]
        exact written i within v put

/-- A slice that was made is filled with zero values up to its length, and behind it nothing is
written.  Whatever is done to slices and to the rest of the store afterwards, every slice can be cut
up to its capacity, and shows what was put there, or nil: the places at which nothing was put show
the zero value of the elements exactly if that is nil, which it is for pointers, functions and
interfaces only, or if there are no such places. -/
theorem capacity_shows_nil {element : Source.TypeExpr} {length capacity : Int} {v : Value}
    (ran : (makeSlice element length capacity).run ev m = .ok v m') :
    (∃ view, v = .slice view ∧
      Made m.types element length.toNat capacity.toNat view m'.store) ∧
    ∀ s known, Store.History m'.store (Store.Ledger.ofStore m'.store) s known →
      ∀ seen : SliceView, seen.backing.index < s.backings.size →
        ∃ whole, reslice seen 0 seen.capacity = .ok whole ∧ ShowsWritten s known seen whole ∧
          ((∀ i < seen.capacity, Unwritten known seen i →
              IsZeroOf m.types element (s.element whole i)) ↔
            m.types.zeroIsNil nestingLimit element = true ∨
              ∀ i < seen.capacity, ¬Unwritten known seen i) := by
  refine ⟨makeSlice_made ran, fun s known later seen stored => ?_⟩
  have agrees := later.agrees (Store.Ledger.agrees_ofStore m'.store)
  obtain ⟨whole, cut, shows⟩ := showsWritten agrees stored
  refine ⟨whole, cut, shows, ?_⟩
  rw [shows.unwritten, isZeroOf_nil]

/-- A slice with one number and room for two more: the second one is shown as nil, and nil is no
number. -/
theorem capacity_shows_nil_number :
    let m := Machine.initial {}
    ∃ v m', (makeSlice (.named "int") 1 3).run (Evaluator.ofDepth 0) m = .ok v m' ∧
      ∃ view whole, v = .slice view ∧ reslice view 0 view.capacity = .ok whole ∧
        m'.store.element whole 1 = .nil ∧ ¬IsZeroOf m.types (.named "int") .nil := by
  intro m
  obtain ⟨v, m', ran⟩ : ∃ v m', (makeSlice (.named "int") 1 3).run (Evaluator.ofDepth 0) m =
      .ok v m' := ⟨_, _, rfl⟩
  obtain ⟨⟨view, is, made⟩, later⟩ := capacity_shows_nil ran
  obtain ⟨whole, cut, shows, -⟩ := later _ _ .start view made.stored
  have roomy : 1 < view.capacity := by
    rw [made.capacity]
    decide
  have behind : view.length ≤ 1 := by
    rw [made.length]
    decide
  refine ⟨v, m', ran, view, whole, is, cut, ?_, ?_⟩
  · rw [shows.reads 1 roomy, made.spare 1 behind]
    rfl
  · rw [isZeroOf_nil]
    decide

end SandboxedGo.Eval
