import SandboxedGo.Eval.Literals
import SandboxedGo.Eval.Statements
import SandboxedGo.Proofs.Following
import SandboxedGo.Proofs.StoreChanges

/-!
# Storing copies

Declarations, assignments, parameters, literals and the predeclared functions copy a value before
they store it.  Each of them leaves a tidy machine tidy, however it ends.
-/

set_option autoImplicit false

namespace SandboxedGo

open Source World Store

/-! ## Tidy machines -/

namespace Machine

/-- The functions and the arguments of the calls that are put off, earliest call first. -/
def pending (m : Machine) : List Value :=
  (m.deferred.reverse.flatMap List.reverse).flatMap fun d => d.function :: d.arguments

/-- Everything that holds values, with what a computation has in its hand and what it looks at. -/
def world (m : Machine) (hand shown : List Value) : World := ⟨m.store, m.pending, hand, shown⟩

/-- No two holders share a struct or an array, and no value is nested deeper than there are objects;
the values that are looked at may be read by an operation. -/
structure Tidy (shown : List Value) (m : Machine) : Prop where
  sound : (m.world [] shown).Sound
  shallow : m.store.Shallow

end Machine

section

variable {base : Store} {m m' : Machine} {hand shown others : List Value}

theorem Machine.Tidy.begin_ (tidy : m.Tidy shown) : Copying m.store (m.world [] shown) :=
  .begin_ tidy.sound tidy.shallow

theorem Machine.Tidy.look (tidy : m.Tidy shown)
    (may : ∀ u ∈ others, (m.world [] shown).MayShow u) : m.Tidy others :=
  ⟨tidy.sound.look may, tidy.shallow⟩

theorem Machine.Tidy.overlook (tidy : m.Tidy shown) (fewer : ∀ u ∈ others, u ∈ shown) :
    m.Tidy others :=
  tidy.look fun u mem => .inl (.inr (fewer u mem))

theorem Copying.tidy (copying : Copying base (m.world hand shown)) : m.Tidy shown := by
  have copying : Copying base ⟨m.store, m.pending, [] ++ hand, shown⟩ := copying
  exact ⟨copying.drop.sound, copying.shallow⟩

theorem world_eq (store : m'.store = m.store) (deferred : m'.deferred = m.deferred)
    (hand shown : List Value) : m'.world hand shown = m.world hand shown := by
  rw [Machine.world, Machine.world, Machine.pending, Machine.pending, store, deferred]

theorem Machine.Tidy.target_exists {v : Value} {x : Storage}
    (tidy : m.Tidy shown) (isShown : v ∈ shown) (mentioned : x ∈ (m.store.target v).mentions) :
    m.store.Has x := by
  rcases World.knows_behind (W := m.world [] shown) (m.store.cells.size + 1)
    (.inr (.inr isShown)) with plain | knows
  · exact absurd (plain ▸ mentioned) List.not_mem_nil
  · exact tidy.sound.exist knows mentioned

end

/-! ## What computations ensure -/

namespace Eval

/-- A computation leads to a machine with a property, or it fails and leaves a tidy machine. -/
def Ensures {α : Type} (shown : List Value) (x : Eval α) (ev : Evaluator) (m : Machine)
    (Q : α → Machine → Prop) : Prop :=
  match x.run ev m with
  | .ok a m' => Q a m'
  | .error _ m' => m'.Tidy shown

section

variable {α β : Type} {base : Store} {ev : Evaluator} {m : Machine} {hand shown : List Value}
  {v : Value} {Q R : α → Machine → Prop}

theorem Ensures.tidy {x : Eval α} (ensures : Ensures shown x ev m fun _ m' => m'.Tidy shown) :
    (x.left ev m).Tidy shown := by
  unfold Ensures at ensures
  unfold left
  split at ensures <;> simp_all

theorem Ensures.bind {x : Eval α} {f : α → Eval β} {T : β → Machine → Prop}
    (first : Ensures shown x ev m Q) (rest : ∀ a m', Q a m' → Ensures shown (f a) ev m' T) :
    Ensures shown (x >>= f) ev m T := by
  unfold Ensures at first ⊢
  rw [bind_run]
  cases ran : x.run ev m with
  | ok a between =>
      rw [ran] at first
      exact rest a between first
  | error e between =>
      rw [ran] at first
      exact first

theorem Ensures.unused {x : Eval α} {T : Machine → Prop}
    (ensures : Ensures shown x ev m fun _ => T) :
    Ensures shown (do let _ ← x : Eval Unit) ev m fun _ => T :=
  ensures.bind fun _ _ after => after

theorem Ensures.overlook {others : List Value} {x : Eval α} (ensures : Ensures others x ev m Q)
    (fewer : ∀ u ∈ shown, u ∈ others) (weaker : ∀ a m', Q a m' → R a m') :
    Ensures shown x ev m R := by
  unfold Ensures at ensures ⊢
  split at ensures
  · exact weaker _ _ ensures
  · exact ensures.overlook fewer

/-- A computation that only reads changes nothing about who holds what. -/
theorem ensures_reads {x : Eval α} (copying : Copying base (m.world hand shown)) (reads : Reads x) :
    Ensures shown x ev m fun _ m' => Copying base (m'.world hand shown) := by
  have same := world_eq (reads.store ev m) (reads.deferred ev m) hand shown
  rw [← same] at copying
  unfold left at copying
  unfold Ensures
  cases ran : x.run ev m with
  | ok a m' =>
      rw [ran] at copying
      exact copying
  | error e m' =>
      rw [ran] at copying
      exact copying.tidy

theorem ensures_copied (copying : Copying base (m.world hand shown)) (isShown : v ∈ shown) :
    Ensures shown (copied v) ev m fun w m' => Copying base (m'.world (hand ++ [w]) shown) := by
  have made := (Copying.copied copying isShown).1
  unfold copied
  split
  · exact made
  · rename_i noContents
    rw [Store.copied, if_neg noContents] at made
    exact made

theorem ensures_copiedAll (values : List Value) (copying : Copying base (m.world hand shown))
    (areShown : ∀ v ∈ values, v ∈ shown) :
    Ensures shown (copiedAll values) ev m fun ws m' =>
      ws.length = values.length ∧ Copying base (m'.world (hand ++ ws) shown) := by
  unfold copiedAll
  induction values generalizing m hand with
  | nil =>
      refine ⟨rfl, ?_⟩
      show Copying base (m.world (hand ++ []) shown)
      rwa [List.append_nil]
  | cons v rest ih =>
      rw [List.mapM_cons]
      refine (ensures_copied copying (areShown v List.mem_cons_self)).bind fun w m' copying => ?_
      refine (ih copying fun u mem => areShown u (List.mem_cons_of_mem v mem)).bind ?_
      rintro ws m' ⟨length, copying⟩
      rw [List.append_assoc] at copying
      exact ⟨congrArg (· + 1) length, copying⟩

theorem ensures_onStore (hand : List Value) {f : Store → α × Store} {slot : Nat → Holder}
    {moved : List Value}
    (copying : Copying base (m.world (hand ++ moved) shown))
    (puts : Puts slot moved m.store (f m.store).2)
    (inBase : ∀ i x j, i < moved.length → slot i = x.place j → base.Has x) :
    Ensures shown (onStore f) ev m fun _ m' => m'.Tidy shown := by
  obtain ⟨sound, shallow⟩ := copying.store puts inBase
  have dropped : Sound ⟨(f m.store).2, m.pending, [] ++ hand, shown⟩ := sound
  exact ⟨dropped.move .hand (fun _ _ holds => .inr (.inl holds)) fun _ => id, shallow⟩

theorem ensures_changeStore (hand : List Value) {f : Store → Store} {slot : Nat → Holder}
    {moved : List Value}
    (copying : Copying base (m.world (hand ++ moved) shown))
    (puts : Puts slot moved m.store (f m.store))
    (inBase : ∀ i x j, i < moved.length → slot i = x.place j → base.Has x) :
    Ensures shown (changeStore f) ev m fun _ m' => m'.Tidy shown :=
  ensures_onStore hand (f := fun s => ((), f s)) copying puts inBase

theorem ensures_keepingHolders {f : Store → α × Store} (copying : Copying base (m.world hand shown))
    (held : ∀ h u, (f m.store).2.HoldsAt h u → m.store.HoldsAt h u)
    (has : ∀ x, (f m.store).2.Has x ↔ m.store.Has x)
    (count : (f m.store).2.storageCount = m.store.storageCount) :
    Ensures shown (onStore f) ev m fun _ m' => m'.Tidy shown := by
  have copying : Copying base (m.world (hand ++ []) shown) := by rwa [List.append_nil]
  have puts : Puts .hand [] m.store (f m.store).2 :=
    ⟨fun h u holds => .inr (.inl (held h u holds)), has, count⟩
  exact ensures_onStore hand copying puts nofun

theorem ensures_asking {γ : Type} {f : Guest → γ} {k : γ → Eval α}
    (rest : Ensures shown (k (f m.toGuest)) ev m Q) :
    Ensures shown (do k (← view f)) ev m Q := rest

theorem ensures_viewing {γ : Type} {f : Store → γ} {k : γ → Eval α}
    (rest : Ensures shown (k (f m.store)) ev m Q) :
    Ensures shown (do k (← viewStore f)) ev m Q := rest

theorem ensures_error (copying : Copying base (m.world hand shown)) (cause : RuntimeError) :
    Ensures shown (error cause) ev m Q := copying.tidy

theorem ensures_panic (copying : Copying base (m.world hand shown)) (cause : Panic) :
    Ensures shown (panic cause) ev m Q := copying.tidy

theorem ensures_refusal (copying : Copying base (m.world hand shown)) (u : Value)
    (cause : String → RuntimeError) :
    Ensures shown (do error (cause (← typeName u))) ev m Q :=
  (ensures_reads copying (reads_typeName u)).bind fun _ _ copying => ensures_error copying _

/-! ## Variables -/

theorem cell_inBase (c : CellId) (i : Nat) (x : Storage) (j : Nat) (_ : i < [v].length)
    (same : (fun _ : Nat => Holder.cell c) i = x.place j) : base.Has x := by
  cases x <;> cases same

theorem ensures_define {w : Value} (copying : Copying base (m.world [v] shown))
    (passes : Passes v w) (scope : ScopeId) (name : String) (width : Option IntWidth) :
    Ensures shown (define scope name w width) ev m fun _ m' => m'.Tidy shown :=
  ensures_changeStore [] copying (puts_define scope name width passes) (cell_inBase _)

theorem ensures_writeCell {w : Value} (copying : Copying base (m.world [v] shown))
    (passes : Passes v w) (c : CellId) :
    Ensures shown (writeCell c w) ev m fun _ m' => m'.Tidy shown :=
  ensures_changeStore [] copying (puts_setCell c passes) (cell_inBase c)

theorem ensures_copying {f : Value → Eval β} {T : β → Machine → Prop} (tidy : m.Tidy shown)
    (isShown : v ∈ shown)
    (rest : ∀ w m', Copying m.store (m'.world [w] shown) → Ensures shown (f w) ev m' T) :
    Ensures shown (do f (← copied v)) ev m T :=
  (ensures_copied tidy.begin_ isShown).bind rest

theorem ensures_defineEach (scope : ScopeId) (ty : Option TypeExpr) (width : Option IntWidth) :
    ∀ (names : List String) (values : List Value) (m : Machine), m.Tidy shown →
      (∀ v ∈ values, v ∈ shown) →
      Ensures shown (defineEach scope ty width names values) ev m fun _ m' => m'.Tidy shown := by
  intro names
  induction names with
  | nil => exact fun _ _ tidy _ => tidy
  | cons name names ih =>
      intro values m tidy areShown
      cases values with
      | nil => exact tidy
      | cons v values =>
          refine ensures_copying tidy (areShown v List.mem_cons_self) fun w m' copying => ?_
          have others := fun m' tidy => ih values m' tidy fun u mem =>
            areShown u (List.mem_cons_of_mem v mem)
          cases ty with
          | none =>
              exact (ensures_define copying (.inl rfl) scope name width).bind fun _ => others
          | some ty =>
              have passes := passes_adapt m'.types ty w
              exact (ensures_define copying passes scope name width).bind fun _ => others

/-- A short declaration stores copies, in new variables or in those of the same scope. -/
theorem ensures_defineNew (scope : ScopeId) :
    ∀ (names : List String) (values : List Value) (widths : List (Option IntWidth))
      (anyNew : Bool) (m : Machine), m.Tidy shown → (∀ v ∈ values, v ∈ shown) →
      Ensures shown (defineNew scope names values widths anyNew) ev m fun _ m' =>
        m'.Tidy shown := by
  intro names
  induction names with
  | nil => exact fun _ _ _ _ tidy _ => tidy
  | cons name names ih =>
      intro values widths anyNew m tidy areShown
      match values, widths with
      | [], _ => exact tidy
      | _ :: _, [] => exact tidy
      | v :: values, width :: widths =>
          have others := fun anyNew m' tidy => ih values widths anyNew m' tidy fun u mem =>
            areShown u (List.mem_cons_of_mem v mem)
          unfold defineNew
          split
          · exact others anyNew m tidy
          · refine ensures_copying tidy (areShown v List.mem_cons_self) fun w m' copying => ?_
            refine ensures_viewing ?_
            split
            · rename_i found _
              have passes := passes_keepingFloat (m'.store.cell found.cell) w
              exact (ensures_writeCell copying passes found.cell).bind fun _ => others anyNew
            · exact (ensures_define copying (.inl rfl) scope name width).bind fun _ => others true

theorem ensures_bindEach (scope : ScopeId) :
    ∀ (params : List Param) (arguments : List Value) (m : Machine), m.Tidy shown →
      (∀ v ∈ arguments, v ∈ shown) →
      Ensures shown (bindEach scope params arguments) ev m fun _ m' => m'.Tidy shown := by
  intro params
  induction params with
  | nil => exact fun _ _ tidy _ => tidy
  | cons p params ih =>
      intro arguments m tidy areShown
      cases arguments with
      | nil => exact tidy
      | cons v arguments =>
          have others := fun m' tidy => ih arguments m' tidy fun u mem =>
            areShown u (List.mem_cons_of_mem v mem)
          refine ensures_copying tidy (areShown v List.mem_cons_self) fun w m' copying => ?_
          have passes := passes_adapt m'.types p.type w
          refine ensures_asking ?_
          cases p.name with
          | none => exact others m' copying.tidy
          | some name =>
              refine ensures_asking ?_
              exact (ensures_define copying passes scope name _).bind fun _ => others

theorem ensures_assignVariable (copying : Copying base (m.world [v] shown)) (name : String)
    (scope : ScopeId) :
    Ensures shown (assignVariable name v scope) ev m fun _ m' => m'.Tidy shown := by
  unfold assignVariable
  split
  · exact copying.tidy
  · refine ensures_viewing ?_
    split
    · exact ensures_error copying _
    · rename_i found _
      have passes := passes_keepingFloat (m.store.cell found.cell) v
      refine ensures_viewing ?_
      split
      · exact ensures_writeCell copying (passes_int v _) found.cell
      · exact ensures_writeCell copying passes found.cell

/-! ## Parts of values -/

variable {before : Machine}

theorem ensures_walkStore {f : Store → Option α} (copying : Copying base (m.world hand shown))
    (answered : ∀ a, f m.store = some a → Q a m) : Ensures shown (walkStore f) ev m Q := by
  show Ensures shown (ofWalk (f m.store)) ev m Q
  cases found : f m.store with
  | none => exact ⟨copying.tidy.sound, copying.tidy.shallow⟩
  | some a => exact answered a found

theorem ensures_assignField (tidy : before.Tidy shown) {target : Value} (isShown : target ∈ shown)
    (copying : Copying before.store (m.world [v] shown)) (field : String) :
    Ensures shown (assignField target field v) ev m fun _ m' => m'.Tidy shown := by
  have exists_ {x : Storage} (mentioned : x ∈ target.mentions) : before.store.Has x :=
    tidy.sound.exist (.inr isShown) mentioned
  rw [assignField_eq]
  split
  iterate 2
    · rename_i o
      have has := exists_ (List.mem_singleton_self (Storage.fields o))
      refine Ensures.bind (Q := fun found after =>
        m = after ∧ m.store.findField o field = some found)
        (ensures_walkStore copying fun found is => ⟨rfl, is⟩) ?_
      rintro found _ ⟨rfl, is⟩
      split
      · rename_i owner place
        have inBase := findField_inBase copying.layered.grown copying.layered.closed has is
        refine ensures_viewing ?_
        refine ensures_changeStore [] copying (puts_setFieldAt owner place
          (passes_keepingFloat _ v)) fun _ x _ _ same => ?_
        cases x with
        | fields o =>
            cases same
            exact inBase
        | items b => cases same
      · exact (ensures_reads copying (reads_view _)).bind fun _ _ copying =>
          ensures_error copying _
  · exact ensures_panic copying _
  · exact ensures_refusal copying _ _

theorem ensures_assignElement (tidy : before.Tidy shown) {container : Value}
    (isShown : container ∈ shown) (copying : Copying before.store (m.world [v] shown))
    (key : Value) :
    Ensures shown (assignElement container key v) ev m fun _ m' => m'.Tidy shown := by
  have inBase {view : SliceView} (is : m.store.target container = .slice view) :
      before.store.Has (.items view.backing) := by
    have before_is := (copying.layered.grown.target container).symm.trans is
    exact tidy.target_exists isShown (before_is ▸ List.mem_singleton_self _)
  refine ensures_viewing ?_
  split
  · rename_i view is
    refine (ensures_reads copying (reads_asIndex key view.length)).bind fun i m' copying => ?_
    refine ensures_viewing ?_
    refine ensures_changeStore [] copying (puts_setElement view i (passes_keepingFloat _ v))
      fun _ x _ _ same => ?_
    cases x with
    | fields o => cases same
    | items b =>
        cases same
        exact inBase is
  · rename_i entries zero _
    refine (ensures_reads copying (reads_asKey key)).bind fun key m' copying => ?_
    cases entries with
    | none => exact ensures_panic copying _
    | some map =>
        refine ensures_changeStore [] copying (puts_mapInsert map key (passes_keepingFloat zero v))
          fun _ x _ _ same => ?_
        cases x <;> cases same
  · exact ensures_panic copying _
  · exact ensures_error copying _
  · exact ensures_refusal copying _ _

theorem ensures_fill {o : StructId} (has : base.Has (.fields o))
    (copying : Copying base (m.world [v] shown)) (source : StructId) :
    Ensures shown (do
      let object ← viewStore (·.structObject source)
      let fields ← copiedAll object.fields.toList
      changeStore (·.setFields o fields.toArray)) ev m fun _ m' => m'.Tidy shown := by
  let fields := (m.store.structObject source).fields.toList
  have looking : Copying base (m.world [v] (fields ++ shown)) := by
    refine copying.look fun u mem => .inl ?_
    rcases List.mem_append.mp mem with isField | isShown
    · exact knows_part (W := m.world [v] shown) (x := .fields source) isField
    · exact .inr isShown
  have fewer : ∀ u ∈ shown, u ∈ fields ++ shown := fun u mem => List.mem_append_right fields mem
  refine Ensures.overlook ?_ fewer fun _ m' (tidy : m'.Tidy _) => tidy.overlook fewer
  refine (ensures_copiedAll fields looking fun u mem => List.mem_append_left shown mem).bind ?_
  rintro copies m' ⟨-, copying⟩
  refine ensures_changeStore [v] copying (puts_setFields o copies.toArray) fun _ x _ _ same => ?_
  cases x with
  | fields o =>
      cases same
      exact has
  | items b => cases same

theorem ensures_assignThrough (tidy : before.Tidy shown) {pointer : Value}
    (isShown : pointer ∈ shown) (copying : Copying before.store (m.world [v] shown)) :
    Ensures shown (assignThrough pointer v) ev m fun _ m' => m'.Tidy shown := by
  unfold assignThrough
  split
  · exact ensures_viewing (ensures_writeCell copying (passes_keepingFloat _ v) _)
  · rename_i o
    have has : before.store.Has (.fields o) :=
      tidy.sound.exist (.inr isShown) (List.mem_singleton_self _)
    split
    · rename_i source
      split
      · exact copying.tidy
      · exact ensures_fill has copying source
    · rename_i source
      split
      · exact copying.tidy
      · exact ensures_fill has copying source
    · exact ensures_refusal copying _ _
  · exact ensures_panic copying _
  · exact ensures_refusal copying _ _

/-! ## Maps and scopes -/

theorem ensures_newMap (tidy : m.Tidy shown) :
    Ensures shown (onStore Store.newMap) ev m fun _ m' => m'.Tidy shown :=
  ensures_keepingHolders tidy.begin_ (fun _ _ => holdsAt_newMap)
    (fun x => by cases x <;> exact .rfl) rfl

theorem ensures_newScope (tidy : m.Tidy shown) (parent : ScopeId) :
    Ensures shown (newScope parent) ev m fun _ m' => m'.Tidy shown := by
  refine ensures_keepingHolders tidy.begin_ (fun h u holds => ?_) (fun x => ?_) rfl
  · cases holds with
    | cell is => exact .cell is
    | field stored is => exact .field stored is
    | element stored is => exact .element stored is
    | entry stored is => exact .entry stored is
  · cases x <;> exact .rfl

theorem ensures_kept (ty : TypeExpr) (copying : Copying base (m.world hand shown))
    (isShown : v ∈ shown) :
    Ensures shown (kept ty v) ev m fun u m' =>
      ∃ w, Passes w u ∧ Copying base (m'.world (hand ++ [w]) shown) := by
  refine (ensures_copied copying isShown).bind fun w m' copying => ?_
  show ∃ w', Passes w' (m'.types.adapt ty w) ∧ _
  exact ⟨w, passes_adapt m'.types ty w, copying⟩

theorem ensures_addEntry {w : Value} (copying : Copying base (m.world (hand ++ [v]) shown))
    (passes : Passes v w) (map : MapId) (key : Value) :
    Ensures shown (addEntry map key w) ev m fun _ m' => m'.Tidy shown := by
  refine (ensures_reads copying (reads_asKey key)).bind fun key m' copying => ?_
  refine ensures_changeStore hand copying (puts_mapInsert map key passes) fun _ x _ _ same => ?_
  cases x <;> cases same

/-! ## Elements of slices -/

theorem ensures_overwrite (view : SliceView) (isShown : Value.slice view ∈ shown) :
    ∀ (values : List Value) (place : Nat) (m : Machine), m.Tidy shown →
      (∀ v ∈ values, v ∈ shown) →
      Ensures shown (overwrite view place values) ev m fun _ m' => m'.Tidy shown := by
  intro values
  induction values with
  | nil => exact fun _ _ tidy _ => tidy
  | cons v rest ih =>
      intro place m tidy areShown
      refine ensures_copying tidy (areShown v List.mem_cons_self) fun w m' copying => ?_
      have has : m.store.Has (.items view.backing) :=
        tidy.sound.exist (.inr isShown) (List.mem_singleton_self _)
      refine (ensures_changeStore [] copying (puts_setElement view place (.inl rfl))
        fun _ x _ _ same => ?_).bind fun _ m' tidy => ?_
      · cases x with
        | fields o => cases same
        | items b =>
            cases same
            exact has
      · exact ih _ m' tidy fun u mem => areShown u (List.mem_cons_of_mem v mem)

theorem reads_addressText (p : Pointee) : Reads (Format.addressText p) :=
  .bind (reads_addressOf p) fun _ => reads_pure _

theorem reads_builtinText (u : Value) : Reads (Format.builtinText u) := by
  unfold Format.builtinText
  split
  iterate 5 exact reads_pure _
  · exact .bind (reads_addressText _) fun _ => reads_pure _
  · exact .bind (reads_typeName u) fun _ => reads_pure _

theorem ensures_refuseOperand (copying : Copying base (m.world hand shown)) (b : Builtin)
    (u : Value) : Ensures shown (refuseOperand b u) ev m Q :=
  (ensures_reads copying (reads_builtinText u)).bind fun _ _ copying =>
    ensures_refusal copying u _

/-- The predeclared function that copies elements stores copies of them. -/
theorem ensures_copyElements (tidy : m.Tidy shown) {destination source : Value}
    (isShown : destination ∈ shown) :
    Ensures shown (copyElements destination source) ev m fun _ m' => m'.Tidy shown := by
  have writing (items : List Value) (may : ∀ u ∈ items, (m.world [] shown).MayShow u)
      {view : SliceView} (isShown : Value.slice view ∈ shown) (count : Nat) : Ensures shown (do
        overwrite view 0 (items.take count)
        return Value.int (Int64.ofNat count)) ev m fun _ m' => m'.Tidy shown := by
    have looking : m.Tidy (items ++ shown) := tidy.look fun u mem =>
      (List.mem_append.mp mem).elim (may u) fun isShown => .inl (.inr isShown)
    have fewer : ∀ u ∈ shown, u ∈ items ++ shown := fun u mem => List.mem_append_right items mem
    refine (Ensures.overlook ?_ fewer fun _ m' (tidy : m'.Tidy _) => tidy.overlook fewer).bind
      fun _ m' tidy => tidy
    exact ensures_overwrite view (List.mem_append_right items isShown) _ 0 m looking
      fun u mem => List.mem_append_left shown (List.mem_of_mem_take mem)
  unfold copyElements
  dsimp only
  split
  · refine ensures_viewing ?_
    split
    · refine writing _ (fun u mem => ?_) isShown _
      exact (Copying.mem_elements mem).elim mayShow_of_plain fun isPart =>
        .inl (knows_part (W := m.world [] shown) isPart)
    · exact tidy
    · exact ensures_refuseOperand tidy.begin_ _ _
  · rw [pure_bind]
    split
    · refine writing _ (fun u mem => ?_) isShown _
      obtain ⟨b, -, rfl⟩ := List.mem_map.mp mem
      exact mayShow_of_plain rfl
    · exact tidy
    · exact ensures_refuseOperand tidy.begin_ _ _
  · rw [pure_bind]
    split
    · exact writing _ (fun u mem => absurd mem List.not_mem_nil) isShown _
    · exact tidy
    · exact ensures_refuseOperand tidy.begin_ _ _
  · exact (ensures_refuseOperand tidy.begin_ .copy _).bind fun _ _ (tidy : False) => tidy.elim

/-! ### Removing and sorting -/

theorem ensures_deleteFrom (tidy : m.Tidy shown) (key : Value) :
    Ensures shown (deleteFrom v key) ev m fun _ m' => m'.Tidy shown := by
  unfold deleteFrom
  split
  · refine (ensures_reads tidy.begin_ (reads_asKey key)).bind fun key m' copying => ?_
    split
    · rename_i map
      have erasing : Ensures shown (changeStore (·.mapErase map key)) ev m' fun _ m' =>
          m'.Tidy shown :=
        ensures_keepingHolders (f := fun s => ((), s.mapErase map key)) copying
          (fun _ _ => holdsAt_mapErase) (fun x => by cases x <;> exact .rfl) rfl
      exact erasing.bind fun _ _ tidy => tidy
    · exact copying.tidy
  · exact tidy
  · exact ensures_refuseOperand tidy.begin_ _ _

theorem ensures_clearAll (tidy : m.Tidy shown) (isShown : v ∈ shown) :
    Ensures shown (clearAll v) ev m fun _ m' => m'.Tidy shown := by
  unfold clearAll
  split
  · split
    · rename_i map
      have clearing : Ensures shown (changeStore (·.mapClear map)) ev m fun _ m' => m'.Tidy shown :=
        ensures_keepingHolders (f := fun s => ((), s.mapClear map)) tidy.begin_
          (fun _ _ => holdsAt_mapClear) (fun x => by cases x <;> exact .rfl) rfl
      exact clearing.bind fun _ _ tidy => tidy
    · exact tidy
  · rename_i view
    refine ensures_viewing ?_
    let cleared := (m.store.elements view).map clearedValue
    have looking : m.Tidy (cleared ++ shown) := tidy.look fun u mem =>
      (List.mem_append.mp mem).elim (fun isCleared => ?_) fun isShown => .inl (.inr isShown)
    · have fewer : ∀ u ∈ shown, u ∈ cleared ++ shown := fun u mem =>
        List.mem_append_right cleared mem
      refine (Ensures.overlook ?_ fewer fun _ m' (tidy : m'.Tidy _) => tidy.overlook fewer).bind
        fun _ m' tidy => tidy
      exact ensures_overwrite view (List.mem_append_right cleared isShown) _ 0 m looking
        fun u mem => List.mem_append_left shown mem
    · obtain ⟨old, -, rfl⟩ := List.mem_map.mp isCleared
      exact mayShow_of_plain (by cases old <;> rfl)
  · exact tidy
  · exact ensures_refuseOperand tidy.begin_ _ _

/-- Elements that are written back in another order are held by the same array. -/
theorem ensures_writeElements (tidy : m.Tidy shown) {view : SliceView} {values : List Value}
    (perm : values.Perm (m.store.elements view)) :
    Ensures shown (changeStore (Library.writeElements view 0 values)) ev m fun _ m' =>
      m'.Tidy shown := by
  have inside : 0 + values.length ≤ view.length := by
    rw [Nat.zero_add, perm.length_eq, length_elements]
  have has := has_writeElements (s := m.store) view values 0
  have stored (h : Holder) (u : Value)
      (holds : (Library.writeElements view 0 values m.store).HoldsAt h u) := by
    have after := holdsAt_writeElements inside holds
    simpa only [Nat.zero_add] using after
  refine ⟨Sound.reorder tidy.sound (fun i => .element view.backing (view.start + i)) ?_ ?_ perm
    stored fun x => (has x).mpr, tidy.shallow.of_parts has (count_writeElements view values 0) ?_⟩
  · intro i j same
    have place := (Holder.element.inj same).2
    omega
  · exact fun i u is => holdsAt_element is
  · intro x part mem
    obtain ⟨i, holds⟩ := mem_parts_iff.mp mem
    rcases stored _ part holds with plain | ⟨before, -⟩ | ⟨k, at_, is⟩
    · exact .inl plain
    · exact .inr (mem_parts_iff.mpr ⟨i, before⟩)
    · have isElement := Copying.mem_elements (perm.mem_iff.mp (List.mem_of_getElem? is))
      cases x with
      | fields o => cases at_
      | items b =>
          cases (Holder.element.inj at_).1
          exact isElement

/-! ### Appending -/

theorem ensures_appendItems (base : Store) (hand : List Value) {items : List Value}
    (view : SliceView) (tidy : m.Tidy shown)
    (inPlace : appendsInPlace view items.length = true →
      Copying base (m.world (hand ++ items) shown) ∧
        (items ≠ [] → base.Has (.items view.backing)))
    (grows : appendsInPlace view items.length = false →
      Copying base (m.world (m.store.elements view ++ items) shown)) :
    Ensures shown (appendItems view items) ev m fun _ m' => m'.Tidy shown := by
  unfold appendItems Ensures
  rw [bind_run_ok rfl, bind_run_ok (onStore_run _ ev m)]
  by_cases fits : view.length + items.length ≤ m.limits.maxAlloc
  · cases isInPlace : appendsInPlace view items.length with
    | true =>
        have appended := append_inPlace (s := m.store) isInPlace fits
        obtain ⟨copying, has⟩ := inPlace isInPlace
        rw [appended]
        have puts := puts_writeFrom (s := m.store) view.backing (view.start + view.length) items
        have inBase : ∀ i x j, i < items.length →
            Holder.element view.backing (view.start + view.length + i) = Storage.place x j →
            base.Has x := by
          intro i x j inside same
          cases x with
          | fields o => cases same
          | items b =>
              cases same
              exact has (List.ne_nil_of_length_pos (Nat.zero_lt_of_lt inside))
        obtain ⟨sound, shallow⟩ := copying.store puts inBase
        have dropped : Sound ⟨_, m.pending, [] ++ hand, shown⟩ := sound
        exact ⟨dropped.move .hand (fun _ _ holds => .inr (.inl holds)) fun _ => id, shallow⟩
    | false =>
        have appended := append_grown (s := m.store) isInPlace fits
        have copying : Copying base ⟨m.store, m.pending,
            [] ++ ((m.store.elements view).toArray ++ items.toArray).toList, shown⟩ := by
          simpa [Machine.world] using grows isInPlace
        rw [appended]
        have built := copying.buildArray _ false
        exact Copying.tidy (m := { m with store := (m.store.newBacking _).2 }) built
  · rw [append_tooLong (Nat.not_le.mp fits)]
    exact tidy

/-- Items that are appended are copied; the elements in front of them may be shared if they have no
contents of their own. -/
theorem ensures_appendTo (tidy : m.Tidy shown) {items : List Value} (isShown : v ∈ shown)
    (areShown : ∀ u ∈ items, u ∈ shown)
    (shared : ∀ view, v = .slice view → appendsInPlace view items.length = false →
      ∀ u ∈ m.store.elements view, ∀ x, u.storage? ≠ some x) :
    Ensures shown (appendTo v items) ev m fun _ m' => m'.Tidy shown := by
  have copies : Ensures shown (copiedAll items) ev m _ :=
    ensures_copiedAll items tidy.begin_ areShown
  unfold appendTo
  cases v with
  | slice view =>
      have has : m.store.Has (.items view.backing) :=
        tidy.sound.exist (.inr isShown) (List.mem_singleton_self _)
      cases isInPlace : appendsInPlace view items.length with
      | true =>
          refine copies.bind fun ws m' ⟨length, copying⟩ => ?_
          refine ensures_appendItems m.store [] view copying.tidy
            (fun _ => ⟨copying, fun _ => has⟩) fun grows => ?_
          rw [length, isInPlace] at grows
          cases grows
      | false =>
          have taken := tidy.begin_.takeAllShared (m.store.elements view) (fun u mem => ?_)
            (shared view rfl isInPlace)
          · refine (ensures_copiedAll items taken areShown).bind fun ws m' ⟨length, copying⟩ => ?_
            refine ensures_appendItems m.store [] view copying.tidy (fun inPlace => ?_) fun _ => ?_
            · rw [length, isInPlace] at inPlace
              cases inPlace
            · have same : m'.store.elements view = m.store.elements view :=
                copying.layered.grown.elements has
              rw [same]
              exact copying
          · exact (Copying.mem_elements mem).elim mayShow_of_plain fun isPart =>
              .inl (knows_part (W := m.world [] shown) isPart)
  | nil =>
      refine copies.bind fun ws m' ⟨length, copying⟩ => ?_
      have built : Copying m.store ⟨(m'.store.newSlice #[]).2, m'.pending, ws, shown⟩ := by
        refine (Copying.buildArray #[] false ?_).drop
        simpa [Machine.world] using copying
      refine Ensures.bind (Q := fun empty after => empty = (m'.store.newSlice #[]).1 ∧
        Copying m.store (after.world ws shown)) ⟨rfl, built⟩ ?_
      rintro empty after ⟨rfl, copying⟩
      refine ensures_appendItems m.store [] _ copying.tidy
        (fun inPlace => ⟨copying, fun some => absurd ?_ some⟩) fun _ => copying
      simpa [appendsInPlace, Store.newSlice] using inPlace
  | _ =>
      refine copies.bind fun ws m' ⟨length, copying⟩ => ?_
      exact (ensures_reads copying (reads_builtinText _)).bind fun _ _ copying =>
        ensures_refusal copying _ _

/-! ## Receivers, rounds and literals -/

/-- A method works on its receiver itself through a pointer, and else on a copy. -/
theorem ensures_boundReceiver (tidy : m.Tidy shown) (isShown : v ∈ shown) (receiver : Receiver) :
    Ensures shown (boundReceiver receiver v) ev m fun w m' =>
      Copying m.store (m'.world [w] shown) := by
  have copy : Ensures shown (copied v) ev m _ := ensures_copied tidy.begin_ isShown
  cases v with
  | struct o =>
      have has : m.store.Has (.fields o) :=
        tidy.sound.exist (.inr isShown) (List.mem_singleton_self _)
      unfold boundReceiver
      dsimp only
      split
      · refine tidy.begin_.takeShared (.inr ⟨rfl, fun x mem => ?_⟩) nofun
        exact List.mem_singleton.mp mem ▸ has
      · exact copy
  | pointer o =>
      have has : m.store.Has (.fields o) :=
        tidy.sound.exist (.inr isShown) (List.mem_singleton_self _)
      unfold boundReceiver
      dsimp only
      split
      · exact tidy.begin_.takeShared (.inl (.inr isShown)) nofun
      · have looking : Copying m.store (m.world [] (.struct o :: shown)) := by
          refine tidy.begin_.look fun u mem => ?_
          rcases List.mem_cons.mp mem with rfl | isShown
          · exact .inr ⟨rfl, fun x mem => List.mem_singleton.mp mem ▸ has⟩
          · exact .inl (.inr isShown)
        refine (ensures_copied looking List.mem_cons_self).overlook
          (fun u mem => List.mem_cons_of_mem _ mem) fun w m' copying => ?_
        exact copying.look fun u mem => .inl (.inr (List.mem_cons_of_mem _ mem))
  | _ => exact copy

theorem ensures_declareName (copying : Copying base (m.world [v] shown)) (inner : ScopeId)
    (target : Option Expr) :
    Ensures shown (RangeLoop.declareName inner target v) ev m fun _ m' => m'.Tidy shown := by
  unfold RangeLoop.declareName
  split
  · exact ensures_define copying (.inl rfl) inner _ none
  · exact copying.tidy

theorem ensures_newStruct (type : StructDef) {values : List Value}
    (copying : Copying base (m.world ([] ++ values) shown)) :
    Ensures shown (newStruct type values) ev m fun _ m' => m'.Tidy shown :=
  Copying.tidy (m := { m with store := (m.store.newStruct type values.toArray).2 })
    (Copying.buildStruct type values.toArray copying)

theorem ensures_newSlice {items : List Value}
    (copying : Copying base (m.world ([] ++ items) shown)) :
    Ensures shown (newSlice items) ev m fun _ m' => m'.Tidy shown :=
  Copying.tidy (m := { m with store := (m.store.newSlice items.toArray).2 })
    (Copying.buildArray items.toArray false copying)

end

end Eval

end SandboxedGo
