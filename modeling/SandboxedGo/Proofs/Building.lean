import SandboxedGo.Eval.TypeOperands
import SandboxedGo.Library.Strings
import SandboxedGo.Proofs.Following

/-!
# Building and asking for it

A step that builds something may ask the cap first.  `Builds` says what it asks for and how large
what it builds is.  Texts that are put together or repeated are asked for, and so is what is written
to a string builder.
-/

set_option autoImplicit false

namespace SandboxedGo

/-- How much of the cap a value takes: the bytes of a text, the elements of a slice. -/
def Value.extent : Value → Nat
  | .string s => s.utf8ByteSize
  | .slice view => view.length
  | _ => 0

/-- How large a returned value is. -/
def returnedSize (_ : Machine) (v : Value) : Nat := v.extent

/-- Whether the cap of a run allows what is asked for, if anything is. -/
def Machine.Allows (m : Machine) (asked : Option Nat) : Prop :=
  ∀ n, asked = some n → n ≤ m.limits.maxAlloc

theorem Machine.allows_none (m : Machine) : m.Allows none := nofun

theorem Machine.allows_some {m : Machine} {n : Nat} : m.Allows (some n) ↔ n ≤ m.limits.maxAlloc :=
  ⟨fun allows => allows n rfl, fun enough _ is => Option.some.inj is ▸ enough⟩

theorem Machine.allows_max {m : Machine} {n : Nat} {asked : Option Nat} :
    m.Allows (some (max n (asked.getD 0))) ↔ n ≤ m.limits.maxAlloc ∧ m.Allows asked := by
  rw [allows_some, Nat.max_le]
  cases asked with
  | none => exact and_congr_right fun _ => iff_of_true (Nat.zero_le _) m.allows_none
  | some other => exact and_congr_right fun _ => allows_some.symm

/-- What becomes of a computation that builds something.  It asks the cap for `asked`, if it asks at
all, and what it has built when it returns is `built` large. -/
structure Builds (x : Eval Value) (ev : Evaluator) (m : Machine) (asked : Option Nat)
    (size : Machine → Value → Nat) (built : Nat) : Prop where
  refused : ¬ m.Allows asked → ∃ cause m', x.run ev m = .error (.signal (.panic cause)) m'
  sized : ∀ v m', x.run ev m = .ok v m' → size m' v = built

/-- Moreover, nothing but the cap keeps it from returning. -/
structure SurelyBuilds (x : Eval Value) (ev : Evaluator) (m : Machine) (asked : Option Nat)
    (size : Machine → Value → Nat) (built : Nat) : Prop
    extends Builds x ev m asked size built where
  returns : m.Allows asked → ∃ v m', x.run ev m = .ok v m'

section

variable {x : Eval Value} {ev : Evaluator} {m m' : Machine} {v : Value}
variable {asked : Option Nat} {n built : Nat} {size : Machine → Value → Nat}

/-- What a computation builds depends on how it runs only. -/
theorem Builds.of_run {y : Eval Value} (same : x.run ev m = y.run ev m)
    (builds : Builds y ev m asked size built) : Builds x ev m asked size built where
  refused large := by rw [same]; exact builds.refused large
  sized w after returned := builds.sized w after (same ▸ returned)

theorem SurelyBuilds.of_run {y : Eval Value} (same : x.run ev m = y.run ev m)
    (builds : SurelyBuilds y ev m asked size built) : SurelyBuilds x ev m asked size built where
  toBuilds := .of_run same builds.toBuilds
  returns allowed := by rw [same]; exact builds.returns allowed

theorem Machine.allows_congr (limits : m'.limits = m.limits) :
    m'.Allows asked ↔ m.Allows asked := by
  unfold Machine.Allows
  rw [limits]

/-- Before it builds something, a computation may do something else under the same limits. -/
theorem Builds.behind {α : Type} {first : Eval α} {rest : α → Eval Value} {a : α}
    (ran : first.run ev m = .ok a m') (limits : m'.limits = m.limits)
    (builds : Builds (rest a) ev m' asked size built) :
    Builds (first >>= rest) ev m asked size built where
  refused large := by
    rw [Eval.bind_run_ok ran]
    exact builds.refused (mt (Machine.allows_congr limits).mp large)
  sized w after returned := by
    rw [Eval.bind_run_ok ran] at returned
    exact builds.sized w after returned

theorem SurelyBuilds.behind {α : Type} {first : Eval α} {rest : α → Eval Value} {a : α}
    (ran : first.run ev m = .ok a m') (limits : m'.limits = m.limits)
    (builds : SurelyBuilds (rest a) ev m' asked size built) :
    SurelyBuilds (first >>= rest) ev m asked size built where
  toBuilds := .behind ran limits builds.toBuilds
  returns allowed := by
    rw [Eval.bind_run_ok ran]
    exact builds.returns ((Machine.allows_congr limits).mpr allowed)

theorem SurelyBuilds.freely (ran : x.run ev m = .ok v m') (exact : size m' v = built) :
    SurelyBuilds x ev m none size built where
  refused large := absurd m.allows_none large
  sized w after returned := by
    rw [ran] at returned
    cases returned
    exact exact
  returns _ := ⟨v, m', ran⟩

theorem Builds.asking {cause : Panic} {rest : Unit → Eval Value}
    (sized : ∀ w after, (rest ()).run ev m = .ok w after → size after w = built) :
    Builds (Eval.checkAlloc n cause >>= rest) ev m (some n) size built where
  refused large := by
    rw [Machine.allows_some, Nat.not_le] at large
    exact ⟨cause, m, Eval.bind_run_error (Eval.checkAlloc_panics large cause) rest⟩
  sized w after returned := by
    obtain ⟨_, between, checked, returned⟩ := Eval.bind_ok returned
    obtain ⟨-, rfl⟩ := Eval.checkAlloc_ok checked
    exact sized w after returned

theorem SurelyBuilds.asking {cause : Panic} {rest : Unit → Eval Value}
    (ran : (rest ()).run ev m = .ok v m') (exact : size m' v = built) :
    SurelyBuilds (Eval.checkAlloc n cause >>= rest) ev m (some n) size built where
  toBuilds := .asking fun w after returned => by
    rw [ran] at returned
    cases returned
    exact exact
  returns allowed := by
    rw [Machine.allows_some] at allowed
    exact ⟨v, m', by rw [Eval.bind_run_ok (Eval.checkAlloc_passes allowed cause), ran]⟩

end

namespace Eval

variable {ev : Evaluator} {m : Machine}

/-! ## Texts -/

theorem concat_builds (x y : String) :
    SurelyBuilds (binary .add (.string x) (.string y)) ev m
      (some (x.utf8ByteSize + y.utf8ByteSize)) returnedSize
      (x.utf8ByteSize + y.utf8ByteSize) := by
  have unfolded : binary .add (.string x) (.string y) =
      (checkAlloc (x.utf8ByteSize + y.utf8ByteSize) .stringTooLong >>= fun _ =>
        pure (.string (x ++ y))) := rfl
  rw [unfolded]
  exact .asking rfl String.utf8ByteSize_append

theorem utf8ByteSize_repeatText (text : String) (count : Nat) :
    (Library.repeatText text count).utf8ByteSize = text.utf8ByteSize * count := by
  unfold Library.repeatText
  split
  · rename_i empty
    rw [String.isEmpty_iff] at empty
    simp [empty]
  · induction count with
    | zero => simp
    | succ count ih =>
        rw [List.replicate_succ, String.join_cons, String.utf8ByteSize_append, ih, Nat.mul_succ]
        omega

theorem repeat_builds (s : String) (n : Int64) :
    Builds (Library.StringsFunction.repeated.call [.string s, .int n]) ev m
      (some (s.utf8ByteSize * n.toInt.toNat)) returnedSize (s.utf8ByteSize * n.toInt.toNat) := by
  have unfolded : Library.StringsFunction.repeated.call [.string s, .int n] = (do
      if n < 0 then panic .negativeRepeat
      checkAlloc (s.utf8ByteSize * n.toInt.toNat) .repeatTooLong
      return .string (Library.repeatText s n.toInt.toNat)) := rfl
  rw [unfolded]
  by_cases negative : n < 0
  · rw [if_pos negative]
    exact ⟨fun _ => ⟨.negativeRepeat, m, rfl⟩, nofun⟩
  · rw [if_neg negative]
    exact .asking fun v after returned => by
      cases returned
      exact utf8ByteSize_repeatText s n.toInt.toNat

/-! ## String builders -/

end Eval

/-- Whether a struct is a string builder. -/
def Store.IsBuilder (s : Store) (o : StructId) : Prop :=
  s.structName o = builderType ∧ 0 < (s.structObject o).fields.size

instance (s : Store) (o : StructId) : Decidable (s.IsBuilder o) :=
  inferInstanceAs (Decidable (_ ∧ _))

/-- How large the text of a builder is. -/
def builderSize (o : StructId) (m : Machine) (_ : Value) : Nat :=
  (Eval.builtText m.store o).utf8ByteSize

namespace Eval

variable {ev : Evaluator} {m : Machine}

theorem builtText_setFieldAt {s : Store} {o : StructId} (builder : s.IsBuilder o) (text : String) :
    builtText (s.setFieldAt o 0 (.string text)) o = text := by
  obtain ⟨-, holds⟩ := builder
  unfold Store.structObject at holds
  cases found : s.structs[o.index]? with
  | none =>
      rw [found] at holds
      simp at holds
  | some object =>
      rw [found, Option.getD_some] at holds
      simp [builtText, Store.structObject, Store.setFieldAt, Array.getElem?_modify, found, holds]

theorem appendBuilt_run {o : StructId} (builder : m.store.IsBuilder o) (text : String) (v : Value) :
    ∃ m', (appendBuilt o text >>= fun _ => pure v).run ev m = .ok v m' ∧
      builderSize o m' v = (builtText m.store o).utf8ByteSize + text.utf8ByteSize := by
  refine ⟨_, rfl, ?_⟩
  show (builtText (m.store.setFieldAt o 0 (.string (builtText m.store o ++ text)))
    o).utf8ByteSize = _
  rw [builtText_setFieldAt builder, String.utf8ByteSize_append]

/-- A method that writes to a builder asks for the text so far and for what comes in. -/
theorem write_builds {o : StructId} {name : String} {arguments : List Value} {rest : Eval Value}
    {incoming built : Nat} {v : Value} {m' : Machine} (returned : rest.run ev m = .ok v m')
    (exact : builderSize o m' v = built)
    (unfolded : builderMethod o name arguments = (do
      let current ← viewStore (builtText · o)
      if name.startsWith "Write" then
        checkAlloc (current.utf8ByteSize + incoming) .builderTooLong
      rest))
    (writes : name.startsWith "Write" = true) :
    SurelyBuilds (builderMethod o name arguments) ev m
      (some ((builtText m.store o).utf8ByteSize + incoming)) (builderSize o) built := by
  have asks : (builderMethod o name arguments).run ev m =
      (checkAlloc ((builtText m.store o).utf8ByteSize + incoming) .builderTooLong >>= fun _ =>
        rest).run ev m := by
    rw [unfolded, bind_run_ok rfl, if_pos writes]
  exact .of_run asks (.asking returned exact)

theorem writeString_builds {o : StructId} (builder : m.store.IsBuilder o) (text : String) :
    SurelyBuilds (builderMethod o "WriteString" [.string text]) ev m
      (some ((builtText m.store o).utf8ByteSize + text.utf8ByteSize)) (builderSize o)
      ((builtText m.store o).utf8ByteSize + text.utf8ByteSize) := by
  obtain ⟨m', returned, exact⟩ := appendBuilt_run builder text
    (.tuple [.int (Int64.ofNat text.utf8ByteSize), .nil])
  exact write_builds returned exact rfl (by decide +kernel)

theorem writeByte_builds {o : StructId} (builder : m.store.IsBuilder o) (b : Int64) :
    SurelyBuilds (builderMethod o "WriteByte" [.int b]) ev m
      (some ((builtText m.store o).utf8ByteSize + 4)) (builderSize o)
      ((builtText m.store o).utf8ByteSize +
        (Text.charOfCode b.toUInt64.toUInt8.toNat).utf8Size) := by
  obtain ⟨m', returned, exact⟩ := appendBuilt_run builder
    (Text.charOfCode b.toUInt64.toUInt8.toNat).toString .nil
  rw [Char.toString, String.utf8ByteSize_singleton] at exact
  exact write_builds returned exact rfl (by decide +kernel)

theorem writeRune_builds {o : StructId} (builder : m.store.IsBuilder o) (r : Int64) :
    SurelyBuilds (builderMethod o "WriteRune" [.int r]) ev m
      (some ((builtText m.store o).utf8ByteSize + 4)) (builderSize o)
      ((builtText m.store o).utf8ByteSize +
        (Text.charOfCode r.toUInt64.toUInt32.toNat).utf8Size) := by
  obtain ⟨m', returned, exact⟩ := appendBuilt_run builder
    (Text.charOfCode r.toUInt64.toUInt32.toNat).toString
    (.tuple [.int (Int64.ofNat (Text.charOfCode r.toUInt64.toUInt32.toNat).utf8Size), .nil])
  rw [Char.toString, String.utf8ByteSize_singleton] at exact
  exact write_builds returned exact rfl (by decide +kernel)

/-- Bytes are asked for by their number, but what is added is the text that they stand for. -/
theorem writeBytes_builds {o : StructId} (builder : m.store.IsBuilder o) {view : SliceView}
    {bytes : List Int64} (ints : m.store.elements view = bytes.map .int) :
    SurelyBuilds (builderMethod o "Write" [.slice view]) ev m
      (some ((builtText m.store o).utf8ByteSize + view.length)) (builderSize o)
      ((builtText m.store o).utf8ByteSize +
        (Text.ofBytes ⟨(bytes.map fun b => b.toUInt64.toUInt8).toArray⟩).utf8ByteSize) := by
  let text := Text.ofBytes ⟨(bytes.map fun b => b.toUInt64.toUInt8).toArray⟩
  obtain ⟨m', returned, exact⟩ := appendBuilt_run builder text
    (.tuple [.int (Int64.ofNat bytes.length), .nil])
  let rest : Eval Value := do
    let bytes ← asInts (← elements view)
    appendBuilt o (Text.ofBytes ⟨(bytes.map fun b => b.toUInt64.toUInt8).toArray⟩)
    return .tuple [.int (Int64.ofNat bytes.length), .nil]
  have returns : rest.run ev m = .ok (.tuple [.int (Int64.ofNat bytes.length), .nil]) m' := by
    have read : (elements view).run ev m = .ok (bytes.map .int) m := by
      rw [← ints]
      rfl
    show (elements view >>= _).run ev m = _
    rw [bind_run_ok read, bind_run_ok (asInts_run bytes ev m)]
    exact returned
  exact write_builds returns exact rfl (by decide +kernel)

end Eval

end SandboxedGo
