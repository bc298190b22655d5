import SandboxedGo.Proofs.BuildingSlices
import SandboxedGo.Proofs.UnaskedTexts

/-!
# The cap on what a program builds

A step that builds a text, a slice or an array asks the cap for some size, or does not ask.  It
keeps to the cap in every state of every run if it asks for all it builds: it panics, or what it
returns is within the cap.  A step that asks for something smaller, or not at all, returns all that
it was to build; it breaks the cap exactly where that is larger than the cap.
-/

set_option autoImplicit false

namespace SandboxedGo

open Source Library

/-- The ways to build a text, a slice or an array.  `Building depth m x asked size built` says that
`x` asks for `asked` at a machine and builds something `built` large; `size` tells how large what it
has built is. -/
inductive Building (depth : Nat) (m : Machine) :
    Eval Value → Option Nat → (Machine → Value → Nat) → Nat → Prop
  -- asking for all they build
  /-- `x + y`, also where it is assigned. -/
  | plus (x y : String) :
      Building depth m (Eval.binary .add (.string x) (.string y))
        (some (x.utf8ByteSize + y.utf8ByteSize)) returnedSize (x.utf8ByteSize + y.utf8ByteSize)
  | repeated (text : String) (count : Int64) :
      Building depth m (StringsFunction.repeated.call [.string text, .int count])
        (some (text.utf8ByteSize * count.toInt.toNat)) returnedSize
        (text.utf8ByteSize * count.toInt.toNat)
  | append {list : Value} (isList : Eval.IsList list) (items : List Value) :
      Building depth m (Eval.builtin .append (list :: items)) (some (list.extent + items.length))
        returnedSize (list.extent + items.length)
  | make {ty element : TypeExpr} (under : m.types.underlying ty = .slice element) (length : Int64)
      (capacity : Option Int64) :
      Building depth m (Eval.make ty (length :: capacity.toList))
        (some (max length.toInt.toNat (capacity.getD length).toInt.toNat)) returnedSize
        length.toInt.toNat
  /-- At any level of a value, the outermost or within another array or a struct. -/
  | zeroArray (levels : Nat) (length : Option Nat) (element : TypeExpr) :
      Building depth m (Eval.zeroWithin (levels + 1) (.array length element))
        (some (length.getD 0)) returnedSize (length.getD 0)
  /-- Behind its elements, an array is filled up to its length. -/
  | arrayLiteral {ty element : TypeExpr} {length n : Nat} {elements : List (Option Expr × Expr)}
      {scope : ScopeId} {asked : Option Nat}
      (under : m.types.underlying ty = .array (some length) element)
      (listing : Eval.Listing (.ofDepth depth) element scope elements 0 0 m asked n)
      (fits : n ≤ length) :
      Building depth m (Eval.composite ty elements scope) (some length) returnedSize length
  | writeString {o : StructId} (builder : m.store.IsBuilder o) (text : String) :
      Building depth m (Eval.builderMethod o "WriteString" [.string text])
        (some ((Eval.builtText m.store o).utf8ByteSize + text.utf8ByteSize)) (builderSize o)
        ((Eval.builtText m.store o).utf8ByteSize + text.utf8ByteSize)
  | writeByte {o : StructId} (builder : m.store.IsBuilder o) (b : Int64) :
      Building depth m (Eval.builderMethod o "WriteByte" [.int b])
        (some ((Eval.builtText m.store o).utf8ByteSize + 4)) (builderSize o)
        ((Eval.builtText m.store o).utf8ByteSize +
          (Text.charOfCode b.toUInt64.toUInt8.toNat).utf8Size)
  | writeRune {o : StructId} (builder : m.store.IsBuilder o) (r : Int64) :
      Building depth m (Eval.builderMethod o "WriteRune" [.int r])
        (some ((Eval.builtText m.store o).utf8ByteSize + 4)) (builderSize o)
        ((Eval.builtText m.store o).utf8ByteSize +
          (Text.charOfCode r.toUInt64.toUInt32.toNat).utf8Size)
  -- asking for something smaller
  /-- It asks for the number of bytes, but bytes that are no text become longer as one. -/
  | writeBytes {o : StructId} (builder : m.store.IsBuilder o) {view : SliceView}
      {bytes : List Int64} (items : m.store.elements view = bytes.map .int) :
      Building depth m (Eval.builderMethod o "Write" [.slice view])
        (some ((Eval.builtText m.store o).utf8ByteSize + view.length)) (builderSize o)
        ((Eval.builtText m.store o).utf8ByteSize +
          (Text.ofBytes ⟨(bytes.map fun b => b.toUInt64.toUInt8).toArray⟩).utf8ByteSize)
  /-- It asks for the largest index, but the element at it and those that follow it make the slice
  longer than the index. -/
  | literal {ty element : TypeExpr} {elements : List (Option Expr × Expr)} {scope : ScopeId}
      {asked : Option Nat} {n : Nat}
      (under : m.types.underlying ty = .slice element ∨
        m.types.underlying ty = .array none element)
      (listing : Eval.Listing (.ofDepth depth) element scope elements 0 0 m asked n) :
      Building depth m (Eval.composite ty elements scope) asked returnedSize n
  -- not asking
  | print {p : Printing} {operands : List Value} {text : String} {printed : Machine}
      (made : (p.text operands).run (Evaluator.ofDepth depth) m = .ok text printed) :
      Building depth m (p.returned operands) none returnedSize text.utf8ByteSize
  | printInto {p : Printing} {o : StructId} {operands : List Value} {text : String}
      {printed : Machine}
      (made : (p.text operands).run (Evaluator.ofDepth depth) m = .ok text printed)
      (builder : printed.store.IsBuilder o) :
      Building depth m (p.into o operands) none (builderSize o)
        ((Eval.builtText printed.store o).utf8ByteSize + text.utf8ByteSize)
  | join {view : SliceView} {texts : List String} (separator : String)
      (items : m.store.elements view = texts.map .string) :
      Building depth m (StringsFunction.join.call [.slice view, .string separator]) none
        returnedSize
        ((String.join texts).utf8ByteSize + (texts.length - 1) * separator.utf8ByteSize)
  | replace (text old new : String) (count : Int64) :
      Building depth m
        (StringsFunction.replace.call [.string text, .string old, .string new, .int count]) none
        returnedSize (Text.replacedSize text old new (StringsFunction.timesIn text count))
  | replaceAll (text old new : String) :
      Building depth m
        (StringsFunction.replaceAll.call [.string text, .string old, .string new]) none
        returnedSize (Text.replacedSize text old new (text.toList.length + 1))
  | map {f : Value} {text : String} {answers : List Int64} {after : Machine}
      (answered : Answers (Evaluator.ofDepth depth) f m text.toList answers after) :
      Building depth m (StringsFunction.map.call [f, .string text]) none returnedSize
        (Text.byteLength (answeredChars answers))
  | convertText {view : SliceView} {codes : List Int64} (name : String) (ty : TypeExpr)
      (items : m.store.elements view = codes.map .int) :
      Building depth m (Eval.convertBasic .string name (.slice view) ty) none returnedSize
        (spelledSize codes)
  | convertRune (name : String) (code : Int64) (ty : TypeExpr) :
      Building depth m (Eval.convertBasic .string name (.int code) ty) none returnedSize
        (Eval.charOfInt code).utf8Size
  | convertBytes {ty : TypeExpr} {name : String}
      (under : m.types.underlying ty = .slice (.named name))
      (isByte : name = "byte" ∨ name = "uint8") (text : String) :
      Building depth m (Eval.convert (.string text) ty) none returnedSize text.utf8ByteSize
  | convertRunes {ty : TypeExpr} {name : String}
      (under : m.types.underlying ty = .slice (.named name))
      (isRune : name = "rune" ∨ name = "int32") (text : String) :
      Building depth m (Eval.convert (.string text) ty) none returnedSize text.toList.length
  | listed {ty element : TypeExpr} {elements : List Expr} {scope : ScopeId} {items : Array Value}
      {after : Machine} (under : m.types.underlying ty = .slice element)
      (listing : (Eval.sequence element scope (elements.map (none, ·)) 0 #[]).run
        (Evaluator.ofDepth depth) m = .ok items after) :
      Building depth m (Eval.composite ty (elements.map (none, ·)) scope) none returnedSize
        elements.length

variable {depth : Nat} {m : Machine} {x : Eval Value} {asked : Option Nat}
variable {size : Machine → Value → Nat} {built : Nat}

theorem Building.outcome (building : Building depth m x asked size built) :
    SurelyBuilds x (Evaluator.ofDepth depth) m asked size built ∨
      Builds x (Evaluator.ofDepth depth) m asked size built ∧ ∃ n, asked = some n ∧ built ≤ n := by
  cases building with
  | plus x y => exact .inl (Eval.concat_builds x y)
  | repeated text count => exact .inr ⟨Eval.repeat_builds text count, _, rfl, Nat.le_refl _⟩
  | append isList items => exact .inl (Eval.append_builds isList items)
  | make under length capacity =>
      exact .inr ⟨Eval.make_builds under length capacity, _, rfl, Nat.le_max_left _ _⟩
  | zeroArray levels length element =>
      exact .inr ⟨Eval.zeroArray_builds levels length element, _, rfl, Nat.le_refl _⟩
  | arrayLiteral under listing fits =>
      exact .inr ⟨Eval.arrayLiteral_builds under listing fits, _, rfl, Nat.le_refl _⟩
  | writeString builder text => exact .inl (Eval.writeString_builds builder text)
  | writeByte builder b => exact .inl (Eval.writeByte_builds builder b)
  | writeRune builder r => exact .inl (Eval.writeRune_builds builder r)
  | writeBytes builder items => exact .inl (Eval.writeBytes_builds builder items)
  | literal under listing => exact .inl (Eval.literal_builds under listing)
  | print made => exact .inl (Printing.returned_builds made)
  | printInto made builder => exact .inl (Printing.into_builds made builder)
  | join separator items => exact .inl (StringsFunction.join_builds separator items)
  | replace text old new count =>
      exact .inl (StringsFunction.replace_builds text old new count)
  | replaceAll text old new => exact .inl (StringsFunction.replaceAll_builds text old new)
  | map answered => exact .inl (map_builds answered)
  | convertText name ty items => exact .inl (Eval.convertText_builds name ty items)
  | convertRune name code ty => exact .inl (Eval.convertRune_builds name code ty)
  | convertBytes under isByte text => exact .inl (Eval.convertBytes_builds under isByte text)
  | convertRunes under isRune text => exact .inl (Eval.convertRunes_builds under isRune text)
  | listed under listing => exact .inl (Eval.listed_builds under listing)

theorem Building.builds (building : Building depth m x asked size built) :
    Builds x (Evaluator.ofDepth depth) m asked size built := by
  rcases building.outcome with sure | ⟨builds, -⟩
  · exact sure.toBuilds
  · exact builds

/-- Nothing keeps a building beyond the cap from returning if all that it asks for is allowed. -/
theorem Building.returns (building : Building depth m x asked size built)
    (allowed : m.Allows asked) (beyond : m.limits.maxAlloc < built) :
    ∃ v m', x.run (Evaluator.ofDepth depth) m = .ok v m' := by
  rcases building.outcome with sure | ⟨-, n, rfl, enough⟩
  · exact sure.returns allowed
  · have := Machine.allows_some.mp allowed
    omega

/-- A step keeps to the cap: what is larger ends in a panic, and what is returned is not larger. -/
def KeepsCap (x : Eval Value) (depth : Nat) (m : Machine) (size : Machine → Value → Nat)
    (built : Nat) : Prop :=
  (m.limits.maxAlloc < built →
    ∃ cause m', x.run (Evaluator.ofDepth depth) m = .error (.signal (.panic cause)) m') ∧
  ∀ v m', x.run (Evaluator.ofDepth depth) m = .ok v m' → size m' v ≤ m.limits.maxAlloc

/-- A step keeps to the cap exactly where the cap allows all it builds or not even what it asks for.
So a step that asks for all it builds always does, and a step that never asks does so only by the
luck of its operands. -/
theorem keepsCap_iff (building : Building depth m x asked size built) :
    KeepsCap x depth m size built ↔ (m.Allows asked → built ≤ m.limits.maxAlloc) := by
  constructor
  · rintro ⟨panics, -⟩ allowed
    by_cases beyond : m.limits.maxAlloc < built
    · obtain ⟨v, m', returned⟩ := building.returns allowed beyond
      obtain ⟨cause, after, panicked⟩ := panics beyond
      rw [returned] at panicked
      cases panicked
    · omega
  · intro enough
    by_cases allowed : m.Allows asked
    · have within := enough allowed
      refine ⟨fun beyond => absurd within (by omega), fun v m' returned => ?_⟩
      rw [building.builds.sized v m' returned]
      exact within
    · obtain ⟨cause, after, panicked⟩ := building.builds.refused allowed
      refine ⟨fun _ => ⟨cause, after, panicked⟩, fun v m' returned => ?_⟩
      rw [panicked] at returned
      cases returned

/-- A machine with one empty string builder and a small cap. -/
def builderMachine : Machine where
  store := { structs := #[⟨⟨0, builderType, []⟩, #[.string ""]⟩] }
  stdout := ⟨0, .empty, false⟩
  stderr := ⟨0, .empty, false⟩
  limits := { maxAlloc := 4 }

/-- The same text is too large where it is written to the builder, and printed into it all the
same. -/
theorem keepsCap_iff_eight_bytes :
    KeepsCap (Eval.builderMethod ⟨0⟩ "WriteString" [.string "abcdefgh"]) 1 builderMachine
        (builderSize ⟨0⟩) 8 ∧
      ¬ KeepsCap (FmtFunction.fprint.call [.pointer ⟨0⟩, .string "abcdefgh"]) 1 builderMachine
        (builderSize ⟨0⟩) 8 := by
  have builder : builderMachine.store.IsBuilder ⟨0⟩ := by decide
  have made : (Printing.plain.text [.string "abcdefgh"]).run (Evaluator.ofDepth 1) builderMachine =
      .ok "abcdefgh" builderMachine := Format.sprint_texts ["abcdefgh"]
  refine ⟨?_, fun keeps => ?_⟩
  · exact (keepsCap_iff (.writeString builder "abcdefgh")).mpr fun allowed => allowed _ rfl
  · have within := (keepsCap_iff (.printInto made builder)).mp keeps builderMachine.allows_none
    exact absurd within (by decide)

/-! ## Beyond the cap -/

theorem texts_beyond {cap : Nat} (positive : 0 < cap) :
    ∃ texts : List String, (∀ text ∈ texts, text.utf8ByteSize ≤ cap) ∧
      cap < (String.join texts).utf8ByteSize := by
  have full : (repeatText "a" cap).utf8ByteSize = cap := by
    rw [Eval.utf8ByteSize_repeatText]
    exact Nat.one_mul cap
  refine ⟨[repeatText "a" cap, "a"], ?_, ?_⟩
  · intro text isIn
    rcases List.mem_cons.mp isIn with rfl | isIn
    · exact Nat.le_of_eq full
    · cases List.mem_singleton.mp isIn
      exact positive
  · rw [String.join_cons, String.utf8ByteSize_append, full]
    exact Nat.lt_succ_self cap

/-- Under every cap and in every state, texts within the cap are printed as one beyond it. -/
theorem printing_exceeds (depth : Nat) (m : Machine) (positive : 0 < m.limits.maxAlloc) :
    ∃ texts : List String, (∀ text ∈ texts, text.utf8ByteSize ≤ m.limits.maxAlloc) ∧
      ∀ p ∈ Printing.ofTexts texts, ∃ v m',
        (p.returned (texts.map .string)).run (Evaluator.ofDepth depth) m = .ok v m' ∧
          m.limits.maxAlloc < returnedSize m' v := by
  obtain ⟨texts, within, beyond⟩ := texts_beyond positive
  refine ⟨texts, within, fun p isIn => ?_⟩
  obtain ⟨text, made, long⟩ := Printing.text_ofTexts isIn (Evaluator.ofDepth depth) m
  have builds := Printing.returned_builds made
  obtain ⟨v, m', returned⟩ := builds.returns m.allows_none
  have exact := builds.sized v m' returned
  exact ⟨v, m', returned, by omega⟩

end SandboxedGo
