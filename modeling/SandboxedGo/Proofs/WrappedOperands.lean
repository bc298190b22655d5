import SandboxedGo.Library.Fmt
import SandboxedGo.Proofs.Following

/-!
# Operands of format texts

A format text prints operands one after another.  Which operand is printed by which directive is
laid out here as a list of jobs, and printing is doing the jobs.  The operand that an error wraps is
found by reading the text a second time, less exactly: that reader takes any marks for one
directive, and a percent sign behind marks for a directive that asks for an operand.  Main
statement: `wrapped_operand_iff`, where both readers agree.
-/

set_option autoImplicit false

namespace SandboxedGo

namespace Format

/-! ## Jobs -/

/-- What is printed for a piece of a format text. -/
inductive Job
  | literal (c : Char)
  /-- An operand, with its place among the operands. -/
  | operand (verb : Char) (place : Nat) (v : Value) (spec : Spec)
  /-- A directive for which no operand is left. -/
  | missing (verb : Char)
  /-- The end of the text within a directive. -/
  | noVerb

/-- How many operands a measure asks for. -/
def Measure.asks : Measure → Nat
  | .operand => 1
  | _ => 0

/-- A measure, where the next operand is that at the place `next`. -/
def Measure.read (operands : List Value) (next : Nat) : Measure → Option Nat
  | .absent => none
  | .given n => some n
  | .operand =>
    match operands[next]? with
    | some (.int n) => if 0 ≤ n && n.toInt ≤ Piece.measureLimit then some n.toInt.toNat else none
    | _ => none

/-- The jobs of the pieces of a format text from the operand at the place `next` on, and the place
of the first operand that is left over. -/
def jobs (operands : List Value) : (next : Nat) → List Piece → List Job × Nat
  | next, [] => ([], next)
  | next, .literal c :: pieces =>
    let (rest, left) := jobs operands next pieces
    (.literal c :: rest, left)
  | next, .unfinished width precision :: _ => ([.noVerb], next + width.asks + precision.asks)
  | next, .directive flags width precision verb :: pieces =>
    let behindWidth := next + width.asks
    let behind := behindWidth + precision.asks
    if verb = '%' then
      let (rest, left) := jobs operands behind pieces
      (.literal '%' :: rest, left)
    else
      match operands[behind]? with
      | none =>
        let (rest, left) := jobs operands behind pieces
        (.missing verb :: rest, left)
      | some v =>
        let (rest, left) := jobs operands (behind + 1) pieces
        (.operand verb behind v
          ⟨flags, width.read operands next, precision.read operands behindWidth⟩ :: rest, left)

/-- Print a job behind `out`. -/
def Job.print (out : String) : Job → Eval String
  | .literal c => pure (out.push c)
  | .operand verb _ v spec => do return out ++ String.ofList (← directiveText verb v spec)
  | .missing verb => pure (((out ++ "%!").push verb) ++ "(MISSING)")
  | .noVerb => pure (out ++ "%!(NOVERB)")

/-- The jobs of a format text and the first operand left over. -/
def jobsOf (format : String) (operands : List Value) : List Job × Nat :=
  jobs operands 0 (Piece.ofText format.toList)

theorem measure_drop (operands : List Value) (next : Nat) (w : Measure) :
    measure (operands.drop next) w = (w.read operands next, operands.drop (next + w.asks)) := by
  cases w with
  | absent => rfl
  | given n => rfl
  | operand =>
      unfold measure Measure.read
      cases is : operands[next]? with
      | none =>
          have beyond := List.getElem?_eq_none_iff.mp is
          have behind : operands.drop (next + 1) = [] :=
            List.drop_eq_nil_of_le (Nat.le_succ_of_le beyond)
          rw [List.drop_eq_nil_of_le beyond]
          exact congrArg (Prod.mk none) behind.symm
      | some v =>
          obtain ⟨within, rfl⟩ := List.getElem?_eq_some_iff.mp is
          rw [List.drop_eq_getElem_cons within]
          cases operands[next] <;> rfl

/-- Printing the pieces of a format text is doing their jobs one after another. -/
theorem printPieces_eq (operands : List Value) (next : Nat) (pieces : List Piece) (out : String) :
    printPieces pieces (operands.drop next) out = (do
      let printed ← (jobs operands next pieces).1.foldlM Job.print out
      return (printed, operands.drop (jobs operands next pieces).2)) := by
  induction pieces generalizing next out with
  | nil => rfl
  | cons piece pieces ih =>
      cases piece with
      | literal c =>
          rw [printPieces, ih]
          simp [jobs, Job.print]
      | unfinished width precision =>
          rw [printPieces, measure_drop]
          dsimp only
          rw [measure_drop]
          simp [jobs, Job.print]
      | directive flags width precision verb =>
          rw [printPieces, measure_drop]
          dsimp only
          rw [measure_drop]
          dsimp only
          rw [jobs]
          dsimp only
          by_cases percent : verb = '%'
          · rw [if_pos percent, if_pos percent, ih]
            simp [Job.print]
          · rw [if_neg percent, if_neg percent]
            cases is : operands[next + width.asks + precision.asks]? with
            | none =>
                have beyond := List.getElem?_eq_none_iff.mp is
                rw [List.drop_eq_nil_of_le beyond]
                dsimp only
                rw [← List.drop_eq_nil_of_le beyond, ih]
                simp [Job.print]
            | some v =>
                obtain ⟨within, rfl⟩ := List.getElem?_eq_some_iff.mp is
                rw [List.drop_eq_getElem_cons within]
                simp [Job.print, ih]

/-- The place of an operand that is printed is its place among the operands. -/
theorem getElem?_of_mem_jobs {operands : List Value} {next : Nat} {pieces : List Piece}
    {verb : Char}
    {place : Nat} {v : Value} {spec : Spec}
    (isIn : Job.operand verb place v spec ∈ (jobs operands next pieces).1) :
    operands[place]? = some v := by
  induction pieces generalizing next with
  | nil => cases isIn
  | cons piece pieces ih =>
      cases piece with
      | literal c =>
          rcases List.mem_cons.mp isIn with is | isIn
          · cases is
          · exact ih isIn
      | unfinished width precision =>
          rcases List.mem_cons.mp isIn with is | isIn
          · cases is
          · cases isIn
      | directive flags width precision verb =>
          rw [jobs] at isIn
          dsimp only at isIn
          split at isIn
          · rcases List.mem_cons.mp isIn with is | isIn
            · cases is
            · exact ih isIn
          · split at isIn
            · rcases List.mem_cons.mp isIn with is | isIn
              · cases is
              · exact ih isIn
            · rename_i known
              rcases List.mem_cons.mp isIn with is | isIn
              · cases is
                exact known
              · exact ih isIn

/-! ## Marks and verbs -/

/-- A character that may stand in front of the verb of a directive. -/
def isMark (c : Char) : Bool := c.isDigit || ['*', '+', '-', '#', ' ', '.'].contains c

/-- A verb that stands for an operand, whatever marks are in front of it. -/
def IsVerb (c : Char) : Prop := isMark c = false ∧ c ≠ '%'

namespace Piece

variable {chars rest : List Char} {flags : Flags} {width precision : Measure} {verb : Char}

/-- A format text in which every directive up to the first one for a wrapped error is plain: it is a
percent sign alone, or its verb stands directly behind the marks that belong to it. -/
inductive Plain : List Char → Prop
  | nil : Plain []
  | literal {c : Char} {rest : List Char} (isText : c ≠ '%') (behind : Plain rest) :
      Plain (c :: rest)
  | percent {rest : List Char} (behind : Plain rest) : Plain ('%' :: '%' :: rest)
  | directive {chars rest : List Char} {flags : Flags} {width precision : Measure} {verb : Char}
      (taken : takeDirective chars = (.directive flags width precision verb, rest))
      (isVerb : IsVerb verb) (behind : verb ≠ 'w' → Plain rest) : Plain ('%' :: chars)
  | unfinished {chars : List Char} {width precision : Measure}
      (taken : takeDirective chars = (.unfinished width precision, [])) : Plain ('%' :: chars)

/-! ### Taking a directive off a longer text -/

theorem takeFlags_append (goesOn : (takeFlags flags chars).2 ≠ []) (behind : List Char) :
    takeFlags flags (chars ++ behind) =
      ((takeFlags flags chars).1, (takeFlags flags chars).2 ++ behind) := by
  fun_induction takeFlags flags chars with
  | case1 flags rest ih | case2 flags rest ih | case3 flags rest ih | case4 flags rest ih
  | case5 flags rest ih =>
      rw [List.cons_append, takeFlags]
      exact ih goesOn
  | case6 flags chars minus plus sharp space zero =>
      cases chars with
      | nil => exact absurd rfl goesOn
      | cons c rest =>
          rw [List.cons_append, takeFlags]
          all_goals
            rintro _ ⟨⟩
            first
              | exact minus _ rfl
              | exact plus _ rfl
              | exact sharp _ rfl
              | exact space _ rfl
              | exact zero _ rfl

theorem takeNumber_append (goesOn : (takeNumber chars).2 ≠ []) (behind : List Char) :
    takeNumber (chars ++ behind) =
      ((takeNumber chars).1, (takeNumber chars).2 ++ behind) := by
  have stops : chars.dropWhile Char.isDigit ≠ [] := goesOn
  have digits : (chars ++ behind).takeWhile Char.isDigit = chars.takeWhile Char.isDigit := by
    rw [List.takeWhile_append, if_neg]
    intro all
    have parts := congrArg List.length (@List.takeWhile_append_dropWhile _ Char.isDigit chars)
    rw [List.length_append, all] at parts
    exact stops (List.eq_nil_of_length_eq_zero (by omega))
  have others : (chars ++ behind).dropWhile Char.isDigit =
      chars.dropWhile Char.isDigit ++ behind := by
    rw [List.dropWhile_append, if_neg]
    rw [List.isEmpty_iff]
    exact stops
  simp only [takeNumber, digits, others]

theorem takeWidth_number (other : chars.head? ≠ some '*') :
    takeWidth chars =
      (match (takeNumber chars).1 with | some n => .given n | none => .absent, (takeNumber chars).2) := by
  unfold takeWidth
  split
  · exact absurd rfl other
  · split <;> simp_all

theorem takeWidth_append (goesOn : (takeWidth chars).2 ≠ []) (behind : List Char) :
    takeWidth (chars ++ behind) = ((takeWidth chars).1, (takeWidth chars).2 ++ behind) := by
  cases chars with
  | nil => exact absurd rfl goesOn
  | cons c rest =>
      by_cases star : c = '*'
      · subst star
        rfl
      · have other : (c :: rest).head? ≠ some '*' := by simpa using star
        rw [takeWidth_number other] at goesOn ⊢
        rw [@takeWidth_number (c :: rest ++ behind) other, takeNumber_append goesOn]

theorem takePrecision_number (other : chars.head? ≠ some '*') :
    takePrecision ('.' :: chars) =
      (.given ((takeNumber chars).1.getD 0), (takeNumber chars).2) := by
  cases chars with
  | nil => rfl
  | cons c rest =>
      rw [takePrecision]
      rintro _ ⟨⟩
      exact other rfl

theorem takePrecision_absent (other : chars.head? ≠ some '.') :
    takePrecision chars = (.absent, chars) := by
  unfold takePrecision
  split
  · exact absurd rfl other
  · exact absurd rfl other
  · rfl

theorem takePrecision_append (goesOn : (takePrecision chars).2 ≠ []) (behind : List Char) :
    takePrecision (chars ++ behind) =
      ((takePrecision chars).1, (takePrecision chars).2 ++ behind) := by
  cases chars with
  | nil => exact absurd rfl goesOn
  | cons c rest =>
      by_cases point : c = '.'
      · subst point
        cases rest with
        | nil => exact absurd rfl goesOn
        | cons d rest =>
            by_cases star : d = '*'
            · subst star
              rfl
            · have other : (d :: rest).head? ≠ some '*' := by simpa using star
              rw [takePrecision_number other] at goesOn ⊢
              rw [List.cons_append, @takePrecision_number (d :: rest ++ behind) other,
                takeNumber_append goesOn]
      · have other : (c :: rest).head? ≠ some '.' := by simpa using point
        rw [takePrecision_absent other, @takePrecision_absent (c :: rest ++ behind) other]

theorem takeDirective_eq_directive :
    takeDirective chars = (.directive flags width precision verb, rest) ↔
      flags = (takeFlags {} chars).1 ∧ width = (takeWidth (takeFlags {} chars).2).1 ∧
        takePrecision (takeWidth (takeFlags {} chars).2).2 = (precision, verb :: rest) := by
  cases is : takePrecision (takeWidth (takeFlags {} chars).2).2 with
  | mk measure left =>
      cases left with
      | nil => simp [takeDirective, is]
      | cons c left =>
          simp only [takeDirective, is, Prod.mk.injEq, directive.injEq, List.cons.injEq]
          constructor
          · rintro ⟨⟨rfl, rfl, rfl, rfl⟩, rfl⟩
            exact ⟨rfl, rfl, rfl, rfl, rfl⟩
          · rintro ⟨rfl, rfl, rfl, rfl, rfl⟩
            exact ⟨⟨rfl, rfl, rfl, rfl⟩, rfl⟩

theorem takeDirective_eq_unfinished
    (taken : takeDirective chars = (.unfinished width precision, rest)) :
    takePrecision (takeWidth (takeFlags {} chars).2).2 = (precision, []) := by
  cases is : takePrecision (takeWidth (takeFlags {} chars).2).2 with
  | mk measure left =>
      cases left with
      | nil =>
          simp only [takeDirective, is, Prod.mk.injEq, unfinished.injEq] at taken
          rw [taken.1.2]
      | cons c left => simp [takeDirective, is] at taken

theorem takeDirective_append
    (taken : takeDirective chars = (.directive flags width precision verb, rest))
    (behind : List Char) :
    takeDirective (chars ++ behind) = (.directive flags width precision verb, rest ++ behind) := by
  obtain ⟨rfl, rfl, precise⟩ := takeDirective_eq_directive.mp taken
  have afterPrecision : (takePrecision (takeWidth (takeFlags {} chars).2).2).2 ≠ [] := by
    rw [precise]
    exact List.cons_ne_nil _ _
  have afterWidth : (takeWidth (takeFlags {} chars).2).2 ≠ [] := fun none => by
    rw [none] at afterPrecision
    exact afterPrecision rfl
  have afterFlags : (takeFlags {} chars).2 ≠ [] := fun none => by
    rw [none] at afterWidth
    exact afterWidth rfl
  rw [takeDirective_eq_directive, takeFlags_append afterFlags, takeWidth_append afterWidth,
    takePrecision_append afterPrecision, precise]
  exact ⟨rfl, rfl, rfl⟩

/-! ### Reading marks a second time -/

open Library.FmtFunction

variable {index : Nat} {c : Char}

theorem wrappedPlaceFrom_mark (isMark_ : isMark c = true) (other : c ≠ '*') (index : Nat)
    (rest : List Char) :
    wrappedPlaceFrom true index (c :: rest) = wrappedPlaceFrom true index rest := by
  have marks : (c.isDigit || ['+', '-', '#', ' ', '.'].contains c) = true := by
    simp only [isMark, List.contains_cons] at isMark_ ⊢
    simpa [other] using isMark_
  rw [wrappedPlaceFrom, if_neg other, if_pos marks]

theorem wrappedPlaceFrom_verb (isVerb : isMark c = false) (index : Nat) (rest : List Char) :
    wrappedPlaceFrom true index (c :: rest) =
      if c = 'w' then some index else wrappedPlaceFrom false (index + 1) rest := by
  have other : c ≠ '*' := by
    rintro rfl
    cases isVerb
  have noMark : ¬(c.isDigit || ['+', '-', '#', ' ', '.'].contains c) = true := by
    simp only [isMark, List.contains_cons] at isVerb ⊢
    simpa [other] using isVerb
  rw [wrappedPlaceFrom, if_neg other, if_neg noMark]

theorem wrappedPlaceFrom_dropDigits (index : Nat) (chars : List Char) :
    wrappedPlaceFrom true index (chars.dropWhile Char.isDigit) =
      wrappedPlaceFrom true index chars := by
  induction chars with
  | nil => rfl
  | cons c rest ih =>
      rw [List.dropWhile_cons]
      split
      · rename_i digit
        have other : c ≠ '*' := by
          rintro rfl
          cases digit
        rw [ih, wrappedPlaceFrom_mark (by simp [isMark, digit]) other]
      · rfl

theorem wrappedPlaceFrom_takeFlags (flags : Flags) (index : Nat) (chars : List Char) :
    wrappedPlaceFrom true index (takeFlags flags chars).2 = wrappedPlaceFrom true index chars := by
  fun_induction takeFlags flags chars with
  | case1 _ _ ih | case2 _ _ ih | case3 _ _ ih | case4 _ _ ih | case5 _ _ ih =>
      rw [ih, wrappedPlaceFrom_mark rfl (by decide)]
  | case6 => rfl

theorem wrappedPlaceFrom_takeWidth (index : Nat) (chars : List Char) :
    wrappedPlaceFrom true (index + (takeWidth chars).1.asks) (takeWidth chars).2 =
      wrappedPlaceFrom true index chars := by
  by_cases star : chars.head? = some '*'
  · obtain ⟨rest, rfl⟩ := List.head?_eq_some_iff.mp star
    rfl
  · rw [takeWidth_number star]
    have none : (match (takeNumber chars).1 with
        | some n => Measure.given n
        | none => Measure.absent).asks = 0 := by
      cases (takeNumber chars).1 <;> rfl
    rw [none]
    exact wrappedPlaceFrom_dropDigits index chars

theorem wrappedPlaceFrom_takePrecision (index : Nat) (chars : List Char) :
    wrappedPlaceFrom true (index + (takePrecision chars).1.asks) (takePrecision chars).2 =
      wrappedPlaceFrom true index chars := by
  by_cases point : chars.head? = some '.'
  · obtain ⟨rest, rfl⟩ := List.head?_eq_some_iff.mp point
    rw [wrappedPlaceFrom_mark (c := '.') rfl (by decide)]
    by_cases star : rest.head? = some '*'
    · obtain ⟨rest, rfl⟩ := List.head?_eq_some_iff.mp star
      rfl
    · rw [takePrecision_number star]
      exact wrappedPlaceFrom_dropDigits index rest
  · rw [takePrecision_absent point]
    rfl

theorem wrappedPlaceFrom_takeDirective (index : Nat) (chars : List Char) :
    wrappedPlaceFrom true
        (index + (takeWidth (takeFlags {} chars).2).1.asks +
          (takePrecision (takeWidth (takeFlags {} chars).2).2).1.asks)
        (takePrecision (takeWidth (takeFlags {} chars).2).2).2 =
      wrappedPlaceFrom true index chars := by
  rw [wrappedPlaceFrom_takePrecision, wrappedPlaceFrom_takeWidth, wrappedPlaceFrom_takeFlags]

theorem wrappedPlaceFrom_directive
    (taken : takeDirective chars = (.directive flags width precision verb, rest)) (index : Nat) :
    wrappedPlaceFrom true index chars =
      wrappedPlaceFrom true (index + width.asks + precision.asks) (verb :: rest) := by
  obtain ⟨-, rfl, precise⟩ := takeDirective_eq_directive.mp taken
  rw [← wrappedPlaceFrom_takeDirective, precise]

theorem wrappedPlaceFrom_unfinished
    (taken : takeDirective chars = (.unfinished width precision, rest)) (index : Nat) :
    wrappedPlaceFrom true index chars = none := by
  rw [← wrappedPlaceFrom_takeDirective, takeDirective_eq_unfinished taken]
  rfl

/-- The second reader leaves a text outside of directives at a percent sign. -/
theorem wrappedPlaceFrom_percent (single : chars.head? ≠ some '%') (index : Nat) :
    wrappedPlaceFrom false index ('%' :: chars) = wrappedPlaceFrom true index chars := by
  cases chars with
  | nil => rfl
  | cons c rest =>
      rw [wrappedPlaceFrom]
      · rfl
      · rintro _ - ⟨⟩
        exact single rfl

/-! ### The pieces of a text -/

theorem ofText_nil : ofText [] = [] := by rw [ofText]

theorem ofText_literal (isText : c ≠ '%') (rest : List Char) :
    ofText (c :: rest) = .literal c :: ofText rest := by
  rw [ofText, if_neg isText]

theorem ofText_taken {piece : Piece} (taken : takeDirective chars = (piece, rest)) :
    ofText ('%' :: chars) = piece :: ofText rest := by
  rw [ofText, if_pos rfl, taken]

theorem takeDirective_percent (rest : List Char) :
    takeDirective ('%' :: rest) = (.directive {} .absent .absent '%', rest) := by
  have flags : takeFlags {} ('%' :: rest) = ({}, '%' :: rest) := by
    rw [takeFlags] <;> exact nofun
  have digits : takeNumber ('%' :: rest) = (none, '%' :: rest) := rfl
  rw [takeDirective_eq_directive, flags, takeWidth_number (by simp), digits,
    takePrecision_absent (by simp)]
  exact ⟨rfl, rfl, rfl⟩

theorem head?_ne_percent {piece : Piece} (taken : takeDirective chars = (piece, rest))
    (other : piece ≠ .directive {} .absent .absent '%') :
    chars.head? ≠ some '%' := fun percent => by
  obtain ⟨rest, rfl⟩ := List.head?_eq_some_iff.mp percent
  rw [takeDirective_percent] at taken
  exact other (congrArg Prod.fst taken).symm

theorem wrappedPlaceFrom_taken (single : chars.head? ≠ some '%')
    (taken : takeDirective chars = (.directive flags width precision verb, rest)) (index : Nat)
    (behind : List Char) :
    wrappedPlaceFrom false index ('%' :: chars ++ behind) =
      wrappedPlaceFrom true (index + width.asks + precision.asks) (verb :: (rest ++ behind)) := by
  have single' : (chars ++ behind).head? ≠ some '%' := by
    cases chars with
    | nil => cases taken
    | cons c rest => exact single
  rw [List.cons_append, wrappedPlaceFrom_percent single',
    wrappedPlaceFrom_directive (takeDirective_append taken behind)]

theorem ofText_taken_append
    (taken : takeDirective chars = (.directive flags width precision verb, rest))
    (behind : List Char) :
    ofText ('%' :: chars ++ behind) =
      .directive flags width precision verb :: ofText (rest ++ behind) :=
  ofText_taken (takeDirective_append taken behind)

end Piece

/-! ## The operand of a wrapped error -/

open Library.FmtFunction

/-- The place of the operand that a job prints as a wrapped error; none if no operand is left. -/
def Job.wraps? : Job → Option (Option Nat)
  | .operand verb place _ _ => if verb = 'w' then some (some place) else none
  | .missing verb => if verb = 'w' then some none else none
  | _ => none

/-- The place of the operand that is printed first as a wrapped error, if there is such a directive;
none inside if no operand is left for it. -/
def wrapping? (format : String) (operands : List Value) : Option (Option Nat) :=
  (jobsOf format operands).1.findSome? Job.wraps?

/-- A place is that of the operand which is printed as a wrapped error.  Where no operand is left
for the directive, it is a place behind all `count` operands. -/
def Fits (count : Nat) (place : Option Nat) : (wrapping : Option (Option Nat)) → Prop
  | none => place = none
  | some none => ∃ beyond, place = some beyond ∧ count ≤ beyond
  | some (some printed) => place = some printed

/-- The operand that a format text is found to wrap is the one that it prints as a wrapped error. -/
def Agrees (format : String) (operands : List Value) : Prop :=
  Fits operands.length (wrappedPlace format) (wrapping? format operands)

theorem Fits.operand {operands : List Value} {place : Option Nat} {wrapping : Option (Option Nat)}
    (fits : Fits operands.length place wrapping) :
    place.bind (operands[·]?) = wrapping.join.bind (operands[·]?) := by
  match wrapping, fits with
  | none, fits =>
      obtain rfl := fits
      rfl
  | some none, ⟨beyond, is, behind⟩ =>
      obtain rfl := is
      exact List.getElem?_eq_none behind
  | some (some printed), fits =>
      obtain rfl := fits
      rfl

/-- The place of the operand that the first directive for a wrapped error asks for, where the next
operand is that at the place `next` and none is missing. -/
def asked : (next : Nat) → List Piece → Option Nat
  | _, [] | _, .unfinished _ _ :: _ => none
  | next, .literal _ :: pieces => asked next pieces
  | next, .directive _ width precision verb :: pieces =>
    let behind := next + width.asks + precision.asks
    if verb = '%' then asked behind pieces
    else if verb = 'w' then some behind
    else asked (behind + 1) pieces

/-- Printing takes the operand that is asked for, if it is there: a directive without an operand
takes none, but then none is left for those behind it. -/
theorem fits_asked (pieces : List Piece) {operands : List Value} {next index : Nat}
    (le : next ≤ index) (short : next = index ∨ operands.length ≤ next) :
    Fits operands.length (asked index pieces)
      ((jobs operands next pieces).1.findSome? Job.wraps?) := by
  induction pieces generalizing next index with
  | nil => rfl
  | cons piece pieces ih =>
      cases piece with
      | literal c => exact ih le short
      | unfinished width precision => rfl
      | directive flags width precision verb =>
          rw [asked, jobs]
          dsimp only
          by_cases percent : verb = '%'
          · rw [if_pos percent, if_pos percent, List.findSome?_cons]
            exact ih (by omega) (by omega)
          · rw [if_neg percent, if_neg percent]
            cases known : operands[next + width.asks + precision.asks]? with
            | none =>
                have beyond := List.getElem?_eq_none_iff.mp known
                rw [List.findSome?_cons]
                by_cases wraps : verb = 'w'
                · rw [if_pos wraps, Job.wraps?, if_pos wraps]
                  exact ⟨_, rfl, by omega⟩
                · rw [if_neg wraps, Job.wraps?, if_neg wraps]
                  exact ih (by omega) (.inr beyond)
            | some v =>
                obtain ⟨within, -⟩ := List.getElem?_eq_some_iff.mp known
                obtain rfl : next = index := short.resolve_right (by omega)
                rw [List.findSome?_cons]
                by_cases wraps : verb = 'w'
                · rw [if_pos wraps, Job.wraps?, if_pos wraps]
                  rfl
                · rw [if_neg wraps, Job.wraps?, if_neg wraps]
                  exact ih (Nat.le_refl _) (.inl rfl)

theorem fits_askedOf (format : String) (operands : List Value) :
    Fits operands.length (asked 0 (Piece.ofText format.toList)) (wrapping? format operands) :=
  fits_asked _ (Nat.le_refl 0) (.inl rfl)

/-- The operand is found for all lists of operands exactly if it is the one that is asked for. -/
theorem agrees_iff (format : String) :
    (∀ operands, Agrees format operands) ↔
      wrappedPlace format = asked 0 (Piece.ofText format.toList) := by
  constructor
  · intro agree
    have printed := fits_askedOf format
    generalize asked 0 (Piece.ofText format.toList) = place at printed ⊢
    -- so many operands that none is missing for the directive
    have printed := printed (List.replicate (place.getD 0 + 1) .nil)
    have found := agree (List.replicate (place.getD 0 + 1) .nil)
    rw [Agrees] at found
    rw [List.length_replicate] at printed found
    match wrapping? format (List.replicate (place.getD 0 + 1) .nil), printed, found with
    | none, printed, found => exact found.trans printed.symm
    | some none, ⟨beyond, is, behind⟩, _ =>
        subst is
        exact absurd behind (Nat.not_succ_le_self beyond)
    | some (some _), printed, found => exact found.trans printed.symm
  · intro same operands
    rw [Agrees, same]
    exact fits_askedOf format operands

theorem agrees_ofList {text : List Char} :
    (∀ operands, Agrees (String.ofList text) operands) ↔
      wrappedPlaceFrom false 0 text = asked 0 (Piece.ofText text) := by
  rw [agrees_iff, wrappedPlace, String.toList_ofList]

theorem wrappedPlaceFrom_plain {text : List Char} (plain : Piece.Plain text) (index : Nat) :
    wrappedPlaceFrom false index text = asked index (Piece.ofText text) := by
  induction plain generalizing index with
  | nil =>
      rw [Piece.ofText_nil]
      rfl
  | @literal c rest isText _ ih =>
      have goesOn : wrappedPlaceFrom false index (c :: rest) =
          wrappedPlaceFrom false index rest := by
        rw [wrappedPlaceFrom]
        · simp [isText]
        · exact fun _ is _ => isText is
      rw [goesOn, Piece.ofText_literal isText]
      exact ih index
  | @percent rest _ ih =>
      rw [Piece.ofText_taken (Piece.takeDirective_percent rest)]
      exact ih index
  | @directive chars rest flags width precision verb taken isVerb _ ih =>
      have single : chars.head? ≠ some '%' := Piece.head?_ne_percent taken fun same => by
        cases same
        exact isVerb.2 rfl
      rw [Piece.wrappedPlaceFrom_percent single, Piece.wrappedPlaceFrom_directive taken,
        Piece.wrappedPlaceFrom_verb isVerb.1, Piece.ofText_taken taken, asked, if_neg isVerb.2]
      split
      · rfl
      · rename_i goesOn
        exact ih goesOn _
  | @unfinished chars width precision taken =>
      have single : chars.head? ≠ some '%' := Piece.head?_ne_percent taken nofun
      rw [Piece.wrappedPlaceFrom_percent single, Piece.wrappedPlaceFrom_unfinished taken,
        Piece.ofText_taken taken]
      rfl

section Directives

variable {chars : List Char} {flags : Flags} {width precision : Measure} {verb : Char}

theorem takeDirective_wrapping :
    Piece.takeDirective ['w'] = (.directive {} .absent .absent 'w', []) := rfl

theorem isVerb_wrapping : IsVerb 'w' := ⟨rfl, by decide⟩

/-- Behind marks the second reader takes a percent sign for a directive that asks for an operand. -/
theorem disagrees_behind_percent (single : chars.head? ≠ some '%')
    (taken : Piece.takeDirective chars = (.directive flags width precision '%', [])) :
    ¬∀ operands, Agrees (String.ofList ('%' :: chars ++ ['%', 'w'])) operands := by
  intro agree
  have same := agrees_ofList.mp agree
  rw [Piece.wrappedPlaceFrom_taken single taken, Piece.ofText_taken_append taken, List.nil_append,
    Piece.ofText_taken takeDirective_wrapping, asked, if_pos rfl] at same
  generalize 0 + width.asks + precision.asks = behind at same
  have counted : wrappedPlaceFrom true behind ['%', '%', 'w'] = some (behind + 1) := rfl
  have wanted : asked behind [.directive {} .absent .absent 'w'] = some behind := rfl
  rw [Piece.ofText_nil, counted, wanted] at same
  exact Nat.succ_ne_self behind (Option.some.inj same)

/-- A mark that does not belong to its directive is a verb of its own, but not for the second
reader. -/
theorem disagrees_behind_mark (single : chars.head? ≠ some '%') (mark : isMark verb = true)
    (taken : Piece.takeDirective chars = (.directive flags width precision verb, [])) :
    ¬∀ operands, Agrees (String.ofList ('%' :: chars ++ ['w'])) operands := by
  intro agree
  have same := agrees_ofList.mp agree
  have noPercent : verb ≠ '%' := by
    rintro rfl
    cases mark
  have noWrap : verb ≠ 'w' := by
    rintro rfl
    cases mark
  rw [Piece.wrappedPlaceFrom_taken single taken, Piece.ofText_taken_append taken, List.nil_append,
    Piece.ofText_literal (by decide), Piece.ofText_nil, asked, if_neg noPercent,
    if_neg noWrap] at same
  change wrappedPlaceFrom true _ [verb, 'w'] = none at same
  by_cases star : verb = '*'
  · subst star
    cases same
  · rw [Piece.wrappedPlaceFrom_mark mark star] at same
    cases same

/-- A directive may stand in front of any plain text exactly if it is plain itself. -/
theorem agrees_behind_iff
    (taken : Piece.takeDirective chars = (.directive flags width precision verb, [])) :
    (∀ behind, Piece.Plain behind →
        ∀ operands, Agrees (String.ofList ('%' :: chars ++ behind)) operands) ↔
      chars = ['%'] ∨ IsVerb verb := by
  constructor
  · intro agree
    by_cases alone : chars = ['%']
    · exact .inl alone
    · have single : chars.head? ≠ some '%' := fun percent => by
        obtain ⟨rest, rfl⟩ := List.head?_eq_some_iff.mp percent
        rw [Piece.takeDirective_percent] at taken
        cases taken
        exact alone rfl
      refine .inr ⟨?mark, ?percent⟩
      case mark =>
        cases mark : isMark verb with
        | false => rfl
        | true =>
            exact absurd (agree _ (.literal (by decide) .nil))
              (disagrees_behind_mark single mark taken)
      case percent =>
        rintro rfl
        have plain : Piece.Plain ['%', 'w'] :=
          .directive takeDirective_wrapping isVerb_wrapping fun other => absurd rfl other
        exact disagrees_behind_percent single taken (agree _ plain)
  · intro plain behind others
    refine agrees_ofList.mpr (wrappedPlaceFrom_plain ?_ 0)
    rcases plain with rfl | isVerb
    · exact .percent others
    · exact .directive (Piece.takeDirective_append taken behind) isVerb fun _ => others

end Directives

/-- A format text is printed by doing its jobs, which take each operand at its place.  An error made
from it wraps the operand that is printed first as a wrapped error, whatever the operands are,
exactly if the place that is found is the one that its directives ask for.  In plain texts it is,
and a directive may stand in front of every plain text without harm exactly if it is plain. -/
theorem wrapped_operand_iff (format : String) (operands : List Value) :
    (printPieces (Piece.ofText format.toList) operands "" = (do
        let printed ← (jobsOf format operands).1.foldlM Job.print ""
        return (printed, operands.drop (jobsOf format operands).2)) ∧
      ∀ verb place v spec, .operand verb place v spec ∈ (jobsOf format operands).1 →
        operands[place]? = some v) ∧
    ((∀ operands, Agrees format operands) ↔
      wrappedPlace format = asked 0 (Piece.ofText format.toList)) ∧
    (Piece.Plain format.toList → Agrees format operands ∧
      errorOf format operands = (do
        let message ← sprintf format operands
        let operand := (wrapping? format operands).join.bind (operands[·]?)
        Eval.newError message (operand.filter (!·.isNil)))) ∧
    ∀ chars flags width precision verb,
      Piece.takeDirective chars = (.directive flags width precision verb, []) →
      ((∀ behind, Piece.Plain behind →
          ∀ operands, Agrees (String.ofList ('%' :: chars ++ behind)) operands) ↔
        chars = ['%'] ∨ IsVerb verb) := by
  refine ⟨⟨?jobs, fun _ _ _ _ => getElem?_of_mem_jobs⟩, agrees_iff format, fun plain => ?plain,
    fun _ _ _ _ _ => agrees_behind_iff⟩
  case jobs => exact printPieces_eq operands 0 _ ""
  case plain =>
    have agrees : Agrees format operands :=
      (agrees_iff format).mpr (wrappedPlaceFrom_plain plain 0) operands
    refine ⟨agrees, ?_⟩
    rw [errorOf, agrees.operand]

theorem plain_starred : Piece.Plain "%*d %w".toList :=
  @Piece.Plain.directive _ [' ', '%', 'w'] {} .operand .absent 'd' rfl ⟨rfl, by decide⟩ fun _ =>
      .literal (by decide) (.directive takeDirective_wrapping isVerb_wrapping fun other =>
        absurd rfl other)

/-- A width that is an operand is counted by both readers; a percent sign with a width is not
plain. -/
theorem wrapped_operand_iff_starred :
    Piece.Plain "%*d %w".toList ∧ Agrees "%*d %w" [.int 3, .int 7, .error 0 "disk full" none] ∧
      Piece.takeDirective ['5', '%'] = (.directive {} (.given 5) .absent '%', []) ∧
      ¬∀ behind, Piece.Plain behind →
        ∀ operands, Agrees (String.ofList ('%' :: ['5', '%'] ++ behind)) operands := by
  obtain ⟨-, -, agree, directives⟩ :=
    wrapped_operand_iff "%*d %w" [.int 3, .int 7, .error 0 "disk full" none]
  have taken : Piece.takeDirective ['5', '%'] = (.directive {} (.given 5) .absent '%', []) := rfl
  refine ⟨plain_starred, (agree plain_starred).1, taken, fun all => ?_⟩
  rcases (directives _ _ _ _ _ taken).mp all with alone | isVerb
  · cases alone
  · exact isVerb.2 rfl

end Format

end SandboxedGo
