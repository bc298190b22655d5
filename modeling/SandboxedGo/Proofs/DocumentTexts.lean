import Mathlib.Algebra.Group.Int.Defs
import Mathlib.Data.List.Forall2
import SandboxedGo.Json.Reader
import SandboxedGo.Library.Json
import SandboxedGo.Proofs.QuotedTexts

/-!
# Documents that are read back from their texts

What is written into a document is read back by any reader of JSON: texts with their escapes,
integers, and arrays and objects of parts that are read back themselves.  A part is followed by a
comma or a closing bracket or by nothing, and it begins with neither of these and no blank; so no
part runs into another one.
-/

set_option autoImplicit false

namespace SandboxedGo.Json

open Library

/-! ## Texts -/

theorem codeUnit?_digits {n : Nat} (fits : n < 16 ^ 4) (rest : List Char) :
    codeUnit? (Text.digitsIn 16 4 n ++ rest) = some (n, rest) := by
  obtain ⟨length, hex, value⟩ := Source.digitsIn_hex fits
  generalize Text.digitsIn 16 4 n = digits at *
  match digits, length with
  | [a, b, c, d], _ =>
      have read := Submission.numberIn_eq_foldl (List.cons_ne_nil a [b, c, d])
        fun digit member => Submission.digitValue_hexDigit (hex digit member)
      rw [List.cons_append, List.cons_append, List.cons_append, List.cons_append, List.nil_append,
        codeUnit?, read]
      exact congrArg (fun unit => some (unit, rest)) value

theorem unitChar?_digits {c : Char} (single : c.toNat < 0xD800) (rest : List Char) :
    unitChar? (Text.digitsIn 16 4 c.toNat ++ rest) = some (c, rest) := by
  have read := codeUnit?_digits (Nat.lt_trans single (by decide)) rest
  unfold unitChar?
  rw [read]
  simp only [Option.bind_eq_bind, Option.bind_some]
  rw [if_neg (by omega), Source.charOfCode_toNat]
  rfl

theorem textChar?_plain {c : Char} (notBackslash : c ≠ '\\') (notControl : ¬ c.toNat < 0x20)
    (rest : List Char) : textChar? (c :: rest) = some (c, rest) := by
  unfold textChar?
  split
  · rename_i same
    cases same
    exact absurd rfl notBackslash
  · rename_i same
    cases same
    exact if_neg notControl
  · rename_i same
    cases same

theorem textChar?_escaped (c : Char) (rest : List Char) :
    textChar? (escapedChar c ++ rest) = some (c, rest) := by
  unfold escapedChar
  split
  case h_8 =>
    rename_i notBackslash _ _ _ _ _
    split
    · rename_i escaped
      have single : c.toNat < 0xD800 := by
        simp only [List.contains_cons, List.contains_nil, Bool.or_false, Bool.or_eq_true,
          beq_iff_eq, decide_eq_true_eq] at escaped
        rcases escaped with (rfl | rfl | rfl | rfl | rfl) | control
        all_goals first | decide | omega
      exact unitChar?_digits single rest
    · rename_i plain
      apply textChar?_plain notBackslash
      simp at plain
      omega
  all_goals rfl

theorem escapedChar_begins (c : Char) : ∃ d rest, escapedChar c = d :: rest ∧ d ≠ '"' := by
  unfold escapedChar
  split
  case h_8 =>
    rename_i notQuote _ _ _ _ _ _
    split
    · exact ⟨_, _, rfl, by decide⟩
    · exact ⟨c, [], rfl, notQuote⟩
  all_goals exact ⟨_, _, rfl, by decide⟩

theorem quotedWithin_succ {text : List Char} (rounds : Nat) (begins : text.head? ≠ some '"') :
    quotedWithin (rounds + 1) text = (do
      let (c, rest) ← textChar? text
      let (more, rest) ← quotedWithin rounds rest
      return (c :: more, rest)) := by
  rw [quotedWithin]
  rintro rest rfl
  exact begins rfl

theorem quotedWithin_escaped (chars rest : List Char) :
    ∀ rounds, chars.length < rounds →
      quotedWithin rounds (chars.flatMap escapedChar ++ '"' :: rest) = some (chars, rest) := by
  induction chars with
  | nil =>
      intro rounds enough
      obtain ⟨rounds, rfl⟩ := Nat.exists_eq_add_of_lt enough
      rfl
  | cons c chars ih =>
      intro rounds enough
      obtain ⟨rounds, rfl⟩ := Nat.exists_eq_add_of_lt enough
      obtain ⟨d, others, spelled, notQuote⟩ := escapedChar_begins c
      have read := textChar?_escaped c (chars.flatMap escapedChar ++ '"' :: rest)
      have more := ih (chars.length + 1 + rounds) (by omega)
      rw [List.flatMap_cons, List.append_assoc, List.length_cons, quotedWithin_succ, read]
      · simp [more]
      · rw [spelled, List.cons_append, List.head?_cons]
        exact fun same => notQuote (Option.some.inj same)

theorem length_le_flatMap_escaped (chars : List Char) :
    chars.length ≤ (chars.flatMap escapedChar).length := by
  induction chars with
  | nil => exact Nat.le_refl _
  | cons c chars ih =>
      obtain ⟨d, others, spelled, _⟩ := escapedChar_begins c
      rw [List.flatMap_cons, spelled, List.length_append, List.length_cons, List.length_cons]
      omega

theorem toList_documentText (s : String) :
    (documentText s).toList = '"' :: (s.toList.flatMap escapedChar ++ ['"']) := by
  simp [documentText]

/-- A text in a document is read back, whatever follows. -/
theorem quoted?_escaped (s : String) (rest : List Char) :
    quoted? (s.toList.flatMap escapedChar ++ '"' :: rest) = some (s, rest) := by
  have short := length_le_flatMap_escaped s.toList
  have read := quotedWithin_escaped s.toList rest
    (s.toList.flatMap escapedChar ++ '"' :: rest).length
    (by rw [List.length_append, List.length_cons]; omega)
  rw [quoted?, read]
  exact congrArg (fun text => some (text, rest)) String.ofList_toList

/-! ## What stands around a document -/

/-- What follows a part of a document. -/
inductive Closes : List Char → Prop
  | nil : Closes []
  | comma (rest : List Char) : Closes (',' :: rest)
  | bracket (rest : List Char) : Closes (']' :: rest)
  | brace (rest : List Char) : Closes ('\x7d' :: rest)

/-- What a part of a document begins with. -/
def Begins (text : List Char) : Prop :=
  ∃ c rest, text = c :: rest ∧ c ∉ [' ', '\t', '\n', '\r', ']', '\x7d']

section Closing

variable {rest : List Char} (closes : Closes rest)

include closes

theorem Closes.skipBlanks : skipBlanks rest = rest := by
  cases closes <;> rfl

theorem Closes.takeWhile : rest.takeWhile Char.isDigit = [] := by
  cases closes <;> rfl

theorem Closes.dropWhile : rest.dropWhile Char.isDigit = rest := by
  cases closes <;> rfl

theorem Closes.fraction : fraction? rest = some ([], rest) := by
  cases closes <;> rfl

theorem Closes.exponent : exponent? rest = some (none, rest) := by
  cases closes <;> rfl

end Closing

theorem Begins.skipBlanks {text : List Char} (begins : Begins text) (rest : List Char) :
    skipBlanks (text ++ rest) = text ++ rest := by
  obtain ⟨c, tail, rfl, other⟩ := begins
  simp only [List.mem_cons, not_or] at other
  simp [Json.skipBlanks, other]

/-! ## Numbers -/

theorem naturalOf_toDigits (n : Nat) : Decimal.naturalOf (Nat.toDigits 10 n) = n := by
  rw [Decimal.naturalOf, ← Nat.ofDigitChars_eq_foldl, Nat.ofDigitChars_ten_toDigits]

theorem head_toDigits {n : Nat} (positive : 0 < n) : (Nat.toDigits 10 n).head? ≠ some '0' := by
  induction n using Nat.strongRecOn with
  | _ n ih =>
    by_cases single : n < 10
    · rw [Nat.toDigits_of_lt_base single]
      have nonzero : ∀ m < 10, 0 < m → [m.digitChar].head? ≠ some '0' := by decide
      exact nonzero n single positive
    · rw [Nat.toDigits_of_base_le (by omega) (by omega), List.head?_append_of_ne_nil _
        Nat.toDigits_ne_nil]
      exact ih (n / 10) (by omega) (by omega)

theorem whole?_toDigits (n : Nat) {rest : List Char} (closes : Closes rest) :
    whole? (Nat.toDigits 10 n ++ rest) = some (Nat.toDigits 10 n, rest) := by
  have each : ∀ d ∈ Nat.toDigits 10 n, d.isDigit = true := fun d member =>
    Nat.isDigit_of_mem_toDigits (by omega) (by omega) member
  have digits : digits? (Nat.toDigits 10 n ++ rest) = some (Nat.toDigits 10 n, rest) := by
    unfold digits?
    rw [List.takeWhile_append_of_pos each, List.dropWhile_append_of_pos each, closes.takeWhile,
      closes.dropWhile, List.append_nil]
    simp [Nat.toDigits_ne_nil]
  have plain : ¬ ((Nat.toDigits 10 n).head? = some '0' ∧ (Nat.toDigits 10 n).length ≠ 1) := by
    rintro ⟨zero, several⟩
    by_cases positive : 0 < n
    · exact head_toDigits positive zero
    · obtain rfl : n = 0 := by omega
      exact several rfl
  unfold whole?
  rw [digits]
  exact if_neg plain

theorem unsigned?_toDigits (negative : Bool) (n : Nat) {rest : List Char} (closes : Closes rest)
    {value : Int} (is : value = if negative then -(n : Int) else n)
    (range : -2 ^ 63 ≤ value ∧ value < 2 ^ 64) :
    unsigned? negative (Nat.toDigits 10 n ++ rest) = some (.int value, rest) := by
  have read : ofDigits? negative (Nat.toDigits 10 n) [] none = some (.int value) := by
    unfold ofDigits?
    rw [naturalOf_toDigits, ← is]
    exact if_pos ⟨rfl, rfl, range⟩
  unfold unsigned?
  rw [whole?_toDigits n closes]
  simp [closes.fraction, closes.exponent, read]

theorem number?_unsigned {c : Char} {rest : List Char} (digit : c.isDigit = true) :
    number? (c :: rest) = unsigned? false (c :: rest) := by
  unfold number?
  split
  · rename_i same
    cases same
    exact absurd digit (by decide)
  · rfl

theorem begins_toDigits (n : Nat) :
    ∃ c rest, Nat.toDigits 10 n = c :: rest ∧ c.isDigit = true := by
  obtain ⟨c, rest, is⟩ := List.exists_cons_of_ne_nil (Nat.toDigits_ne_nil (n := n) (b := 10))
  refine ⟨c, rest, is, ?_⟩
  apply Nat.isDigit_of_mem_toDigits (b := 10) (n := n) (by omega) (by omega)
  rw [is]
  exact List.mem_cons_self

theorem toList_toString_natural (n : Nat) : (toString (n : Int)).toList = Nat.toDigits 10 n :=
  Nat.toList_repr

theorem toList_toString_negative (n : Nat) :
    (toString (Int.negSucc n)).toList = '-' :: Nat.toDigits 10 (n + 1) := by
  have spelled : toString (Int.negSucc n) = "-" ++ Nat.repr (n + 1) := rfl
  rw [spelled, String.toList_append, Nat.toList_repr]
  rfl

theorem number?_int {n : Int} (range : -2 ^ 63 ≤ n ∧ n < 2 ^ 64) {rest : List Char}
    (closes : Closes rest) : number? ((toString n).toList ++ rest) = some (.int n, rest) := by
  cases n with
  | ofNat n =>
      have read := unsigned?_toDigits false n closes rfl range
      obtain ⟨c, digits, is, digit⟩ := begins_toDigits n
      rw [Int.ofNat_eq_natCast, toList_toString_natural, is, List.cons_append,
        number?_unsigned digit, ← List.cons_append, ← is]
      exact read
  | negSucc n =>
      rw [toList_toString_negative]
      exact unsigned?_toDigits true (n + 1) closes rfl range

/-! ## Documents -/

/-- The text is read as the document, whatever closes it. -/
structure Writes (text : List Char) (j : Json) : Prop where
  begins : Begins text
  reads : ∀ (depth : Nat) (rest : List Char), text.length ≤ depth → Closes rest →
    valueWithin depth (text ++ rest) = some (j, rest)

theorem writes_null : Writes "null".toList .null where
  begins := ⟨'n', _, rfl, by decide⟩
  reads depth rest enough _ := by
    obtain ⟨depth, rfl⟩ := Nat.exists_eq_add_of_lt enough
    rfl

theorem writes_bool (b : Bool) : Writes (if b then "true" else "false").toList (.bool b) where
  begins := by
    cases b with
    | true => exact ⟨'t', _, rfl, by decide⟩
    | false => exact ⟨'f', _, rfl, by decide⟩
  reads depth rest enough _ := by
    cases b <;> obtain ⟨depth, rfl⟩ := Nat.exists_eq_add_of_lt enough <;> rfl

theorem valueWithin_number {c : Char} (number : c = '-' ∨ c.isDigit = true) (depth : Nat)
    (rest : List Char) : valueWithin (depth + 1) (c :: rest) = number? (c :: rest) := by
  unfold valueWithin
  split
  case h_7 => rfl
  all_goals
    rename_i same
    cases same
    exact absurd number (by decide)

theorem writes_int {n : Int} (range : -2 ^ 63 ≤ n ∧ n < 2 ^ 64) :
    Writes (toString n).toList (.int n) := by
  have first : ∃ c rest, (toString n).toList = c :: rest ∧ (c = '-' ∨ c.isDigit = true) := by
    cases n with
    | ofNat n =>
        obtain ⟨c, rest, is, digit⟩ := begins_toDigits n
        exact ⟨c, rest, (toList_toString_natural n).trans is, .inr digit⟩
    | negSucc n => exact ⟨'-', _, toList_toString_negative n, .inl rfl⟩
  obtain ⟨c, others, is, number⟩ := first
  refine ⟨⟨c, others, is, ?_⟩, fun depth rest enough closes => ?_⟩
  · intro member
    simp only [List.mem_cons, List.not_mem_nil, or_false] at member
    rcases member with rfl | rfl | rfl | rfl | rfl | rfl <;> exact absurd number (by decide)
  · have read := number?_int range closes
    rw [is] at read enough ⊢
    obtain ⟨depth, rfl⟩ := Nat.exists_eq_add_of_lt enough
    rw [List.cons_append, valueWithin_number number, ← List.cons_append]
    exact read

theorem writes_string (s : String) : Writes (documentText s).toList (.string s) where
  begins := ⟨'"', _, toList_documentText s, by decide⟩
  reads depth rest enough _ := by
    rw [toList_documentText] at enough ⊢
    obtain ⟨depth, rfl⟩ := Nat.exists_eq_add_of_lt enough
    have read := quoted?_escaped s rest
    rw [List.cons_append, List.append_assoc, List.singleton_append]
    change (quoted? _).map _ = _
    rw [read]
    rfl

/-! ## Arrays and objects -/

theorem intercalate_more (part next : List Char) (others : List (List Char)) :
    [','].intercalate (part :: next :: others) =
      part ++ ',' :: [','].intercalate (next :: others) :=
  rfl

theorem length_le_intercalate {part : List Char} {parts : List (List Char)}
    (member : part ∈ parts) :
    part.length ≤ ([','].intercalate parts).length := by
  induction parts with
  | nil => cases member
  | cons first others ih =>
      cases others with
      | nil => simpa using (List.mem_singleton.mp member ▸ Nat.le_refl _)
      | cons next others =>
          rw [intercalate_more, List.length_append, List.length_cons]
          rcases List.mem_cons.mp member with rfl | later
          · omega
          · have := ih later
            omega

theorem count_le_intercalate (parts : List (List Char)) :
    parts.length ≤ ([','].intercalate parts).length + 1 := by
  induction parts with
  | nil => exact Nat.zero_le _
  | cons first others ih =>
      cases others with
      | nil => exact Nat.le_add_left 1 _
      | cons next others =>
          simp only [intercalate_more, List.length_append, List.length_cons] at ih ⊢
          omega

theorem begins_intercalate {part : List Char} (begins : Begins part) (others : List (List Char)) :
    Begins ([','].intercalate (part :: others)) := by
  obtain ⟨c, rest, rfl, other⟩ := begins
  cases others with
  | nil => exact ⟨c, rest, List.intercalate_singleton, other⟩
  | cons next others => exact ⟨c, _, intercalate_more _ next others, other⟩

section Lists

variable {α : Type} {item? : List Char → Option (α × List Char)} {close : Char}

/-- A part of a list is read as an item, whatever closes it. -/
def Reads (item? : List Char → Option (α × List Char)) (part : List Char) (item : α) : Prop :=
  Begins part ∧ ∀ rest, Closes rest → item? (part ++ rest) = some (item, rest)

variable (closing : close = ']' ∨ close = '\x7d')

include closing

theorem closes_closing (rest : List Char) : Closes (close :: rest) := by
  rcases closing with rfl | rfl
  · exact .bracket rest
  · exact .brace rest

theorem itemsWithin_parts {parts : List (List Char)} {items : List α}
    (each : List.Forall₂ (Reads item?) parts items) (some_ : parts ≠ []) (rest : List Char) :
    ∀ rounds, parts.length ≤ rounds →
      itemsWithin item? close rounds ([','].intercalate parts ++ close :: rest) =
        some (items, rest) := by
  induction each with
  | nil => exact absurd rfl some_
  | @cons part item parts items first others ih =>
      intro rounds enough
      obtain ⟨rounds, rfl⟩ := Nat.exists_eq_add_of_lt enough
      obtain ⟨begins, reads⟩ := first
      cases others with
      | nil =>
          have closes := closes_closing closing rest
          rw [List.intercalate_singleton, itemsWithin, begins.skipBlanks, reads _ closes]
          simp only [Option.bind_eq_bind, Option.bind_some, closes.skipBlanks]
          exact if_pos trivial
      | @cons next _ others _ _ _ =>
          have more := ih (List.cons_ne_nil _ _) ((next :: others).length + rounds) (by simp)
          have comma := Closes.comma ([','].intercalate (next :: others) ++ close :: rest)
          rw [intercalate_more, List.append_assoc, itemsWithin, begins.skipBlanks, List.cons_append,
            reads _ comma]
          simp only [Option.bind_eq_bind, Option.bind_some, comma.skipBlanks]
          rw [if_neg (by rcases closing with rfl | rfl <;> decide), if_pos trivial, more]
          rfl

theorem items?_parts {parts : List (List Char)} {items : List α}
    (each : List.Forall₂ (Reads item?) parts items) (rest : List Char) :
    items? item? close ([','].intercalate parts ++ close :: rest) = some (items, rest) := by
  cases each with
  | nil =>
      rw [items?, List.intercalate_nil, List.nil_append, (closes_closing closing rest).skipBlanks]
      exact if_pos rfl
  | @cons part _ others _ first more =>
      have enough := count_le_intercalate (part :: others)
      have begins := begins_intercalate first.1 others
      have within := itemsWithin_parts closing (.cons first more) (List.cons_ne_nil _ _) rest
        ([','].intercalate (part :: others) ++ close :: rest).length
        (by simp only [List.length_append, List.length_cons] at enough ⊢; omega)
      rw [items?, begins.skipBlanks]
      obtain ⟨c, tail, is, other⟩ := begins
      rw [is] at within ⊢
      have different : c ≠ close := by
        rintro rfl
        rcases closing with rfl | rfl <;> exact other (by decide)
      exact (if_neg different).trans within

end Lists

def bracketed (open_ close : Char) (parts : List (List Char)) : List Char :=
  open_ :: ([','].intercalate parts ++ [close])

theorem reads_part {depth : Nat} {part : List Char} {j : Json} (writes : Writes part j)
    (enough : part.length ≤ depth) : Reads (valueWithin depth) part j :=
  ⟨writes.begins, fun rest closes => writes.reads depth rest enough closes⟩

theorem writes_array {parts : List (List Char)} {items : List Json}
    (each : List.Forall₂ Writes parts items) : Writes (bracketed '[' ']' parts) (.array items) where
  begins := ⟨'[', _, rfl, by decide⟩
  reads depth rest enough _ := by
    obtain ⟨depth, rfl⟩ := Nat.exists_eq_add_of_lt enough
    rw [bracketed, List.length_append, List.length_singleton]
    generalize total : ([','].intercalate parts).length + 1 + depth = inner
    have read : items? (valueWithin inner) ']' ([','].intercalate parts ++ ']' :: rest) =
        some (items, rest) := by
      apply items?_parts (.inl rfl)
      have short : ∀ part ∈ parts, part.length ≤ inner := fun part member => by
        have := length_le_intercalate member
        omega
      exact ((List.forall₂_and_left _ _).mpr ⟨short, each⟩).imp
        fun _ _ both => reads_part both.2 both.1
    rw [List.cons_append, List.append_assoc, List.singleton_append]
    change (items? _ _ _).map _ = _
    rw [read]
    rfl

/-- A key and what stands under it. -/
def entryText (key : String) (text : List Char) : List Char :=
  (documentText key).toList ++ ':' :: text

theorem member?_entryText {value? : List Char → Option (Json × List Char)} (key : String)
    {text rest : List Char} {j : Json} (begins : Begins text)
    (reads : value? (text ++ rest) = some (j, rest)) :
    member? value? (entryText key text ++ rest) = some ((key, j), rest) := by
  have quoted := quoted?_escaped key (':' :: (text ++ rest))
  rw [entryText, toList_documentText]
  simp only [List.cons_append, List.append_assoc, List.nil_append]
  rw [member?, quoted]
  simp only [Option.bind_eq_bind, Option.bind_some]
  change (value? (skipBlanks (text ++ rest))).bind _ = _
  rw [begins.skipBlanks, reads]
  rfl

theorem writes_object {parts : List (List Char)} {entries : List (String × Json)}
    (each : List.Forall₂ (fun part e => ∃ text, part = entryText e.1 text ∧ Writes text e.2)
      parts entries) : Writes (bracketed '\x7b' '\x7d' parts) (.object entries) where
  begins := ⟨'\x7b', _, rfl, by decide⟩
  reads depth rest enough _ := by
    obtain ⟨depth, rfl⟩ := Nat.exists_eq_add_of_lt enough
    rw [bracketed, List.length_append, List.length_singleton]
    generalize total : ([','].intercalate parts).length + 1 + depth = inner
    have read : items? (member? (valueWithin inner)) '\x7d'
        ([','].intercalate parts ++ '\x7d' :: rest) = some (entries, rest) := by
      apply items?_parts (.inr rfl)
      have short : ∀ part ∈ parts, part.length ≤ inner := fun part member => by
        have := length_le_intercalate member
        omega
      refine ((List.forall₂_and_left _ _).mpr ⟨short, each⟩).imp fun part e both => ?_
      obtain ⟨enough, text, rfl, writes⟩ := both
      rw [entryText, List.length_append, List.length_cons] at enough
      refine ⟨⟨'"', _, by rw [entryText, toList_documentText]; rfl, by decide⟩,
        fun rest closes => ?_⟩
      exact member?_entryText e.1 writes.begins (writes.reads inner rest (by omega) closes)
    rw [List.cons_append, List.append_assoc, List.singleton_append]
    change (items? _ _ _).map _ = _
    rw [read]
    rfl

/-- A text that is read as a document inside another one is read as that document by itself. -/
theorem ofText?_of_writes {text : String} {j : Json} (writes : Writes text.toList j) :
    ofText? text = some j := by
  have skipped := writes.begins.skipBlanks []
  have read := writes.reads text.toList.length [] (Nat.le_refl _) .nil
  rw [List.append_nil] at skipped read
  rw [ofText?, skipped, read]
  rfl

end SandboxedGo.Json
