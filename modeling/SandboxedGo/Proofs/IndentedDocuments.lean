import SandboxedGo.Proofs.Marshalling

/-!
# Indented and compact documents

The same value is written as a document with line ends and indentation, and as one without.  Outside
of the texts in it the first one only has blanks in addition.  Main statement:
`indented_marshal_agrees`, that taking these blanks out of an indented document gives the compact
one, and that there is the one exactly if there is the other.
-/

set_option autoImplicit false

namespace SandboxedGo.Library

/-! ## Blanks outside of quotes -/

/-- A class of blanks: the line end and the space are in it, and no visible character of ASCII. -/
structure IsBlanks (blank : Char → Bool) : Prop where
  lineEnd : blank '\n' = true
  space : blank ' ' = true
  visible : ∀ c, 0x20 < c.toNat → c.toNat < 0x7f → blank c = false

theorem isBlanks_whiteSpace : IsBlanks Text.isBlank where
  lineEnd := by decide +kernel
  space := by decide +kernel
  visible c above below := by
    have visible : ∀ n < 0x7f, 0x20 < n → Text.isBlank (Char.ofNat n) = false := by decide +kernel
    have is := visible c.toNat below above
    rwa [Char.ofNat_toNat] at is

/-- The blanks that JSON allows between the parts of a document. -/
def jsonBlank (c : Char) : Bool := c = ' ' || c = '\t' || c = '\n' || c = '\r'

theorem isBlanks_json : IsBlanks jsonBlank where
  lineEnd := rfl
  space := rfl
  visible c above _ := by
    simp only [jsonBlank, Bool.or_eq_false_iff, decide_eq_false_iff_not]
    refine ⟨⟨⟨?_, ?_⟩, ?_⟩, ?_⟩ <;> rintro rfl <;> revert above <;> decide

/-- What a document has outside of its texts, other than blanks and quotes: a visible character. -/
def IsSign (c : Char) : Prop := 0x20 < c.toNat ∧ c.toNat < 0x7f ∧ c ≠ '"'

instance (c : Char) : Decidable (IsSign c) := inferInstanceAs (Decidable (_ ∧ _ ∧ _))

theorem isSign_digit {c : Char} (digit : c.isDigit = true) : IsSign c := by
  simp only [Char.isDigit, Bool.and_eq_true, decide_eq_true_eq, UInt32.le_iff_toNat_le] at digit
  have low : 0x30 ≤ c.toNat := digit.1
  have high : c.toNat ≤ 0x39 := digit.2
  refine ⟨by omega, by omega, ?_⟩
  rintro rfl
  revert low
  decide

theorem IsBlanks.sign {blank : Char → Bool} {c : Char} (blanks : IsBlanks blank) (sign : IsSign c) :
    blank c = false :=
  blanks.visible c sign.1 sign.2.1

/-- A text without the blanks outside of its quotes; `quoted` tells whether it begins inside. -/
def withoutBlanks (blank : Char → Bool) : (quoted : Bool) → List Char → List Char
  | _, [] => []
  | false, c :: rest =>
    if blank c then withoutBlanks blank false rest else c :: withoutBlanks blank (c = '"') rest
  | true, '\\' :: c :: rest => '\\' :: c :: withoutBlanks blank true rest
  | true, c :: rest => c :: withoutBlanks blank (c ≠ '"') rest

/-- A part of a document becomes another one when the blanks outside of quotes are taken out of the
document; it begins and ends outside of them. -/
def Strips (blank : Char → Bool) (text stripped : List Char) : Prop :=
  ∀ rest, withoutBlanks blank false (text ++ rest) = stripped ++ withoutBlanks blank false rest

example : withoutBlanks jsonBlank false "[ \"a \\\" b\" ]".toList =
    "[\"a \\\" b\"]".toList := by
  simp [withoutBlanks, jsonBlank]

variable {blank : Char → Bool} {text stripped text' stripped' : List Char}

theorem Strips.whole (strips : Strips blank text stripped) :
    withoutBlanks blank false text = stripped := by
  have whole := strips []
  rw [List.append_nil] at whole
  rw [whole, withoutBlanks, List.append_nil]

theorem Strips.append (first : Strips blank text stripped) (second : Strips blank text' stripped') :
    Strips blank (text ++ text') (stripped ++ stripped') := fun rest => by
  rw [List.append_assoc, first, second, List.append_assoc]

theorem strips_nil : Strips blank [] [] := fun _ => rfl

theorem strips_blanks (blanks : ∀ c ∈ text, blank c = true) : Strips blank text [] := by
  induction text with
  | nil => exact strips_nil
  | cons c text ih =>
      intro rest
      rw [List.cons_append, withoutBlanks, if_pos (blanks c List.mem_cons_self)]
      exact ih (fun d isIn => blanks d (List.mem_cons_of_mem c isIn)) rest

theorem strips_signs (blanks : IsBlanks blank) (signs : ∀ c ∈ text, IsSign c) :
    Strips blank text text := by
  induction text with
  | nil => exact strips_nil
  | cons c text ih =>
      intro rest
      have sign := signs c List.mem_cons_self
      rw [List.cons_append, withoutBlanks, if_neg (by simp [blanks.sign sign]),
        decide_eq_false sign.2.2]
      exact congrArg (c :: ·) (ih (fun d isIn => signs d (List.mem_cons_of_mem c isIn)) rest)

theorem strips_sign (blanks : IsBlanks blank) {c : Char} (sign : IsSign c) :
    Strips blank [c] [c] :=
  strips_signs blanks fun _ isIn => List.mem_singleton.mp isIn ▸ sign

/-! ### Texts -/

theorem withoutBlanks_quoted {c : Char} (noQuote : c ≠ '"') (noEscape : c ≠ '\\')
    (rest : List Char) :
    withoutBlanks blank true (c :: rest) = c :: withoutBlanks blank true rest := by
  rw [withoutBlanks]
  · rw [decide_eq_true noQuote]
  · exact fun _ _ is _ => noEscape is

theorem withoutBlanks_quoted_append {chars : List Char}
    (plain : ∀ c ∈ chars, c ≠ '"' ∧ c ≠ '\\') (rest : List Char) :
    withoutBlanks blank true (chars ++ rest) = chars ++ withoutBlanks blank true rest := by
  induction chars with
  | nil => rfl
  | cons c chars ih =>
      obtain ⟨noQuote, noEscape⟩ := plain c List.mem_cons_self
      rw [List.cons_append, withoutBlanks_quoted noQuote noEscape,
        ih fun d isIn => plain d (List.mem_cons_of_mem c isIn), List.cons_append]

theorem withoutBlanks_escapedChar (c : Char) (rest : List Char) :
    withoutBlanks blank true (escapedChar c ++ rest) =
      escapedChar c ++ withoutBlanks blank true rest := by
  unfold escapedChar
  split
  case h_8 noQuote noEscape _ _ _ _ _ =>
    split
    · rename_i escaped
      have fits : c.toNat < 16 ^ 4 := by
        simp only [List.contains_cons, List.contains_nil, Bool.or_false, Bool.or_eq_true,
          beq_iff_eq, decide_eq_true_eq] at escaped
        rcases escaped with (rfl | rfl | rfl | rfl | rfl) | control
        all_goals first | decide | omega
      have plain : ∀ d ∈ Text.digitsIn 16 4 c.toNat, d ≠ '"' ∧ d ≠ '\\' := fun d isIn => by
        have hex := (Source.digitsIn_hex fits).2.1 d isIn
        constructor <;> rintro rfl <;> cases hex
      exact congrArg ('\\' :: 'u' :: ·) (withoutBlanks_quoted_append plain rest)
    · exact withoutBlanks_quoted noQuote noEscape rest
  all_goals rfl

theorem strips_documentText (blanks : IsBlanks blank) (s : String) :
    Strips blank (documentText s).toList (documentText s).toList := by
  have inside (chars rest : List Char) :
      withoutBlanks blank true (chars.flatMap escapedChar ++ '"' :: rest) =
        chars.flatMap escapedChar ++ '"' :: withoutBlanks blank false rest := by
    induction chars with
    | nil => rfl
    | cons c chars ih =>
        rw [List.flatMap_cons, List.append_assoc, withoutBlanks_escapedChar, ih, List.append_assoc]
  have quote : blank '"' = false := blanks.visible '"' (by decide) (by decide)
  intro rest
  rw [documentText, String.toList_ofList, List.append_assoc, List.cons_append, List.singleton_append,
    withoutBlanks, if_neg (by simp [quote]), decide_eq_true rfl, inside]
  simp

/-! ### Numbers -/

theorem isSign_digitsOf {n : Nat} {c : Char} (isIn : c ∈ Decimal.digitsOf n) : IsSign c := by
  unfold Decimal.digitsOf at isIn
  exact isSign_digit (Nat.isDigit_of_mem_toDigits (by omega) (by omega) isIn)

theorem isSign_zeros {n : Nat} {c : Char} (isIn : c ∈ List.replicate n '0') : IsSign c := by
  rw [List.eq_of_mem_replicate isIn]
  decide

theorem isSign_ofRatio {num den places : Nat} {c : Char}
    (isIn : c ∈ (Decimal.Scientific.ofRatio num den places).digits) : IsSign c := by
  unfold Decimal.Scientific.ofRatio at isIn
  split at isIn
  · exact isSign_zeros isIn
  · dsimp only at isIn
    split at isIn
    · exact isSign_digitsOf isIn
    · exact isSign_digitsOf isIn

theorem isSign_onGrid {num den low high scale places : Nat} {closed : Bool} {exponent : Int}
    {x : Decimal.Scientific} {c : Char}
    (found : Decimal.Scientific.onGrid num den low high scale closed exponent places = some x)
    (isIn : c ∈ x.digits) : IsSign c := by
  unfold Decimal.Scientific.onGrid at found
  obtain ⟨point, -, rfl⟩ := Option.map_eq_some_iff.mp found
  split at isIn
  · exact isSign_digitsOf isIn
  · exact isSign_digitsOf isIn

theorem isSign_shortest {f : Float} {c : Char}
    (isIn : c ∈ (Decimal.Scientific.shortest f).digits) : IsSign c := by
  unfold Decimal.Scientific.shortest at isIn
  dsimp only at isIn
  split at isIn
  · rw [List.mem_singleton.mp isIn]
    decide
  · rename_i x
    cases found : (List.range 17).findSome? _ with
    | none =>
        rw [found] at isIn
        exact isSign_ofRatio isIn
    | some x =>
        rw [found] at isIn
        obtain ⟨places, -, found⟩ := List.exists_of_findSome?_eq_some found
        exact isSign_onGrid found isIn

theorem isSign_mantissaText {digits : List Char} {c : Char}
    (numeric : ∀ d ∈ digits, IsSign d) (isIn : c ∈ Format.mantissaText digits) : IsSign c := by
  unfold Format.mantissaText at isIn
  split at isIn
  · cases isIn
  · exact numeric c isIn
  · rename_i d rest _
    rcases List.mem_cons.mp isIn with rfl | isIn
    · exact numeric c List.mem_cons_self
    · rcases List.mem_cons.mp isIn with rfl | isIn
      · decide
      · exact numeric c (List.mem_cons_of_mem d isIn)

theorem isSign_exponentText {exponent : Int} {c : Char}
    (isIn : c ∈ Format.exponentText false exponent) : IsSign c := by
  unfold Format.exponentText at isIn
  rcases List.mem_append.mp isIn with isIn | isIn
  · rcases List.mem_cons.mp isIn with rfl | isIn
    · decide
    · rcases List.mem_cons.mp isIn with rfl | isIn
      · split <;> decide
      · exact isSign_zeros isIn
  · exact isSign_digitsOf isIn

theorem isSign_placePoint {x : Decimal.Scientific} {c : Char}
    (numeric : ∀ d ∈ x.digits, IsSign d) (isIn : c ∈ Decimal.placePoint x) : IsSign c := by
  unfold Decimal.placePoint at isIn
  split at isIn
  · rcases List.mem_append.mp isIn with isIn | isIn
    · rcases List.mem_cons.mp isIn with rfl | isIn
      · decide
      · rcases List.mem_cons.mp isIn with rfl | isIn
        · decide
        · exact isSign_zeros isIn
    · exact numeric c isIn
  · dsimp only at isIn
    split at isIn
    · rcases List.mem_append.mp isIn with isIn | isIn
      · exact numeric c isIn
      · exact isSign_zeros isIn
    · rcases List.mem_append.mp isIn with isIn | isIn
      · exact numeric c (List.mem_of_mem_take isIn)
      · rcases List.mem_cons.mp isIn with rfl | isIn
        · decide
        · exact numeric c (List.mem_of_mem_drop isIn)

theorem isSign_floatText {f : Float} {form : Format.FloatForm}
    (plain : form = .exponent false ∨ form = .fixed) {c : Char}
    (isIn : c ∈ (Format.floatText f form none).toList) : IsSign c := by
  have body {b : List Char} (numeric : ∀ d ∈ b, IsSign d)
      (isIn : c ∈ (if Decimal.signBit f then '-' :: b else b)) : IsSign c := by
    split at isIn
    · rcases List.mem_cons.mp isIn with rfl | isIn
      · decide
      · exact numeric c isIn
    · exact numeric c isIn
  unfold Format.floatText at isIn
  split at isIn
  · rename_i word special
    unfold Format.nonFinite? at special
    have signs : ∀ c ∈ word.toList, IsSign c := by
      split at special
      · cases special
        simp [IsSign]
      · split at special
        · cases special
          split <;> simp [IsSign]
        · cases special
    exact signs c isIn
  · rw [String.toList_ofList] at isIn
    refine body (fun d isIn => ?_) isIn
    rcases plain with rfl | rfl
    · rcases List.mem_append.mp isIn with isIn | isIn
      · exact isSign_mantissaText (fun _ => isSign_shortest) isIn
      · exact isSign_exponentText isIn
    · exact isSign_placePoint (fun _ => isSign_shortest) isIn

theorem mem_of_mem_shortenExponent {chars : List Char} {c : Char}
    (isIn : c ∈ shortenExponent chars) : c ∈ chars := by
  unfold shortenExponent at isIn
  split at isIn
  · rename_i d rest reversed
    rw [List.mem_reverse] at isIn
    rw [← List.mem_reverse, reversed]
    simp only [List.mem_cons] at isIn ⊢
    rcases isIn with is | is | is | isIn
    · exact .inl is
    · exact .inr (.inr (.inl is))
    · exact .inr (.inr (.inr (.inl is)))
    · exact .inr (.inr (.inr (.inr isIn)))
  · exact isIn

theorem isSign_documentFloat {f : Float} {written : String} (is : documentFloat f = .ok written)
    {c : Char} (isIn : c ∈ written.toList) : IsSign c := by
  unfold documentFloat at is
  split at is
  · cases is
  · dsimp only at is
    split at is
    · cases is
      rw [String.toList_ofList] at isIn
      exact isSign_floatText (.inl rfl) (mem_of_mem_shortenExponent isIn)
    · cases is
      exact isSign_floatText (.inr rfl) isIn

theorem isSign_integer {n : Int} {c : Char} (isIn : c ∈ (toString n).toList) : IsSign c := by
  cases n with
  | ofNat n =>
      rw [Int.ofNat_eq_natCast, Json.toList_toString_natural] at isIn
      exact isSign_digitsOf isIn
  | negSucc n =>
      rw [Json.toList_toString_negative] at isIn
      rcases List.mem_cons.mp isIn with rfl | isIn
      · decide
      · exact isSign_digitsOf isIn

/-! ## Documents under way -/

/-- Two documents under way end alike: with results that belong together, with the same fault, or
both not at all. -/
def EndAlike {α β : Type} (together : α → β → Prop) (x : Documented α) (y : Documented β) : Prop :=
  match x.run, y.run with
  | some (.ok a), some (.ok b) => together a b
  | some (.error fault), some (.error fault') => fault = fault'
  | none, none => True
  | _, _ => False

section

variable {α β γ δ : Type} {R : α → β → Prop} {S : γ → δ → Prop}

theorem endAlike_pure {a : α} {b : β} (is : R a b) : EndAlike R (pure a) (pure b) := is

theorem endAlike_throw (fault : DocumentFault) : EndAlike R (throw fault) (throw fault) := by
  rfl

theorem endAlike_refl (x : Documented α) : EndAlike Eq x x := by
  unfold EndAlike
  cases x.run with
  | none => trivial
  | some r => cases r <;> rfl

theorem EndAlike.bind {x : Documented α} {y : Documented β} {f : α → Documented γ}
    {g : β → Documented δ} (first : EndAlike R x y)
    (then_ : ∀ a b, R a b → EndAlike S (f a) (g b)) :
    EndAlike S (x >>= f) (y >>= g) := by
  match x, y, first with
  | some (.ok a), some (.ok b), is => exact then_ a b is
  | some (.error fault), some (.error _), is =>
      cases is
      rfl
  | none, none, _ => trivial

theorem endAlike_mapM {f : γ → Documented α} {g : γ → Documented β} {items : List γ}
    (each : ∀ item ∈ items, EndAlike R (f item) (g item)) :
    EndAlike (List.Forall₂ R) (items.mapM f) (items.mapM g) := by
  induction items with
  | nil => exact .nil
  | cons item rest ih =>
      rw [List.mapM_cons, List.mapM_cons]
      refine (each item List.mem_cons_self).bind fun a b first => ?_
      have alike := ih fun later isIn => each later (List.mem_cons_of_mem _ isIn)
      refine alike.bind fun as bs others => ?_
      exact endAlike_pure (R := List.Forall₂ R) (.cons first others)

end

/-! ## Documents without their blanks -/

section Documents

variable {i : Indentation} {s : Store}

/-- What an indented part of a document becomes. -/
def Compacts (blank : Char → Bool) (indented compact : String) : Prop :=
  Strips blank indented.toList compact.toList

theorem strips_intercalate (blanks : IsBlanks blank) {parts stripped : List (List Char)}
    (each : List.Forall₂ (Strips blank) parts stripped) :
    Strips blank ([','].intercalate parts) ([','].intercalate stripped) := by
  induction each with
  | nil => exact strips_nil
  | @cons part _ parts _ first others ih =>
      cases others with
      | nil => simpa using first
      | @cons part' _ parts' _ second others =>
          rw [Json.intercalate_more, Json.intercalate_more]
          exact first.append ((strips_sign blanks (by decide)).append ih)

theorem toList_enclosed_lines (open_ close : String) (level : Nat) {parts : List String}
    (some_ : parts ≠ []) :
    (enclosed open_ close (some i) level parts).toList =
      open_.toList ++
        [','].intercalate
          (parts.map fun part => (lineBreak (some i) (level + 1)).toList ++ part.toList) ++
        (lineBreak (some i) level).toList ++ close.toList := by
  rw [enclosed, if_neg (by simpa using some_)]
  simp only [String.toList_append, String.toList_intercalate, List.map_map, Function.comp_def]
  rfl

section

variable (blanks : IsBlanks blank) (lineStart : ∀ c ∈ i.lineStart.toList, blank c = true)
  (unit : ∀ c ∈ i.unit.toList, blank c = true)

include blanks lineStart unit

theorem strips_lineBreak (level : Nat) : Strips blank (lineBreak (some i) level).toList [] := by
  have indents : ∀ level, ∀ c ∈ (String.join (List.replicate level i.unit)).toList,
      blank c = true := by
    intro level c isIn
    rw [String.toList_join, List.mem_flatMap] at isIn
    obtain ⟨part, isPart, isIn⟩ := isIn
    rw [List.eq_of_mem_replicate isPart] at isIn
    exact unit c isIn
  refine strips_blanks fun c isIn => ?_
  simp only [lineBreak, String.toList_append, List.mem_append] at isIn
  rcases isIn with (isIn | isIn) | isIn
  · obtain rfl : c = '\n' := List.mem_singleton.mp isIn
    exact blanks.lineEnd
  · exact lineStart c isIn
  · exact indents level c isIn

/-- Parts in brackets become the same brackets around what the parts become. -/
theorem compacts_enclosed {open_ close : String} (opens : Strips blank open_.toList open_.toList)
    (closes : Strips blank close.toList close.toList) (level : Nat) {parts stripped : List String}
    (each : List.Forall₂ (Compacts blank) parts stripped) :
    Compacts blank (enclosed open_ close (some i) level parts)
      (enclosed open_ close none level stripped) := by
  have breaks := strips_lineBreak blanks lineStart unit
  have lines : List.Forall₂ (Strips blank)
      (parts.map fun part => (lineBreak (some i) (level + 1)).toList ++ part.toList)
      (stripped.map String.toList) := by
    rw [List.forall₂_map_left_iff, List.forall₂_map_right_iff]
    exact each.imp fun _ _ compacts => (breaks (level + 1)).append compacts
  rw [Compacts, Store.toList_enclosed]
  cases each with
  | nil => simpa [enclosed] using opens.append closes
  | cons first others =>
      have whole := ((opens.append (strips_intercalate blanks lines)).append (breaks level)).append
        closes
      rw [toList_enclosed_lines _ _ _ (List.cons_ne_nil _ _)]
      simpa only [List.append_nil] using whole

end

theorem compacts_entry (blanks : IsBlanks blank) (key : String) {text stripped : String}
    (compacts : Compacts blank text stripped) :
    Compacts blank (documentEntry (some i) key text) (documentEntry none key stripped) := by
  have colon : Strips blank [':', ' '] [':'] :=
    (strips_sign blanks (by decide)).append
      (strips_blanks fun c isIn => by rw [List.mem_singleton.mp isIn]; exact blanks.space)
  have whole := ((strips_documentText blanks key).append colon).append compacts
  simpa [Compacts, documentEntry] using whole

theorem endAlike_word (blanks : IsBlanks blank) {word : String}
    (signs : ∀ c ∈ word.toList, IsSign c) :
    EndAlike (Compacts blank) (pure word) (pure word) :=
  endAlike_pure (strips_signs blanks signs)

section

variable (blanks : IsBlanks blank) (lineStart : ∀ c ∈ i.lineStart.toList, blank c = true)
  (unit : ∀ c ∈ i.unit.toList, blank c = true)

include blanks lineStart unit

theorem endAlike_enclosed {open_ close : String}
    (opens : ∀ c ∈ open_.toList, IsSign c)
    (closes : ∀ c ∈ close.toList, IsSign c) (level : Nat)
    {parts stripped : List String} (each : List.Forall₂ (Compacts blank) parts stripped) :
    EndAlike (Compacts blank) (pure (enclosed open_ close (some i) level parts))
      (pure (enclosed open_ close none level stripped)) :=
  endAlike_pure (compacts_enclosed blanks lineStart unit (strips_signs blanks opens)
    (strips_signs blanks closes) level each)

variable {depth level : Nat}
  (inner : ∀ v, EndAlike (Compacts blank) (documentWithin s (some i) depth (level + 1) v)
    (documentWithin s none depth (level + 1) v))

include inner

theorem endAlike_items (items : List Value) :
    EndAlike (Compacts blank)
      (do
        let parts ← items.mapM (documentWithin s (some i) depth (level + 1))
        pure (enclosed "[" "]" (some i) level parts))
      (do
        let parts ← items.mapM (documentWithin s none depth (level + 1))
        pure (enclosed "[" "]" none level parts)) :=
  (endAlike_mapM fun item _ => inner item).bind fun _ _ each =>
    endAlike_enclosed blanks lineStart unit (by simp [IsSign]) (by simp [IsSign]) level
      each

theorem endAlike_entries (entries : List (String × Value)) :
    EndAlike (Compacts blank)
      (do
        let parts ← entries.mapM fun (key, item) => do
          let text ← documentWithin s (some i) depth (level + 1) item
          pure (documentEntry (some i) key text)
        pure (enclosed "\x7b" "\x7d" (some i) level parts))
      (do
        let parts ← entries.mapM fun (key, item) => do
          let text ← documentWithin s none depth (level + 1) item
          pure (documentEntry none key text)
        pure (enclosed "\x7b" "\x7d" none level parts)) := by
  have entry (e : String × Value) :
      EndAlike (Compacts blank)
        (do
          let text ← documentWithin s (some i) depth (level + 1) e.2
          pure (documentEntry (some i) e.1 text))
        (do
          let text ← documentWithin s none depth (level + 1) e.2
          pure (documentEntry none e.1 text)) :=
    (inner e.2).bind fun _ _ compacts => endAlike_pure (compacts_entry blanks e.1 compacts)
  exact (endAlike_mapM fun e _ => entry e).bind fun _ _ each =>
    endAlike_enclosed blanks lineStart unit (by simp [IsSign]) (by simp [IsSign]) level
      each

omit inner

theorem endAlike_documentWithin (depth level : Nat) (v : Value) :
    EndAlike (Compacts blank) (documentWithin s (some i) depth level v)
      (documentWithin s none depth level v) := by
  induction depth generalizing level v with
  | zero => exact endAlike_throw .cycle
  | succ depth ih =>
      have entries := endAlike_entries blanks lineStart unit (ih (level + 1))
      cases v with
      | nil =>
          rw [documentWithin, documentWithin]
          exact endAlike_word blanks (by simp [IsSign])
      | bool b =>
          rw [documentWithin, documentWithin]
          cases b <;> exact endAlike_word blanks (by simp [IsSign])
      | int n =>
          rw [documentWithin, documentWithin]
          exact endAlike_pure (strips_signs blanks fun _ => isSign_integer)
      | float f =>
          rw [documentWithin, documentWithin]
          cases is : documentFloat f with
          | ok written =>
              exact endAlike_pure (strips_signs blanks fun _ => isSign_documentFloat is)
          | error fault => exact endAlike_throw fault
      | string t =>
          rw [documentWithin, documentWithin]
          exact endAlike_pure (strips_documentText blanks t)
      | slice view =>
          rw [documentWithin, documentWithin]
          split
          · exact endAlike_word blanks (by simp [IsSign])
          · exact endAlike_items blanks lineStart unit (ih (level + 1)) _
      | map m zero =>
          rw [documentWithin, documentWithin]
          split
          · exact endAlike_word blanks (by simp [IsSign])
          · exact entries _
      | struct o | pointer o =>
          rw [documentWithin, documentWithin]
          exact (endAlike_refl (s.jsonFields? o)).bind fun fields _ same => same ▸ entries fields
      | ref c =>
          rw [documentWithin, documentWithin]
          exact ih (level + 1) _
      | error id message wrapped =>
          rw [documentWithin, documentWithin]
          exact endAlike_word blanks (by simp [IsSign])
      | func f =>
          cases f with
          | closure | method =>
              rw [documentWithin, documentWithin]
              exact endAlike_throw _
          | _ =>
              rw [documentWithin, documentWithin]
              · exact endAlike_throw _
              all_goals (intros; contradiction)
      | tuple | stream =>
          rw [documentWithin, documentWithin]
          exact endAlike_throw _

end

end Documents

/-! ## Both functions -/

/-- How marshalling a value with indentation and without it end: both with a text, or both with the
same error, or neither of them. -/
inductive MarshalledAlike (blank : Char → Bool) :
    (indented compact : EStateM.Result Stop Machine Value) → Prop
  | written {indented compact : String} {view view' : SliceView} {m m' : Machine}
      (bytes : m.store.elements view =
        (Text.bytesOf indented).map fun b => .int (Int64.ofNat b.toNat))
      (bytes' : m'.store.elements view' =
        (Text.bytesOf compact).map fun b => .int (Int64.ofNat b.toNat))
      (same : withoutBlanks blank false indented.toList = compact.toList) :
      MarshalledAlike blank (.ok (.tuple [.slice view, .nil]) m)
        (.ok (.tuple [.slice view', .nil]) m')
  | refused (id : Nat) (message : String) (m : Machine) :
      MarshalledAlike blank (.ok (.tuple [.nil, .error id message none]) m)
        (.ok (.tuple [.nil, .error id message none]) m)
  | endless (m : Machine) :
      MarshalledAlike blank (.error (.halt .unfinished) m) (.error (.halt .unfinished) m)

theorem marshalledAlike_result {x y : Documented String} (alike : EndAlike (Compacts blank) x y)
    (ev : Evaluator) (m : Machine) :
    MarshalledAlike blank ((JsonFunction.result x).run ev m)
      ((JsonFunction.result y).run ev m) := by
  match x, y, alike with
  | some (.ok indented), some (.ok compact), compacts =>
      obtain ⟨view, after, sliced, bytes⟩ := byteSlice_run indented ev m
      obtain ⟨view', after', sliced', bytes'⟩ := byteSlice_run compact ev m
      have ran : (JsonFunction.result (some (.ok indented))).run ev m =
          .ok (.tuple [.slice view, .nil]) after := result_run sliced
      have ran' : (JsonFunction.result (some (.ok compact))).run ev m =
          .ok (.tuple [.slice view', .nil]) after' := result_run sliced'
      rw [ran, ran']
      exact .written bytes bytes' compacts.whole
  | some (.error fault), some (.error _), same =>
      cases same
      exact .refused m.nextId fault.message { m with nextId := m.nextId + 1 }
  | none, none, _ =>
      have ran : (JsonFunction.result none).run ev m =
          .error (.halt .unfinished)
            { m with endings := (.unfinished, m.toScene) :: m.endings } := rfl
      rw [ran]
      exact .endless _

/-- A value marshalled with blanks as the start of lines and as indentation gives the text that it
gives without, but for blanks outside of the texts in it; or it gives the same error. -/
theorem indented_marshal_agrees (blanks : IsBlanks blank) (lineStart unit : String)
    (startBlank : ∀ c ∈ lineStart.toList, blank c = true)
    (unitBlank : ∀ c ∈ unit.toList, blank c = true) (v : Value) (ev : Evaluator) (m : Machine) :
    MarshalledAlike blank
      (((Function.json .marshalIndent).call [v, .string lineStart, .string unit]).run ev m)
      (((Function.json .marshal).call [v]).run ev m) := by
  have alike : EndAlike (Compacts blank) (document m.store (some ⟨lineStart, unit⟩) v)
      (document m.store none v) :=
    endAlike_documentWithin blanks startBlank unitBlank documentDepth 0 v
  exact marshalledAlike_result alike ev m

theorem indented_marshal_agrees_nested :
    let v : Value := .slice ⟨⟨0⟩, 0, 3, 3, false, false⟩
    let m : Machine := { Machine.initial {} with store := nestedStore }
    let indented (lineStart unit : String) : Eval Value :=
      (Function.json .marshalIndent).call [v, .string lineStart, .string unit]
    let compact : Eval Value := (Function.json .marshal).call [v]
    let ev : Evaluator := .ofDepth 0
    MarshalledAlike jsonBlank ((indented "" "\t").run ev m) (compact.run ev m) ∧
      MarshalledAlike Text.isBlank ((indented "" "\u2003").run ev m) (compact.run ev m) := by
  have none_ {blank : Char → Bool} : ∀ c ∈ "".toList, blank c = true := nofun
  have tab : ∀ c ∈ "\t".toList, jsonBlank c = true := by
    intro c isIn
    rw [List.mem_singleton.mp isIn]
    rfl
  have wide : ∀ c ∈ "\u2003".toList, Text.isBlank c = true := by
    intro c isIn
    rw [List.mem_singleton.mp isIn]
    decide +kernel
  exact ⟨indented_marshal_agrees isBlanks_json "" "\t" none_ tab _ _ _,
    indented_marshal_agrees isBlanks_whiteSpace "" "\u2003" none_ wide _ _ _⟩

end SandboxedGo.Library
