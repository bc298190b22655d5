import Mathlib.Data.List.DropRight
import SandboxedGo.Proofs.WrittenWords
import SandboxedGo.Submission.HostCalls

/-!
# Entry points and their layout

The parser takes a package clause and a function in every layout that the lexer reads; the check of
the entry point looks for both at the beginnings of lines.  `Clause` and `Head` tell where the two
are written in a program, `OnLine` is the layout that the check knows.  Main statement:
`accepted_iff_layout`, a program with an entry point is refused for nothing but its layout.
-/

set_option autoImplicit false

namespace SandboxedGo.Submission

open Source

/-! ## Layouts -/

/-- Where the package clause of a program is written: behind nothing but semicolons. -/
structure Clause (source : List Char) where
  semicolons : Nat
  keyword : Word false source (.replicate semicolons (.mark .semi)) (.keyword .package)
  name : Word false keyword.behind [] (.name "main")

/-- Where a function `main` without receiver and parameters is written.  Between the parentheses
there may be semicolons, which are none of the parameters. -/
structure Head (source : List Char) where
  before : List Token
  keyword : Word false source before (.keyword .func)
  name : Word false keyword.behind [] (.name "main")
  opening : Word true name.behind [] (.mark .lParen)
  semicolons : Nat
  closing : Word false opening.behind (.replicate semicolons (.mark .semi)) (.mark .rParen)

/-- Nothing but white space. -/
def AllBlank (chars : List Char) : Prop := ∀ c ∈ chars, Text.isBlank c = true

/-- A line begins behind this text. -/
def LineStart (lead : List Char) : Prop := lead = [] ∨ ∃ before, lead = before ++ ['\n']

/-- The line at the end of a text. -/
def lastLine (chars : List Char) : List Char := chars.rtakeWhile (· ≠ '\n')

/-- The clause begins its line and white space divides its words; behind it the line ends, or a
line comment stands. -/
structure Clause.OnLine {source : List Char} (clause : Clause source) : Prop where
  lead : AllBlank (lastLine clause.keyword.gap)
  behindKeyword : AllBlank clause.name.gap
  behindName : endsLine clause.name.behind = true

/-- The function begins its line and white space divides its words. -/
structure Head.OnLine {source : List Char} (head : Head source) : Prop where
  lead : AllBlank (lastLine head.keyword.gap)
  behindKeyword : AllBlank head.name.gap
  behindName : AllBlank head.opening.gap
  inside : AllBlank head.closing.gap

/-- A line of a text begins with something, and not at the place in question: in a comment, say. -/
def Elsewhere (p : List Char → Bool) (source place : List Char) : Prop :=
  ∃ lead rest, source = lead ++ rest ∧ LineStart lead ∧ p rest = true ∧ afterIndent rest ≠ place

/-! ## Lines -/

theorem anyLineFrom_iff {p : List Char → Bool} {chars : List Char} {atStart : Bool} :
    anyLineFrom p atStart chars = true ↔ (atStart = true ∧ p chars = true) ∨
      ∃ before rest, chars = before ++ '\n' :: rest ∧ p rest = true := by
  induction chars generalizing atStart with
  | nil => simp [anyLineFrom]
  | cons c chars ih =>
      rw [anyLineFrom, Bool.or_eq_true, Bool.and_eq_true, ih]
      refine or_congr_right ⟨?_, ?_⟩
      · rintro (⟨line, begins⟩ | ⟨before, rest, rfl, begins⟩)
        · rw [of_decide_eq_true line]
          exact ⟨[], chars, rfl, begins⟩
        · exact ⟨c :: before, rest, rfl, begins⟩
      · rintro ⟨before, rest, split, begins⟩
        cases before with
        | nil =>
            cases split
            exact .inl ⟨rfl, begins⟩
        | cons d before =>
            cases split
            exact .inr ⟨before, rest, rfl, begins⟩

theorem anyLine_iff {p : List Char → Bool} {chars : List Char} : anyLine p chars = true ↔
    ∃ lead rest, chars = lead ++ rest ∧ LineStart lead ∧ p rest = true := by
  unfold anyLine
  rw [anyLineFrom_iff]
  constructor
  · rintro (⟨_, begins⟩ | ⟨before, rest, rfl, begins⟩)
    · exact ⟨[], chars, rfl, .inl rfl, begins⟩
    · exact ⟨before ++ ['\n'], rest, List.append_cons .., .inr ⟨before, rfl⟩, begins⟩
  · rintro ⟨_, rest, rfl, rfl | ⟨before, rfl⟩, begins⟩
    · exact .inl ⟨rfl, begins⟩
    · exact .inr ⟨before, rest, (List.append_cons ..).symm, begins⟩

theorem exists_lastLine (chars : List Char) :
    ∃ before, LineStart before ∧ chars = before ++ lastLine chars := by
  refine ⟨chars.rdropWhile (· ≠ '\n'), ?_, List.rdropWhile_append_rtakeWhile.symm⟩
  by_cases none_ : chars.rdropWhile (· ≠ '\n') = []
  · exact .inl none_
  · have ends := List.rdropWhile_last_not (· ≠ '\n') chars none_
    have isLine : (chars.rdropWhile (· ≠ '\n')).getLast none_ = '\n' := by simpa using ends
    have split := List.dropLast_append_getLast none_
    rw [isLine] at split
    exact .inr ⟨_, split.symm⟩

theorem lastLine_append {lead line : List Char} (start : LineStart lead)
    (one : ∀ c ∈ line, c ≠ '\n') : lastLine (lead ++ line) = line := by
  have stops : lead.reverse.takeWhile (· ≠ '\n') = [] := by
    rcases start with rfl | ⟨before, rfl⟩ <;> simp
  unfold lastLine List.rtakeWhile
  rw [List.reverse_append, List.takeWhile_append_of_pos (by simpa using one), stops,
    List.append_nil, List.reverse_reverse]

/-! ## Places on a line -/

theorem afterIndent_append {blanks rest : List Char} (blank : AllBlank blanks)
    (one : ∀ c ∈ blanks, c ≠ '\n') (stops : Stops Text.isBlank rest) :
    afterIndent (blanks ++ rest) = rest := by
  have stops : Stops (fun c => Text.isBlank c && c ≠ '\n') rest := by
    intro c first
    simp only [stops c first, Bool.false_and]
  have all : ∀ c ∈ blanks, (Text.isBlank c && c ≠ '\n') = true := by
    intro c member
    simp [blank c member, one c member]
  unfold afterIndent
  rw [dropWhile_append_stops stops, List.dropWhile_eq_nil_iff.mpr all, List.nil_append]

/-- Only white space is in front of a place on its line if the place is behind the indent of it. -/
theorem blank_lastLine_iff {gap place : List Char} (stops : Stops Text.isBlank place) :
    AllBlank (lastLine gap) ↔ ∃ lead rest, gap ++ place = lead ++ rest ∧ LineStart lead ∧
      afterIndent rest = place := by
  constructor
  · intro blank
    obtain ⟨lead, start, split⟩ := exists_lastLine gap
    refine ⟨lead, lastLine gap ++ place, ?_, start, afterIndent_append blank ?_ stops⟩
    · rw [← List.append_assoc, ← split]
    · intro c member
      simpa using List.mem_rtakeWhile_imp member
  · rintro ⟨lead, rest, split, start, rfl⟩
    have whole : rest.takeWhile (fun c => Text.isBlank c && c ≠ '\n') ++ afterIndent rest = rest :=
      List.takeWhile_append_dropWhile
    have indent : ∀ c ∈ rest.takeWhile (fun c => Text.isBlank c && c ≠ '\n'),
        Text.isBlank c = true ∧ c ≠ '\n' := by
      intro c member
      have both := List.mem_takeWhile_imp (p := fun c => Text.isBlank c && c ≠ '\n') member
      simpa using both
    have isGap : gap = lead ++ rest.takeWhile (fun c => Text.isBlank c && c ≠ '\n') := by
      refine List.append_cancel_right (split.trans ?_)
      rw [List.append_assoc, whole]
    rw [isGap, lastLine_append start fun c member => (indent c member).2]
    exact fun c member => (indent c member).1

/-- A search that looks behind the indent of a line finds something at a place in question, if only
white space is in front of that on its line, or finds it elsewhere. -/
theorem anyLine_at_iff {p : List Char → Bool} {holds : List Char → Prop} {place : List Char}
    (gap : List Char) (looks : ∀ chars, p chars = true ↔ holds (afterIndent chars))
    (stops : Stops Text.isBlank place) : anyLine p (gap ++ place) = true ↔
      (AllBlank (lastLine gap) ∧ holds place) ∨ Elsewhere p (gap ++ place) place := by
  rw [anyLine_iff, blank_lastLine_iff stops]
  constructor
  · rintro ⟨lead, rest, split, start, begins⟩
    by_cases here : afterIndent rest = place
    · exact .inl ⟨⟨lead, rest, split, start, here⟩, here ▸ (looks rest).mp begins⟩
    · exact .inr ⟨lead, rest, split, start, begins, here⟩
  · rintro (⟨⟨lead, rest, split, start, rfl⟩, holds⟩ | ⟨lead, rest, split, start, begins, _⟩)
    · exact ⟨lead, rest, split, start, (looks rest).mpr holds⟩
    · exact ⟨lead, rest, split, start, begins⟩

/-! ## What the search looks for -/

/-- The words of an entry point. -/
def entryWords : List String := ["package", "func", "main", "(", ")"]

/-- A character that neither white space nor a comment nor a semicolon begins with. -/
def IsSolid (c : Char) : Prop := Text.isBlank c = false ∧ c ≠ '/' ∧ c ≠ ';'

instance (c : Char) : Decidable (IsSolid c) :=
  inferInstanceAs (Decidable (Text.isBlank c = false ∧ c ≠ '/' ∧ c ≠ ';'))

theorem entryWord_begins {word : String} (listed : word ∈ entryWords) :
    ∃ c more, word.toList = c :: more ∧ IsSolid c := by
  have all : (entryWords.all fun word => word.toList.head?.any (decide <| IsSolid ·)) = true := by
    decide +kernel
  obtain ⟨c, first, solid⟩ := (Option.any_eq_true _ _).mp (List.all_eq_true.mp all word listed)
  obtain ⟨more, split⟩ := List.head?_eq_some_iff.mp first
  exact ⟨c, more, split, of_decide_eq_true solid⟩

theorem stops_entryWord (word : String) (rest : List Char) (listed : word ∈ entryWords) :
    Stops Text.isBlank (word.toList ++ rest) := by
  obtain ⟨c, more, split, solid⟩ := entryWord_begins listed
  rw [split]
  rintro _ ⟨⟩
  exact solid.1

section

variable {chars rest : List Char}

theorem afterWord?_eq_some {word : String} :
    afterWord? word chars = some rest ↔ chars = word.toList ++ rest := by
  unfold afterWord?
  constructor
  · intro found
    split at found
    · rename_i begins
      obtain ⟨behind, rfl⟩ := List.isPrefixOf_iff_prefix.mp begins
      rw [List.drop_left] at found
      rw [Option.some.inj found]
    · cases found
  · rintro rfl
    rw [if_pos (List.isPrefixOf_iff_prefix.mpr (List.prefix_append _ _)), List.drop_left]

theorem afterBlanks_eq_iff (stops : Stops Text.isBlank rest) :
    afterBlanks chars = rest ↔ ∃ blanks, AllBlank blanks ∧ chars = blanks ++ rest := by
  unfold afterBlanks
  constructor
  · rintro rfl
    exact ⟨_, fun _ member => List.mem_takeWhile_imp member,
      List.takeWhile_append_dropWhile.symm⟩
  · rintro ⟨blanks, blank, rfl⟩
    rw [dropWhile_append_stops stops, List.dropWhile_eq_nil_iff.mpr blank, List.nil_append]

theorem afterSomeBlanks?_eq_some (stops : Stops Text.isBlank rest) :
    afterSomeBlanks? chars = some rest ↔
      ∃ blanks, blanks ≠ [] ∧ AllBlank blanks ∧ chars = blanks ++ rest := by
  cases chars with
  | nil => simp [afterSomeBlanks?]
  | cons c chars =>
      have step : afterSomeBlanks? (c :: chars) =
          if Text.isBlank c then some (afterBlanks chars) else none := rfl
      constructor
      · intro found
        rw [step] at found
        split at found
        · rename_i isBlank
          obtain ⟨blanks, blank, rfl⟩ := (afterBlanks_eq_iff stops).mp (Option.some.inj found)
          exact ⟨c :: blanks, nofun, List.forall_mem_cons.mpr ⟨isBlank, blank⟩, rfl⟩
        · cases found
      · rintro ⟨blanks, some_, blank, split⟩
        obtain ⟨d, blanks, rfl⟩ := List.exists_cons_of_ne_nil some_
        obtain ⟨rfl, others⟩ := List.cons.inj split
        obtain ⟨isBlank, blank⟩ := List.forall_mem_cons.mp blank
        rw [step, if_pos isBlank, (afterBlanks_eq_iff stops).mpr ⟨blanks, blank, others⟩]

end

/-- The words of a package clause with white space between them, and the end of the line. -/
def ClauseWords (chars : List Char) : Prop :=
  ∃ blanks rest, chars = "package".toList ++ (blanks ++ ("main".toList ++ rest)) ∧ blanks ≠ [] ∧
    AllBlank blanks ∧ endsLine rest = true

/-- The words of the head of a function with white space between them. -/
def HeadWords (chars : List Char) : Prop :=
  ∃ blanks behindName inside rest, chars = "func".toList ++ (blanks ++ ("main".toList ++
    (behindName ++ ("(".toList ++ (inside ++ (")".toList ++ rest)))))) ∧ blanks ≠ [] ∧
    AllBlank blanks ∧ AllBlank behindName ∧ AllBlank inside

theorem beginsPackageMain_iff (chars : List Char) :
    beginsPackageMain chars = true ↔ ClauseWords (afterIndent chars) := by
  unfold beginsPackageMain
  constructor
  · intro begins
    split at begins
    · rename_i rest found
      obtain ⟨behind, keyword, found⟩ := Option.bind_eq_some_iff.mp found
      obtain ⟨place, gap, found⟩ := Option.bind_eq_some_iff.mp found
      obtain rfl := afterWord?_eq_some.mp found
      obtain ⟨blanks, some_, blank, rfl⟩ :=
        (afterSomeBlanks?_eq_some (stops_entryWord "main" rest (by decide))).mp gap
      exact ⟨blanks, rest, afterWord?_eq_some.mp keyword, some_, blank, begins⟩
    · cases begins
  · rintro ⟨blanks, rest, words, some_, blank, ends⟩
    have gap := (afterSomeBlanks?_eq_some (stops_entryWord "main" rest (by decide))).mpr
      ⟨blanks, some_, blank, rfl⟩
    simp only [afterWord?_eq_some.mpr words, gap, afterWord?_eq_some.mpr rfl, Option.bind_eq_bind,
      Option.bind_some]
    exact ends

theorem beginsMainFunction_iff (chars : List Char) :
    beginsMainFunction chars = true ↔ HeadWords (afterIndent chars) := by
  unfold beginsMainFunction
  constructor
  · intro begins
    obtain ⟨rest, found⟩ := Option.isSome_iff_exists.mp begins
    obtain ⟨behind, keyword, found⟩ := Option.bind_eq_some_iff.mp found
    obtain ⟨place, gap, found⟩ := Option.bind_eq_some_iff.mp found
    obtain ⟨behindName, name_, found⟩ := Option.bind_eq_some_iff.mp found
    obtain ⟨inside, opening, closing⟩ := Option.bind_eq_some_iff.mp found
    obtain rfl := afterWord?_eq_some.mp name_
    obtain ⟨blanks, some_, blank, rfl⟩ :=
      (afterSomeBlanks?_eq_some (stops_entryWord "main" _ (by decide))).mp gap
    obtain ⟨gapName, blankName, rfl⟩ := (afterBlanks_eq_iff (stops_entryWord "(" _ (by decide))).mp
      (afterWord?_eq_some.mp opening)
    obtain ⟨gapInside, blankInside, rfl⟩ :=
      (afterBlanks_eq_iff (stops_entryWord ")" _ (by decide))).mp (afterWord?_eq_some.mp closing)
    exact ⟨blanks, gapName, gapInside, rest, afterWord?_eq_some.mp keyword, some_, blank, blankName,
      blankInside⟩
  · rintro ⟨blanks, behindName, inside, rest, words, some_, blank, blankName, blankInside⟩
    have gap := (afterSomeBlanks?_eq_some (stops_entryWord "main" (behindName ++ ("(".toList ++
      (inside ++ (")".toList ++ rest)))) (by decide))).mpr ⟨blanks, some_, blank, rfl⟩
    have opening := (afterBlanks_eq_iff (stops_entryWord "(" (inside ++ (")".toList ++ rest))
      (by decide))).mpr ⟨behindName, blankName, rfl⟩
    have closing := (afterBlanks_eq_iff (stops_entryWord ")" rest (by decide))).mpr
      ⟨inside, blankInside, rfl⟩
    simp only [afterWord?_eq_some.mpr words, gap, opening, closing, afterWord?_eq_some.mpr rfl,
      Option.bind_eq_bind, Option.bind_some, Option.isSome_some]

/-! ## White space in front of a word -/

theorem step_noToken {bound : Nat} {cur after : Cursor} {first : Char} {rest : List Char}
    {lexeme : Lexeme} (chars : cur.rest = first :: rest)
    (step : cur.step bound first = .ok (lexeme, after)) (noToken : ∀ t, lexeme ≠ .token t) :
    first = '/' ∨ Text.isBlank first = true ∧ after.rest = rest := by
  have blanks := List.all_eq_true.mp
    (show ['\n', ' ', '\t', '\r'].all Text.isBlank = true by decide +kernel)
  generalize at_ : after.rest = behind
  have reads := Cursor.step_reads chars step
  rw [at_] at reads
  cases reads with
  | newline line => exact .inr ⟨blanks first (by simp [line]), rfl⟩
  | space space => exact .inr ⟨blanks first (by rcases space with h | h | h <;> simp [h]), rfl⟩
  | lineComment opening => exact .inl opening.1
  | blockComment opening => exact .inl opening.1
  | string quote read =>
      subst quote
      obtain ⟨value, _, same, _⟩ := interpretedPiece_agrees chars read
      exact absurd same (noToken _)
  | rawString quote read =>
      subst quote
      obtain ⟨value, _, same, _⟩ := rawPiece_agrees chars read
      exact absurd same (noToken _)
  | int => exact absurd rfl (noToken _)
  | float => exact absurd rfl (noToken _)
  | rune => exact absurd rfl (noToken _)
  | name => exact absurd rfl (noToken _)
  | mark => exact absurd rfl (noToken _)

/-- The lexer passes no character behind white space without reading another token than
semicolons. -/
theorem readsTo_solid {mayEnd mayEnd' : Bool} {chars left : List Char} {ts : List Token}
    (reads : ReadsTo mayEnd chars ts mayEnd' left) (semis : ∀ t ∈ ts, t = .mark .semi)
    {c : Char} (solid : IsSolid c) (rest : List Char) : ∀ {blanks : List Char}, AllBlank blanks →
      chars = blanks ++ c :: rest → ∃ blanks', AllBlank blanks' ∧ left = blanks' ++ c :: rest := by
  have noBlanks : Text.isBlank '/' = false ∧ Text.isBlank ';' = false := by decide +kernel
  -- A step that reads no token takes one of the blanks.
  have passes {bound : Nat} {cur after : Cursor} {first : Char} {behind : List Char}
      {lexeme : Lexeme} (chars : cur.rest = first :: behind)
      (step : cur.step bound first = .ok (lexeme, after)) (noToken : ∀ t, lexeme ≠ .token t)
      {blanks : List Char} (blank : AllBlank blanks)
      (split : first :: behind = blanks ++ c :: rest) :
      ∃ fewer, AllBlank fewer ∧ after.rest = fewer ++ c :: rest := by
    have took := step_noToken chars step noToken
    cases blanks with
    | nil =>
        cases split
        rcases took with slash | ⟨isBlank, _⟩
        · exact absurd slash solid.2.1
        · exact absurd isBlank (by simp [solid.1])
    | cons d fewer =>
        obtain ⟨rfl, rfl⟩ := List.cons.inj split
        obtain ⟨isBlank, blank⟩ := List.forall_mem_cons.mp blank
        rcases took with rfl | ⟨_, behind⟩
        · cases noBlanks.1.symm.trans isBlank
        · exact ⟨fewer, blank, behind⟩
  induction reads with
  | here => exact fun {blanks} blank split => ⟨blanks, blank, split⟩
  | endOfLastLine =>
      intro blanks _ split
      cases blanks <;> cases split
  | token chars step _ _ =>
      intro blanks blank split
      obtain rfl := semis _ List.mem_cons_self
      obtain rfl := (List.cons.inj (step_text chars step rfl).1).1
      cases blanks with
      | nil => exact absurd (List.cons.inj split).1.symm solid.2.2
      | cons d fewer =>
          obtain ⟨rfl, _⟩ := List.cons.inj split
          cases noBlanks.2.symm.trans (blank _ List.mem_cons_self)
  | newline chars step _ ih =>
      intro blanks blank split
      obtain ⟨fewer, blank, split⟩ := passes chars step nofun blank split
      exact ih semis blank split
  | endOfLine chars step _ ih =>
      intro blanks blank split
      obtain ⟨fewer, blank, split⟩ := passes chars step nofun blank split
      exact ih (fun t member => semis t (List.mem_cons_of_mem _ member)) blank split
  | blank chars step _ ih =>
      intro blanks blank split
      obtain ⟨fewer, blank, split⟩ := passes chars step nofun blank split
      exact ih semis blank split

/-- White space in front of the text of a word is all that is in front of the word. -/
theorem word_eq_of_blanks {mayEnd : Bool} {chars blanks rest : List Char} {before : List Token}
    {t : Token} (text : String) (word : Word mayEnd chars before t)
    (semis : ∀ u ∈ before, u = .mark .semi) (written : t.spelling? = some text.toList)
    (listed : text ∈ entryWords)
    (blank : AllBlank blanks) (split : chars = blanks ++ (text.toList ++ rest)) :
    word.gap = blanks ∧ word.behind = rest := by
  obtain ⟨c, more, isText, solid⟩ := entryWord_begins listed
  have whole := word.split_text text.toList written
  obtain ⟨_, reads, _⟩ := word.reads
  rw [Option.some.inj (word.written.symm.trans written)] at reads
  rw [isText, List.cons_append] at split whole reads
  obtain ⟨others, blankOthers, same⟩ := readsTo_solid reads semis solid (more ++ rest) blank split
  -- The word begins with no white space, so none is left.
  cases others with
  | nil =>
      have behind : word.behind = rest := List.append_cancel_left (List.cons.inj same).2
      refine ⟨?_, behind⟩
      rw [behind] at whole
      exact List.append_cancel_right (whole.symm.trans split)
  | cons d others =>
      obtain ⟨rfl, _⟩ := List.cons.inj same
      cases solid.1.symm.trans (blankOthers _ List.mem_cons_self)

/-! ## Clauses and heads on their lines -/

theorem apart_of_stops {gap rest : List Char}
    (stops : Stops Cursor.isNameChar (gap ++ ("main".toList ++ rest))) : gap ≠ [] := by
  rintro rfl
  have no := stops 'm' rfl
  cases no

section

variable {source : List Char}

theorem Clause.words_iff (clause : Clause source) :
    ClauseWords ("package".toList ++ clause.keyword.behind) ↔
      AllBlank clause.name.gap ∧ endsLine clause.name.behind = true := by
  constructor
  · rintro ⟨blanks, rest, split, _, blank, ends⟩
    obtain ⟨gap, behind⟩ := word_eq_of_blanks "main" clause.name nofun rfl (by decide)
      blank (List.append_cancel_left split)
    exact ⟨gap ▸ blank, behind ▸ ends⟩
  · rintro ⟨blank, ends⟩
    have split := clause.name.split_text "main".toList rfl
    have stops := clause.keyword.ends _ rfl
    rw [split] at stops
    exact ⟨_, _, congrArg ("package".toList ++ ·) split, apart_of_stops stops, blank, ends⟩

theorem Head.words_iff (head : Head source) :
    HeadWords ("func".toList ++ head.keyword.behind) ↔
      AllBlank head.name.gap ∧ AllBlank head.opening.gap ∧ AllBlank head.closing.gap := by
  constructor
  · rintro ⟨blanks, behindName, inside, rest, split, _, blank, blankName, blankInside⟩
    obtain ⟨gap, behind⟩ := word_eq_of_blanks "main" head.name nofun rfl (by decide)
      blank (List.append_cancel_left split)
    obtain ⟨gapName, behind⟩ :=
      word_eq_of_blanks "(" head.opening nofun rfl (by decide) blankName behind
    obtain ⟨gapInside, _⟩ := word_eq_of_blanks ")" head.closing
      (fun _ => List.eq_of_mem_replicate) rfl (by decide) blankInside behind
    exact ⟨gap ▸ blank, gapName ▸ blankName, gapInside ▸ blankInside⟩
  · rintro ⟨blank, blankName, blankInside⟩
    have split := head.name.split_text "main".toList rfl
    have behindName := head.opening.split_text "(".toList rfl
    have inside := head.closing.split_text ")".toList rfl
    have stops := head.keyword.ends _ rfl
    rw [split] at stops
    rw [behindName, inside] at split
    exact ⟨_, _, _, _, congrArg ("func".toList ++ ·) split, apart_of_stops stops, blank, blankName,
      blankInside⟩

/-- The search finds the clause on its line, or something like it elsewhere. -/
theorem Clause.found_iff (clause : Clause source) : hasPackageMain source = true ↔
    clause.OnLine ∨
      Elsewhere beginsPackageMain source ("package".toList ++ clause.keyword.behind) := by
  have split := clause.keyword.split_text "package".toList rfl
  have found := anyLine_at_iff clause.keyword.gap beginsPackageMain_iff
    (stops_entryWord "package" clause.keyword.behind (by decide))
  rw [← split, clause.words_iff] at found
  refine found.trans (or_congr_left ⟨?_, ?_⟩)
  · rintro ⟨lead, behindKeyword, behindName⟩
    exact ⟨lead, behindKeyword, behindName⟩
  · rintro ⟨lead, behindKeyword, behindName⟩
    exact ⟨lead, behindKeyword, behindName⟩

/-- The search finds the head on its line, or something like it elsewhere. -/
theorem Head.found_iff (head : Head source) : anyLine beginsMainFunction source = true ↔
    head.OnLine ∨
      Elsewhere beginsMainFunction source ("func".toList ++ head.keyword.behind) := by
  have split := head.keyword.split_text "func".toList rfl
  have found := anyLine_at_iff head.keyword.gap beginsMainFunction_iff
    (stops_entryWord "func" head.keyword.behind (by decide))
  rw [← split, head.words_iff] at found
  refine found.trans (or_congr_left ⟨?_, ?_⟩)
  · rintro ⟨lead, behindKeyword, behindName, inside⟩
    exact ⟨lead, behindKeyword, behindName, inside⟩
  · rintro ⟨lead, behindKeyword, behindName, inside⟩
    exact ⟨lead, behindKeyword, behindName, inside⟩

end

/-! ## Programs with an entry point -/

/-- A program with an entry point: a function `main` of the package `main`, without receiver and
parameters. -/
structure Runnable (p : Program) (d : FuncDecl) : Prop where
  package : p.package = "main"
  declared : .func d ∈ p.decls
  name : d.name = "main"
  receiver : d.receiver = none
  params : d.function.params = []

section

variable {source : List Char} {before more : List Token} {count : Nat}

theorem exists_clause (reads : Reads false source (.replicate count (.mark .semi) ++
    .keyword .package :: .name "main" :: more)) : Nonempty (Clause source) := by
  obtain ⟨keyword, reads⟩ := exists_word _ ("package".toList) reads rfl nofun
  obtain ⟨name, _⟩ := exists_word [] ("main".toList) reads rfl nofun
  exact ⟨count, keyword, name⟩

theorem exists_head (reads : Reads false source (before ++ .keyword .func :: .name "main" ::
    .mark .lParen :: (.replicate count (.mark .semi) ++ .mark .rParen :: more))) :
    Nonempty (Head source) := by
  obtain ⟨keyword, reads⟩ := exists_word _ ("func".toList) reads rfl nofun
  obtain ⟨name, reads⟩ := exists_word [] ("main".toList) reads rfl nofun
  obtain ⟨opening, reads⟩ := exists_word [] ("(".toList) reads rfl nofun
  obtain ⟨closing, _⟩ := exists_word _ (")".toList) reads rfl nofun
  exact ⟨before, keyword, name, opening, count, closing⟩

end

theorem checkStructure_ok_iff (source : String) : checkStructure source = .ok () ↔
    hasPackageMain source.toList = true ∧ anyLine beginsMainFunction source.toList = true := by
  unfold checkStructure
  cases hasPackageMain source.toList <;>
    cases anyLine beginsMainFunction source.toList <;> simp

/-- The words of an entry point are in the text of every program that has one. -/
theorem exists_layout {source : String} {p : Program} {d : FuncDecl}
    (parsed : parseProgram source = .ok p) (runnable : Runnable p d) :
    Nonempty (Clause source.toList) ∧ Nonempty (Head source.toList) := by
  obtain ⟨located, s', lexed, ran⟩ := parseProgram_ok_iff.mp parsed
  have reads := tokenize_reads lexed
  have productive := Parser.productive_ofDepth located.length
  have ready : Parser.Ready ⟨located, located.length, 0, 0⟩ :=
    ⟨tokenize_ended lexed, Nat.le_refl _⟩
  constructor
  · obtain ⟨⟨count, left, clause⟩, _⟩ :=
      Parser.program_passed productive ready (Nat.le_refl _) ran
    rw [clause.tokens, runnable.package] at reads
    exact exists_clause (by simpa using reads)
  · obtain ⟨before, count, left, function⟩ := Parser.program_function productive ready
      (Nat.le_refl _) ran runnable.declared runnable.receiver runnable.params
    rw [function.tokens, runnable.name] at reads
    exact exists_head (by simpa using reads)

/-- A program with an entry point has a package clause and the head of a function `main` in its
text.  It is accepted exactly if each of the two is on its line as the check knows them, or some
other line begins like it; so it may be refused, but for nothing except its layout. -/
theorem accepted_iff_layout {source : String} {p : Program} {d : FuncDecl}
    (parsed : parseProgram source = .ok p) (runnable : Runnable p d) :
    Nonempty (Clause source.toList) ∧ Nonempty (Head source.toList) ∧
      ∀ (clause : Clause source.toList) (head : Head source.toList),
        checkStructure source = .ok () ↔
          (clause.OnLine ∨ Elsewhere beginsPackageMain source.toList
            ("package".toList ++ clause.keyword.behind)) ∧
          (head.OnLine ∨ Elsewhere beginsMainFunction source.toList
            ("func".toList ++ head.keyword.behind)) := by
  obtain ⟨hasClause, hasHead⟩ := exists_layout parsed runnable
  refine ⟨hasClause, hasHead, fun clause head => ?_⟩
  rw [checkStructure_ok_iff, clause.found_iff, head.found_iff]

/-- A program on one line. -/
def oneLine : String := "package main; func main() \x7b\x7d"

/-- Its function. -/
def emptyMain : FuncDecl := ⟨1, "main", none, .mk [] [] false []⟩

theorem parse_oneLine : parseProgram oneLine = .ok ⟨"main", [], [.func emptyMain]⟩ := rfl

theorem runnable_oneLine : Runnable ⟨"main", [], [.func emptyMain]⟩ emptyMain :=
  ⟨rfl, List.mem_singleton_self _, rfl, rfl, rfl⟩

theorem accepted_iff_layout_oneLine :
    parseProgram oneLine = .ok ⟨"main", [], [.func emptyMain]⟩ ∧
      Runnable ⟨"main", [], [.func emptyMain]⟩ emptyMain ∧
      Nonempty (Clause oneLine.toList) ∧ Nonempty (Head oneLine.toList) ∧
      ∀ (clause : Clause oneLine.toList) (head : Head oneLine.toList),
        ¬(clause.OnLine ∧ head.OnLine) := by
  obtain ⟨hasClause, hasHead, layout⟩ := accepted_iff_layout parse_oneLine runnable_oneLine
  have refused : checkStructure oneLine ≠ .ok () := by decide +kernel
  refine ⟨parse_oneLine, runnable_oneLine, hasClause, hasHead, fun clause head both => ?_⟩
  exact refused ((layout clause head).mpr ⟨.inl both.1, .inl both.2⟩)

/-- The clause of a program and its function are there, and the program is refused. -/
theorem oneLine_refused : parseProgram oneLine = .ok ⟨"main", [], [.func emptyMain]⟩ ∧
    Runnable ⟨"main", [], [.func emptyMain]⟩ emptyMain ∧
    checkStructure oneLine = .error .missingPackageMain :=
  ⟨parse_oneLine, runnable_oneLine, by decide +kernel⟩

end SandboxedGo.Submission
