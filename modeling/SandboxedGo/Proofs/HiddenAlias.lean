import Mathlib.Data.List.Forall2
import SandboxedGo.Proofs.ImportClauses

/-!
# What gets past the import gate

A policy that accepts a source text has judged the paths that the scanner finds.  The program that
the parser reads from the same text imports no forbidden path but under an alias that hides it.

For every alias that the guest language accepts and that hides a path from the scanner there is a
program that imports the path under this alias, whatever the path is.  The lexer is followed along
the words of its text.
-/

set_option autoImplicit false

namespace SandboxedGo.Submission

open Source

/-- Whether a text is read as one name. -/
def isGuestName (word : String) : Bool :=
  (Keyword.ofWord? word).isNone &&
    match word.toList with
    | c :: rest => Cursor.isNameStart c && rest.all Cursor.isNameChar
    | [] => false

/-- The program that imports a path under an alias and does nothing. -/
def aliasedImport (given path : String) : String :=
  "package main\nimport " ++ given ++ " \x60" ++ path ++ "\x60\n"

/-! ## Words of a text -/

/-- Wherever a text begins with the character `first`, the lexer reads `lexeme` and leaves
`behind`. -/
def LexesAs (first : Char) (rest : List Char) (lexeme : Lexeme) (behind : List Char) : Prop :=
  ∀ (cur : Cursor) (bound : Nat), cur.rest = first :: rest →
    ∃ after, cur.step bound first = .ok (lexeme, after) ∧ after.rest = behind

theorem lexesAs_space (rest : List Char) : LexesAs ' ' rest .blank rest := by
  intro cur bound chars
  refine ⟨cur.skip 1, rfl, ?_⟩
  rw [Cursor.skip_rest, chars]
  rfl

theorem lexesAs_newline (rest : List Char) : LexesAs '\n' rest .newline rest := by
  intro cur bound chars
  refine ⟨cur.skip 1, rfl, ?_⟩
  rw [Cursor.skip_rest, chars]
  rfl

theorem step_nameStart {first : Char} (start : Cursor.isNameStart first = true) (cur : Cursor)
    (bound : Nat) : cur.step bound first = .ok cur.readName := by
  have plain : ∀ d : Char, Cursor.isNameStart d = false → first ≠ d := by
    rintro d no rfl
    rw [no] at start
    cases start
  have noDigit : first.isDigit = false := by
    simp only [Cursor.isNameStart, Bool.and_eq_true, Bool.not_eq_true'] at start
    exact start.2
  have noBlank : (first = ' ' || first = '\t' || first = '\r') = false := by
    simp [plain ' ' rfl, plain '\t' rfl, plain '\r' rfl]
  unfold Cursor.step
  rw [if_neg (plain '\n' rfl), if_neg (by simp [noBlank]), if_neg (by simp [noDigit]),
    if_neg (plain '"' rfl), if_neg (plain '\x60' rfl), if_neg (plain '\'' rfl), if_pos start]

theorem lexesAs_word {word : String} {first : Char} {others behind : List Char}
    (chars : word.toList = first :: others) (start : Cursor.isNameStart first = true)
    (all : ∀ c ∈ others, Cursor.isNameChar c = true) (stops : Stops Cursor.isNameChar behind) :
    LexesAs first (others ++ behind) (.token (wordToken word)) behind := by
  intro cur bound text
  have part : Cursor.isNameChar first = true := by
    simp only [Cursor.isNameStart, Bool.and_eq_true] at start
    exact start.1
  have taken : cur.rest.takeWhile Cursor.isNameChar = word.toList := by
    rw [text, ← List.cons_append, takeWhile_append_stops stops, chars, List.takeWhile_eq_self_iff]
    simpa [part] using all
  have dropped : cur.rest.dropWhile Cursor.isNameChar = behind := by
    have none : (first :: others).dropWhile Cursor.isNameChar = [] :=
      List.dropWhile_eq_nil_iff.mpr (by simpa [part] using all)
    rw [text, ← List.cons_append, dropWhile_append_stops stops, none, List.nil_append]
  refine ⟨cur.readName.2, ?_, ?_⟩
  · rw [step_nameStart start]
    simp only [Cursor.readName, Cursor.readWhile, taken, String.ofList_toList]
    rfl
  · exact (Cursor.readWhile_rest cur Cursor.isNameChar).trans dropped

theorem lexesAs_rawString {path : String} (plain : ∀ c ∈ path.toList, c ≠ '\x60' ∧ c ≠ '\r')
    (behind : List Char) :
    LexesAs '\x60' (path.toList ++ '\x60' :: behind) (.token (.string path)) behind := by
  intro cur bound text
  have inside : (cur.skip 1).rest = path.toList ++ '\x60' :: behind := by
    rw [Cursor.skip_rest, text]
    rfl
  have noQuote : ∀ c ∈ path.toList, (decide (c ≠ '\x60')) = true := fun c member => by
    simp [(plain c member).1]
  have taken : (cur.skip 1).rest.takeWhile (· ≠ '\x60') = path.toList := by
    rw [inside, List.takeWhile_append_of_pos noQuote]
    simp
  have noReturn : path.toList.filter (· ≠ '\r') = path.toList :=
    List.filter_eq_self.mpr fun c member => by simp [(plain c member).2]
  have left : ((cur.skip 1).skip path.toList.length).rest = '\x60' :: behind := by
    rw [Cursor.skip_rest, inside, List.drop_left]
  refine ⟨((cur.skip 1).skip path.toList.length).skip 1, ?_, ?_⟩
  · have step : cur.step bound '\x60' = cur.readRawString := rfl
    rw [step]
    simp only [Cursor.readRawString, Cursor.readWhile, taken, left, noReturn, List.isEmpty_cons,
      String.ofList_toList, Bool.false_eq_true, if_false]
  · rw [Cursor.skip_rest, left]
    rfl

/-! ## Along the words -/

/-- The lexer reads `rest` as `ts`.  `mayEnd` tells whether a line end is a semicolon here. -/
def ReadAs (mayEnd : Bool) (rest : List Char) (ts : List Token) : Prop :=
  ∀ (n : Nat) (cur : Cursor) (read : List Located), cur.rest = rest → rest.length ≤ n →
    mayEndBehind read = mayEnd → ∃ result, Cursor.readTokens n cur read = .ok result ∧
      result.reverse.map Located.token = read.reverse.map Located.token ++ ts

theorem readAs_nil : ReadAs false [] [.endOfText] := by
  intro n cur read text _ mayEnd
  refine ⟨⟨.endOfText, cur.position⟩ :: Cursor.endLine cur.position read, ?_, ?_⟩
  · cases n with
    | zero => rfl
    | succ n => simp only [Cursor.readTokens, text]
  · rw [endLine_of_false mayEnd]
    simp

section

variable {first : Char} {rest behind : List Char} {ts : List Token}

/-- Where a text begins with `first`, the lexer reads `lexeme` and leaves `behind`, if the bound on
its steps is as large as the text. -/
def LexesWithin (first : Char) (rest : List Char) (lexeme : Lexeme) (behind : List Char) : Prop :=
  ∀ (cur : Cursor) (bound : Nat), cur.rest = first :: rest → rest.length ≤ bound →
    ∃ after, cur.step bound first = .ok (lexeme, after) ∧ after.rest = behind

theorem LexesAs.within {lexeme : Lexeme} (lexes : LexesAs first rest lexeme behind) :
    LexesWithin first rest lexeme behind :=
  fun cur bound text _ => lexes cur bound text

theorem ReadAs.step {mayEnd : Bool} {lexeme : Lexeme} (lexes : LexesWithin first rest lexeme behind)
    {ts' : List Token}
    (next : ∀ (n : Nat) (cur after : Cursor) (read : List Located),
      cur.step n first = .ok (lexeme, after) → cur.rest = first :: rest → after.rest = behind →
      behind.length ≤ n → mayEndBehind read = mayEnd →
      ∃ result, Cursor.readTokens (n + 1) cur read = .ok result ∧
        result.reverse.map Located.token = read.reverse.map Located.token ++ ts') :
    ReadAs mayEnd (first :: rest) ts' := by
  intro n cur read text enough isMayEnd
  rw [List.length_cons] at enough
  obtain ⟨n, rfl⟩ : ∃ fewer, n = fewer + 1 := ⟨n - 1, by omega⟩
  obtain ⟨after, step, left⟩ := lexes cur n text (by omega)
  have advances := Cursor.step_shorter text step
  rw [text, left, List.length_cons] at advances
  exact next n cur after read step text left (by omega) isMayEnd

theorem ReadAs.token {mayEnd : Bool} {t : Token}
    (lexes : LexesWithin first rest (.token t) behind) (more : ReadAs t.endsStatement behind ts) :
    ReadAs mayEnd (first :: rest) (t :: ts) := by
  refine ReadAs.step lexes fun n cur after read step text left enough _ => ?_
  obtain ⟨result, ran, same⟩ := more n after (⟨t, cur.position⟩ :: read) left enough rfl
  refine ⟨result, ?_, by simp [same]⟩
  simp only [Cursor.readTokens, text, step, ran]

theorem ReadAs.blank {mayEnd : Bool} (lexes : LexesWithin first rest .blank behind)
    (more : ReadAs mayEnd behind ts) : ReadAs mayEnd (first :: rest) ts := by
  refine ReadAs.step lexes fun n cur after read step text left enough isMayEnd => ?_
  obtain ⟨result, ran, same⟩ := more n after read left enough isMayEnd
  refine ⟨result, ?_, same⟩
  simp only [Cursor.readTokens, text, step, ran]

theorem ReadAs.newline {mayEnd : Bool} (lexes : LexesWithin first rest .newline behind)
    (more : ReadAs false behind ts) :
    ReadAs mayEnd (first :: rest) (if mayEnd then .mark .semi :: ts else ts) := by
  refine ReadAs.step lexes fun n cur after read step text left enough isMayEnd => ?_
  obtain ⟨result, ran, same⟩ := more n after (Cursor.endLine cur.position read) left enough
    (mayEndBehind_endLine _ _)
  refine ⟨result, ?_, ?_⟩
  · simp only [Cursor.readTokens, text, step, ran]
  · rw [same]
    cases mayEnd with
    | false => rw [endLine_of_false isMayEnd, if_neg (by simp)]
    | true => rw [endLine_of_true isMayEnd, if_pos rfl]; simp

theorem readAs_token {mayEnd : Bool} {t : Token}
    (lexes : LexesAs first rest (.token t) behind) (more : ReadAs t.endsStatement behind ts) :
    ReadAs mayEnd (first :: rest) (t :: ts) :=
  .token lexes.within more

theorem readAs_blank {mayEnd : Bool} (lexes : LexesAs first rest .blank behind)
    (more : ReadAs mayEnd behind ts) : ReadAs mayEnd (first :: rest) ts :=
  .blank lexes.within more

theorem readAs_endOfLine (lexes : LexesAs first rest .newline behind)
    (more : ReadAs false behind ts) : ReadAs true (first :: rest) (.mark .semi :: ts) :=
  .newline lexes.within more

end

theorem tokenize_of_readAs {source : String} {ts : List Token}
    (reads : ReadAs false source.toList ts) :
    ∃ located, tokenize source = .ok located ∧ located.map Located.token = ts := by
  obtain ⟨result, ran, same⟩ := reads _ (Cursor.ofText source) [] rfl (Nat.le_refl _) rfl
  refine ⟨result.reverse, ?_, by simpa using same⟩
  have length : (Cursor.ofText source).rest.length = source.toList.length := rfl
  simp only [tokenize, length, ran]
  rfl

/-! ## The program -/

theorem stops_space (rest : List Char) : Stops Cursor.isNameChar (' ' :: rest) := by
  rintro c ⟨⟩
  rfl

theorem stops_newline (rest : List Char) : Stops Cursor.isNameChar ('\n' :: rest) := by
  rintro c ⟨⟩
  rfl

theorem readAs_packageMain {rest : List Char} {ts : List Token} (more : ReadAs false rest ts) :
    ReadAs false ("package main\n".toList ++ rest)
      (.keyword .package :: .name "main" :: .mark .semi :: ts) := by
  have chars : "package main\n".toList =
      'p' :: ("ackage".toList ++ ' ' :: 'm' :: ("ain".toList ++ ['\n'])) := by decide
  have «package» (rest : List Char) :
      LexesAs 'p' ("ackage".toList ++ ' ' :: rest) (.token (.keyword .package)) (' ' :: rest) := by
    rw [← wordToken_of_some (show Keyword.ofWord? "package" = _ by decide)]
    exact lexesAs_word (by decide) rfl (List.all_eq_true.mp (by decide))
      (stops_space rest)
  have main (rest : List Char) :
      LexesAs 'm' ("ain".toList ++ '\n' :: rest) (.token (.name "main")) ('\n' :: rest) := by
    rw [← wordToken_of_none (show Keyword.ofWord? "main" = _ by decide)]
    exact lexesAs_word (by decide) rfl (List.all_eq_true.mp (by decide))
      (stops_newline rest)
  rw [chars]
  simp only [List.append_assoc, List.cons_append, List.nil_append]
  refine readAs_token («package» _) (readAs_blank (lexesAs_space _) ?_)
  exact readAs_token (main _) (readAs_endOfLine (lexesAs_newline _) more)

theorem toList_aliasedImport (given path : String) :
    (aliasedImport given path).toList =
      "package main\n".toList ++ 'i' :: ("mport".toList ++
        ' ' :: (given.toList ++ ' ' :: '\x60' :: (path.toList ++ '\x60' :: ['\n']))) := by
  have head : "package main\nimport ".toList =
      "package main\n".toList ++ 'i' :: ("mport".toList ++ [' ']) := by decide
  have opening : " \x60".toList = [' ', '\x60'] := by decide
  have closing : "\x60\n".toList = ['\x60', '\n'] := by decide
  unfold aliasedImport
  rw [String.toList_append, String.toList_append, String.toList_append, String.toList_append, head,
    opening, closing]
  simp only [List.append_assoc, List.cons_append, List.nil_append]

theorem lexes_aliasedImport {given path : String} (guest : isGuestName given = true)
    (plain : ∀ c ∈ path.toList, c ≠ '\x60' ∧ c ≠ '\r') :
    ∃ located, tokenize (aliasedImport given path) = .ok located ∧
      located.map Located.token = [.keyword .package, .name "main", .mark .semi, .keyword .import,
        .name given, .string path, .mark .semi, .endOfText] := by
  have «import» (rest : List Char) :
      LexesAs 'i' ("mport".toList ++ ' ' :: rest) (.token (.keyword .import)) (' ' :: rest) := by
    rw [← wordToken_of_some (show Keyword.ofWord? "import" = _ by decide)]
    exact lexesAs_word (by decide) rfl (List.all_eq_true.mp (by decide))
      (stops_space rest)
  apply tokenize_of_readAs
  rw [toList_aliasedImport]
  refine readAs_packageMain ?_
  refine readAs_token («import» _) (readAs_blank (lexesAs_space _) ?_)
  simp only [isGuestName, Bool.and_eq_true, Option.isNone_iff_eq_none] at guest
  obtain ⟨noWord, isName⟩ := guest
  cases chars : given.toList with
  | nil => simp [chars] at isName
  | cons first others =>
      rw [chars] at isName
      simp only [Bool.and_eq_true, List.all_eq_true] at isName
      have name := lexesAs_word chars isName.1 isName.2
        (stops_space ('\x60' :: (path.toList ++ '\x60' :: ['\n'])))
      rw [wordToken_of_none noWord] at name
      refine readAs_token name (readAs_blank (lexesAs_space _) ?_)
      refine readAs_token (lexesAs_rawString plain _) ?_
      exact readAs_endOfLine (lexesAs_newline _) readAs_nil

/-! ## Accepted programs -/

theorem importPaths_allowed {policy : Policy} {source : String}
    (accepted : policy.validate source = .ok ()) :
    ∀ path ∈ importPaths source, policy.forbidsImport path = false := by
  intro path member
  unfold Policy.validate at accepted
  cases found : policy.violation? source with
  | some v =>
      rw [found] at accepted
      cases accepted
  | none =>
      unfold Policy.violation? at found
      dsimp only at found
      split at found
      · cases found
      split at found
      · cases found
      · simp only [Option.orElse_eq_orElse, Option.orElse_eq_or, Option.or_eq_none_iff,
          Option.map_eq_none_iff, List.find?_eq_none] at found
        simpa using found.1 path member

/-- A forbidden import of an accepted program is hidden from the scanner. -/
theorem forbidden_import_hidden {policy : Policy} {source : String} {p : Program}
    (accepted : policy.validate source = .ok ()) (parsed : parseProgram source = .ok p)
    {i : Import} (imported : i ∈ p.imports) (forbidden : policy.forbidsImport i.path = true) :
    ∃ located, tokenize source = .ok located ∧ HiddenImport (located.map Located.token) i := by
  obtain ⟨located, s', lexed, ran⟩ := parseProgram_ok_iff.mp parsed
  refine ⟨located, lexed, ?_⟩
  rcases program_found lexed parsed i imported with found | hidden
  · rw [importPaths_allowed accepted i.path found] at forbidden
    cases forbidden
  · exact hidden

/-! ## Hidden imports -/

theorem tokens_of_end {mayEnd : Bool} {chars : List Char}
    (reads : Reads mayEnd chars [.endOfText]) : tokens chars = [] := by
  generalize ending : [Token.endOfText] = ts at reads
  induction reads with
  | endOfText => rfl
  | endOfLastLine => cases ending
  | token _ _ more =>
      cases ending
      exact absurd rfl (reads_ne_nil more)
  | newline chars step _ ih =>
      rw [tokens_noToken chars step (.inl rfl)]
      exact ih ending
  | endOfLine => cases ending
  | blank chars step _ ih =>
      rw [tokens_noToken chars step (.inr rfl)]
      exact ih ending

theorem importPathsIn_semi {ps : List Piece} (shows_ : Shows (.mark .semi) ps)
    (rest : List Piece) : importPathsIn (ps ++ rest) = importPathsIn rest := by
  rcases shows_semi shows_ with rfl | rfl
  · exact importPathsIn_skip rfl rest
  · rfl

theorem parses_tokens {source : String} {located : List Located} {given path : String}
    (lexed : tokenize source = .ok located)
    (same : located.map Located.token = [.keyword .package, .name "main", .mark .semi,
      .keyword .import, .name given, .string path, .mark .semi, .endOfText]) :
    parseProgram source = .ok ⟨"main", [⟨some given, path⟩], []⟩ := by
  simp only [List.map_eq_cons_iff, List.map_eq_nil_iff] at same
  obtain ⟨⟨_, _⟩, _, rfl, rfl, ⟨_, _⟩, _, rfl, rfl, ⟨_, _⟩, _, rfl, rfl, ⟨_, _⟩, _, rfl, rfl,
    ⟨_, _⟩, _, rfl, rfl, ⟨_, _⟩, _, rfl, rfl, ⟨_, _⟩, _, rfl, rfl, ⟨_, _⟩, _, rfl, rfl, rfl⟩ := same
  exact parseProgram_ok_iff.mpr ⟨_, _, lexed, rfl⟩

theorem reads_showsAll : ∀ (ts : List Token) {mayEnd : Bool} {chars : List Char},
    Reads mayEnd chars (ts ++ [.endOfText]) →
      (∀ t ∈ ts, isShared t = true ∧ mayBeginWithPoint t = false) →
      ∃ pss, List.Forall₂ Shows ts pss ∧ tokens chars = pss.flatten := by
  intro ts
  induction ts with
  | nil =>
      intro mayEnd chars reads _
      exact ⟨[], .nil, tokens_of_end reads⟩
  | cons t ts ih =>
      intro mayEnd chars reads shared
      have next : ∀ word, t = .name word →
          ∃ t' ts', ts ++ [.endOfText] = t' :: ts' ∧ mayBeginWithPoint t' = false := by
        intro _ _
        cases ts with
        | nil => exact ⟨.endOfText, [], rfl, rfl⟩
        | cons t' ts => exact ⟨t', ts ++ [.endOfText], rfl, (shared t' (by simp)).2⟩
      obtain ⟨ps, mayEnd', behind, first, cut, more⟩ :=
        reads_shows reads (shared t List.mem_cons_self).1 next
      obtain ⟨pss, others, rest⟩ := ih more fun t' member =>
        shared t' (List.mem_cons_of_mem _ member)
      exact ⟨ps :: pss, .cons first others, by rw [cut, rest, List.flatten_cons]⟩

theorem shows_keyword {k : Keyword} {ps : List Piece} (shows_ : Shows (.keyword k) ps) :
    ps = [⟨.name, k.spelling.toList⟩] := by
  cases shows_
  rfl

theorem shows_name {word : String} {ps : List Piece} (shows_ : Shows (.name word) ps) :
    ps = pieces word.toList ∧ ∀ c ∈ word.toList, Cursor.isNameChar c = true := by
  cases shows_ with
  | name chars => exact ⟨rfl, chars⟩

theorem shows_string {value : String} {ps : List Piece} (shows_ : Shows (.string value) ps) :
    ∃ spelled, ps = [⟨.text value, spelled⟩] := by
  cases shows_ with
  | string _ spelled => exact ⟨spelled, rfl⟩

theorem importPaths_of_tokens {source : String} {located : List Located} {given path : String}
    (some_ : given ≠ "") (hidden : hidesPath given = true)
    (lexed : tokenize source = .ok located)
    (same : located.map Located.token = [.keyword .package, .name "main", .mark .semi,
      .keyword .import, .name given, .string path, .mark .semi, .endOfText]) :
    importPaths source = [] := by
  have reads := tokenize_reads lexed
  rw [same] at reads
  obtain ⟨pss, all, cut⟩ := reads_showsAll [.keyword .package, .name "main", .mark .semi,
    .keyword .import, .name given, .string path, .mark .semi] reads
    (by simp [isShared, mayBeginWithPoint])
  simp only [List.forall₂_cons_left_iff, List.forall₂_nil_left_iff] at all
  obtain ⟨_, _, package, ⟨_, _, main, ⟨_, _, semi, ⟨_, _, word, ⟨_, _, name, ⟨_, _, string,
    ⟨_, _, lineEnd, rfl, rfl⟩, rfl⟩, rfl⟩, rfl⟩, rfl⟩, rfl⟩, rfl⟩ := all
  obtain ⟨spelled, rfl⟩ := shows_string string
  obtain ⟨rfl, chars⟩ := shows_name name
  rw [shows_keyword package, shows_keyword word, (shows_name main).1] at cut
  have mainPiece : pieces "main".toList = [⟨.name, "main".toList⟩] := by decide +kernel
  have importPiece : (⟨.name, Keyword.import.spelling.toList⟩ : Piece) = importWord := rfl
  unfold importPaths
  simp only [cut, mainPiece, importPiece, List.flatten_cons, List.flatten_nil, List.cons_append,
    List.nil_append]
  rw [importPathsIn_skip (by decide), importPathsIn_skip (by decide),
    importPathsIn_semi semi, misses_hidden hidden some_ chars, importPathsIn_semi lineEnd,
    importPathsIn_nil]

theorem ne_empty_of_isGuestName {word : String} (guest : isGuestName word = true) : word ≠ "" := by
  rintro rfl
  revert guest
  decide

/-- The program of `aliasedImport`, which the scanner takes to import nothing. -/
theorem aliasedImport_passes {given path : String} (guest : isGuestName given = true)
    (hidden : hidesPath given = true) (plain : ∀ c ∈ path.toList, c ≠ '\x60' ∧ c ≠ '\r') :
    parseProgram (aliasedImport given path) = .ok ⟨"main", [⟨some given, path⟩], []⟩ ∧
      importPaths (aliasedImport given path) = [] := by
  obtain ⟨located, lexed, same⟩ := lexes_aliasedImport guest plain
  exact ⟨parses_tokens lexed same,
    importPaths_of_tokens (ne_empty_of_isGuestName guest) hidden lexed same⟩

/-! ## The gate -/

theorem trim_of_head {c : Char} (noBlank : Text.isBlank c = false) (rest : List Char) :
    (Text.trim (c :: rest)).isEmpty = false := by
  rw [List.isEmpty_eq_false_iff, Text.trim, List.dropWhile_cons_of_neg (by simp [noBlank])]
  intro empty
  have all := List.dropWhile_eq_nil_iff.mp (List.reverse_eq_nil_iff.mp empty)
  rw [all c (by simp)] at noBlank
  cases noBlank

/-- Nothing but the size and the directives keeps a policy from accepting a text in which the
scanner finds no import. -/
theorem accepts_without_imports {policy : Policy} {source : String}
    (fits : source.utf8ByteSize ≤ policy.maxSourceBytes)
    (some_ : (Text.trim source.toList).isEmpty = false) (noImport : importPaths source = [])
    (noDirective : ∀ d ∈ policy.forbiddenDirectives,
      Text.containsText d.toList source.toList = false) : policy.validate source = .ok () := by
  have noDirectiveFound : policy.forbiddenDirectives.find?
      (fun d => Text.containsText d.toList source.toList) = none := by
    rw [List.find?_eq_none]
    intro d member
    simp [noDirective d member]
  unfold Policy.validate Policy.violation?
  dsimp only
  rw [if_neg (by omega), if_neg (by simp [some_]), noImport, noDirectiveFound]
  rfl

/-- Under every alias that hides it there is a program that imports a given path and is accepted,
whatever imports the policy forbids. -/
theorem hidden_import_passes {given path : String} (guest : isGuestName given = true)
    (hidden : hidesPath given = true) (plain : ∀ c ∈ path.toList, c ≠ '\x60' ∧ c ≠ '\r') :
    ∃ p, parseProgram (aliasedImport given path) = .ok p ∧ ⟨some given, path⟩ ∈ p.imports ∧
      ∀ policy : Policy, (aliasedImport given path).utf8ByteSize ≤ policy.maxSourceBytes →
        (∀ d ∈ policy.forbiddenDirectives,
          Text.containsText d.toList (aliasedImport given path).toList = false) →
        policy.validate (aliasedImport given path) = .ok () := by
  obtain ⟨parsed, noImport⟩ := aliasedImport_passes guest hidden plain
  refine ⟨_, parsed, List.mem_singleton.mpr rfl, fun policy fits noDirective => ?_⟩
  refine accepts_without_imports fits ?_ noImport noDirective
  rw [toList_aliasedImport]
  exact trim_of_head (by decide +kernel) _

/-- An accepted program imports no forbidden path exactly if none of the imports that stand alone
and under an alias that hides them is forbidden. -/
theorem no_forbidden_import_iff (policy : Policy) (source : String) (p : Program)
    (accepted : policy.validate source = .ok ()) (parsed : parseProgram source = .ok p) :
    (∀ i ∈ p.imports, policy.forbidsImport i.path = false) ↔
      ∀ located, tokenize source = .ok located → ∀ i ∈ p.imports,
        HiddenImport (located.map Located.token) i → policy.forbidsImport i.path = false := by
  constructor
  · intro none located _ i imported _
    exact none i imported
  · intro noHidden i imported
    cases forbidden : policy.forbidsImport i.path with
    | false => rfl
    | true =>
        obtain ⟨located, lexed, hidden⟩ :=
          forbidden_import_hidden accepted parsed imported forbidden
        rw [noHidden located lexed i imported hidden] at forbidden
        cases forbidden

/-- The policy that forbids one import. -/
def forbidding (path : String) : Policy := Policy.make 65536 [path] []

/-- A sign that begins a name for the program and none for the scanner. -/
theorem no_forbidden_import_iff_euro :
    (forbidding "os/exec").validate (aliasedImport "€" "os/exec") = .ok () ∧
      ∃ p located, parseProgram (aliasedImport "€" "os/exec") = .ok p ∧
        ⟨some "€", "os/exec"⟩ ∈ p.imports ∧
        (forbidding "os/exec").forbidsImport "os/exec" = true ∧
        tokenize (aliasedImport "€" "os/exec") = .ok located ∧
        ¬ ∀ i ∈ p.imports, HiddenImport (located.map Located.token) i →
          (forbidding "os/exec").forbidsImport i.path = false := by
  have guest : isGuestName "€" = true := by decide
  have hidden : hidesPath "€" = true := by decide +kernel
  have forbidden : (forbidding "os/exec").forbidsImport "os/exec" = true := by decide
  have plain : "os/exec".toList.all (fun c => c != '\x60' && c != '\r') = true := by decide
  obtain ⟨p, parsed, imported, accepts⟩ := hidden_import_passes guest hidden
    fun c isIn => by simpa using List.all_eq_true.mp plain c isIn
  have accepted := accepts (forbidding "os/exec") (by decide +kernel) (by rintro d ⟨⟩)
  obtain ⟨located, lexed, -⟩ := forbidden_import_hidden accepted parsed imported forbidden
  refine ⟨accepted, p, located, parsed, imported, forbidden, lexed, fun noHidden => ?_⟩
  have exact := no_forbidden_import_iff (forbidding "os/exec") _ p accepted parsed
  have allowed := exact.mpr (fun other lexed' => by
    rw [lexed] at lexed'
    cases lexed'
    exact noHidden) _ imported
  rw [forbidden] at allowed
  cases allowed

end SandboxedGo.Submission
