import SandboxedGo.Proofs.ImportPaths
import SandboxedGo.Proofs.ParserSteps
import SandboxedGo.Proofs.SharedTokens

/-!
# The parser and the scanner side by side

While the parser reads the head of a file, the scanner has cut off the same text.  `Stands` says
where both are, and every import that the parser has read is one that the scanner finds, unless an
alias hides it.
-/

set_option autoImplicit false

namespace SandboxedGo.Submission

open Source

/-- The parser has the tokens `rest` of all the tokens left; of the pieces of the source text, the
scanner has cut off `seen`. -/
structure Stands (source : List Char) (all : List Located) (seen : List Piece)
    (rest : List Located) : Prop where
  suffix : rest <:+ all
  reads : ∃ mayEnd chars, Reads mayEnd chars (rest.map Located.token) ∧
    tokens source = seen ++ tokens chars

theorem reads_ne_nil {mayEnd : Bool} {chars : List Char} {ts : List Token}
    (reads : Reads mayEnd chars ts) : ts ≠ [] := by
  induction reads with
  | endOfText => simp
  | endOfLastLine => simp
  | token => simp
  | newline _ _ _ ih => exact ih
  | endOfLine => simp
  | blank _ _ _ ih => exact ih

theorem reads_last {mayEnd : Bool} {chars : List Char} {t : Token}
    (reads : Reads mayEnd chars [t]) : t = .endOfText := by
  generalize one : [t] = ts at reads
  induction reads with
  | endOfText =>
      cases one
      rfl
  | endOfLastLine => cases one
  | token _ _ more =>
      cases one
      exact absurd rfl (reads_ne_nil more)
  | newline _ _ _ ih => exact ih one
  | endOfLine _ _ more =>
      cases one
      exact absurd rfl (reads_ne_nil more)
  | blank _ _ _ ih => exact ih one

section

variable {source : List Char} {all : List Located} {seen : List Piece} {rest : List Located}

/-! ## Single tokens -/

theorem Stands.advance {t : Token} (stands : Stands source all seen rest)
    (first : firstToken rest = t) (shared : isShared t = true)
    (next : ∀ word, t = .name word → mayBeginWithPoint (firstToken (behindFirst rest)) = false) :
    ∃ ps, Shows t ps ∧ Stands source all (seen ++ ps) (behindFirst rest) ∧
      ∃ l, rest = l :: behindFirst rest ∧ l.token = t := by
  obtain ⟨suffix, mayEnd, chars, reads, same⟩ := stands
  cases rest with
  | nil => exact absurd rfl (reads_ne_nil reads)
  | cons l rest =>
      simp only [firstToken] at first
      subst first
      cases rest with
      | nil =>
          rw [reads_last reads] at shared
          cases shared
      | cons l' rest =>
          obtain ⟨ps, mayEnd', behind, shows_, cut, more⟩ := reads_shows reads shared
            fun word isName => ⟨l'.token, rest.map Located.token, rfl, next word isName⟩
          refine ⟨ps, shows_, ⟨?_, mayEnd', behind, more, ?_⟩, l, rfl, rfl⟩
          · exact (List.suffix_cons l (l' :: rest)).trans suffix
          · rw [same, cut, List.append_assoc]

/-- Pieces among which no parenthesis is closed. -/
def AllOpen (ps : List Piece) : Prop := ∀ p ∈ ps, p.isClosing = false

theorem allOpen_append {ps qs : List Piece} (first : AllOpen ps) (second : AllOpen qs) :
    AllOpen (ps ++ qs) := by
  intro p member
  rcases List.mem_append.mp member with inFirst | inSecond
  · exact first p inFirst
  · exact second p inSecond

theorem shows_semi {ps : List Piece} (shows_ : Shows (.mark .semi) ps) :
    ps = [⟨.other, [';']⟩] ∨ ps = [] :=
  (shows_mark (by decide) shows_).imp id And.right

theorem allOpen_semi {ps : List Piece} (shows_ : Shows (.mark .semi) ps) : AllOpen ps := by
  rcases shows_semi shows_ with rfl | rfl
  · simp [AllOpen, Piece.isClosing]
  · simp [AllOpen]

theorem shows_lParen {ps : List Piece} (shows_ : Shows (.mark .lParen) ps) :
    ps = [⟨.lParen, ['(']⟩] :=
  (shows_mark (by decide) shows_).resolve_right (by rintro ⟨⟨⟩, _⟩)

theorem shows_dot {ps : List Piece} (shows_ : Shows (.mark .dot) ps) :
    ps = [⟨.dot, ['.']⟩] :=
  (shows_mark (by decide) shows_).resolve_right (by rintro ⟨⟨⟩, _⟩)

theorem Stands.semi (stands : Stands source all seen rest)
    (first : firstToken rest = .mark .semi) :
    ∃ ps, AllOpen ps ∧ Stands source all (seen ++ ps) (behindFirst rest) := by
  obtain ⟨ps, shows_, after, _⟩ := stands.advance first rfl (by rintro word ⟨⟩)
  exact ⟨ps, allOpen_semi shows_, after⟩

theorem Stands.skipSemicolons (stands : Stands source all seen rest) :
    ∃ ps, AllOpen ps ∧
      Stands source all (seen ++ ps) (rest.dropWhile (·.token.isMark .semi)) := by
  induction rest generalizing seen with
  | nil => exact ⟨[], by simp [AllOpen], by simpa using stands⟩
  | cons l rest ih =>
      cases isSemi : l.token.isMark .semi with
      | false => exact ⟨[], by simp [AllOpen], by simpa [isSemi] using stands⟩
      | true =>
          have first : firstToken (l :: rest) = .mark .semi := Parser.eq_mark isSemi
          obtain ⟨ps, shows_, after, l', same, _⟩ := stands.advance first rfl (by rintro word ⟨⟩)
          have behind : behindFirst (l :: rest) = rest := (List.cons.inj same).2.symm
          rw [behind] at after
          obtain ⟨qs, isOpen, stands'⟩ := ih after
          refine ⟨ps ++ qs, allOpen_append (allOpen_semi shows_) isOpen, ?_⟩
          rw [← List.append_assoc, List.dropWhile_cons_of_pos (by simpa using isSemi)]
          exact stands'

theorem Stands.endOfStatement {s s' : Reading} {u : Unit}
    (stands : Stands source all seen s.rest) (ran : Parser.endOfStatement s = .ok u s') :
    ∃ ps, AllOpen ps ∧ Stands source all (seen ++ ps) s'.rest := by
  rcases Parser.endOfStatement_ok ran with ⟨first, left⟩ | ⟨_, left⟩
  · rw [left]
    exact stands.semi first
  · rw [left]
    exact ⟨[], by simp [AllOpen], by simpa using stands⟩

/-! ## Imports -/

/-- The pieces of what stands between the word and the path of an import, whose tokens are the
first of `rest`. -/
inductive GivenAs (rest : List Located) (i : Import) : List Piece → Prop
  | none (noName : i.givenName = none) : GivenAs rest i []
  | dot (isDot : i.givenName = some ".") {dot : Piece} (kind : dot.kind = .dot) :
      GivenAs rest i [dot]
  | name {word : String} (isName : i.givenName = some word)
      (chars : ∀ c ∈ word.toList, Cursor.isNameChar c = true)
      (begins : [.name word, .string i.path] <+: rest.map Located.token) :
      GivenAs rest i (pieces word.toList)

theorem GivenAs.allOpen {i : Import} {ps : List Piece} (given : GivenAs rest i ps) :
    AllOpen ps := by
  cases given with
  | none => simp [AllOpen]
  | dot _ kind => simp [AllOpen, Piece.isClosing, kind]
  | name _ chars =>
      intro p member
      rcases kind_of_name_piece _ _ (Nat.le_refl _) chars p member with kind | kind <;>
        simp [Piece.isClosing, kind]

theorem path_ok {s s' : Reading} {given : Option String} {i : Import}
    (ran : (do
      let token ← Parser.peek
      Parser.advance
      match token with
      | .string path => pure ⟨given, path⟩
      | _ => Parser.fail .importPathNotString : Parser Import) s = .ok i s') :
    firstToken s.rest = .string i.path ∧ s'.rest = behindFirst s.rest ∧ i.givenName = given := by
  obtain ⟨t, between, peeked, ran⟩ := Parser.bind_ok ran
  obtain ⟨first, rfl⟩ := Parser.peek_ok peeked
  obtain ⟨_, between, advanced, ran⟩ := Parser.bind_ok ran
  split at ran
  · obtain ⟨rfl, rfl⟩ := Parser.pure_ok ran
    exact ⟨first, Parser.advance_ok advanced, rfl⟩
  · exact (Parser.fail_ok ran).elim

theorem Stands.path {path : String} (stands : Stands source all seen rest)
    (first : firstToken rest = .string path) :
    ∃ spelled, Stands source all (seen ++ [⟨.text path, spelled⟩]) (behindFirst rest) := by
  obtain ⟨ps, shows_, after, _⟩ := stands.advance first rfl (by rintro word ⟨⟩)
  cases shows_ with
  | string _ spelled => exact ⟨spelled, after⟩

theorem exists_of_firstToken_string {path : String} (first : firstToken rest = .string path) :
    ∃ l more, rest = l :: more ∧ l.token = .string path := by
  cases rest with
  | nil => cases first
  | cons l more => exact ⟨l, more, rfl, first⟩

theorem Stands.importSpec {s s' : Reading} {i : Import} (stands : Stands source all seen s.rest)
    (ran : Parser.importSpec s = .ok i s') :
    ∃ given spelled, GivenAs s.rest i given ∧
      Stands source all (seen ++ given ++ [⟨.text i.path, spelled⟩]) s'.rest := by
  unfold Parser.importSpec at ran
  obtain ⟨t, between, peeked, ran⟩ := Parser.bind_ok ran
  obtain ⟨first, rfl⟩ := Parser.peek_ok peeked
  dsimp only at ran
  split at ran
  · obtain ⟨_, behindName, advanced, ran⟩ := Parser.bind_ok ran
    obtain ⟨given, _, isGiven, ran⟩ := Parser.bind_ok ran
    obtain ⟨rfl, rfl⟩ := Parser.pure_ok isGiven
    obtain ⟨isPath, left, isName⟩ := path_ok ran
    rw [Parser.advance_ok advanced] at isPath left
    obtain ⟨ps, shows_, after, l, whole, named⟩ := stands.advance first rfl fun _ _ => by
      rw [isPath]
      rfl
    obtain ⟨spelled, behindPath⟩ := after.path isPath
    cases shows_ with
    | name chars =>
        refine ⟨_, spelled, .name isName chars ?_, by rwa [left]⟩
        obtain ⟨l', more, behind, path⟩ := exists_of_firstToken_string isPath
        rw [whole, behind]
        exact ⟨more.map Located.token, by simp [named, path]⟩
  · obtain ⟨_, behindName, advanced, ran⟩ := Parser.bind_ok ran
    obtain ⟨given, _, isGiven, ran⟩ := Parser.bind_ok ran
    obtain ⟨rfl, rfl⟩ := Parser.pure_ok isGiven
    obtain ⟨isPath, left, isDot⟩ := path_ok ran
    rw [Parser.advance_ok advanced] at isPath left
    obtain ⟨ps, shows_, after, _⟩ := stands.advance first rfl (by rintro word ⟨⟩)
    obtain rfl := shows_dot shows_
    obtain ⟨spelled, behindPath⟩ := after.path isPath
    exact ⟨_, spelled, .dot isDot rfl, by rwa [left]⟩
  · obtain ⟨given, _, isGiven, ran⟩ := Parser.bind_ok ran
    obtain ⟨rfl, rfl⟩ := Parser.pure_ok isGiven
    obtain ⟨isPath, left, noName⟩ := path_ok ran
    obtain ⟨spelled, behindPath⟩ := stands.path isPath
    exact ⟨[], spelled, .none noName, by rwa [left, List.append_nil]⟩

/-- An import under an alias that hides its path, alone behind the word. -/
def HiddenImport (ts : List Token) (i : Import) : Prop :=
  ∃ word, i.givenName = some word ∧ hidesPath word = true ∧
    [.keyword .import, .name word, .string i.path] <:+: ts

/-- What the scanner makes of an import: it finds the path, unless the alias hides it. -/
def FoundOrHidden (source : List Char) (all : List Located) (i : Import) : Prop :=
  i.path ∈ importPathsIn (tokens source) ∨ HiddenImport (all.map Located.token) i

theorem Stands.single {s s' : Reading} {i : Import} {before : List Piece} {l : Located}
    (stands : Stands source all (before ++ [importWord]) s.rest)
    (behindWord : l :: s.rest <:+ all) (word : l.token = .keyword .import)
    (ran : Parser.importSpec s = .ok i s') :
    FoundOrHidden source all i ∧ ∃ seen, Stands source all seen s'.rest := by
  obtain ⟨given, spelled, givenAs, after⟩ := stands.importSpec ran
  refine ⟨?_, _, after⟩
  obtain ⟨_, mayEnd, chars, _, whole⟩ := after
  simp only [List.append_assoc, List.singleton_append] at whole
  unfold FoundOrHidden
  rw [whole]
  cases givenAs with
  | none => exact .inl (finds_path before i.path spelled _)
  | dot _ kind => exact .inl (finds_alias before (.inr kind) i.path spelled _)
  | @name name isName _ begins =>
      cases hides : hidesPath name with
      | false => exact .inl (finds_shown before hides i.path spelled _)
      | true =>
          refine .inr ⟨name, isName, hides, ?_⟩
          have clause : [.keyword .import, .name name, .string i.path] <+:
              (l :: s.rest).map Located.token := by
            rw [List.map_cons, word]
            exact (List.prefix_cons_inj _).mpr begins
          exact clause.isInfix.trans (behindWord.map Located.token).isInfix

/-- What holds of the imports `read`, as long as both stand in front of `rest`. -/
def Accounted (source : List Char) (all : List Located) (read : List Import)
    (rest : List Located) : Prop :=
  (∀ i ∈ read, FoundOrHidden source all i) ∧ ∃ seen, Stands source all seen rest

/-- The same inside of parentheses, which the scanner has not seen closed. -/
def AccountedInside (source : List Char) (all : List Located) (before : List Piece)
    (read : List Import) (rest : List Located) : Prop :=
  (∀ i ∈ read, FoundOrHidden source all i) ∧
    ∃ body, AllOpen body ∧ Stands source all (before ++ body) rest

/-- One round of a group: its end, or one more import. -/
theorem group_round {s s' : Reading} {read : List Import} {before : List Piece} {paren : Piece}
    {piece : Parser.Piece Import} (isParen : paren.kind = .lParen)
    (inside : AccountedInside source all (before ++ [importWord, paren]) read s.rest)
    (ran : (do
      Parser.skipSemicolons
      if ← Parser.eat .rParen then pure .stop
      else
        let a ← Parser.importSpec
        Parser.endOfStatement
        pure (.more a) : Parser (Parser.Piece Import)) s = .ok piece s') :
    Parser.LeadsTo (AccountedInside source all (before ++ [importWord, paren]))
      (Accounted source all) read s'.rest piece := by
  obtain ⟨found, body, isOpen, stands⟩ := inside
  obtain ⟨_, behindSemis, skipped, ran⟩ := Parser.bind_ok ran
  obtain ⟨semis, semisOpen, stands⟩ := stands.skipSemicolons
  rw [← Parser.skipSemicolons_ok skipped] at stands
  obtain ⟨closed, behindEat, ate, ran⟩ := Parser.bind_ok ran
  rcases Parser.eat_ok ate with ⟨rfl, first, left⟩ | ⟨rfl, left⟩
  · obtain ⟨rfl, rfl⟩ := Parser.pure_ok ran
    obtain ⟨ps, _, after, _⟩ := stands.advance first rfl (by rintro word ⟨⟩)
    exact ⟨found, _, by rwa [left]⟩
  · rw [if_neg (by simp)] at ran
    rw [← left] at stands
    obtain ⟨i, behindImport, readImport, ran⟩ := Parser.bind_ok ran
    obtain ⟨given, spelled, givenAs, stands⟩ := stands.importSpec readImport
    obtain ⟨_, behindEnd, ended, ran⟩ := Parser.bind_ok ran
    obtain ⟨rfl, rfl⟩ := Parser.pure_ok ran
    have upToPath := allOpen_append (allOpen_append isOpen semisOpen) givenAs.allOpen
    refine ⟨?_, ?_⟩
    · intro j member
      rcases List.mem_cons.mp member with rfl | earlier
      · obtain ⟨_, mayEnd, chars, _, whole⟩ := stands
        have finds := finds_grouped before isParen upToPath j.path spelled (tokens chars)
        refine .inl ?_
        rw [whole]
        simpa using finds
      · exact found j earlier
    · obtain ⟨ending, endingOpen, stands⟩ := stands.endOfStatement ended
      refine ⟨body ++ semis ++ given ++ [⟨.text i.path, spelled⟩] ++ ending, ?_,
        by simpa using stands⟩
      refine allOpen_append (allOpen_append upToPath ?_) endingOpen
      simp [AllOpen, Piece.isClosing]

theorem group_accounted {s s' : Reading} {is : List Import} {before : List Piece} {paren : Piece}
    (stands : Stands source all (before ++ [importWord, paren]) s.rest)
    (isParen : paren.kind = .lParen)
    (ran : Parser.entriesTo .rParen Parser.importSpec s = .ok is s') :
    Accounted source all is s'.rest := by
  have begins : AccountedInside source all (before ++ [importWord, paren]) [] s.rest :=
    ⟨by simp, [], by simp [AllOpen], by simpa using stands⟩
  obtain ⟨last, rfl, found, more⟩ := Parser.collect_ok _ (Accounted source all)
    (fun _ _ _ _ inside round => group_round isParen inside round) begins ran
  exact ⟨by simpa using found, more⟩

theorem imports_round {s s' : Reading} {read : List (List Import)}
    {piece : Parser.Piece (List Import)} (so_far : Accounted source all read.flatten s.rest)
    (ran : (do
      Parser.skipSemicolons
      if ← Parser.eatKeyword .import then
        let group ← if ← Parser.eat .lParen then Parser.entriesTo .rParen Parser.importSpec
          else pure [← Parser.importSpec]
        Parser.endOfStatement
        pure (.more group)
      else pure .stop : Parser (Parser.Piece (List Import))) s = .ok piece s') :
    Parser.LeadsTo (fun read => Accounted source all read.flatten)
      (fun read => Accounted source all read.flatten) read s'.rest piece := by
  obtain ⟨found, seen, stands⟩ := so_far
  obtain ⟨_, behindSemis, skipped, ran⟩ := Parser.bind_ok ran
  obtain ⟨semis, _, stands⟩ := stands.skipSemicolons
  rw [← Parser.skipSemicolons_ok skipped] at stands
  obtain ⟨more, behindWord, ate, ran⟩ := Parser.bind_ok ran
  rcases Parser.eatKeyword_ok ate with ⟨rfl, first, left⟩ | ⟨rfl, left⟩
  · rw [if_pos rfl] at ran
    obtain ⟨ps, shows_, behind, l, whole, word⟩ := stands.advance first rfl (by rintro word ⟨⟩)
    rw [← left] at behind whole
    have behindImport : l :: behindWord.rest <:+ all := whole ▸ stands.suffix
    have isWord : ps = [importWord] := by
      cases shows_ with
      | keyword => rfl
    subst isWord
    obtain ⟨grouped, behindParen, ate, ran⟩ := Parser.bind_ok ran
    dsimp only at ran
    -- Behind the group or the single import only the end of the statement is left.
    have ending {group : List Import} {between : Reading}
        (isIn : Accounted source all group between.rest)
        (ran : (Parser.endOfStatement >>= fun _ =>
          (pure (.more group) : Parser (Parser.Piece (List Import)))) between = .ok piece s') :
        Parser.LeadsTo (fun read => Accounted source all read.flatten)
          (fun read => Accounted source all read.flatten) read s'.rest piece := by
      obtain ⟨inGroup, seen, stands⟩ := isIn
      obtain ⟨_, after, ended, ran⟩ := Parser.bind_ok ran
      obtain ⟨rfl, rfl⟩ := Parser.pure_ok ran
      obtain ⟨_, _, stands⟩ := stands.endOfStatement ended
      refine ⟨?_, _, stands⟩
      rw [List.flatten_cons]
      intro i member
      rcases List.mem_append.mp member with new | old
      · exact inGroup i new
      · exact found i old
    rcases Parser.eat_ok ate with ⟨rfl, first, left⟩ | ⟨rfl, left⟩
    · rw [if_pos rfl] at ran
      obtain ⟨ps, shows_, inside, _⟩ := behind.advance first rfl (by rintro word ⟨⟩)
      obtain rfl := shows_lParen shows_
      have inParens : Stands source all (seen ++ semis ++ [importWord, ⟨.lParen, ['(']⟩])
          behindParen.rest := by
        rw [left]
        simpa using inside
      obtain ⟨group, between, readGroup, ran⟩ := Parser.bind_ok ran
      exact ending (group_accounted inParens rfl readGroup) ran
    · rw [if_neg (by simp)] at ran
      rw [← left] at behind behindImport
      obtain ⟨i, between, readImport, ran⟩ := Parser.bind_ok ran
      obtain ⟨group, _, one, ran⟩ := Parser.bind_ok ran
      obtain ⟨rfl, rfl⟩ := Parser.pure_ok one
      obtain ⟨isFound, after⟩ := behind.single behindImport word readImport
      exact ending ⟨by simpa using isFound, after⟩ ran
  · rw [if_neg (by simp)] at ran
    obtain ⟨rfl, rfl⟩ := Parser.pure_ok ran
    exact ⟨found, _, by rwa [left]⟩

theorem imports_accounted {s s' : Reading} {is : List Import}
    (stands : Stands source all seen s.rest) (ran : Parser.imports s = .ok is s') :
    ∀ i ∈ is, FoundOrHidden source all i := by
  unfold Parser.imports at ran
  obtain ⟨groups, between, collected, ran⟩ := Parser.bind_ok ran
  obtain ⟨rfl, rfl⟩ := Parser.pure_ok ran
  obtain ⟨last, rfl, found, _⟩ := Parser.collect_ok
    (fun read => Accounted source all read.flatten) (fun read => Accounted source all read.flatten)
    (fun _ _ _ _ so_far round => imports_round so_far round) ⟨by simp, seen, stands⟩ collected
  intro i member
  refine found i ?_
  simpa using member

/-! ## Programs -/

theorem endOfStatement_noPoint {s s' : Reading} {u : Unit}
    (ran : Parser.endOfStatement s = .ok u s') : mayBeginWithPoint (firstToken s.rest) = false := by
  rcases Parser.endOfStatement_ok ran with ⟨first, _⟩ | ⟨ends, _⟩
  · rw [first]
    rfl
  · revert ends
    unfold Parser.endsWithout
    split <;> simp_all [mayBeginWithPoint]

theorem program_accounted {s s' : Reading} {g : Grammar} {p : Program}
    (stands : Stands source all seen s.rest) (ran : Parser.program g s = .ok p s') :
    ∀ i ∈ p.imports, FoundOrHidden source all i := by
  unfold Parser.program at ran
  obtain ⟨_, behindSemis, skipped, ran⟩ := Parser.bind_ok ran
  obtain ⟨semis, _, stands⟩ := stands.skipSemicolons
  rw [← Parser.skipSemicolons_ok skipped] at stands
  obtain ⟨found, behindWord, ate, ran⟩ := Parser.bind_ok ran
  dsimp only at ran
  rcases Parser.eatKeyword_ok ate with ⟨rfl, first, left⟩ | ⟨rfl, left⟩
  · rw [if_pos rfl] at ran
    obtain ⟨_, _, stands, _⟩ := stands.advance first rfl (by rintro word ⟨⟩)
    rw [← left] at stands
    obtain ⟨package, behindName, named, ran⟩ := Parser.bind_ok ran
    obtain ⟨isName, left⟩ := Parser.name_ok named
    obtain ⟨_, behindClause, ended, ran⟩ := Parser.bind_ok ran
    -- Without a point behind it, the name of the package shows as its pieces.
    have noPoint := endOfStatement_noPoint ended
    rw [left] at noPoint
    obtain ⟨_, _, stands, _⟩ := stands.advance isName rfl fun _ _ => noPoint
    rw [← left] at stands
    obtain ⟨_, _, stands⟩ := stands.endOfStatement ended
    obtain ⟨imported, between, readImports, ran⟩ := Parser.bind_ok ran
    obtain ⟨decls, _, _, ran⟩ := Parser.bind_ok ran
    obtain ⟨rfl, rfl⟩ := Parser.pure_ok ran
    exact imports_accounted stands readImports
  · rw [if_neg (by simp)] at ran
    obtain ⟨_, _, failed, _⟩ := Parser.bind_ok ran
    exact (Parser.unexpected_ok failed).elim

end

/-- Of every import of a program, the scanner finds the path, unless the alias hides it. -/
theorem program_found {source : String} {located : List Located} {p : Program}
    (lexed : tokenize source = .ok located) (parsed : parseProgram source = .ok p) :
    ∀ i ∈ p.imports, i.path ∈ importPaths source ∨ HiddenImport (located.map Located.token) i := by
  obtain ⟨_, s', again, ran⟩ := parseProgram_ok_iff.mp parsed
  cases lexed.symm.trans again
  have begins : Stands source.toList located [] located :=
    ⟨List.suffix_refl _, _, _, tokenize_reads lexed, rfl⟩
  exact program_accounted begins ran

end SandboxedGo.Submission
