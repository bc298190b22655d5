import SandboxedGo.Proofs.GrammarProgress
import SandboxedGo.Proofs.Lookahead
import SandboxedGo.Proofs.SharedTokens

/-!
# Where the words of a program are written

Each word that the lexer reads has its place in the text, behind some text that is no token.  The
parser passes the words of a clause, and those of a function, one after another; so they are in the
text of every program with such a clause or function.
-/

set_option autoImplicit false

namespace SandboxedGo.Source

open Submission (Stops stops_dropWhile wordToken wordToken_of_some wordToken_of_none keyword_ofWord
  readName_token atStart_shared interpretedPiece_agrees rawPiece_agrees)

/-! ## Places in a text -/

/-- The lexer reads these tokens of a text and arrives at what is left of it.  The flags tell
whether a line end is a semicolon where it begins and where it arrives. -/
inductive ReadsTo : (mayEnd : Bool) → List Char → List Token → (mayEnd' : Bool) → List Char → Prop
  | here {mayEnd : Bool} {chars : List Char} : ReadsTo mayEnd chars [] mayEnd chars
  | endOfLastLine : ReadsTo true [] [.mark .semi] false []
  | token {mayEnd mayEnd' : Bool} {bound : Nat} {cur after : Cursor} {first : Char}
      {rest left : List Char} {t : Token} {ts : List Token} (chars : cur.rest = first :: rest)
      (step : cur.step bound first = .ok (.token t, after))
      (more : ReadsTo t.endsStatement after.rest ts mayEnd' left) :
      ReadsTo mayEnd (first :: rest) (t :: ts) mayEnd' left
  | newline {mayEnd' : Bool} {bound : Nat} {cur after : Cursor} {first : Char}
      {rest left : List Char} {ts : List Token} (chars : cur.rest = first :: rest)
      (step : cur.step bound first = .ok (.newline, after))
      (more : ReadsTo false after.rest ts mayEnd' left) :
      ReadsTo false (first :: rest) ts mayEnd' left
  | endOfLine {mayEnd' : Bool} {bound : Nat} {cur after : Cursor} {first : Char}
      {rest left : List Char} {ts : List Token} (chars : cur.rest = first :: rest)
      (step : cur.step bound first = .ok (.newline, after))
      (more : ReadsTo false after.rest ts mayEnd' left) :
      ReadsTo true (first :: rest) (.mark .semi :: ts) mayEnd' left
  | blank {mayEnd mayEnd' : Bool} {bound : Nat} {cur after : Cursor} {first : Char}
      {rest left : List Char} {ts : List Token} (chars : cur.rest = first :: rest)
      (step : cur.step bound first = .ok (.blank, after))
      (more : ReadsTo mayEnd after.rest ts mayEnd' left) :
      ReadsTo mayEnd (first :: rest) ts mayEnd' left

theorem Cursor.step_suffix {bound : Nat} {cur after : Cursor} {first : Char} {rest : List Char}
    {lexeme : Lexeme} (chars : cur.rest = first :: rest)
    (step : cur.step bound first = .ok (lexeme, after)) : after.rest <:+ first :: rest := by
  obtain ⟨others, passes, _⟩ := Cursor.step_spans chars step
  exact ⟨first :: others, passes.1.symm.trans chars⟩

namespace ReadsTo

variable {mayEnd between mayEnd' : Bool} {chars middle left : List Char} {ts us : List Token}

theorem suffix (reads : ReadsTo mayEnd chars ts mayEnd' left) : left <:+ chars := by
  induction reads with
  | here => exact List.suffix_rfl
  | endOfLastLine => exact List.suffix_rfl
  | token chars step _ ih => exact ih.trans (Cursor.step_suffix chars step)
  | newline chars step _ ih => exact ih.trans (Cursor.step_suffix chars step)
  | endOfLine chars step _ ih => exact ih.trans (Cursor.step_suffix chars step)
  | blank chars step _ ih => exact ih.trans (Cursor.step_suffix chars step)

theorem trans (first : ReadsTo mayEnd chars ts between middle)
    (second : ReadsTo between middle us mayEnd' left) :
    ReadsTo mayEnd chars (ts ++ us) mayEnd' left := by
  induction first with
  | here => exact second
  | endOfLastLine =>
      cases second with
      | here => exact .endOfLastLine
  | token chars step _ ih => exact .token chars step (ih second)
  | newline chars step _ ih => exact .newline chars step (ih second)
  | endOfLine chars step _ ih => exact .endOfLine chars step (ih second)
  | blank chars step _ ih => exact .blank chars step (ih second)

end ReadsTo

/-! ## Words -/

/-- How names, reserved words, parentheses and semicolons are written. -/
def Token.spelling? : Token → Option (List Char)
  | .name word => some word.toList
  | .keyword k => some k.spelling.toList
  | .mark .lParen => some ['(']
  | .mark .rParen => some [')']
  | .mark .semi => some [';']
  | _ => none

theorem wordToken_spelling (word : String) : (wordToken word).spelling? = some word.toList := by
  cases found : Keyword.ofWord? word with
  | some k =>
      rw [wordToken_of_some found, (keyword_ofWord found).1]
      rfl
  | none =>
      rw [wordToken_of_none found]
      rfl

theorem spelling_mark {m : Mark} {text : List Char}
    (written : (Token.mark m).spelling? = some text) :
    ∃ c kind, (c, m, kind) ∈ Submission.sharedMarks ∧
      text = [c] := by
  cases m with
  | lParen => exact ⟨'(', .lParen, by decide, (Option.some.inj written).symm⟩
  | rParen => exact ⟨')', .rParen, by decide, (Option.some.inj written).symm⟩
  | semi => exact ⟨';', .other, by decide, (Option.some.inj written).symm⟩
  | _ => cases written

/-- A step that reads a word takes its text, and a reserved word ends where no name goes on. -/
theorem step_text {bound : Nat} {cur after : Cursor} {first : Char} {rest text : List Char}
    {t : Token} (chars : cur.rest = first :: rest)
    (step : cur.step bound first = .ok (.token t, after)) (written : t.spelling? = some text) :
    first :: rest = text ++ after.rest ∧
      ∀ k, t = .keyword k → Stops Cursor.isNameChar after.rest := by
  -- The lexeme is set apart so that the cases are what the lexer has read.
  generalize lexed : Lexeme.token t = lexeme at step
  have reads := Cursor.step_reads chars step
  generalize after.rest = behind at reads
  cases reads with
  | newline => cases lexed
  | space => cases lexed
  | lineComment => cases lexed
  | blockComment _ _ noToken => rcases noToken with rfl | rfl <;> cases lexed
  | int =>
      cases lexed
      cases written
  | float =>
      cases lexed
      cases written
  | rune =>
      cases lexed
      cases written
  | string quote read =>
      subst quote
      obtain ⟨value, _, rfl, _⟩ := interpretedPiece_agrees chars read
      cases lexed
      cases written
  | rawString quote read =>
      subst quote
      obtain ⟨value, _, rfl, _⟩ := rawPiece_agrees chars read
      cases lexed
      cases written
  | name start =>
      rw [readName_token, chars] at lexed
      cases lexed
      rw [wordToken_spelling, String.toList_ofList] at written
      cases written
      exact ⟨List.takeWhile_append_dropWhile.symm, fun _ _ => stops_dropWhile _ _⟩
  | mark found =>
      cases lexed
      refine ⟨?_, nofun⟩
      obtain ⟨c, kind, listed, rfl⟩ := spelling_mark written
      obtain ⟨rfl, rfl⟩ := atStart_shared found listed
      rfl

/-- The text in front of a word is no token.  A semicolon need not be written. -/
theorem reads_word {mayEnd : Bool} {chars text : List Char} {t : Token} {ts : List Token}
    (reads : Reads mayEnd chars (t :: ts)) (written : t.spelling? = some text)
    (noSemi : t ≠ .mark .semi) :
    ∃ between behind, ReadsTo mayEnd chars [] between (text ++ behind) ∧
      ReadsTo between (text ++ behind) [t] t.endsStatement behind ∧
      Reads t.endsStatement behind ts ∧ ∀ k, t = .keyword k → Stops Cursor.isNameChar behind := by
  generalize all : t :: ts = read at reads
  induction reads with
  | endOfText =>
      cases all
      cases written
  | endOfLastLine =>
      cases all
      exact absurd rfl noSemi
  | @token mayEnd _ _ after first rest _ _ chars step more _ =>
      cases all
      obtain ⟨whole, stops⟩ := step_text chars step written
      refine ⟨mayEnd, after.rest, ?_, ?_, more, stops⟩
      · rw [← whole]
        exact .here
      · rw [← whole]
        exact .token chars step .here
  | newline chars step _ ih =>
      obtain ⟨between, behind, blanks, word, more⟩ := ih all
      exact ⟨between, behind, .newline chars step blanks, word, more⟩
  | endOfLine =>
      cases all
      exact absurd rfl noSemi
  | blank chars step _ ih =>
      obtain ⟨between, behind, blanks, word, more⟩ := ih all
      exact ⟨between, behind, .blank chars step blanks, word, more⟩

theorem reads_first {mayEnd : Bool} {chars : List Char} {t : Token} {ts : List Token}
    (reads : Reads mayEnd chars (t :: ts)) (some_ : ts ≠ []) :
    ∃ between left, ReadsTo mayEnd chars [t] between left ∧ Reads between left ts := by
  generalize all : t :: ts = read at reads
  induction reads with
  | endOfText =>
      cases all
      exact absurd rfl some_
  | endOfLastLine =>
      cases all
      exact ⟨_, _, .endOfLastLine, .endOfText⟩
  | token chars step more =>
      cases all
      exact ⟨_, _, .token chars step .here, more⟩
  | newline chars step _ ih =>
      obtain ⟨between, left, first, more⟩ := ih all
      exact ⟨between, left, .newline chars step first, more⟩
  | endOfLine chars step more =>
      cases all
      exact ⟨_, _, .endOfLine chars step .here, more⟩
  | blank chars step _ ih =>
      obtain ⟨between, left, first, more⟩ := ih all
      exact ⟨between, left, .blank chars step first, more⟩

theorem reads_split : ∀ {mayEnd : Bool} {chars : List Char} (ts : List Token) {us : List Token},
    Reads mayEnd chars (ts ++ us) → us ≠ [] →
      ∃ between left, ReadsTo mayEnd chars ts between left ∧ Reads between left us
  | _, _, [], _, reads, _ => ⟨_, _, .here, reads⟩
  | _, _, t :: ts, us, reads, some_ => by
      have more : ts ++ us ≠ [] := List.append_ne_nil_of_right_ne_nil _ some_
      obtain ⟨_, _, first, reads⟩ := reads_first reads more
      obtain ⟨between, left, others, reads⟩ := reads_split ts reads some_
      exact ⟨between, left, first.trans others, reads⟩

/-- A word of a text that the lexer reads behind some other tokens. -/
structure Word (mayEnd : Bool) (chars : List Char) (before : List Token) (t : Token) where
  gap : List Char
  text : List Char
  behind : List Char
  written : t.spelling? = some text
  split : chars = gap ++ (text ++ behind)
  reads : ∃ between, ReadsTo mayEnd chars before between (text ++ behind) ∧
    ReadsTo between (text ++ behind) [t] t.endsStatement behind
  ends : ∀ k, t = .keyword k → Stops Cursor.isNameChar behind

section

variable {mayEnd : Bool} {chars : List Char} {before ts : List Token} {t : Token}

theorem Word.split_text (word : Word mayEnd chars before t) (text : List Char)
    (written : t.spelling? = some text) : chars = word.gap ++ (text ++ word.behind) := by
  cases written.symm.trans word.written
  exact word.split

theorem exists_word (before : List Token) (text : List Char)
    (reads : Reads mayEnd chars (before ++ t :: ts)) (written : t.spelling? = some text)
    (noSemi : t ≠ .mark .semi) :
    ∃ word : Word mayEnd chars before t, Reads t.endsStatement word.behind ts := by
  obtain ⟨_, left, passed, reads⟩ := reads_split before reads (List.cons_ne_nil t ts)
  obtain ⟨between, behind, blanks, word, more, ends⟩ := reads_word reads written noSemi
  have arrives : ReadsTo mayEnd chars before between (text ++ behind) := by
    simpa using passed.trans blanks
  obtain ⟨gap, split⟩ := arrives.suffix
  exact ⟨⟨gap, text, behind, written, split.symm, ⟨between, arrives, word⟩, ends⟩, more⟩

end

/-! ## What the parser has passed -/

theorem reads_ends {mayEnd : Bool} {chars : List Char} {ts : List Token}
    (reads : Reads mayEnd chars ts) : ∃ front, ts = front ++ [.endOfText] := by
  induction reads with
  | endOfText => exact ⟨[], rfl⟩
  | endOfLastLine => exact ⟨[.mark .semi], rfl⟩
  | token _ _ _ ih =>
      obtain ⟨front, rfl⟩ := ih
      exact ⟨_ :: front, rfl⟩
  | newline _ _ _ ih => exact ih
  | endOfLine _ _ _ ih =>
      obtain ⟨front, rfl⟩ := ih
      exact ⟨_ :: front, rfl⟩
  | blank _ _ _ ih => exact ih

theorem tokenize_ended {source : String} {located : List Located}
    (lexed : tokenize source = .ok located) : Ended located := by
  obtain ⟨_, split⟩ := reads_ends (tokenize_reads lexed)
  obtain ⟨front, behind, rfl, _, last⟩ := List.map_eq_append_iff.mp split
  obtain ⟨⟨_, place⟩, rfl, rfl⟩ := List.map_eq_singleton_iff.mp last
  exact ⟨front, place, rfl⟩

/-- Behind these tokens of a text there are the tokens left, and its end. -/
structure Passed (rest : List Located) (ts : List Token) (left : List Located) : Prop where
  tokens : rest.map Located.token = ts ++ left.map Located.token
  ended : Ended left

section

variable {rest middle left : List Located} {t : Token} {ts us : List Token}

theorem Passed.trans (first : Passed rest ts middle) (second : Passed middle us left) :
    Passed rest (ts ++ us) left :=
  ⟨by rw [first.tokens, second.tokens, List.append_assoc], second.ended⟩

theorem Ended.passed (ended : Ended rest) (first : firstToken rest = t) (goesOn : t ≠ .endOfText) :
    Passed rest [t] (behindFirst rest) := by
  subst first
  match rest, ended with
  | [], ended => exact absurd rfl ended.ne_nil
  | [l], ⟨front, place, split⟩ =>
      obtain rfl : l = ⟨.endOfText, place⟩ := by simpa using congrArg List.getLast? split
      exact absurd rfl goesOn
  | l :: l' :: rest, ended =>
      exact ⟨rfl, ended.of_suffix (List.suffix_cons l _) (List.cons_ne_nil _ _)⟩

theorem Ended.passed_semicolons (ended : Ended rest) : ∃ count,
    Passed rest (.replicate count (.mark .semi)) (rest.dropWhile (·.token.isMark .semi)) := by
  have semis : (rest.takeWhile (·.token.isMark .semi)).map Located.token =
      .replicate (rest.takeWhile (·.token.isMark .semi)).length (.mark .semi) := by
    refine List.eq_replicate_iff.mpr ⟨List.length_map _, fun t member => ?_⟩
    obtain ⟨l, isSemi, rfl⟩ := List.mem_map.mp member
    exact Parser.eq_mark
      (List.mem_takeWhile_imp (p := fun l : Located => l.token.isMark .semi) isSemi)
  refine ⟨(rest.takeWhile (·.token.isMark .semi)).length, ?_,
    ended.of_suffix (List.dropWhile_suffix _) ended.dropSemicolons⟩
  rw [← semis, ← List.map_append, List.takeWhile_append_dropWhile]

theorem Ended.passed_suffix (ended : Ended rest) (suffix : left <:+ rest) (some_ : left ≠ []) :
    ∃ ts, Passed rest ts left := by
  obtain ⟨front, rfl⟩ := suffix
  exact ⟨front.map Located.token, List.map_append, ended.of_suffix (List.suffix_append _ _) some_⟩

end

namespace Parser

variable {few : Nat} {s s' : Reading}

theorem Proceeds.later {α : Type} {p : Parser α} {c : α → Bool} {a : α}
    (proceeds : Proceeds few (fun _ => True) p c) (ready : Ready s) (fits : s.rest.length ≤ few)
    (ran : p s = .ok a s') : Later s s' := by
  have outcome := proceeds s ready fits trivial
  rw [ran] at outcome
  cases outcome with
  | ok later => exact later

/-! ## Items of lists -/

/-- A round has read this item of a list. -/
def HasRead {α : Type} (round : Parser (Piece α)) (before : Reading) (a : α) : Prop :=
  ∃ after, round before = .ok (.more a) after ∨ round before = .ok (.last a) after

/-- Every item of a list has been read by a round that began further on. -/
theorem collectFrom_mem {α : Type} {round : Parser (Piece α)} (turns : Turns few round) :
    ∀ (rounds : Nat) (read : List α) (s s' : Reading) {items : List α}, Ready s →
      s.rest.length ≤ few → collectFrom (fun _ => round) rounds read s = .ok items s' →
      ∀ a ∈ items, a ∈ read ∨ ∃ before, Later s before ∧ HasRead round before a := by
  intro rounds
  induction rounds with
  | zero => exact fun _ _ _ _ _ _ ran => (fail_ok ran).elim
  | succ rounds ih =>
      intro read s s' items ready fits ran a member
      unfold collectFrom at ran
      obtain ⟨piece, between, once, ran⟩ := bind_ok ran
      have later := turns.later ready fits once
      cases piece with
      | stop =>
          obtain ⟨rfl, rfl⟩ := pure_ok ran
          exact .inl (List.mem_reverse.mp member)
      | last b =>
          obtain ⟨rfl, rfl⟩ := pure_ok ran
          rcases List.mem_cons.mp (List.mem_reverse.mp member) with rfl | earlier
          · exact .inr ⟨s, .refl ready, between, .inr once⟩
          · exact .inl earlier
      | more b =>
          have fits := later.length_le.trans fits
          rcases ih (b :: read) between s' later.ready fits ran a member with
            earlier | ⟨before, further, round_⟩
          · rcases List.mem_cons.mp earlier with rfl | earlier
            · exact .inr ⟨s, .refl ready, between, .inl once⟩
            · exact .inl earlier
          · exact .inr ⟨before, later.trans further, round_⟩

theorem collect_mem {α : Type} {round : Parser (Piece α)} {items : List α} (turns : Turns few round)
    (ready : Ready s) (fits : s.rest.length ≤ few) (ran : collect round s = .ok items s') :
    ∀ a ∈ items, ∃ before, Later s before ∧ HasRead round before a := by
  unfold collect collectWith at ran
  obtain ⟨_, _, got, ran⟩ := bind_ok ran
  cases got
  intro a member
  exact (collectFrom_mem turns _ [] s s' ready fits ran a member).resolve_left List.not_mem_nil

/-! ## Parameters -/

/-- An entry of a parameter list gives a name or a type. -/
def ParamEntry.IsGiven (e : ParamEntry) : Prop := e.name ≠ none ∨ e.type ≠ none

theorem paramEntry_given {g : Grammar} {read : List ParamEntry} {e : ParamEntry}
    (ran : paramEntry g read s = .ok e s') : e.IsGiven := by
  unfold paramEntry at ran
  split at ran
  · obtain ⟨_, _, failed, _⟩ := bind_ok ran
    exact (fail_ok failed).elim
  obtain ⟨t, _, _, ran⟩ := bind_ok ran
  obtain ⟨u, _, _, ran⟩ := bind_ok ran
  split at ran
  · obtain ⟨_, _, _, ran⟩ := bind_ok ran
    obtain ⟨rfl, _⟩ := pure_ok ran
    exact .inl (by simp)
  · obtain ⟨_, _, _, ran⟩ := bind_ok ran
    obtain ⟨rfl, _⟩ := pure_ok ran
    exact .inl (by simp)
  · obtain ⟨_, _, _, ran⟩ := bind_ok ran
    obtain ⟨rfl, _⟩ := pure_ok ran
    exact .inr (by simp)
  · obtain ⟨_, _, _, ran⟩ := bind_ok ran
    obtain ⟨_, _, _, ran⟩ := bind_ok ran
    obtain ⟨_, _, _, ran⟩ := bind_ok ran
    obtain ⟨rfl, _⟩ := pure_ok ran
    exact .inl (by simp)
  · obtain ⟨_, _, _, ran⟩ := bind_ok ran
    obtain ⟨_, _, _, ran⟩ := bind_ok ran
    obtain ⟨rfl, _⟩ := pure_ok ran
    exact .inr (by simp)
  · obtain ⟨_, _, _, ran⟩ := bind_ok ran
    obtain ⟨rfl, _⟩ := pure_ok ran
    exact .inr (by simp)

theorem namedParams_eq_nil : ∀ {entries : List ParamEntry} {pending : List String},
    namedParams pending entries = some [] → pending = [] ∧ entries = [] := by
  intro entries
  induction entries with
  | nil =>
      intro pending named
      unfold namedParams at named
      split at named
      · rename_i none_
        exact ⟨List.isEmpty_iff.mp none_, rfl⟩
      · cases named
  | cons e entries ih =>
      intro pending named
      unfold namedParams at named
      split at named
      · exact absurd (ih named).1 (by simp)
      · obtain ⟨more, _, joined⟩ := Option.map_eq_some_iff.mp named
        exact absurd joined (by simp)
      · cases named

theorem unnamedParams_eq_nil {entries : List ParamEntry} (given : ∀ e ∈ entries, e.IsGiven)
    (none_ : unnamedParams entries = []) : entries = [] := by
  unfold unnamedParams at none_
  refine List.eq_nil_iff_forall_not_mem.mpr fun e member => ?_
  have dropped := List.filterMap_eq_nil_iff.mp none_ e member
  split at dropped
  · cases dropped
  · cases dropped
  · rename_i noType noName
    rcases given e member with named | typed
    · exact named noName
    · exact typed noType

theorem sliceLast_eq_nil {list : List Param} (none_ : sliceLast list = []) : list = [] := by
  unfold sliceLast at none_
  split at none_
  · rfl
  · cases none_
  · cases none_

/-- The entries read so far are given, and none has been read only at the beginning. -/
def EntriesKept (start : List Located) (read : List ParamEntry) (rest : List Located) : Prop :=
  (∀ e ∈ read, e.IsGiven) ∧ (read = [] → rest = start)

/-- The entries are given, and without any there were only semicolons. -/
def EntriesRead (start : List Located) (read : List ParamEntry) (rest : List Located) : Prop :=
  (∀ e ∈ read, e.IsGiven) ∧ (read = [] → ∃ count,
    Passed start (.replicate count (.mark .semi) ++ [.mark .rParen]) rest)

theorem entries_round {g : Grammar} {start : List Located} {read : List ParamEntry}
    {piece : Piece ParamEntry} (ended : Ended start) (kept : EntriesKept start read s.rest)
    (ran : itemsRound .rParen ")" (paramEntry g) read s = .ok piece s') :
    LeadsTo (EntriesKept start) (EntriesRead start) read s'.rest piece := by
  obtain ⟨given, atStart⟩ := kept
  unfold itemsRound at ran
  obtain ⟨_, behindSemis, skipped, ran⟩ := bind_ok ran
  obtain ⟨closes, behindMark, ate, ran⟩ := bind_ok ran
  rcases eat_ok ate with ⟨rfl, first, left⟩ | ⟨rfl, left⟩
  · rw [if_pos rfl] at ran
    obtain ⟨rfl, rfl⟩ := pure_ok ran
    refine ⟨given, fun none_ => ?_⟩
    obtain ⟨count, semis⟩ := ended.passed_semicolons
    rw [← atStart none_, ← skipSemicolons_ok skipped, atStart none_] at semis
    rw [left]
    exact ⟨count, semis.trans (semis.ended.passed first nofun)⟩
  · rw [if_neg nofun] at ran
    obtain ⟨e, behindEntry, entry, ran⟩ := bind_ok ran
    have more : ∀ e' ∈ e :: read, e'.IsGiven :=
      List.forall_mem_cons.mpr ⟨paramEntry_given entry, given⟩
    obtain ⟨comma, behindComma, ate, ran⟩ := bind_ok ran
    split at ran
    · obtain ⟨rfl, rfl⟩ := pure_ok ran
      exact ⟨more, nofun⟩
    · obtain ⟨_, _, _, ran⟩ := bind_ok ran
      obtain ⟨_, _, _, ran⟩ := bind_ok ran
      obtain ⟨rfl, rfl⟩ := pure_ok ran
      exact ⟨more, nofun⟩

theorem entries_ok {g : Grammar} {entries : List ParamEntry} (ended : Ended s.rest)
    (ran : itemsTo .rParen ")" (paramEntry g) s = .ok entries s') :
    ∃ last, entries = last.reverse ∧ EntriesRead s.rest last s'.rest := by
  unfold itemsTo collectWith at ran
  obtain ⟨_, _, got, ran⟩ := bind_ok ran
  cases got
  exact collectFrom_ok (EntriesKept s.rest) (EntriesRead s.rest)
    (fun _ _ _ _ kept round => entries_round ended kept round) _ [] s s' entries
    ⟨by simp, fun _ => rfl⟩ ran

/-- Where there are no parameters, there is nothing but semicolons between the parentheses. -/
theorem params_empty {g : Grammar} {variadic : Bool} (ended : Ended s.rest)
    (ran : params g s = .ok ([], variadic) s') : ∃ count, Passed s.rest
      ([Token.mark .lParen] ++ List.replicate count (Token.mark .semi) ++ [Token.mark .rParen])
        s'.rest := by
  unfold params at ran
  obtain ⟨_, behindOpening, opened, ran⟩ := bind_ok ran
  obtain ⟨first, rfl⟩ := expect_ok opened
  have opening := ended.passed first nofun
  obtain ⟨entries, behindEntries, inside, ran⟩ := bind_ok ran
  obtain ⟨last, rfl, given, empty⟩ := entries_ok opening.ended inside
  suffices none_ : last.reverse = [] ∧ behindEntries = s' by
    obtain ⟨count, others⟩ := empty (List.reverse_eq_nil_iff.mp none_.1)
    rw [← none_.2]
    exact ⟨count, by simpa using opening.trans others⟩
  extract_lets isVariadic finish at ran
  have finished {list : List Param} (ran : finish list behindEntries = .ok ([], variadic) s') :
      list = [] ∧ behindEntries = s' := by
    obtain ⟨same, rfl⟩ := pure_ok ran
    refine ⟨?_, rfl⟩
    have none_ := congrArg Prod.fst same
    dsimp only at none_
    split at none_
    · exact sliceLast_eq_nil none_
    · exact none_
  split at ran
  · cases named : namedParams [] last.reverse with
    | some list =>
        rw [named] at ran
        obtain ⟨rfl, same⟩ := finished ran
        exact ⟨(namedParams_eq_nil named).2, same⟩
    | none =>
        rw [named] at ran
        obtain ⟨_, _, failed, _⟩ := bind_ok ran
        exact (fail_ok failed).elim
  · obtain ⟨none_, same⟩ := finished ran
    refine ⟨unnamedParams_eq_nil (fun e member => ?_) none_, same⟩
    exact given e (List.mem_reverse.mp member)

/-! ## Declarations -/

theorem receiver_none (ran : receiver s = .ok none s') : s'.rest = s.rest := by
  unfold receiver at ran
  obtain ⟨opens, behindMark, ate, ran⟩ := bind_ok ran
  rcases eat_ok ate with ⟨rfl, _, _⟩ | ⟨rfl, left⟩
  · rw [if_pos rfl] at ran
    obtain ⟨_, _, _, ran⟩ := bind_ok ran
    obtain ⟨_, _, _, ran⟩ := bind_ok ran
    extract_lets finish at ran
    have never {word : Option String} {t : Reading} : finish word t ≠ .ok none s' := by
      intro ran
      obtain ⟨_, _, _, ran⟩ := bind_ok ran
      obtain ⟨_, _, _, ran⟩ := bind_ok ran
      obtain ⟨_, _, _, ran⟩ := bind_ok ran
      cases (pure_ok ran).1
    split at ran
    · obtain ⟨_, _, _, ran⟩ := bind_ok ran
      exact absurd ran never
    · obtain ⟨_, _, _, ran⟩ := bind_ok ran
      exact absurd ran never
    · exact absurd ran never
  · rw [if_neg nofun] at ran
    obtain ⟨_, rfl⟩ := pure_ok ran
    exact left

theorem funcDecl_passed {g : Grammar} {d : FuncDecl} (ended : Ended s.rest)
    (ran : funcDecl g s = .ok d s') (plain : d.receiver = none) (empty : d.function.params = []) :
    ∃ count left, Passed s.rest ([Token.keyword .func] ++ [Token.name d.name] ++
      ([Token.mark .lParen] ++ List.replicate count (Token.mark .semi) ++ [Token.mark .rParen]))
        left := by
  unfold funcDecl at ran
  obtain ⟨start, between, lined, ran⟩ := bind_ok ran
  obtain ⟨_, same⟩ := looks_line s
  cases same.symm.trans lined
  obtain ⟨found, behindWord, ate, ran⟩ := bind_ok ran
  dsimp only at ran
  rcases eatKeyword_ok ate with ⟨rfl, first, left⟩ | ⟨rfl, left⟩
  · rw [if_pos rfl] at ran
    have word := ended.passed first nofun
    rw [← left] at word
    obtain ⟨recv, behindReceiver, received, ran⟩ := bind_ok ran
    obtain ⟨called, behindName, named, ran⟩ := bind_ok ran
    obtain ⟨isName, left⟩ := name_ok named
    obtain ⟨⟨list, variadic⟩, behindParams, listed, ran⟩ := bind_ok ran
    obtain ⟨outcome, _, _, ran⟩ := bind_ok ran
    obtain ⟨opens, _, _, ran⟩ := bind_ok ran
    dsimp only at ran
    split at ran
    · obtain ⟨body, _, _, ran⟩ := bind_ok ran
      obtain ⟨rfl, _⟩ := pure_ok ran
      obtain rfl : recv = none := plain
      obtain rfl : list = [] := empty
      have name_ := (receiver_none received ▸ word.ended).passed isName nofun
      rw [← left] at name_
      obtain ⟨count, parentheses⟩ := params_empty name_.ended listed
      rw [receiver_none received] at name_
      exact ⟨count, _, (word.trans name_).trans parentheses⟩
    · obtain ⟨_, _, failed, _⟩ := bind_ok ran
      exact (fail_ok failed).elim
  · rw [if_neg nofun] at ran
    obtain ⟨_, _, failed, _⟩ := bind_ok ran
    exact (unexpected_ok failed).elim

theorem decl_func {g : Grammar} {d : FuncDecl} (read : HasRead (decl g) s (.func d)) :
    ∃ s₁ s₂, s₁.rest = s.rest.dropWhile (·.token.isMark .semi) ∧ funcDecl g s₁ = .ok d s₂ := by
  obtain ⟨after, read⟩ := read
  obtain ⟨piece, ran, isFunc⟩ : ∃ piece, decl g s = .ok piece after ∧
      (piece = .more (.func d) ∨ piece = .last (.func d)) := by
    rcases read with more | last
    · exact ⟨_, more, .inl rfl⟩
    · exact ⟨_, last, .inr rfl⟩
  unfold decl at ran
  obtain ⟨_, behindSemis, skipped, ran⟩ := bind_ok ran
  obtain ⟨t, _, peeked, ran⟩ := bind_ok ran
  obtain ⟨isFirst, rfl⟩ := peek_ok peeked
  refine ⟨behindSemis, ?_⟩
  split at ran
  · obtain ⟨rfl, _⟩ := pure_ok ran
    rcases isFunc with no | no <;> cases no
  extract_lets finish at ran
  have finished {d' : Decl} {t : Reading} (ran : finish d' t = .ok piece after) : d' = .func d := by
    obtain ⟨_, _, _, ran⟩ := bind_ok ran
    obtain ⟨rfl, _⟩ := pure_ok ran
    rcases isFunc with same | same <;> cases same
    rfl
  have made {α : Type} {p : Parser α} {make : α → Decl} {t : Reading}
      (ran : (make <$> p >>= finish) t = .ok piece after) :
      ∃ a t', p t = .ok a t' ∧ make a = .func d := by
    obtain ⟨d', t', read, ran⟩ := bind_ok ran
    rw [map_eq_pure_bind] at read
    obtain ⟨a, between, inner, read⟩ := bind_ok read
    obtain ⟨rfl, rfl⟩ := pure_ok read
    exact ⟨a, between, inner, finished ran⟩
  split at ran
  · obtain ⟨f, between, function, same⟩ := made ran
    cases same
    exact ⟨between, skipSemicolons_ok skipped, function⟩
  · obtain ⟨_, _, _, ran⟩ := bind_ok ran
    obtain ⟨_, _, _, ⟨⟩⟩ := made ran
  · obtain ⟨_, _, _, ran⟩ := bind_ok ran
    obtain ⟨_, _, _, ⟨⟩⟩ := made ran
  · obtain ⟨_, _, _, ran⟩ := bind_ok ran
    obtain ⟨_, _, _, ⟨⟩⟩ := made ran
  · obtain ⟨_, _, failed, _⟩ := bind_ok ran
    exact (fail_ok failed).elim
  · obtain ⟨_, _, failed, _⟩ := bind_ok ran
    exact (unexpected_ok failed).elim

/-! ## Clauses and functions -/

/-- The clause that a program begins with, and where its declarations have been read. -/
theorem program_passed {g : Grammar} {p : Program} (productive : Productive few g)
    (ready : Ready s) (fits : s.rest.length ≤ few) (ran : program g s = .ok p s') :
    (∃ count left, Passed s.rest (List.replicate count (Token.mark .semi) ++
      [Token.keyword .package] ++ [Token.name p.package]) left) ∧
      ∀ d ∈ p.decls, ∃ before, Later s before ∧ HasRead (decl g) before d := by
  unfold program at ran
  obtain ⟨_, behindSemis, skipped, ran⟩ := bind_ok ran
  cases skipped
  obtain ⟨count, semis⟩ := ready.ended.passed_semicolons
  have later := skipSemicolons_later ready
  obtain ⟨found, behindWord, ate, ran⟩ := bind_ok ran
  rw [eatKeyword_eq] at ate
  cases ate
  dsimp only at ran
  split at ran
  · rename_i isWord
    have word := semis.ended.passed (eq_keyword isWord) nofun
    have later := later.trans (advance_later later.ready).1
    obtain ⟨package, behindName, named, ran⟩ := bind_ok ran
    have name_ := word.ended.passed (name_ok named).1 nofun
    have later := later.trans (Proceeds.name.later later.ready (later.length_le.trans fits) named)
    obtain ⟨_, _, ended, ran⟩ := bind_ok ran
    have later := later.trans
      (Proceeds.endOfStatement.later later.ready (later.length_le.trans fits) ended)
    obtain ⟨imported, _, importing, ran⟩ := bind_ok ran
    have later := later.trans
      (imports_loops.goes.later later.ready (later.length_le.trans fits) importing)
    obtain ⟨decls, _, declared, ran⟩ := bind_ok ran
    obtain ⟨rfl, rfl⟩ := pure_ok ran
    refine ⟨⟨count, _, (semis.trans word).trans name_⟩, fun d member => ?_⟩
    obtain ⟨before, further, read⟩ := collect_mem (decl_turns productive) later.ready
      (later.length_le.trans fits) declared d member
    exact ⟨before, later.trans further, read⟩
  · obtain ⟨_, _, failed, _⟩ := bind_ok ran
    exact (unexpected_ok failed).elim

/-- The words of a function without receiver and parameters that a program declares. -/
theorem program_function {g : Grammar} {p : Program} {d : FuncDecl} (productive : Productive few g)
    (ready : Ready s) (fits : s.rest.length ≤ few) (ran : program g s = .ok p s')
    (declared : .func d ∈ p.decls) (plain : d.receiver = none) (empty : d.function.params = []) :
    ∃ before count left, Passed s.rest (before ++ ([Token.keyword .func] ++ [Token.name d.name] ++
      ([Token.mark .lParen] ++ List.replicate count (Token.mark .semi) ++ [Token.mark .rParen])))
        left := by
  obtain ⟨_, decls⟩ := program_passed productive ready fits ran
  obtain ⟨round, later, read⟩ := decls _ declared
  obtain ⟨before, reached⟩ :=
    ready.ended.passed_suffix later.onward later.ready.ended.ne_nil
  obtain ⟨begin_, after, atWord, function⟩ := decl_func read
  obtain ⟨semis, skipped⟩ := reached.ended.passed_semicolons
  rw [← atWord] at skipped
  obtain ⟨count, left, words⟩ := funcDecl_passed skipped.ended function plain empty
  exact ⟨_, count, left, (reached.trans skipped).trans words⟩

end Parser

end SandboxedGo.Source
