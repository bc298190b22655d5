import SandboxedGo.Proofs.GapSteps
import SandboxedGo.Proofs.HiddenAlias
import SandboxedGo.Settings

/-!
# When renaming the host call is faithful

The renamed text is always accepted.  Its tokens are those of the text with one name replaced
exactly if the scanner sees the name at the places where the lexer reads it, and the new name is not
a reserved word.
-/

set_option autoImplicit false

namespace SandboxedGo

open Source Submission

namespace Source

/-! ## The order of places -/

def Position.Before (p q : Position) : Prop :=
  p.line < q.line ∨ p.line = q.line ∧ p.column < q.column

instance (p q : Position) : Decidable (p.Before q) :=
  inferInstanceAs (Decidable (_ ∨ _))

theorem Position.not_before_self (p : Position) : ¬ p.Before p := by
  unfold Before
  omega

theorem Position.before_after (p : Position) (c : Char) : p.Before (p.after c) := by
  unfold Before after
  split <;> simp

theorem Position.Before.trans {p q r : Position} (first : p.Before q) (second : q.Before r) :
    p.Before r := by
  unfold Before at *
  omega

theorem Position.not_before_trans {p q r : Position} (first : ¬ q.Before p)
    (second : ¬ r.Before q) :
    ¬ r.Before p := by
  unfold Before at *
  omega

theorem Position.before_of_not {p q r : Position} (first : p.Before q) (second : ¬ r.Before q) :
    p.Before r := by
  unfold Before at *
  omega

theorem Position.foldl_not_before : ∀ (chars : List Char) (p : Position),
    ¬ (chars.foldl Position.after p).Before p := by
  intro chars
  induction chars with
  | nil => exact Position.not_before_self
  | cons c chars ih =>
      intro p back
      exact ih (p.after c) (back.trans (p.before_after c))

theorem Position.before_foldl {chars : List Char} (some_ : chars ≠ []) (p : Position) :
    p.Before (chars.foldl Position.after p) := by
  cases chars with
  | nil => exact absurd rfl some_
  | cons c chars => exact before_of_not (p.before_after c) (foldl_not_before chars _)

end Source

namespace Submission

theorem gapPlaces_not_before {word : List Char} : ∀ (gaps : List (Option Char)) (p q : Position),
    q ∈ gapPlaces word p gaps → ¬ q.Before p := by
  intro gaps
  induction gaps with
  | nil =>
      intro p q member
      cases member
  | cons gap gaps ih =>
      intro p q member
      cases gap with
      | none =>
          rcases List.mem_cons.mp member with rfl | later
          · exact q.not_before_self
          · exact Position.not_before_trans (Position.foldl_not_before word p) (ih _ _ later)
      | some c =>
          have back : ¬ (p.after c).Before p := Position.foldl_not_before [c] p
          exact Position.not_before_trans back (ih _ _ member)

theorem gapPlaces_before {word : List Char} (some_ : word ≠ []) :
    ∀ (gaps : List (Option Char)) (p q : Position), q ∈ gapPlaces word p gaps →
      q.Before ((fill word gaps).foldl Position.after p) := by
  intro gaps
  induction gaps with
  | nil =>
      intro p q member
      cases member
  | cons gap gaps ih =>
      intro p q member
      cases gap with
      | none =>
          rw [fill_none, List.foldl_append]
          rcases List.mem_cons.mp member with rfl | later
          · exact Position.before_of_not (Position.before_foldl some_ q)
              (Position.foldl_not_before _ _)
          · exact ih _ _ later
      | some c => exact ih _ _ member

/-- Lists that are cut at the same place are the same if their parts are. -/
theorem append_eq_append_iff_of_cut {α : Type} (p : α → Prop) [DecidablePred p] {a b c d : List α}
    (first : ∀ x ∈ a, p x) (first' : ∀ x ∈ c, p x) (second : ∀ x ∈ b, ¬ p x)
    (second' : ∀ x ∈ d, ¬ p x) : a ++ b = c ++ d ↔ a = c ∧ b = d := by
  have cut {a b : List α} (first : ∀ x ∈ a, p x) (second : ∀ x ∈ b, ¬ p x) :
      (a ++ b).filter p = a := by
    rw [List.filter_append, List.filter_eq_self.mpr (by simpa using first),
      List.filter_eq_nil_iff.mpr (by simpa using second), List.append_nil]
  constructor
  · intro same
    have parts : a = c := by rw [← cut first second, same, cut first' second']
    rw [parts] at same
    exact ⟨parts, List.append_cancel_left same⟩
  · rintro ⟨rfl, rfl⟩
    rfl

/-! ## Texts with gaps, filled with either word -/

theorem fill_alike {word name : List Char}
    (word_ : ∃ c rest, word = c :: rest ∧ Cursor.isNameStart c = true)
    (name_ : ∃ c rest, name = c :: rest ∧ Cursor.isNameStart c = true) :
    ∀ gaps : List (Option Char), Alike (fill word gaps) (fill name gaps) := by
  obtain ⟨c, rest, rfl, start⟩ := word_
  obtain ⟨d, rest', rfl, start'⟩ := name_
  intro gaps
  induction gaps with
  | nil => exact .nil
  | cons gap gaps ih =>
      cases gap with
      | none => exact .names _ _ start start'
      | some e => exact .cons e ih

theorem fill_head {word name : List Char} {gaps : List (Option Char)}
    (noGap : gaps.head? ≠ some none) :
    (fill word gaps).head? = (fill name gaps).head? := by
  cases gaps with
  | nil => rfl
  | cons gap gaps =>
      cases gap with
      | none => exact absurd rfl noGap
      | some c => rfl

theorem fill_eq_of_notMem (word name : List Char) : ∀ {gaps : List (Option Char)}, none ∉ gaps →
    fill word gaps = fill name gaps := by
  intro gaps no
  induction gaps with
  | nil => rfl
  | cons gap gaps ih =>
      rw [List.mem_cons, not_or] at no
      cases gap with
      | none => exact absurd rfl no.1
      | some c => rw [fill_some, fill_some, ih no.2]

theorem length_fill (word name : List Char) (gaps : List (Option Char)) :
    (fill word gaps).length + gaps.count none * name.length =
      (fill name gaps).length + gaps.count none * word.length := by
  induction gaps with
  | nil => simp
  | cons gap gaps ih =>
      cases gap with
      | none =>
          simp only [fill_none, List.length_append, List.count_cons_self, Nat.succ_mul]
          omega
      | some c =>
          simp only [fill_some, List.length_cons, List.count_cons_of_ne (by simp : some c ≠ none)]
          omega

theorem word_eq_of_fill {word name : List Char} {gaps : List (Option Char)}
    (same : fill word gaps = fill name gaps) (gap : none ∈ gaps) : word = name := by
  have lengths := length_fill word name gaps
  have some_ : 0 < gaps.count none := List.count_pos_iff.mpr gap
  have length : word.length = name.length := by
    rw [same] at lengths
    exact (Nat.mul_left_cancel some_ (Nat.add_left_cancel lengths)).symm
  clear lengths some_
  induction gaps with
  | nil => cases gap
  | cons first gaps ih =>
      cases first with
      | none => exact (List.append_inj same length).1
      | some c =>
          rw [fill_some, fill_some, List.cons.injEq] at same
          exact ih same.2 (by simpa using gap)

theorem isNameStart_of_kind {bound : Nat} {c : Char} {rest : List Char}
    (kind : (firstPiece bound c rest).1.kind = .name) : isNameStart c = true := by
  have raw : (rawPiece rest).1.kind ≠ .name := by
    unfold rawPiece
    split <;> simp
  unfold firstPiece at kind
  split at kind
  · cases kind
  split at kind
  · cases kind
  split at kind
  · exact absurd kind raw
  split at kind
  · cases kind
  split at kind
  · cases kind
  split at kind
  · cases kind
  split at kind
  · assumption
  split at kind
  · cases kind
  split at kind
  · cases kind
  · cases kind
  · split at kind <;> cases kind
  · cases kind
  · cases kind

/-- In the middle of a piece the scanner does not see the word at once. -/
theorem head_gapsFrom {word : String} {run : Run} (inPiece : run ≠ .nothing) (chars : List Char) :
    (gapsFrom word run chars).head? ≠ some none := by
  cases chars with
  | nil => simp [gapsFrom_nil]
  | cons c rest =>
      cases takes : run.takes c with
      | true => simp [gapsFrom_takes takes]
      | false =>
          have noStart : isNameStart c ≠ true := by
            intro start
            have part := isNameStart_isNameChar start
            cases run with
            | nothing => exact inPiece rfl
            | number => simp [Run.takes, isNumberChar, part] at takes
            | name => simp [Run.takes, part] at takes
          have noWord : (firstPiece rest.length c rest).1.isWord word = false :=
            noWord_of_kind fun kind => noStart (isNameStart_of_kind kind)
          have chars := chars_firstPiece rest.length c rest
          have shorter := length_firstPiece rest.length c rest
          rw [gapsFrom_stops _ _ takes, gapsFrom_piece noWord rfl chars.symm]
          cases taken : (firstPiece rest.length c rest).1.chars with
          | nil =>
              rw [taken, List.nil_append] at chars
              rw [chars, List.length_cons] at shorter
              omega
          | cons d more => simp

/-! ## One step -/

theorem readAs_endOfLastLine : ReadAs true [] [.mark .semi, .endOfText] := by
  intro n cur read text _ mayEnd
  refine ⟨⟨.endOfText, cur.position⟩ :: Cursor.endLine cur.position read, ?_, ?_⟩
  · cases n with
    | zero => rfl
    | succ n => simp only [Cursor.readTokens, text]
  · rw [endLine_of_true mayEnd]
    simp

/-- What a step has read it reads wherever the text goes on in a way that looks the same. -/
theorem lexesWithin_of_step {bound : Nat} {cur after : Cursor} {first : Char} {rest : List Char}
    {lexeme : Lexeme} (text : cur.rest = first :: rest)
    (step : cur.step bound first = .ok (lexeme, after)) :
    ∃ others, cur.Passes (first :: others) after ∧ ∀ rest', Alike after.rest rest' →
      (lexeme.isNumber = true → after.rest.head? = rest'.head?) →
      LexesWithin first (others ++ rest') lexeme rest' := by
  obtain ⟨others, passes, again⟩ := Cursor.step_spans text step
  refine ⟨others, passes, fun rest' alike same cur' bound' text' enough => ?_⟩
  have passes' : cur'.Passes (first :: others) (cur'.skip (first :: others).length) :=
    Cursor.passes_skip text'
  have left := List.append_cancel_left (passes'.1.symm.trans text')
  rw [List.length_append] at enough
  refine ⟨_, again passes' (by omega) (left ▸ alike) (left ▸ same), left⟩

theorem isNameChar_of_start (c : Char) (start : Cursor.isNameStart c = true) :
    Cursor.isNameChar c = true := by
  simp only [Cursor.isNameStart, Bool.and_eq_true] at start
  exact start.1

/-- The lexer reads a name wherever it stands before the same kind of text. -/
theorem lexesWithin_name {name : String} {rest : List Char} (isName : GuestName name rest) :
    ∃ first others, name.toList = first :: others ∧
      LexesWithin first (others ++ rest) (.token (wordToken name)) rest := by
  obtain ⟨⟨first, others, chars, start⟩, names, stops⟩ := isName
  refine ⟨first, others, chars, (lexesAs_word chars start (fun c member => ?_) stops).within⟩
  exact names c (by rw [chars]; exact List.mem_cons_of_mem first member)

theorem guestName_of_identifier {name : String} (identifier : isIdentifier name = true)
    {rest : List Char} (stops : Stops Cursor.isNameChar rest) : GuestName name rest := by
  unfold isIdentifier at identifier
  cases chars : name.toList with
  | nil => simp [chars] at identifier
  | cons c others =>
      rw [chars] at identifier
      simp only [Bool.and_eq_true, List.all_eq_true] at identifier
      obtain ⟨start, parts⟩ := identifier
      refine ⟨⟨c, others, chars, isNameStart_wider start⟩, fun d member => ?_, stops⟩
      rw [chars] at member
      rcases List.mem_cons.mp member with rfl | later
      · exact isNameChar_wider (isNameStart_isNameChar start)
      · exact isNameChar_wider (parts d later)

/-- A name with a character outside of the basic alphabet is not reserved. -/
theorem wordToken_foreign {name : String} {c : Char} (member : c ∈ name.toList)
    (foreign : 128 ≤ c.toNat) : wordToken name = .name name := by
  refine wordToken_of_none ?_
  cases found : Keyword.ofWord? name with
  | none => rfl
  | some k =>
      have basic : ∀ entry ∈ Keyword.spellings, entry.1.toList.all fun d => d.toNat < 128 := by
        decide
      obtain ⟨before, behind, listed, _⟩ := List.lookup_eq_some_iff.mp found
      have all := List.all_eq_true.mp (basic (name, k) (by simp [listed])) c member
      simp only [decide_eq_true_eq] at all
      omega

theorem gapPlaces_eq_nil_iff {word : List Char} : ∀ {gaps : List (Option Char)} (place : Position),
    gapPlaces word place gaps = [] ↔ none ∉ gaps := by
  intro gaps
  induction gaps with
  | nil => simp [gapPlaces]
  | cons gap gaps ih =>
      intro place
      cases gap with
      | none => simp [gapPlaces]
      | some c => simp [gapPlaces, ih]

/-! ## The host call -/

theorem hostCall_begins :
    ∀ c, canonicalHostCall.toList.head? = some c → isNumberLetter c = false := by
  have chars : canonicalHostCall.toList = ['c', 'a', 'l', 'l', 'T', 'o', 'o', 'l'] := by
    decide
  rw [chars]
  rintro c ⟨⟩
  rfl

theorem hostCall_basic : ∀ c ∈ canonicalHostCall.toList, c.toNat < 128 := by
  have all : (canonicalHostCall.toList.all fun c => c.toNat < 128) = true := by decide
  intro c member
  simpa using List.all_eq_true.mp all c member

theorem hostCall_identifier : isIdentifier canonicalHostCall = true := by decide +kernel

theorem hostCall_token : wordToken canonicalHostCall = .name canonicalHostCall :=
  wordToken_of_none (by decide)

/-- What the lexer reads of a lexeme in the renamed text, and when it is the lexeme renamed. -/
inductive LexemeRenamed (name : String) (place : Position) (gaps : List (Option Char)) :
    Lexeme → Lexeme → Prop
  | newline (no : none ∉ gaps) : LexemeRenamed name place gaps .newline .newline
  | blank (no : none ∉ gaps) : LexemeRenamed name place gaps .blank .blank
  | token {t t' : Token}
      (same : t' = t.renamed canonicalHostCall name ↔
        gapPlaces canonicalHostCall.toList place gaps =
            (if t.isNamed canonicalHostCall then [place] else []) ∧
          (Keyword.ofWord? name = none ∨ t.isNamed canonicalHostCall = false)) :
      LexemeRenamed name place gaps (.token t) (.token t')

theorem LexemeRenamed.token_iff {name : String} {place : Position} {gaps : List (Option Char)}
    {t t' : Token} (renamed : LexemeRenamed name place gaps (.token t) (.token t')) :
    t' = t.renamed canonicalHostCall name ↔
      gapPlaces canonicalHostCall.toList place gaps =
          (if t.isNamed canonicalHostCall then [place] else []) ∧
        (Keyword.ofWord? name = none ∨ t.isNamed canonicalHostCall = false) := by
  cases renamed with
  | token same => exact same

section

variable {name : String} (identifier : isIdentifier name = true)
  (differs : name ≠ canonicalHostCall)

include differs in
theorem lexemeRenamed_nowhere {gaps : List (Option Char)} (no : none ∉ gaps) (place : Position)
    (lexeme : Lexeme) : LexemeRenamed name place gaps lexeme lexeme := by
  cases lexeme with
  | newline => exact .newline no
  | blank => exact .blank no
  | token t =>
      refine .token ?_
      rw [(gapPlaces_eq_nil_iff place).mpr no]
      cases t with
      | name w =>
          by_cases isWord : w = canonicalHostCall
          · simp [Token.renamed, Token.isNamed, isWord, Ne.symm differs]
          · simp [Token.renamed, Token.isNamed, isWord]
      | _ => simp [Token.renamed, Token.isNamed]

theorem lexemeRenamed_whole (place : Position) :
    LexemeRenamed name place [none] (.token (wordToken canonicalHostCall))
      (.token (wordToken name)) := by
  refine .token ?_
  rw [hostCall_token]
  simp only [Token.renamed, Token.isNamed, if_true, decide_true, gapPlaces, true_and,
    Bool.true_eq_false, or_false]
  constructor
  · intro isName
    cases found : Keyword.ofWord? name with
    | none => rfl
    | some k =>
        rw [wordToken_of_some found] at isName
        cases isName
  · exact wordToken_of_none

include differs in
/-- A name that the scanner sees only a part of becomes a name that it should not become. -/
theorem lexemeRenamed_inside {w w' : String} {c : Char} {gaps : List (Option Char)}
    (foreign : 128 ≤ c.toNat) (member : some c ∈ gaps)
    (spelled : fill canonicalHostCall.toList gaps = w.toList)
    (spelled' : fill name.toList gaps = w'.toList) (gap : none ∈ gaps) (place : Position) :
    LexemeRenamed name place gaps (.token (wordToken w)) (.token (wordToken w')) := by
  have inFilled (word : List Char) : c ∈ fill word gaps :=
    List.mem_flatMap.mpr ⟨some c, member, List.mem_singleton_self c⟩
  have noHostCall : w ≠ canonicalHostCall := by
    rintro rfl
    have small := hostCall_basic c (spelled ▸ inFilled _)
    omega
  have other : w' ≠ w := by
    rintro rfl
    exact differs (String.toList_injective (word_eq_of_fill (spelled.trans spelled'.symm) gap)).symm
  have somewhere : gapPlaces canonicalHostCall.toList place gaps ≠ [] := by
    rw [Ne, gapPlaces_eq_nil_iff]
    exact not_not_intro gap
  rw [wordToken_foreign (spelled ▸ inFilled _) foreign,
    wordToken_foreign (spelled' ▸ inFilled _) foreign]
  refine .token ?_
  simp [Token.renamed, Token.isNamed, noHostCall, other, somewhere]

include identifier in
theorem guestName_filled {word w : String} {behind behind' : List Char}
    {gaps : List (Option Char)} (isName : GuestName w behind)
    (spelled : fill word.toList gaps = w.toList) (stops : Stops Cursor.isNameChar behind') :
    GuestName (String.ofList (fill name.toList gaps)) behind' := by
  have new := guestName_of_identifier identifier stops
  refine ⟨?_, fun c member => ?_, stops⟩
  · obtain ⟨first, others, chars, start⟩ := isName.start
    obtain ⟨first', others', chars', start'⟩ := new.start
    rw [String.toList_ofList]
    cases gaps with
    | nil =>
        rw [← spelled] at chars
        cases chars
    | cons gap gaps =>
        cases gap with
        | none =>
            exact ⟨first', others' ++ fill name.toList gaps, by rw [fill_none, chars']; rfl, start'⟩
        | some c =>
            rw [← spelled, fill_some, List.cons.injEq] at chars
            exact ⟨first, fill name.toList gaps, by rw [fill_some, chars.1], start⟩
  · rw [String.toList_ofList] at member
    by_cases inName : c ∈ name.toList
    · exact new.names c inName
    · refine isName.names c ?_
      rw [← spelled]
      exact List.mem_flatMap.mpr ⟨some c, mem_fill member inName, List.mem_singleton_self c⟩

include identifier differs in
theorem renamed_step {bound : Nat} {cur after : Cursor} {first : Char} {rest others : List Char}
    {lexeme : Lexeme} (text : cur.rest = first :: rest)
    (step : cur.step bound first = .ok (lexeme, after))
    (passes : cur.Passes (first :: others) after)
    {run run' : Run} {gaps : List (Option Char)}
    (follows : Follows canonicalHostCall run (first :: rest) lexeme (first :: others) after.rest
      run' gaps) (place : Position) :
    ∃ first' others' lexeme',
      fill name.toList (gapsFrom canonicalHostCall run (first :: rest)) = first' :: others' ∧
      LexesWithin first' others' lexeme'
        (fill name.toList (gapsFrom canonicalHostCall run' after.rest)) ∧
      LexemeRenamed name place gaps lexeme lexeme' := by
  let behind' := fill name.toList (gapsFrom canonicalHostCall run' after.rest)
  have opens {word : String} (identifier : isIdentifier word = true) :
      ∃ c rest, word.toList = c :: rest ∧ Cursor.isNameStart c = true :=
    (guestName_of_identifier identifier (show Stops Cursor.isNameChar [] from nofun)).start
  have alike : Alike after.rest behind' := by
    have filled := fill_alike (opens hostCall_identifier) (opens identifier)
      (gapsFrom canonicalHostCall run' after.rest)
    rw [fill_gapsFrom] at filled
    exact filled
  have goesOn : fill name.toList (gapsFrom canonicalHostCall run (first :: rest)) =
      fill name.toList gaps ++ behind' := by
    rw [follows.goesOn, fill_append]
  have sameHead (number : lexeme.isNumber = true) : after.rest.head? = behind'.head? := by
    conv => lhs; rw [← fill_gapsFrom canonicalHostCall run' after.rest]
    exact fill_head (head_gapsFrom (follows.inPiece number) after.rest)
  have unseen (no : none ∉ gaps) : ∃ first' others' lexeme',
      fill name.toList gaps ++ behind' = first' :: others' ∧
      LexesWithin first' others' lexeme' behind' ∧
      LexemeRenamed name place gaps lexeme lexeme' := by
    obtain ⟨others', passes', again⟩ := lexesWithin_of_step text step
    refine ⟨first, others' ++ behind', lexeme, ?_, again behind' alike sameHead,
      lexemeRenamed_nowhere differs no place lexeme⟩
    rw [← fill_eq_of_notMem canonicalHostCall.toList name.toList no, follows.filled,
      List.append_cancel_right (passes.1.symm.trans passes'.1)]
    rfl
  rw [goesOn]
  obtain seen := follows.seen
  cases seen with
  | nowhere _ no => exact unseen no
  | whole isName =>
      obtain ⟨first', others', chars, lexes⟩ := lexesWithin_name
        (guestName_of_identifier identifier (alike.stops isNameChar_of_start isName.stops))
      refine ⟨first', others' ++ behind', _, ?_, lexes, lexemeRenamed_whole place⟩
      rw [fill_none, fill_nil, List.append_nil, chars]
      rfl
  | inside isName foreign member spelled =>
      by_cases gap : none ∈ gaps
      · have isName' := guestName_filled identifier isName spelled
          (alike.stops isNameChar_of_start isName.stops)
        obtain ⟨first', others', chars, lexes⟩ := lexesWithin_name isName'
        refine ⟨first', others' ++ behind', _, ?_, lexes,
          lexemeRenamed_inside differs foreign member spelled String.toList_ofList.symm gap place⟩
        rw [String.toList_ofList] at chars
        rw [chars]
        rfl
      · exact unseen gap

/-! ## A whole text -/

/-- The scanner sees the host call where the lexer reads it, and it can be renamed there. -/
def FaithfulFrom (name : String) (place : Position) (gaps : List (Option Char))
    (tokens : List Located) : Prop :=
  gapPlaces canonicalHostCall.toList place gaps = namePlaces canonicalHostCall tokens ∧
    (Keyword.ofWord? name = none ∨ namePlaces canonicalHostCall tokens = [])

theorem namePlaces_cons (word : String) (t : Located) (tokens : List Located) :
    namePlaces word (t :: tokens) =
      (if t.token.isNamed word then [t.position] else []) ++ namePlaces word tokens := by
  unfold namePlaces
  cases named : t.token.isNamed word <;> simp [named]

theorem faithfulFrom_token (name : String) {place : Position} {t : Token}
    {gaps gaps' : List (Option Char)} {tokens : List Located}
    (some_ : fill canonicalHostCall.toList gaps ≠ [])
    (later : ∀ t ∈ tokens, ¬ t.position.Before
      ((fill canonicalHostCall.toList gaps).foldl Position.after place)) :
    FaithfulFrom name place (gaps ++ gaps') (⟨t, place⟩ :: tokens) ↔
      (gapPlaces canonicalHostCall.toList place gaps =
          (if t.isNamed canonicalHostCall then [place] else []) ∧
        (Keyword.ofWord? name = none ∨ t.isNamed canonicalHostCall = false)) ∧
      FaithfulFrom name ((fill canonicalHostCall.toList gaps).foldl Position.after place) gaps'
        tokens := by
  have wordSome : canonicalHostCall.toList ≠ [] := by decide
  have cut := append_eq_append_iff_of_cut
    (fun p : Position => p.Before ((fill canonicalHostCall.toList gaps).foldl Position.after place))
    (a := gapPlaces canonicalHostCall.toList place gaps)
    (c := if t.isNamed canonicalHostCall then [place] else [])
    (b := gapPlaces canonicalHostCall.toList
      ((fill canonicalHostCall.toList gaps).foldl Position.after place) gaps')
    (d := namePlaces canonicalHostCall tokens)
    (fun p member => gapPlaces_before wordSome gaps place p member) ?_
    (fun p member => gapPlaces_not_before gaps' _ p member) ?_
  · unfold FaithfulFrom
    rw [namePlaces_cons, gapPlaces_append, cut]
    cases t.isNamed canonicalHostCall with
    | false => simp [and_assoc]
    | true =>
        simp only [if_true, Bool.true_eq_false, or_false, List.append_eq_nil_iff, List.cons_ne_nil,
          false_and]
        constructor
        · rintro ⟨⟨seen, others⟩, free⟩
          exact ⟨⟨seen, free⟩, others, .inl free⟩
        · rintro ⟨⟨seen, free⟩, others, _⟩
          exact ⟨⟨seen, others⟩, free⟩
  · intro p member
    split at member
    · rw [List.mem_singleton.mp member]
      exact Position.before_foldl some_ place
    · cases member
  · intro p member
    obtain ⟨t', inTokens, rfl⟩ := List.mem_map.mp member
    exact later t' (List.mem_filter.mp inTokens).1

/-- What is added to the tokens that were read before, and how the renamed text is read. -/
def RenamedFrom (name : String) (cur : Cursor) (read : List Located) (gaps : List (Option Char))
    (new : List Located) : Prop :=
  (∀ t ∈ new, ¬ t.position.Before cur.position) ∧
    ∀ mayEnd, ∃ ts, ReadAs mayEnd (fill name.toList gaps) ts ∧
      (mayEnd = mayEndBehind read →
        (ts = new.map (fun t => t.token.renamed canonicalHostCall name) ↔
          FaithfulFrom name cur.position gaps new))

theorem renamedFrom_end (name : String) (cur : Cursor) (read : List Located) :
    ∃ new, (⟨.endOfText, cur.position⟩ :: Cursor.endLine cur.position read).reverse =
        read.reverse ++ new ∧ RenamedFrom name cur read [] new := by
  have reads : ∀ mayEnd, ReadAs mayEnd []
    (if mayEnd then [.mark .semi, .endOfText] else [.endOfText])
    | true => readAs_endOfLastLine
    | false => readAs_nil
  cases h : mayEndBehind read with
  | false =>
      rw [endLine_of_false h]
      refine ⟨[⟨.endOfText, cur.position⟩], by simp, by simp [Position.not_before_self], ?_⟩
      refine fun mayEnd => ⟨_, reads mayEnd, ?_⟩
      rw [h]
      rintro rfl
      simp [FaithfulFrom, gapPlaces, namePlaces, Token.renamed, Token.isNamed]
  | true =>
      rw [endLine_of_true h]
      refine ⟨[⟨.mark .semi, cur.position⟩, ⟨.endOfText, cur.position⟩], by simp,
        by simp [Position.not_before_self], ?_⟩
      refine fun mayEnd => ⟨_, reads mayEnd, ?_⟩
      rw [h]
      rintro rfl
      simp [FaithfulFrom, gapPlaces, namePlaces, Token.renamed, Token.isNamed]

theorem endsStatement_renamed (t : Token) (old new : String) :
    (t.renamed old new).endsStatement = t.endsStatement := by
  cases t <;> rfl

section

variable {cur after : Cursor} {first : Char} {rest taken : List Char} {read new : List Located}
  {first' : Char} {others' : List Char} {gaps gaps' : List (Option Char)}

theorem later_of_passes (passes : cur.Passes taken after)
    (later : ∀ t ∈ new, ¬ t.position.Before after.position) :
    ∀ t ∈ new, ¬ t.position.Before cur.position := by
  intro t member
  refine Position.not_before_trans ?_ (later t member)
  rw [passes.2]
  exact Position.foldl_not_before taken cur.position

theorem faithfulFrom_noToken (passes : cur.Passes taken after)
    (filled : fill canonicalHostCall.toList gaps = taken) (no : none ∉ gaps) :
    FaithfulFrom name cur.position (gaps ++ gaps') new ↔
      FaithfulFrom name after.position gaps' new := by
  unfold FaithfulFrom
  rw [gapPlaces_append, (gapPlaces_eq_nil_iff cur.position).mpr no, filled, ← passes.2,
    List.nil_append]

theorem faithfulFrom_semi (place position : Position) :
    FaithfulFrom name place gaps (⟨.mark .semi, position⟩ :: new) ↔
      FaithfulFrom name place gaps new := by
  simp only [FaithfulFrom, namePlaces_cons, Token.isNamed, Bool.false_eq_true, if_false,
    List.nil_append]

theorem renamedFrom_token {t t' : Token} (passes : cur.Passes taken after) (some_ : taken ≠ [])
    (filled : fill canonicalHostCall.toList gaps = taken)
    (lexes : LexesWithin first' others' (.token t') (fill name.toList gaps'))
    (begins : fill name.toList (gaps ++ gaps') = first' :: others')
    (renamed : LexemeRenamed name cur.position gaps (.token t) (.token t'))
    (onward : RenamedFrom name after (⟨t, cur.position⟩ :: read) gaps' new) :
    RenamedFrom name cur read (gaps ++ gaps') (⟨t, cur.position⟩ :: new) := by
  obtain ⟨later, reads⟩ := onward
  obtain ⟨ts, more, faithful⟩ := reads t'.endsStatement
  have same := renamed.token_iff
  refine ⟨fun t' member => ?_, fun mayEnd => ⟨t' :: ts, begins ▸ .token lexes more, fun _ => ?_⟩⟩
  · rcases List.mem_cons.mp member with rfl | inNew
    · exact Position.not_before_self _
    · exact later_of_passes passes later t' inNew
  · rw [faithfulFrom_token name (filled ▸ some_) (by rw [filled, ← passes.2]; exact later), filled,
      ← passes.2, ← same, List.map_cons, List.cons.injEq]
    refine and_congr_right fun isRenamed => faithful ?_
    rw [isRenamed, endsStatement_renamed]
    rfl

theorem renamedFrom_newline (passes : cur.Passes taken after)
    (filled : fill canonicalHostCall.toList gaps = taken) (no : none ∉ gaps)
    (lexes : LexesWithin first' others' .newline (fill name.toList gaps'))
    (begins : fill name.toList (gaps ++ gaps') = first' :: others')
    (onward : RenamedFrom name after (Cursor.endLine cur.position read) gaps' new) :
    ∃ new', (Cursor.endLine cur.position read).reverse ++ new = read.reverse ++ new' ∧
      RenamedFrom name cur read (gaps ++ gaps') new' := by
  obtain ⟨later, reads⟩ := onward
  obtain ⟨ts, more, faithful⟩ := reads false
  rw [mayEndBehind_endLine] at faithful
  have faithful := faithful rfl
  rw [← faithfulFrom_noToken passes filled no] at faithful
  have others := later_of_passes passes later
  cases h : mayEndBehind read with
  | false =>
      rw [endLine_of_false h]
      refine ⟨new, rfl, others, fun mayEnd => ⟨_, begins ▸ ReadAs.newline lexes more, ?_⟩⟩
      rw [h]
      rintro rfl
      exact faithful
  | true =>
      rw [endLine_of_true h]
      refine ⟨⟨.mark .semi, cur.position⟩ :: new, by simp, fun t member => ?_,
        fun mayEnd => ⟨_, begins ▸ ReadAs.newline lexes more, ?_⟩⟩
      · rcases List.mem_cons.mp member with rfl | inNew
        · exact Position.not_before_self _
        · exact others t inNew
      · rw [h]
        rintro rfl
        rw [faithfulFrom_semi, ← faithful, if_pos rfl, List.map_cons, List.cons.injEq]
        exact and_iff_right rfl

theorem renamedFrom_blank (passes : cur.Passes taken after)
    (filled : fill canonicalHostCall.toList gaps = taken) (no : none ∉ gaps)
    (lexes : LexesWithin first' others' .blank (fill name.toList gaps'))
    (begins : fill name.toList (gaps ++ gaps') = first' :: others')
    (onward : RenamedFrom name after read gaps' new) :
    RenamedFrom name cur read (gaps ++ gaps') new := by
  obtain ⟨later, reads⟩ := onward
  refine ⟨later_of_passes passes later, fun mayEnd => ?_⟩
  obtain ⟨ts, more, faithful⟩ := reads mayEnd
  refine ⟨ts, begins ▸ .blank lexes more, fun isMayEnd => ?_⟩
  rw [faithfulFrom_noToken passes filled no]
  exact faithful isMayEnd

end

include identifier differs in
/-- The renamed text is read to its end, whatever the scanner is in the middle of. -/
theorem readTokens_renamed : ∀ (steps : Nat) (cur : Cursor) (read : List Located) (run : Run)
    {result : List Located}, cur.rest.length ≤ steps →
      Cursor.readTokens steps cur read = .ok result →
      (run = .name → ∀ d, cur.rest.head? = some d → d.isDigit = false) →
      ∃ new, result.reverse = read.reverse ++ new ∧
        RenamedFrom name cur read (gapsFrom canonicalHostCall run cur.rest) new := by
  intro steps
  induction steps with
  | zero =>
      intro cur read run result enough ran _
      have empty : cur.rest = [] := List.eq_nil_of_length_eq_zero (by omega)
      rw [← Except.ok.inj ran, empty]
      exact renamedFrom_end name cur read
  | succ steps ih =>
      intro cur read run result enough ran fits
      unfold Cursor.readTokens at ran
      cases text : cur.rest with
      | nil =>
          simp only [text] at ran
          rw [← Except.ok.inj ran]
          exact renamedFrom_end name cur read
      | cons first rest =>
          simp only [text] at ran
          cases step : cur.step steps first with
          | error e =>
              simp only [step] at ran
              cases ran
          | ok one =>
              obtain ⟨lexeme, after⟩ := one
              obtain ⟨others, passes, _⟩ := lexesWithin_of_step text step
              obtain ⟨run', gaps, follows⟩ := follows_step hostCall_begins hostCall_basic text step
                passes fun isName => fits isName first (by rw [text]; rfl)
              obtain ⟨first', others', lexeme', begins, lexes, renamed⟩ :=
                renamed_step identifier differs text step passes follows cur.position
              rw [follows.goesOn] at begins ⊢
              have short : after.rest.length ≤ steps := by
                have shorter := Cursor.step_shorter text step
                omega
              have onward (read' : List Located)
                (ran : Cursor.readTokens steps after read' = .ok result) :=
                ih after read' run' short ran
              rw [step] at ran
              cases renamed with
              | newline no =>
                  obtain ⟨new, same, renamedFrom⟩ := onward _ ran follows.fits
                  rw [same]
                  exact renamedFrom_newline passes follows.filled no lexes begins renamedFrom
              | blank no =>
                  obtain ⟨new, same, renamedFrom⟩ := onward _ ran follows.fits
                  exact ⟨new, same,
                    renamedFrom_blank passes follows.filled no lexes begins renamedFrom⟩
              | @token t t' same =>
                  obtain ⟨new, parts, renamedFrom⟩ :=
                    onward (⟨t, cur.position⟩ :: read) ran follows.fits
                  refine ⟨⟨t, cur.position⟩ :: new, by rw [parts]; simp, ?_⟩
                  exact renamedFrom_token passes (List.cons_ne_nil _ _) follows.filled lexes begins
                    (.token same) renamedFrom

end

/-! ## Settings -/

theorem bridgeName_identifier {settings : Settings} (usable : settings.fault? = none) :
    isIdentifier settings.interpreter.bridgeName = true := by
  unfold Settings.fault? at usable
  split_ifs at usable with _ _ _ _ _ invalid
  simpa using invalid

theorem renamed_self (t : Token) (word : String) : t.renamed word word = t := by
  cases t with
  | name w =>
      simp only [Token.renamed, Token.name.injEq]
      split
      · rename_i same
        exact same.symm
      · rfl
  | _ => rfl

theorem withHostCallsRenamed_self (source : String) :
    withHostCallsRenamed source canonicalHostCall = source := by
  unfold withHostCallsRenamed
  rw [rename_eq_fill, fill_pieces _ _ (Nat.le_refl _), String.ofList_toList]

end Submission

/-- The text with its host calls renamed to the bridge name of usable settings is always read.  Its
tokens are those of the text, renamed, exactly if the scanner sees the host call at the places where
the lexer reads it and the bridge name is not reserved. -/
theorem renaming_faithful_iff {source : String} {tokens : List Located} {settings : Settings}
    (accepted : tokenize source = .ok tokens) (usable : settings.fault? = none) :
    ∃ renamed,
      tokenize (withHostCallsRenamed source settings.interpreter.bridgeName) = .ok renamed ∧
      (renamed.map Located.token =
          tokens.map (fun t => t.token.renamed canonicalHostCall settings.interpreter.bridgeName) ↔
        settings.interpreter.bridgeName = canonicalHostCall ∨
          placesSeen canonicalHostCall source = namePlaces canonicalHostCall tokens ∧
            (Keyword.ofWord? settings.interpreter.bridgeName = none ∨
              namePlaces canonicalHostCall tokens = [])) := by
  by_cases same : settings.interpreter.bridgeName = canonicalHostCall
  · rw [same, withHostCallsRenamed_self]
    refine ⟨tokens, accepted, iff_of_true ?_ (.inl rfl)⟩
    exact List.map_congr_left fun t _ => (renamed_self t.token canonicalHostCall).symm
  · have identifier := bridgeName_identifier usable
    unfold tokenize at accepted
    cases ran : Cursor.readTokens (Cursor.ofText source).rest.length (Cursor.ofText source) [] with
    | error e =>
        simp only [ran] at accepted
        cases accepted
    | ok result =>
        simp only [ran] at accepted
        obtain rfl : result.reverse = tokens := Except.ok.inj accepted
        obtain ⟨new, parts, _, reads⟩ := readTokens_renamed identifier same _ _ [] .nothing
          (Nat.le_refl _) ran (by simp)
        obtain ⟨ts, readAs, faithful⟩ := reads false
        have text : (withHostCallsRenamed source settings.interpreter.bridgeName).toList =
            fill settings.interpreter.bridgeName.toList
              (gapsFrom canonicalHostCall .nothing (Cursor.ofText source).rest) := by
          rw [withHostCallsRenamed, String.toList_ofList, rename_eq_fill, gapsFrom_nothing]
          rfl
        rw [← text] at readAs
        obtain ⟨renamed, lexed, areTokens⟩ := tokenize_of_readAs readAs
        refine ⟨renamed, lexed, ?_⟩
        rw [areTokens, show result.reverse = new from parts, faithful rfl, or_iff_right same,
          placesSeen, wordPlaces_eq_gapPlaces, FaithfulFrom, gapsFrom_nothing]
        rfl

/-- The settings that bind the host to a name. -/
def bridgedAs (name : String) : Settings := { interpreter := { bridgeName := name } }

theorem renaming_faithful_iff_call :
    ∃ tokens renamed, tokenize "callTool()" = .ok tokens ∧ (bridgedAs "hostCall").fault? = none ∧
      tokenize (withHostCallsRenamed "callTool()" "hostCall") = .ok renamed ∧
      renamed.map Located.token =
        tokens.map (fun t => t.token.renamed canonicalHostCall "hostCall") := by
  have read : (tokenize "callTool()").toOption.map (namePlaces canonicalHostCall) =
      some (placesSeen canonicalHostCall "callTool()") := by decide +kernel
  have usable : (bridgedAs "hostCall").fault? = none := by decide +kernel
  cases accepted : tokenize "callTool()" with
  | error e =>
      rw [accepted] at read
      cases read
  | ok tokens =>
      rw [accepted] at read
      have places := Option.some.inj read
      obtain ⟨renamed, lexed, faithful⟩ := renaming_faithful_iff accepted usable
      refine ⟨tokens, renamed, rfl, usable, lexed, faithful.mpr (.inr ⟨places.symm, .inl ?_⟩)⟩
      decide +kernel

/-- A sign that is a part of the name for the lexer and not for the scanner. -/
theorem renaming_unfaithful_euro :
    ∃ tokens renamed, tokenize "callTool€" = .ok tokens ∧ (bridgedAs "hostCall").fault? = none ∧
      tokenize (withHostCallsRenamed "callTool€" "hostCall") = .ok renamed ∧
      renamed.map Located.token ≠
        tokens.map (fun t => t.token.renamed canonicalHostCall "hostCall") := by
  have before : (tokenize "callTool€").toOption.map (fun tokens =>
      (tokens.map fun t => t.token.renamed canonicalHostCall "hostCall").any (·.isNamed "hostCall€")) =
        some false := by decide +kernel
  have behind : (tokenize (withHostCallsRenamed "callTool€" "hostCall")).toOption.map
      (fun tokens => (tokens.map Located.token).any (·.isNamed "hostCall€")) = some true := by
    decide +kernel
  cases accepted : tokenize "callTool€" with
  | error e =>
      rw [accepted] at before
      cases before
  | ok tokens =>
      cases lexed : tokenize (withHostCallsRenamed "callTool€" "hostCall") with
      | error e =>
          rw [lexed] at behind
          cases behind
      | ok renamed =>
          rw [accepted] at before
          rw [lexed] at behind
          simp only [Except.toOption, Option.map_some, Option.some.injEq] at before behind
          refine ⟨tokens, renamed, rfl, by decide +kernel, rfl, fun same => ?_⟩
          rw [same, before] at behind
          cases behind

end SandboxedGo
