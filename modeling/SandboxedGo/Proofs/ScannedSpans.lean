import SandboxedGo.Proofs.FencedPrograms
import SandboxedGo.Proofs.ScannedBytes

/-!
# The tokens that a look by bytes finds

Step by step the look by bytes comes from one beginning of a character to a later one, and so to the
end of every text.  It finds the tokens that the look by characters finds, each between the offsets
of its first and behind its last character; between them is nothing but white space and comments.
Main statement: `scan?_covers`.
-/

set_option autoImplicit false

namespace SandboxedGo.Submission

open Text (BytesFrom IsBoundary Reached breakOn byteLength byteLength_append byteLength_toList
  encoded length_encoded)

variable {chars left : List Char} {c : Char} {rest : List Char} {i : Nat}

/-! ## Steps -/

/-- The offsets of tokens among pieces, the first of which begins at a given one. -/
def spansFrom : (start : Nat) → List Piece → List Span
  | _, [] => []
  | start, p :: ps =>
    if p.kind = .blank then spansFrom (start + byteLength p.chars) ps
    else
      ⟨p.kind, start, start + byteLength p.chars⟩ :: spansFrom (start + byteLength p.chars) ps

theorem byteLength_firstPiece (bound : Nat) (c : Char) (rest : List Char) :
    0 < byteLength (firstPiece bound c rest).1.chars := by
  obtain ⟨taken, begins⟩ := firstPiece_begins bound c rest
  rw [begins, byteLength]
  exact Nat.add_pos_left c.utf8Size_pos _

theorem reached_firstPiece (reached : Reached chars i (c :: rest)) (bound : Nat) :
    Reached chars (i + byteLength (firstPiece bound c rest).1.chars) (firstPiece bound c rest).2 :=
  Reached.skip ((chars_firstPiece bound c rest).symm ▸ reached)

theorem scanStep?_firstPiece (reached : Reached chars i (c :: rest)) :
    scanStep? chars i = some ((firstPiece rest.length c rest).1.kind,
      i + byteLength (firstPiece rest.length c rest).1.chars) := by
  obtain ⟨stop, seen, stands⟩ := scanStep?_agrees reached
  rw [← chars_firstPiece rest.length c rest] at reached
  rw [seen, reached.offset_eq stands]

theorem scanFrom?_ends (reached : Reached chars i []) : scanFrom? chars i = some [] := by
  rw [scanFrom?, dif_neg (Nat.not_lt_of_ge (Nat.le_of_eq reached.bytes.ends.symm))]

/-- From the beginning of a character on, the tokens of the pieces there are found. -/
theorem scanFrom?_agrees : ∀ (n : Nat) (left : List Char) {i : Nat}, left.length ≤ n →
    Reached chars i left → scanFrom? chars i = some (spansFrom i (pieces left)) := by
  intro n
  induction n with
  | zero =>
      intro left i short reached
      obtain rfl := List.eq_nil_of_length_eq_zero (Nat.le_zero.mp short)
      exact scanFrom?_ends reached
  | succ n ih =>
      intro left i short reached
      cases left with
      | nil => exact scanFrom?_ends reached
      | cons c rest =>
          have inside : i < (encoded chars).length := by
            have length := reached.bytes.length
            have size := c.utf8Size_pos
            rw [length_encoded (c :: rest), byteLength] at length
            omega
          have onward := byteLength_firstPiece rest.length c rest
          have shorter := length_firstPiece rest.length c rest
          rw [List.length_cons] at short
          rw [scanFrom?, dif_pos inside, scanStep?_firstPiece reached]
          dsimp only
          rw [dif_pos (Nat.lt_add_of_pos_right onward),
            ih _ (by omega) (reached_firstPiece reached rest.length), pieces_cons, spansFrom]
          rfl

theorem scan?_eq (source : String) : scan? source = some (spansFrom 0 (pieces source.toList)) :=
  scanFrom?_agrees _ source.toList (Nat.le_refl _) (.start _)

/-- The escape ends behind the first byte of a character, the second one of which is no text. -/
example : scan? "\"\\x1é\" x" = some [⟨.text "\x00\ufffd", 0, 7⟩, ⟨.name, 8, 9⟩] := by
  rw [scan?_eq]
  decide +kernel

/-! ## What stands between tokens -/

/-- White space or a comment, in front of a text.  A comment that is not closed reaches its end. -/
inductive Blank : (taken left : List Char) → Prop
  | space {c : Char} {left : List Char} (space : isSpace c = true) : Blank [c] left
  | lineComment {body left : List Char} (sameLine : '\n' ∉ body)
      (ends : ∀ c, left.head? = some c → c = '\n') : Blank ('/' :: '/' :: body) left
  | blockComment {body left : List Char} (noEnd : ¬['*', '/'] <:+: body) :
      Blank ('/' :: '*' :: (body ++ ['*', '/'])) left
  | openComment {body : List Char} (noEnd : ¬['*', '/'] <:+: body) : Blank ('/' :: '*' :: body) []

/-- Tokens of a text that begins at an offset, with nothing but white space and comments before,
between and behind them. -/
inductive Covers : (start : Nat) → List Char → List Span → Prop
  | ends {start : Nat} : Covers start [] []
  | blank {start : Nat} {taken left : List Char} {spans : List Span} (blank : Blank taken left)
      (more : Covers (start + byteLength taken) left spans) : Covers start (taken ++ left) spans
  | token {start : Nat} {kind : PieceKind} {taken left : List Char} {spans : List Span}
      (noBlank : kind ≠ .blank) (some_ : taken ≠ [])
      (more : Covers (start + byteLength taken) left spans) :
      Covers start (taken ++ left) (⟨kind, start, start + byteLength taken⟩ :: spans)

theorem blank_lineComment (tail : List Char) :
    Blank (runPiece .blank '/' (· ≠ '\n') ('/' :: tail)).1.chars
      (runPiece .blank '/' (· ≠ '\n') ('/' :: tail)).2 := by
  have chars : ('/' :: tail).takeWhile (· ≠ '\n') = '/' :: tail.takeWhile (· ≠ '\n') :=
    List.takeWhile_cons_of_pos (by decide)
  rw [runPiece, chars]
  refine .lineComment (fun line => ?_) fun d first => ?_
  · simpa using List.mem_takeWhile_imp line
  · simpa using stops_dropWhile (· ≠ '\n') ('/' :: tail) d first

theorem blank_blockComment (more : List Char) :
    Blank (blockCommentPiece more).1.chars (blockCommentPiece more).2 := by
  have whole := read_readBlockComment ['*', '/'] more
  have ends := readBlockComment_breakFrom ['*', '/'] [] more
  rw [← breakOn] at ends
  show Blank (readBlockComment ['*', '/'] more).1.reverse (readBlockComment ['*', '/'] more).2
  cases found : breakOn ['*', '/'] more with
  | none =>
      have nothing : (readBlockComment ['*', '/'] more).2 = [] := by rw [ends, found]; rfl
      rw [nothing, List.append_nil] at whole
      rw [nothing, whole]
      exact .openComment (Text.breakOn_none found)
  | some parts =>
      obtain ⟨body, left⟩ := parts
      have split : more = (body ++ ['*', '/']) ++ left := Text.breakFrom_splits found
      have behind : (readBlockComment ['*', '/'] more).2 = left := by rw [ends, found]; rfl
      have taken : (readBlockComment ['*', '/'] more).1.reverse =
          '/' :: '*' :: (body ++ ['*', '/']) := by
        rw [behind] at whole
        refine List.append_cancel_right (whole.trans ?_)
        rw [split]
        rfl
      rw [behind, taken]
      exact .blockComment (Text.breakOn_before (List.cons_ne_nil _ _) found)

theorem blank_firstPiece (bound : Nat) (c : Char) (rest : List Char) :
    (firstPiece bound c rest).1.kind = .blank →
      Blank (firstPiece bound c rest).1.chars (firstPiece bound c rest).2 := by
  unfold firstPiece
  split
  · exact fun _ => .space ‹_›
  split
  · intro isBlank
    cases isBlank
  split
  · intro isBlank
    unfold rawPiece at isBlank
    split at isBlank <;> cases isBlank
  split
  · intro isBlank
    cases isBlank
  split
  · intro isBlank
    cases isBlank
  split
  · intro isBlank
    cases isBlank
  split
  · intro isBlank
    cases isBlank
  split
  · intro isBlank
    cases isBlank
  split
  · exact fun _ => blank_lineComment _
  · exact fun _ => blank_blockComment _
  · intro isBlank
    split at isBlank <;> cases isBlank
  · intro isBlank
    cases isBlank
  · intro isBlank
    cases isBlank

theorem covers_pieces : ∀ (n : Nat) (left : List Char) (i : Nat), left.length ≤ n →
    Covers i left (spansFrom i (pieces left)) := by
  intro n
  induction n with
  | zero =>
      intro left i short
      obtain rfl := List.eq_nil_of_length_eq_zero (Nat.le_zero.mp short)
      exact .ends
  | succ n ih =>
      intro left i short
      cases left with
      | nil => exact .ends
      | cons c rest =>
          have shorter := length_firstPiece rest.length c rest
          have more := ih (firstPiece rest.length c rest).2
            (i + byteLength (firstPiece rest.length c rest).1.chars)
            (Nat.le_trans shorter (Nat.le_of_succ_le_succ short))
          rw [pieces_cons, spansFrom]
          have chars := chars_firstPiece rest.length c rest
          split
          · rename_i isBlank
            have covers := Covers.blank (blank_firstPiece _ c rest isBlank) more
            rwa [chars] at covers
          · rename_i noBlank
            obtain ⟨taken, begins⟩ := firstPiece_begins rest.length c rest
            have covers := Covers.token noBlank (begins ▸ List.cons_ne_nil c taken) more
            rwa [chars] at covers

/-! ## Places of tokens -/

/-- A token that begins behind an offset has characters, and it is cut off between characters. -/
structure Span.Within (source : String) (start : Nat) (s : Span) : Prop where
  behind : start ≤ s.start
  some_ : s.start < s.stop
  start : IsBoundary source s.start
  stop : IsBoundary source s.stop

theorem Covers.within {source : String} {spans : List Span} (covers : Covers i left spans) :
    Reached source.toList i left → ∀ s ∈ spans, s.Within source i := by
  induction covers with
  | ends => exact fun _ _ isIn => absurd isIn List.not_mem_nil
  | blank blank more ih =>
      intro reached s isIn
      have later := ih reached.skip s isIn
      exact ⟨Nat.le_of_add_right_le later.behind, later.some_, later.start, later.stop⟩
  | @token start kind taken left spans _ some_ more ih =>
      intro reached s isIn
      rcases List.mem_cons.mp isIn with rfl | isIn
      · have positive : 0 < byteLength taken := by
          obtain ⟨c, others, rfl⟩ := List.exists_cons_of_ne_nil some_
          exact Nat.add_pos_left c.utf8Size_pos _
        exact ⟨Nat.le_refl _, Nat.lt_add_of_pos_right positive,
          Text.Reached.isBoundary_iff.mpr ⟨_, reached⟩,
          Text.Reached.isBoundary_iff.mpr ⟨_, reached.skip⟩⟩
      · have later := ih reached.skip s isIn
        exact ⟨Nat.le_of_add_right_le later.behind, later.some_, later.start, later.stop⟩

theorem Covers.pairwise {source : String} {spans : List Span} (covers : Covers i left spans) :
    Reached source.toList i left → spans.Pairwise fun s t => s.stop ≤ t.start := by
  induction covers with
  | ends => exact fun _ => .nil
  | blank _ _ ih => exact fun reached => ih reached.skip
  | token _ _ more ih =>
      exact fun reached =>
        .cons (fun t isIn => (more.within reached.skip t isIn).behind) (ih reached.skip)

/-- The look by bytes comes to an end on every text.  At every boundary it takes a step to a later
boundary; the tokens that it finds are not empty, stand one behind the other and are cut off at
boundaries, and between them are only white space and comments. -/
theorem scan?_covers (source : String) :
    (∀ i < source.utf8ByteSize, IsBoundary source i → ∃ kind stop,
      scanStep? source.toList i = some (kind, stop) ∧ i < stop ∧ IsBoundary source stop) ∧
    ∃ spans, scan? source = some spans ∧ spans = spansFrom 0 (pieces source.toList) ∧
      Covers 0 source.toList spans ∧ (∀ s ∈ spans, s.Within source 0) ∧
      spans.Pairwise fun s t => s.stop ≤ t.start := by
  constructor
  · intro i inside boundary
    obtain ⟨left, reached⟩ := Text.Reached.isBoundary_iff.mp boundary
    cases left with
    | nil =>
        have ends := reached.bytes.ends
        rw [length_encoded, byteLength_toList] at ends
        exact absurd inside (Nat.not_lt_of_ge (Nat.le_of_eq ends.symm))
    | cons c rest =>
        exact ⟨_, _, scanStep?_firstPiece reached,
          Nat.lt_add_of_pos_right (byteLength_firstPiece rest.length c rest),
          Text.Reached.isBoundary_iff.mpr ⟨_, reached_firstPiece reached rest.length⟩⟩
  · have covers := covers_pieces _ source.toList 0 (Nat.le_refl _)
    exact ⟨_, scan?_eq source, rfl, covers, covers.within (.start _), covers.pairwise (.start _)⟩

end SandboxedGo.Submission
