import SandboxedGo.Library.Call
import SandboxedGo.Proofs.FencedPrograms
import SandboxedGo.Proofs.Following
import SandboxedGo.Proofs.HostBoundary
import SandboxedGo.Proofs.UnaskedTexts
import SandboxedGo.Run

/-!
# Pieces of a text and their joining

A text is cut at the occurrences of a separator, from the left and without overlap, or behind every
character if the separator is empty; a limit leaves the rest of the text in the last piece.  Joining
the pieces with the separator between them gives the text back.
Main statement: `join_undoes_split`.
-/

set_option autoImplicit false

/-! ## Cutting at a separator -/

namespace SandboxedGo.Text

variable {needle hay before after piece : List Char} {count : Nat}

theorem not_infix_before (nonempty : needle ≠ [])
    (found : breakOn needle hay = some (before, after)) : ¬ needle <:+: before := by
  rintro ⟨left, right, split⟩
  have whole : hay = before ++ needle ++ after := by simpa using breakFrom_splits found
  have sooner : hay = left ++ needle ++ (right ++ needle ++ after) := by
    rw [whole, ← split]
    simp
  have first : before.length ≤ left.length := by simpa using breakFrom_first sooner found
  have inside : 0 < needle.length := List.length_pos_iff.mpr nonempty
  have lengths := congrArg List.length split
  simp only [List.length_append] at lengths
  omega

theorem length_after_lt (nonempty : needle ≠ [])
    (found : breakOn needle hay = some (before, after)) : after.length < hay.length := by
  have whole : hay = before ++ needle ++ after := by simpa using breakFrom_splits found
  have inside : 0 < needle.length := List.length_pos_iff.mpr nonempty
  rw [whole]
  simp only [List.length_append]
  omega

theorem length_splitAtMost_le (needle : List Char) (count : Nat) (hay : List Char) :
    (splitAtMost needle count hay).length ≤ count + 1 := by
  induction count generalizing hay with
  | zero => simp [splitAtMost]
  | succ count ih =>
      unfold splitAtMost
      split
      · simp
      · rename_i before after found
        exact Nat.succ_le_succ (ih after)

theorem not_infix_of_mem_dropLast (nonempty : needle ≠ []) (count : Nat) (hay : List Char) :
    ∀ piece ∈ (splitAtMost needle count hay).dropLast, ¬ needle <:+: piece := by
  induction count generalizing hay with
  | zero => simp [splitAtMost]
  | succ count ih =>
      unfold splitAtMost
      split
      · simp
      · rename_i before after found
        obtain ⟨first, rest, pieces⟩ := splitAtMost_cons needle count after
        have others := ih after
        rw [pieces] at others ⊢
        rw [List.dropLast_cons_cons]
        exact List.forall_mem_cons.mpr ⟨not_infix_before nonempty found, others⟩

theorem not_infix_of_mem_splitAtMost (nonempty : needle ≠ []) (enough : hay.length ≤ count) :
    ∀ piece ∈ splitAtMost needle count hay, ¬ needle <:+: piece := by
  induction count generalizing hay with
  | zero =>
      have none : hay = [] := List.length_eq_zero_iff.mp (Nat.le_zero.mp enough)
      simp [splitAtMost, none, nonempty]
  | succ count ih =>
      unfold splitAtMost
      split
      · rename_i notFound
        intro piece isIn occurs
        rw [List.mem_singleton.mp isIn] at occurs
        obtain ⟨before, behind, found, -⟩ := breakOn_occurs needle occurs
        rw [notFound] at found
        cases found
      · rename_i before after found
        have shorter := length_after_lt nonempty found
        exact List.forall_mem_cons.mpr ⟨not_infix_before nonempty found, ih (by omega)⟩

theorem intercalate_splitAtMost (separator text : String) (count : Nat) :
    String.intercalate separator
      ((splitAtMost separator.toList count text.toList).map String.ofList) = text := by
  apply String.toList_inj.mp
  rw [String.toList_intercalate, List.map_map]
  have same : String.toList ∘ String.ofList = id := funext fun _ => String.toList_ofList
  rw [same, List.map_id]
  exact splitAtMost_joins separator.toList count text.toList

end SandboxedGo.Text

/-! ## The pieces of a text -/

namespace SandboxedGo.Library

open Text

variable {text separator : String} {limit : Int}

/-- Pieces of a text between separators: not more of them than a limit that is positive, and with no
separator in them but in the last one of limited pieces. -/
structure Separates (text separator : String) (limit : Int) (parts : List String) : Prop where
  joined : String.intercalate separator parts = text
  limited : 0 < limit → parts.length ≤ limit
  nonempty : separator ≠ "" → parts ≠ []
  free : separator ≠ "" → ∀ part ∈ if 0 < limit then parts.dropLast else parts,
    ¬ separator.toList <:+: part.toList

theorem intercalate_empty (texts : List String) :
    String.intercalate "" texts = String.join texts := by
  induction texts with
  | nil => rw [String.intercalate_nil, String.join_nil]
  | cons first rest ih =>
      cases rest with
      | nil => simp
      | cons second rest =>
          rw [String.intercalate_cons_cons, ih, String.append_empty, String.join_cons (s := first)]

theorem join_characters (chars : List Char) :
    String.join (chars.map fun c => String.ofList [c]) = String.ofList chars := by
  induction chars with
  | nil => rfl
  | cons c rest ih =>
      rw [List.map_cons, String.join_cons, ih, ← String.ofList_append, List.singleton_append]

theorem separates_characters (text : String) (unlimited : 0 < limit → text.toList.length ≤ limit) :
    Separates text "" limit (text.toList.map fun c => String.ofList [c]) where
  joined := by rw [intercalate_empty, join_characters, String.ofList_toList]
  limited := by simpa using unlimited
  nonempty := fun h => absurd rfl h
  free := fun h => absurd rfl h

theorem separates_rest (text : String) {head : Nat} (short : head + 1 ≤ limit) :
    Separates text "" limit ((text.toList.take head).map (fun c => String.ofList [c]) ++
      [String.ofList (text.toList.drop head)]) where
  joined := by
    rw [intercalate_empty, String.join_append, join_characters]
    simp [← String.ofList_append]
  limited := by
    intro _
    simp
    omega
  nonempty := fun h => absurd rfl h
  free := fun h => absurd rfl h

theorem splitAtMost_ne_nil (needle : List Char) (count : Nat) (hay : List Char) :
    (splitAtMost needle count hay).map String.ofList ≠ [] := by
  obtain ⟨first, rest, pieces⟩ := splitAtMost_cons needle count hay
  rw [pieces]
  exact List.cons_ne_nil _ _

theorem separates_atMost (text : String) (nonempty : separator ≠ "") {count : Nat}
    (limited : count + 1 = limit) :
    Separates text separator limit
      ((splitAtMost separator.toList count text.toList).map String.ofList) where
  joined := intercalate_splitAtMost separator text count
  limited := by
    intro _
    have length := length_splitAtMost_le separator.toList count text.toList
    rw [List.length_map]
    omega
  nonempty := fun _ => splitAtMost_ne_nil _ _ _
  free := by
    intro _ part isIn
    rw [if_pos (by omega), ← List.map_dropLast] at isIn
    obtain ⟨piece, isPiece, rfl⟩ := List.mem_map.mp isIn
    rw [String.toList_ofList]
    exact not_infix_of_mem_dropLast (mt String.toList_eq_nil_iff.mp nonempty) _ _ piece isPiece

theorem separates_all (text : String) (nonempty : separator ≠ "") (unlimited : ¬ 0 < limit) :
    Separates text separator limit
      ((splitAll separator.toList text.toList).map String.ofList) where
  joined := intercalate_splitAtMost separator text _
  limited := fun positive => absurd positive unlimited
  nonempty := fun _ => splitAtMost_ne_nil _ _ _
  free := by
    intro _ part isIn
    rw [if_neg unlimited] at isIn
    obtain ⟨piece, isPiece, rfl⟩ := List.mem_map.mp isIn
    rw [String.toList_ofList]
    exact not_infix_of_mem_splitAtMost (mt String.toList_eq_nil_iff.mp nonempty) (Nat.le_refl _)
      piece isPiece

theorem pieces_separate (text separator : String) (limited : limit ≠ 0) :
    ∃ parts, pieces text separator limit = some parts ∧ Separates text separator limit parts := by
  unfold pieces
  rw [if_neg limited]
  by_cases empty : separator.isEmpty
  · rw [if_pos empty]
    rw [String.isEmpty_iff] at empty
    subst empty
    by_cases cut : 0 < limit ∧ limit.toNat < text.toList.length
    · exact ⟨_, if_pos cut, separates_rest text (by omega)⟩
    · exact ⟨_, if_neg cut, separates_characters text (by omega)⟩
  · rw [if_neg empty]
    rw [String.isEmpty_iff] at empty
    refine ⟨_, rfl, ?_⟩
    by_cases positive : 0 < limit
    · rw [if_pos positive]
      exact separates_atMost text empty (by omega)
    · rw [if_neg positive]
      exact separates_all text empty positive

/-! ## Splitting and joining -/

variable {ev : Evaluator} {m : Machine}

theorem splitN_run {parts : List String} {limit : Int64}
    (split : pieces text separator limit.toInt = some parts) (ev : Evaluator) (m : Machine) :
    ∃ view after,
      ((Function.strings .splitN).call [.string text, .string separator, .int limit]).run ev m =
        .ok (.slice view) after ∧
      after.store.elements view = parts.map .string := by
  have called :
      ((Function.strings .splitN).call [.string text, .string separator, .int limit]).run ev m =
        (textSlice? (pieces text separator limit.toInt)).run ev m := rfl
  rw [called, split]
  exact ⟨_, _, rfl, Store.elements_newSlice _ _ (.refl _)⟩

/-- Splitting a text with a limit that is not zero gives pieces whose joining is the text: at most
as many as a positive limit, and, if the separator is not empty, at least one, with the separator in
none of them but the last one of limited pieces. -/
theorem join_undoes_split (text separator : String) (limit : Int64) (limited : limit ≠ 0)
    (ev : Evaluator) (m : Machine) :
    ∃ (view : SliceView) (after : Machine) (parts : List String),
      ((Function.strings .splitN).call [.string text, .string separator, .int limit]).run ev m =
        .ok (.slice view) after ∧
      after.store.elements view = parts.map .string ∧
      ((Function.strings .join).call [.slice view, .string separator]).run ev after =
        .ok (.string text) after ∧
      (0 < limit → parts.length ≤ limit.toInt) ∧
      (separator ≠ "" → parts ≠ [] ∧
        ∀ part ∈ if 0 < limit then parts.dropLast else parts,
          ¬ separator.toList <:+: part.toList) := by
  have zero : (0 : Int64).toInt = 0 := rfl
  have positive : 0 < limit ↔ 0 < limit.toInt := by rw [Int64.lt_iff_toInt_lt, zero]
  have notZero : limit.toInt ≠ 0 := fun none => limited (Int64.toInt_inj.mp (none.trans zero.symm))
  obtain ⟨parts, split, separates⟩ := pieces_separate text separator notZero
  obtain ⟨view, after, ran, elements⟩ := splitN_run split ev m
  refine ⟨view, after, parts, ran, elements, ?_, ?_, fun nonempty => ⟨?_, ?_⟩⟩
  · rw [← separates.joined]
    exact StringsFunction.join_run separator elements
  · rw [positive]
    exact separates.limited
  · exact separates.nonempty nonempty
  · simp only [positive]
    exact separates.free nonempty

/-- Two occurrences of the separator overlap: the left one is taken. -/
example : pieces "aaab" "aa" 3 = some ["", "ab"] := by decide +kernel

theorem join_undoes_split_overlapping :
    let m := Machine.initial {}
    (3 : Int64) ≠ 0 ∧ ∃ (view : SliceView) (after : Machine) (parts : List String),
      ((Function.strings .splitN).call [.string "aaab", .string "aa", .int 3]).run (.ofDepth 1) m =
        .ok (.slice view) after ∧
      after.store.elements view = parts.map .string ∧
      ((Function.strings .join).call [.slice view, .string "aa"]).run (.ofDepth 1) after =
        .ok (.string "aaab") after ∧
      ((0 : Int64) < 3 → parts.length ≤ (3 : Int64).toInt) ∧
      ("aa" ≠ "" → parts ≠ [] ∧
        ∀ part ∈ if (0 : Int64) < 3 then parts.dropLast else parts,
          ¬ "aa".toList <:+: part.toList) := by
  intro m
  exact ⟨by decide, join_undoes_split "aaab" "aa" 3 (by decide) (.ofDepth 1) m⟩

end SandboxedGo.Library
