import SandboxedGo.Text.Search
import SandboxedGo.Text.Utf8

/-!
# Sizes of texts

How many bytes a text has that was put together from others: by joining, or by replacing one text by
another.
-/

set_option autoImplicit false

namespace SandboxedGo.Text

/-! ## Characters -/

theorem byteLength_append (left right : List Char) :
    byteLength (left ++ right) = byteLength left + byteLength right := by
  induction left with
  | nil => exact (Nat.zero_add _).symm
  | cons c rest ih =>
      rw [List.cons_append, byteLength, byteLength, ih]
      omega

theorem byteLength_ofList (chars : List Char) :
    (String.ofList chars).utf8ByteSize = byteLength chars := by
  induction chars with
  | nil => rfl
  | cons c rest ih =>
      rw [byteLength, ← ih, ← List.singleton_append, String.ofList_append,
        String.utf8ByteSize_append, ← String.singleton_eq_ofList, String.utf8ByteSize_singleton]

theorem byteLength_toList (text : String) : byteLength text.toList = text.utf8ByteSize := by
  rw [← byteLength_ofList, String.ofList_toList]

theorem byteLength_intersperse (separator : List Char) (parts : List (List Char)) :
    byteLength (List.flatten (parts.intersperse separator)) =
      byteLength parts.flatten + (parts.length - 1) * byteLength separator := by
  induction parts with
  | nil => simp [byteLength]
  | cons part rest ih =>
      cases rest with
      | nil => simp
      | cons second rest =>
          rw [List.intersperse_cons_cons, List.flatten_cons, List.flatten_cons, byteLength_append,
            byteLength_append, ih]
          simp only [List.flatten_cons, byteLength_append, List.length_cons, Nat.add_sub_cancel,
            Nat.succ_mul]
          omega

theorem length_bytesOf (text : String) : (bytesOf text).length = text.utf8ByteSize := by
  have all (bytes : ByteArray) (place : Nat) (read : List UInt8) :
      (ByteArray.toList.loop bytes place read).length = read.length + (bytes.size - place) := by
    fun_induction ByteArray.toList.loop bytes place read with
    | case1 place read inside ih =>
        rw [ih, List.length_cons]
        omega
    | case2 place read outside =>
        rw [List.length_reverse]
        omega
  have bytes := all text.toUTF8 0 []
  rw [List.length_nil, Nat.zero_add, Nat.sub_zero] at bytes
  exact bytes

/-! ## Joining -/

theorem utf8ByteSize_intercalate (separator : String) (texts : List String) :
    (String.intercalate separator texts).utf8ByteSize =
      (String.join texts).utf8ByteSize + (texts.length - 1) * separator.utf8ByteSize := by
  have flat : separator.toList.intercalate (texts.map String.toList) =
      List.flatten ((texts.map String.toList).intersperse separator.toList) := rfl
  have joined : (texts.map String.toList).flatten = (String.join texts).toList := by
    rw [String.toList_join, List.flatMap_def]
  rw [← byteLength_toList, String.toList_intercalate, flat, byteLength_intersperse, joined,
    List.length_map, byteLength_toList, byteLength_toList]

/-! ## Replacing -/

theorem breakFrom_splits {needle passed hay before after : List Char}
    (found : breakFrom needle passed hay = some (before, after)) :
    passed.reverse ++ hay = before ++ needle ++ after := by
  induction hay generalizing passed with
  | nil =>
      unfold breakFrom at found
      split at found
      · rename_i empty
        rw [List.isEmpty_iff] at empty
        cases found
        simp [empty]
      · cases found
  | cons c rest ih =>
      unfold breakFrom at found
      split at found
      · rename_i begins
        cases found
        obtain ⟨rest', is⟩ := List.isPrefixOf_iff_prefix.mp begins
        rw [← is]
        simp
      · have others := ih found
        simpa using others

theorem splitAtMost_cons (needle : List Char) (count : Nat) (hay : List Char) :
    ∃ part rest, splitAtMost needle count hay = part :: rest := by
  cases count with
  | zero => exact ⟨hay, [], rfl⟩
  | succ count =>
      unfold splitAtMost
      split
      · exact ⟨_, _, rfl⟩
      · exact ⟨_, _, rfl⟩

theorem splitAtMost_joins (needle : List Char) (count : Nat) (hay : List Char) :
    List.flatten ((splitAtMost needle count hay).intersperse needle) = hay := by
  induction count generalizing hay with
  | zero => simp [splitAtMost]
  | succ count ih =>
      unfold splitAtMost
      split
      · simp
      · rename_i before after found
        have splits := breakFrom_splits found
        have others := ih after
        obtain ⟨part, rest, parts⟩ := splitAtMost_cons needle count after
        rw [parts] at others ⊢
        rw [List.intersperse_cons_cons, List.flatten_cons, List.flatten_cons, others]
        simpa using splits.symm

/-- How often a text is replaced. -/
def replacements (old : List Char) (count : Nat) (hay : List Char) : Nat :=
  if old.isEmpty then min count (hay.length + 1) else (splitAtMost old count hay).length - 1

theorem byteLength_intersperseAtMost (new : List Char) (count : Nat) (hay : List Char) :
    byteLength (intersperseAtMost new count hay) =
      byteLength hay + min count (hay.length + 1) * byteLength new := by
  induction count generalizing hay with
  | zero => simp [intersperseAtMost]
  | succ count ih =>
      cases hay with
      | nil => simp [intersperseAtMost, byteLength]
      | cons c rest =>
          rw [intersperseAtMost, byteLength_append, byteLength, ih, byteLength,
            List.length_cons, Nat.add_min_add_right, Nat.succ_mul]
          omega

theorem byteLength_replaceAtMost (old new : List Char) (count : Nat) (hay : List Char) :
    byteLength (replaceAtMost old new count hay) +
        replacements old count hay * byteLength old =
      byteLength hay + replacements old count hay * byteLength new := by
  unfold replaceAtMost replacements
  by_cases empty : old.isEmpty
  · rw [if_pos empty, if_pos empty, byteLength_intersperseAtMost]
    rw [List.isEmpty_iff] at empty
    simp [empty, byteLength]
  · rw [if_neg empty, if_neg empty, byteLength_intersperse]
    have joins := congrArg byteLength (splitAtMost_joins old count hay)
    rw [byteLength_intersperse] at joins
    omega

/-- How many bytes a text has after some replacements. -/
def replacedSize (text old new : String) (count : Nat) : Nat :=
  text.utf8ByteSize + replacements old.toList count text.toList * new.utf8ByteSize -
    replacements old.toList count text.toList * old.utf8ByteSize

theorem utf8ByteSize_replaceAtMost (text old new : String) (count : Nat) :
    (String.ofList (replaceAtMost old.toList new.toList count text.toList)).utf8ByteSize =
      replacedSize text old new count := by
  have law := byteLength_replaceAtMost old.toList new.toList count text.toList
  rw [byteLength_toList, byteLength_toList, byteLength_toList] at law
  rw [byteLength_ofList]
  unfold replacedSize
  omega

end SandboxedGo.Text
