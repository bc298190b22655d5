import SandboxedGo.Proofs.Names
import SandboxedGo.Submission.Policy

/-!
# Which import paths the scanner finds

The scanner looks for the word `import` anywhere, so an import path that it finds by itself is also
found behind other tokens, whatever they are.  An alias that it does not cut off as one name hides
the path behind it, unless the last piece of the alias is the word `import` again.
-/

set_option autoImplicit false

namespace SandboxedGo.Submission

open Source

/-- The word that every import begins with. -/
def importWord : Piece := ⟨.name, "import".toList⟩

/-! ## One step of the search -/

theorem importPathsIn_nil : importPathsIn [] = [] := by
  unfold importPathsIn
  rfl

theorem importPathsIn_skip {t : Piece} (noImport : t.isWord "import" = false) (rest : List Piece) :
    importPathsIn (t :: rest) = importPathsIn rest := by
  conv => lhs; unfold importPathsIn
  rw [if_neg (by simp [noImport])]

theorem importPathsIn_path (path : String) (spelled : List Char) (rest : List Piece) :
    importPathsIn (importWord :: ⟨.text path, spelled⟩ :: rest) = path :: importPathsIn rest := by
  conv => lhs; unfold importPathsIn
  rfl

theorem importPathsIn_alias {given : Piece} (kind : given.kind = .name ∨ given.kind = .dot)
    (path : String) (spelled : List Char) (rest : List Piece) :
    importPathsIn (importWord :: given :: ⟨.text path, spelled⟩ :: rest) =
      path :: importPathsIn rest := by
  obtain ⟨kind', chars⟩ := given
  conv => lhs; unfold importPathsIn
  rcases kind with rfl | rfl <;> rfl

theorem importPathsIn_group (spelled : List Char) (rest : List Piece) :
    importPathsIn (importWord :: ⟨.lParen, spelled⟩ :: rest) =
      (rest.takeWhile (!·.isClosing)).filterMap Piece.text? ++
        importPathsIn (rest.dropWhile (!·.isClosing)) := by
  conv => lhs; unfold importPathsIn
  rfl

/-- What the search takes for an import behind its word: a group, or a path behind at most one
piece. -/
def beginsImport : List Piece → Bool
  | ⟨.lParen, _⟩ :: _ => true
  | ⟨.text _, _⟩ :: _ => true
  | ⟨.name, _⟩ :: ⟨.text _, _⟩ :: _ => true
  | ⟨.dot, _⟩ :: ⟨.text _, _⟩ :: _ => true
  | _ => false

theorem beginsImport_cases {tokens : List Piece} (begins : beginsImport tokens = true) :
    (∃ spelled rest, tokens = ⟨.lParen, spelled⟩ :: rest) ∨
      (∃ path spelled rest, tokens = ⟨.text path, spelled⟩ :: rest) ∨
      ∃ given path spelled rest, (given.kind = .name ∨ given.kind = .dot) ∧
        tokens = given :: ⟨.text path, spelled⟩ :: rest := by
  unfold beginsImport at begins
  split at begins
  · exact .inl ⟨_, _, rfl⟩
  · exact .inr (.inl ⟨_, _, _, rfl⟩)
  · exact .inr (.inr ⟨_, _, _, _, .inl rfl, rfl⟩)
  · exact .inr (.inr ⟨_, _, _, _, .inr rfl, rfl⟩)
  · cases begins

theorem importPathsIn_noImport {rest : List Piece} (no : beginsImport rest = false) :
    importPathsIn (importWord :: rest) = importPathsIn rest := by
  conv => lhs; unfold importPathsIn
  rw [if_pos (by decide)]
  split
  · cases no
  · cases no
  · cases no
  · cases no
  · rfl

theorem eq_importWord {t : Piece} (word : t.isWord "import" = true) : t = importWord := by
  obtain ⟨kind, chars⟩ := t
  simp only [Piece.isWord, Bool.and_eq_true, decide_eq_true_eq] at word
  rw [word.1, word.2]
  rfl

/-! ## Behind other tokens -/

section

variable {path : String} {rest : List Piece}

/-- An import in parentheses is found, whether they are closed before it or not. -/
theorem importPathsIn_behind_group
    (near : path ∈ ((importWord :: rest).takeWhile (!·.isClosing)).filterMap Piece.text?)
    {before : List Piece}
    (shorter : ∀ less : List Piece, less.length ≤ before.length →
      path ∈ importPathsIn (less ++ importWord :: rest)) (spelled : List Char) :
    path ∈ importPathsIn (importWord :: ⟨.lParen, spelled⟩ :: (before ++ importWord :: rest)) := by
  rw [importPathsIn_group, List.mem_append]
  by_cases open_ : ∀ t ∈ before, (!t.isClosing) = true
  · rw [List.takeWhile_append_of_pos open_, List.filterMap_append, List.mem_append]
    exact .inl (.inr near)
  · have closed : (before.dropWhile (!·.isClosing)).isEmpty = false := by
      rw [List.isEmpty_eq_false_iff]
      intro none
      exact open_ (List.dropWhile_eq_nil_iff.mp none)
    rw [List.dropWhile_append, closed]
    exact .inr (shorter _ (List.dropWhile_sublist _).length_le)

/-- An import is found behind the word, whatever tokens stand between them. -/
theorem importPathsIn_behind_import (found : path ∈ importPathsIn (importWord :: rest))
    (near : path ∈ ((importWord :: rest).takeWhile (!·.isClosing)).filterMap Piece.text?)
    {before : List Piece}
    (shorter : ∀ less : List Piece, less.length ≤ before.length →
      path ∈ importPathsIn (less ++ importWord :: rest)) :
    path ∈ importPathsIn (importWord :: (before ++ importWord :: rest)) := by
  cases begins : beginsImport (before ++ importWord :: rest) with
  | false =>
      rw [importPathsIn_noImport begins]
      exact shorter before (Nat.le_refl _)
  | true =>
      rcases beginsImport_cases begins with ⟨spelled, more, same⟩ | ⟨path', spelled, more, same⟩ |
        ⟨given, path', spelled, more, kind, same⟩
      · cases before with
        | nil => cases same
        | cons t before =>
            cases same
            exact importPathsIn_behind_group near
              (fun less short => shorter less (Nat.le_succ_of_le short)) spelled
      · cases before with
        | nil => cases same
        | cons t before =>
            cases same
            rw [List.cons_append, importPathsIn_path]
            exact List.mem_cons_of_mem _ (shorter before (Nat.le_succ _))
      · rw [same, importPathsIn_alias kind]
        cases before with
        | nil =>
            -- The word is its own alias here, and the path behind it the same.
            cases same
            rw [importPathsIn_path] at found
            exact found
        | cons t before =>
            cases before with
            | nil => cases same
            | cons u before =>
                cases same
                exact List.mem_cons_of_mem _
                  (shorter before (by simp only [List.length_cons]; omega))

/-- An import that the search finds with its path before the next closing parenthesis is found
behind any tokens. -/
theorem importPathsIn_behind (found : path ∈ importPathsIn (importWord :: rest))
    (near : path ∈ ((importWord :: rest).takeWhile (!·.isClosing)).filterMap Piece.text?) :
    ∀ (n : Nat) (before : List Piece), before.length ≤ n →
      path ∈ importPathsIn (before ++ importWord :: rest) := by
  -- Not by induction on the list: a group before the import takes several tokens away at once.
  intro n
  induction n with
  | zero =>
      intro before short
      have empty : before = [] := List.eq_nil_of_length_eq_zero (by omega)
      rw [empty]
      exact found
  | succ n ih =>
      intro before short
      cases before with
      | nil => exact found
      | cons t before =>
          rw [List.length_cons] at short
          rw [List.cons_append]
          cases word : t.isWord "import" with
          | false =>
              rw [importPathsIn_skip word]
              exact ih before (by omega)
          | true =>
              rw [eq_importWord word]
              exact importPathsIn_behind_import found near fun less short => ih less (by omega)

end

/-! ## The imports that are found -/

theorem finds_path (before : List Piece) (path : String) (spelled : List Char)
    (behind : List Piece) :
    path ∈ importPathsIn (before ++ importWord :: ⟨.text path, spelled⟩ :: behind) := by
  refine importPathsIn_behind ?_ ?_ _ before (Nat.le_refl _)
  · rw [importPathsIn_path]
    exact List.mem_cons_self
  · exact List.mem_cons_self

theorem finds_alias (before : List Piece) {given : Piece}
    (kind : given.kind = .name ∨ given.kind = .dot) (path : String) (spelled : List Char)
    (behind : List Piece) :
    path ∈ importPathsIn (before ++ importWord :: given :: ⟨.text path, spelled⟩ :: behind) := by
  refine importPathsIn_behind ?_ ?_ _ before (Nat.le_refl _)
  · rw [importPathsIn_alias kind]
    exact List.mem_cons_self
  · obtain ⟨kind', chars⟩ := given
    rcases kind with rfl | rfl <;> exact List.mem_cons_self

/-- In parentheses every path is found, behind whatever alias. -/
theorem finds_grouped (before : List Piece) {paren : Piece} (isParen : paren.kind = .lParen)
    {body : List Piece} (isOpen : ∀ t ∈ body, t.isClosing = false) (path : String)
    (spelled : List Char) (behind : List Piece) :
    path ∈ importPathsIn
      (before ++ importWord :: paren :: (body ++ ⟨.text path, spelled⟩ :: behind)) := by
  obtain ⟨kind, chars⟩ := paren
  cases isParen
  have inGroup : path ∈ ((body ++ ⟨.text path, spelled⟩ :: behind).takeWhile
      (!·.isClosing)).filterMap Piece.text? := by
    rw [List.takeWhile_append_of_pos (by simpa using isOpen), List.filterMap_append,
      List.mem_append]
    exact .inr List.mem_cons_self
  refine importPathsIn_behind ?_ ?_ _ before (Nat.le_refl _)
  · rw [importPathsIn_group, List.mem_append]
    exact .inl inGroup
  · exact inGroup

/-! ## Aliases that hide a path -/

/-- Whether the scanner misses a path behind an alias: the alias is not one piece, nor is its last
piece the word `import`. -/
def hidesPath (given : String) : Bool :=
  !isIdentifier given && (pieces given.toList).getLast? ≠ some importWord

theorem finds_shown (before : List Piece) {given : String} (shown : hidesPath given = false)
    (path : String) (spelled : List Char) (behind : List Piece) :
    path ∈ importPathsIn
      (before ++ importWord :: (pieces given.toList ++ ⟨.text path, spelled⟩ :: behind)) := by
  simp only [hidesPath, Bool.and_eq_false_iff, Bool.not_eq_false', decide_eq_false_iff_not,
    Decidable.not_not] at shown
  rcases shown with identifier | again
  · have one : pieces (given.toList ++ []) = [⟨.name, given.toList⟩] :=
      pieces_identifier identifier (by rintro c ⟨⟩)
    rw [List.append_nil] at one
    rw [one]
    exact finds_alias before (.inl rfl) path spelled behind
  · obtain ⟨more, same⟩ := List.getLast?_eq_some_iff.mp again
    rw [same]
    have found := finds_path (before ++ importWord :: more) path spelled behind
    simpa using found

theorem other_after_name {w : List Char} (names : ∀ c ∈ w, Cursor.isNameChar c = true)
    (stops : Stops isNameChar w) (some_ : w ≠ []) :
    ∃ chars more, pieces w = ⟨.other, chars⟩ :: more := by
  cases w with
  | nil => exact absurd rfl some_
  | cons c w =>
      rcases pieces_name_cases (names c List.mem_cons_self) w with
        ⟨start, _⟩ | ⟨_, chars, left, _, cut⟩
      · have part := isNameStart_isNameChar start
        rw [stops c rfl] at part
        cases part
      · exact ⟨chars, pieces left, cut⟩

/-- The pieces of a name contain no import, unless the last of them is the word. -/
theorem importPathsIn_name (path : String) (spelled : List Char) (behind : List Piece) :
    ∀ (n : Nat) (w : List Char), w.length ≤ n → (∀ c ∈ w, Cursor.isNameChar c = true) →
      (pieces w).getLast? ≠ some importWord →
      importPathsIn (pieces w ++ ⟨.text path, spelled⟩ :: behind) = importPathsIn behind := by
  intro n
  induction n with
  | zero =>
      intro w short _ _
      have empty : w = [] := List.eq_nil_of_length_eq_zero (by omega)
      rw [empty]
      exact importPathsIn_skip rfl behind
  | succ n ih =>
      intro w short names notAgain
      cases w with
      | nil => exact importPathsIn_skip rfl behind
      | cons c w =>
          rw [List.length_cons] at short
          have others : ∀ d ∈ w, Cursor.isNameChar d = true := fun d member =>
            names d (List.mem_cons_of_mem _ member)
          -- What the scanner has not cut off yet is shorter and ends as the whole name does.
          have later (p : Piece) {left : List Char} (sub : left.Sublist w)
              (cut : pieces (c :: w) = p :: pieces left) :
              importPathsIn (pieces left ++ ⟨.text path, spelled⟩ :: behind) =
                importPathsIn behind := by
            refine ih left (Nat.le_trans sub.length_le (by omega))
              (fun d member => others d (sub.subset member)) ?_
            intro last
            rw [cut, List.getLast?_cons, last] at notAgain
            exact notAgain rfl
          rcases pieces_name_cases (names c List.mem_cons_self) w with
            ⟨_, cut⟩ | ⟨_, chars, left, sub, cut⟩
          · have rest := later _ (List.dropWhile_sublist isNameChar) cut
            rw [cut, List.cons_append]
            cases word : (⟨.name, c :: w.takeWhile isNameChar⟩ : Piece).isWord "import" with
            | false =>
                rw [importPathsIn_skip word]
                exact rest
            | true =>
                have isWord := eq_importWord word
                have more : w.dropWhile isNameChar ≠ [] := by
                  intro none
                  rw [cut, isWord, none, pieces_nil] at notAgain
                  exact notAgain rfl
                obtain ⟨_, _, next⟩ := other_after_name (all_dropWhile others)
                  (stops_dropWhile isNameChar w) more
                rw [isWord, importPathsIn_noImport]
                · exact rest
                · rw [next]
                  rfl
          · rw [cut, List.cons_append, importPathsIn_skip rfl]
            exact later _ sub cut

theorem misses_hidden {given : String} (hidden : hidesPath given = true) (some_ : given ≠ "")
    (names : ∀ c ∈ given.toList, Cursor.isNameChar c = true) (path : String) (spelled : List Char)
    (behind : List Piece) :
    importPathsIn (importWord :: (pieces given.toList ++ ⟨.text path, spelled⟩ :: behind)) =
      importPathsIn behind := by
  simp only [hidesPath, Bool.and_eq_true, Bool.not_eq_true', decide_eq_true_eq] at hidden
  obtain ⟨notOne, notAgain⟩ := hidden
  rw [importPathsIn_noImport, importPathsIn_name path spelled behind _ _ (Nat.le_refl _) names
    notAgain]
  cases chars : given.toList with
  | nil => exact absurd (String.toList_eq_nil_iff.mp chars) some_
  | cons c w =>
      rw [chars] at names
      have others : ∀ d ∈ w, Cursor.isNameChar d = true := fun d member =>
        names d (List.mem_cons_of_mem _ member)
      rcases pieces_name_cases (names c List.mem_cons_self) w with
        ⟨start, cut⟩ | ⟨_, _, left, _, cut⟩
      · have more : w.dropWhile isNameChar ≠ [] := by
          intro none
          have all := List.dropWhile_eq_nil_iff.mp none
          simp [isIdentifier, chars, start, List.all_eq_true.mpr all] at notOne
        obtain ⟨_, _, next⟩ := other_after_name (all_dropWhile others)
          (stops_dropWhile isNameChar w) more
        rw [cut, next]
        rfl
      · rw [cut]
        rfl

end SandboxedGo.Submission
