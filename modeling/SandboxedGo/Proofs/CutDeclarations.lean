import SandboxedGo.Proofs.EntryPoints
import SandboxedGo.Proofs.LaidOutPrograms
import SandboxedGo.Proofs.PassedLiterals
import SandboxedGo.Proofs.WholeLines

/-!
# Declarations that are cut out

Before a run the host calls of a program are bound to a name, and what the program declares under
that name is cut out of its text.  The cut goes by lines and braces and knows nothing of tokens.  A
program whose text falls into passages, each read by itself, and of which the cut takes each from
its first to its last character or not at all, is a program again without the passages that are cut
out.
Main statement: `bound_program_eq_without`.
-/

set_option autoImplicit false

namespace SandboxedGo

open Source Submission

namespace Submission

/-! ## What is found before further text -/

variable {name : String} {chars left : List Char}

theorem afterBlanks_append (some_ : afterBlanks chars ≠ []) (more : List Char) :
    afterBlanks (chars ++ more) = afterBlanks chars ++ more := by
  unfold afterBlanks at *
  rw [List.dropWhile_append, if_neg (by simpa using some_)]

theorem afterBlanks_suffix (chars : List Char) : afterBlanks chars <:+ chars :=
  List.dropWhile_suffix _

theorem afterSomeBlanks?_append (found : afterSomeBlanks? chars = some left) (some_ : left ≠ [])
    (more : List Char) : afterSomeBlanks? (chars ++ more) = some (left ++ more) := by
  unfold afterSomeBlanks? at found
  split at found
  · split at found
    · rename_i blank
      cases found
      exact (if_pos blank).trans (congrArg some (afterBlanks_append some_ more))
    · cases found
  · cases found

theorem afterSomeBlanks?_suffix (found : afterSomeBlanks? chars = some left) : left <:+ chars := by
  unfold afterSomeBlanks? at found
  split at found
  · split at found
    · cases found
      exact (afterBlanks_suffix _).trans (List.suffix_cons _ _)
    · cases found
  · cases found

theorem afterFunctionHead?_some (found : afterFunctionHead? name chars = some left) :
    ∃ behind spaced between, afterWord? "func" chars = some behind ∧
      afterSomeBlanks? behind = some spaced ∧ afterWord? name spaced = some between ∧
      afterWord? "(" (afterBlanks between) = some left := by
  unfold afterFunctionHead? at found
  obtain ⟨behind, word, found⟩ := Option.bind_eq_some_iff.mp found
  obtain ⟨spaced, blanks, found⟩ := Option.bind_eq_some_iff.mp found
  obtain ⟨between, named, found⟩ := Option.bind_eq_some_iff.mp found
  exact ⟨behind, spaced, between, word, blanks, named, found⟩

theorem ne_nil_of_afterWord? {word : String} (nonempty : word ≠ "")
    (found : afterWord? word chars = some left) : chars ≠ [] := by
  rw [afterWord?_eq_some] at found
  rintro rfl
  exact nonempty (String.toList_eq_nil_iff.mp (List.append_eq_nil_iff.mp found.symm).1)

theorem afterWord?_append {word : String} (found : afterWord? word chars = some left)
    (more : List Char) : afterWord? word (chars ++ more) = some (left ++ more) := by
  rw [afterWord?_eq_some] at *
  rw [found, List.append_assoc]

theorem afterFunctionHead?_append (nonempty : name ≠ "")
    (found : afterFunctionHead? name chars = some left) (more : List Char) :
    afterFunctionHead? name (chars ++ more) = some (left ++ more) := by
  obtain ⟨behind, spaced, between, word, blanks, named, opening⟩ := afterFunctionHead?_some found
  unfold afterFunctionHead?
  rw [afterWord?_append word, Option.bind_eq_bind, Option.bind_some,
    afterSomeBlanks?_append blanks (ne_nil_of_afterWord? nonempty named), Option.bind_some,
    afterWord?_append named, Option.bind_some,
    afterBlanks_append (ne_nil_of_afterWord? (by decide) opening), afterWord?_append opening]

theorem afterFunctionHead?_suffix (found : afterFunctionHead? name chars = some left) :
    left <:+ chars := by
  obtain ⟨behind, spaced, between, word, blanks, named, opening⟩ := afterFunctionHead?_some found
  rw [afterWord?_eq_some] at word named opening
  have one : left <:+ between := (opening ▸ List.suffix_append _ _).trans (afterBlanks_suffix _)
  have two : between <:+ behind :=
    (named ▸ List.suffix_append _ _).trans (afterSomeBlanks?_suffix blanks)
  exact one.trans (two.trans (word ▸ List.suffix_append _ _))

/-! ## Passages -/

/-- What becomes of a passage when the declarations of a name are cut out. -/
inductive Fate
  | kept
  /-- It is cut out as a function. -/
  | asFunction
  /-- It is cut out as the line of a variable. -/
  | asVariable
  deriving DecidableEq

/-- A part of the text of a program, and the declarations that are written there. -/
structure Passage where
  text : List Char
  decls : List (List Located × Decl)
  fate : Fate

def textOf (ps : List Passage) : List Char := ps.flatMap Passage.text

theorem textOf_cons (p : Passage) (ps : List Passage) : textOf (p :: ps) = p.text ++ textOf ps :=
  rfl

/-- No line of a text begins with something, whatever follows the text.  `atStart` says whether a
line begins here. -/
def NoLineBegins (after? : List Char → Option (List Char)) : (atStart : Bool) → List Char → Prop
  | _, [] => True
  | atStart, c :: rest =>
    (atStart = true → ∀ more, after? (c :: (rest ++ more)) = none) ∧
      NoLineBegins after? (c = '\n') rest

/-- The first characters of the lines of a text. -/
def beginnings : (atStart : Bool) → List Char → List Char
  | _, [] => []
  | true, c :: rest => c :: beginnings (c = '\n') rest
  | false, c :: rest => beginnings (c = '\n') rest

theorem noLineBegins_of_beginnings {after? : List Char → Option (List Char)} {first : Char}
    (others : ∀ c rest, c ≠ first → after? (c :: rest) = none) :
    ∀ (text : List Char) (atStart : Bool), first ∉ beginnings atStart text →
      NoLineBegins after? atStart text := by
  intro text
  induction text with
  | nil => exact fun _ _ => trivial
  | cons c rest ih =>
      intro atStart absent
      cases atStart with
      | false => exact ⟨nofun, ih _ absent⟩
      | true =>
          obtain ⟨other, absent⟩ := not_or.mp (List.mem_cons.not.mp absent)
          exact ⟨fun _ more => others c _ (Ne.symm other), ih _ absent⟩

theorem afterFunctionHead?_other (name : String) (c : Char) (rest : List Char) (other : c ≠ 'f') :
    afterFunctionHead? name (c :: rest) = none := by
  have word : afterWord? "func" (c :: rest) = none :=
    Option.eq_none_iff_forall_ne_some.mpr fun behind found =>
      other (List.cons.inj (afterWord?_eq_some.mp found)).1
  unfold afterFunctionHead?
  rw [word]
  rfl

theorem afterVariable?_other (name : String) (c : Char) (rest : List Char) (other : c ≠ 'v') :
    afterVariable? name (c :: rest) = none := by
  have word : afterWord? "var" (c :: rest) = none :=
    Option.eq_none_iff_forall_ne_some.mpr fun behind found =>
      other (List.cons.inj (afterWord?_eq_some.mp found)).1
  unfold afterVariable?
  rw [word]
  rfl

/-- The cut of a name takes a passage from its first to its last character, or leaves all of it. -/
def Passage.CutWhole (name : String) (p : Passage) : Prop :=
  match p.fate with
  | .kept => NoLineBegins (afterFunctionHead? name) true p.text ∧
      NoLineBegins (afterVariable? name) true p.text
  | .asFunction => ∃ behind left, afterFunctionHead? name p.text = some behind ∧
      (bodyFrom behind.length 1 [] behind).bind afterBlock? = some left ∧ dropNewline left = []
  | .asVariable => NoLineBegins (afterFunctionHead? name) true p.text ∧
      afterVariable? name p.text = some []

/-- Passages that begin lines. -/
def InLines : List Passage → Prop
  | [] => True
  | p :: ps => (ps = [] ∨ WholeLines p.text) ∧ InLines ps

theorem InLines.sublist {ps qs : List Passage} (sublist : qs.Sublist ps) (inLines : InLines ps) :
    InLines qs := by
  induction sublist with
  | slnil => trivial
  | cons p _ ih => exact ih inLines.2
  | cons_cons p more ih =>
      refine ⟨inLines.1.imp_left fun none_ => ?_, ih inLines.2⟩
      rw [none_] at more
      exact List.sublist_nil.mp more

/-! ### Passing a passage -/

/-- Whether a line begins behind a text. -/
def beginsBehind (atStart : Bool) (text : List Char) : Bool :=
  text.foldl (fun _ c => c = '\n') atStart

theorem beginsBehind_of_wholeLines {text : List Char} (lines : WholeLines text) :
    beginsBehind true text = true := by
  cases List.eq_nil_or_concat text with
  | inl empty => rw [empty]; rfl
  | inr parts =>
      obtain ⟨front, last, rfl⟩ := parts
      rw [List.concat_eq_append] at lines ⊢
      rw [beginsBehind, List.foldl_append, lines last (by simp)]
      rfl

variable {atStart : Bool} {text more : List Char}

theorem removeFunctionFrom_passes (no : NoLineBegins (afterFunctionHead? name) atStart text)
    (passed more : List Char) :
    removeFunctionFrom name atStart passed (text ++ more) =
      removeFunctionFrom name (beginsBehind atStart text) (text.reverse ++ passed) more := by
  induction text generalizing atStart passed with
  | nil => rfl
  | cons c rest ih =>
      have none_ : (if atStart = true then afterFunctionHead? name (c :: (rest ++ more))
          else none) = none := by
        split
        · exact no.1 ‹_› more
        · rfl
      rw [List.cons_append, removeFunctionFrom, none_]
      dsimp only
      rw [ih no.2, List.reverse_cons, List.append_assoc]
      rfl

theorem removeVariables_passes (no : NoLineBegins (afterVariable? name) atStart text)
    (kept more : List Char) (steps : Nat) :
    removeVariables name (text.length + steps) atStart kept (text ++ more) =
      removeVariables name steps (beginsBehind atStart text) (text.reverse ++ kept) more := by
  induction text generalizing atStart kept with
  | nil => rw [List.length_nil, Nat.zero_add]; rfl
  | cons c rest ih =>
      have none_ : (if atStart = true then afterVariable? name (c :: (rest ++ more))
          else none) = none := by
        split
        · exact no.1 ‹_› more
        · rfl
      rw [List.cons_append, List.length_cons, Nat.add_right_comm, removeVariables, none_]
      dsimp only
      rw [ih no.2, List.reverse_cons, List.append_assoc]
      rfl

/-! ### Cutting a passage -/

theorem dropNewline_eq_nil (nothing : dropNewline left = []) : left = [] ∨ left = ['\n'] := by
  unfold dropNewline at nothing
  split at nothing
  · rw [nothing]
    exact .inr rfl
  · exact .inl nothing

theorem removeFunctionFrom_cuts (nonempty : name ≠ "") {behind : List Char}
    (head : afterFunctionHead? name text = some behind)
    (body : (bodyFrom behind.length 1 [] behind).bind afterBlock? = some left)
    (whole : dropNewline left = []) (lines : more = [] ∨ WholeLines text) (passed : List Char) :
    removeFunctionFrom name true passed (text ++ more) = some (passed.reverse ++ more) := by
  obtain ⟨inside, found, closed⟩ := Option.bind_eq_some_iff.mp body
  obtain ⟨inner, foundAgain⟩ := bodyFrom_some found (Nat.le_add_right _ more.length)
  have closes := closesBefore_of_some closed
  have ends : afterFunction (behind ++ more) = left ++ more := by
    have length : (behind ++ more).length = behind.length + more.length := List.length_append
    rw [afterFunction, length, foundAgain, Option.bind_some]
    exact congrArg (·.getD []) (closes.again more)
  have dropped : dropNewline (left ++ more) = more := by
    rcases dropNewline_eq_nil whole with rfl | rfl
    · rcases lines with rfl | lines
      · rfl
      · -- A text that ends with the function does not end with a line.
        have suffix := closes.brace.trans (inner.trans (afterFunctionHead?_suffix head))
        cases lines.suffix suffix '\x7d' rfl
    · rfl
  obtain ⟨c, rest, rfl⟩ : ∃ c rest, text = c :: rest := by
    cases text with
    | nil => cases head
    | cons c rest => exact ⟨c, rest, rfl⟩
  have again := afterFunctionHead?_append nonempty head more
  rw [List.cons_append] at again ⊢
  rw [removeFunctionFrom, if_pos rfl, again]
  dsimp only
  rw [ends, dropped]

theorem afterVariable?_append (plain : '\n' ∉ name.toList) (nonempty : name ≠ "")
    (cut : afterVariable? name text = some []) (lines : more = [] ∨ WholeLines text) :
    afterVariable? name (text ++ more) = some more := by
  rcases lines with rfl | lines
  · rw [List.append_nil, cut]
  unfold afterVariable? at cut
  obtain ⟨behind, word, cut⟩ := Option.bind_eq_some_iff.mp cut
  obtain ⟨spaced, blanks, cut⟩ := Option.bind_eq_some_iff.mp cut
  obtain ⟨line, named, cut⟩ := Option.bind_eq_some_iff.mp cut
  have wholeLine : WholeLines (name.toList ++ line) := by
    have inSpaced := afterWord?_eq_some.mp named ▸ afterSomeBlanks?_suffix blanks
    exact lines.suffix (inSpaced.trans (afterWord?_eq_some.mp word ▸ List.suffix_append _ _))
  have some_ : line ≠ [] := by
    rintro rfl
    rw [List.append_nil] at wholeLine
    have some_ : name.toList ≠ [] := fun empty => nonempty (String.toList_eq_nil_iff.mp empty)
    have last := List.getLast?_eq_some_getLast some_
    exact plain (wholeLine _ last ▸ List.getLast_mem _)
  have further : (line ++ more).head? = line.head? := by
    rw [List.head?_append_of_ne_nil _ some_]
  split at cut
  · rename_i boundary
    have ends : line.dropWhile (· ≠ '\n') = ['\n'] := by
      refine (dropNewline_eq_nil (Option.some.inj cut)).resolve_left fun none_ => ?_
      have last := List.getLast?_eq_some_getLast some_
      have noLine := List.dropWhile_eq_nil_iff.mp none_ _ (List.getLast_mem some_)
      exact of_decide_eq_true noLine (wholeLine.suffix (List.suffix_append _ _) _ last)
    have endsAgain : (line ++ more).dropWhile (· ≠ '\n') = '\n' :: more := by
      rw [List.dropWhile_append, ends]
      rfl
    unfold afterVariable?
    rw [afterWord?_append word, Option.bind_eq_bind, Option.bind_some,
      afterSomeBlanks?_append blanks (ne_nil_of_afterWord? nonempty named), Option.bind_some,
      afterWord?_append named, Option.bind_some, further, if_pos boundary, endsAgain]
    rfl
  · cases cut

/-! ### Cutting all of them -/

theorem Passage.noFunction {p : Passage} (whole : p.CutWhole name) (other : p.fate ≠ .asFunction) :
    NoLineBegins (afterFunctionHead? name) true p.text := by
  unfold Passage.CutWhole at whole
  cases is : p.fate with
  | kept =>
      rw [is] at whole
      exact whole.1
  | asFunction => exact absurd is other
  | asVariable =>
      rw [is] at whole
      exact whole.1

theorem InLines.behind {p : Passage} {ps : List Passage} (inLines : InLines (p :: ps)) :
    textOf ps = [] ∨ WholeLines p.text :=
  inLines.1.imp_left fun none_ => by rw [none_]; rfl

theorem removeFunctionFrom_passage {p : Passage} (whole : p.CutWhole name)
    (other : p.fate ≠ .asFunction) (lines : more = [] ∨ WholeLines p.text) (passed : List Char) :
    removeFunctionFrom name true passed (p.text ++ more) =
      removeFunctionFrom name true (p.text.reverse ++ passed) more := by
  rw [removeFunctionFrom_passes (p.noFunction whole other)]
  rcases lines with rfl | lines
  · rfl
  · rw [beginsBehind_of_wholeLines lines]

theorem removeFunctionFrom_none {ps : List Passage} (whole : ∀ p ∈ ps, p.CutWhole name)
    (inLines : InLines ps) (others : ∀ p ∈ ps, p.fate ≠ .asFunction) (passed : List Char) :
    removeFunctionFrom name true passed (textOf ps) = none := by
  induction ps generalizing passed with
  | nil => rfl
  | cons p ps ih =>
      rw [List.forall_mem_cons] at whole others
      rw [textOf_cons, removeFunctionFrom_passage whole.1 others.1 inLines.behind]
      exact ih whole.2 inLines.2 others.2 _

theorem removeFunctionFrom_first (nonempty : name ≠ "") {before after : List Passage} {p : Passage}
    (whole : ∀ q ∈ before ++ p :: after, q.CutWhole name) (inLines : InLines (before ++ p :: after))
    (others : ∀ q ∈ before, q.fate ≠ .asFunction) (isFunction : p.fate = .asFunction)
    (passed : List Char) :
    removeFunctionFrom name true passed (textOf (before ++ p :: after)) =
      some (passed.reverse ++ textOf (before ++ after)) := by
  induction before generalizing passed with
  | nil =>
      have cut := whole p List.mem_cons_self
      unfold Passage.CutWhole at cut
      rw [isFunction] at cut
      obtain ⟨behind, left, head, body, ends⟩ := cut
      exact removeFunctionFrom_cuts nonempty head body ends inLines.behind passed
  | cons q before ih =>
      rw [List.cons_append] at whole inLines
      rw [List.forall_mem_cons] at whole others
      rw [List.cons_append, textOf_cons,
        removeFunctionFrom_passage whole.1 others.1 inLines.behind]
      refine (ih whole.2 inLines.2 others.2 _).trans ?_
      rw [List.reverse_append, List.reverse_reverse, List.append_assoc]
      rfl

theorem removeFunctions_passages (nonempty : name ≠ "") :
    ∀ (rounds : Nat) (ps : List Passage), (∀ p ∈ ps, p.CutWhole name) → InLines ps →
      ps.countP (·.fate = .asFunction) ≤ rounds →
      removeFunctions name rounds (textOf ps) = textOf (ps.filter (·.fate ≠ .asFunction)) := by
  have done (ps : List Passage) (none_ : ∀ p ∈ ps, p.fate ≠ .asFunction) :
      ps.filter (·.fate ≠ .asFunction) = ps :=
    List.filter_eq_self.mpr fun p mem => decide_eq_true (none_ p mem)
  intro rounds
  induction rounds with
  | zero =>
      intro ps _ _ few
      have none_ := List.countP_eq_zero.mp (Nat.le_zero.mp few)
      rw [done ps fun p mem is => none_ p mem (decide_eq_true is)]
      rfl
  | succ rounds ih =>
      intro ps whole inLines few
      cases first : ps.find? (·.fate = .asFunction) with
      | none =>
          have none_ (p : Passage) (mem : p ∈ ps) : p.fate ≠ .asFunction :=
            of_decide_eq_false (by simpa using List.find?_eq_none.mp first p mem)
          rw [removeFunctions, removeFunctionFrom_none whole inLines none_, done ps none_]
      | some p =>
          obtain ⟨isFunction, before, after, rfl, others⟩ :=
            List.find?_eq_some_iff_append.mp first
          have isFunction := of_decide_eq_true isFunction
          have noFunction (q : Passage) (mem : q ∈ before) : q.fate ≠ .asFunction := by
            simpa using others q mem
          have fewer : (before ++ after).Sublist (before ++ p :: after) :=
            List.Sublist.append_left (List.sublist_cons_self p after) before
          rw [removeFunctions,
            removeFunctionFrom_first nonempty whole inLines noFunction isFunction]
          refine (ih (before ++ after) (fun q mem => whole q (fewer.subset mem))
            (inLines.sublist fewer) ?_).trans ?_
          · rw [List.countP_append, List.countP_cons_of_pos (by simpa using isFunction)] at few
            rw [List.countP_append]
            omega
          · rw [List.filter_append, List.filter_append,
              List.filter_cons_of_neg (by simpa using isFunction)]

theorem removeVariables_passages (nonempty : name ≠ "") (plain : '\n' ∉ name.toList) :
    ∀ (ps : List Passage), (∀ p ∈ ps, p.CutWhole name) → InLines ps →
      (∀ p ∈ ps, p.fate ≠ .asFunction) → ∀ (steps : Nat) (kept : List Char),
      (textOf ps).length ≤ steps →
      removeVariables name steps true kept (textOf ps) =
        kept.reverse ++ textOf (ps.filter (·.fate = .kept)) := by
  intro ps
  induction ps with
  | nil =>
      intro _ _ _ steps kept _
      cases steps <;> simp [removeVariables, textOf]
  | cons p ps ih =>
      intro whole inLines others steps kept enough
      rw [List.forall_mem_cons] at whole others
      have cut := whole.1
      rw [textOf_cons, List.length_append] at enough
      rw [textOf_cons]
      unfold Passage.CutWhole at cut
      cases fate : p.fate with
      | kept =>
          rw [fate] at cut
          obtain ⟨fewer, rfl⟩ := Nat.exists_eq_add_of_le (Nat.le_of_add_right_le enough)
          have more := ih whole.2 inLines.2 others.2 fewer (p.text.reverse ++ kept) (by omega)
          rw [removeVariables_passes cut.2, List.filter_cons_of_pos (by simpa using fate),
            textOf_cons, ← List.append_assoc]
          rw [List.reverse_append, List.reverse_reverse] at more
          rcases inLines.behind with none_ | lines
          · rw [none_] at more ⊢
            rw [← more]
            cases fewer <;> rfl
          · rw [beginsBehind_of_wholeLines lines, more]
      | asFunction => exact absurd fate others.1
      | asVariable =>
          rw [fate] at cut
          have found := afterVariable?_append plain nonempty cut.2 inLines.behind
          obtain ⟨c, rest, text⟩ : ∃ c rest, p.text = c :: rest := by
            cases is : p.text with
            | nil =>
                rw [is] at cut
                cases cut.2
            | cons c rest => exact ⟨c, rest, rfl⟩
          rw [text, List.cons_append] at found ⊢
          rw [text, List.length_cons] at enough
          obtain ⟨fewer, rfl⟩ : ∃ fewer, steps = fewer + 1 := ⟨steps - 1, by omega⟩
          rw [removeVariables, if_pos rfl, found, List.filter_cons_of_neg (by simp [fate])]
          exact ih whole.2 inLines.2 others.2 fewer kept (by omega)

theorem stripDeclarations_passages (nonempty : name ≠ "") (plain : '\n' ∉ name.toList)
    {ps : List Passage} (whole : ∀ p ∈ ps, p.CutWhole name) (inLines : InLines ps) :
    stripDeclarations (textOf ps) name = textOf (ps.filter (·.fate = .kept)) := by
  have few : ps.countP (·.fate = .asFunction) ≤ (textOf ps).length := by
    induction ps with
    | nil => exact Nat.le_refl _
    | cons p ps ih =>
        have more := ih (fun q mem => whole q (List.mem_cons_of_mem p mem)) inLines.2
        rw [List.countP_cons, textOf_cons, List.length_append]
        split
        · rename_i isFunction
          have cut := whole p List.mem_cons_self
          unfold Passage.CutWhole at cut
          rw [of_decide_eq_true isFunction] at cut
          obtain ⟨behind, left, head, -⟩ := cut
          have some_ : 0 < p.text.length := by
            refine List.length_pos_iff.mpr fun empty => ?_
            rw [empty] at head
            cases head
          omega
        · omega
  have fewer : (ps.filter (·.fate ≠ .asFunction)).Sublist ps := List.filter_sublist
  unfold stripDeclarations
  dsimp only
  rw [removeFunctions_passages nonempty _ ps whole inLines few,
    removeVariables_passages nonempty plain _ (fun p mem => whole p (fewer.subset mem))
      (inLines.sublist fewer) (fun p mem => by simpa using (List.mem_filter.mp mem).2) _ []
      (Nat.le_refl _), List.filter_filter]
  refine congrArg textOf (List.filter_congr fun p _ => ?_)
  cases p.fate <;> rfl

/-! ## Passages that are read by themselves -/

theorem readAs_nothing {ts : List Token} (reads : ReadAs false [] ts) : ts = [.endOfText] := by
  obtain ⟨result, ran, same⟩ := reads 0 ⟨[], ⟨1, 1⟩⟩ [] rfl (Nat.le_refl _) rfl
  cases ran
  exact same.symm

/-- Behind whole lines, or in front of nothing, a text is read as if it stood alone. -/
theorem readAs_behind {ts us : List Token} (reads : Reads false text (ts ++ [.endOfText]))
    (lines : more = [] ∨ WholeLines text) (others : ReadAs false more us) :
    ReadAs false (text ++ more) (ts ++ us) := by
  rcases lines with rfl | lines
  · rw [List.append_nil, readAs_nothing others]
    exact reads.readAs
  · obtain ⟨ts', same, readAs⟩ := reads.readAs_append lines (fun _ => rfl) others
    rwa [List.append_cancel_right same]

theorem readAs_passages {words : String → String} {ps : List Passage}
    (reads : ∀ p ∈ ps, Reads false p.text (pieceTokens words p.decls ++ [.endOfText]))
    (inLines : InLines ps) :
    ReadAs false (textOf ps) (pieceTokens words (ps.flatMap Passage.decls) ++ [.endOfText]) := by
  induction ps with
  | nil => exact readAs_nil
  | cons p ps ih =>
      rw [List.forall_mem_cons] at reads
      have parts : pieceTokens words ((p :: ps).flatMap Passage.decls) ++ [.endOfText] =
          pieceTokens words p.decls ++
            (pieceTokens words (ps.flatMap Passage.decls) ++ [.endOfText]) := by
        rw [pieceTokens, List.flatMap_cons, List.flatMap_append, List.append_assoc]
        rfl
      rw [parts]
      exact readAs_behind reads.1 inLines.behind (ih reads.2 inLines.2)

/-! ## Programs in passages -/

/-- A program in pieces that is written down in other words: its text in passages, each of which is
read by itself. -/
structure Sheet (words : String → String) where
  layout : Layout
  opening : List Char
  passages : List Passage
  decls : layout.decls = passages.flatMap Passage.decls
  opening_read : Reads false opening (layout.headTokens words ++ [.endOfText])
  passages_read : ∀ p ∈ passages, Reads false p.text (pieceTokens words p.decls ++ [.endOfText])

namespace Sheet

variable {words : String → String} (sheet : Sheet words)

/-- All passages, the one in front of the declarations among them. -/
def all : List Passage := ⟨sheet.opening, [], .kept⟩ :: sheet.passages

/-- The cut of a name leaves or takes whole passages: those that it takes hold declarations of that
name only, and the others none of them. -/
structure CutCleanly (name : String) : Prop where
  inLines : InLines sheet.all
  whole : ∀ p ∈ sheet.all, p.CutWhole name
  declares : ∀ p ∈ sheet.passages, ∀ d ∈ p.decls,
    (d.2.reworded words).declaresOnly name = decide (p.fate ≠ .kept)

variable {sheet}

/-- The pieces in the passages that are kept are those of other declarations. -/
theorem kept_decls (clean : sheet.CutCleanly name) :
    (sheet.layout.without fun d => (d.reworded words).declaresOnly name).decls =
      (sheet.passages.filter (·.fate = .kept)).flatMap Passage.decls := by
  change sheet.layout.decls.filter _ = _
  rw [sheet.decls, List.filter_flatMap]
  have declares := clean.declares
  generalize sheet.passages = ps at declares ⊢
  induction ps with
  | nil => rfl
  | cons p ps ih =>
      rw [List.forall_mem_cons] at declares
      rw [List.flatMap_cons, ih declares.2]
      by_cases kept : p.fate = .kept
      · rw [List.filter_cons_of_pos (by simpa using kept), List.flatMap_cons]
        congr 1
        exact List.filter_eq_self.mpr fun d mem => by simp [declares.1 d mem, kept]
      · rw [List.filter_cons_of_neg (by simpa using kept)]
        have none_ : p.decls.filter (fun d => !(d.2.reworded words).declaresOnly name) = [] :=
          List.filter_eq_nil_iff.mpr fun d mem => by simp [declares.1 d mem, kept]
        rw [none_, List.nil_append]

/-- What the cut leaves is read as the pieces that do not declare the name. -/
theorem readAs_stripped (clean : sheet.CutCleanly name) (nonempty : name ≠ "")
    (plain : '\n' ∉ name.toList) :
    ReadAs false (stripDeclarations (textOf sheet.all) name)
      ((sheet.layout.without fun d => (d.reworded words).declaresOnly name).tokens words) := by
  have fewer : (sheet.passages.filter (·.fate = .kept)).Sublist sheet.passages :=
    List.filter_sublist
  have inLines : InLines (⟨sheet.opening, [], .kept⟩ ::
      sheet.passages.filter (·.fate = .kept)) :=
    clean.inLines.sublist (.cons_cons _ fewer)
  rw [stripDeclarations_passages nonempty plain clean.whole clean.inLines, Layout.tokens,
    kept_decls clean]
  exact readAs_behind sheet.opening_read inLines.behind
    (readAs_passages (fun p mem => sheet.passages_read p (fewer.subset mem)) inLines.2)

end Sheet

/-! ## Bound host calls -/

/-- The names of a program whose host calls are bound to a name. -/
def boundWords (bound word : String) : String := if word = canonicalHostCall then bound else word

/-- A name that is neither reserved nor known to the parser is as good as the one that it stands
for. -/
theorem boundWords_harmless {bound : String} (free : Keyword.ofWord? bound = none)
    (unknown : bound ∉ parserNames) : Harmless (boundWords bound) where
  keeps word known other := by
    have notBound : bound ≠ word := by
      rintro rfl
      rcases List.mem_cons.mp known with rfl | known
      · cases free
      · exact unknown known
    have notCanonical : canonicalHostCall ≠ word := by
      rintro rfl
      revert known
      decide
    unfold boundWords
    split
    · rename_i isCanonical
      subst isCanonical
      exact iff_of_false notBound notCanonical
    · exact .rfl
  keepsMethods := ⟨if_neg (by decide), if_neg (by decide)⟩
  keepsPoint := if_neg (by decide)

theorem toList_withHostCallsBound (source : String) {bound : String}
    (identifier : isIdentifier bound = true) : (withHostCallsBound source bound).toList =
      stripDeclarations (withHostCallsRenamed source bound).toList bound := by
  unfold withHostCallsBound bindHostCalls
  rw [String.toList_ofList, identifier, Bool.not_true, if_neg Bool.false_ne_true]
  split
  · rename_i same
    rw [same, withHostCallsRenamed_self]
  · rw [withHostCallsRenamed, String.toList_ofList]

theorem nonempty_of_identifier (identifier : isIdentifier name = true) : name ≠ "" := by
  rintro rfl
  cases identifier

theorem plain_of_identifier (identifier : isIdentifier name = true) : '\n' ∉ name.toList := by
  intro mem
  have word := guestName_of_identifier identifier (show Stops Cursor.isNameChar [] from nofun)
  cases word.names _ mem

end Submission

variable {source bound : String} {located : List Located}

/-- If binding the host calls of a program to a name cuts whole passages out of its text, the
program that is left is accepted: it is the program in the new words without the functions and the
variables of that name. -/
theorem bound_program_eq_without (sheet : Sheet (boundWords bound))
    (written : (withHostCallsRenamed source bound).toList = textOf sheet.all)
    (lexed : tokenize source = .ok located)
    (laid : located.map Located.token = sheet.layout.tokens id)
    (clean : sheet.CutCleanly bound) (identifier : isIdentifier bound = true)
    (free : Keyword.ofWord? bound = none) (unknown : bound ∉ parserNames) :
    ∃ p q, parseProgram source = .ok p ∧ parseProgram (withHostCallsBound source bound) = .ok q ∧
      q.reworded id = (p.reworded (boundWords bound)).without bound := by
  have reads := Sheet.readAs_stripped clean (nonempty_of_identifier identifier)
    (plain_of_identifier identifier)
  rw [← written, ← toList_withHostCallsBound source identifier] at reads
  obtain ⟨kept, cut, left⟩ := tokenize_of_readAs reads
  obtain ⟨p, parsed, same⟩ := sheet.layout.parses harmless_id lexed laid
  obtain ⟨q, parsed', same'⟩ := Layout.parses _ (boundWords_harmless free unknown) cut left
  refine ⟨p, q, parsed, parsed', ?_⟩
  have words : p.reworded (boundWords bound) =
      sheet.layout.program.reworded (boundWords bound) := by
    have again := congrArg (Program.reworded (boundWords bound)) same
    rwa [Program.reworded_reworded, Program.reworded_reworded] at again
  rw [same', Layout.without_program, words]

deriving instance DecidableEq for Token

theorem tokenize_of_tokens {source : String} {tokens : List Token}
    (is : (tokenize source).toOption.map (·.map Located.token) = some tokens) :
    ∃ located, tokenize source = .ok located ∧ located.map Located.token = tokens := by
  cases lexed : tokenize source with
  | error e =>
      rw [lexed] at is
      cases is
  | ok located =>
      rw [lexed] at is
      exact ⟨located, rfl, Option.some.inj is⟩

theorem reads_of_tokens {source : String} {tokens : List Token}
    (is : (tokenize source).toOption.map (·.map Located.token) = some tokens) :
    Reads false source.toList tokens := by
  obtain ⟨located, lexed, rfl⟩ := tokenize_of_tokens is
  exact tokenize_reads lexed

/-- A function of the bound name. -/
def stubPassage : Passage where
  text := "func bridge() \x7b\n\x7d\n".toList
  decls := [([.keyword .func, .name "bridge", .mark .lParen, .mark .rParen, .mark .lBrace,
      .mark .rBrace].map (Located.mk · default), .func ⟨0, "bridge", none, .mk [] [] false []⟩)]
  fate := .asFunction

/-- A variable of the bound name. -/
def variablePassage : Passage where
  text := "var bridge = 3\n".toList
  decls := [([.keyword .var, .name "bridge", .mark .assign, .int 3].map (Located.mk · default),
      .var [.mk 0 ["bridge"] none [.int 3] 0])]
  fate := .asVariable

/-- A function that calls the host. -/
def callingPassage : Passage where
  text := "func main() \x7b\n\tbridge()\n\x7d".toList
  decls := [([.keyword .func, .name "main", .mark .lParen, .mark .rParen, .mark .lBrace,
      .name "callTool", .mark .lParen, .mark .rParen, .mark .semi, .mark .rBrace].map
        (Located.mk · default),
      .func ⟨0, "main", none, .mk [] [] false [.mk 0 (.expr (.call (.name "callTool") [] false))]⟩)]
  fate := .kept

theorem areDeclarations :
    ∀ d ∈ [stubPassage, variablePassage, callingPassage].flatMap Passage.decls,
      IsDeclaration d.1 d.2 := by
  intro d mem
  rcases List.mem_cons.mp mem with rfl | mem
  · rfl
  rcases List.mem_cons.mp mem with rfl | mem
  · rfl
  obtain rfl := List.mem_singleton.mp mem
  rfl

/-- A program with a function and a variable of the bound name. -/
def sheetWithStub : Sheet (boundWords "bridge") where
  layout := ⟨"main", [], _, nofun, areDeclarations⟩
  opening := "package main\n".toList
  passages := [stubPassage, variablePassage, callingPassage]
  decls := rfl
  opening_read := reads_of_tokens (by decide +kernel)
  passages_read p mem := by
    rcases List.mem_cons.mp mem with rfl | mem
    · exact reads_of_tokens (by decide +kernel)
    rcases List.mem_cons.mp mem with rfl | mem
    · exact reads_of_tokens (by decide +kernel)
    obtain rfl := List.mem_singleton.mp mem
    exact reads_of_tokens (by decide +kernel)

theorem opening_cutWhole : Passage.CutWhole "bridge" ⟨sheetWithStub.opening, [], .kept⟩ :=
  ⟨noLineBegins_of_beginnings (afterFunctionHead?_other "bridge") _ _ (by decide +kernel),
    noLineBegins_of_beginnings (afterVariable?_other "bridge") _ _ (by decide +kernel)⟩

theorem stubPassage_cutWhole : stubPassage.CutWhole "bridge" :=
  ⟨") \x7b\n\x7d\n".toList, ['\n'], by decide +kernel, by decide +kernel, rfl⟩

theorem variablePassage_cutWhole : variablePassage.CutWhole "bridge" :=
  ⟨noLineBegins_of_beginnings (afterFunctionHead?_other "bridge") _ _ (by decide +kernel),
    by decide +kernel⟩

theorem callingPassage_cutWhole : callingPassage.CutWhole "bridge" := by
  have head (tail : List Char) :
      afterFunctionHead? "bridge" ('f' :: 'u' :: 'n' :: 'c' :: ' ' :: 'm' :: tail) = none := by
    have blanks : afterSomeBlanks? (' ' :: 'm' :: tail) = some ('m' :: tail) := by
      rw [afterSomeBlanks?, if_pos (by decide +kernel), afterBlanks,
        List.dropWhile_cons_of_neg (by decide +kernel)]
    unfold afterFunctionHead?
    rw [show afterWord? "func" ('f' :: 'u' :: 'n' :: 'c' :: ' ' :: 'm' :: tail) =
      some (' ' :: 'm' :: tail) from rfl, Option.bind_eq_bind, Option.bind_some, blanks]
    rfl
  exact ⟨⟨fun _ more => head _,
      noLineBegins_of_beginnings (afterFunctionHead?_other "bridge") _ _ (by decide +kernel)⟩,
    noLineBegins_of_beginnings (afterVariable?_other "bridge") _ _ (by decide +kernel)⟩

theorem sheetWithStub_cutCleanly : sheetWithStub.CutCleanly "bridge" where
  inLines := by
    have lines (text : String) (ends : text.toList.getLast? = some '\n') : WholeLines text.toList :=
      fun c last => (Option.some.inj (ends.symm.trans last)).symm
    exact ⟨.inr (lines _ rfl), .inr (lines _ rfl), .inr (lines _ rfl), .inl rfl, trivial⟩
  whole := List.forall_mem_cons.mpr ⟨opening_cutWhole, List.forall_mem_cons.mpr
    ⟨stubPassage_cutWhole, List.forall_mem_cons.mpr
      ⟨variablePassage_cutWhole, List.forall_mem_singleton.mpr callingPassage_cutWhole⟩⟩⟩
  declares := by decide

theorem bound_program_eq_without_stub :
    let source := "package main\nfunc bridge() \x7b\n\x7d\nvar bridge = 3\n" ++
      "func main() \x7b\n\tcallTool()\n\x7d"
    ∃ p q, parseProgram source = .ok p ∧
      parseProgram (withHostCallsBound source "bridge") = .ok q ∧
      q.reworded id = (p.reworded (boundWords "bridge")).without "bridge" := by
  intro source
  obtain ⟨located, lexed, laid⟩ := tokenize_of_tokens
    (by decide +kernel : (tokenize source).toOption.map (·.map Located.token) =
      some (sheetWithStub.layout.tokens id))
  exact bound_program_eq_without sheetWithStub (by decide +kernel) lexed laid
    sheetWithStub_cutCleanly (by decide +kernel) (by decide) (by decide)

end SandboxedGo
