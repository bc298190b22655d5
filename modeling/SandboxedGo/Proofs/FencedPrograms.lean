import Mathlib.Data.List.TakeWhile
import SandboxedGo.Proofs.Names
import SandboxedGo.Proofs.TextSizes
import SandboxedGo.Proofs.TightenedPolicies
import SandboxedGo.Submission.HostCalls

/-!
# Programs between fences

A fence is found by searching, so backquotes that stand just before it make the search succeed a
little earlier, and the tag of the opening fence may hold anything.  Neither matters: the search
goes on behind the end of the line, where the program begins.  Main statement of the first part:
`extractCode_fenced`.

Whatever the text is, what comes out of it is a piece of it that has no fence and no white space at
its ends, so nothing is left to extract.  The places where the text is cut are found in bytes, and
none of them lies inside a character.  Main statement of the second part: `extractCode_settles`.
-/

set_option autoImplicit false

/-! ## The first occurrence -/

namespace SandboxedGo.Text

theorem breakFrom_first {needle passed before behind : List Char} :
    ∀ {earlier hay : List Char} {later : List Char}, hay = earlier ++ needle ++ later →
      breakFrom needle passed hay = some (before, behind) →
      before.length ≤ passed.length + earlier.length := by
  intro earlier hay
  induction hay generalizing passed earlier with
  | nil =>
      intro later split found
      unfold breakFrom at found
      split at found
      · cases found
        simp
      · cases found
  | cons c rest ih =>
      intro later split found
      unfold breakFrom at found
      by_cases begins : needle.isPrefixOf (c :: rest) = true
      · rw [if_pos begins] at found
        cases found
        simp
      · rw [if_neg begins] at found
        cases earlier with
        | nil =>
            have here : needle <+: c :: rest := ⟨later, split.symm⟩
            exact absurd (List.isPrefixOf_iff_prefix.mpr here) begins
        | cons d earlier =>
            rw [List.cons_append, List.cons_append, List.cons.injEq] at split
            have sooner := ih split.2 found
            simp only [List.length_cons] at sooner ⊢
            omega

/-- The search succeeds if there is an occurrence, and splits the text there. -/
theorem breakOn_occurs (needle : List Char) {hay : List Char} (occurs : needle <:+: hay) :
    ∃ before behind, breakOn needle hay = some (before, behind) ∧
      hay = before ++ needle ++ behind := by
  have found := (breakFrom_isSome_iff needle [] hay).mpr occurs
  obtain ⟨⟨before, behind⟩, is⟩ := Option.isSome_iff_exists.mp found
  exact ⟨before, behind, is, by simpa using breakFrom_splits is⟩

/-- White space around a text is trimmed off with the white space of the text itself. -/
theorem trim_surrounded {left right : List Char} (blankLeft : ∀ c ∈ left, isBlank c = true)
    (blankRight : ∀ c ∈ right, isBlank c = true) (chars : List Char) :
    trim (left ++ chars ++ right) = trim chars := by
  have passes {side : List Char} (blank : ∀ c ∈ side, isBlank c = true) (rest : List Char) :
      (side ++ rest).dropWhile isBlank = rest.dropWhile isBlank := by
    rw [List.dropWhile_append, List.dropWhile_eq_nil_iff.mpr blank]
    rfl
  have backwards : ∀ c ∈ right.reverse, isBlank c = true := by simpa using blankRight
  unfold trim
  rw [List.append_assoc, passes blankLeft, List.dropWhile_append]
  split
  · rename_i allBlank
    rw [List.isEmpty_iff.mp allBlank, List.dropWhile_eq_nil_iff.mpr blankRight]
  · rw [List.reverse_append, passes backwards]

end SandboxedGo.Text

namespace SandboxedGo.Submission

open Text (breakOn)

/-! ## Fences -/

theorem fence_backquote {c : Char} (member : c ∈ fence) : c = '\x60' := by
  simpa [fence] using member

/-- Where the opening fence is found: there or up to two backquotes earlier, so that nothing but
backquotes stands between what was found and what follows the fence. -/
theorem breakOn_opening {before : List Char} (noFence : ¬ fence <:+: before) (rest : List Char) :
    ∃ earlier backquotes,
      breakOn fence (before ++ fence ++ rest) = some (earlier, backquotes ++ rest) ∧
      ∀ c ∈ backquotes, c = '\x60' := by
  obtain ⟨earlier, behind, found, split⟩ :=
    Text.breakOn_occurs fence (List.infix_append before fence rest)
  have first : earlier.length ≤ before.length := by
    simpa using Text.breakFrom_first rfl found
  rw [List.append_eq_append_iff] at split
  rcases split with ⟨more, longer, rest_⟩ | ⟨backquotes, shorter, behind_⟩
  · have lengths := congrArg List.length longer
    simp only [List.length_append] at lengths
    have nothing : more = [] := List.eq_nil_of_length_eq_zero (by omega)
    subst nothing
    exact ⟨earlier, [], by rw [found, rest_, List.nil_append, List.nil_append], by simp⟩
  · refine ⟨earlier, backquotes, by rw [found, behind_], fun c member => ?_⟩
    have lengths := congrArg List.length shorter
    simp only [List.length_append] at lengths
    -- What was found ends behind `before`, which has no fence in it.
    have few : backquotes.length ≤ fence.length := by
      by_contra many
      have inside : earlier ++ fence <+: before := by
        have both : earlier ++ fence <+: before ++ fence := ⟨backquotes, shorter.symm⟩
        refine List.prefix_of_prefix_length_le both (List.prefix_append _ _) ?_
        rw [List.length_append]
        omega
      exact noFence ((List.suffix_append earlier fence).isInfix.trans inside.isInfix)
    have ending : backquotes <:+ fence :=
      List.suffix_of_suffix_length_le ⟨earlier ++ fence, shorter.symm⟩ (List.suffix_append _ _) few
    exact fence_backquote (ending.subset member)

theorem fence_beside {c : Char} (other : c ≠ '\x60') {left right before behind : List Char}
    (split : left ++ c :: right = before ++ fence ++ behind) :
    before ++ fence <+: left ∨ left ++ [c] <+: before := by
  have whole : left ++ [c] <+: before ++ fence ++ behind := ⟨right, by rw [← split]; simp⟩
  have part : left <+: before ++ fence ++ behind := ⟨c :: right, split⟩
  by_cases within : left.length < before.length
  · refine .inr (List.prefix_of_prefix_length_le whole ?_ ?_)
    · exact (List.prefix_append before fence).trans (List.prefix_append _ behind)
    · rw [List.length_append]
      exact within
  · by_cases beyond : (before ++ fence).length ≤ left.length
    · exact .inl (List.prefix_of_prefix_length_le (List.prefix_append _ _) part beyond)
    · have place : (before ++ fence ++ behind)[left.length]? = some c := by
        rw [← split]
        simp
      rw [List.getElem?_append_left (by omega), List.getElem?_append_right (by omega)] at place
      exact absurd (fence_backquote (List.mem_of_getElem? place)) other

theorem breakOn_closing {code : List Char} (noFence : ¬ fence <:+: code) (rest : List Char) :
    breakOn fence ('\n' :: code ++ '\n' :: (fence ++ rest)) =
      some ('\n' :: code ++ ['\n'], rest) := by
  have text : '\n' :: code ++ '\n' :: (fence ++ rest) =
      ('\n' :: code ++ ['\n']) ++ fence ++ rest := by simp
  obtain ⟨before, behind, found, split⟩ :=
    Text.breakOn_occurs fence (List.infix_append ('\n' :: code ++ ['\n']) fence rest)
  have first : before.length ≤ ('\n' :: code ++ ['\n']).length := by
    simpa using Text.breakFrom_first rfl found
  rw [text, found]
  rw [← text] at split
  rcases fence_beside (by decide) split with inside | reaches
  · obtain ⟨more, code_⟩ := inside
    have whole : [] ++ '\n' :: code = before ++ fence ++ more := code_.symm
    rcases fence_beside (by decide) whole with none_ | ⟨others, begins⟩
    · have empty := List.prefix_nil.mp none_
      simp [fence] at empty
    · rw [← begins, List.nil_append, List.append_assoc, List.append_assoc, List.singleton_append,
        List.cons.injEq] at code_
      exact absurd ⟨others, more, by simpa using code_.2⟩ noFence
  · have here := reaches.eq_of_length_le first
    rw [← here, text, List.append_cancel_left_eq] at split
    rw [← here, split]

/-! ## Round trip -/

theorem codeIn_fenced {before tag code after : List Char} (noFence : ¬ fence <:+: before)
    (oneLine : '\n' ∉ tag) (trimmed : Text.trim code = code) (noFenceInside : ¬ fence <:+: code) :
    codeIn (before ++ fence ++ (tag ++ '\n' :: code ++ '\n' :: (fence ++ after))) = code := by
  obtain ⟨earlier, backquotes, opening, plain⟩ :=
    breakOn_opening noFence (tag ++ '\n' :: code ++ '\n' :: (fence ++ after))
  have sameLine : ∀ c ∈ backquotes ++ tag, decide (c ≠ '\n') = true := by
    intro c member
    rw [decide_eq_true_eq]
    rcases List.mem_append.mp member with backquote | ofTag
    · rw [plain c backquote]
      decide
    · rintro rfl
      exact oneLine ofTag
  have behind : (backquotes ++ (tag ++ '\n' :: code ++ '\n' :: (fence ++ after))).dropWhile
      (· ≠ '\n') = '\n' :: code ++ '\n' :: (fence ++ after) := by
    rw [List.append_assoc tag, ← List.append_assoc, List.dropWhile_append_of_pos sameLine]
    rfl
  have blank : ∀ c ∈ ['\n'], Text.isBlank c = true := by
    intro c member
    rw [List.mem_singleton.mp member]
    decide +kernel
  simp only [codeIn, opening, behind, breakOn_closing noFenceInside]
  exact (Text.trim_surrounded blank blank code).trans trimmed

/-- A program between two fences comes back as it is, whatever stands around it. -/
theorem extractCode_fenced {before tag code after : String}
    (noFence : ¬ fence <:+: before.toList) (oneLine : '\n' ∉ tag.toList)
    (trimmed : String.ofList (Text.trim code.toList) = code)
    (noFenceInside : ¬ fence <:+: code.toList) :
    extractCode (before ++ "```" ++ tag ++ "\n" ++ code ++ "\n```" ++ after) = code := by
  have text : (before ++ "```" ++ tag ++ "\n" ++ code ++ "\n```" ++ after).toList =
      before.toList ++ fence ++
        (tag.toList ++ '\n' :: code.toList ++ '\n' :: (fence ++ after.toList)) := by
    simp [fence]
  have trimmed_ : Text.trim code.toList = code.toList := by
    rw [← String.toList_ofList (l := Text.trim code.toList), trimmed]
  rw [extractCode, text, codeIn_fenced noFence oneLine trimmed_ noFenceInside, String.ofList_toList]

/-- Backquotes at the end of the prose, in the tag and around the program do no harm. -/
theorem extractCode_fenced_backquotes :
    extractCode ("Here it is: ``" ++ "```" ++ "go `1`" ++ "\n" ++ "`package main`" ++ "\n```" ++
      "` Done. ```") = "`package main`" :=
  extractCode_fenced (by decide +kernel) (by decide +kernel) (by decide +kernel) (by decide +kernel)

end SandboxedGo.Submission

/-! ## Trimming -/

namespace SandboxedGo.Text

open Submission (Stops stops_dropWhile)

/-- A text has no white space at its ends. -/
def Trimmed (chars : List Char) : Prop :=
  (∀ c, chars.head? = some c → isBlank c = false) ∧
    ∀ c, chars.getLast? = some c → isBlank c = false

theorem trim_within (chars : List Char) : trim chars <+: chars.dropWhile isBlank := by
  have atEnd := List.dropWhile_suffix (l := (chars.dropWhile isBlank).reverse) isBlank
  simpa [trim] using List.reverse_prefix.mpr atEnd

theorem trim_infix (chars : List Char) : trim chars <:+: chars :=
  (trim_within chars).isInfix.trans (List.dropWhile_suffix isBlank).isInfix

theorem trim_trimmed (chars : List Char) : Trimmed (trim chars) := by
  constructor
  · intro c first
    obtain ⟨more, split⟩ := trim_within chars
    apply stops_dropWhile isBlank chars
    rw [← split, List.head?_append, first]
    rfl
  · intro c last
    rw [trim, List.getLast?_reverse] at last
    exact stops_dropWhile isBlank _ c last

theorem trim_eq_self {chars : List Char} (trimmed : Trimmed chars) : trim chars = chars := by
  have stays {rest : List Char} (stops : Stops isBlank rest) : rest.dropWhile isBlank = rest := by
    cases rest with
    | nil => rfl
    | cons c rest => exact List.dropWhile_cons_of_neg (by simp [stops c rfl])
  have backwards : Stops isBlank chars.reverse := by simpa [Stops] using trimmed.2
  rw [trim, stays trimmed.1, stays backwards, List.reverse_reverse]

theorem breakOn_before {needle hay before behind : List Char} (some_ : needle ≠ [])
    (found : breakOn needle hay = some (before, behind)) : ¬ needle <:+: before := by
  rintro ⟨left, right, rfl⟩
  have split : hay = left ++ needle ++ (right ++ needle ++ behind) := by
    simpa using breakFrom_splits found
  have first := breakFrom_first split found
  have positive := List.length_pos_iff.mpr some_
  simp only [List.length_append, List.length_nil] at first
  omega

theorem breakOn_none {needle hay : List Char} (nowhere : breakOn needle hay = none) :
    ¬ needle <:+: hay := by
  rw [← containsText_iff, containsText, nowhere]
  exact Bool.false_ne_true

/-! ## Places in bytes -/

/-- The place in bytes where a text occurs first. -/
def byteOffset? (needle hay : List Char) : Option Nat :=
  (breakOn needle hay).map fun parts => byteLength parts.1

/-- The first bytes of a text; none if there are fewer or a character lies across the cut. -/
def upToByte? : Nat → List Char → Option (List Char)
  | 0, _ => some []
  | _ + 1, [] => none
  | n + 1, c :: rest =>
    if c.utf8Size ≤ n + 1 then (upToByte? (n + 1 - c.utf8Size) rest).map (c :: ·) else none

/-- The text behind its first bytes; none if there are fewer or a character lies across the cut. -/
def fromByte? : Nat → List Char → Option (List Char)
  | 0, rest => some rest
  | _ + 1, [] => none
  | n + 1, c :: rest =>
    if c.utf8Size ≤ n + 1 then fromByte? (n + 1 - c.utf8Size) rest else none

/-- What lies between two places of a text, of which the second does not come before the first. -/
def betweenBytes? (first last : Nat) (chars : List Char) : Option (List Char) := do
  fromByte? first (← upToByte? last chars)

theorem byteLength_cons_pos (c : Char) (rest : List Char) :
    ∃ n, byteLength (c :: rest) = n + 1 ∧ c.utf8Size ≤ n + 1 ∧
      n + 1 - c.utf8Size = byteLength rest := by
  have positive := c.utf8Size_pos
  refine ⟨byteLength (c :: rest) - 1, ?_⟩
  rw [byteLength]
  omega

theorem upToByte?_append (before rest : List Char) :
    upToByte? (byteLength before) (before ++ rest) = some before := by
  induction before with
  | nil => cases rest <;> rfl
  | cons c before ih =>
      obtain ⟨n, size, fits, left⟩ := byteLength_cons_pos c before
      rw [size, List.cons_append, upToByte?, if_pos fits, left, ih]
      rfl

theorem fromByte?_append (before rest : List Char) :
    fromByte? (byteLength before) (before ++ rest) = some rest := by
  induction before with
  | nil => cases rest <;> rfl
  | cons c before ih =>
      obtain ⟨n, size, fits, left⟩ := byteLength_cons_pos c before
      rw [size, List.cons_append, fromByte?, if_pos fits, left, ih]

theorem betweenBytes?_append (before between rest : List Char) :
    betweenBytes? (byteLength before) (byteLength before + byteLength between)
      (before ++ between ++ rest) = some between := by
  rw [betweenBytes?, ← byteLength_append, upToByte?_append]
  exact fromByte?_append before between

/-- The first line of a text ends where a newline is found, or with the text. -/
theorem breakFrom_newline (passed chars : List Char) :
    breakFrom ['\n'] passed chars =
      match chars.dropWhile (· ≠ '\n') with
      | [] => none
      | _ :: rest => some (passed.reverse ++ chars.takeWhile (· ≠ '\n'), rest) := by
  induction chars generalizing passed with
  | nil => rfl
  | cons c rest ih =>
      by_cases newline : c = '\n'
      · subst newline
        simp [breakFrom]
      · rw [breakFrom, if_neg (by simpa using Ne.symm newline), ih,
          List.dropWhile_cons_of_pos (by simpa using newline),
          List.takeWhile_cons_of_pos (by simpa using newline)]
        split
        · rfl
        · simp

end SandboxedGo.Text

namespace SandboxedGo.Submission

/-! ## Extracted code -/

/-- The code inside a text, which is cut at places in bytes; none if one of them lies outside of the
text or inside a character. -/
def codeByBytes (chars : List Char) : Option (List Char) :=
  match Text.byteOffset? fence chars with
  | none => some (Text.trim chars)
  | some opening => do
    let tagStart := opening + Text.byteLength fence
    let lineEnd :=
      match Text.byteOffset? ['\n'] (← Text.fromByte? tagStart chars) with
      | some n => tagStart + n
      | none => Text.byteLength chars
    let after ← Text.fromByte? lineEnd chars
    match Text.byteOffset? fence after with
    | some closing => return Text.trim (← Text.upToByte? closing after)
    | none =>
      let tag ← Text.betweenBytes? tagStart lineEnd chars
      let before ← Text.upToByte? opening chars
      return besideFence (Text.trim before) (Text.trim tag) (Text.trim after)

theorem besideFence_cases (before tag after : List Char) :
    besideFence before tag after = after ∨ besideFence before tag after = before := by
  unfold besideFence
  split
  · exact .inl rfl
  · exact .inr rfl

theorem codeIn_piece (chars : List Char) :
    ∃ piece, codeIn chars = Text.trim piece ∧ piece <:+: chars ∧ ¬ fence <:+: piece := by
  unfold codeIn
  have some_ : fence ≠ [] := by decide
  split
  · rename_i nowhere
    exact ⟨chars, rfl, List.infix_rfl, Text.breakOn_none nowhere⟩
  · rename_i before behind opening
    have split : chars = before ++ fence ++ behind := by
      simpa using Text.breakFrom_splits opening
    have line : behind.dropWhile (· ≠ '\n') <:+: chars := by
      rw [split]
      exact (List.dropWhile_suffix _).isInfix.trans (List.suffix_append _ _).isInfix
    dsimp only
    split
    · rename_i inside rest closing
      have split' : behind.dropWhile (· ≠ '\n') = inside ++ fence ++ rest := by
        simpa using Text.breakFrom_splits closing
      refine ⟨inside, rfl, ?_, Text.breakOn_before some_ closing⟩
      rw [split', List.append_assoc] at line
      exact (List.prefix_append inside _).isInfix.trans line
    · rename_i noClosing
      rcases besideFence_cases (Text.trim before) (Text.trim (behind.takeWhile (· ≠ '\n')))
        (Text.trim (behind.dropWhile (· ≠ '\n'))) with isAfter | isBefore
      · exact ⟨_, isAfter, line, Text.breakOn_none noClosing⟩
      · refine ⟨before, isBefore, ?_, Text.breakOn_before some_ opening⟩
        rw [split, List.append_assoc]
        exact (List.prefix_append _ _).isInfix

theorem codeIn_of_noFence {chars : List Char} (noFence : ¬ fence <:+: chars) :
    codeIn chars = Text.trim chars := by
  rw [← Text.containsText_iff, Text.containsText, Option.isSome_iff_ne_none, not_not] at noFence
  rw [codeIn, noFence]

theorem lineEnd_eq (start : Nat) (behind : List Char) :
    (match Text.byteOffset? ['\n'] behind with
      | some n => start + n
      | none => start + Text.byteLength behind) =
      start + Text.byteLength (behind.takeWhile (· ≠ '\n')) := by
  have whole := List.takeWhile_append_dropWhile (p := (· ≠ '\n')) (l := behind)
  rw [Text.byteOffset?, Text.breakOn, Text.breakFrom_newline]
  cases left : behind.dropWhile (· ≠ '\n') with
  | nil =>
      rw [left, List.append_nil] at whole
      rw [whole]
      rfl
  | cons c rest => rfl

theorem codeByBytes_eq (chars : List Char) : codeByBytes chars = some (codeIn chars) := by
  unfold codeByBytes codeIn
  rw [Text.byteOffset?]
  cases opening : Text.breakOn fence chars with
  | none => rfl
  | some parts =>
      obtain ⟨before, behind⟩ := parts
      have split : chars = before ++ fence ++ behind := by
        simpa using Text.breakFrom_splits opening
      have whole := List.takeWhile_append_dropWhile (p := (· ≠ '\n')) (l := behind)
      have tagStart : Text.byteLength before + Text.byteLength fence =
          Text.byteLength (before ++ fence) := (Text.byteLength_append _ _).symm
      have size : Text.byteLength chars =
          Text.byteLength (before ++ fence) + Text.byteLength behind := by
        rw [split, Text.byteLength_append]
      have fromTag : Text.fromByte? (Text.byteLength (before ++ fence)) chars = some behind := by
        rw [split]
        exact Text.fromByte?_append _ _
      have lineEnd := lineEnd_eq (Text.byteLength (before ++ fence)) behind
      generalize isLine : behind.takeWhile (· ≠ '\n') = line at whole lineEnd ⊢
      generalize isAfter : behind.dropWhile (· ≠ '\n') = after at whole ⊢
      have lines : chars = (before ++ fence) ++ line ++ after := by
        rw [split, List.append_assoc _ line, whole]
      have fromLine : Text.fromByte?
          (Text.byteLength (before ++ fence) + Text.byteLength line) chars = some after := by
        rw [← Text.byteLength_append, lines]
        exact Text.fromByte?_append _ _
      have tag : Text.betweenBytes? (Text.byteLength (before ++ fence))
          (Text.byteLength (before ++ fence) + Text.byteLength line) chars = some line := by
        rw [lines]
        exact Text.betweenBytes?_append _ _ _
      have upToFence : Text.upToByte? (Text.byteLength before) chars = some before := by
        rw [split, List.append_assoc]
        exact Text.upToByte?_append _ _
      simp only [Option.map_some, tagStart, size, fromTag, lineEnd, Option.bind_eq_bind,
        Option.bind_some, fromLine]
      rw [Text.byteOffset?]
      cases closing : Text.breakOn fence after with
      | none =>
          simp only [Option.map_none, tag, upToFence, isLine, isAfter, closing]
          rfl
      | some parts =>
          obtain ⟨inside, rest⟩ := parts
          have split' : after = inside ++ fence ++ rest := by
            simpa using Text.breakFrom_splits closing
          have upTo : Text.upToByte? (Text.byteLength inside) after = some inside := by
            rw [split', List.append_assoc]
            exact Text.upToByte?_append _ _
          simp only [Option.map_some, upTo, isAfter, closing]
          rfl

/-- Extracting code cuts no character in two and leaves a piece of the text without white space at
its ends and without a fence, from which nothing more is extracted. -/
theorem extractCode_settles (raw : String) :
    codeByBytes raw.toList = some (extractCode raw).toList ∧
      (extractCode raw).toList <:+: raw.toList ∧
      Text.Trimmed (extractCode raw).toList ∧
      ¬ fence <:+: (extractCode raw).toList ∧
      extractCode (extractCode raw) = extractCode raw := by
  obtain ⟨piece, trimmed, within, noFence⟩ := codeIn_piece raw.toList
  have chars : (extractCode raw).toList = Text.trim piece := by
    rw [extractCode, String.toList_ofList, trimmed]
  have ends := Text.trim_trimmed piece
  have noFenceLeft : ¬ fence <:+: Text.trim piece := fun found =>
    noFence (found.trans (Text.trim_infix piece))
  refine ⟨?_, ?_, ?_, ?_, ?_⟩
  · rw [codeByBytes_eq, chars, trimmed]
  · rw [chars]
    exact (Text.trim_infix piece).trans within
  · rw [chars]
    exact ends
  · rw [chars]
    exact noFenceLeft
  · have again : codeIn (Text.trim piece) = Text.trim piece := by
      rw [codeIn_of_noFence noFenceLeft, Text.trim_eq_self ends]
    rw [extractCode, chars, again, ← chars, String.ofList_toList]

end SandboxedGo.Submission
