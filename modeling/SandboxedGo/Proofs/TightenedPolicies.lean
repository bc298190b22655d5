import SandboxedGo.Submission.Policy

/-!
# Policies are only ever tightened

A policy is extended by imports and directives, one after another.  What it forbids afterwards is
what it forbade before and what the extensions name, so a text is accepted afterwards exactly if it
was accepted before and no extension forbids it.  Main statement: `policy_only_tightened`.
-/

set_option autoImplicit false

/-! ## Occurrences -/

namespace SandboxedGo.Text

theorem breakFrom_isSome_iff (needle passed hay : List Char) :
    (breakFrom needle passed hay).isSome = true ↔ needle <:+: hay := by
  induction hay generalizing passed with
  | nil =>
      rw [breakFrom, List.infix_nil]
      split
      · rename_i empty
        simpa using empty
      · rename_i some_
        simpa using some_
  | cons c rest ih =>
      rw [breakFrom, List.infix_cons_iff]
      by_cases found : needle.isPrefixOf (c :: rest) = true
      · rw [if_pos found]
        exact iff_of_true rfl (.inl (List.isPrefixOf_iff_prefix.mp found))
      · rw [if_neg found, ih, or_iff_right (found ∘ List.isPrefixOf_iff_prefix.mpr)]

theorem containsText_iff (needle hay : List Char) :
    containsText needle hay = true ↔ needle <:+: hay :=
  breakFrom_isSome_iff needle [] hay

end SandboxedGo.Text

namespace SandboxedGo.Submission

/-! ## What an extension forbids -/

/-- One extension of a policy. -/
inductive Extension
  | imports (path : String)
  | directive (text : String)
  deriving DecidableEq

/-- An import is forbidden together with the paths below it, a directive wherever it occurs. -/
def Extension.Forbids (source : String) : Extension → Prop
  | .imports parent =>
    ∃ path ∈ importPaths source, path = parent ∨ ∃ below, path = parent ++ "/" ++ below
  | .directive text => ∃ before behind, source = before ++ text ++ behind

theorem isUnder_iff (path parent : String) :
    isUnder path parent = true ↔ path = parent ∨ ∃ below, path = parent ++ "/" ++ below := by
  simp only [isUnder, Bool.or_eq_true, decide_eq_true_eq, List.isPrefixOf_iff_prefix]
  apply or_congr Iff.rfl
  constructor
  · rintro ⟨below, split⟩
    refine ⟨String.ofList below, String.toList_inj.mp ?_⟩
    rw [← split]
    simp
  · rintro ⟨below, rfl⟩
    exact ⟨below.toList, by simp⟩

theorem contains_iff (text source : String) :
    Text.containsText text.toList source.toList = true ↔
      ∃ before behind, source = before ++ text ++ behind := by
  rw [Text.containsText_iff]
  constructor
  · rintro ⟨before, behind, split⟩
    refine ⟨String.ofList before, String.ofList behind, String.toList_inj.mp ?_⟩
    rw [← split]
    simp
  · rintro ⟨before, behind, rfl⟩
    exact ⟨before.toList, behind.toList, by simp⟩

/-! ## What a policy forbids -/

namespace Policy

/-- Whether a policy forbids what an extension would. -/
def Includes (p : Policy) : Extension → Prop
  | .imports path => path ∈ p.forbiddenImports
  | .directive text => text ∈ p.forbiddenDirectives

def Accepts (p : Policy) (source : String) : Prop := p.validate source = .ok ()

theorem accepts_iff_violation (p : Policy) (source : String) :
    p.Accepts source ↔ p.violation? source = none := by
  unfold Accepts validate
  cases p.violation? source <;> simp

/-- A text is accepted if it is neither too large nor blank, and nothing in it is forbidden. -/
theorem accepts_iff (p : Policy) (source : String) :
    p.Accepts source ↔ source.utf8ByteSize ≤ p.maxSourceBytes ∧
      (Text.trim source.toList).isEmpty = false ∧ ∀ e, p.Includes e → ¬ e.Forbids source := by
  have forbidden : (∀ e, p.Includes e → ¬ e.Forbids source) ↔
      (∀ path ∈ importPaths source, ¬ p.forbidsImport path = true) ∧
        ∀ text ∈ p.forbiddenDirectives,
          ¬ Text.containsText text.toList source.toList = true := by
    simp only [forbidsImport, List.any_eq_true, isUnder_iff, contains_iff]
    constructor
    · intro none
      refine ⟨?_, fun text member found => none (.directive text) member found⟩
      rintro path found ⟨parent, member, under⟩
      exact none (.imports parent) member ⟨path, found, under⟩
    · rintro ⟨noImport, noDirective⟩ (parent | text) member hit
      · obtain ⟨path, found, under⟩ := hit
        exact noImport path found ⟨parent, member, under⟩
      · exact noDirective text member hit
  rw [accepts_iff_violation, forbidden, violation?]
  by_cases large : p.maxSourceBytes < source.utf8ByteSize
  · simp [large, Nat.not_le.mpr large]
  by_cases blank : (Text.trim source.toList).isEmpty = true
  · simp [large, blank]
  simp [large, blank, Nat.not_lt.mp large]

/-! ## Extensions -/

theorem mem_insertSorted (text other : String) (sorted : List String) :
    other ∈ insertSorted text sorted ↔ other = text ∨ other ∈ sorted := by
  induction sorted with
  | nil => simp [insertSorted]
  | cons first rest ih =>
      rw [insertSorted]
      by_cases less : text < first
      · rw [if_pos less, List.mem_cons]
      · rw [if_neg less]
        by_cases same : text = first
        · simp [same]
        · rw [if_neg same, List.mem_cons, ih, List.mem_cons, or_left_comm]

def extended (p : Policy) : Extension → Policy
  | .imports path => p.forbidImport path
  | .directive text => p.forbidDirective text

/-- The policy after a history of extensions. -/
def extendedBy (p : Policy) (es : List Extension) : Policy := es.foldl extended p

theorem includes_extended (p : Policy) (e other : Extension) :
    (p.extended e).Includes other ↔ p.Includes other ∨ other = e := by
  cases e with
  | imports path =>
      cases other with
      | imports other => simp [extended, forbidImport, Includes, mem_insertSorted, or_comm]
      | directive other => simp [extended, forbidImport, Includes]
  | directive text =>
      simp only [extended, forbidDirective]
      by_cases known : p.forbiddenDirectives.contains text = true
      · rw [if_pos known, or_iff_left_of_imp]
        rintro rfl
        exact List.contains_iff_mem.mp known
      · rw [if_neg known]
        cases other with
        | imports other => simp [Includes]
        | directive other => simp [Includes]

theorem maxSourceBytes_extended (p : Policy) (e : Extension) :
    (p.extended e).maxSourceBytes = p.maxSourceBytes := by
  cases e with
  | imports path => rfl
  | directive text =>
      simp only [extended, forbidDirective]
      split <;> rfl

theorem includes_extendedBy (p : Policy) (es : List Extension) (other : Extension) :
    (p.extendedBy es).Includes other ↔ p.Includes other ∨ other ∈ es := by
  induction es generalizing p with
  | nil => simp [extendedBy]
  | cons e es ih =>
      have later := ih (p.extended e)
      rw [includes_extended, or_assoc, ← List.mem_cons] at later
      exact later

theorem maxSourceBytes_extendedBy (p : Policy) (es : List Extension) :
    (p.extendedBy es).maxSourceBytes = p.maxSourceBytes := by
  induction es generalizing p with
  | nil => rfl
  | cons e es ih => exact (ih (p.extended e)).trans (p.maxSourceBytes_extended e)

theorem accepts_extendedBy (p : Policy) (es : List Extension) (source : String) :
    (p.extendedBy es).Accepts source ↔ p.Accepts source ∧ ∀ e ∈ es, ¬ e.Forbids source := by
  simp only [accepts_iff, maxSourceBytes_extendedBy, includes_extendedBy, or_imp, forall_and,
    and_assoc]

/-- A policy is only ever tightened: what it rejected stays rejected, what an extension forbids is
rejected from then on, and nothing else is.  Neither the order of the extensions nor how often they
are made counts, but only which ones are. -/
theorem policy_only_tightened (p : Policy) (es : List Extension) (source : String) :
    (¬ p.Accepts source → ¬ (p.extendedBy es).Accepts source) ∧
      (∀ e ∈ es, e.Forbids source → ¬ (p.extendedBy es).Accepts source) ∧
      (p.Accepts source → (∀ e ∈ es, ¬ e.Forbids source) → (p.extendedBy es).Accepts source) ∧
      ∀ fs : List Extension, (∀ e, e ∈ es ↔ e ∈ fs) →
        ((p.extendedBy es).Accepts source ↔ (p.extendedBy fs).Accepts source) := by
  have after := p.accepts_extendedBy es source
  refine ⟨?_, ?_, ?_, ?_⟩
  · intro rejected accepted
    exact rejected (after.mp accepted).1
  · intro e made forbids accepted
    exact (after.mp accepted).2 e made forbids
  · intro accepted none
    exact after.mpr ⟨accepted, none⟩
  · intro fs same
    rw [after, accepts_extendedBy]
    simp only [same]

/-- An import below one that is forbidden twice, and a directive between the two. -/
theorem policy_only_tightened_smtp :
    let p := Policy.make 65536 ["os/exec"] []
    let source := "package main\nimport \"net/smtp\"\nfunc main() \x7b\x7d\n"
    let es := [.imports "net", .directive "//go:linkname", .imports "net"]
    let fs := [.directive "//go:linkname", .imports "net"]
    p.Accepts source ∧ ¬ (p.extendedBy es).Accepts source ∧
      ¬ (p.extendedBy fs).Accepts source := by
  intro p source es fs
  have accepted : p.Accepts source := (p.accepts_iff_violation source).mpr (by decide +kernel)
  have path : importPaths source = ["net/smtp"] := by decide +kernel
  have forbids : (Extension.imports "net").Forbids source :=
    ⟨"net/smtp", by simp [path], .inr ⟨"smtp", by decide⟩⟩
  obtain ⟨-, hits, -, sets⟩ := p.policy_only_tightened es source
  have rejected := hits (.imports "net") List.mem_cons_self forbids
  refine ⟨accepted, rejected, fun passes => rejected ((sets fs fun e => ?_).mpr passes)⟩
  simp only [es, fs, List.mem_cons, List.not_mem_nil, or_false]
  grind

end Policy

end SandboxedGo.Submission
