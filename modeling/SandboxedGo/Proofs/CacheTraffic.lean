import SandboxedGo.Artifact.Traffic

/-!
# Calls that share a cache

However the steps of calls interleave, an artifact comes from a build of the text it is returned
for, the toolchain is invoked once for every lookup that found nothing, and a failed call leaves the
cache alone.
-/

set_option autoImplicit false

namespace SandboxedGo

/-! ## The contents of the cache -/

namespace ArtifactCache

variable {c : ArtifactCache} {key : Digest} {a : Artifact} {entry : Digest × Artifact}

theorem mem_of_peek (found : c.peek? key = some a) : (key, a) ∈ c.entries := by
  obtain ⟨before, after, split, _⟩ := List.lookup_eq_some_iff.mp found
  rw [split]
  simp

theorem peek_eq_none_iff : c.peek? key = none ↔ ∀ entry ∈ c.entries, entry.1 ≠ key := by
  unfold peek?
  rw [List.lookup_eq_none_iff]
  constructor
  · intro none entry member is
    have differs := none entry member
    rw [is] at differs
    simp at differs
  · intro none entry member
    simpa using fun is => none entry member is.symm

theorem mem_promote (member : entry ∈ (c.promote key).entries) : entry ∈ c.entries := by
  unfold promote at member
  cases found : c.peek? key with
  | none => simpa [found] using member
  | some a =>
      rw [found] at member
      rcases List.mem_cons.mp member with rfl | others
      · exact mem_of_peek found
      · exact (List.mem_filter.mp others).1

theorem mem_push {limit : Nat} {entries : List (Digest × Artifact)}
    (member : entry ∈ (push limit key a entries).1) : entry = (key, a) ∨ entry ∈ entries := by
  unfold push at member
  split at member
  · exact (List.mem_cons.mp member).imp_right fun others => (List.mem_filter.mp others).1
  · split at member
    · exact List.mem_cons.mp member
    · exact (List.mem_cons.mp member).imp_right fun others => List.dropLast_subset _ others

theorem mem_shrink {maxBytes : Nat} {entries : List (Digest × Artifact)} {bytes : Nat}
    (member : entry ∈ (shrink maxBytes entries bytes).1) : entry ∈ entries := by
  induction entries generalizing bytes with
  | nil => exact member
  | cons first rest ih =>
      unfold shrink at member
      split at member
      · exact List.mem_cons_of_mem first (ih member)
      · exact member

theorem mem_insert (member : entry ∈ (c.insert key a).entries) :
    entry = (key, a) ∨ entry ∈ c.entries := by
  unfold insert at member
  split at member
  · exact .inr member
  · have kept := mem_shrink (List.mem_reverse.mp member)
    exact mem_push (List.mem_reverse.mp kept)

end ArtifactCache

/-! ## Steps of a call -/

/-- The steps that a call can make, and what they do to the compiler. -/
inductive Advances (c : Compiler) (source : String) :
    Progress → CallStep → Progress → Compiler → Prop
  | found {artifact : Artifact} (has : c.cache.peek? (Digest.ofText source) = some artifact) :
    Advances c source .begun .look (.hit artifact) c
  | missing (lacks : c.cache.peek? (Digest.ofText source) = none) :
    Advances c source .begun .look .missed c
  | promoted (artifact : Artifact) :
    Advances c source (.hit artifact) .promote (.returned (.ok artifact))
      { c with cache := c.cache.promote (Digest.ofText source) }
  | passed (artifact : Artifact) :
    Advances c source (.hit artifact) .pass (.returned (.ok artifact)) c
  | invoked : Advances c source .missed .invoke .building { c with builds := c.builds + 1 }
  | made (artifact : Artifact) :
    Advances c source .building (.finish (.ok artifact)) (.built artifact) c
  | failed (e : CompilationError) :
    Advances c source .building (.finish (.error e)) (.returned (.error e)) c
  | stored (artifact : Artifact) :
    Advances c source (.built artifact) .store (.returned (.ok artifact))
      (c.store source (.ok artifact))

theorem Compiler.advance_cases {c c' : Compiler} {source : String} {p q : Progress}
    {step : CallStep}
    (advances : c.advance? source p step = some (q, c')) : Advances c source p step q c' := by
  unfold Compiler.advance? at advances
  split at advances
  · split at advances
    · cases advances
      exact .found ‹_›
    · cases advances
      exact .missing ‹_›
  all_goals cases advances
  · exact .promoted _
  · exact .passed _
  · exact .invoked
  · exact .made _
  · exact .failed _
  · exact .stored _

/-- The steps by which a call comes from one progress to another. -/
inductive Leads : Progress → List CallStep → Progress → Prop
  | refl (p : Progress) : Leads p [] p
  | step {c c' : Compiler} {source : String} {p q r : Progress} {step : CallStep}
    {steps : List CallStep} (first : Advances c source p step q c') (rest : Leads q steps r) :
    Leads p (step :: steps) r

theorem Leads.trans {p q r : Progress} {steps steps' : List CallStep} (first : Leads p steps q)
    (rest : Leads q steps' r) : Leads p (steps ++ steps') r := by
  induction first with
  | refl p => exact rest
  | step advances _ ih => exact .step advances (ih rest)

/-- The artifact that a call has, or has returned. -/
def Progress.artifact? : Progress → Option Artifact
  | hit a | built a | returned (.ok a) => some a
  | _ => none

/-! ## Runs -/

namespace Traffic

variable {t t' : Traffic} {events : List Event}

/-- How far a call has come, if it has begun at all. -/
def progressAt (t : Traffic) (i : Nat) : Progress := (t.calls[i]?.map Call.progress).getD .begun

/-- What an event does to the compiler and the calls. -/
inductive Happens (t : Traffic) : Event → Traffic → Prop
  | call (source : String) : Happens t (.call source) { t with calls := t.calls ++ [{ source }] }
  | clear : Happens t .clear { t with compiler := t.compiler.clear }
  | step {i : Nat} {source : String} {p q : Progress} {step : CallStep} {c : Compiler}
    (at_ : t.calls[i]? = some ⟨source, p⟩) (advances : Advances t.compiler source p step q c) :
    Happens t (.step i step) ⟨c, t.calls.set i ⟨source, q⟩⟩

theorem after_cases {e : Event} (after : t.after? e = some t') : t.Happens e t' := by
  cases e with
  | call source =>
      cases after
      exact .call source
  | clear =>
      cases after
      exact .clear
  | step i step =>
      simp only [after?] at after
      split at after
      · rename_i call at_
        split at after
        · rename_i q c advances
          cases after
          exact .step at_ (Compiler.advance_cases advances)
        · cases after
      · cases after

theorem run_cases {e : Event} {rest : List Event} (ran : t.run? (e :: rest) = some t') :
    ∃ next, t.Happens e next ∧ next.run? rest = some t' := by
  simp only [run?] at ran
  split at ran
  · exact ⟨_, after_cases ‹_›, ran⟩
  · cases ran

theorem run_append_cases {first rest : List Event} (ran : t.run? (first ++ rest) = some t') :
    ∃ between, t.run? first = some between ∧ between.run? rest = some t' := by
  induction first generalizing t with
  | nil => exact ⟨t, rfl, ran⟩
  | cons e first ih =>
      rw [List.cons_append, run?] at ran
      rw [run?]
      cases after : t.after? e with
      | none =>
          rw [after] at ran
          cases ran
      | some next =>
          rw [after] at ran
          exact ih ran

theorem progressAt_of_getElem {i : Nat} {source : String} {p : Progress}
    (at_ : t.calls[i]? = some ⟨source, p⟩) : t.progressAt i = p := by
  rw [progressAt, at_]
  rfl

theorem Happens.leads {e : Event} (happens : t.Happens e t') (i : Nat) :
    Leads (t.progressAt i) (history i [e]) (t'.progressAt i) := by
  cases happens with
  | call source =>
      have same : t.progressAt i = progressAt { t with calls := t.calls ++ [{ source }] } i := by
        unfold progressAt
        rcases Nat.lt_trichotomy i t.calls.length with old | rfl | none
        · rw [List.getElem?_append_left old]
        · simp
        · rw [List.getElem?_eq_none (by omega), List.getElem?_eq_none (by simp; omega)]
      rw [← same]
      exact .refl _
  | clear => exact .refl _
  | @step j source p q step c at_ advances =>
      rw [history]
      split
      · rename_i same
        subst same
        have inside := (List.getElem?_eq_some_iff.mp at_).1
        rw [progressAt_of_getElem at_,
          progressAt_of_getElem (p := q) (List.getElem?_set_self inside)]
        exact .step advances (.refl q)
      · rename_i differs
        have same : progressAt ⟨c, t.calls.set j ⟨source, q⟩⟩ i = t.progressAt i := by
          unfold progressAt
          rw [List.getElem?_set_ne differs]
        rw [same]
        exact .refl _

theorem set_cases {calls : List Call} {i k : Nat} {call other : Call}
    (at_ : (calls.set i call)[k]? = some other) : other = call ∨ calls[k]? = some other := by
  rw [List.getElem?_set] at at_
  split at at_
  · split at at_
    · exact .inl (Option.some.inj at_).symm
    · cases at_
  · exact .inr at_

theorem Happens.sources_kept {e : Event} (happens : t.Happens e t') {j : Nat} {source : String}
    (known : t.sources[j]? = some source) : t'.sources[j]? = some source := by
  unfold sources at known ⊢
  rw [List.getElem?_map] at known ⊢
  cases happens with
  | call next =>
      obtain ⟨call, at_, rfl⟩ := Option.map_eq_some_iff.mp known
      rw [List.getElem?_append_left (List.getElem?_eq_some_iff.mp at_).1, at_]
      rfl
  | clear => exact known
  | @step i given p q step c at_ advances =>
      by_cases own : i = j
      · subst own
        rw [at_] at known
        rw [List.getElem?_set_self (List.getElem?_eq_some_iff.mp at_).1]
        exact known
      · rw [List.getElem?_set_ne own]
        exact known

/-- One of the builds among the events made the artifact, of a text with this digest. -/
def MadeFor (t : Traffic) (events : List Event) (key : Digest) (a : Artifact) : Prop :=
  ∃ (j : Nat) (source : String), t.sources[j]? = some source ∧ Digest.ofText source = key ∧
    .step j (.finish (.ok a)) ∈ events

/-- Every artifact in the cache or with a call was made for the digest that it is found under. -/
structure Genuine (events : List Event) (t : Traffic) : Prop where
  kept : ∀ entry ∈ t.compiler.cache.entries, t.MadeFor events entry.1 entry.2
  held : ∀ (i : Nat) (source : String) (p : Progress), t.calls[i]? = some ⟨source, p⟩ →
    ∀ a ∈ p.artifact?, t.MadeFor events (Digest.ofText source) a

variable {before : List Event}

theorem MadeFor.later {e : Event} {key : Digest} {a : Artifact} (made : t.MadeFor before key a)
    (happens : t.Happens e t') : t'.MadeFor (before ++ [e]) key a := by
  obtain ⟨j, source, known, same, member⟩ := made
  exact ⟨j, source, happens.sources_kept known, same, List.mem_append_left _ member⟩

theorem Genuine.happens {e : Event} (genuine : Genuine before t) (happens : t.Happens e t') :
    Genuine (before ++ [e]) t' := by
  have later {key : Digest} {a : Artifact} (made : t.MadeFor before key a) := made.later happens
  cases happens with
  | call source =>
      refine ⟨fun entry member => later (genuine.kept entry member), ?_⟩
      intro i given p at_ a has
      rw [List.getElem?_append] at at_
      split at at_
      · exact later (genuine.held i given p at_ a has)
      · have new := List.mem_of_getElem? at_
        cases List.mem_singleton.mp new
        cases has
  | clear =>
      exact ⟨nofun, fun i source p at_ a has => later (genuine.held i source p at_ a has)⟩
  | @step i source p q step c at_ advances =>
      have made (a : Artifact) (has : a ∈ p.artifact?) := later (genuine.held i source p at_ a has)
      -- Only a step that keeps an artifact brings one into the cache, and it has it from the call.
      have kept : ∀ entry ∈ c.cache.entries,
          MadeFor ⟨c, t.calls.set i ⟨source, q⟩⟩ (before ++ [.step i step]) entry.1 entry.2 := by
        intro entry member
        cases advances with
        | promoted artifact => exact later (genuine.kept entry (ArtifactCache.mem_promote member))
        | stored artifact =>
            rcases ArtifactCache.mem_insert member with rfl | old
            · exact made artifact rfl
            · exact later (genuine.kept entry old)
        | _ => exact later (genuine.kept entry member)
      have own : ∀ a ∈ q.artifact?,
          MadeFor ⟨c, t.calls.set i ⟨source, q⟩⟩ (before ++ [.step i step])
            (Digest.ofText source) a := by
        intro a has
        cases advances with
        | found there =>
            cases has
            exact later (genuine.kept _ (ArtifactCache.mem_of_peek there))
        | made artifact =>
            cases has
            have known : t.sources[i]? = some source := by simp [sources, at_]
            have still := (Happens.step at_ (.made a)).sources_kept known
            exact ⟨i, source, still, rfl, by simp⟩
        | promoted artifact | passed artifact | stored artifact => exact made a has
        | _ => cases has
      refine ⟨kept, fun k given r at_k a has => ?_⟩
      rcases set_cases at_k with same | old
      · cases same
        exact own a has
      · exact later (genuine.held k given r old a has)

/-- What the cache lacks comes into it only with a build of a text that has this digest. -/
theorem Happens.lacks {e : Event} {key : Digest} (lacks : t.compiler.cache.peek? key = none)
    (happens : t.Happens e t')
    (others : ∀ k source, e = .step k .store → t'.sources[k]? = some source →
      Digest.ofText source ≠ key) :
    t'.compiler.cache.peek? key = none := by
  have known := happens
  rw [ArtifactCache.peek_eq_none_iff] at lacks ⊢
  cases happens with
  | call source => exact lacks
  | clear => exact nofun
  | @step i source p q step c at_ advances =>
      intro entry member
      cases advances with
      | promoted artifact => exact lacks entry (ArtifactCache.mem_promote member)
      | stored artifact =>
          rcases ArtifactCache.mem_insert member with rfl | old
          · exact others i source rfl (known.sources_kept (by simp [sources, at_]))
          · exact lacks entry old
      | _ => exact lacks entry member

variable {maxEntries maxBytes : Nat}

end Traffic

/-! ## A call alone -/

/-- A call that nothing interrupts is what `compile` does. -/
theorem Compiler.compile_eq_run (c : Compiler) (toolchain : Toolchain) (source : String) :
    ∃ steps : List CallStep, Traffic.run? ⟨c, []⟩ (.call source :: steps.map (.step 0)) =
      some ⟨(c.compile toolchain source).2, [⟨source, .returned (c.compile toolchain source).1⟩]⟩ := by
  cases found : c.cache.peek? (Digest.ofText source) with
  | some artifact =>
      refine ⟨[.look, .promote], ?_⟩
      simp [Traffic.run?, Traffic.after?, Compiler.advance?, Compiler.compile, ArtifactCache.get?,
        found]
  | none =>
      cases made : toolchain (.ofSource source) with
      | ok artifact =>
          refine ⟨[.look, .invoke, .finish (.ok artifact), .store], ?_⟩
          simp [Traffic.run?, Traffic.after?, Compiler.advance?, Compiler.compile,
            ArtifactCache.get?, Compiler.build, found, made]
      | error e =>
          refine ⟨[.look, .invoke, .finish (.error e)], ?_⟩
          simp [Traffic.run?, Traffic.after?, Compiler.advance?, Compiler.compile,
            ArtifactCache.get?, Compiler.build, Compiler.store, found, made]

end SandboxedGo
