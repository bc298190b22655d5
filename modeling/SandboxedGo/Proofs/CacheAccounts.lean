import Mathlib.Data.List.Induction
import SandboxedGo.Proofs.CacheTraffic

/-!
# The accounts of a cache

The bytes are counted by hand, once for every artifact that comes in or goes out.  The count is
right after any steps of any callers, so nothing is ever taken away that was not counted before, and
what is found under a digest is what came in last.
-/

set_option autoImplicit false

namespace SandboxedGo

theorem bytesTogether_cons (entry : Digest × Artifact) (entries : List (Digest × Artifact)) :
    bytesTogether (entry :: entries) = entry.2.size + bytesTogether entries := rfl

theorem bytesTogether_append (first second : List (Digest × Artifact)) :
    bytesTogether (first ++ second) = bytesTogether first + bytesTogether second := by
  simp [bytesTogether]

theorem bytesTogether_reverse (entries : List (Digest × Artifact)) :
    bytesTogether entries.reverse = bytesTogether entries := by
  simp [bytesTogether, List.map_reverse, List.sum_reverse]

namespace ArtifactCache

variable {c : ArtifactCache} {key : Digest} {a : Artifact} {entries : List (Digest × Artifact)}

/-! ## Entries of one digest -/

/-- Where keys differ, an artifact that is found is the only one of its digest. -/
theorem lookup_split (distinct : (entries.map Prod.fst).Nodup)
    (found : entries.lookup key = some a) :
    bytesTogether (entries.filter (·.1 ≠ key)) + a.size = bytesTogether entries ∧
      (entries.filter (·.1 ≠ key)).length + 1 = entries.length := by
  induction entries with
  | nil => cases found
  | cons entry rest ih =>
      obtain ⟨k, b⟩ := entry
      rw [List.map_cons, List.nodup_cons] at distinct
      obtain ⟨new, distinctRest⟩ := distinct
      by_cases own : k = key
      · subst own
        have others : rest.filter (·.1 ≠ k) = rest := by
          refine List.filter_eq_self.mpr fun entry member => ?_
          have differs : entry.1 ≠ k := by
            intro same
            exact new (List.mem_map.mpr ⟨entry, member, same⟩)
          simpa using differs
        have same : b = a := by simpa using found
        subst same
        rw [List.filter_cons_of_neg (by simp), others, bytesTogether_cons, List.length_cons]
        exact ⟨Nat.add_comm _ _, rfl⟩
      · have foundRest : rest.lookup key = some a := by
          simpa [List.lookup_cons, Ne.symm own, beq_eq_false_iff_ne.mpr (Ne.symm own)] using found
        obtain ⟨bytes, length⟩ := ih distinctRest foundRest
        rw [List.filter_cons_of_pos (by simpa using own), bytesTogether_cons, bytesTogether_cons,
          List.length_cons, List.length_cons]
        omega

theorem filter_of_lookup_none (lacks : entries.lookup key = none) :
    entries.filter (·.1 ≠ key) = entries := by
  rw [List.lookup_eq_none_iff] at lacks
  refine List.filter_eq_self.mpr fun entry member => ?_
  have differs : (key == entry.1) = false := by simpa using lacks entry member
  simpa using Ne.symm (beq_eq_false_iff_ne.mp differs)

theorem nodup_cons_filter (distinct : (entries.map Prod.fst).Nodup) (key : Digest) (a : Artifact) :
    (((key, a) :: entries.filter (·.1 ≠ key)).map Prod.fst).Nodup := by
  rw [List.map_cons, List.nodup_cons]
  refine ⟨?_, distinct.sublist (List.filter_sublist.map Prod.fst)⟩
  intro member
  obtain ⟨entry, inside, same⟩ := List.mem_map.mp member
  have differs := (List.mem_filter.mp inside).2
  simp [same] at differs

/-! ## What the steps of an insertion do to the count -/

theorem push_accounts (key : Digest) (a : Artifact) (limit : Nat) (positive : 0 < limit)
    (distinct : (entries.map Prod.fst).Nodup) (few : entries.length ≤ limit) :
    bytesTogether (push limit key a entries).1 +
        ((push limit key a entries).2.map Artifact.size).getD 0 = bytesTogether entries + a.size ∧
      (push limit key a entries).1.length ≤ limit ∧
      ((push limit key a entries).1.map Prod.fst).Nodup := by
  unfold push
  split
  · rename_i former found
    obtain ⟨bytes, length⟩ := lookup_split distinct found
    refine ⟨?_, ?_, nodup_cons_filter distinct key a⟩
    · simp only [Option.map_some, Option.getD_some, bytesTogether_cons]
      omega
    · rw [List.length_cons]
      omega
  · rename_i lacks
    have nodup := nodup_cons_filter distinct key a
    rw [filter_of_lookup_none lacks] at nodup
    split
    · rename_i room
      refine ⟨?_, room, nodup⟩
      simp only [Option.map_none, Option.getD_none, bytesTogether_cons]
      omega
    · -- There are as many entries as there may be, so there is a last one.
      rename_i full
      have some_ : entries ≠ [] := by
        rintro rfl
        exact full positive
      have whole := List.dropLast_concat_getLast some_
      have bytes := congrArg bytesTogether whole
      rw [bytesTogether_append, bytesTogether_cons] at bytes
      refine ⟨?_, ?_, nodup.sublist ?_⟩
      · rw [List.getLast?_eq_some_getLast some_]
        simp only [Option.map_some, Option.getD_some, bytesTogether_cons]
        have last : bytesTogether [] = 0 := rfl
        omega
      · rw [List.length_cons, List.length_dropLast]
        omega
      · exact ((List.dropLast_sublist entries).cons_cons (key, a)).map Prod.fst

theorem minus_of_le {total part : Nat} (le : part ≤ total) :
    minus? total part = some (total - part) :=
  if_pos le

theorem shrink_of_counted (maxBytes : Nat) {bytes : Nat} (counted : bytes = bytesTogether entries) :
    shrink? maxBytes entries bytes = some (shrink maxBytes entries bytes) ∧
      (shrink maxBytes entries bytes).2 = bytesTogether (shrink maxBytes entries bytes).1 ∧
      (shrink maxBytes entries bytes).2 ≤ maxBytes ∧
      (shrink maxBytes entries bytes).1 <:+ entries := by
  induction entries generalizing bytes with
  | nil =>
      subst counted
      exact ⟨rfl, rfl, Nat.zero_le _, List.suffix_rfl⟩
  | cons e rest ih =>
      rw [bytesTogether_cons] at counted
      rw [shrink?, shrink]
      split
      · obtain ⟨checked, right, within, left⟩ :=
          ih (show bytes - e.2.size = bytesTogether rest by omega)
        rw [minus_of_le (by omega)]
        exact ⟨checked, right, within, left.trans (List.suffix_cons e rest)⟩
      · rename_i small
        exact ⟨rfl, counted, Nat.le_of_not_lt small, List.suffix_rfl⟩

/-! ## Consistent caches -/

/-- The count is right and within its limit, the entries are few enough, and no two of them are of
one digest. -/
structure Consistent (c : ArtifactCache) : Prop where
  counted : c.totalBytes = bytesTogether c.entries
  within : c.totalBytes ≤ c.maxBytes
  few : c.size ≤ c.entryLimit
  distinct : (c.entries.map Prod.fst).Nodup

theorem entryLimit_pos (c : ArtifactCache) : 0 < c.entryLimit :=
  Nat.lt_of_lt_of_le Nat.zero_lt_one (Nat.le_max_left 1 c.maxEntries)

theorem Consistent.of_nil (maxEntries maxBytes : Nat) :
    Consistent { maxEntries, maxBytes } where
  counted := rfl
  within := Nat.zero_le _
  few := Nat.zero_le _
  distinct := List.nodup_nil

theorem Consistent.promote (sound : Consistent c) (key : Digest) : Consistent (c.promote key) := by
  unfold ArtifactCache.promote
  cases found : c.peek? key with
  | none => exact sound
  | some a =>
      obtain ⟨bytes, length⟩ := lookup_split sound.distinct found
      refine ⟨?_, sound.within, ?_, nodup_cons_filter sound.distinct key a⟩
      · rw [bytesTogether_cons, Nat.add_comm, bytes]
        exact sound.counted
      · have few := sound.few
        simp only [size, entryLimit, List.length_cons] at few ⊢
        omega

/-- An insertion counts what comes in and what goes out, and takes nothing away that is not
counted. -/
theorem Consistent.insert (sound : Consistent c) (key : Digest) (a : Artifact) :
    Consistent (c.insert key a) ∧ c.insert? key a = some (c.insert key a) := by
  unfold ArtifactCache.insert ArtifactCache.insert?
  split
  · exact ⟨sound, rfl⟩
  · obtain ⟨bytes, few, distinct⟩ := push_accounts key a c.entryLimit
      c.entryLimit_pos sound.distinct sound.few
    cases pushed : push c.entryLimit key a c.entries with
    | mk entries displaced =>
        rw [pushed] at bytes few distinct
        have counted := sound.counted
        dsimp only at bytes few distinct ⊢
        have count : c.totalBytes + a.size - (displaced.map Artifact.size).getD 0 =
            bytesTogether entries.reverse := by
          rw [bytesTogether_reverse]
          omega
        obtain ⟨checked, right, within, left⟩ := shrink_of_counted c.maxBytes count
        have kept : (shrink c.maxBytes entries.reverse
            (c.totalBytes + a.size - (displaced.map Artifact.size).getD 0)).1.reverse <+: entries := by
          simpa using List.reverse_prefix.mpr left
        refine ⟨⟨?_, within, Nat.le_trans kept.length_le few, ?_⟩, ?_⟩
        · rw [bytesTogether_reverse]
          exact right
        · exact distinct.sublist (kept.sublist.map Prod.fst)
        · rw [minus_of_le (by omega)]
          simp [checked]

/-- The entry that comes in stands in front of entries that were there before. -/
theorem push_front (limit : Nat) (key : Digest) (a : Artifact)
    (entries : List (Digest × Artifact)) :
    ∃ others, (push limit key a entries).1 = (key, a) :: others ∧ others.Sublist entries := by
  unfold push
  split
  · exact ⟨_, rfl, List.filter_sublist⟩
  · split
    · exact ⟨_, rfl, List.Sublist.refl entries⟩
    · exact ⟨_, rfl, List.dropLast_sublist entries⟩

/-- What is in the cache after an insertion came with it or is of another digest, unless the
artifact was too large. -/
theorem Consistent.mem_insert_cases (sound : Consistent c) {entry : Digest × Artifact}
    (member : entry ∈ (c.insert key a).entries) :
    (a.size ≤ c.maxBytes ∧ entry = (key, a)) ∨
      (entry ∈ c.entries ∧ (a.size ≤ c.maxBytes → entry.1 ≠ key)) := by
  unfold ArtifactCache.insert at member
  split at member
  · rename_i large
    exact .inr ⟨member, fun small => absurd large (Nat.not_lt.mpr small)⟩
  · rename_i small
    have pushed := List.mem_reverse.mp (mem_shrink (List.mem_reverse.mp member))
    obtain ⟨others, front, sub⟩ := push_front c.entryLimit key a c.entries
    have distinct := (push_accounts key a c.entryLimit c.entryLimit_pos
      sound.distinct sound.few).2.2
    rw [front, List.map_cons, List.nodup_cons] at distinct
    rw [front] at pushed
    rcases List.mem_cons.mp pushed with rfl | other
    · exact .inl ⟨Nat.le_of_not_lt small, rfl⟩
    · refine .inr ⟨sub.subset other, fun _ same => distinct.1 ?_⟩
      exact List.mem_map.mpr ⟨entry, other, same⟩

/-! ## Any steps -/

/-- Among steps, an artifact came in for a digest, and since then no other that was small enough and
no clearing. -/
def CameInLast (maxBytes : Nat) (steps : List CacheStep) (key : Digest) (a : Artifact) : Prop :=
  ∃ before later, steps = before ++ .insert key a :: later ∧ a.size ≤ maxBytes ∧
    .clear ∉ later ∧ ∀ b, .insert key b ∈ later → maxBytes < b.size

theorem CameInLast.now {maxBytes : Nat} (small : a.size ≤ maxBytes) (steps : List CacheStep)
    (key : Digest) : CameInLast maxBytes (steps ++ [.insert key a]) key a :=
  ⟨steps, [], rfl, small, List.not_mem_nil, nofun⟩

theorem CameInLast.next {maxBytes : Nat} {steps : List CacheStep}
    (last : CameInLast maxBytes steps key a) {step : CacheStep} (keeps : step ≠ .clear)
    (other : ∀ b, step = .insert key b → maxBytes < b.size) :
    CameInLast maxBytes (steps ++ [step]) key a := by
  obtain ⟨before, later, rfl, small, uncleared, larger⟩ := last
  refine ⟨before, later ++ [step], by simp, small, ?_, ?_⟩
  · intro cleared
    rcases List.mem_append.mp cleared with earlier | now
    · exact uncleared earlier
    · exact keeps (List.mem_singleton.mp now).symm
  · intro b came
    rcases List.mem_append.mp came with earlier | now
    · exact larger b earlier
    · exact other b (List.mem_singleton.mp now).symm

theorem maxBytes_after (c : ArtifactCache) (step : CacheStep) :
    (c.after step).maxBytes = c.maxBytes ∧ (c.after step).maxEntries = c.maxEntries := by
  cases step with
  | insert key a =>
      simp only [after, insert]
      split <;> exact ⟨rfl, rfl⟩
  | promote key =>
      simp only [after, promote]
      split <;> exact ⟨rfl, rfl⟩
  | _ => exact ⟨rfl, rfl⟩

theorem Consistent.after (sound : Consistent c) (step : CacheStep) : Consistent (c.after step) := by
  cases step with
  | insert key a => exact (sound.insert key a).1
  | promote key => exact sound.promote key
  | look key | contains key => exact sound
  | clear => exact .of_nil c.maxEntries c.maxBytes

/-- One step keeps it so that every artifact came in last for its digest. -/
theorem cameInLast_after (sound : Consistent c) {steps : List CacheStep}
    (last : ∀ entry ∈ c.entries, CameInLast c.maxBytes steps entry.1 entry.2) (step : CacheStep) :
    ∀ entry ∈ (c.after step).entries, CameInLast c.maxBytes (steps ++ [step]) entry.1 entry.2 := by
  intro entry member
  cases step with
  | insert key a =>
      rcases sound.mem_insert_cases member with ⟨small, rfl⟩ | ⟨old, differs⟩
      · exact .now small steps key
      · refine (last entry old).next nofun fun b same => ?_
        cases same
        exact Nat.lt_of_not_le fun small => differs small rfl
  | promote key => exact (last entry (mem_promote member)).next nofun nofun
  | look key | contains key => exact (last entry member).next nofun nofun
  | clear => cases member

theorem afterAll_accounts (maxEntries maxBytes : Nat) (steps : List CacheStep) :
    Consistent (afterAll { maxEntries, maxBytes } steps) ∧
      (afterAll { maxEntries, maxBytes } steps).maxBytes = maxBytes ∧
      (afterAll { maxEntries, maxBytes } steps).maxEntries = maxEntries ∧
      ∀ entry ∈ (afterAll { maxEntries, maxBytes } steps).entries,
        CameInLast maxBytes steps entry.1 entry.2 := by
  -- A run is extended at its end, where the step lemma applies.
  induction steps using List.reverseRecOn with
  | nil => exact ⟨.of_nil maxEntries maxBytes, rfl, rfl, nofun⟩
  | append_singleton steps step ih =>
      obtain ⟨sound, bytes, entries, last⟩ := ih
      have one : afterAll { maxEntries, maxBytes } (steps ++ [step]) =
          (afterAll { maxEntries, maxBytes } steps).after step := by
        simp [afterAll]
      obtain ⟨sameBytes, sameEntries⟩ :=
        maxBytes_after (afterAll { maxEntries, maxBytes } steps) step
      rw [one, sameBytes, sameEntries]
      refine ⟨sound.after step, bytes, entries, ?_⟩
      have before : ∀ entry ∈ (afterAll { maxEntries, maxBytes } steps).entries,
          CameInLast (afterAll { maxEntries, maxBytes } steps).maxBytes steps entry.1 entry.2 := by
        rw [bytes]
        exact last
      have next := cameInLast_after sound before step
      rw [bytes] at next
      exact next

/-- However the steps of callers interleave, lookups with their uses noted late or never among them:
the count of bytes is right and within its limit, there are not too many entries and no two of one
digest, an insertion takes no more bytes away than are counted, and an artifact that is found came
in last for its digest since the cache was cleared, among those that are small enough. -/
theorem cache_keeps_accounts (maxEntries maxBytes : Nat) (steps : List CacheStep) :
    let c := afterAll { maxEntries, maxBytes } steps
    c.totalBytes = bytesTogether c.entries ∧ c.totalBytes ≤ maxBytes ∧
      c.size ≤ max 1 maxEntries ∧ (c.entries.map Prod.fst).Nodup ∧
      (∀ key a, c.insert? key a = some (c.insert key a)) ∧
      ∀ key a, (c.get? key).1 = some a → CameInLast maxBytes steps key a := by
  obtain ⟨sound, bytes, entries, last⟩ := afterAll_accounts maxEntries maxBytes steps
  refine ⟨sound.counted, Nat.le_trans sound.within (Nat.le_of_eq bytes), ?_, sound.distinct, ?_, ?_⟩
  · have few := sound.few
    rw [entryLimit, entries] at few
    exact few
  · intro key a
    exact (sound.insert key a).2
  · intro key a found
    exact last (key, a) (mem_of_peek found)

end ArtifactCache

end SandboxedGo
