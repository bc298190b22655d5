import Mathlib.Data.List.Infix
import SandboxedGo.Proofs.CacheAccounts

/-!
# The least recently used goes first

A cache answers every request as the plain list of `Recency` does and holds the same entries in the
same order.  It makes room in two ways, for one entry more and for the bytes; together they drop as
few entries as possible, and never the one that has just come in.
-/

set_option autoImplicit false

namespace SandboxedGo

/-!
## Artifacts in the order of their last use

What a cache is for its callers, without any account of its bytes: a list from the most to the
least recently used artifact.  When an artifact comes in, as few as possible go out at the far end
for the rest to be within the limits.
-/

/-- Artifacts, the most recently used first, within limits on their number and their bytes. -/
structure Recency where
  maxEntries : Nat
  maxBytes : Nat
  entries : List (Digest × Artifact) := []

namespace Recency

/-- Whether artifacts are within the limits; there is always room for one. -/
def fits (r : Recency) (entries : List (Digest × Artifact)) : Bool :=
  entries.length ≤ max 1 r.maxEntries && bytesTogether entries ≤ r.maxBytes

def longestFitting (r : Recency) (entries : List (Digest × Artifact)) :
    List (Digest × Artifact) :=
  (entries.inits.reverse.find? r.fits).getD []

/-- The entry of a digest, and the others in their order. -/
def split (r : Recency) (key : Digest) : List (Digest × Artifact) × List (Digest × Artifact) :=
  r.entries.partition (·.1 = key)

def answer (r : Recency) : CacheRequest → CacheAnswer × Recency
  | .insert key artifact =>
    if r.maxBytes < artifact.size then (.done, r)
    else
      let whole := (key, artifact) :: (r.split key).2
      (.done, { r with entries := r.longestFitting whole })
  | .get key =>
    let (own, others) := r.split key
    (.got (own.head?.map Prod.snd), { r with entries := own ++ others })
  | .contains key => (.contained (!(r.split key).1.isEmpty), r)
  | .clear => (.done, { r with entries := [] })

def answers (r : Recency) : List CacheRequest → List CacheAnswer × Recency
  | [] => ([], r)
  | request :: rest =>
    let (first, next) := r.answer request
    let (others, last) := next.answers rest
    (first :: others, last)

end Recency

open ArtifactCache

/-! ## The longest beginning that fits -/

namespace Recency

variable {r : Recency} {entries : List (Digest × Artifact)}

theorem fits_iff : r.fits entries = true ↔
    entries.length ≤ max 1 r.maxEntries ∧ bytesTogether entries ≤ r.maxBytes := by
  simp [fits]

theorem longestFitting_concat (entries : List (Digest × Artifact)) (last : Digest × Artifact) :
    r.longestFitting (entries ++ [last]) =
      if r.fits (entries ++ [last]) then entries ++ [last] else r.longestFitting entries := by
  unfold longestFitting
  rw [List.inits_append]
  split <;> simp_all

theorem longestFitting_of_fits (whole : r.fits entries = true) :
    r.longestFitting entries = entries := by
  induction entries using List.reverseRecOn with
  | nil => simp [longestFitting, whole]
  | append_singleton entries last _ => rw [longestFitting_concat, if_pos whole]

theorem longestFitting_cons {first : Digest × Artifact} (alone : r.fits [first] = true)
    (entries : List (Digest × Artifact)) :
    ∃ rest, r.longestFitting (first :: entries) = first :: rest := by
  induction entries using List.reverseRecOn with
  | nil => exact ⟨[], longestFitting_of_fits alone⟩
  | append_singleton entries last ih =>
      rw [← List.cons_append, longestFitting_concat]
      split
      · exact ⟨entries ++ [last], rfl⟩
      · exact ih

/-- Where there are not too many entries, taking the last ones away while their bytes are too many
leaves the longest beginning that fits. -/
theorem shrink_reverse (few : entries.length ≤ max 1 r.maxEntries) :
    shrink r.maxBytes entries.reverse (bytesTogether entries) =
      ((r.longestFitting entries).reverse, bytesTogether (r.longestFitting entries)) := by
  induction entries using List.reverseRecOn with
  | nil =>
      have none : r.longestFitting [] = [] := by
        unfold longestFitting
        cases h : r.fits [] <;> simp [h]
      rw [none]
      rfl
  | append_singleton entries last ih =>
      have bytes : bytesTogether (entries ++ [last]) = bytesTogether entries + last.2.size := by
        rw [bytesTogether_append, bytesTogether_cons]
        rfl
      rw [List.reverse_append, List.reverse_singleton, List.singleton_append, shrink,
        longestFitting_concat]
      by_cases small : bytesTogether (entries ++ [last]) ≤ r.maxBytes
      · rw [if_neg (Nat.not_lt.mpr small), if_pos (fits_iff.mpr ⟨few, small⟩)]
        simp
      · rw [List.length_append, List.length_singleton] at few
        rw [if_pos (Nat.lt_of_not_le small), if_neg (fun fit => small (fits_iff.mp fit).2), bytes,
          Nat.add_sub_cancel]
        exact ih (Nat.le_of_succ_le few)

theorem maxBytes_answers (r : Recency) (requests : List CacheRequest) :
    (r.answers requests).2.maxBytes = r.maxBytes := by
  induction requests generalizing r with
  | nil => rfl
  | cons request rest ih =>
      have one : (r.answer request).2.maxBytes = r.maxBytes := by
        cases request with
        | insert key a =>
            simp only [answer]
            split <;> rfl
        | _ => rfl
      exact (ih (r.answer request).2).trans one

end Recency

/-! ## One request -/

/-- A cache and a list with the same limits and the same entries. -/
structure Matches (c : ArtifactCache) (r : Recency) : Prop where
  maxEntries : r.maxEntries = c.maxEntries
  maxBytes : r.maxBytes = c.maxBytes
  entries : r.entries = c.entries

namespace Matches

variable {c : ArtifactCache} {r : Recency} {key : Digest} {a : Artifact}

theorem split_others (same : Matches c r) (key : Digest) :
    (r.split key).2 = c.entries.filter (·.1 ≠ key) := by
  simp only [Recency.split, same.entries, List.partition_eq_filter_filter]
  congr 1
  funext entry
  simp

/-- Where keys differ, the entries of a digest are the one that is found. -/
theorem split_own (same : Matches c r) (distinct : (c.entries.map Prod.fst).Nodup) (key : Digest) :
    (r.split key).1 = ((c.peek? key).map fun a => (key, a)).toList := by
  simp only [Recency.split, same.entries, List.partition_eq_filter_filter, peek?]
  generalize c.entries = entries at distinct
  induction entries with
  | nil => rfl
  | cons entry rest ih =>
      obtain ⟨k, b⟩ := entry
      rw [List.map_cons, List.nodup_cons] at distinct
      have behind := ih distinct.2
      by_cases own : k = key
      · subst own
        have others : rest.lookup k = none := by
          rw [List.lookup_eq_none_iff]
          intro entry member
          have differs : k ≠ entry.1 := by
            intro is
            exact distinct.1 (List.mem_map.mpr ⟨entry, member, is.symm⟩)
          simpa using differs
        rw [others] at behind
        simp only [List.filter_cons_of_pos, decide_true, behind]
        simp
      · have other : (key == k) = false := beq_eq_false_iff_ne.mpr (Ne.symm own)
        rw [List.filter_cons_of_neg (by simpa using own), behind, List.lookup_cons, other]

theorem promote (same : Matches c r) (sound : Consistent c) (key : Digest) :
    (c.promote key).entries = (r.split key).1 ++ (r.split key).2 := by
  rw [same.split_own sound.distinct, same.split_others]
  unfold ArtifactCache.promote
  cases found : c.peek? key with
  | none =>
      have lacks : c.entries.lookup key = none := found
      rw [filter_of_lookup_none lacks]
      rfl
  | some a => rfl

/-- Both ways of making room together leave the longest beginning that fits. -/
theorem insert (same : Matches c r) (sound : Consistent c) (small : a.size ≤ c.maxBytes) :
    (c.insert key a).entries = r.longestFitting ((key, a) :: (r.split key).2) := by
  have limit : c.entryLimit = max 1 r.maxEntries := by
    rw [entryLimit, same.maxEntries]
  obtain ⟨bytes, few, -⟩ := push_accounts key a c.entryLimit c.entryLimit_pos
    sound.distinct sound.few
  -- What `push` leaves has the same longest beginning that fits as all entries together.
  have pushed : r.longestFitting (push c.entryLimit key a c.entries).1 =
      r.longestFitting ((key, a) :: (r.split key).2) := by
    rw [same.split_others]
    unfold push
    split
    · rfl
    · rename_i lacks
      rw [filter_of_lookup_none lacks]
      split
      · rfl
      · rename_i full
        have some_ : c.entries ≠ [] := by
          intro none
          rw [none] at full
          exact full c.entryLimit_pos
        have whole := List.dropLast_concat_getLast some_
        have many : ¬r.fits ((key, a) :: c.entries) = true := by
          intro fit
          have within := (Recency.fits_iff.mp fit).1
          rw [List.length_cons, ← limit] at within
          exact full within
        conv => rhs; rw [← whole, ← List.cons_append, Recency.longestFitting_concat]
        rw [List.cons_append, whole, if_neg many]
  unfold ArtifactCache.insert
  rw [if_neg (Nat.not_lt.mpr small)]
  cases parts : push c.entryLimit key a c.entries with
  | mk entries displaced =>
      rw [parts] at bytes few pushed
      have counted : c.totalBytes + a.size - (displaced.map Artifact.size).getD 0 =
          bytesTogether entries := by
        have right := sound.counted
        dsimp only at bytes
        omega
      dsimp only
      rw [counted, ← same.maxBytes, Recency.shrink_reverse (limit ▸ few), List.reverse_reverse]
      exact pushed

/-- The artifact that has come in is still there, and used most recently. -/
theorem insert_head (same : Matches c r) (sound : Consistent c) (small : a.size ≤ c.maxBytes) :
    (c.insert key a).entries.head? = some (key, a) := by
  have alone : r.fits [(key, a)] = true := by
    refine Recency.fits_iff.mpr ⟨Nat.le_max_left 1 r.maxEntries, ?_⟩
    rw [same.maxBytes]
    exact small
  obtain ⟨rest, front⟩ := Recency.longestFitting_cons alone (r.split key).2
  rw [same.insert sound small, front]
  rfl

/-- A cache and a list that match answer a request in the same way, and match again. -/
theorem answer (same : Matches c r) (sound : Consistent c) (request : CacheRequest) :
    (c.answer request).1 = (r.answer request).1 ∧
      Matches (c.answer request).2 (r.answer request).2 ∧ Consistent (c.answer request).2 := by
  cases request with
  | insert key a =>
      refine ⟨by simp only [ArtifactCache.answer, Recency.answer]; split <;> rfl, ?_,
        (sound.insert key a).1⟩
      obtain ⟨sameBytes, sameEntries⟩ := maxBytes_after c (.insert key a)
      simp only [Recency.answer, same.maxBytes]
      split
      · rename_i large
        have kept : c.insert key a = c := if_pos large
        simp only [ArtifactCache.answer, kept]
        exact same
      · rename_i small
        exact ⟨same.maxEntries.trans sameEntries.symm, sameBytes.symm,
          (same.insert sound (Nat.le_of_not_lt small)).symm⟩
  | get key =>
      obtain ⟨sameBytes, sameEntries⟩ := maxBytes_after c (.promote key)
      refine ⟨?_, ⟨same.maxEntries.trans sameEntries.symm, same.maxBytes.trans sameBytes.symm,
        (same.promote sound key).symm⟩, sound.promote key⟩
      simp only [ArtifactCache.answer, Recency.answer, get?, same.split_own sound.distinct]
      cases c.peek? key <;> rfl
  | contains key =>
      refine ⟨?_, same, sound⟩
      simp only [ArtifactCache.answer, Recency.answer, ArtifactCache.contains,
        same.split_own sound.distinct]
      cases c.peek? key <;> rfl
  | clear =>
      exact ⟨rfl, ⟨same.maxEntries, same.maxBytes, rfl⟩, .of_nil c.maxEntries c.maxBytes⟩

theorem answers (same : Matches c r) (sound : Consistent c) (requests : List CacheRequest) :
    (c.answers requests).1 = (r.answers requests).1 ∧
      Matches (c.answers requests).2 (r.answers requests).2 ∧
      Consistent (c.answers requests).2 := by
  induction requests generalizing c r with
  | nil => exact ⟨rfl, same, sound⟩
  | cons request rest ih =>
      obtain ⟨first, next, nextSound⟩ := same.answer sound request
      obtain ⟨others, last, lastSound⟩ := ih next nextSound
      exact ⟨congrArg₂ List.cons first others, last, lastSound⟩

end Matches

/-- A cache that one caller uses answers as the list does that is ordered by the last use, and holds
the entries of that list in its order.  An artifact that is small enough is there when it has come
in, before all others; one that is too large changes nothing. -/
theorem cache_is_exact_lru (maxEntries maxBytes : Nat) (requests : List CacheRequest) :
    let (given, c) := ArtifactCache.answers { maxEntries, maxBytes } requests
    let (expected, r) := Recency.answers { maxEntries, maxBytes } requests
    given = expected ∧ c.entries = r.entries ∧ c.size = r.entries.length ∧
      c.totalBytes = bytesTogether r.entries ∧
      ∀ key a, if a.size ≤ maxBytes then (c.insert key a).entries.head? = some (key, a)
        else c.insert key a = c := by
  have same : Matches { maxEntries, maxBytes } { maxEntries, maxBytes } := ⟨rfl, rfl, rfl⟩
  obtain ⟨answered, matched, sound⟩ := same.answers (.of_nil maxEntries maxBytes) requests
  refine ⟨answered, matched.entries.symm, ?_, ?_, fun key a => ?_⟩
  · rw [matched.entries]
    rfl
  · rw [matched.entries]
    exact sound.counted
  · have limit : (ArtifactCache.answers { maxEntries, maxBytes } requests).2.maxBytes =
        maxBytes := by
      rw [← matched.maxBytes, Recency.maxBytes_answers]
    split
    · rename_i small
      exact matched.insert_head sound (small.trans (Nat.le_of_eq limit.symm))
    · rename_i large
      exact if_pos (Nat.lt_of_le_of_lt (Nat.le_of_eq limit) (Nat.lt_of_not_le large))

end SandboxedGo
