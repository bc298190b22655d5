import SandboxedGo.Library.Json
import SandboxedGo.Proofs.PromotedFields

/-!
# Fields in JSON

In JSON the fields of embedded structs stand among those of the struct around them, where the
embedding is declared.  All of them are listed, whatever their names, so a field that is hidden from
the program by a shallower one is listed beside it.  The document for the host keeps the last one of
a name, and the text of a document all of them.  Main statement: `promotion_shallowest_iff`.
-/

set_option autoImplicit false

namespace SandboxedGo.Store

open Relation

variable {s : Store} {o inner : StructId}

/-! ## What is listed -/

/-- The struct that a field embeds. -/
def embeddedIn (entry : FieldDef × Value) : Option StructId :=
  match entry.1.embedded, entry.2 with
  | true, .struct inner => some inner
  | true, .pointer inner => some inner
  | _, _ => none

/-- What a field that embeds no struct adds to the list: its name in JSON and its value, unless it
has no such name, or is left out because it is empty. -/
def shown (s : Store) (entry : FieldDef × Value) : List (String × Value) :=
  match entry.1.jsonName with
  | none => []
  | some key => if entry.1.omitEmpty && s.isEmptyValue entry.2 then [] else [(key, entry.2)]

/-- The fields of a struct that embed no struct. -/
def plainFields (s : Store) (o : StructId) : List (FieldDef × Value) :=
  (s.structFields o).filter fun entry => (embeddedIn entry).isNone

/-- The fields that a struct has a number of levels deep. -/
def fieldsAt (s : Store) (levels : Nat) (o : StructId) : List (FieldDef × Value) :=
  (s.embeddedAt levels o).flatMap s.plainFields

/-- The fields of a name in JSON that a struct has a number of levels deep. -/
def keyedAt (s : Store) (key : String) (levels : Nat) (o : StructId) : List (FieldDef × Value) :=
  (s.fieldsAt levels o).filter fun entry => entry.1.jsonName = some key

/-- The list of the fields of a struct in JSON. -/
def listed (s : Store) (o : StructId) : List (String × Value) := (s.jsonFields? o).getD []

theorem embeddedStructs_eq (s : Store) (o : StructId) :
    s.embeddedStructs o = (s.structFields o).filterMap embeddedIn := rfl

theorem jsonField_eq (s : Store) (entry : FieldDef × Value) :
    s.jsonField entry.1 entry.2 = match embeddedIn entry with
      | some inner => consultFields inner
      | none => pure (s.shown entry) := by
  obtain ⟨⟨name, embedded, jsonName, omitEmpty⟩, v⟩ := entry
  cases embedded with
  | false => rfl
  | true => cases v <;> rfl

theorem jsonFields?_eq (s : Store) (o : StructId) :
    s.jsonFields? o = (s.jsonFieldsVisit o).follow (walk s.boundaryVisit) := by
  rw [jsonFields?, walk]
  rfl

theorem jsonFields?_known {fields : List (String × Value)} (known : s.jsonFields? o = some fields) :
    s.jsonFields? o = some (s.listed o) := by
  rw [listed, known]
  rfl

theorem follow_foldlM_append {α β δ : Type} {ρ : α → Type}
    {answer : (place : α) → Option (ρ place)} {x : β → Visit ρ (List δ)} {r : β → List δ}
    {items : List β} (each : ∀ item ∈ items, (x item).follow answer = some (r item))
    (read : List δ) :
    (items.foldlM (fun read item => do return read ++ (← x item)) read).follow answer =
      some (read ++ items.flatMap r) := by
  induction items generalizing read with
  | nil => exact congrArg some (List.append_nil read).symm
  | cons item rest ih =>
      have first : ((do return read ++ (← x item)) : Visit ρ (List δ)).follow answer =
          some (read ++ r item) := by
        rw [Visit.follow_bind (each item List.mem_cons_self)]
        rfl
      have others := ih (fun later isIn => each later (List.mem_cons_of_mem _ isIn))
        (read ++ r item)
      rw [List.foldlM_cons, Visit.follow_bind first, others, List.flatMap_cons, List.append_assoc]

/-- Among structs without circles all fields are listed, those of an embedded struct where it is
embedded. -/
theorem jsonFields?_of_acc (acc : Acc (flip s.Embeds) o) :
    s.jsonFields? o = some ((s.structFields o).flatMap fun entry =>
      match embeddedIn entry with
      | some inner => s.listed inner
      | none => s.shown entry) := by
  induction acc with
  | intro o _ ih =>
      have each : ∀ entry ∈ s.structFields o,
          (s.jsonField entry.1 entry.2).follow (walk s.boundaryVisit) =
            some (match embeddedIn entry with
              | some inner => s.listed inner
              | none => s.shown entry) := by
        intro entry isIn
        rw [jsonField_eq]
        cases embeds : embeddedIn entry with
        | none => rfl
        | some inner =>
            have embedded : s.Embeds o inner := List.mem_filterMap.mpr ⟨entry, isIn, embeds⟩
            exact (Visit.follow_consult _).trans (jsonFields?_known (ih inner embedded))
      rw [jsonFields?_eq]
      exact follow_foldlM_append each []

theorem jsonFields?_eq_listed (acc : Acc (flip s.Embeds) o) :
    s.jsonFields? o = some (s.listed o) :=
  jsonFields?_known (jsonFields?_of_acc acc)

theorem listed_eq (acc : Acc (flip s.Embeds) o) :
    s.listed o = (s.structFields o).flatMap fun entry =>
      match embeddedIn entry with
      | some inner => s.listed inner
      | none => s.shown entry :=
  congrArg (Option.getD · []) (jsonFields?_of_acc acc)

/-- Up to their order, the fields of a struct itself come before those of embedded structs. -/
theorem listed_perm (acc : Acc (flip s.Embeds) o) :
    (s.listed o).Perm
      ((s.plainFields o).flatMap s.shown ++ (s.embeddedStructs o).flatMap s.listed) := by
  rw [listed_eq acc, plainFields, embeddedStructs_eq]
  induction s.structFields o with
  | nil => exact .nil
  | cons entry rest ih =>
      rw [List.flatMap_cons, List.filter_cons, List.filterMap_cons]
      cases embeddedIn entry with
      | none =>
          rw [Option.isNone_none, if_pos rfl, List.flatMap_cons, List.append_assoc]
          exact ih.append_left _
      | some inner =>
          rw [Option.isNone_some, if_neg Bool.false_ne_true, List.flatMap_cons]
          exact (ih.append_left _).trans (List.perm_append_comm_assoc _ _ _)

/-! ## Levels -/

/-- Nothing is embedded as many levels deep, or deeper. -/
def Covers (s : Store) (height : Nat) (o : StructId) : Prop :=
  ∀ levels, height ≤ levels → s.embeddedAt levels o = []

theorem exists_covers (acc : Acc (flip s.Embeds) o) : ∃ height, s.Covers height o := by
  induction acc with
  | intro o _ ih =>
      have all (inners : List StructId) (each : ∀ inner ∈ inners, ∃ height, s.Covers height inner) :
          ∃ height, ∀ inner ∈ inners, s.Covers height inner := by
        induction inners with
        | nil => exact ⟨0, fun _ isIn => absurd isIn List.not_mem_nil⟩
        | cons inner rest others =>
            obtain ⟨first, own⟩ := each inner List.mem_cons_self
            obtain ⟨height, others⟩ := others fun x isIn => each x (List.mem_cons_of_mem _ isIn)
            refine ⟨max first height, List.forall_mem_cons.mpr ⟨?_, fun x isIn => ?_⟩⟩
            · exact fun levels high => own levels (by omega)
            · exact fun levels high => others x isIn levels (by omega)
      obtain ⟨height, covers⟩ := all (s.embeddedStructs o) ih
      refine ⟨height + 1, fun levels high => ?_⟩
      obtain ⟨levels, rfl⟩ : ∃ n, levels = n + 1 := ⟨levels - 1, by omega⟩
      rw [embeddedAt, List.flatMap_eq_nil_iff]
      exact fun inner embeds => covers inner embeds levels (by omega)

/-- What the fields add to the list that a struct has a number of levels deep. -/
def shownAt (s : Store) (levels : Nat) (o : StructId) : List (String × Value) :=
  (s.fieldsAt levels o).flatMap s.shown

theorem shownAt_zero (s : Store) (o : StructId) :
    s.shownAt 0 o = (s.plainFields o).flatMap s.shown := by
  rw [shownAt, fieldsAt, embeddedAt, List.flatMap_singleton]

theorem shownAt_succ (s : Store) (levels : Nat) (o : StructId) :
    s.shownAt (levels + 1) o = (s.embeddedStructs o).flatMap (s.shownAt levels) := by
  unfold shownAt fieldsAt
  simp only [embeddedAt, List.flatMap_assoc]

theorem flatMap_comm_perm {α β γ : Type} (items : List α) (others : List β)
    (f : α → β → List γ) :
    (items.flatMap fun a => others.flatMap (f a)).Perm
      (others.flatMap fun b => items.flatMap fun a => f a b) := by
  refine Multiset.coe_eq_coe.mp ?_
  simp only [← Multiset.coe_bind]
  exact Multiset.bind_bind _ _

/-- Up to their order, the fields that are listed are those of all levels. -/
theorem listed_perm_levels {height : Nat} (acc : Acc (flip s.Embeds) o)
    (covers : s.Covers height o) :
    (s.listed o).Perm ((List.range height).flatMap fun levels => s.shownAt levels o) := by
  induction height generalizing o with
  | zero => exact absurd (covers 0 (Nat.le_refl 0)) (List.cons_ne_nil _ _)
  | succ height ih =>
      have inners : ∀ inner ∈ s.embeddedStructs o, (s.listed inner).Perm
          ((List.range height).flatMap fun levels => s.shownAt levels inner) := by
        intro inner embeds
        refine ih (acc.inv embeds) fun levels high => ?_
        have none := covers (levels + 1) (Nat.succ_le_succ high)
        rw [embeddedAt, List.flatMap_eq_nil_iff] at none
        exact none inner embeds
      rw [List.range_succ_eq_map, List.flatMap_cons, List.flatMap_map, shownAt_zero]
      simp only [Nat.succ_eq_add_one, shownAt_succ]
      refine (listed_perm acc).trans (List.Perm.append_left _ ?_)
      exact (List.Perm.flatMap_left _ inners).trans (flatMap_comm_perm _ _ _)

/-! ## One name -/

theorem filter_shown (s : Store) (key : String) (entry : FieldDef × Value) :
    (s.shown entry).filter (·.1 = key) =
      if entry.1.jsonName = some key then s.shown entry else [] := by
  unfold shown
  cases entry.1.jsonName with
  | none => rfl
  | some name =>
      dsimp only
      by_cases same : name = key
      · rw [if_pos (congrArg some same)]
        split <;> simp [same]
      · rw [if_neg fun is => same (Option.some.inj is)]
        split <;> simp [same]

theorem shown_cases (s : Store) (entry : FieldDef × Value) :
    s.shown entry = [] ∨ ∃ item, s.shown entry = [item] := by
  unfold shown
  split
  · exact .inl rfl
  · split
    · exact .inl rfl
    · exact .inr ⟨_, rfl⟩

/-- What is listed under a name on one level is what the fields of that name add. -/
theorem filter_shownAt (s : Store) (key : String) (levels : Nat) (o : StructId) :
    (s.shownAt levels o).filter (·.1 = key) = (s.keyedAt key levels o).flatMap s.shown := by
  unfold shownAt keyedAt
  induction s.fieldsAt levels o with
  | nil => rfl
  | cons entry rest ih =>
      rw [List.flatMap_cons, List.filter_append, ih, filter_shown, List.filter_cons]
      simp only [decide_eq_true_eq]
      split
      · rw [List.flatMap_cons]
      · rw [List.nil_append]

/-- The only field of a name on its level, with none of that name above it. -/
structure IsShallowestKey (s : Store) (key : String) (o : StructId) (levels : Nat)
    (entry : FieldDef × Value) : Prop where
  only : s.keyedAt key levels o = [entry]
  above : ∀ shallower < levels, s.keyedAt key shallower o = []

theorem filter_listed_perm {height : Nat} (acc : Acc (flip s.Embeds) o)
    (covers : s.Covers height o) (key : String) :
    ((s.listed o).filter (·.1 = key)).Perm
      ((List.range height).flatMap fun levels => (s.keyedAt key levels o).flatMap s.shown) := by
  have perm := (listed_perm_levels acc covers).filter (·.1 = key)
  rw [List.filter_flatMap] at perm
  simp only [filter_shownAt] at perm
  exact perm

/-- Under a name, only its shallowest field is listed exactly if no deeper one is shown. -/
theorem listed_shallowest_iff {key : String} {levels : Nat} {entry : FieldDef × Value}
    (acc : Acc (flip s.Embeds) o) (shallowest : s.IsShallowestKey key o levels entry) :
    (s.listed o).filter (·.1 = key) = s.shown entry ↔
      ∀ deeper, levels < deeper → (s.keyedAt key deeper o).flatMap s.shown = [] := by
  obtain ⟨height, covers⟩ := exists_covers acc
  -- The level of the shallowest field is one of those that are covered.
  have inside : levels < height := by
    by_contra outside
    have nothing := shallowest.only
    rw [keyedAt, fieldsAt, covers levels (Nat.not_lt.mp outside)] at nothing
    cases nothing
  obtain ⟨rest, rfl⟩ : ∃ rest, height = levels + (1 + rest) := ⟨height - levels - 1, by omega⟩
  have above : ((List.range levels).flatMap fun shallower =>
      (s.keyedAt key shallower o).flatMap s.shown) = [] := by
    refine List.flatMap_eq_nil_iff.mpr fun shallower isIn => ?_
    rw [shallowest.above shallower (List.mem_range.mp isIn)]
    rfl
  have perm := filter_listed_perm acc covers key
  rw [List.range_add, List.flatMap_append, above, List.nil_append, List.flatMap_map,
    List.range_add, List.flatMap_append, List.range_one, List.flatMap_singleton, Nat.add_zero,
    shallowest.only, List.flatMap_singleton, List.flatMap_map] at perm
  constructor
  · intro only deeper below
    by_cases covered : deeper < levels + (1 + rest)
    · have length := perm.length_eq
      rw [only, List.length_append] at length
      have none := List.eq_nil_of_length_eq_zero (Nat.left_eq_add.mp length)
      obtain ⟨i, rfl⟩ : ∃ i, deeper = levels + (1 + i) := ⟨deeper - levels - 1, by omega⟩
      exact List.flatMap_eq_nil_iff.mp none i (List.mem_range.mpr (by omega))
    · rw [keyedAt, fieldsAt, covers deeper (Nat.not_lt.mp covered)]
      rfl
  · intro deeper
    have below : ((List.range rest).flatMap fun i =>
        (s.keyedAt key (levels + (1 + i)) o).flatMap s.shown) = [] :=
      List.flatMap_eq_nil_iff.mpr fun i _ => deeper _ (by omega)
    rw [below, List.append_nil] at perm
    rcases s.shown_cases entry with none | ⟨item, one⟩
    · rw [none] at perm ⊢
      exact List.perm_nil.mp perm
    · rw [one] at perm ⊢
      exact List.perm_singleton.mp perm

end SandboxedGo.Store

/-! ## Documents -/

namespace SandboxedGo.Json

theorem lookup_cons_eq {α : Type} (key k : String) (v : α) (rest : List (String × α)) :
    ((k, v) :: rest).lookup key = if key = k then some v else rest.lookup key := by
  rw [List.lookup_cons]
  by_cases same : key = k
  · rw [if_pos same, beq_iff_eq.mpr same]
  · rw [if_neg same, beq_eq_false_iff_ne.mpr same]

theorem lookup_insertEntry (key name : String) (value : Json) (entries : List (String × Json)) :
    (insertEntry name value entries).lookup key =
      if key = name then some value else entries.lookup key := by
  induction entries with
  | nil => exact lookup_cons_eq key name value []
  | cons e rest ih =>
      obtain ⟨k, v⟩ := e
      rw [insertEntry]
      split
      · exact lookup_cons_eq key name value _
      · split
        · rename_i same
          rw [lookup_cons_eq, lookup_cons_eq, ← same]
          by_cases is : key = name
          · rw [if_pos is, if_pos is]
          · rw [if_neg is, if_neg is, if_neg is]
        · rename_i other
          rw [lookup_cons_eq, lookup_cons_eq, ih]
          by_cases is : key = k
          · have apart : key ≠ name := fun same => other (same.symm.trans is)
            rw [if_pos is, if_neg apart, if_pos is]
          · rw [if_neg is, if_neg is]

theorem get?_ofEntries (entries : List (String × Json)) (key : String) :
    (ofEntries entries).get? key = entries.reverse.lookup key := by
  suffices ∀ sorted : List (String × Json),
      (entries.foldl (fun sorted e => insertEntry e.1 e.2 sorted) sorted).lookup key =
        (entries.reverse.lookup key).or (sorted.lookup key) from
    (this []).trans Option.or_none
  induction entries with
  | nil => exact fun sorted => rfl
  | cons e rest ih =>
      intro sorted
      obtain ⟨k, v⟩ := e
      rw [List.foldl_cons, ih, lookup_insertEntry, List.reverse_cons, List.lookup_append,
        lookup_cons_eq, Option.or_assoc]
      by_cases is : key = k
      · rw [if_pos is, if_pos is]
        rfl
      · rw [if_neg is, if_neg is, List.lookup_nil, Option.none_or]

end SandboxedGo.Json

namespace SandboxedGo

theorem Visit.answered_of_bind {α β γ : Type} {ρ : α → Type}
    {answer : (place : α) → Option (ρ place)} {x : Visit ρ β} {f : β → Visit ρ γ} {c : γ}
    (followed : (x >>= f).follow answer = some c) : ∃ b, x.follow answer = some b := by
  induction x with
  | done b => exact ⟨b, rfl⟩
  | ask place next ih =>
      change (ask place fun r => (next r).bind f).follow answer = some c at followed
      cases known : answer place with
      | none =>
          simp only [follow, known] at followed
          cases followed
      | some r =>
          simp only [follow, known] at followed ⊢
          exact ih r followed

theorem Visit.forall₂_of_collectFrom {α γ δ ε : Type} {ρ : α → Type}
    {answer : (place : α) → Option (ρ place)} {f : γ → Visit ρ (Except ε δ)} {items : List γ}
    {read results : List δ}
    (followed : (collectFrom f read items).follow answer = some (.ok results)) :
    ∃ added, results = read.reverse ++ added ∧
      List.Forall₂ (fun item d => (f item).follow answer = some (.ok d)) items added := by
  induction items generalizing read with
  | nil =>
      cases followed
      exact ⟨[], (List.append_nil _).symm, .nil⟩
  | cons item rest ih =>
      rw [collectFrom] at followed
      obtain ⟨result, first⟩ := Visit.answered_of_bind followed
      rw [Visit.follow_bind first] at followed
      cases result with
      | error e => cases followed
      | ok d =>
          obtain ⟨added, rfl, each⟩ := ih followed
          exact ⟨d :: added, by simp, .cons first each⟩

namespace Store

variable {s : Store} {o : StructId}

/-- The document of a struct has the documents of the fields that are listed, in this order. -/
theorem toJson?_struct {v : Value} {j : Json} (acc : Acc (flip s.Embeds) o)
    (isStruct : v = .struct o ∨ v = .pointer o) (document : s.toJson? v = some (.ok j)) :
    ∃ documents, j = Json.ofEntries documents ∧
      List.Forall₂ (fun field entry => field.1 = entry.1 ∧ s.HasDocument field.2 entry.2)
        (s.listed o) documents := by
  have fields : (consultFields o).follow (walk s.boundaryVisit) = some (s.listed o) :=
    (Visit.follow_consult _).trans (jsonFields?_eq_listed acc)
  have entries : (entriesVisit (s.listed o)).follow (walk s.boundaryVisit) = some (.ok j) := by
    rw [toJson?_eq] at document
    rcases isStruct with rfl | rfl
    · exact (Visit.follow_bind fields).symm.trans document
    · exact (Visit.follow_bind fields).symm.trans document
  obtain ⟨collected, listing⟩ := Visit.answered_of_bind entries
  rw [entriesVisit, Visit.follow_bind listing] at entries
  cases collected with
  | error fault => cases entries
  | ok documents =>
      obtain ⟨added, rfl, each⟩ := Visit.forall₂_of_collectFrom listing
      cases entries
      refine ⟨documents, rfl, each.imp fun field entry both => ?_⟩
      obtain ⟨result, written⟩ := Visit.answered_of_bind both
      rw [Visit.follow_bind written] at both
      cases result with
      | error fault => cases both
      | ok document =>
          cases both
          exact ⟨rfl, (Visit.follow_consult (DocumentPlace.value field.2)).symm.trans written⟩

theorem lookup_documents {fields : List (String × Value)} {entries : List (String × Json)}
    (each : List.Forall₂ (fun field entry => field.1 = entry.1 ∧ s.HasDocument field.2 entry.2)
      fields entries) (key : String) :
    Option.Rel s.HasDocument (fields.lookup key) (entries.lookup key) := by
  induction each with
  | nil => exact .none
  | @cons field entry fields entries both _ ih =>
      obtain ⟨name, v⟩ := field
      obtain ⟨name', document⟩ := entry
      obtain ⟨rfl, has⟩ := both
      rw [Json.lookup_cons_eq, Json.lookup_cons_eq]
      split
      · exact .some has
      · exact ih

theorem get?_struct {v : Value} {j : Json} (acc : Acc (flip s.Embeds) o)
    (isStruct : v = .struct o ∨ v = .pointer o) (document : s.toJson? v = some (.ok j))
    (key : String) :
    Option.Rel s.HasDocument ((s.listed o).reverse.lookup key) (j.get? key) := by
  obtain ⟨documents, rfl, each⟩ := toJson?_struct acc isStruct document
  rw [Json.get?_ofEntries]
  exact lookup_documents (List.forall₂_reverse_iff.mpr each) key

/-- A document text has an entry for each field that is listed, in this order. -/
theorem documentWithin_struct {v : Value} (acc : Acc (flip s.Embeds) o)
    (isStruct : v = .struct o ∨ v = .pointer o) (indentation : Option Library.Indentation)
    (depth level : Nat) :
    Library.documentWithin s indentation (depth + 1) level v =
      (do
        let parts ← (s.listed o).mapM fun (key, item) => do
          let text ← Library.documentWithin s indentation depth (level + 1) item
          pure (Library.documentEntry indentation key text)
        pure (Library.enclosed "\x7b" "\x7d" indentation level parts)) := by
  have fields := jsonFields?_eq_listed acc
  rcases isStruct with rfl | rfl
  · rw [Library.documentWithin]
    dsimp only
    rw [fields]
    rfl
  · rw [Library.documentWithin]
    dsimp only
    rw [fields]
    rfl

/-- What the fields that a struct lists in JSON are.  Under each name they are the fields of that
name of all levels, up to their order; the shallowest one is alone exactly if no deeper one is
shown. The document for the host has the last one listed, and the text of a document all of them. -/
structure ListsFields (s : Store) (o : StructId) (fields : List (String × Value)) : Prop where
  known : s.jsonFields? o = some fields
  levels : ∃ height, s.Covers height o ∧ ∀ key, (fields.filter (·.1 = key)).Perm
    ((List.range height).flatMap fun levels => (s.keyedAt key levels o).flatMap s.shown)
  shallowest {key : String} {levels : Nat} {entry : FieldDef × Value}
    (is : s.IsShallowestKey key o levels entry) :
    fields.filter (·.1 = key) = s.shown entry ↔
      ∀ deeper, levels < deeper → (s.keyedAt key deeper o).flatMap s.shown = []
  document {v : Value} {j : Json} (isStruct : v = .struct o ∨ v = .pointer o)
    (written : s.toJson? v = some (.ok j)) (key : String) :
    Option.Rel s.HasDocument (fields.reverse.lookup key) (j.get? key)
  text {v : Value} (isStruct : v = .struct o ∨ v = .pointer o)
    (indentation : Option Library.Indentation) (depth level : Nat) :
    Library.documentWithin s indentation (depth + 1) level v =
      (do
        let parts ← fields.mapM fun (key, item) => do
          let text ← Library.documentWithin s indentation depth (level + 1) item
          pure (Library.documentEntry indentation key text)
        pure (Library.enclosed "\x7b" "\x7d" indentation level parts))

theorem listsFields (acc : Acc (flip s.Embeds) o) : s.ListsFields o (s.listed o) := by
  obtain ⟨height, covers⟩ := exists_covers acc
  exact ⟨jsonFields?_eq_listed acc, ⟨height, covers, filter_listed_perm acc covers⟩,
    listed_shallowest_iff acc, get?_struct acc, documentWithin_struct acc⟩

/-- For every struct that embeds no struct in a circle: the name of a shallowest field is read and
written at one place, and that is the shallowest field exactly if the way down to it is clear; and
the fields listed in JSON are those of all levels, so that the shallowest one of a name stands alone
exactly if no deeper one is shown. -/
theorem promotion_shallowest_iff (acyclic : s.Acyclic o) :
    (∀ name slot, s.IsShallowest name o slot →
      ∃ found, s.Reaches name o found ∧ (found = slot ↔ s.WayClear name o slot)) ∧
      ∃ fields, s.ListsFields o fields :=
  ⟨fun _ _ => findField_shallowest_iff acyclic, s.listed o, listsFields acyclic.acc⟩

/-- A field of the name `X`. -/
def numberField : FieldDef := ⟨"X", false, some "X", false⟩

/-- The embedding of a struct. -/
def embedding (name : String) : FieldDef := ⟨name, true, some name, false⟩

/-- A struct that embeds two others; the field `X` is declared in the second one, and in a struct
that the first one embeds. -/
def shadowingStructs : Store where
  structs := #[
    ⟨⟨0, "D", [numberField]⟩, #[.int 1]⟩,
    ⟨⟨1, "C", [numberField]⟩, #[.int 2]⟩,
    ⟨⟨2, "B", [embedding "D"]⟩, #[.struct ⟨0⟩]⟩,
    ⟨⟨3, "A", [embedding "B", embedding "C"]⟩, #[.struct ⟨2⟩, .struct ⟨1⟩]⟩]

theorem acyclic_shadowingStructs : shadowingStructs.Acyclic ⟨3⟩ := by
  refine acyclic_of_rank StructId.index (fun o inner embeds => ?_) _
  obtain ⟨place⟩ := o
  match place with
  | 0 => cases embeds
  | 1 => cases embeds
  | 2 =>
      obtain rfl : inner = ⟨0⟩ := List.mem_singleton.mp embeds
      decide
  | 3 =>
      have two : inner ∈ [⟨2⟩, ⟨1⟩] := embeds
      rcases List.mem_cons.mp two with rfl | one
      · decide
      · obtain rfl : inner = ⟨1⟩ := List.mem_singleton.mp one
        decide
  | place + 4 => cases embeds

/-- The deeper field is met, and both are listed. -/
theorem promotion_shallowest_iff_shadowing :
    shadowingStructs.Acyclic ⟨3⟩ ∧
      (∃ found, shadowingStructs.Reaches "X" ⟨3⟩ found ∧ found ≠ (⟨1⟩, 0)) ∧
      ∃ fields, shadowingStructs.ListsFields ⟨3⟩ fields ∧
        fields.filter (·.1 = "X") ≠ [("X", .int 2)] := by
  have acyclic := acyclic_shadowingStructs
  have shallowest : shadowingStructs.IsShallowest "X" ⟨3⟩ (⟨1⟩, 0) := by
    refine ⟨1, by decide, by decide, by decide⟩
  have deep : shadowingStructs.WayClear "X" ⟨3⟩ (⟨0⟩, 0) :=
    @WayClear.embedded _ _ ⟨3⟩ ⟨2⟩ _ [] [⟨1⟩] rfl rfl (fun _ isIn => absurd isIn List.not_mem_nil)
      (@WayClear.embedded _ _ ⟨2⟩ ⟨0⟩ _ [] [] rfl rfl
        (fun _ isIn => absurd isIn List.not_mem_nil) (.own rfl))
  have shadowed : ¬shadowingStructs.WayClear "X" ⟨3⟩ (⟨1⟩, 0) := by
    intro clear
    have met := (met_eq_some_iff acyclic.acc "X" _).mpr deep
    rw [(met_eq_some_iff acyclic.acc "X" _).mpr clear] at met
    cases met
  obtain ⟨promoted, fields, lists⟩ := promotion_shallowest_iff acyclic
  obtain ⟨found, reaches, reached⟩ := promoted "X" (⟨1⟩, 0) shallowest
  refine ⟨acyclic, ⟨found, reaches, fun is => shadowed (reached.mp is)⟩, fields, lists, ?_⟩
  intro alone
  have shown : shadowingStructs.IsShallowestKey "X" ⟨3⟩ 1 (numberField, .int 2) := by
    refine ⟨rfl, fun shallower above => ?_⟩
    obtain rfl : shallower = 0 := by omega
    rfl
  have deeper := (lists.shallowest shown).mp alone 2 (by decide)
  cases deeper

end Store

end SandboxedGo
