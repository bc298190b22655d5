import Mathlib.Data.List.Forall2
import Mathlib.Data.List.Sort
import SandboxedGo.Proofs.Holders
import SandboxedGo.Store.Boundary

/-!
# Documents of containers

The document of a slice is the array of the documents of its elements, and that of a map is the
object of the documents under its keys.  The entries of a map are in the order of their keys, which
is the order of the entries of an object; a map to which greater and greater keys were added lists
them as they were added.
-/

set_option autoImplicit false

namespace SandboxedGo

/-! ## Walks -/

namespace Visit

variable {α : Type} {ρ : α → Type} {β γ δ ε : Type} {answer : (place : α) → Option (ρ place)}

theorem follow_bind {x : Visit ρ β} {f : β → Visit ρ γ} {b : β} (first : x.follow answer = some b) :
    (x >>= f).follow answer = (f b).follow answer := by
  induction x with
  | done b' =>
      cases first
      rfl
  | ask place next ih =>
      cases known : answer place with
      | none => simp [follow, known] at first
      | some r =>
          simp only [follow, known] at first
          change (ask place fun r => (next r).bind f).follow answer = _
          simp only [follow, known]
          exact ih r first

theorem follow_collectFrom {f : γ → Visit ρ (Except ε δ)} {items : List γ} {results : List δ}
    (each : List.Forall₂ (fun item d => (f item).follow answer = some (.ok d)) items results)
    (read : List δ) :
    (collectFrom f read items).follow answer = some (.ok (read.reverse ++ results)) := by
  induction each generalizing read with
  | nil => simp [collectFrom, follow]
  | cons first _ ih =>
      rw [collectFrom, follow_bind first]
      simp [ih]

theorem follow_collect {f : γ → Visit ρ (Except ε δ)} {items : List γ} {results : List δ}
    (each : List.Forall₂ (fun item d => (f item).follow answer = some (.ok d)) items results) :
    (collect f items).follow answer = some (.ok results) :=
  follow_collectFrom each []

theorem follow_consult (place : α) : (consult place).follow answer = answer place := by
  cases known : answer place <;> simp [consult, follow, known]

end Visit

/-! ## Values and their documents -/

namespace Store

variable {s : Store}

def HasDocument (s : Store) (v : Value) (j : Json) : Prop := s.toJson? v = some (.ok j)

theorem toJson?_eq (v : Value) :
    s.toJson? v = (s.documentVisit v).follow (walk s.boundaryVisit) := by
  rw [toJson?, walk]
  rfl

theorem follow_consultDocument {v : Value} {j : Json} (has : s.HasDocument v j) :
    (consultDocument v).follow (walk s.boundaryVisit) = some (.ok j) :=
  (Visit.follow_consult _).trans has

theorem hasDocument_nil : s.HasDocument .nil .null := toJson?_eq _

theorem hasDocument_bool (b : Bool) : s.HasDocument (.bool b) (.bool b) := toJson?_eq _

theorem hasDocument_int (n : Int64) : s.HasDocument (.int n) (.int n.toInt) := toJson?_eq _

theorem hasDocument_string (t : String) : s.HasDocument (.string t) (.string t) := toJson?_eq _

theorem hasDocument_float {f : Float} (finite : f.isFinite = true) :
    s.HasDocument (.float f) (.float f) := by
  rw [HasDocument, toJson?_eq, documentVisit, if_pos finite]
  rfl

theorem hasDocument_nilSlice {view : SliceView} (isNil : view.isNil = true) :
    s.HasDocument (.slice view) .null := by
  rw [HasDocument, toJson?_eq, documentVisit, if_pos isNil]
  rfl

theorem hasDocument_slice {view : SliceView} {documents : List Json} (notNil : view.isNil = false)
    (each : List.Forall₂ s.HasDocument (s.elements view) documents) :
    s.HasDocument (.slice view) (.array documents) := by
  have collected : (Visit.collect consultDocument (s.elements view)).follow
      (walk s.boundaryVisit) = some (.ok documents) :=
    Visit.follow_collect (each.imp fun _ _ has => follow_consultDocument has)
  rw [HasDocument, toJson?_eq, documentVisit, if_neg (by simp [notNil]),
    Visit.follow_bind collected]
  rfl

theorem hasDocument_nilMap (zero : Value) : s.HasDocument (.map none zero) .null := toJson?_eq _

/-- A key of a map and its value have this entry of an object. -/
def HasEntry (s : Store) (entry : MapKey × Value) (document : String × Json) : Prop :=
  entry.1.text = document.1 ∧ s.HasDocument entry.2 document.2

theorem hasDocument_map {m : MapId} {documents : List (String × Json)} (zero : Value)
    (each : List.Forall₂ s.HasEntry (s.mapList (some m)) documents) :
    s.HasDocument (.map (some m) zero) (Json.ofEntries documents) := by
  have collected : (Visit.collect
      (fun entry : String × Value => do
        return (← consultDocument entry.2).map fun j => (entry.1, j))
      ((s.mapList (some m)).map fun entry => (entry.1.text, entry.2))).follow
      (walk s.boundaryVisit) = some (.ok documents) := by
    apply Visit.follow_collect
    rw [List.forall₂_map_left_iff]
    refine each.imp fun entry document has => ?_
    rw [Visit.follow_bind (follow_consultDocument has.2), has.1]
    rfl
  have followed : (entriesVisit ((s.mapList (some m)).map fun entry => (entry.1.text, entry.2))).follow
      (walk s.boundaryVisit) = some (.ok (Json.ofEntries documents)) := by
    rw [entriesVisit, Visit.follow_bind collected]
    rfl
  rw [HasDocument, toJson?_eq, ← followed]
  rfl

end Store

/-! ## Objects -/

namespace Json

/-- The keys of the entries increase. -/
def Increasing {α : Type} (entries : List (String × α)) : Prop :=
  entries.Pairwise fun e e' => e.1 < e'.1

theorem insertEntry_greatest {key : String} {value : Json} {entries : List (String × Json)}
    (greatest : ∀ e ∈ entries, e.1 < key) :
    insertEntry key value entries = entries ++ [(key, value)] := by
  induction entries with
  | nil => rfl
  | cons e rest ih =>
      have above := greatest e List.mem_cons_self
      rw [insertEntry, if_neg (String.lt_asymm above), if_neg (String.ne_of_lt above).symm,
        ih fun e' mem => greatest e' (List.mem_cons_of_mem _ mem)]
      rfl

theorem ofEntries_increasing {entries : List (String × Json)} (increasing : Increasing entries) :
    ofEntries entries = .object entries := by
  suffices ∀ sorted : List (String × Json), Increasing (sorted ++ entries) →
      entries.foldl (fun sorted e => insertEntry e.1 e.2 sorted) sorted = sorted ++ entries from
    congrArg object (this [] increasing)
  induction entries with
  | nil => simp
  | cons e rest ih =>
      intro sorted both
      have greatest : ∀ e' ∈ sorted, e'.1 < e.1 := fun e' mem =>
        (List.pairwise_append.mp both).2.2 e' mem e List.mem_cons_self
      rw [List.foldl_cons, insertEntry_greatest greatest, ih (List.Pairwise.of_cons increasing)]
      · simp
      · simpa using both

end Json

/-! ## Keys of maps -/

namespace MapKey

theorem float_eq_of_toBits {f g : Float} (same : f.toBits = g.toBits) : f = g := by
  obtain ⟨⟨bits, valid⟩⟩ := f
  obtain ⟨⟨bits', valid'⟩⟩ := g
  obtain rfl : bits = bits' := same
  rfl

theorem floatRank_injective {f g : Float} (same : floatRank f = floatRank g) : f = g := by
  apply float_eq_of_toBits
  apply UInt64.toNat_inj.mp
  have limit : Nat.pow 2 63 = 9223372036854775808 := rfl
  unfold floatRank at same
  rw [limit] at same
  dsimp only at same
  split at same <;> split at same <;> omega

instance : Std.LawfulEqCmp compare where
  eq_of_compare {a b} same := by
    rw [compare_eq_iff] at same
    cases a <;> cases b <;> simp only [identity, Sum.inl.injEq, Sum.inr.injEq, reduceCtorEq] at same
    · rw [same]
    · rw [same]
    · rw [floatRank_injective same]
    · rw [same]

theorem compare_string_lt {a b : String} : compare (.string a) (.string b) = .lt ↔ a < b :=
  compareOfLessAndEq_eq_lt

end MapKey

namespace MapEntries

/-- One entry stands in front of another in a map. -/
def Before (e e' : MapKey × Value) : Prop := MapKey.compare e.1 e'.1 = .lt

instance : Std.Irrefl Before where
  irrefl e before := by
    have same : MapKey.compare e.1 e.1 = .eq := Std.ReflCmp.compare_self
    rw [Before, same] at before
    cases before

instance : Std.Antisymm Before where
  antisymm _ _ before behind := absurd behind (Std.OrientedCmp.not_lt_of_lt before)

theorem toList_ordered (t : MapEntries) : t.toList.Pairwise Before :=
  Std.TreeMap.ordered_keys_toList

theorem toList_insert_greatest {t : MapEntries} {key : MapKey} {v : Value}
    (greatest : ∀ e ∈ t.toList, Before e (key, v)) :
    (t.insert key v).toList = t.toList ++ [(key, v)] := by
  have ordered : (t.toList ++ [(key, v)]).Pairwise Before :=
    List.pairwise_append.mpr ⟨toList_ordered t, List.pairwise_singleton .., fun e mem e' mem' => by
      obtain rfl := List.mem_singleton.mp mem'
      exact greatest e mem⟩
  apply (toList_ordered (t.insert key v)).eq_of_mem_iff ordered
  rintro ⟨key', v'⟩
  rw [Std.TreeMap.mem_toList_iff_getElem?_eq_some, Std.TreeMap.getElem?_insert, List.mem_append,
    Std.TreeMap.mem_toList_iff_getElem?_eq_some, List.mem_singleton, Prod.mk.injEq]
  by_cases same : MapKey.compare key key' = .eq
  · obtain rfl := Std.LawfulEqCmp.eq_of_compare same
    rw [if_pos same, Option.some.injEq]
    have absent : t[key]? ≠ some v' := by
      intro stored
      have below : Before (key, v) (key, v) :=
        greatest (key, v') (Std.TreeMap.mem_toList_iff_getElem?_eq_some.mpr stored)
      exact Std.Irrefl.irrefl _ below
    simp [absent, eq_comm]
  · have other : key' ≠ key := by
      rintro rfl
      exact same Std.ReflCmp.compare_self
    rw [if_neg same]
    simp [other]

theorem toList_foldl_insert {entries : List (MapKey × Value)} (t : MapEntries)
    (increasing : (t.toList ++ entries).Pairwise Before) :
    (entries.foldl (fun t e => t.insert e.1 e.2) t).toList = t.toList ++ entries := by
  induction entries generalizing t with
  | nil => simp
  | cons e rest ih =>
      have greatest : ∀ e' ∈ t.toList, Before e' e := fun e' mem =>
        (List.pairwise_append.mp increasing).2.2 e' mem e List.mem_cons_self
      have listed := toList_insert_greatest greatest
      rw [List.foldl_cons, ih (t.insert e.1 e.2)]
      · simp [listed]
      · simpa [listed] using increasing

end MapEntries

end SandboxedGo
