import Mathlib
import SandboxedGo.Proofs.Documents
import SandboxedGo.Store.Boundary

/-!
# Documents that come back from the host

A document that becomes a guest value and then a document again is the same, but for its numbers,
which are floats afterwards.  The value is read in any later store that has the arrays and maps of
the document unchanged, so that the parts of a document can be taken one after another.
-/

set_option autoImplicit false

namespace SandboxedGo

namespace Decimal

open Float.Model

/-!
## Finite floats

A float is finite unless its exponent is the greatest one.  Changing the sign of a float keeps its
exponent, and the float nearest to an integer of 64 bits is far from the greatest exponent: both
are finite.
-/

/-! ## Exponents -/

section Exponents

variable {spec : Format}

/-- An unpacked number that is packed with an exponent below the greatest one. -/
def Moderate (spec : Format) : UnpackedFloat → Prop
  | .zero _ => True
  | .finite _ _ exponent _ =>
    (exponent + spec.exponentBias + spec.mantissaBitsWithoutImplicit).toNat + 1 <
      2 ^ spec.exponentBits
  | _ => False

theorem isFinite_unpack_iff (bits : BitVec spec.numBits) :
    (UnpackedFloat.unpack spec bits).isFinite = true ↔
      UnpackedFloat.unpackExponent bits ≠ -1#_ := by
  fun_cases UnpackedFloat.unpack spec bits with
  | case1 mantissa exponent sign signed greatest => exact iff_of_false nofun (· greatest)
  | case2 mantissa exponent greatest => exact iff_of_false nofun (· greatest)
  | case3 mantissa exponent sign signed moderate => exact iff_of_true rfl moderate
  | case4 mantissa exponent unbiased sign signed moderate => exact iff_of_true rfl moderate
  | case5 mantissa exponent unbiased sign signed moderate => exact iff_of_true rfl moderate

theorem toNat_ne_greatest {exponent : BitVec spec.exponentBits} (finite : exponent ≠ -1#_) :
    exponent.toNat + 1 < 2 ^ spec.exponentBits := by
  have bound := exponent.isLt
  suffices exponent.toNat ≠ 2 ^ spec.exponentBits - 1 by omega
  intro greatest
  apply finite
  apply BitVec.eq_of_toNat_eq
  rw [greatest, BitVec.neg_one_eq_allOnes, BitVec.toNat_allOnes]

theorem moderate_unpack (wide : 2 < 2 ^ spec.exponentBits) {bits : BitVec spec.numBits}
    (finite : UnpackedFloat.unpackExponent bits ≠ -1#_) :
    Moderate spec (UnpackedFloat.unpack spec bits) := by
  have bound := toNat_ne_greatest finite
  have biased (e : Nat) : (e : Int) - (spec.exponentBias + spec.mantissaBitsWithoutImplicit) +
      spec.exponentBias + spec.mantissaBitsWithoutImplicit = e := by omega
  fun_cases UnpackedFloat.unpack spec bits with
  | case1 mantissa exponent sign signed greatest => exact absurd greatest finite
  | case2 mantissa exponent greatest => exact absurd greatest finite
  | case3 => trivial
  | case4 mantissa exponent unbiased sign signed moderate least =>
      have value : exponent.toNat = 0 := by rw [least, BitVec.toNat_ofNat, Nat.zero_mod]
      have sum : unbiased + spec.exponentBias + spec.mantissaBitsWithoutImplicit = exponent.toNat :=
        biased _
      dsimp only [Moderate]
      omega
  | case5 mantissa exponent unbiased sign signed =>
      have sum : unbiased + spec.exponentBias + spec.mantissaBitsWithoutImplicit = exponent.toNat :=
        biased _
      dsimp only [Moderate]
      rw [sum, Int.toNat_natCast]
      exact bound

theorem unpackExponent_pack {x : UnpackedFloat} (moderate : Moderate spec x) :
    UnpackedFloat.unpackExponent (UnpackedFloat.pack spec x) ≠ -1#_ := by
  have leastNotGreatest : BitVec.ofNat spec.exponentBits 0 ≠ -1#_ := by
    intro same
    have value := congrArg BitVec.toNat same
    rw [BitVec.neg_one_eq_allOnes, BitVec.toNat_allOnes, BitVec.toNat_ofNat, Nat.zero_mod] at value
    have := Nat.one_lt_two_pow (Nat.pos_iff_ne_zero.mp spec.he)
    omega
  fun_cases UnpackedFloat.pack spec x with
  | case1 => cases moderate
  | case2 => cases moderate
  | case3 sign =>
      rw [UnpackedFloat.packedZero, UnpackedFloat.unpackExponent_packComponents]
      exact leastNotGreatest
  | case4 sign mantissa exponent pos biased large =>
      dsimp only [Moderate] at moderate
      omega
  | case5 sign mantissa exponent pos length biased small normal =>
      rw [UnpackedFloat.unpackExponent_packComponents]
      intro greatest
      have value := congrArg BitVec.toNat greatest
      rw [BitVec.toNat_ofNat, Nat.mod_eq_of_lt (by omega), BitVec.neg_one_eq_allOnes,
        BitVec.toNat_allOnes] at value
      omega
  | case6 =>
      rw [UnpackedFloat.unpackExponent_packComponents]
      exact leastNotGreatest

theorem moderate_neg {x : UnpackedFloat} (moderate : Moderate spec x) : Moderate spec x.neg := by
  cases x <;> exact moderate

end Exponents

/-! ## Floats of 64 bits -/

theorem two_lt_exponents : 2 < 2 ^ Format.binary64.exponentBits := by decide

theorem isFinite_neg {f : Float} (finite : f.isFinite = true) : (-f).isFinite = true := by
  have exponent : (UnpackedFloat.unpackExponent f.toModel.toBits.toBitVec :
      BitVec Format.binary64.exponentBits) ≠ -1#_ := (isFinite_unpack_iff _).mp finite
  exact (isFinite_unpack_iff _).mpr
    (unpackExponent_pack (moderate_neg (moderate_unpack two_lt_exponents exponent)))

theorem toNat_unpackExponent {bits : Nat} (small : bits < 2 ^ 64) :
    (UnpackedFloat.unpackExponent (UInt64.ofNat bits).toBitVec :
      BitVec Format.binary64.exponentBits).toNat =
      bits / 2 ^ 52 % 2 ^ 11 := by
  have kept : (UInt64.ofNat bits).toBitVec.toNat = bits := UInt64.toNat_ofNat_of_lt' small
  simp only [UnpackedFloat.unpackExponent, BitVec.toNat_cast, BitVec.extractLsb_toNat,
    Nat.shiftRight_eq_div_pow, kept]

theorem isFinite_ofBits {bits : Nat} (small : bits < infinityBits) :
    (Float.ofBits (UInt64.ofNat bits)).isFinite = true := by
  have limit : infinityBits = 2047 * 2 ^ 52 := rfl
  have fits : bits < 2 ^ 64 := by omega
  apply (isFinite_unpack_iff _).mpr
  apply unpackExponent_pack
  apply moderate_unpack two_lt_exponents
  intro greatest
  have value := congrArg BitVec.toNat greatest
  rw [toNat_unpackExponent fits, BitVec.neg_one_eq_allOnes, BitVec.toNat_allOnes] at value
  have exponentBits : Format.binary64.exponentBits = 11 := rfl
  rw [exponentBits] at value
  omega

/-! ## Floats nearest to integers -/

theorem roundHalfEven_le (num den : Nat) : roundHalfEven num den ≤ num / den + 1 := by
  unfold roundHalfEven
  dsimp only
  split <;> omega

theorem isFinite_zero : (0 : Float).isFinite = true := rfl

/-- A natural number divided by a power of two that is at least its order of magnitude. -/
theorem scaled_lt {n den : Nat} {e : Int} (unit : den = 1) (large : (n.log2 : Int) ≤ e + 53)
    {scaled : Nat × Nat}
    (is : scaled = if e < 0 then (n * Nat.pow 2 e.natAbs, den) else (n, den * Nat.pow 2 e.natAbs)) :
    scaled.1 / scaled.2 < 2 ^ 54 := by
  have below : n < 2 ^ (n.log2 + 1) := Nat.lt_log2_self
  subst unit
  by_cases negative : e < 0
  · rw [is, if_pos negative, Nat.div_one]
    calc n * 2 ^ e.natAbs
        < 2 ^ (n.log2 + 1) * 2 ^ e.natAbs :=
          Nat.mul_lt_mul_of_pos_right below (Nat.two_pow_pos _)
      _ = 2 ^ (n.log2 + 1 + e.natAbs) := (Nat.pow_add ..).symm
      _ ≤ 2 ^ 54 := Nat.pow_le_pow_right (by omega) (by omega)
  · rw [is, if_neg negative, Nat.one_mul]
    apply Nat.div_lt_of_lt_mul
    calc n < 2 ^ (n.log2 + 1) := below
      _ ≤ 2 ^ (e.natAbs + 54) := Nat.pow_le_pow_right (by omega) (by omega)
      _ = 2 ^ e.natAbs * 2 ^ 54 := Nat.pow_add ..

/-- The quotient is a natural number of 64 bits: its denominator is one. -/
theorem isFinite_nearestFloat {n den : Nat} (small : n < 2 ^ 64) (unit : den = 1) :
    (nearestFloat n den).isFinite = true := by
  unfold nearestFloat
  by_cases zero : n = 0
  · rw [if_pos (.inl zero)]
    exact isFinite_zero
  have order : n.log2 < 64 := (Nat.log2_lt zero).mpr small
  have log : den.log2 = 0 := by rw [unit]; rfl
  rw [if_neg (by omega)]
  extract_lets guess scaled exponent mantissa bits
  have isScaled (e : Int) : scaled e =
      if e < 0 then (n * Nat.pow 2 e.natAbs, den) else (n, den * Nat.pow 2 e.natAbs) := rfl
  clear_value scaled
  have bounds : (n.log2 : Int) ≤ exponent + 53 ∧ exponent ≤ 11 := by
    unfold exponent guess
    split <;> omega
  have quotient := scaled_lt unit bounds.1 (isScaled exponent)
  have rounded : mantissa ≤ _ := roundHalfEven_le (scaled exponent).1 (scaled exponent).2
  have isBits : bits = (exponent + 1074).toNat * Nat.pow 2 52 + mantissa := rfl
  clear_value mantissa exponent bits
  apply isFinite_ofBits
  -- With the power of two as a name, the sum of the parts is linear.
  have raised := Nat.mul_le_mul_right (Nat.pow 2 52) (show (exponent + 1074).toNat ≤ 1085 by omega)
  have widened : 2 ^ 54 = 4 * Nat.pow 2 52 := rfl
  have positive : 0 < Nat.pow 2 52 := Nat.two_pow_pos 52
  have limit : infinityBits = 2047 * Nat.pow 2 52 := rfl
  rw [limit, isBits]
  rw [widened] at quotient
  generalize Nat.pow 2 52 = power at *
  generalize (exponent + 1074).toNat * power = shifted at *
  omega

end Decimal

theorem Json.isFinite_floatOfInt {n : Int} (small : n.natAbs < 2 ^ 64) :
    (Json.floatOfInt n).isFinite = true := by
  have magnitude := Decimal.isFinite_nearestFloat small rfl
  unfold Json.floatOfInt
  by_cases negative : n < 0
  · rw [if_pos negative]
    exact Decimal.isFinite_neg magnitude
  · rw [if_neg negative]
    exact magnitude

/-! ## Documents of the host -/

namespace Json

mutual

/-- A document that the host can hold: integers have at most 64 bits, floats are finite, and the
keys of an object increase. -/
def IsProper : Json → Prop
  | .null | .bool _ | .string _ => True
  | .int n => -2 ^ 63 ≤ n ∧ n < 2 ^ 64
  | .float f => f.isFinite = true
  | .array items => ItemsProper items
  | .object entries => Increasing entries ∧ EntriesProper entries

def ItemsProper : List Json → Prop
  | [] => True
  | j :: rest => j.IsProper ∧ ItemsProper rest

def EntriesProper : List (String × Json) → Prop
  | [] => True
  | (_, j) :: rest => j.IsProper ∧ EntriesProper rest

end

mutual

/-- A document with each integer as the nearest float. -/
def withFloats : Json → Json
  | .int n => .float (floatOfInt n)
  | .array items => .array (itemsWithFloats items)
  | .object entries => .object (entriesWithFloats entries)
  | j => j

def itemsWithFloats : List Json → List Json
  | [] => []
  | j :: rest => j.withFloats :: itemsWithFloats rest

def entriesWithFloats : List (String × Json) → List (String × Json)
  | [] => []
  | (key, j) :: rest => (key, j.withFloats) :: entriesWithFloats rest

end

theorem entriesWithFloats_eq_map (entries : List (String × Json)) :
    entriesWithFloats entries = entries.map fun e => (e.1, e.2.withFloats) := by
  induction entries with
  | nil => rfl
  | cons e rest ih => rw [entriesWithFloats, ih, List.map_cons]

theorem increasing_entriesWithFloats {entries : List (String × Json)}
    (increasing : Increasing entries) : Increasing (entriesWithFloats entries) := by
  rw [entriesWithFloats_eq_map]
  exact List.pairwise_map.mpr increasing

end Json

/-! ## Stores with more in them -/

namespace Store

/-- The arrays and maps of the one store stand unchanged in the other. -/
structure StandsIn (s s' : Store) : Prop where
  backing : ∀ (i : Nat) (items : Array Value), s.backings[i]? = some items →
    s'.backings[i]? = some items
  map : ∀ (i : Nat) (entries : MapEntries), s.maps[i]? = some entries → s'.maps[i]? = some entries

variable {s s' s'' : Store}

theorem StandsIn.refl (s : Store) : s.StandsIn s := ⟨fun _ _ is => is, fun _ _ is => is⟩

theorem StandsIn.trans (first : s.StandsIn s') (second : s'.StandsIn s'') : s.StandsIn s'' :=
  ⟨fun i items is => second.backing i items (first.backing i items is),
    fun i entries is => second.map i entries (first.map i entries is)⟩

theorem getElem?_push_of_some {α : Type} {xs : Array α} {x y : α} {i : Nat}
    (is : xs[i]? = some y) : (xs.push x)[i]? = some y := by
  obtain ⟨within, rfl⟩ := Array.getElem?_eq_some_iff.mp is
  rw [Array.getElem?_push_lt within]

theorem modify_push_size {α : Type} (xs : Array α) (x : α) (f : α → α) :
    (xs.push x).modify xs.size f = xs.push (f x) := by
  apply Array.ext_getElem?
  intro i
  rw [Array.getElem?_modify, Array.getElem?_push, Array.getElem?_push]
  by_cases last : xs.size = i
  · simp [last]
  · rw [if_neg last, if_neg (Ne.symm last), if_neg (Ne.symm last)]

/-! ### New slices -/

theorem standsIn_newSlice (items : Array Value) (s : Store) :
    s.StandsIn (s.newSlice items).2 :=
  ⟨fun _ _ is => getElem?_push_of_some is, fun _ _ is => is⟩

theorem elements_newSlice (items : Array Value) (s : Store)
    (stands : (s.newSlice items).2.StandsIn s') :
    s'.elements (s.newSlice items).1 = items.toList := by
  have stored : s'.backings[s.backings.size]? = some items :=
    stands.backing _ _ Array.getElem?_push_size
  apply List.ext_getElem
  · simp [elements, newSlice, newBacking]
  · intro i within _
    simp only [elements, newSlice, newBacking, List.length_map, List.length_range] at within
    simp [elements, newSlice, newBacking, backing, stored, within]

/-! ### New maps -/

/-- The entries of a map to which values were added under texts. -/
def entriesOf (added : List (String × Value)) : MapEntries :=
  added.foldl (fun t e => t.insert (.string e.1) e.2) ∅

/-- A new map to which values were added under texts. -/
def filledMap (added : List (String × Value)) (s : Store) : MapId × Store :=
  (s.newMap.1, added.foldl (fun s' e => s'.mapInsert s.newMap.1 (.string e.1) e.2) s.newMap.2)

theorem filledMap_eq (added : List (String × Value)) (s : Store) :
    s.filledMap added = (⟨s.maps.size⟩, { s with maps := s.maps.push (entriesOf added) }) := by
  suffices ∀ t : MapEntries,
      added.foldl (fun s' e => s'.mapInsert s.newMap.1 (.string e.1) e.2)
          { s with maps := s.maps.push t } =
        { s with
          maps := s.maps.push (added.foldl (fun t e => t.insert (.string e.1) e.2) t) } from
    congrArg (Prod.mk _) (this ∅)
  induction added with
  | nil => exact fun _ => rfl
  | cons e rest ih =>
      intro t
      rw [List.foldl_cons, List.foldl_cons, ← ih, mapInsert, newMap, modify_push_size]

theorem standsIn_filledMap (added : List (String × Value)) (s : Store) :
    s.StandsIn (s.filledMap added).2 := by
  rw [filledMap_eq]
  exact ⟨fun _ _ is => is, fun _ _ is => getElem?_push_of_some is⟩

theorem toList_entriesOf {added : List (String × Value)} (increasing : Json.Increasing added) :
    (entriesOf added).toList = added.map fun e => (.string e.1, e.2) := by
  have ordered : (added.map fun e => (MapKey.string e.1, e.2)).Pairwise MapEntries.Before :=
    List.pairwise_map.mpr (increasing.imp fun below => MapKey.compare_string_lt.mpr below)
  have listed := MapEntries.toList_foldl_insert ∅ ordered
  rw [List.foldl_map] at listed
  exact listed

theorem mapList_filledMap {added : List (String × Value)} (increasing : Json.Increasing added)
    (stands : (s.filledMap added).2.StandsIn s') :
    s'.mapList (some (s.filledMap added).1) = added.map fun e => (.string e.1, e.2) := by
  rw [filledMap_eq] at stands ⊢
  have stored := stands.map s.maps.size _ Array.getElem?_push_size
  rw [mapList, mapEntries, stored]
  exact toList_entriesOf increasing

end Store

/-! ## There and back -/

namespace Json

open Store

/-- A later store has this document for the value. -/
def ReadsBack (s : Store) (v : Value) (j : Json) : Prop :=
  ∀ s' : Store, s.StandsIn s' → s'.HasDocument v j

theorem increasing_of_keys {α β : Type} {entries : List (String × α)} {entries' : List (String × β)}
    {R : String × α → String × β → Prop} (same : ∀ e e', R e e' → e.1 = e'.1)
    (each : List.Forall₂ R entries entries') (increasing : Increasing entries') :
    Increasing entries := by
  have keys : entries.map Prod.fst = entries'.map Prod.fst := by
    rw [← List.forall₂_eq_eq_eq, List.forall₂_map_left_iff, List.forall₂_map_right_iff]
    exact each.imp fun e e' => same e e'
  have : (entries'.map Prod.fst).Pairwise (· < ·) := List.pairwise_map.mpr increasing
  rw [← keys] at this
  exact List.pairwise_map.mp this

mutual

theorem toValue_readsBack (j : Json) (proper : j.IsProper) (s : Store) :
    s.StandsIn (j.toValue s).2 ∧ ReadsBack (j.toValue s).2 (j.toValue s).1 j.withFloats := by
  cases j with
  | null => exact ⟨.refl s, fun _ _ => hasDocument_nil⟩
  | bool b => exact ⟨.refl s, fun _ _ => hasDocument_bool b⟩
  | int n =>
      simp only [IsProper] at proper
      exact ⟨.refl s, fun _ _ => hasDocument_float (isFinite_floatOfInt (by omega))⟩
  | float f => exact ⟨.refl s, fun _ _ => hasDocument_float proper⟩
  | string t => exact ⟨.refl s, fun _ _ => hasDocument_string t⟩
  | array items =>
      obtain ⟨kept, read⟩ := toValues_readBack items proper s
      have stands := standsIn_newSlice (toValues items s).1.toArray (toValues items s).2
      refine ⟨kept.trans stands, fun s' later => ?_⟩
      have listed := elements_newSlice (toValues items s).1.toArray (toValues items s).2 later
      apply hasDocument_slice rfl
      exact listed ▸ read.imp fun _ _ back => back s' (stands.trans later)
  | object entries =>
      obtain ⟨increasing, proper⟩ := proper
      obtain ⟨kept, read⟩ := toEntries_readBack entries proper s
      have stands := standsIn_filledMap (toEntries entries s).1 (toEntries entries s).2
      have sorted := increasing_entriesWithFloats increasing
      have sortedValues := increasing_of_keys (fun _ _ both => both.1) read sorted
      refine ⟨kept.trans stands, fun s' later => ?_⟩
      have listed := mapList_filledMap sortedValues later
      rw [withFloats, ← ofEntries_increasing sorted]
      apply hasDocument_map
      refine listed ▸ List.forall₂_map_left_iff.mpr ?_
      exact read.imp fun _ _ both => ⟨both.1, both.2 s' (stands.trans later)⟩

theorem toValues_readBack (items : List Json) (proper : ItemsProper items) (s : Store) :
    s.StandsIn (toValues items s).2 ∧
      List.Forall₂ (ReadsBack (toValues items s).2) (toValues items s).1
        (itemsWithFloats items) := by
  cases items with
  | nil => exact ⟨.refl s, .nil⟩
  | cons j rest =>
      obtain ⟨kept, back⟩ := toValue_readsBack j proper.1 s
      obtain ⟨keptRest, backRest⟩ := toValues_readBack rest proper.2 (j.toValue s).2
      exact ⟨kept.trans keptRest, .cons (fun s' later => back s' (keptRest.trans later)) backRest⟩

theorem toEntries_readBack (entries : List (String × Json)) (proper : EntriesProper entries)
    (s : Store) :
    s.StandsIn (toEntries entries s).2 ∧
      List.Forall₂ (fun e document => e.1 = document.1 ∧
          ReadsBack (toEntries entries s).2 e.2 document.2)
        (toEntries entries s).1 (entriesWithFloats entries) := by
  cases entries with
  | nil => exact ⟨.refl s, .nil⟩
  | cons e rest =>
      obtain ⟨key, j⟩ := e
      obtain ⟨kept, back⟩ := toValue_readsBack j proper.1 s
      obtain ⟨keptRest, backRest⟩ := toEntries_readBack rest proper.2 (j.toValue s).2
      exact ⟨kept.trans keptRest,
        .cons ⟨rfl, fun s' later => back s' (keptRest.trans later)⟩ backRest⟩

end

/-- Only the null document is nil: an empty array and an empty object are not. -/
theorem isNil_toValue (j : Json) (s : Store) : (j.toValue s).1.isNil = true ↔ j = .null := by
  cases j <;> simp [toValue, Value.isNil, newSlice, newBacking]

/-- A document of the host becomes a guest value and then the same document again, with each number
as the nearest float: nothing is lost, and only the null document is nil in between. -/
theorem host_round_trip (j : Json) (proper : j.IsProper) (s : Store) :
    (j.toValue s).2.toJson? (j.toValue s).1 = some (.ok j.withFloats) ∧
      ((j.toValue s).1.isNil = true ↔ j = .null) :=
  ⟨(toValue_readsBack j proper s).2 _ (.refl _), isNil_toValue j s⟩

theorem host_round_trip_nested :
    let j := object [("a", array []), ("b", object []), ("c", array [null, int (-7), string "x"])]
    j.IsProper ∧
      (j.toValue {}).2.toJson? (j.toValue {}).1 = some (.ok (object
        [("a", array []), ("b", object []),
          ("c", array [null, float (floatOfInt (-7)), string "x"])])) ∧
      ((j.toValue {}).1.isNil = true ↔ j = null) := by
  intro j
  have proper : j.IsProper := by
    simp only [j, IsProper, EntriesProper, ItemsProper, Increasing]
    decide
  exact ⟨proper, host_round_trip j proper {}⟩

end Json

end SandboxedGo
