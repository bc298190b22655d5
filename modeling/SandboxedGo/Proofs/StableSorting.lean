import Mathlib.Algebra.GroupWithZero.Nat
import SandboxedGo.Library.Call
import SandboxedGo.Proofs.AppendedSlices
import SandboxedGo.Proofs.LoopVariables

/-!
# Stable sorting by a function of the program

A slice is sorted by a function of the program that compares two of its places; the function may
fail, contradict itself and change the slice.  What is sorted are the places: their list is halved,
the halves are sorted and merged, and only then are the elements moved.  What the merging does with
any answers is told apart from what the answers mean.  Main statement: `slice_sorted_stably`, that a
failure of the function is the end, that no element is lost otherwise, and that the sorting is
stable if the function is a strict weak order of the elements.
-/

set_option autoImplicit false

namespace SandboxedGo.Library

/-! ## Weak orders -/

section WeakOrders

variable {α β : Type} {below : α → α → Bool} {items : List α}

/-- Whether neither of two comes before the other. -/
def alike (below : α → α → Bool) (a b : α) : Bool := !below a b && !below b a

/-- A strict weak order of what is in a list. -/
structure WeaklyOrders (below : α → α → Bool) (items : List α) : Prop where
  irreflexive : ∀ a ∈ items, below a a = false
  transitive : ∀ a ∈ items, ∀ b ∈ items, ∀ c ∈ items,
    below a b = true → below b c = true → below a c = true
  alike_transitive : ∀ a ∈ items, ∀ b ∈ items, ∀ c ∈ items,
    alike below a b = true → alike below b c = true → alike below a c = true

theorem weaklyOrders_key (key : α → Int) (items : List α) :
    WeaklyOrders (fun a b => key a < key b) items where
  irreflexive a _ := by simp
  transitive a _ b _ c _ := by
    simp only [decide_eq_true_eq]
    omega
  alike_transitive a _ b _ c _ := by
    simp only [alike, Bool.and_eq_true, Bool.not_eq_true', decide_eq_false_iff_not]
    omega

theorem alike_iff {a b : α} : alike below a b = true ↔ below a b = false ∧ below b a = false := by
  simp [alike]

theorem alike_symm {a b : α} (same : alike below a b = true) : alike below b a = true :=
  alike_iff.mpr (alike_iff.mp same).symm

namespace WeaklyOrders

variable (order : WeaklyOrders below items) {a b c : α} (isA : a ∈ items) (isB : b ∈ items)
  (isC : c ∈ items)

include order isA isB isC

theorem not_below_transitive (first : below b a = false) (second : below c b = false) :
    below c a = false := by
  cases backwards : below c a with
  | false => rfl
  | true =>
      have noFirst : below a b = false := by
        cases forwards : below a b with
        | false => rfl
        | true => exact (order.transitive c isC a isA b isB backwards forwards).symm.trans second
      have noSecond : below b c = false := by
        cases forwards : below b c with
        | false => rfl
        | true => exact (order.transitive b isB c isC a isA forwards backwards).symm.trans first
      have same := order.alike_transitive a isA b isB c isC (alike_iff.mpr ⟨noFirst, first⟩)
        (alike_iff.mpr ⟨noSecond, second⟩)
      exact backwards.symm.trans (alike_iff.mp same).2

theorem below_of_below_of_not (first : below a b = true) (second : below c b = false) :
    below a c = true := by
  cases is : below a c with
  | true => rfl
  | false =>
      have contrary := order.not_below_transitive isB isC isA second is
      exact contrary.symm.trans first

theorem below_of_not_of_below (first : below b a = false) (second : below b c = true) :
    below a c = true := by
  cases is : below a c with
  | true => rfl
  | false =>
      have contrary := order.not_below_transitive isC isA isB is first
      exact contrary.symm.trans second

end WeaklyOrders

theorem WeaklyOrders.places {f : β → α} {places : List β} (order : WeaklyOrders below items)
    (elements : ∀ p ∈ places, f p ∈ items) :
    WeaklyOrders (fun p q => below (f p) (f q)) places where
  irreflexive p isP := order.irreflexive _ (elements p isP)
  transitive p isP q isQ r isR :=
    order.transitive _ (elements p isP) _ (elements q isQ) _ (elements r isR)
  alike_transitive p isP q isQ r isR :=
    order.alike_transitive _ (elements p isP) _ (elements q isQ) _ (elements r isR)

end WeakOrders

/-! ## Merging with any answers -/

section Traces

variable {allowed : Nat → Nat → Bool → Prop}

/-- Two lists of places are merged, by asking whether the first of the right list is smaller than
the first of the left one; `allowed` holds of every answer. -/
inductive Merges (allowed : Nat → Nat → Bool → Prop) : (left right merged : List Nat) → Prop
  | leftDone (right : List Nat) : Merges allowed [] right right
  | rightDone (left : List Nat) : Merges allowed left [] left
  | right {i j : Nat} {left right merged : List Nat} (smaller : allowed j i true)
      (others : Merges allowed (i :: left) right merged) :
      Merges allowed (i :: left) (j :: right) (j :: merged)
  | left {i j : Nat} {left right merged : List Nat} (notSmaller : allowed j i false)
      (others : Merges allowed left (j :: right) merged) :
      Merges allowed (i :: left) (j :: right) (i :: merged)

/-- A list of places is sorted by sorting two parts of it and merging them. -/
inductive MergeSorts (allowed : Nat → Nat → Bool → Prop) : (places sorted : List Nat) → Prop
  | short {places : List Nat} (short : places.length < 2) : MergeSorts allowed places places
  | parts {left right sortedLeft sortedRight sorted : List Nat}
      (first : MergeSorts allowed left sortedLeft) (second : MergeSorts allowed right sortedRight)
      (merges : Merges allowed sortedLeft sortedRight sorted) :
      MergeSorts allowed (left ++ right) sorted

theorem Merges.perm {left right merged : List Nat} (merges : Merges allowed left right merged) :
    merged.Perm (left ++ right) := by
  induction merges with
  | leftDone right => exact .refl _
  | rightDone left => rw [List.append_nil]
  | right _ _ ih => exact (ih.cons _).trans List.perm_middle.symm
  | left _ _ ih => exact ih.cons _

theorem MergeSorts.perm {places sorted : List Nat} (sorts : MergeSorts allowed places sorted) :
    sorted.Perm places := by
  induction sorts with
  | short _ => exact .refl _
  | parts _ _ merges first second => exact merges.perm.trans (first.append second)

end Traces

/-! ## The order of places -/

section Stability

variable {smaller : Nat → Nat → Bool} {all : List Nat}

/-- Whether a place belongs before another one: it is smaller, or they are alike and it is the
earlier one. -/
def Precedes (smaller : Nat → Nat → Bool) (i j : Nat) : Prop :=
  smaller i j = true ∨ smaller j i = false ∧ i < j

theorem Precedes.trans (order : WeaklyOrders smaller all) {i j k : Nat} (isI : i ∈ all)
    (isJ : j ∈ all)
    (isK : k ∈ all) (first : Precedes smaller i j) (second : Precedes smaller j k) :
    Precedes smaller i k := by
  rcases first with first | ⟨notFirst, earlier⟩
  · rcases second with second | ⟨notSecond, -⟩
    · exact .inl (order.transitive i isI j isJ k isK first second)
    · exact .inl (order.below_of_below_of_not isI isJ isK first notSecond)
  · rcases second with second | ⟨notSecond, later⟩
    · exact .inl (order.below_of_not_of_below isI isJ isK notFirst second)
    · exact .inr ⟨order.not_below_transitive isI isJ isK notFirst notSecond,
        Nat.lt_trans earlier later⟩

/-- Merging goes on with what belongs before everything else that is left. -/
theorem Merges.stable (order : WeaklyOrders smaller all) {left right merged : List Nat}
    (merges : Merges (fun i j answer => answer = smaller i j) left right merged)
    (inLeft : ∀ i ∈ left, i ∈ all) (inRight : ∀ j ∈ right, j ∈ all)
    (earlier : ∀ i ∈ left, ∀ j ∈ right, i < j) (ordered : left.Pairwise (Precedes smaller))
    (ordered' : right.Pairwise (Precedes smaller)) : merged.Pairwise (Precedes smaller) := by
  induction merges with
  | leftDone right => exact ordered'
  | rightDone left => exact ordered
  | @right i j left right merged isSmaller others ih =>
      have before : Precedes smaller j i := .inl isSmaller.symm
      have isI := inLeft i List.mem_cons_self
      have isJ := inRight j List.mem_cons_self
      obtain ⟨ahead, -⟩ := List.pairwise_cons.mp ordered
      obtain ⟨ahead', ordered'⟩ := List.pairwise_cons.mp ordered'
      refine List.pairwise_cons.mpr ⟨fun k isIn => ?_, ih inLeft
        (fun k isIn => inRight k (List.mem_cons_of_mem _ isIn))
        (fun k isIn k' isIn' => earlier k isIn k' (List.mem_cons_of_mem _ isIn')) ordered ordered'⟩
      rcases List.mem_append.mp (others.perm.mem_iff.mp isIn) with isIn | isIn
      · rcases List.mem_cons.mp isIn with rfl | isIn
        · exact before
        · exact before.trans order isJ isI (inLeft k (List.mem_cons_of_mem _ isIn)) (ahead k isIn)
      · exact ahead' k isIn
  | @left i j left right merged notSmaller others ih =>
      have before : Precedes smaller i j :=
        .inr ⟨notSmaller.symm, earlier i List.mem_cons_self j List.mem_cons_self⟩
      have isI := inLeft i List.mem_cons_self
      have isJ := inRight j List.mem_cons_self
      obtain ⟨ahead, ordered⟩ := List.pairwise_cons.mp ordered
      obtain ⟨ahead', -⟩ := List.pairwise_cons.mp ordered'
      refine List.pairwise_cons.mpr ⟨fun k isIn => ?_,
        ih (fun k isIn => inLeft k (List.mem_cons_of_mem _ isIn)) inRight
        (fun k isIn => earlier k (List.mem_cons_of_mem _ isIn)) ordered ordered'⟩
      rcases List.mem_append.mp (others.perm.mem_iff.mp isIn) with isIn | isIn
      · exact ahead k isIn
      · rcases List.mem_cons.mp isIn with rfl | isIn
        · exact before
        · exact before.trans order isI isJ (inRight k (List.mem_cons_of_mem _ isIn)) (ahead' k isIn)

theorem MergeSorts.stable (order : WeaklyOrders smaller all) {places sorted : List Nat}
    (sorts : MergeSorts (fun i j answer => answer = smaller i j) places sorted)
    (within : ∀ i ∈ places, i ∈ all) (increasing : places.Pairwise (· < ·)) :
    sorted.Pairwise (Precedes smaller) := by
  induction sorts with
  | @short places short =>
      match places, short with
      | [], _ => exact .nil
      | [i], _ => exact List.pairwise_singleton _ i
  | parts first second merges ih ih' =>
      obtain ⟨left, right, apart⟩ := List.pairwise_append.mp increasing
      have inLeft := fun i isIn => within i (List.mem_append_left _ isIn)
      have inRight := fun i isIn => within i (List.mem_append_right _ isIn)
      exact merges.stable order (fun i isIn => inLeft i (first.perm.mem_iff.mp isIn))
        (fun j isIn => inRight j (second.perm.mem_iff.mp isIn))
        (fun i isIn j isIn' =>
          apart i (first.perm.mem_iff.mp isIn) j (second.perm.mem_iff.mp isIn'))
        (ih inLeft left) (ih' inRight right)

section Elements

variable {α : Type} {below : α → α → Bool} {items : List α} {f : Nat → α}
  (order : WeaklyOrders below items) {count : Nat} (elements : ∀ i < count, f i ∈ items)
  {places : List Nat} (perm : places.Perm (List.range count))
  (ordered : places.Pairwise (Precedes fun i j => below (f i) (f j)))

include order elements perm ordered

theorem sorted_of_precedes : (places.map f).Pairwise fun a b => below b a = false := by
  rw [List.pairwise_map]
  refine ordered.imp_of_mem fun {i j} isIn isIn' precedes => ?_
  have isI := elements i (List.mem_range.mp (perm.mem_iff.mp isIn))
  have isJ := elements j (List.mem_range.mp (perm.mem_iff.mp isIn'))
  rcases precedes with isBelow | ⟨notBelow, -⟩
  · cases backwards : below (f j) (f i) with
    | false => rfl
    | true =>
        have loop := order.transitive _ isI _ isJ _ isI isBelow backwards
        exact loop.symm.trans (order.irreflexive _ isI)
  · exact notBelow

theorem stable_of_precedes {v : α} (isV : v ∈ items) :
    (places.map f).filter (alike below v) = ((List.range count).map f).filter (alike below v) := by
  have increasing : (places.filter (alike below v ∘ f)).Pairwise (· < ·) := by
    refine (ordered.filter _).imp_of_mem fun {i j} isIn isIn' precedes => ?_
    obtain ⟨isPlace, alikeI⟩ := List.mem_filter.mp isIn
    obtain ⟨isPlace', alikeJ⟩ := List.mem_filter.mp isIn'
    have isI := elements i (List.mem_range.mp (perm.mem_iff.mp isPlace))
    have isJ := elements j (List.mem_range.mp (perm.mem_iff.mp isPlace'))
    have same := order.alike_transitive _ isI _ isV _ isJ (alike_symm alikeI) alikeJ
    rcases precedes with isBelow | ⟨-, earlier⟩
    · cases isBelow.symm.trans (alike_iff.mp same).1
    · exact earlier
  have same : places.filter (alike below v ∘ f) = (List.range count).filter (alike below v ∘ f) :=
    List.Perm.eq_of_pairwise (fun i j _ _ less less' => absurd less' (Nat.lt_asymm less)) increasing
      (List.pairwise_lt_range.filter _) (perm.filter _)
  rw [List.filter_map, List.filter_map, same]

end Elements

end Stability

/-! ## Asking a function of the program -/

section Asking

variable {less : Nat → Nat → Eval Bool} {count : Nat} {ev : Evaluator} {first m : Machine}

/-- The machines that are left by answers to questions about places below a number, one after
another. -/
inductive Asked (less : Nat → Nat → Eval Bool) (count : Nat) (ev : Evaluator) (first : Machine) :
    Machine → Prop
  | start : Asked less count ev first first
  | answered {m after : Machine} {i j : Nat} {answer : Bool} (asked : Asked less count ev first m)
      (below : i < count) (below' : j < count)
      (answers : (less i j).run ev m = .ok answer after) : Asked less count ev first after

/-- How places are sorted by questions: the first one without an answer is the end; with answers to
all of them there is a result. -/
inductive Sorting (less : Nat → Nat → Eval Bool) (count : Nat) (ev : Evaluator) (first : Machine)
    (P : List Nat → Prop) : EStateM.Result Stop Machine (List Nat) → Prop
  | fails {m after : Machine} {i j : Nat} {stop : Stop} (asked : Asked less count ev first m)
      (below : i < count) (below' : j < count) (fails : (less i j).run ev m = .error stop after) :
      Sorting less count ev first P (.error stop after)
  | returns {after : Machine} {places : List Nat} (asked : Asked less count ev first after)
      (holds : P places) : Sorting less count ev first P (.ok places after)

variable {P Q : List Nat → Prop}

theorem Sorting.bind {x : Eval (List Nat)} {f : List Nat → Eval (List Nat)}
    (start : Sorting less count ev first P (x.run ev m))
    (goesOn : ∀ places m, Asked less count ev first m → P places →
      Sorting less count ev first Q ((f places).run ev m)) :
    Sorting less count ev first Q ((x >>= f).run ev m) := by
  rw [Eval.bind_run]
  generalize x.run ev m = result at start
  cases start with
  | fails asked below below' fails => exact .fails asked below below' fails
  | returns asked holds => exact goesOn _ _ asked holds

theorem Sorting.imp {result : EStateM.Result Stop Machine (List Nat)}
    (sorting : Sorting less count ev first P result) (then_ : ∀ places, P places → Q places) :
    Sorting less count ev first Q result := by
  cases sorting with
  | fails asked below below' fails => exact .fails asked below below' fails
  | returns asked holds => exact .returns asked (then_ _ holds)

variable {allowed : Nat → Nat → Bool → Prop}
  (answers : ∀ {m after i j answer}, Asked less count ev first m → i < count → j < count →
    (less i j).run ev m = .ok answer after → allowed i j answer)

include answers

theorem sorting_mergePlaces (done left right : List Nat) (inLeft : ∀ i ∈ left, i < count)
    (inRight : ∀ j ∈ right, j < count) (asked : Asked less count ev first m) :
    Sorting less count ev first
      (fun places => ∃ merged, Merges allowed left right merged ∧ places = done.reverse ++ merged)
      ((mergePlaces less done left right).run ev m) := by
  induction done, left, right using mergePlaces.induct generalizing m with
  | case1 done right =>
      rw [mergePlaces]
      exact .returns asked ⟨right, .leftDone right, rfl⟩
  | case2 done left notNil =>
      rw [mergePlaces]
      · exact .returns asked ⟨left, .rightDone left, rfl⟩
      · exact notNil
  | case3 done i left j right right_ left_ =>
      have belowI := inLeft i List.mem_cons_self
      have belowJ := inRight j List.mem_cons_self
      rw [mergePlaces, Eval.bind_run]
      cases ran : (less j i).run ev m with
      | error stop after => exact .fails asked belowJ belowI ran
      | ok answer after =>
          have isAllowed := answers asked belowJ belowI ran
          have goesOn := asked.answered belowJ belowI ran
          cases answer with
          | true =>
              refine (right_ inLeft (fun k isIn => inRight k (List.mem_cons_of_mem _ isIn))
                goesOn).imp ?_
              rintro places ⟨merged, merges, rfl⟩
              exact ⟨j :: merged, .right isAllowed merges, by simp⟩
          | false =>
              refine (left_ (fun k isIn => inLeft k (List.mem_cons_of_mem _ isIn)) inRight
                goesOn).imp ?_
              rintro places ⟨merged, merges, rfl⟩
              exact ⟨i :: merged, .left isAllowed merges, by simp⟩

theorem sorting_sortPlacesWithin (depth : Nat) (places : List Nat)
    (enough : places.length ≤ depth) (within : ∀ i ∈ places, i < count)
    (asked : Asked less count ev first m) :
    Sorting less count ev first (MergeSorts allowed places)
      ((sortPlacesWithin less depth places).run ev m) := by
  induction depth generalizing places m with
  | zero => exact .returns asked (.short (by omega))
  | succ depth ih =>
      rw [sortPlacesWithin]
      split
      · rename_i short
        exact .returns asked (.short short)
      · rename_i long
        have inLeft := fun i isIn => within i (List.mem_of_mem_take (i := places.length / 2) isIn)
        have inRight := fun i isIn => within i (List.mem_of_mem_drop (i := places.length / 2) isIn)
        refine (ih (places.take (places.length / 2)) (by rw [List.length_take]; omega) inLeft
          asked).bind fun left m asked sortsLeft => ?_
        refine (ih (places.drop (places.length / 2)) (by rw [List.length_drop]; omega) inRight
          asked).bind fun right m asked sortsRight => ?_
        refine (sorting_mergePlaces answers [] left right
          (fun i isIn => inLeft i (sortsLeft.perm.mem_iff.mp isIn))
          (fun j isIn => inRight j (sortsRight.perm.mem_iff.mp isIn)) asked).imp ?_
        rintro sorted ⟨merged, merges, rfl⟩
        have sorts := MergeSorts.parts sortsLeft sortsRight merges
        rwa [List.take_append_drop] at sorts

theorem sorting_sortPlaces (asked : Asked less count ev first m) :
    Sorting less count ev first (MergeSorts allowed (List.range count))
      ((sortPlaces less (List.range count)).run ev m) :=
  sorting_sortPlacesWithin answers _ _ (Nat.le_refl _) (fun _ => List.mem_range.mp) asked

end Asking

/-! ## Moving the elements -/

section Elements

variable {s : Store} {view : SliceView}

theorem size_backings_setElement (i : Nat) (v : Value) :
    (s.setElement view i v).backings.size = s.backings.size := by
  unfold Store.setElement
  split
  · exact Array.size_modify
  · rfl

theorem element_writeElements (stored : view.backing.index < s.backings.size) (place : Nat)
    (values : List Value) (within : place + values.length ≤ view.length) (k : Nat) :
    (writeElements view place values s).element view k =
      if place ≤ k ∧ k < place + values.length then values[k - place]?.getD .nil
      else s.element view k := by
  induction values generalizing place s with
  | nil => rw [writeElements, if_neg (by simp)]
  | cons v rest ih =>
      rw [List.length_cons] at within
      rw [writeElements, ih (by rwa [size_backings_setElement]) (place + 1) (by omega),
        Store.element_setElement stored (by omega), List.length_cons]
      by_cases behind : place + 1 ≤ k ∧ k < place + 1 + rest.length
      · rw [if_pos behind, if_pos (by omega), show k - place = k - (place + 1) + 1 by omega,
          List.getElem?_cons_succ]
      · rw [if_neg behind]
        by_cases here : k = place
        · rw [if_pos here, if_pos (by omega), here, Nat.sub_self, List.getElem?_cons_zero]
          rfl
        · rw [if_neg here, if_neg (by omega)]

/-- A slice whose backing array is not in the store has no other elements than nil, and keeps
them. -/
theorem elements_unstored (unstored : s.backings.size ≤ view.backing.index) (place : Nat)
    (values : List Value) :
    (writeElements view place values s).elements view = List.replicate view.length .nil := by
  have nils {s : Store} (unstored : s.backings.size ≤ view.backing.index) :
      s.elements view = List.replicate view.length .nil := by
    rw [Store.elements_eq_map, List.eq_replicate_iff]
    refine ⟨by simp, fun v isIn => ?_⟩
    obtain ⟨i, -, rfl⟩ := List.mem_map.mp isIn
    rw [Store.element, Store.backing, Array.getElem?_eq_none unstored]
    rfl
  induction values generalizing place s with
  | nil => exact nils unstored
  | cons v rest ih =>
      rw [writeElements]
      exact ih (by rwa [size_backings_setElement]) (place + 1)

/-- Moving the elements of a slice to the places of a list leaves them in the order of the list. -/
theorem elements_writeElements {places : List Nat} (all : places.Perm (List.range view.length)) :
    (writeElements view 0 (places.map (s.element view)) s).elements view =
      places.map (s.element view) := by
  have length : (places.map (s.element view)).length = view.length := by
    rw [List.length_map, all.length_eq, List.length_range]
  by_cases stored : view.backing.index < s.backings.size
  · refine Store.elements_eq_of_element _ length.symm fun i within => ?_
    rw [element_writeElements stored 0 _ (by omega) i, if_pos (by omega), Nat.sub_zero,
      List.getElem?_eq_getElem within, Option.getD_some]
  · have unstored := Nat.not_lt.mp stored
    have before : s.elements view = List.replicate view.length .nil :=
      elements_unstored unstored 0 []
    rw [elements_unstored unstored, ← length, eq_comm, List.eq_replicate_iff]
    refine ⟨rfl, fun v isIn => ?_⟩
    have isElement : v ∈ s.elements view := by
      rw [Store.elements_eq_map]
      exact (all.map _).mem_iff.mp isIn
    rw [before] at isElement
    exact List.eq_of_mem_replicate isElement

theorem map_getElem?_elements {places : List Nat} (all : places.Perm (List.range view.length)) :
    (places.map fun place => (s.elements view).toArray[place]?.getD .nil) =
      places.map (s.element view) := by
  refine List.map_congr_left fun place isIn => ?_
  have within : place < view.length := List.mem_range.mp (all.mem_iff.mp isIn)
  rw [List.getElem?_toArray, Store.getElem?_elements within, Option.getD_some]

end Elements

/-! ## Sorting a slice -/

section Slices

variable {view : SliceView} {f : Value} {ev : Evaluator} {first m after : Machine}

/-- A function of the program that compares two places of a slice by the elements that were there at
first, and keeps them there. -/
structure ComparesBy (below : Value → Value → Bool) (view : SliceView) (f : Value) (ev : Evaluator)
    (first : Machine) : Prop where
  keeps : ∀ {m}, Asked (askLess f) view.length ev first m →
    m.store.elements view = first.store.elements view
  answers : ∀ {m after i j answer}, Asked (askLess f) view.length ev first m → i < view.length →
    j < view.length → (askLess f i j).run ev m = .ok answer after →
    answer = below (first.store.element view i) (first.store.element view j)

/-- What a slice is left as, behind the last comparison. -/
structure LeftSorted (view : SliceView) (f : Value) (ev : Evaluator) (first m after : Machine) :
    Prop where
  asked : Asked (askLess f) view.length ev first m
  /-- Nothing is done behind the last comparison but that elements of the slice are written. -/
  written : ∃ values, after = { m with store := writeElements view 0 values m.store }
  perm : (after.store.elements view).Perm (m.store.elements view)
  sorted : ∀ below, ComparesBy below view f ev first →
    WeaklyOrders below (first.store.elements view) →
    (after.store.elements view).Pairwise fun a b => below b a = false
  stable : ∀ below, ComparesBy below view f ev first →
    WeaklyOrders below (first.store.elements view) → ∀ v ∈ first.store.elements view,
    (after.store.elements view).filter (alike below v) =
      (first.store.elements view).filter (alike below v)

/-- How sorting a slice by a function of the program ends: as the first comparison that fails, or
with a sorted slice. -/
inductive SliceSorting (view : SliceView) (f : Value) (ev : Evaluator) (first : Machine) :
    EStateM.Result Stop Machine Value → Prop
  | fails {m after : Machine} {i j : Nat} {stop : Stop}
      (asked : Asked (askLess f) view.length ev first m) (below : i < view.length)
      (below' : j < view.length) (fails : (askLess f i j).run ev m = .error stop after) :
      SliceSorting view f ev first (.error stop after)
  | sorts {m after : Machine} (left : LeftSorted view f ev first m after) :
      SliceSorting view f ev first (.ok .nil after)

theorem ordered_of_compares {below : Value → Value → Bool} {places : List Nat}
    (compares : ComparesBy below view f ev first)
    (order : WeaklyOrders below (first.store.elements view))
    (ran : (sortPlaces (askLess f) (List.range view.length)).run ev first = .ok places m) :
    places.Pairwise
      (Precedes fun i j => below (first.store.element view i) (first.store.element view j)) := by
  have sorting := sorting_sortPlaces compares.answers .start
  rw [ran] at sorting
  cases sorting with
  | returns _ sorts =>
      have elements : ∀ i ∈ List.range view.length,
          first.store.element view i ∈ first.store.elements view :=
        fun i isIn => List.mem_map_of_mem isIn
      exact sorts.stable (order.places elements) (fun _ isIn => isIn) List.pairwise_lt_range

theorem leftSorted_of_sorting {places : List Nat}
    (ran : (sortPlaces (askLess f) (List.range view.length)).run ev first = .ok places m)
    (asked : Asked (askLess f) view.length ev first m)
    (perm : places.Perm (List.range view.length)) :
    LeftSorted view f ev first m
      { m with store := writeElements view 0 (places.map (m.store.element view)) m.store } := by
  have contents : (writeElements view 0 (places.map (m.store.element view)) m.store).elements view =
      places.map (m.store.element view) := elements_writeElements perm
  have elements : ∀ i < view.length, first.store.element view i ∈ first.store.elements view :=
    fun i within => List.mem_map_of_mem (List.mem_range.mpr within)
  have kept (below : Value → Value → Bool) (compares : ComparesBy below view f ev first) :
      places.map (m.store.element view) = places.map (first.store.element view) := by
    rw [← map_getElem?_elements perm, ← map_getElem?_elements perm, compares.keeps asked]
  refine ⟨asked, ⟨_, rfl⟩, ?_, fun below compares order => ?_, fun below compares order v isV => ?_⟩
  · rw [contents]
    exact perm.map _
  · rw [contents, kept below compares]
    exact sorted_of_precedes order elements perm (ordered_of_compares compares order ran)
  · rw [contents, kept below compares, Store.elements_eq_map]
    exact stable_of_precedes order elements perm (ordered_of_compares compares order ran) isV

/-! ### Sorting -/

/-- Sorting a slice by any function of the program ends as the first comparison that fails, or loses
no element; by a weak order of the elements it is a stable sorting. -/
theorem slice_sorted_stably (view : SliceView) (f : Value) (ev : Evaluator) (m : Machine) :
    SliceSorting view f ev m (((Function.sort .slice).call [.slice view, f]).run ev m) := by
  have sorting : Sorting (askLess f) view.length ev m
      (MergeSorts (fun _ _ _ => True) (List.range view.length))
      ((sortPlaces (askLess f) (List.range view.length)).run ev m) :=
    sorting_sortPlaces (fun _ _ _ _ => trivial) .start
  have called : ((Function.sort .slice).call [.slice view, f]).run ev m =
      (sortSlice view f >>= fun _ => pure .nil).run ev m := rfl
  rw [called, Eval.bind_run, sortSlice, Eval.bind_run]
  cases ran : (sortPlaces (askLess f) (List.range view.length)).run ev m with
  | error stop after =>
      rw [ran] at sorting
      cases sorting with
      | fails asked below below' fails => exact .fails asked below below' fails
  | ok places after =>
      rw [ran] at sorting
      cases sorting with
      | returns asked sorts =>
          have left := leftSorted_of_sorting ran asked sorts.perm
          rw [← map_getElem?_elements sorts.perm] at left
          exact .sorts left

/-! ### A function that compares tens -/

section Tens

open Eval Source

variable {g : Guest} {s : Store} {i j : Int64} {depth : Nat}

/-- The tens of a number. -/
def tens : Value → Int
  | .int n => n.toInt / 10
  | _ => 0

/-- Three numbers by their places; two of them have the same tens. -/
def numberAt : Nat → Int64
  | 0 => 21
  | 1 => 10
  | _ => 20

/-- A slice of the numbers. -/
def threeNumbers : SliceView := ⟨⟨0⟩, 0, 3, 3, false, false⟩

/-- The numbers, with a variable for the slice. -/
def numbersStore : Store where
  cells := #[.slice threeNumbers]
  scopes := #[{ declared := [("s", ⟨⟨0⟩, none⟩)] }]
  backings := #[#[.int (numberAt 0), .int (numberAt 1), .int (numberAt 2)]]

def tensAt (name : String) : Expr := .binary .div (.index (.name "s") (.name name)) (.int 10)

/-- `func(i, j int) bool { return s[i]/10 < s[j]/10 }`. -/
def smallerTens : FuncLit :=
  .mk [⟨some "i", .named "int"⟩, ⟨some "j", .named "int"⟩] [⟨none, .named "bool"⟩] false
    [.mk 1 (.return [.binary .lt (tensAt "i") (tensAt "j")])]

/-- A world in which the name `s` stands for the slice. -/
structure HoldsNumbers (g : Guest) : Prop where
  inside : 0 < g.store.scopes.size
  declared : g.store.resolve? globalScope "s" = some ⟨⟨0⟩, none⟩
  stored : 0 < g.store.cells.size
  value : g.store.cell ⟨0⟩ = .slice threeNumbers
  backings : g.store.backings = numbersStore.backings
  types : g.types = (Machine.initial {}).types

theorem HoldsNumbers.element (holds : HoldsNumbers g) {k : Nat} (within : k < 3) :
    g.store.element threeNumbers k = .int (numberAt k) := by
  rw [Store.element, Store.backing, holds.backings]
  match k, within with
  | 0, _ => rfl
  | 1, _ => rfl
  | 2, _ => rfl

/-! The scope of a call has the two parameters; around it the slice is found as before. -/

/-- The store with the parameters of a call. -/
def openedStore (s : Store) (i j : Int64) : Store :=
  let scope : ScopeId := ⟨s.scopes.size⟩
  ((s.newScope (some globalScope)).2.define scope "i" (.int i) none).define scope "j" (.int j) none

theorem declaredIn_openedStore (s : Store) (i j : Int64) :
    Store.DeclaredIn ⟨s.scopes.size⟩ (s.newScope (some globalScope)).2 (openedStore s i j) :=
  .trans (.define _ _ _ _ _) (.define _ _ _ _ _)

theorem scope_openedStore : (openedStore s i j).scopes[s.scopes.size]? = some
    { declared := [("i", ⟨⟨s.cells.size⟩, none⟩), ("j", ⟨⟨s.cells.size + 1⟩, none⟩)]
      parent := some globalScope } := by
  have named : "i" ≠ "_" := by decide
  have named' : "j" ≠ "_" := by decide
  simp only [openedStore, Store.define_named named, Store.define_named named', Store.newScope,
    Array.getElem?_modify, if_true, Array.getElem?_push, Array.size_push]
  rfl

theorem cells_openedStore :
    (openedStore s i j).cells = (s.cells.push (.int i)).push (.int j) := by
  have named : "i" ≠ "_" := by decide
  have named' : "j" ≠ "_" := by decide
  rw [openedStore, Store.cells_define named', Store.newCell, Store.cells_define named]
  rfl

theorem resolve?_i :
    (openedStore s i j).resolve? ⟨s.scopes.size⟩ "i" = some ⟨⟨s.cells.size⟩, none⟩ := by
  refine Store.resolve?_of_local ?_
  rw [Store.localVariable?, scope_openedStore]
  rfl

theorem cell_i : (openedStore s i j).cell ⟨s.cells.size⟩ = .int i := by
  have before : s.cells.size ≠ (s.cells.push (.int i)).size := by simp
  rw [Store.cell, cells_openedStore, Array.getElem?_push, if_neg before, Array.getElem?_push,
    if_pos rfl]
  rfl

theorem resolve?_j :
    (openedStore s i j).resolve? ⟨s.scopes.size⟩ "j" = some ⟨⟨s.cells.size + 1⟩, none⟩ := by
  refine Store.resolve?_of_local ?_
  rw [Store.localVariable?, scope_openedStore]
  rfl

theorem cell_j : (openedStore s i j).cell ⟨s.cells.size + 1⟩ = .int j := by
  rw [Store.cell, cells_openedStore, Array.getElem?_push, if_pos (by simp)]
  rfl

namespace HoldsNumbers

theorem opened (holds : HoldsNumbers g) (i j : Int64) (line : Nat) :
    HoldsNumbers { g with store := openedStore g.store i j, line } where
  inside := by
    have opened := (declaredIn_openedStore g.store i j).rooted (by simp [Store.newScope])
    exact Nat.lt_of_le_of_lt (Nat.zero_le _) opened
  declared := ((declaredIn_openedStore g.store i j).resolve? holds.inside "s").trans
    ((Store.resolve?_newScope _ holds.inside "s").trans holds.declared)
  stored := Nat.lt_of_lt_of_le holds.stored (declaredIn_openedStore g.store i j).size
  value := ((declaredIn_openedStore g.store i j).cells _ holds.stored).trans holds.value
  backings := holds.backings
  types := holds.types

theorem resolve?_s (holds : HoldsNumbers g) :
    (openedStore g.store i j).resolve? ⟨g.store.scopes.size⟩ "s" = some ⟨⟨0⟩, none⟩ := by
  have around : ((openedStore g.store i j).scopes[g.store.scopes.size]?).map (·.parent) =
      some (some globalScope) := by
    rw [scope_openedStore]
    rfl
  have undeclared : (openedStore g.store i j).localVariable? ⟨g.store.scopes.size⟩ "s" = none := by
    rw [Store.localVariable?, scope_openedStore]
    rfl
  rw [Store.resolve?_around undeclared around holds.inside]
  exact (holds.opened i j 0).declared

end HoldsNumbers

theorem bindNumber_leads {g' : Guest} {scope : ScopeId} {name : String} {n : Int64}
    {params : List Param} {rest : List Value} (basic : g.types = (Machine.initial {}).types)
    (others : (bindEach scope params rest).Leads ev
      { g with store := g.store.define scope name (.int n) none } (.ok ()) g') :
    (bindEach scope (⟨some name, .named "int"⟩ :: params) (.int n :: rest)).Leads ev g (.ok ())
      g' := by
  have adapted : (adapt (.named "int") (.int n)).Leads ev g (.ok (.int n)) g := by
    have same : g.types.adapt (.named "int") (.int n) = .int n := by
      rw [basic]
      rfl
    exact view_leads_eq same
  have wide : (view (·.types.width? (.named "int"))).Leads ev g (.ok none) g := by
    have same : g.types.width? (.named "int") = none := by
      rw [basic]
      rfl
    exact view_leads_eq same
  have stated : bindEach scope (⟨some name, .named "int"⟩ :: params) (.int n :: rest) = (do
      let v ← adapt (.named "int") (.int n)
      define scope name v (← view (·.types.width? (.named "int")))
      bindEach scope params rest) := rfl
  rw [stated]
  exact bind_leads adapted (bind_leads wide (bind_leads (changeStore_leads _) others))

theorem openScope_leads (holds : HoldsNumbers g) :
    (openScope smallerTens globalScope none [.int i, .int j] false).Leads ev g
      (.ok ⟨g.store.scopes.size⟩) { g with store := openedStore g.store i j } := by
  have bound : (bindEach ⟨g.store.scopes.size⟩ smallerTens.params [.int i, .int j]).Leads ev
      { g with store := (g.store.newScope (some globalScope)).2 } (.ok ())
      { g with store := openedStore g.store i j } :=
    bindNumber_leads holds.types (bindNumber_leads holds.types (pure_leads ()))
  exact bind_leads (onGuest_leads _) (bind_leads (bind_leads (pure_leads _) bound) (pure_leads _))

theorem tensAt_leads {scope : ScopeId} {name : String} {x : Variable} {k : Nat}
    (holds : HoldsNumbers g) (slice : g.store.resolve? scope "s" = some ⟨⟨0⟩, none⟩)
    (declared : g.store.resolve? scope name = some x)
    (value : g.store.cell x.cell = .int (.ofNat k)) (within : k < 3) :
    (eval (tensAt name) scope).Leads (.ofDepth (depth + 3)) g (.ok (.int (numberAt k / 10))) g := by
  have fits : (Int64.ofNat k).toInt = k := Int64.toInt_ofNat_of_lt (by omega)
  have nonneg : 0 ≤ Int64.ofNat k := by
    rw [Int64.le_iff_toInt_le, fits]
    exact Int.natCast_nonneg k
  have base : (eval (.name "s") scope).Leads (.ofDepth (depth + 1)) g
      (.ok (.slice threeNumbers)) g := holds.value ▸ name_leads slice
  have key : (eval (.name name) scope).Leads (.ofDepth (depth + 1)) g
      (.ok (.int (.ofNat k))) g := value ▸ name_leads declared
  have read := index_leads base key nonneg (by rw [fits]; exact within)
  rw [fits, Int.toNat_natCast, holds.element within] at read
  refine binary_leads .div (by decide) read (number_leads 10) ?_
  match k, within with
  | 0, _ => exact pure_leads _
  | 1, _ => exact pure_leads _
  | 2, _ => exact pure_leads _

/-- The function tells whether one number has smaller tens than another one, and leaves the numbers
as they are. -/
theorem smallerTens_leads (depth : Nat) (holds : HoldsNumbers g) {i j : Nat} (inside : i < 3)
    (inside' : j < 3) :
    (askLess (.func (.closure "func" smallerTens globalScope)) i j).Leads (.ofDepth (depth + 6)) g
      (.ok (decide (tens (g.store.element threeNumbers i) <
        tens (g.store.element threeNumbers j))))
      { g with store := openedStore g.store (.ofNat i) (.ofNat j), line := 1 } := by
  rw [holds.element inside, holds.element inside']
  let opened : Guest := { g with store := openedStore g.store (.ofNat i) (.ofNat j), line := 1 }
  have holds' : HoldsNumbers opened := holds.opened _ _ 1
  have compared : (binary .lt (.int (numberAt i / 10)) (.int (numberAt j / 10))).Leads
      (.ofDepth (depth + 3)) opened
      (.ok (.bool (decide (tens (.int (numberAt i)) < tens (.int (numberAt j)))))) opened := by
    have each : ∀ i < 3, ∀ j < 3, Operators.comparisonHolds .lt
        (some (compare (numberAt i / 10) (numberAt j / 10))) =
          decide (tens (.int (numberAt i)) < tens (.int (numberAt j))) := by decide
    rw [← each i inside j inside']
    exact pure_leads _
  have returned := binary_leads .lt (by decide)
    (tensAt_leads holds' holds.resolve?_s resolve?_i cell_i inside)
    (tensAt_leads holds' holds.resolve?_s resolve?_j cell_j inside') compared
  have invoked := invoke_leads (openScope_leads holds) (runBody_leads returned)
    (bind_leads (pure_leads _) (view_leads _))
  exact bind_leads (perform_leads invoked) (pure_leads _)

theorem comparesBy_smallerTens {first : Machine} (holds : HoldsNumbers first.toGuest) :
    ComparesBy (fun a b => tens a < tens b) threeNumbers
      (.func (.closure "func" smallerTens globalScope)) (.ofDepth 6) first := by
  have kept {m : Machine}
      (asked : Asked (askLess (.func (.closure "func" smallerTens globalScope))) 3 (.ofDepth 6)
        first m) : HoldsNumbers m.toGuest := by
    induction asked with
    | start => exact holds
    | @answered m after i j answer _ below below' ran ih =>
        have reached := smallerTens_leads 0 ih below below' m rfl
        rw [ran] at reached
        cases reached with
        | ends _ is _ => exact is ▸ ih.opened _ _ 1
  have same {m : Machine} (holds' : HoldsNumbers m.toGuest) :
      m.store.element threeNumbers = first.store.element threeNumbers := by
    funext k
    rw [Store.element, Store.element, Store.backing, Store.backing, holds.backings,
      holds'.backings]
  refine ⟨fun {m} asked => ?_, fun {m after i j answer} asked below below' ran => ?_⟩
  · rw [Store.elements_eq_map, Store.elements_eq_map, same (kept asked)]
  · have reached := smallerTens_leads 0 (kept asked) below below' m rfl
    rw [ran] at reached
    cases reached with
    | ends _ is _ => rw [same (kept asked)]

theorem slice_sorted_stably_tens :
    let smaller : Value := .func (.closure "func" smallerTens globalScope)
    let below (a b : Value) : Bool := tens a < tens b
    let m : Machine := { Machine.initial {} with store := numbersStore }
    ComparesBy below threeNumbers smaller (.ofDepth 6) m ∧
      WeaklyOrders below (m.store.elements threeNumbers) ∧
      SliceSorting threeNumbers smaller (.ofDepth 6) m
        (((Function.sort .slice).call [.slice threeNumbers, smaller]).run (.ofDepth 6) m) := by
  intro smaller below m
  have holds : HoldsNumbers m.toGuest :=
    ⟨by decide, Store.resolve?_of_local rfl, by decide, rfl, rfl, rfl⟩
  exact ⟨comparesBy_smallerTens holds, weaklyOrders_key tens _,
    slice_sorted_stably threeNumbers smaller (.ofDepth 6) m⟩

end Tens

end Slices

end SandboxedGo.Library
