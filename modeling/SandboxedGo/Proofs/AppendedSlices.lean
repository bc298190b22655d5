import SandboxedGo.Store

/-!
# What appending leaves

Slices are windows on backing arrays, and several windows may show the same array.  Appending writes
behind the window while its capacity allows, and makes a backing array otherwise; a window may reach
beyond the values that its array holds, and what is not there yet is nil.  Main statement:
`append_exact`, what the longer slice reads and which elements of other slices may change.
-/

set_option autoImplicit false

namespace SandboxedGo.Store

variable {s s' : Store} {view longer : SliceView} {items : List Value} {limit : Nat}

/-! ## Writing in an array -/

theorem writeAt_getD (array : Array Value) (place i : Nat) (v : Value) :
    (writeAt array place v)[i]?.getD .nil = if i = place then v else array[i]?.getD .nil := by
  unfold writeAt
  by_cases within : place < array.size
  · rw [if_pos within, Array.getElem?_setIfInBounds]
    by_cases here : place = i
    · rw [if_pos here, if_pos within, if_pos here.symm]
      rfl
    · rw [if_neg here, if_neg (Ne.symm here)]
  · rw [if_neg within]
    by_cases here : i = place
    · subst here
      have size : (array ++ Array.replicate (i - array.size) Value.nil).size = i := by
        rw [Array.size_append, Array.size_replicate]
        omega
      rw [if_pos rfl, Array.getElem?_push, if_pos size.symm]
      rfl
    · have size : (array ++ Array.replicate (place - array.size) Value.nil).size ≠ i := by
        rw [Array.size_append, Array.size_replicate]
        omega
      rw [if_neg here, Array.getElem?_push, if_neg (Ne.symm size), Array.getElem?_append]
      by_cases held : i < array.size
      · rw [if_pos held]
      · -- The gap before the place is filled with nil, which is what is read where nothing is.
        rw [if_neg held, Array.getElem?_replicate, Array.getElem?_eq_none (Nat.not_lt.mp held)]
        split
        · rfl
        · rfl

/-- Writing a list of values changes the places from the first one on, and no others. -/
theorem writeFrom_getD (array : Array Value) (place i : Nat) (values : List Value) :
    (writeFrom array place values)[i]?.getD .nil =
      if place ≤ i ∧ i < place + values.length then values[i - place]?.getD .nil
      else array[i]?.getD .nil := by
  induction values generalizing array place with
  | nil =>
      have outside : ¬ (place ≤ i ∧ i < place + ([] : List Value).length) := by
        rw [List.length_nil]
        omega
      rw [writeFrom, if_neg outside]
  | cons v rest ih =>
      rw [writeFrom, ih, writeAt_getD, List.length_cons]
      by_cases behind : place + 1 ≤ i ∧ i < place + 1 + rest.length
      · rw [if_pos behind, if_pos (by omega), show i - place = i - (place + 1) + 1 by omega,
          List.getElem?_cons_succ]
      · rw [if_neg behind]
        by_cases here : i = place
        · rw [if_pos here, if_pos (by omega), here, Nat.sub_self, List.getElem?_cons_zero]
          rfl
        · rw [if_neg here, if_neg (by omega)]

/-! ## Backing arrays -/

theorem backing_modify {b : BackingId} (stored : b.index < s.backings.size)
    (f : Array Value → Array Value) (other : BackingId) :
    backing { s with backings := s.backings.modify b.index f } other =
      if other = b then f (s.backing b) else s.backing other := by
  unfold backing
  rw [Array.getElem?_modify]
  by_cases same : other = b
  · subst same
    rw [if_pos rfl, if_pos rfl, Array.getElem?_eq_getElem stored]
    rfl
  · have apart : b.index ≠ other.index :=
      fun index => same (by cases b; cases other; cases index; rfl)
    rw [if_neg apart, if_neg same]

theorem backing_newBacking (array : Array Value) (s : Store) :
    (s.newBacking array).2.backing (s.newBacking array).1 = array := by
  unfold backing newBacking
  simp

theorem backing_newBacking_of_lt (array : Array Value) {b : BackingId}
    (stored : b.index < s.backings.size) : (s.newBacking array).2.backing b = s.backing b := by
  unfold backing newBacking
  rw [Array.getElem?_push_lt stored, Array.getElem?_eq_getElem stored]

theorem elements_eq_map (s : Store) (view : SliceView) :
    s.elements view = (List.range view.length).map (s.element view) := rfl

theorem length_elements (s : Store) (view : SliceView) :
    (s.elements view).length = view.length := by
  rw [elements_eq_map, List.length_map, List.length_range]

theorem getElem?_elements {i : Nat} (within : i < view.length) :
    (s.elements view)[i]? = some (s.element view i) := by
  rw [elements_eq_map, List.getElem?_map, List.getElem?_range within]
  rfl

theorem elements_congr (same : ∀ i < view.length, s'.element view i = s.element view i) :
    s'.elements view = s.elements view := by
  rw [elements_eq_map, elements_eq_map]
  exact List.map_congr_left fun i within => same i (List.mem_range.mp within)

theorem elements_eq_of_element (values : List Value) (length : view.length = values.length)
    (each : ∀ i < values.length, values[i]? = some (s.element view i)) :
    s.elements view = values := by
  refine List.ext_getElem? fun i => ?_
  by_cases within : i < values.length
  · rw [each i within, getElem?_elements (length ▸ within)]
  · rw [List.getElem?_eq_none (Nat.not_lt.mp within), List.getElem?_eq_none]
    rw [length_elements, length]
    exact Nat.not_lt.mp within

/-! ## Writing an element -/

theorem element_setElement (stored : view.backing.index < s.backings.size) {i : Nat}
    (within : i < view.length) (v : Value) (k : Nat) :
    (s.setElement view i v).element view k = if k = i then v else s.element view k := by
  unfold setElement element
  rw [if_pos within, backing_modify stored, if_pos rfl, writeAt_getD]
  simp only [Nat.add_left_cancel_iff]

theorem element_setElement_self (stored : view.backing.index < s.backings.size) {i : Nat}
    (within : i < view.length) (v : Value) : (s.setElement view i v).element view i = v := by
  rw [element_setElement stored within, if_pos rfl]

/-! ## Appending -/

/-- Whether the items that are appended to a slice go behind it in place. -/
def appendsInPlace (view : SliceView) (count : Nat) : Bool :=
  view.length + count ≤ view.capacity && !view.isArray

theorem append_inPlace (inPlace : appendsInPlace view items.length = true)
    (fits : view.length + items.length ≤ limit) : s.append view items limit =
      (some { view with
        length := view.length + items.length
        isNil := view.isNil && view.length + items.length = 0 },
        { s with
          backings := s.backings.modify view.backing.index
            (writeFrom · (view.start + view.length) items) }) := by
  unfold append
  unfold appendsInPlace at inPlace
  dsimp only
  rw [if_neg (Nat.not_lt.mpr fits), if_pos inPlace]

theorem append_grown (grows : appendsInPlace view items.length = false)
    (fits : view.length + items.length ≤ limit) : s.append view items limit =
      (some ⟨⟨s.backings.size⟩, 0, view.length + items.length,
          grownCapacity (view.length + items.length) view.capacity limit, false, false⟩,
        (s.newBacking ((s.elements view).toArray ++ items.toArray)).2) := by
  unfold append
  unfold appendsInPlace at grows
  dsimp only
  rw [if_neg (Nat.not_lt.mpr fits), if_neg (by rw [grows]; exact Bool.false_ne_true)]
  rfl

theorem append_tooLong (tooLong : limit < view.length + items.length) :
    s.append view items limit = (none, s) := by
  unfold append
  dsimp only
  rw [if_pos tooLong]

/-- What appending values to a slice leaves: the longer slice and the store. -/
structure Appended (s : Store) (view : SliceView) (items : List Value) (limit : Nat)
    (longer : SliceView) (s' : Store) : Prop where
  contents : s'.elements longer = s.elements view ++ items
  length : longer.length = view.length + items.length
  room : longer.length ≤ longer.capacity
  bounded : longer.capacity ≤ max view.capacity limit
  stored : longer.backing.index < s'.backings.size
  original : s'.elements view = s.elements view
  /-- An element of another slice changes only where the capacity of this one was used. -/
  others {other : SliceView} {i : Nat} (held : other.backing.index < s.backings.size)
    (changed : s'.element other i ≠ s.element other i) :
    other.backing = view.backing ∧ view.start + view.length ≤ other.start + i ∧
      other.start + i < view.start + view.length + items.length ∧
      view.length + items.length ≤ view.capacity ∧ view.isArray = false
  /-- Nothing but backing arrays is touched. -/
  elsewhere : s' = { s with backings := s'.backings }

/-- What a slice reads after values were written in the array that it shows. -/
theorem element_writeFrom (stored : view.backing.index < s.backings.size) (place : Nat)
    (values : List Value) (other : SliceView) (i : Nat) :
    element { s with backings := s.backings.modify view.backing.index (writeFrom · place values) }
        other i =
      if other.backing = view.backing ∧ place ≤ other.start + i ∧
          other.start + i < place + values.length then
        values[other.start + i - place]?.getD .nil
      else s.element other i := by
  unfold element
  rw [backing_modify stored]
  by_cases same : other.backing = view.backing
  · rw [if_pos same, writeFrom_getD, same]
    simp only [true_and]
  · rw [if_neg same, if_neg fun window => same window.1]

/-- In place: the values are written behind the window. -/
theorem appended_inPlace (stored : view.backing.index < s.backings.size)
    (inPlace : appendsInPlace view items.length = true)
    (allowed : view.length + items.length ≤ limit) :
    ∃ longer s', s.append view items limit = (some longer, s') ∧
      Appended s view items limit longer s' := by
  obtain ⟨fits, slice⟩ : view.length + items.length ≤ view.capacity ∧ view.isArray = false := by
    simpa [appendsInPlace] using inPlace
  have reads := element_writeFrom stored (view.start + view.length) items
  refine ⟨_, _, append_inPlace inPlace allowed, ?contents, rfl, fits, Nat.le_max_left _ _, ?stored,
    ?original, ?others, rfl⟩
  case contents =>
    have length := length_elements s view
    refine elements_eq_of_element _ (by rw [List.length_append, length]) fun i within => ?_
    rw [List.length_append, length] at within
    rw [reads]
    dsimp only
    by_cases old : i < view.length
    · rw [if_neg (by omega), List.getElem?_append_left (by omega), getElem?_elements old]
      rfl
    · have added : i - view.length < items.length := by omega
      rw [if_pos ⟨rfl, by omega, by omega⟩, List.getElem?_append_right (by omega), length,
        show view.start + i - (view.start + view.length) = i - view.length by omega,
        List.getElem?_eq_getElem added]
      rfl
  case stored => rwa [Array.size_modify]
  case original =>
    exact elements_congr fun i within => (reads view i).trans (if_neg (by omega))
  case others =>
    intro other i _ changed
    by_cases window : other.backing = view.backing ∧ view.start + view.length ≤ other.start + i ∧
        other.start + i < view.start + view.length + items.length
    · exact ⟨window.1, window.2.1, window.2.2, fits, slice⟩
    · exact absurd ((reads other i).trans (if_neg window)) changed

/-- Elsewhere: the old values and the new ones are the contents of a new backing array. -/
theorem appended_elsewhere (stored : view.backing.index < s.backings.size)
    (grows : appendsInPlace view items.length = false)
    (allowed : view.length + items.length ≤ limit) :
    ∃ longer s', s.append view items limit = (some longer, s') ∧
      Appended s view items limit longer s' := by
  have kept {other : SliceView} (held : other.backing.index < s.backings.size) (i : Nat) :
      element (s.newBacking ((s.elements view).toArray ++ items.toArray)).2 other i =
        s.element other i := by
    unfold element
    rw [backing_newBacking_of_lt _ held]
  refine ⟨_, _, append_grown grows allowed, ?contents, rfl, ?room, ?bounded, ?stored, ?original,
    ?others, rfl⟩
  case contents =>
    have length : (s.elements view ++ items).length = view.length + items.length := by
      rw [List.length_append, length_elements]
    refine elements_eq_of_element _ length.symm fun i within => ?_
    have fresh := backing_newBacking ((s.elements view).toArray ++ items.toArray) s
    unfold element
    rw [show (⟨s.backings.size⟩ : BackingId) =
      (s.newBacking ((s.elements view).toArray ++ items.toArray)).1 from rfl, fresh,
      List.append_toArray, List.getElem?_toArray, Nat.zero_add, List.getElem?_eq_getElem within]
    rfl
  case room =>
    unfold grownCapacity
    dsimp only
    omega
  case bounded =>
    unfold grownCapacity
    dsimp only
    omega
  case stored => exact Nat.lt_of_lt_of_eq (Nat.lt_succ_self _) (Array.size_push _).symm
  case original => exact elements_congr fun i _ => kept stored i
  case others =>
    intro other i held changed
    exact absurd (kept held i) changed

/-- For every store, slice and list of values: over the limit, appending fails and leaves the store
as it is; otherwise the longer slice reads the old elements and the new ones, and nothing else
changes but what other slices show of the capacity behind the old one. -/
theorem append_exact (stored : view.backing.index < s.backings.size) (items : List Value)
    (limit : Nat) :
    (limit < view.length + items.length → s.append view items limit = (none, s)) ∧
      (view.length + items.length ≤ limit →
        ∃ longer s', s.append view items limit = (some longer, s') ∧
          Appended s view items limit longer s') := by
  refine ⟨append_tooLong, fun allowed => ?_⟩
  cases inPlace : appendsInPlace view items.length with
  | true => exact appended_inPlace stored inPlace allowed
  | false => exact appended_elsewhere stored inPlace allowed

/-- One backing array with three elements. -/
def threeElements : Store := { backings := #[#[.int 1, .int 2, .int 3]] }

/-- The first of three elements; there is capacity for the others. -/
def firstElement : SliceView := ⟨⟨0⟩, 0, 1, 3, false, false⟩

/-- The second of three elements is overwritten, and the third one stays. -/
theorem append_exact_inCapacity :
    firstElement.backing.index < threeElements.backings.size ∧
      ∃ longer s', threeElements.append firstElement [.int 9] 8 = (some longer, s') ∧
        Appended threeElements firstElement [.int 9] 8 longer s' :=
  ⟨by decide, (append_exact (by decide) [.int 9] 8).2 (by decide)⟩

end SandboxedGo.Store
