import SandboxedGo.Eval.Methods
import SandboxedGo.Library.Arguments
import SandboxedGo.Eval.Operators

/-!
# Sorting and searching

Slices of numbers and texts are sorted by their own order; other slices by a function of the
program, which compares two places of the slice.  While that function is called the slice keeps its
order: what is sorted are the places.
-/

set_option autoImplicit false

namespace SandboxedGo.Library

/-! ## Orders of elements -/

/-- The order of integers; other values are in no order. -/
def intOrder (a b : Value) : Ordering :=
  match a, b with
  | .int x, .int y => compare x y
  | _, _ => .eq

/-- The order of texts; other values are in no order. -/
def textOrder (a b : Value) : Ordering :=
  match a, b with
  | .string x, .string y => compare x y
  | _, _ => .eq

/-- A value as a float; what is no number is not a number. -/
def floatOf (v : Value) : Float :=
  match v with
  | .int n => n.toFloat
  | .float f => f
  | _ => 0 / 0

/-- The order of floats; those that are no numbers come first. -/
def floatOrder (a b : Value) : Ordering :=
  let x := floatOf a
  let y := floatOf b
  match x.isNaN, y.isNaN with
  | true, true => .eq
  | true, false => .lt
  | false, true => .gt
  | false, false => (Operators.floatOrder x y).getD .eq

/-- Insert a value into sorted elements, which are in reverse, behind all that are not greater. -/
def insertBehind (order : Value → Value → Ordering) (v : Value) : List Value → List Value
  | [] => [v]
  | last :: before =>
    if order v last == .lt then last :: insertBehind order v before else v :: last :: before

def insertionSorted (order : Value → Value → Ordering) (items : List Value) : List Value :=
  (items.foldl (fun sorted v => insertBehind order v sorted) []).reverse

/-- How many elements are still sorted by insertion. -/
def insertionLimit : Nat := 20

/-- Elements in an order; equal ones stay in theirs.  Few elements are sorted by insertion, which
leaves values that are in no order where they are. -/
def sortedBy (order : Value → Value → Ordering) (items : List Value) : List Value :=
  if items.length ≤ insertionLimit then insertionSorted order items
  else items.mergeSort fun a b => order a b != .gt

/-- Whether no element is followed by a smaller one. -/
def isSortedBy (order : Value → Value → Ordering) : List Value → Bool
  | a :: b :: rest => order a b != .gt && isSortedBy order (b :: rest)
  | _ => true

/-- The first place from which on no element is smaller than the target, if the elements are in
order; found by halving the range from `low` up to `high`. -/
def lowerBound (isLess : Value → Bool) (items : Array Value) (low high : Nat) : Nat :=
  if low < high then
    let middle := low + (high - low) / 2
    if isLess (items[middle]?.getD .nil) then lowerBound isLess items (middle + 1) high
    else lowerBound isLess items low middle
  else low
termination_by high - low

/-! ## Sorting places by a function of the program -/

/-- Merge two sorted lists of places behind `done`, which is in reverse; a place of the right list
goes first only if it is smaller. -/
def mergePlaces (less : Nat → Nat → Eval Bool) (done : List Nat) :
    List Nat → List Nat → Eval (List Nat)
  | [], right => pure (done.reverse ++ right)
  | left, [] => pure (done.reverse ++ left)
  | i :: left, j :: right => do
    if ← less j i then mergePlaces less (j :: done) (i :: left) right
    else mergePlaces less (i :: done) left (j :: right)
termination_by left right => left.length + right.length

/-- Sort places by halving the list of them, at most `depth` times. -/
def sortPlacesWithin (less : Nat → Nat → Eval Bool) : Nat → List Nat → Eval (List Nat)
  | 0, places => pure places
  | depth + 1, places =>
    if places.length < 2 then pure places
    else do
      let half := places.length / 2
      let left ← sortPlacesWithin less depth (places.take half)
      let right ← sortPlacesWithin less depth (places.drop half)
      mergePlaces less [] left right

/-- Sort places; equal ones stay in their order. -/
def sortPlaces (less : Nat → Nat → Eval Bool) (places : List Nat) : Eval (List Nat) :=
  sortPlacesWithin less places.length places

def askLess (f : Value) (i j : Nat) : Eval Bool := do
  Eval.asBool (← Eval.callFunction f [countValue i, countValue j])

/-- Write elements of a slice one after another, from a place on. -/
def writeElements (view : SliceView) (place : Nat) : List Value → Store → Store
  | [], s => s
  | v :: rest, s => writeElements view (place + 1) rest (s.setElement view place v)

def sortSlice (view : SliceView) (f : Value) : Eval Unit := do
  let places ← sortPlaces (askLess f) (List.range view.length)
  let items := (← Eval.elements view).toArray
  Eval.changeStore (writeElements view 0 (places.map fun place => items[place]?.getD .nil))

/-- Whether a function of the program holds of no place below `place` and the place before it,
asked from the end. -/
def noneSmaller (f : Value) : Nat → Eval Bool
  | 0 => pure true
  | place + 1 => do
    if ← askLess f (place + 1) place then return false
    noneSmaller f place

/-! ## Sorting by methods -/

def sinkDown (data : Value) : Nat → Eval Unit
  | 0 => pure ()
  | j + 1 => do
    let pair := [countValue (j + 1), countValue j]
    if ← Eval.asBool (← Eval.callMethod data "Less" pair false) then
      let _ ← Eval.callMethod data "Swap" pair false
      sinkDown data j

/-- Insert the elements from a place on into those before it. -/
def insertFrom (data : Value) (place : Nat) : (left : Nat) → Eval Unit
  | 0 => pure ()
  | left + 1 => do
    sinkDown data place
    insertFrom data (place + 1) left

/-- Sort a value that has the methods `Len`, `Less` and `Swap`. -/
def sortByMethods (data : Value) : Eval Unit := do
  let length ← Eval.asInt (← Eval.callMethod data "Len" [] false)
  insertFrom data 1 (length.toInt.toNat - 1)

/-! ## Searching -/

/-- The place in the middle of the range from `low` up to `high`. -/
def midpoint (low high : Int64) : Int64 := low + (high - low) / 2

section Range

variable {low high : Int64} (nonneg : 0 ≤ low) (less : low < high)

include nonneg less

/-- The distance of the ends of a range fits into 64 bits if the range does not begin below zero. -/
theorem toInt_distance : (high - low).toInt = high.toInt - low.toInt := by
  rw [Int64.le_iff_toInt_le] at nonneg
  rw [Int64.lt_iff_toInt_lt] at less
  have below := Int64.toInt_lt high
  have zero : (0 : Int64).toInt = 0 := rfl
  rw [Int64.toInt_sub, Int.bmod_eq_of_le] <;> omega

theorem toInt_midpoint : (midpoint low high).toInt = low.toInt + (high.toInt - low.toInt) / 2 := by
  have distance := toInt_distance nonneg less
  rw [Int64.le_iff_toInt_le] at nonneg
  rw [Int64.lt_iff_toInt_lt] at less
  have below := Int64.toInt_lt high
  have zero : (0 : Int64).toInt = 0 := rfl
  have two : (2 : Int64).toInt = 2 := rfl
  have half : ((high - low) / 2).toInt = (high.toInt - low.toInt) / 2 := by
    rw [Int64.toInt_div_of_ne_right _ _ (by decide), distance, two,
      Int.tdiv_eq_ediv_of_nonneg (by omega)]
  rw [midpoint, Int64.toInt_add, half, Int.bmod_eq_of_le] <;> omega

theorem midpoint_inside : low ≤ midpoint low high ∧ midpoint low high < high := by
  rw [Int64.le_iff_toInt_le, Int64.lt_iff_toInt_lt, toInt_midpoint nonneg less]
  rw [Int64.lt_iff_toInt_lt] at less
  omega

theorem toInt_midpoint_succ : (midpoint low high + 1).toInt = (midpoint low high).toInt + 1 := by
  have inside := (midpoint_inside nonneg less).2
  rw [Int64.lt_iff_toInt_lt] at inside
  have above := Int64.le_toInt (midpoint low high)
  have below := Int64.toInt_lt high
  have one : (1 : Int64).toInt = 1 := rfl
  rw [Int64.toInt_add, one, Int.bmod_eq_of_le] <;> omega

theorem nonneg_midpoint_succ : 0 ≤ midpoint low high + 1 := by
  have inside := (midpoint_inside nonneg less).1
  rw [Int64.le_iff_toInt_le, toInt_midpoint_succ nonneg less]
  rw [Int64.le_iff_toInt_le] at nonneg inside
  omega

end Range

/-- The place found by halving the range from `low` up to `high`: it goes on below a place where
the predicate holds, and above one where it does not. -/
def searchPlace (holds : Int64 → Eval Bool) (low high : Int64) (nonneg : 0 ≤ low) : Eval Int64 :=
  if less : low < high then do
    if ← holds (midpoint low high) then searchPlace holds low (midpoint low high) nonneg
    else searchPlace holds (midpoint low high + 1) high (nonneg_midpoint_succ nonneg less)
  else pure low
termination_by (high.toInt - low.toInt).toNat
decreasing_by
  all_goals
    obtain ⟨above, below⟩ := midpoint_inside nonneg less
    have next := toInt_midpoint_succ nonneg less
    rw [Int64.lt_iff_toInt_lt] at less below
    rw [Int64.le_iff_toInt_le] at above
    omega

def askPlace (f : Value) (place : Int64) : Eval Bool := do
  Eval.asBool (← Eval.callFunction f [.int place])

namespace SortFunction

/-- The slice at the front of the arguments; none for nil. -/
def slice? (f : Function) (arguments : List Value) : Eval (Option SliceView) := do
  match ← argument f arguments 0 with
  | .slice view => return some view
  | .nil => return none
  | other => Eval.error (.libraryArgument (← Eval.typeName other) "slice" f.label)

def items (f : Function) (arguments : List Value) : Eval (List Value) := do
  match ← slice? f arguments with
  | some view => Eval.elements view
  | none => return []

def sortInPlace (f : Function) (order : Value → Value → Ordering) (arguments : List Value) :
    Eval Value := do
  checkCount f arguments 1
  match ← slice? f arguments with
  | none => return .nil
  | some view =>
    let items ← Eval.elements view
    Eval.changeStore (writeElements view 0 (sortedBy order items))
    return .nil

def testSorted (f : Function) (order : Value → Value → Ordering) (arguments : List Value) :
    Eval Value := do
  checkCount f arguments 1
  return .bool (isSortedBy order (← items f arguments))

def searchSlice (f : Function) (order : Value → Value → Ordering) (arguments : List Value) :
    Eval Value := do
  checkCount f arguments 2
  let items := (← items f arguments).toArray
  let target ← argument f arguments 1
  return countValue (lowerBound (fun v => order v target == .lt) items 0 items.size)

def call (f : SortFunction) (arguments : List Value) : Eval Value := do
  let self : Function := .sort f
  match f with
  | ints => sortInPlace self intOrder arguments
  | strings => sortInPlace self textOrder arguments
  | float64s => sortInPlace self floatOrder arguments
  | slice | sliceStable =>
    -- both are one function, which is called `Slice`
    let self : Function := .sort slice
    checkCount self arguments 2
    match ← slice? self arguments with
    | none => return .nil
    | some view =>
      sortSlice view (← argument self arguments 1)
      return .nil
  | sliceIsSorted =>
    checkCount self arguments 2
    match ← slice? self arguments with
    | none => return .bool true
    | some view => return .bool (← noneSmaller (← argument self arguments 1) (view.length - 1))
  | sort | stable =>
    -- both are one function, which is called `Sort`
    let self : Function := .sort sort
    checkCount self arguments 1
    sortByMethods (← argument self arguments 0)
    return .nil
  | search =>
    checkCount self arguments 2
    let length ← intArgument self arguments 0
    let f ← argument self arguments 1
    return .int (← searchPlace (askPlace f) 0 length (by decide))
  | searchInts => searchSlice self intOrder arguments
  | searchStrings => searchSlice self textOrder arguments
  | intsAreSorted => testSorted self intOrder arguments
  | stringsAreSorted => testSorted self textOrder arguments

end SortFunction

end SandboxedGo.Library
