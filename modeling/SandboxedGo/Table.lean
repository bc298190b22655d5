/-!
# Tables

Finite maps from names, kept as lists of entries.  Putting an entry replaces the one of the same
name in its place, so every name occurs once.
-/

set_option autoImplicit false

namespace SandboxedGo

structure Table (α : Type) where
  entries : List (String × α) := []

namespace Table

variable {α : Type}

def putEntry (name : String) (a : α) : List (String × α) → List (String × α)
  | [] => [(name, a)]
  | (n, b) :: rest => if n = name then (name, a) :: rest else (n, b) :: putEntry name a rest

def get? (t : Table α) (name : String) : Option α := t.entries.lookup name

def contains (t : Table α) (name : String) : Bool := (t.get? name).isSome

def put (t : Table α) (name : String) (a : α) : Table α := ⟨putEntry name a t.entries⟩

def size (t : Table α) : Nat := t.entries.length

instance : EmptyCollection (Table α) := ⟨⟨[]⟩⟩

/-! ## Lookup -/

theorem lookup_entry (name other : String) (a : α) (rest : List (String × α)) :
    ((name, a) :: rest).lookup other = if other = name then some a else rest.lookup other := by
  by_cases same : other = name
  · simp [same]
  · have differs : (other == name) = false := beq_eq_false_iff_ne.mpr same
    simp [List.lookup_cons, differs, same]

theorem lookup_putEntry (name other : String) (a : α) (entries : List (String × α)) :
    (putEntry name a entries).lookup other =
      if other = name then some a else entries.lookup other := by
  induction entries with
  | nil => rw [putEntry, lookup_entry]
  | cons entry rest ih =>
      obtain ⟨n, b⟩ := entry
      by_cases found : n = name
      · subst found
        rw [putEntry, if_pos rfl, lookup_entry, lookup_entry]
        split <;> rfl
      · rw [putEntry, if_neg found, lookup_entry, lookup_entry, ih]
        by_cases same : other = n
        · simp [same, found]
        · simp [same]

theorem get_put (t : Table α) (name other : String) (a : α) :
    (t.put name a).get? other = if other = name then some a else t.get? other :=
  lookup_putEntry name other a t.entries

theorem mem_of_get {t : Table α} {name : String} {a : α}
    (found : t.get? name = some a) : (name, a) ∈ t.entries := by
  obtain ⟨before, after, split, -⟩ := List.lookup_eq_some_iff.mp found
  rw [split]
  exact List.mem_append_right before List.mem_cons_self

end Table

end SandboxedGo
