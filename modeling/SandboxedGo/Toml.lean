/-!
# TOML documents

The values of a TOML document and the rules by which its lines build up tables.  Every table
remembers how it came about, because that decides how it may be extended: a table with a header of
its own only once, one implied by a longer header or a dotted key also later, an inline table never.
-/

set_option autoImplicit false

namespace SandboxedGo

/-- How a table came about. -/
inductive TableOrigin
  /-- By a header of its own, or as the table of the whole document. -/
  | header
  /-- By the header of a table inside it. -/
  | implied
  /-- By a dotted key. -/
  | dotted
  /-- Between braces. -/
  | inlined
  deriving DecidableEq, Repr

inductive Toml
  | string (s : String)
  | int (n : Int)
  | float (f : Float)
  | bool (b : Bool)
  /-- A date, a time, or both; which one does not matter here. -/
  | date
  | array (items : List Toml)
  | table (origin : TableOrigin) (entries : List (String × Toml))
  /-- The tables of several headers with one name. -/
  | tables (items : List (List (String × Toml)))

namespace Toml

abbrev Entries := List (String × Toml)

def replace (key : String) (value : Toml) (entries : Entries) : Entries :=
  entries.map fun e => if e.1 = key then (key, value) else e

/-- The entries with a new one; none if the key is there. -/
def addNew? (key : String) (value : Toml) (entries : Entries) : Option Entries :=
  if (entries.lookup key).isSome then none else some (entries ++ [(key, value)])

/-- Change the table that a path leads to, and answer something about it.  Tables that are missing
on the path come about on the way.  A path of a dotted key leads only through tables that came about
without headers of their own; a path of a header leads through the last of several tables. -/
def change {α : Type} (dotted : Bool) (action : TableOrigin → Entries → Option (α × Entries)) :
    List String → TableOrigin → Entries → Option (α × Entries)
  | [], origin, entries => action origin entries
  | key :: path, _, entries =>
    match entries.lookup key with
    | none => do
      let origin := if dotted then TableOrigin.dotted else .implied
      let (a, inner) ← change dotted action path origin []
      return (a, entries ++ [(key, .table origin inner)])
    | some (.table origin inner) =>
      if origin = .inlined || (dotted && origin = .header) then none
      else do
        let (a, inner) ← change dotted action path origin inner
        return (a, replace key (.table origin inner) entries)
    | some (.tables items) =>
      match items.getLast? with
      | none => none
      | some last => do
        let (a, last) ← change dotted action path .header last
        return (a, replace key (.tables (items.dropLast ++ [last])) entries)
    | some _ => none

/-- The entries with the value of a dotted key.  The table that holds the value must come about by
dotted keys too, unless the key is a single one. -/
def put? (path : List String) (key : String) (value : Toml) (entries : Entries) : Option Entries :=
  (change true (fun origin inner =>
      if decide (origin = .dotted) = path.isEmpty then none
      else (addNew? key value inner).map fun inner => ((), inner))
    path .header entries).map Prod.snd

/-- A document while it is read: the tables that are finished, and the one that lines are being
added to. -/
structure Draft where
  finished : Entries := []
  /-- The header of the table being read; empty before the first header. -/
  path : List String := []
  /-- Whether the table is one of several with the same name. -/
  isElement : Bool := false
  current : Entries := []

namespace Draft

def put? (d : Draft) (path : List String) (key : String) (value : Toml) : Option Draft :=
  (Toml.put? path key value d.current).map fun current => { d with current }

def close? (d : Draft) : Option Entries :=
  match d.path.getLast? with
  | none => some d.current
  | some key =>
    (change false (fun _ inner =>
        if d.isElement then
          match inner.lookup key with
          | none => some ((), inner ++ [(key, .tables [d.current])])
          | some (.tables items) => some ((), replace key (.tables (items ++ [d.current])) inner)
          | some _ => none
        else (addNew? key (.table .header d.current) inner).map fun inner => ((), inner))
      d.path.dropLast .header d.finished).map Prod.snd

/-- Begin the table of a header.  One that was only implied so far keeps what it has. -/
def openTable? (d : Draft) (path : List String) : Option Draft := do
  let finished ← d.close?
  let key ← path.getLast?
  let (current, finished) ← change false (fun _ inner =>
      match inner.lookup key with
      | none => some ([], inner)
      | some (.table .implied held) => some (held, inner.filter (·.1 ≠ key))
      | some _ => none)
    path.dropLast .header finished
  return ⟨finished, path, false, current⟩

/-- Begin one more table of several with the same header. -/
def openElement? (d : Draft) (path : List String) : Option Draft := do
  let finished ← d.close?
  let key ← path.getLast?
  let ((), finished) ← change false (fun _ inner =>
      match inner.lookup key with
      | none | some (.tables _) => some ((), inner)
      | some _ => none)
    path.dropLast .header finished
  return ⟨finished, path, true, []⟩

end Draft

end Toml

end SandboxedGo
