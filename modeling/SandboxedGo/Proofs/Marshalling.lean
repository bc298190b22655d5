import SandboxedGo.Library.Call
import SandboxedGo.Proofs.DocumentTexts
import SandboxedGo.Proofs.Following
import SandboxedGo.Proofs.HostBoundary
import SandboxedGo.Run

/-!
# Documents as texts and as trees

A value without floats, structs and functions has a document, which the host is given, and a text,
which a program writes.  Both describe the same: a reader of JSON reads the text as the document.
The two are made by one recursion over the nesting of the value each, and they are followed side by
side here.
-/

set_option autoImplicit false

namespace SandboxedGo

open Library

namespace Store

/-! ## Plain values -/

/-- What documents are made of, with `inner` values in the slices, arrays and maps; the keys of maps
are texts. -/
def PlainOver (s : Store) (inner : Value → Prop) : Value → Prop
  | .nil | .bool _ | .int _ | .string _ => True
  | .slice view => view.isNil = true ∨ ∀ item ∈ s.elements view, inner item
  | .map entries _ => ∀ e ∈ s.mapList entries, (∃ key, e.1 = .string key) ∧ inner e.2
  | _ => False

/-- A value of nil, truth values, integers, texts, slices, arrays and maps, with a path of at most
`nesting` steps from a container to what is in it. -/
def IsPlain (s : Store) : (nesting : Nat) → Value → Prop
  | 0 => s.PlainOver fun _ => False
  | nesting + 1 => s.PlainOver (s.IsPlain nesting)

/-! ## Documents and texts side by side -/

/-- The document of a value, and its text when it is written up to a depth. -/
structure Describes (s : Store) (depth : Nat) (v : Value) (j : Json) (text : String) : Prop where
  hasDocument : s.HasDocument v j
  written : ∀ level, documentWithin s none depth level v = pure text
  writes : Json.Writes text.toList j
  proper : j.IsProper

variable {s : Store} {depth : Nat}

theorem int64_range (n : Int64) : -2 ^ 63 ≤ n.toInt ∧ n.toInt < 2 ^ 63 :=
  ⟨Int64.le_toInt n, Int64.toInt_lt n⟩

theorem describes_null {v : Value} (hasDocument : s.HasDocument v .null)
    (written : ∀ level, documentWithin s none (depth + 1) level v = pure "null") :
    s.Describes (depth + 1) v .null "null" :=
  ⟨hasDocument, written, Json.writes_null, trivial⟩

theorem describes_bool (b : Bool) :
    s.Describes (depth + 1) (.bool b) (.bool b) (if b then "true" else "false") :=
  ⟨hasDocument_bool b, fun _ => rfl, Json.writes_bool b, trivial⟩

theorem describes_int (n : Int64) :
    s.Describes (depth + 1) (.int n) (.int n.toInt) (toString n.toInt) := by
  have range := int64_range n
  have wide : -2 ^ 63 ≤ n.toInt ∧ n.toInt < 2 ^ 64 := by omega
  exact ⟨hasDocument_int n, fun _ => rfl, Json.writes_int wide, wide⟩

theorem describes_string (t : String) :
    s.Describes (depth + 1) (.string t) (.string t) (documentText t) :=
  ⟨hasDocument_string t, fun _ => rfl, Json.writes_string t, trivial⟩

/-! ### Several values -/

theorem exists_parts {α β γ : Type} {R : α → β → γ → Prop} {items : List α}
    (each : ∀ item ∈ items, ∃ b c, R item b c) :
    ∃ parts : List (β × γ), List.Forall₂ (fun item part => R item part.1 part.2) items parts := by
  induction items with
  | nil => exact ⟨[], .nil⟩
  | cons item rest ih =>
      obtain ⟨b, c, first⟩ := each item List.mem_cons_self
      obtain ⟨parts, others⟩ := ih fun later mem => each later (List.mem_cons_of_mem _ mem)
      exact ⟨(b, c) :: parts, .cons first others⟩

theorem mapM_written {α β : Type} {f : α → Documented String} {R : α → β → Prop} {g : β → String}
    {items : List α} {parts : List β} (each : List.Forall₂ R items parts)
    (written : ∀ item part, R item part → f item = pure (g part)) :
    items.mapM f = pure (parts.map g) := by
  induction each with
  | nil => rfl
  | cons first _ ih =>
      rw [List.mapM_cons, written _ _ first, ih]
      rfl

theorem toList_enclosed (open_ close : String) (level : Nat) (parts : List String) :
    (enclosed open_ close none level parts).toList =
      open_.toList ++ [','].intercalate (parts.map String.toList) ++ close.toList := by
  unfold enclosed
  split
  · rename_i none_
    rw [List.isEmpty_iff] at none_
    subst none_
    simp
  · simp [lineBreak]

/-! ### Slices -/

theorem writes_items {items : List Value} {parts : List (Json × String)}
    (each : List.Forall₂ (fun item part => s.Describes depth item part.1 part.2) items parts) :
    List.Forall₂ Json.Writes (parts.map fun part => part.2.toList) (parts.map Prod.fst) := by
  induction each with
  | nil => exact .nil
  | cons first _ ih => exact .cons first.writes ih

theorem proper_items {items : List Value} {parts : List (Json × String)}
    (each : List.Forall₂ (fun item part => s.Describes depth item part.1 part.2) items parts) :
    Json.ItemsProper (parts.map Prod.fst) := by
  induction each with
  | nil => trivial
  | cons first _ ih => exact ⟨first.proper, ih⟩

theorem documentWithin_slice {view : SliceView} (notNil : view.isNil = false) (level : Nat) :
    documentWithin s none (depth + 1) level (.slice view) = (do
      let parts ← (s.elements view).mapM (documentWithin s none depth (level + 1))
      pure (enclosed "[" "]" none level parts)) := by
  rw [documentWithin, if_neg (by simp [notNil])]

theorem describes_slice {view : SliceView} (notNil : view.isNil = false)
    {parts : List (Json × String)}
    (each : List.Forall₂ (fun item part => s.Describes depth item part.1 part.2) (s.elements view)
      parts) :
    s.Describes (depth + 1) (.slice view) (.array (parts.map Prod.fst))
      (enclosed "[" "]" none 0 (parts.map Prod.snd)) where
  hasDocument := by
    apply hasDocument_slice notNil
    rw [List.forall₂_map_right_iff]
    exact each.imp fun _ _ describes => describes.hasDocument
  written level := by
    rw [documentWithin_slice notNil,
      mapM_written each fun item part describes => describes.written (level + 1)]
    rfl
  writes := by
    have writes := Json.writes_array (writes_items each)
    rw [toList_enclosed, List.map_map]
    exact writes
  proper := proper_items each

/-! ### Maps -/

/-- The entries of a map under texts. -/
def textEntries (s : Store) (m : MapId) : List (String × Value) :=
  (s.mapList (some m)).map fun e => (e.1.text, e.2)

section Maps

variable {m : MapId} (texts : ∀ e ∈ s.mapList (some m), ∃ key, e.1 = .string key)

include texts

theorem increasing_textEntries : Json.Increasing (s.textEntries m) := by
  apply List.pairwise_map.mpr
  refine (MapEntries.toList_ordered (s.mapEntries m)).imp_of_mem fun mem mem' before => ?_
  obtain ⟨key, is⟩ := texts _ mem
  obtain ⟨key', is'⟩ := texts _ mem'
  rw [MapEntries.Before, is, is', MapKey.compare_string_lt] at before
  rw [is, is']
  exact before

theorem documentWithin_map (zero : Value) (level : Nat) :
    documentWithin s none (depth + 1) level (.map (some m) zero) = (do
      let parts ← (s.textEntries m).mapM fun e => do
        let text ← documentWithin s none depth (level + 1) e.2
        pure (documentEntry none e.1 text)
      pure (enclosed "\x7b" "\x7d" none level parts)) := by
  have sorted : (s.textEntries m).mergeSort (fun a b => compare a.1 b.1 != .gt) =
      s.textEntries m := by
    apply List.mergeSort_of_pairwise
    refine (increasing_textEntries texts).imp fun {e e'} below => ?_
    have less : compare e.1 e'.1 = .lt := MapKey.compare_string_lt.mpr below
    rw [less]
    rfl
  rw [documentWithin, if_neg (by simp)]
  change (do
    let sorted := (s.textEntries m).mergeSort fun a b => compare a.1 b.1 != Ordering.gt
    let parts ← sorted.mapM fun (e : String × Value) => do
      let text ← documentWithin s none depth (level + 1) e.2
      pure (documentEntry none e.1 text)
    pure (enclosed "\x7b" "\x7d" none level parts)) = _
  rw [sorted]

end Maps

/-- The entry of an object for a text and a value under it, and the text of that value. -/
def DescribesEntry (s : Store) (depth : Nat) (e : String × Value) (document : String × Json)
    (text : String) : Prop :=
  e.1 = document.1 ∧ s.Describes depth e.2 document.2 text

section Entries

variable {entries : List (String × Value)} {parts : List ((String × Json) × String)}
  (each : List.Forall₂ (fun e part => s.DescribesEntry depth e part.1 part.2) entries parts)

include each

theorem written_entries (level : Nat) :
    (entries.mapM fun e => do
        let text ← documentWithin s none depth level e.2
        pure (documentEntry none e.1 text)) =
      pure (parts.map fun part => documentEntry none part.1.1 part.2) := by
  apply mapM_written each
  intro e part describes
  rw [describes.2.written, describes.1]
  rfl

theorem writes_entries :
    List.Forall₂ (fun part e => ∃ text, part = Json.entryText e.1 text ∧ Json.Writes text e.2)
      (parts.map fun part => (documentEntry none part.1.1 part.2).toList)
      (parts.map Prod.fst) := by
  induction each with
  | nil => exact .nil
  | @cons e part _ _ first _ ih =>
      refine .cons ⟨part.2.toList, ?_, first.2.writes⟩ ih
      simp [documentEntry, Json.entryText]

theorem proper_entries : Json.EntriesProper (parts.map Prod.fst) := by
  induction each with
  | nil => trivial
  | cons first _ ih => exact ⟨first.2.proper, ih⟩

end Entries

theorem describes_map {m : MapId} (zero : Value)
    (texts : ∀ e ∈ s.mapList (some m), ∃ key, e.1 = .string key)
    {parts : List ((String × Json) × String)}
    (each : List.Forall₂ (fun e part => s.DescribesEntry depth e part.1 part.2) (s.textEntries m)
      parts) :
    s.Describes (depth + 1) (.map (some m) zero) (.object (parts.map Prod.fst))
      (enclosed "\x7b" "\x7d" none 0
        (parts.map fun part => documentEntry none part.1.1 part.2)) := by
  have documents : List.Forall₂ (fun (e : String × Value) document => e.1 = document.1 ∧
      s.HasDocument e.2 document.2) (s.textEntries m) (parts.map Prod.fst) := by
    rw [List.forall₂_map_right_iff]
    exact each.imp fun _ _ describes => ⟨describes.1, describes.2.hasDocument⟩
  have increasing : Json.Increasing (parts.map Prod.fst) :=
    Json.increasing_of_keys (fun _ _ same => same.1.symm) documents.flip
      (increasing_textEntries texts)
  refine ⟨?_, fun level => ?_, ?_, increasing, proper_entries each⟩
  · rw [← Json.ofEntries_increasing increasing]
    rw [textEntries, List.forall₂_map_left_iff] at documents
    exact hasDocument_map zero documents
  · rw [documentWithin_map texts, written_entries each]
    rfl
  · have writes := Json.writes_object (writes_entries each)
    rw [toList_enclosed, List.map_map]
    exact writes

/-! ### All plain values -/

theorem describes_over {inner : Value → Prop}
    (each : ∀ v, inner v → ∃ j text, s.Describes depth v j text) {v : Value}
    (plain : s.PlainOver inner v) : ∃ j text, s.Describes (depth + 1) v j text := by
  cases v with
  | nil => exact ⟨_, _, describes_null hasDocument_nil fun _ => rfl⟩
  | bool b => exact ⟨_, _, describes_bool b⟩
  | int n => exact ⟨_, _, describes_int n⟩
  | string t => exact ⟨_, _, describes_string t⟩
  | slice view =>
      cases isNil : view.isNil with
      | true =>
          refine ⟨_, _, describes_null (hasDocument_nilSlice isNil) fun level => ?_⟩
          rw [documentWithin, if_pos isNil]
      | false =>
          have items : ∀ item ∈ s.elements view, inner item :=
            plain.resolve_left (by simp [isNil])
          obtain ⟨parts, both⟩ := exists_parts fun item mem => each item (items item mem)
          exact ⟨_, _, describes_slice isNil both⟩
  | map entries zero =>
      cases entries with
      | none => exact ⟨_, _, describes_null (hasDocument_nilMap zero) fun _ => rfl⟩
      | some m =>
          have inside : ∀ e ∈ s.textEntries m, ∃ document text,
              s.DescribesEntry depth e document text := by
            intro e inMap
            obtain ⟨entry, mem, rfl⟩ := List.mem_map.mp inMap
            obtain ⟨j, text, describes⟩ := each entry.2 (plain entry mem).2
            exact ⟨(entry.1.text, j), text, rfl, describes⟩
          obtain ⟨parts, both⟩ := exists_parts inside
          exact ⟨_, _, describes_map zero (fun e mem => (plain e mem).1) both⟩
  | float | struct | pointer | ref | func | error | tuple | stream => exact absurd plain id

/-- A plain value has a document and a text, if it is written deeper than it is nested. -/
theorem describes_plain {nesting : Nat} {v : Value} (plain : s.IsPlain nesting v)
    (enough : nesting < depth) : ∃ j text, s.Describes depth v j text := by
  obtain ⟨depth, rfl⟩ := Nat.exists_eq_add_of_lt enough
  induction nesting generalizing v with
  | zero => exact describes_over nofun plain
  | succ nesting ih =>
      have inside : ∀ item, s.IsPlain nesting item →
          ∃ j text, s.Describes (nesting + depth + 1) item j text :=
        fun item plain => ih plain (by omega)
      have outside := describes_over inside plain
      rwa [show nesting + 1 + depth = nesting + depth + 1 by omega]

end Store

namespace Library

open Eval

/-! ## Marshalling -/

theorem byteSlice_run (text : String) (ev : Evaluator) (m : Machine) :
    ∃ view m', (byteSlice text).run ev m = .ok (.slice view) m' ∧
      m'.store.elements view = (Text.bytesOf text).map fun b => .int (Int64.ofNat b.toNat) :=
  ⟨_, _, rfl, Store.elements_newSlice _ _ (.refl _)⟩

theorem result_run {text : String} {ev : Evaluator} {m m' : Machine} {v : Value}
    (sliced : (byteSlice text).run ev m = .ok v m') :
    (JsonFunction.result (pure text)).run ev m = .ok (.tuple [v, .nil]) m' := by
  unfold JsonFunction.result
  rw [bind_run_ok (a := .ok text) rfl]
  dsimp only
  rw [bind_run_ok sliced]
  rfl

/-- A plain value that is nested at most a hundred deep is marshalled: a reader of JSON reads the
bytes as the document that the host is given for the value, with its keys in order. -/
theorem marshal_agrees (nesting : Nat) (v : Value) (ev : Evaluator) (m : Machine)
    (plain : m.store.IsPlain nesting v) (within : nesting ≤ 100) :
    ∃ j text view m', m.store.toJson? v = some (.ok j) ∧ j.IsProper ∧
      ((Function.json .marshal).call [v]).run ev m = .ok (.tuple [.slice view, .nil]) m' ∧
      m'.store.elements view = (Text.bytesOf text).map (fun b => .int (Int64.ofNat b.toNat)) ∧
      Json.ofText? text = some j := by
  have deep : nesting < documentDepth := Nat.lt_succ_of_le within
  obtain ⟨j, text, describes⟩ := Store.describes_plain plain deep
  obtain ⟨view, m', sliced, elements⟩ := byteSlice_run text ev m
  refine ⟨j, text, view, m', describes.hasDocument, describes.proper, ?_, elements,
    Json.ofText?_of_writes describes.writes⟩
  have written : document m.store none v = pure text := describes.written 0
  have asked : ((Function.json .marshal).call [v]).run ev m =
      (JsonFunction.result (document m.store none v)).run ev m := rfl
  rw [asked, written]
  exact result_run sliced

/-- A slice of a number, a text with a character that is escaped, and a map with an entry. -/
def nestedStore : Store where
  backings := #[#[.int 7, .string "a<b", .map (some ⟨0⟩) .nil]]
  maps := #[(∅ : MapEntries).insert (.string "k") (.bool true)]

theorem isPlain_nestedStore : nestedStore.IsPlain 2 (.slice ⟨⟨0⟩, 0, 3, 3, false, false⟩) := by
  have elements : nestedStore.elements ⟨⟨0⟩, 0, 3, 3, false, false⟩ =
      [.int 7, .string "a<b", .map (some ⟨0⟩) .nil] := rfl
  have entries : nestedStore.mapList (some ⟨0⟩) = [(.string "k", .bool true)] := rfl
  refine .inr ?_
  rw [elements]
  simp [Store.IsPlain, Store.PlainOver, entries]

theorem marshal_agrees_nested :
    let v : Value := .slice ⟨⟨0⟩, 0, 3, 3, false, false⟩
    let m : Machine := { Machine.initial {} with store := nestedStore }
    m.store.IsPlain 2 v ∧ 2 ≤ 100 ∧
      ∃ j text view m', m.store.toJson? v = some (.ok j) ∧ j.IsProper ∧
        ((Function.json .marshal).call [v]).run (Evaluator.ofDepth 0) m =
          .ok (.tuple [.slice view, .nil]) m' ∧
        m'.store.elements view =
          (Text.bytesOf text).map (fun b => .int (Int64.ofNat b.toNat)) ∧
        Json.ofText? text = some j :=
  ⟨isPlain_nestedStore, by decide,
    marshal_agrees 2 _ _ { Machine.initial {} with store := nestedStore } isPlain_nestedStore
      (by decide)⟩

end Library

end SandboxedGo
