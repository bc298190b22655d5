import SandboxedGo.Eval.Statements
import SandboxedGo.Proofs.Following
import SandboxedGo.Proofs.Holders

/-!
# Ranges over maps

A loop over a map goes through the entries that the map had at the beginning.  When the turn of an
entry comes, the loop looks whether the key is still there, but the value that the round is given is
the one from the beginning, even if the body has stored another one since.  Main statement:
`range_takes_turns`.
-/

set_option autoImplicit false

namespace SandboxedGo.Eval.RangeLoop

variable {l : RangeLoop} {ev : Evaluator} {entries : Option MapId} {m : Machine}

/-- What a map has at a key; the nil map has nothing. -/
def live? (entries : Option MapId) (m : Machine) (key : MapKey) : Option Value :=
  entries.bind (m.store.mapLookup · key)

/-- A round of a loop over a map: the entry that it is given, the machine when it begins, and how it
ends. -/
structure Turn where
  key : MapKey
  value : Value
  start : Machine
  ended : EStateM.Result Stop Machine Bool

/-- Whether the loop goes on behind a round. -/
def Turn.GoesOn (turn : Turn) : Prop := ∃ next, turn.ended = .ok true next

/-- The rounds of a loop over a list of entries, and how it ends. -/
inductive Takes (l : RangeLoop) (ev : Evaluator) (entries : Option MapId) :
    List (MapKey × Value) → Machine → List Turn → EStateM.Result Stop Machine Unit → Prop
  | through (m : Machine) : Takes l ev entries [] m [] (.ok () m)
  | gone {key : MapKey} {v : Value} {rest : List (MapKey × Value)} {m : Machine} {turns : List Turn}
      {r : EStateM.Result Stop Machine Unit} (absent : live? entries m key = none)
      (others : Takes l ev entries rest m turns r) :
      Takes l ev entries ((key, v) :: rest) m turns r
  | goesOn {key : MapKey} {v : Value} {rest : List (MapKey × Value)} {m next : Machine}
      {turns : List Turn} {r : EStateM.Result Stop Machine Unit}
      (there : (live? entries m key).isSome)
      (ran : (l.round key.toValue v).run ev m = .ok true next)
      (others : Takes l ev entries rest next turns r) :
      Takes l ev entries ((key, v) :: rest) m (⟨key, v, m, .ok true next⟩ :: turns) r
  | isLeft {key : MapKey} {v : Value} {rest : List (MapKey × Value)} {m next : Machine}
      (there : (live? entries m key).isSome)
      (ran : (l.round key.toValue v).run ev m = .ok false next) :
      Takes l ev entries ((key, v) :: rest) m [⟨key, v, m, .ok false next⟩] (.ok () next)
  | cutOff {key : MapKey} {v : Value} {rest : List (MapKey × Value)} {m next : Machine}
      {stop : Stop}
      (there : (live? entries m key).isSome)
      (ran : (l.round key.toValue v).run ev m = .error stop next) :
      Takes l ev entries ((key, v) :: rest) m [⟨key, v, m, .error stop next⟩] (.error stop next)

theorem exists_takes (l : RangeLoop) (ev : Evaluator) (entries : Option MapId)
    (listed : List (MapKey × Value)) (m : Machine) :
    ∃ turns, Takes l ev entries listed m turns ((l.overEntries entries listed).run ev m) := by
  induction listed generalizing m with
  | nil => exact ⟨[], .through m⟩
  | cons first rest ih =>
      obtain ⟨key, v⟩ := first
      have looked : (l.overEntries entries ((key, v) :: rest)).run ev m =
          (if (live? entries m key).isNone then l.overEntries entries rest
            else do if ← l.round key.toValue v then l.overEntries entries rest).run ev m := by
        rw [overEntries]
        exact bind_run_ok rfl _
      rw [looked]
      cases found : live? entries m key with
      | none =>
          rw [if_pos Option.isNone_none]
          obtain ⟨turns, others⟩ := ih m
          exact ⟨turns, .gone found others⟩
      | some current =>
          have there : (live? entries m key).isSome := by rw [found, Option.isSome_some]
          rw [if_neg (by simp), bind_run]
          cases ran : (l.round key.toValue v).run ev m with
          | ok on next =>
              cases on with
              | true =>
                  obtain ⟨turns, others⟩ := ih next
                  exact ⟨_, .goesOn there ran others⟩
              | false => exact ⟨_, .isLeft there ran⟩
          | error stop next => exact ⟨_, .cutOff there ran⟩

variable {listed : List (MapKey × Value)} {turns : List Turn}
  {r : EStateM.Result Stop Machine Unit}

theorem Takes.there (takes : Takes l ev entries listed m turns r) :
    ∀ turn ∈ turns, (live? entries turn.start turn.key).isSome := by
  induction takes with
  | through => exact List.forall_mem_nil _
  | gone _ _ ih => exact ih
  | goesOn there _ _ ih => exact List.forall_mem_cons.mpr ⟨there, ih⟩
  | isLeft there _ | cutOff there _ => exact List.forall_mem_singleton.mpr there

/-- The rounds are given entries of the list, in the order of the list. -/
theorem Takes.sublist (takes : Takes l ev entries listed m turns r) :
    (turns.map fun turn => (turn.key, turn.value)).Sublist listed := by
  induction takes with
  | through => exact .slnil
  | gone _ _ ih => exact ih.cons _
  | goesOn _ _ _ ih => exact ih.cons_cons _
  | isLeft _ _ | cutOff _ _ => exact (List.nil_sublist _).cons_cons _

/-- The loop is where its first round begins, or at its end if there is none. -/
theorem Takes.here (takes : Takes l ev entries listed m turns r) {P : Machine → Prop}
    (starts : ∀ turn ∈ turns, P turn.start) (ends : ∀ next, r = .ok () next → P next) : P m := by
  induction takes with
  | through m => exact ends m rfl
  | gone _ _ ih => exact ih starts ends
  | goesOn _ _ _ _ | isLeft _ _ | cutOff _ _ => exact starts _ List.mem_cons_self

/-- A loop that is not left has a round for every key that stays in the map. -/
theorem Takes.complete (takes : Takes l ev entries listed m turns r)
    (goOn : ∀ turn ∈ turns, turn.GoesOn) {key : MapKey} {v : Value} (isIn : (key, v) ∈ listed)
    (starts : ∀ turn ∈ turns, (live? entries turn.start key).isSome)
    (ends : ∀ next, r = .ok () next → (live? entries next key).isSome) :
    ∃ turn ∈ turns, turn.key = key := by
  induction takes with
  | through => exact absurd isIn List.not_mem_nil
  | gone absent others ih =>
      rcases List.mem_cons.mp isIn with same | later
      · cases same
        have stays := others.here (P := fun m => (live? entries m key).isSome) starts ends
        rw [absent] at stays
        cases stays
      · exact ih goOn later starts ends
  | goesOn there ran others ih =>
      rcases List.mem_cons.mp isIn with same | later
      · cases same
        exact ⟨_, List.mem_cons_self, rfl⟩
      · obtain ⟨turn, mem, is⟩ := ih (fun turn mem => goOn turn (List.mem_cons_of_mem _ mem)) later
          (fun turn mem => starts turn (List.mem_cons_of_mem _ mem)) ends
        exact ⟨turn, List.mem_cons_of_mem _ mem, is⟩
  | isLeft _ _ | cutOff _ _ =>
      obtain ⟨next, on⟩ := goOn _ List.mem_cons_self
      cases on

/-! ## The entries at the beginning -/

/-- The entries of a map at the beginning are what it has then, each of them once. -/
theorem live?_of_mem {key : MapKey} {v : Value} (isIn : (key, v) ∈ m.store.mapList entries) :
    live? entries m key = some v := by
  cases entries with
  | none => exact absurd isIn List.not_mem_nil
  | some id => exact (Std.TreeMap.mem_toList_iff_getKey?_eq_some_and_getElem?_eq_some.mp isIn).2

theorem exists_mem_mapList {key : MapKey} (has : (live? entries m key).isSome) :
    ∃ listedKey v, (listedKey, v) ∈ m.store.mapList entries ∧
      listedKey.identity = key.identity := by
  cases entries with
  | none => cases has
  | some id =>
      obtain ⟨v, is⟩ := Option.isSome_iff_exists.mp has
      obtain ⟨listedKey, same, isIn⟩ :=
        Std.TreeMap.getElem?_eq_some_iff_exists_compare_eq_eq_and_mem_toList.mp is
      exact ⟨listedKey, v, isIn, ((MapKey.compare_eq_iff _ _).mp same).symm⟩

theorem mapList_distinct (s : Store) (entries : Option MapId) :
    (s.mapList entries).Pairwise fun a b => a.1.identity ≠ b.1.identity := by
  cases entries with
  | none => exact .nil
  | some id =>
      exact Std.TreeMap.distinct_keys_toList.imp fun apart same =>
        apart ((MapKey.compare_eq_iff _ _).mpr same)

theorem live?_congr {key key' : MapKey} (same : key.identity = key'.identity) :
    live? entries m key = live? entries m key' := by
  cases entries with
  | none => rfl
  | some id => exact Std.TreeMap.getElem?_congr ((MapKey.compare_eq_iff _ _).mpr same)

/-! ## Ranges -/

/-- The rounds of a loop over a map that starts in the machine `m`. -/
structure TakesTurns (l : RangeLoop) (ev : Evaluator) (entries : Option MapId) (m : Machine)
    (turns : List Turn) (r : EStateM.Result Stop Machine Unit) : Prop where
  takes : Takes l ev entries (m.store.mapList entries) m turns r
  /-- A key that is gone when its turn comes is left out. -/
  there {turn : Turn} : turn ∈ turns → (live? entries turn.start turn.key).isSome
  once : turns.Pairwise fun a b => a.key.identity ≠ b.key.identity
  /-- The value of a round is that of its key at the beginning of the loop. -/
  first {turn : Turn} : turn ∈ turns → live? entries m turn.key = some turn.value
  /-- It is the value of the key at the beginning of the round as long as the entry is what it
  was. -/
  live_iff {turn : Turn} : turn ∈ turns →
    (live? entries turn.start turn.key = some turn.value ↔
      live? entries turn.start turn.key = live? entries m turn.key)
  /-- A key that stays in the map has a round, unless the loop is left. -/
  complete (goOn : ∀ turn ∈ turns, turn.GoesOn) {key : MapKey}
    (begins : (live? entries m key).isSome)
    (starts : ∀ turn ∈ turns, (live? entries turn.start key).isSome)
    (ends : ∀ next, r = .ok () next → (live? entries next key).isSome) :
    ∃ turn ∈ turns, turn.key.identity = key.identity

/-- For every map, loop and machine: the rounds of the loop have different keys, each in the map
when its round begins, and each key that stays in the map has one, unless the loop is left early.
The values are those from the beginning of the loop. -/
theorem range_takes_turns (l : RangeLoop) (ev : Evaluator) (entries : Option MapId) (zero : Value)
    (m : Machine) :
    ∃ turns, TakesTurns l ev entries m turns ((l.run (.map entries zero)).run ev m) := by
  obtain ⟨turns, takes⟩ := exists_takes l ev entries (m.store.mapList entries) m
  have first {turn : Turn} (isIn : turn ∈ turns) : live? entries m turn.key = some turn.value :=
    live?_of_mem (takes.sublist.subset (List.mem_map_of_mem isIn))
  refine ⟨turns, takes, @takes.there, ?once, first, fun isIn => ?live, ?complete⟩
  case once =>
    have distinct := (mapList_distinct m.store entries).sublist takes.sublist
    rwa [List.pairwise_map] at distinct
  case live => rw [first isIn]
  case complete =>
    intro goOn key begins starts ends
    obtain ⟨listedKey, v, isIn, same⟩ := exists_mem_mapList begins
    obtain ⟨turn, mem, is⟩ := takes.complete goOn isIn
      (fun turn mem => by rw [live?_congr same]; exact starts turn mem)
      (fun next is => by rw [live?_congr same]; exact ends next is)
    exact ⟨turn, mem, is ▸ same⟩

end SandboxedGo.Eval.RangeLoop
