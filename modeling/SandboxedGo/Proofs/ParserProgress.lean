import Mathlib.Data.List.TakeWhile
import SandboxedGo.Proofs.ParserSteps

/-!
# How parsers get on

No parser goes back in the text or beyond its end.  `Proceeds` says so together with whether a token
is consumed, for readings with a number of tokens left at most: a construct nested in another one is
behind a token of that, so fewer are left for it.  It holds of the tools of the parser, and of loops
whose rounds consume a token or are the last one.
-/

set_option autoImplicit false

namespace SandboxedGo.Source

/-! ## Texts that end -/

/-- The last token marks the end of the text. -/
def Ended (rest : List Located) : Prop := ∃ front place, rest = front ++ [⟨.endOfText, place⟩]

theorem Ended.ne_nil {rest : List Located} (ended : Ended rest) : rest ≠ [] := by
  obtain ⟨front, place, rfl⟩ := ended
  exact List.append_ne_nil_of_right_ne_nil _ (List.cons_ne_nil _ _)

theorem Ended.of_suffix {rest left : List Located} (ended : Ended rest) (suffix : left <:+ rest)
    (some_ : left ≠ []) : Ended left := by
  obtain ⟨front, place, rfl⟩ := ended
  obtain ⟨last, isLast⟩ : ∃ last, left.getLast? = some last :=
    ⟨_, List.getLast?_eq_some_getLast some_⟩
  obtain ⟨seen, split⟩ := suffix
  have same := congrArg List.getLast? split
  rw [List.getLast?_append, isLast, List.getLast?_append] at same
  obtain rfl : last = ⟨.endOfText, place⟩ := Option.some.inj same
  obtain ⟨init, rfl⟩ := List.getLast?_eq_some_iff.mp isLast
  exact ⟨init, place, rfl⟩

theorem behindFirst_suffix (rest : List Located) : behindFirst rest <:+ rest := by
  match rest with
  | [] => exact List.suffix_rfl
  | [_] => exact List.suffix_rfl
  | t :: u :: rest => exact List.suffix_cons t (u :: rest)

theorem behindFirst_ne_nil {rest : List Located} (some_ : rest ≠ []) : behindFirst rest ≠ [] := by
  match rest with
  | [] => exact absurd rfl some_
  | [_] => exact List.cons_ne_nil _ _
  | _ :: _ :: _ => exact List.cons_ne_nil _ _

theorem Ended.behindFirst_shorter {rest : List Located} (ended : Ended rest)
    (goesOn : firstToken rest ≠ .endOfText) : (behindFirst rest).length < rest.length := by
  match rest, ended with
  | [], ended => exact absurd rfl ended.ne_nil
  | [t], ⟨front, place, split⟩ =>
      obtain rfl : t = ⟨.endOfText, place⟩ := by
        simpa using congrArg List.getLast? split
      exact absurd rfl goesOn
  | _ :: _ :: _, _ => exact Nat.lt_succ_self _

theorem Ended.dropSemicolons {rest : List Located} (ended : Ended rest) :
    rest.dropWhile (·.token.isMark .semi) ≠ [] := by
  obtain ⟨front, place, rfl⟩ := ended
  intro none_
  have all := List.dropWhile_eq_nil_iff.mp none_ ⟨.endOfText, place⟩ (by simp)
  cases all

namespace Parser

variable {α β : Type}

/-- A reading of a text that ends, with rounds enough for every token that is left. -/
structure Ready (s : Reading) : Prop where
  ended : Ended s.rest
  rounds : s.rest.length ≤ s.bound

/-- A reading from which some of the tokens have been consumed, if any. -/
structure Later (s s' : Reading) : Prop where
  ready : Ready s'
  onward : s'.rest <:+ s.rest

/-- How a parser may end that began at `s`: further on in the text, and behind a token where
`consumes` says so.  It complains about the nesting only where that is too deep. -/
inductive Outcome (s : Reading) (consumes : α → Bool) :
    EStateM.Result ParseError Reading α → Prop
  | ok {a : α} {s' : Reading} (later : Later s s')
      (shorter : consumes a = true → s'.rest.length < s.rest.length) :
      Outcome s consumes (.ok a s')
  | error {e : ParseError} {s' : Reading} (later : Later s s')
      (deep : e.fault = .nestedTooDeeply → maxNesting < s'.depth) : Outcome s consumes (.error e s')

/-- A parser gets on from every reading with at most `few` tokens left of which the first is of
this kind. -/
def Proceeds (few : Nat) (begins : Token → Prop) (p : Parser α) (consumes : α → Bool) : Prop :=
  ∀ s, Ready s → s.rest.length ≤ few → begins (firstToken s.rest) → Outcome s consumes (p s)

/-- A parser gets on and may stay where it is. -/
abbrev Goes (few : Nat) (p : Parser α) : Prop :=
  Proceeds few (fun _ => True) p fun _ => false

/-- A parser consumes a token. -/
abbrev Consumes (few : Nat) (p : Parser α) : Prop :=
  Proceeds few (fun _ => True) p fun _ => true

/-- A round consumes a token if another one follows it. -/
def Piece.goesOn : Piece α → Bool
  | .more _ => true
  | _ => false

/-- A round of a loop consumes a token or is the last one. -/
abbrev Turns (few : Nat) (round : Parser (Piece α)) : Prop :=
  Proceeds few (fun _ => True) round Piece.goesOn

section

variable {s s₁ s₂ : Reading} {few fewer n : Nat} {begins : Token → Prop} {c : α → Bool}
  {d : β → Bool} {p : Parser α} {f : α → Parser β}

/-! ## Sequences -/

theorem Later.refl (ready : Ready s) : Later s s := ⟨ready, List.suffix_rfl⟩

theorem Later.trans (first : Later s s₁) (second : Later s₁ s₂) : Later s s₂ :=
  ⟨second.ready, second.onward.trans first.onward⟩

theorem Later.length_le (later : Later s s₁) : s₁.rest.length ≤ s.rest.length :=
  later.onward.length_le

theorem Outcome.after {r : EStateM.Result ParseError Reading α} (later : Later s s₁)
    (outcome : Outcome s₁ c r) : Outcome s c r := by
  cases outcome with
  | ok further shorter =>
      exact .ok (later.trans further) fun consumes =>
        Nat.lt_of_lt_of_le (shorter consumes) later.length_le
  | error further deep => exact .error (later.trans further) deep

theorem Outcome.behind {c' : α → Bool} {r : EStateM.Result ParseError Reading α}
    (later : Later s s₁) (shorter : s₁.rest.length < s.rest.length) (outcome : Outcome s₁ c' r) :
    Outcome s c r := by
  cases outcome with
  | ok further => exact .ok (later.trans further) fun _ =>
      Nat.lt_of_le_of_lt further.length_le shorter
  | error further deep => exact .error (later.trans further) deep

theorem Outcome.moved {r : EStateM.Result ParseError Reading α} (outcome : Outcome s₁ c r)
    (same : s₁.rest = s.rest) : Outcome s c r := by
  cases outcome with
  | ok later shorter =>
      exact .ok ⟨later.ready, same ▸ later.onward⟩ fun consumes => same ▸ shorter consumes
  | error later deep => exact .error ⟨later.ready, same ▸ later.onward⟩ deep

theorem bind_error {e : ParseError} (ran : p s = .error e s₁) (f : α → Parser β) :
    (p >>= f) s = .error e s₁ := by
  change EStateM.bind p f s = _
  rw [EStateM.bind, ran]

theorem Outcome.bind (outcome : Outcome s c (p s))
    (next : ∀ a s', Later s s' → (c a = true → s'.rest.length < s.rest.length) →
      Outcome s d (f a s')) : Outcome s d ((p >>= f) s) := by
  cases ran : p s with
  | ok a s' =>
      rw [ran] at outcome
      rw [bind_eq ran]
      cases outcome with
      | ok later shorter => exact next a s' later shorter
  | error e s' =>
      rw [ran] at outcome
      rw [bind_error ran]
      cases outcome with
      | error later deep => exact .error later deep

/-- A parser that only looks at what comes. -/
def Looks (p : Parser α) : Prop := ∀ s, ∃ a, p s = .ok a s

theorem looks_line : Looks line := fun s => by
  obtain ⟨rest, bound, level, depth⟩ := s
  cases rest <;> exact ⟨_, rfl⟩

theorem looks_atMark (m : Mark) : Looks (atMark m) := fun s => ⟨_, atMark_eq m s⟩

theorem looks_get : Looks (get : Parser Reading) := fun _ => ⟨_, rfl⟩

theorem looks_next : Looks next := fun s => by
  obtain ⟨rest, bound, level, depth⟩ := s
  cases rest <;> exact ⟨_, rfl⟩

/-- A parser that never reads anything, for another reason than the nesting. -/
def Refuses (p : Parser α) : Prop := ∀ s, ∃ e, p s = .error e s ∧ e.fault ≠ .nestedTooDeeply

theorem fail_run (fault : Fault) (s : Reading) :
    ∃ e, (fail fault : Parser α) s = .error e s ∧ e.fault = fault := by
  obtain ⟨t, found⟩ := looks_next s
  unfold fail
  rw [bind_eq found]
  exact ⟨_, rfl, rfl⟩

theorem refuses_fail {fault : Fault} (other : fault ≠ .nestedTooDeeply) :
    Refuses (fail fault : Parser α) := fun s => by
  obtain ⟨e, failed, is⟩ := fail_run (α := α) fault s
  exact ⟨e, failed, is ▸ other⟩

theorem refuses_unexpected (what : String) : Refuses (unexpected what : Parser α) := fun s => by
  unfold unexpected
  rw [bind_eq (peek_eq s)]
  exact refuses_fail (by nofun) s

theorem Refuses.bind (refuses : Refuses p) (f : α → Parser β) : Refuses (p >>= f) := fun s => by
  obtain ⟨e, failed, other⟩ := refuses s
  exact ⟨e, bind_error failed f, other⟩

/-- Consuming a token other than the last one leaves fewer; the last one stays. -/
theorem advance_later (ready : Ready s) :
    Later s { s with rest := behindFirst s.rest } ∧ (firstToken s.rest ≠ .endOfText →
      (behindFirst s.rest).length < s.rest.length) := by
  have onward := behindFirst_suffix s.rest
  have ended := ready.ended.of_suffix onward (behindFirst_ne_nil ready.ended.ne_nil)
  exact ⟨⟨⟨ended, onward.length_le.trans ready.rounds⟩, onward⟩, ready.ended.behindFirst_shorter⟩

theorem skipSemicolons_later (ready : Ready s) :
    Later s { s with rest := s.rest.dropWhile (·.token.isMark .semi) } := by
  have onward : s.rest.dropWhile (·.token.isMark .semi) <:+ s.rest := List.dropWhile_suffix _
  have ended := ready.ended.of_suffix onward ready.ended.dropSemicolons
  exact ⟨⟨ended, onward.length_le.trans ready.rounds⟩, onward⟩

theorem firstToken_dropSemicolons (rest : List Located) :
    firstToken (rest.dropWhile (·.token.isMark .semi)) ≠ .mark .semi := by
  have stops := List.head?_dropWhile_not (·.token.isMark .semi) rest
  cases left : rest.dropWhile (·.token.isMark .semi) with
  | nil => nofun
  | cons t behind =>
      rw [left] at stops
      rintro (semi : t.token = .mark .semi)
      simp only [List.head?_cons, semi] at stops
      cases stops

namespace Proceeds

/-- What holds of all readings with so many tokens left holds of those with fewer. -/
theorem anywhere (proceeds : Proceeds few (fun _ => True) p c) (less : fewer ≤ few) :
    Proceeds fewer begins p c := fun s ready left _ =>
  proceeds s ready (Nat.le_trans left less) trivial

theorem here (proceeds : Proceeds few (fun _ => True) p c) : Proceeds few begins p c :=
  proceeds.anywhere (Nat.le_refl few)

theorem less (proceeds : Proceeds (few + 1) (fun _ => True) p c) : Proceeds few begins p c :=
  proceeds.anywhere (Nat.le_succ few)

/-- A parser that consumes a token does so whatever it reads. -/
theorem weaken (proceeds : Proceeds few begins p fun _ => true) : Proceeds few begins p c := by
  intro s ready left first
  have outcome : Outcome s c ((p >>= Pure.pure) s) :=
    (proceeds s ready left first).bind fun a s' later shorter => .ok later fun _ => shorter rfl
  rwa [bind_pure] at outcome

/-! ## Parsers that end at once -/

theorem pure {a : α} (stays : c a = false) : Proceeds few begins (pure a : Parser α) c :=
  fun _ ready _ _ => .ok (.refl ready) fun consumes => absurd consumes (by simp [stays])

theorem ofRefuses (refuses : Refuses p) : Proceeds few begins p c := by
  intro s ready _ _
  obtain ⟨e, failed, other⟩ := refuses s
  rw [failed]
  exact .error (.refl ready) fun deep => absurd deep other

theorem fail {fault : Fault} (other : fault ≠ .nestedTooDeeply) :
    Proceeds few begins (fail fault) c := ofRefuses (refuses_fail other)

theorem failThen {fault : Fault} (other : fault ≠ .nestedTooDeeply) :
    Proceeds few begins (Parser.fail fault >>= f) d := ofRefuses ((refuses_fail other).bind f)

theorem unexpected {what : String} : Proceeds few begins (unexpected what) c :=
  ofRefuses (refuses_unexpected what)

theorem unexpectedThen {what : String} : Proceeds few begins (Parser.unexpected what >>= f) d :=
  ofRefuses ((refuses_unexpected what).bind f)

/-! ## Sequences -/

theorem andThen (first : Proceeds few begins p fun _ => false)
    (next : ∀ a, Proceeds few (fun _ => True) (f a) d) : Proceeds few begins (p >>= f) d :=
  fun s ready left begins_ => (first s ready left begins_).bind fun a s' later _ =>
    (next a s' later.ready (later.length_le.trans left) trivial).after later

theorem empty : Proceeds 0 begins p c := fun _ ready left _ =>
  absurd (List.length_eq_zero_iff.mp (Nat.le_zero.mp left)) ready.ended.ne_nil

theorem behind (first : Proceeds (few + 1) begins p fun _ => true)
    (next : ∀ a, Goes few (f a)) : Proceeds (few + 1) begins (p >>= f) d :=
  fun s ready left begins_ => (first s ready left begins_).bind fun a s' later consumed =>
    have shorter := consumed rfl
    (next a s' later.ready (by omega) trivial).behind later shorter

theorem followed (first : Proceeds few begins p fun _ => true) (next : ∀ a, Goes few (f a)) :
    Proceeds few begins (p >>= f) d := by
  match few with
  | 0 => exact .empty
  | few + 1 => exact first.behind fun a => (next a).less

theorem map {h : α → β} (first : Proceeds few begins p c) (same : ∀ a, d (h a) = c a) :
    Proceeds few begins (h <$> p) d := by
  intro s ready left begins_
  rw [map_eq_pure_bind]
  exact (first s ready left begins_).bind fun a s' later consumed =>
    .ok later fun consumes => consumed (same a ▸ consumes)

theorem cond {b : Prop} [Decidable b] {q : Parser α} (yes : b → Proceeds few begins p c)
    (no : ¬b → Proceeds few begins q c) : Proceeds few begins (if b then p else q) c := by
  by_cases h : b
  · rw [if_pos h]
    exact yes h
  · rw [if_neg h]
    exact no h

theorem join {b : Prop} [Decidable b] {q : Parser α}
    (yes : b → Proceeds few begins p fun _ => false)
    (no : ¬b → Proceeds few begins q fun _ => false)
    (next : ∀ a, Proceeds few (fun _ => True) (f a) d) :
    Proceeds few begins (if b then p >>= f else q >>= f) d :=
  .cond (fun h => (yes h).andThen next) fun h => (no h).andThen next

/-! ## Single tokens -/

theorem looks (only : Looks p) (each : ∀ a, Proceeds few begins (f a) d) :
    Proceeds few begins (p >>= f) d := by
  intro s ready left first
  obtain ⟨a, seen⟩ := only s
  rw [bind_eq seen]
  exact each a s ready left first

theorem peek {f : Token → Parser β} (each : ∀ t, begins t → Proceeds few (· = t) (f t) d) :
    Proceeds few begins (peek >>= f) d := by
  intro s ready left first
  rw [bind_eq (peek_eq s)]
  exact each _ first s ready left rfl

theorem peekSecond {f : Token → Parser β} (each : ∀ t, Proceeds few begins (f t) d) :
    Proceeds few begins (peekSecond >>= f) d := looks (fun s => ⟨_, peekSecond_eq s⟩) each

theorem advanceThen {f : Unit → Parser β} (next : Proceeds few (fun _ => True) (f ()) d) :
    Proceeds few begins (advance >>= f) d := by
  intro s ready left _
  rw [bind_eq (advance_eq s)]
  have later := (advance_later ready).1
  exact (next _ later.ready (later.length_le.trans left) trivial).after later

theorem token {t : Token} (notEnd : t ≠ .endOfText) :
    Proceeds few (· = t) advance fun _ => true := by
  intro s ready left first
  rw [advance_eq]
  have ⟨later, shorter⟩ := advance_later ready
  exact .ok later fun _ => shorter (first ▸ notEnd)

theorem eaten (is : Token → Bool) {eats : Parser Bool} (notEnd : is .endOfText = false)
    (runs : ∀ s, eats s = .ok (is (firstToken s.rest))
      (if is (firstToken s.rest) then { s with rest := behindFirst s.rest } else s))
    {f : Bool → Parser β} (less : few ≤ fewer + 1) (yes : Goes fewer (f true))
    (no : Proceeds few begins (f false) d) : Proceeds few begins (eats >>= f) d := by
  intro s ready left first
  rw [bind_eq (runs s)]
  have ⟨later, shorter⟩ := advance_later ready
  cases found : is (firstToken s.rest) with
  | true =>
      have notLast : firstToken s.rest ≠ .endOfText := by
        intro last
        rw [last, notEnd] at found
        cases found
      have shorter := shorter notLast
      exact (yes _ later.ready (by dsimp only; omega) trivial).behind later shorter
  | false => exact no s ready left first

theorem eatThen {m : Mark} {f : Bool → Parser β} (yes : Goes few (f true))
    (no : Proceeds few begins (f false) d) : Proceeds few begins (Parser.eat m >>= f) d :=
  eaten (·.isMark m) rfl (eat_eq m) (Nat.le_succ few) yes no

theorem eat {m : Mark} {q r : Parser β} (yes : Goes few q) (no : Proceeds few begins r d) :
    Proceeds few begins (Parser.eat m >>= fun found => if found then q else r) d :=
  eatThen yes no

theorem eatKeywordThen {k : Keyword} {f : Bool → Parser β} (yes : Goes few (f true))
    (no : Proceeds few begins (f false) d) : Proceeds few begins (Parser.eatKeyword k >>= f) d :=
  eaten (·.isKeyword k) rfl (eatKeyword_eq k) (Nat.le_succ few) yes no

theorem eatKeyword {k : Keyword} {q r : Parser β} (yes : Goes few q)
    (no : Proceeds few begins r d) :
    Proceeds few begins (Parser.eatKeyword k >>= fun found => if found then q else r) d :=
  eatKeywordThen yes no

theorem keyword {k : Keyword} {q r : Parser β} (next : Goes few q) (refuses : Refuses r) :
    Proceeds (few + 1) begins (Parser.eatKeyword k >>= fun found => if found then q else r) d :=
  eaten (·.isKeyword k) rfl (eatKeyword_eq k) (Nat.le_refl _) next (ofRefuses refuses)

theorem expect {m : Mark} {what : String} :
    Proceeds few begins (expect m what) fun _ => true := by
  unfold Parser.expect
  refine eaten (·.isMark m) rfl (eat_eq m) (Nat.le_succ few) ?_ (ofRefuses ?_)
  · exact .pure rfl
  · exact refuses_unexpected what

theorem name : Proceeds few begins name fun _ => true := by
  refine peek fun t _ => ?_
  cases t with
  | name word => exact (token (by nofun)).followed fun _ => .pure rfl
  | _ => exact .unexpected

theorem skipSemicolons {f : Unit → Parser β}
    (next : Proceeds few (· ≠ .mark .semi) (f ()) d) :
    Proceeds few begins (skipSemicolons >>= f) d := by
  intro s ready left _
  have later := skipSemicolons_later ready
  have skipped : Parser.skipSemicolons s = .ok ()
    { s with rest := s.rest.dropWhile (·.token.isMark .semi) } := rfl
  rw [bind_eq skipped]
  exact (next _ later.ready (later.length_le.trans left)
    (firstToken_dropSemicolons s.rest)).after later

theorem endOfStatement : Goes few endOfStatement := by
  refine peek fun t _ => ?_
  split
  · exact (token (by nofun)).weaken
  · exact .pure rfl
  · exact .pure rfl
  · exact .pure rfl
  · exact .unexpected

/-! ## Levels -/

/-- A parser gets on that another reading is made ready for, if only its level or depth differ. -/
theorem entered (change restore : Reading → Reading)
    (inside : ∀ t, (change t).rest = t.rest ∧ (change t).bound = t.bound)
    (outside : ∀ t, (restore t).rest = t.rest ∧ (restore t).bound = t.bound)
    (inner : Proceeds few begins p c) (ready : Ready s) (left : s.rest.length ≤ few)
    (first : begins (firstToken s.rest)) :
    Outcome s c ((p >>= fun a => do
      modify restore
      Pure.pure a) (change s)) := by
  obtain ⟨rest, bound⟩ := inside s
  have entry : Ready (change s) := by
    constructor
    · exact rest ▸ ready.ended
    · rw [rest, bound]
      exact ready.rounds
  refine Outcome.moved ?_ rest
  refine (inner (change s) entry (rest ▸ left) (rest ▸ first)).bind fun a s' later consumed => ?_
  obtain ⟨rest', bound'⟩ := outside s'
  have exit_ : Ready (restore s') := by
    constructor
    · exact rest'.symm ▸ later.ready.ended
    · rw [rest', bound']
      exact later.ready.rounds
  exact .ok ⟨exit_, rest'.symm ▸ later.onward⟩ fun consumes => rest'.symm ▸ consumed consumes

theorem nested (inner : Proceeds few begins p c) : Proceeds few begins (nested p) c := by
  intro s ready left first
  by_cases deep : maxNesting < s.depth + 1
  · obtain ⟨e, failed, _⟩ :=
      fail_run (α := Unit) .nestedTooDeeply { s with depth := s.depth + 1 }
    have refused : Parser.nested p s = .error e { s with depth := s.depth + 1 } := by
      unfold Parser.nested
      change (if _ then _ else _ : Parser α) _ = _
      rw [if_pos deep]
      exact bind_error failed _
    rw [refused]
    exact .error ⟨⟨ready.ended, ready.rounds⟩, List.suffix_rfl⟩ fun _ => deep
  · have inside := entered (fun t => { t with depth := t.depth + 1 })
      (fun t => { t with depth := t.depth - 1 }) (fun _ => ⟨rfl, rfl⟩) (fun _ => ⟨rfl, rfl⟩)
      inner ready left first
    unfold Parser.nested
    change Outcome s c ((if _ then _ else _ : Parser α) _)
    rw [if_neg deep]
    exact inside

theorem withLevel {change : Int → Int} (inner : Proceeds few begins p c) :
    Proceeds few begins (withLevel change p) c := fun s ready left first =>
  entered (fun t => { t with level := change s.level }) (fun t => { t with level := s.level })
    (fun _ => ⟨rfl, rfl⟩) (fun _ => ⟨rfl, rfl⟩) inner ready left first

theorem inHeader (inner : Proceeds few begins p c) : Proceeds few begins (inHeader p) c :=
  withLevel inner

theorem inBrackets (inner : Proceeds few begins p c) : Proceeds few begins (inBrackets p) c :=
  withLevel inner

/-! ## Loops -/

theorem turn {more : α → Bool} (round : Proceeds (few + 1) begins p more)
    (goesOn : ∀ a, more a = true → Goes few (f a))
    (ends : ∀ a, more a = false → Goes (few + 1) (f a)) :
    Proceeds (few + 1) begins (p >>= f) fun _ => false := by
  refine fun s ready left begins_ => (round s ready left begins_).bind fun a s' later consumed => ?_
  cases further : more a with
  | true =>
      have shorter := consumed further
      exact (goesOn a further s' later.ready (by omega) trivial).after later
  | false => exact (ends a further s' later.ready (later.length_le.trans left) trivial).after later

/-- There are rounds enough as long as there are more of them than tokens. -/
theorem rounds {loop : Nat → Parser α}
    (enough : ∀ rounds left, left < rounds → left ≤ few →
      Proceeds left (fun _ => True) (loop rounds) c) :
    Proceeds few begins (do loop ((← get).bound + 1)) c := fun s ready left _ =>
  enough (s.bound + 1) s.rest.length (Nat.lt_succ_of_le ready.rounds) left s ready
    (Nat.le_refl _) trivial

theorem collectFrom {round : List α → Parser (Piece α)} (turns : ∀ read, Turns few (round read)) :
    ∀ (rounds left : Nat), left < rounds → left ≤ few → ∀ read,
      Goes left (collectFrom round rounds read) := by
  intro rounds
  induction rounds with
  | zero => exact fun _ fewer => absurd fewer (Nat.not_lt_zero _)
  | succ rounds ih =>
      intro left fewer most read
      cases left with
      | zero => exact .empty
      | succ left =>
          unfold Parser.collectFrom
          refine ((turns read).anywhere most).turn (fun piece more => ?_) fun piece ends => ?_
          · cases piece with
            | more a => exact ih left (Nat.lt_of_succ_lt_succ fewer) (Nat.le_of_succ_le most) _
            | _ => cases more
          · cases piece with
            | more a => cases ends
            | _ => exact .pure rfl

theorem collectWith {round : List α → Parser (Piece α)} (turns : ∀ read, Turns few (round read)) :
    Goes few (collectWith round) :=
  .rounds fun rounds left fewer most => collectFrom turns rounds left fewer most []

end Proceeds

end

/-! ## Lists -/

/-- A parser repeats these rounds, each of which consumes a token or is the last one, and makes
something of what they read. -/
structure Loops {γ : Type} (few : Nat) (p : Parser γ) (makes : List α → γ)
    (round : List α → Parser (Piece α)) : Prop where
  repeats : p = makes <$> collectWith round
  turns : ∀ read, Turns few (round read)

theorem Loops.goes {γ : Type} {few : Nat} {p : Parser γ} {makes : List α → γ}
    {round : List α → Parser (Piece α)} (loops : Loops few p makes round) : Goes few p := by
  rw [loops.repeats]
  exact (Proceeds.collectWith loops.turns).map fun _ => rfl

section

variable {few : Nat}

/-- One round of a list whose entries semicolons end. -/
def entriesRound (closing : Mark) (entry : Parser α) : Parser (Piece α) := do
  skipSemicolons
  if ← eat closing then pure .stop
  else
    let a ← entry
    endOfStatement
    pure (.more a)

theorem entriesTo_loops (closing : Mark) {entry : Parser α} (consumes : Consumes few entry) :
    Loops few (entriesTo closing entry) id fun _ => entriesRound closing entry where
  repeats := (id_map _).symm
  turns _ := by
    refine .skipSemicolons (.eat (.pure rfl) ?_)
    exact consumes.here.followed fun _ =>
      Proceeds.endOfStatement.andThen fun _ => .pure rfl

/-- One round of a list with commas between its items. -/
def itemsRound (closing : Mark) (spelling : String) (item : List α → Parser α) (read : List α) :
    Parser (Piece α) := do
  skipSemicolons
  if ← eat closing then pure .stop
  else
    let a ← item read
    if ← eat .comma then pure (.more a)
    else
      skipSemicolons
      expect closing spelling
      pure (.last a)

theorem itemsTo_loops (closing : Mark) (spelling : String) {item : List α → Parser α}
    (consumes : ∀ read, Consumes few (item read)) :
    Loops few (itemsTo closing spelling item) id (itemsRound closing spelling item) where
  repeats := (id_map _).symm
  turns read := by
    refine .skipSemicolons (.eat (.pure rfl) ?_)
    refine (consumes read).here.followed fun _ => .eat (.pure rfl) ?_
    exact .skipSemicolons (Proceeds.expect.followed fun _ => .pure rfl)

/-- One round of a list that ends where no comma follows an item. -/
def commaRound (item : Parser α) : Parser (Piece α) := do
  let a ← item
  if ← eat .comma then pure (.more a) else pure (.last a)

theorem commaSeparated_loops {item : Parser α} (consumes : Consumes few item) :
    Loops few (commaSeparated item) id fun _ => commaRound item where
  repeats := (id_map _).symm
  turns _ := consumes.followed fun _ => .eat (.pure rfl) (.pure rfl)

theorem collect_consumes {round : Parser (Piece α)} (consumes : Consumes few round) :
    Consumes few (collect round) := by
  have loop (rounds left : Nat) (fewer : left < rounds) (most : left ≤ few) :
      Consumes left (collectFrom (fun _ => round) rounds []) := by
    obtain ⟨rounds, rfl⟩ := Nat.exists_eq_add_one.mpr (Nat.zero_lt_of_lt fewer)
    cases left with
    | zero => exact .empty
    | succ left =>
        unfold collectFrom
        refine (consumes.anywhere most).behind fun piece => ?_
        cases piece with
        | more a =>
            exact .collectFrom (fun _ => consumes.weaken) rounds left
              (Nat.lt_of_succ_lt_succ fewer) (Nat.le_of_succ_le most) _
        | _ => exact .pure rfl
  exact .rounds loop

/-- A list with commas between its items has one at least. -/
theorem commaSeparated_consumes {item : Parser α} (consumes : Consumes few item) :
    Consumes few (commaSeparated item) :=
  collect_consumes (consumes.followed fun _ => .eat (.pure rfl) (.pure rfl))

end

end Parser

end SandboxedGo.Source
