import SandboxedGo.Eval.Assignment

/-!
# Statements

A statement counts as one step, and so does every round of a loop.  Blocks have scopes of their own;
the variables of a loop are new in every round.
-/

set_option autoImplicit false

namespace SandboxedGo.Eval

open Source

/-! ## Loops -/

/-- Execute the body of a loop; whether the loop goes on. -/
def loopBody (body : List Stmt) (scope : ScopeId) : Flow Bool := do
  match ← outcome (block body scope) with
  | .ok _ | .error .continue => return true
  | .error .break => return false
  | .error s => Flow.raise s

/-- Whether the condition of a loop holds; an absent one does. -/
def condition (e : Option Expr) (scope : ScopeId) : Eval Bool := do
  match e with
  | none => return true
  | some e => asBool (← eval e scope)

/-- Declare the variables of a loop anew with the values that they have. -/
def renewVariables (scope next : ScopeId) : List String → Eval Unit
  | [] => pure ()
  | name :: rest => do
    match ← viewStore (·.localVariable? scope name) with
    | some found => define next name (← readCell found.cell) none
    | none => pure ()
    renewVariables scope next rest

/-- One round of a loop with a condition; `inner` is the scope of its variables.  The scope for the
next round, if there is one. -/
def round (names : List String) (test : Option Expr) (post : Option Stmt) (body : List Stmt)
    (scope inner : ScopeId) : Flow (Option ScopeId) := do
  undertake .round (pure ())
  if ← condition test inner then
    if ← loopBody body (← newScope inner) then
      let next ←
        if names.isEmpty then pure inner
        else do
          let next ← newScope scope
          renewVariables inner next names
          pure next
      match post with
      | some s => Flow.exec s next
      | none => pure ()
      return some next
    else return none
  else return none

/-- The names that the statement in front of a loop declares. -/
def loopNames : Option Stmt → List String
  | some (.mk _ (.define names _)) => names
  | _ => []

def execOptional (s : Option Stmt) (scope : ScopeId) : Flow Unit :=
  match s with
  | some s => Flow.exec s scope
  | none => pure ()

def forLoop (init : Option Stmt) (test : Option Expr) (post : Option Stmt) (body : List Stmt)
    (scope : ScopeId) : Flow Unit := do
  let inner ← newScope scope
  execOptional init inner
  loop (round (loopNames init) test post body scope) inner

/-! ## Ranges -/

structure RangeLoop where
  key : Option Expr
  value : Option Expr
  /-- Whether key and value are declared anew in every round. -/
  define : Bool
  body : List Stmt
  scope : ScopeId

namespace RangeLoop

def declareName (inner : ScopeId) (target : Option Expr) (v : Value) : Eval Unit :=
  match target with
  | some (.name name) => Eval.define inner name v none
  | _ => pure ()

def assignTarget (l : RangeLoop) (target : Option Expr) (v : Value) : Eval Unit :=
  match target with
  | some e => assign e v l.scope
  | none => pure ()

/-- One round; whether the loop goes on. -/
def round (l : RangeLoop) (key value : Value) : Flow Bool := do
  undertake .round (pure ())
  let inner ← newScope l.scope
  if l.define then
    declareName inner l.key key
    if l.value.isSome then declareName inner l.value (← copied value)
  else
    assignTarget l l.key key
    if l.value.isSome then assignTarget l l.value (← copied value)
  loopBody l.body inner

/-- Rounds over the elements of a slice from a place on; each element is read when its round
begins. -/
def overElements (l : RangeLoop) (items : SliceView) :
    (left : Nat) → (place : Nat) → Flow Unit
  | 0, _ => pure ()
  | left + 1, place => do
    let item ← viewStore (·.element items place)
    if ← l.round (.int (Int64.ofNat place)) item then
      overElements l items left (place + 1)

/-- Rounds over the entries that a map had at the beginning; keys that are gone are left out. -/
def overEntries (l : RangeLoop) (entries : Option MapId) :
    List (MapKey × Value) → Flow Unit
  | [] => pure ()
  | (key, v) :: rest => do
    if (← viewStore fun s => entries.bind (s.mapLookup · key)).isNone then
      overEntries l entries rest
    else if ← l.round key.toValue v then overEntries l entries rest

def overChars (l : RangeLoop) : (place : Nat) → List Char → Flow Unit
  | _, [] => pure ()
  | place, c :: rest => do
    if ← l.round (.int (Int64.ofNat place)) (.int (Int64.ofNat c.toNat)) then
      overChars l (place + c.utf8Size) rest

def overNumbers (l : RangeLoop) : (left : Nat) → (n : Int64) → Flow Unit
  | 0, _ => pure ()
  | left + 1, n => do
    if ← l.round (.int n) .nil then overNumbers l left (n + 1)

def run (l : RangeLoop) (subject : Value) : Flow Unit := do
  match subject with
  | .slice items => l.overElements items items.length 0
  | .map entries _ => l.overEntries entries (← viewStore (·.mapList entries))
  | .string s => l.overChars 0 s.toList
  | .int n =>
    if l.value.isSome then error .rangeOverInt
    else l.overNumbers n.toInt.toNat 0
  | .nil => pure ()
  | other => error (.notRangeable (← typeName other))

end RangeLoop

/-! ## Switches -/

/-- Whether one of the values of a case is the one that a switch is on; without a tag, whether one
of them is true. -/
def anyHit (tag : Option Value) (scope : ScopeId) : List Expr → Eval Bool
  | [] => pure false
  | e :: rest => do
    let v ← eval e scope
    let hit ← match tag with
      | some tag => equal tag v
      | none => asBool v
    if hit then return true
    anyHit tag scope rest

def hitCases (tag : Option Value) (scope : ScopeId) :
    List SwitchCase → Eval (List SwitchCase)
  | [] => pure []
  | c :: rest => do
    if ← anyHit tag scope c.values then return c :: rest
    hitCases tag scope rest

/-- Whether a body ends by going on to the next case. -/
def fallsThrough (body : List Stmt) : Bool :=
  match body.getLast? with
  | some (.mk _ .fallthrough) => true
  | _ => false

/-- Execute the body of a case; whether it was left early. -/
def caseBody (body : List Stmt) (scope : ScopeId) : Flow Bool := do
  match ← outcome (block body scope) with
  | .ok _ => return false
  | .error .break => return true
  | .error s => Flow.raise s

/-- Execute the first case, and those that it falls through to. -/
def runCases (scope : ScopeId) : List SwitchCase → Flow Unit
  | [] => pure ()
  | c :: rest => do
    let left ← caseBody c.body (← newScope scope)
    if !left && fallsThrough c.body then runCases scope rest

def switch (init : Option Stmt) (tag : Option Expr) (cases : List SwitchCase)
    (scope : ScopeId) : Flow Unit := do
  let inner ← newScope scope
  execOptional init inner
  let tag ← match tag with
    | some e => some <$> eval e inner
    | none => pure none
  match ← hitCases tag inner cases with
  | [] => runCases inner (cases.dropWhile fun c => !c.isDefault)
  | hits => runCases inner hits

/-- Whether a value is of the type of a case; an absent type stands for nil. -/
def hasCaseType (g : Guest) (v : Value) : Option TypeExpr → Option Bool
  | some ty => g.hasType? v ty
  | none =>
    match v with
    | .nil => some true
    | _ => some false

/-- The case that a value belongs to, if there is one. -/
def typeCase (g : Guest) (v : Value) (cases : List TypeCase) : Option (Option TypeCase) :=
  cases.findM? fun c => c.types.anyM (hasCaseType g v)

/-- A value as the variable of a case sees it: of the type of the case if there is just one. -/
def caseValue (c : TypeCase) (v : Value) : Eval Value :=
  match c.types with
  | [some ty] => adapt ty v
  | _ => pure v

def typeSwitch (init : Option Stmt) (binding : Option String) (subject : Expr)
    (cases : List TypeCase) (scope : ScopeId) : Flow Unit := do
  let inner ← newScope scope
  execOptional init inner
  let v ← eval subject inner
  let chosen ← match ← ofWalk (← view (typeCase · v cases)) with
    | some c => do pure (some (c, ← caseValue c v))
    | none => pure ((cases.find? (·.isDefault)).map fun c => (c, v))
  match chosen with
  | none => return
  | some (c, bound) =>
    let body ← newScope inner
    match binding with
    | some name => define body name bound none
    | none => pure ()
    let _ ← caseBody c.body body

/-! ## Other statements -/

/-- Put off a call: function and arguments are evaluated now. -/
def defer (e : Expr) (scope : ScopeId) : Eval Unit := do
  match e with
  | .call callee es spread =>
    let function ← match callee with
      | .select base name => do
        if (← packageName? base scope).isSome then eval callee scope
        else methodValue (← eval base scope) name
      | _ => eval callee scope
    let given ← arguments es scope
    putOff function (← if spread then expandSpread given else pure given)
  | _ => error .deferWithoutCall

def stepped (up : Bool) (v : Value) : Eval Value := do
  match v with
  | .int n => return .int (if up then n + 1 else n - 1)
  | .float f => return .float (if up then f + 1 else f - 1)
  | other => error (.notNumeric (← typeName other))

/-- What a `return` statement carries. -/
def returned (es : List Expr) (scope : ScopeId) : Eval Value := do
  match es with
  | [] => return .noResults
  | [e] => eval e scope
  | _ => return .tuple (← es.mapM fun e => eval e scope)

def branch (init : Option Stmt) (test : Expr) (body : List Stmt)
    (otherwise : Option Stmt) (scope : ScopeId) : Flow Unit := do
  let inner ← newScope scope
  execOptional init inner
  if ← asBool (← eval test inner) then block body (← newScope inner)
  else execOptional otherwise inner

def execute (s : Stmt) (scope : ScopeId) : Flow Unit := do
  setLine s.line
  undertake .statement (pure ())
  match s.kind with
  | .empty | .fallthrough => pure ()
  | .expr e => let _ ← eval e scope
  | .var spec => declare spec false scope
  | .const spec => declare spec true scope
  | .typeDecl spec => declareType spec
  | .define names values => defineShort names values scope
  | .assign targets values =>
    assignEach scope targets (← rightSide values targets.length scope)
  | .opAssign op target value =>
    let old ← eval target scope
    let operand ← eval value scope
    assign target (← binary op old operand) scope
  | .increment target => assign target (← stepped true (← eval target scope)) scope
  | .decrement target => assign target (← stepped false (← eval target scope)) scope
  | .block body => block body (← newScope scope)
  | .if init test body otherwise => branch init test body otherwise scope
  | .for init test post body => forLoop init test post body scope
  | .range key value define subject body =>
    RangeLoop.run ⟨key, value, define, body, scope⟩ (← eval subject scope)
  | .switch init tag cases => switch init tag cases scope
  | .typeSwitch init binding subject cases => typeSwitch init binding subject cases scope
  | .return es => Flow.raise (.return (← returned es scope))
  | .break => Flow.raise .break
  | .continue => Flow.raise .continue
  | .defer e => defer e scope

end SandboxedGo.Eval
