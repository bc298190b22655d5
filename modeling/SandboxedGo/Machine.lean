import SandboxedGo.Host
import SandboxedGo.Machine.Causes
import SandboxedGo.OutputBuffer
import SandboxedGo.Store

/-!
# The state of a run

A machine is the whole state of a running guest program.  It is nested by who may touch what: the
program works on a `Guest`; the `Scene` adds what the host sees of the run, which only grows; the
machine itself adds the limits and the books that are kept about calls.

A computation may end early in two ways.  A `Signal` belongs to the program, which may handle it.  A
`Halt` ends the whole run.
-/

set_option autoImplicit false

namespace SandboxedGo

open Source

inductive TypeDecl
  | struct (def_ : StructDef) (fieldTypes : List TypeExpr)
  /-- Another name for a type that is no struct. -/
  | synonym (type : TypeExpr)

/-- The declared types of a program by their names. -/
abbrev TypeTable := Table TypeDecl

/-- A call put off to the end of the function. -/
structure Deferred where
  function : Value
  arguments : List Value

/-- What an address may be asked of. -/
inductive Pointee
  | struct (o : StructId)
  | cell (c : CellId)
  | error (id : Nat)

/-- Addresses for a run to which the host gives none: no two are the same. -/
def Pointee.apart : Pointee → Nat
  | .struct o => 0xc000000000 + 48 * o.index
  | .cell c => 0xc000000010 + 48 * c.index
  | .error id => 0xc000000020 + 48 * id

/-- What a run may use up, and what else is settled before it begins. -/
structure Limits where
  /-- The step budget; without one only the host stops the run. -/
  maxSteps : Option Nat := none
  maxCallDepth : Nat := 1000
  /-- The greatest number of elements in a slice, and of bytes in a text, built in one step. -/
  maxAlloc : Nat := Nat.pow 2 24
  /-- The step from which on the host wants the run to stop. -/
  stopAt : Option Nat := none
  /-- Where the memory of the host puts things.  A run that asks for an address which is not given
  is left unfinished. -/
  addresses : Pointee → Option Nat := some ∘ Pointee.apart

/-- What a computation may end with so that the program around it can handle it. -/
inductive Signal
  /-- A panic of the guest program, which it may recover. -/
  | panic (cause : Panic)
  | error (cause : RuntimeError)
  -- control of the program itself
  | «break»
  | «continue»
  | «return» (v : Value)

namespace Signal

/-- Whether a signal is a panic or an error, and no jump out of a statement. -/
def isFault : Signal → Bool
  | .panic _ | .error _ => true
  | .break | .continue | .return _ => false

end Signal

abbrev Fault := { s : Signal // s.isFault = true }

/-- Why a whole run ends; the program does not get to see it. -/
inductive Halt
  | interrupted
  | budgetExhausted (budget : Nat)
  | stackOverflow (depth : Nat)
  | exit (code : Int)
  /-- A function of the host broke down. -/
  | hostCrash (message : String)
  /-- The evaluation does not come to an end: it was given too few rounds or too few addresses, or
  a walk has no answer. -/
  | unfinished
  deriving DecidableEq, Repr

inductive Stop
  | signal (s : Signal)
  | halt (h : Halt)

structure Guest where
  store : Store := {}
  types : TypeTable := ∅
  /-- Methods by the name of their type and their own name. -/
  methods : List ((String × String) × FuncDecl) := []
  /-- The imported packages by their names in the program. -/
  imports : Table Library.Package := ∅
  /-- The line of the statement that is executed. -/
  line : Nat := 0
  /-- The next number for an error or a struct type. -/
  nextId : Nat := 0

/-- What a step of the budget is spent on, apart from calls of the host. -/
inductive Undertaking
  | statement
  /-- A round of a loop. -/
  | round
  /-- A function of the program. -/
  | function
  | libraryCall
  deriving DecidableEq, Repr

structure Tally where
  statements : Nat := 0
  rounds : Nat := 0
  functions : Nat := 0
  libraryCalls : Nat := 0

namespace Tally

def count (t : Tally) : Undertaking → Tally
  | .statement => { t with statements := t.statements + 1 }
  | .round => { t with rounds := t.rounds + 1 }
  | .function => { t with functions := t.functions + 1 }
  | .libraryCall => { t with libraryCalls := t.libraryCalls + 1 }

def total (t : Tally) : Nat := t.statements + t.rounds + t.functions + t.libraryCalls

end Tally

/-- What a run has come to: the program's own world, and what the host sees of it. -/
structure Scene extends Guest where
  stdout : OutputBuffer
  stderr : OutputBuffer
  hostCalls : Array HostCall := #[]
  /-- What the host answered to each of its calls. -/
  hostReplies : Array HostReply := #[]
  stopRequested : Bool := false
  steps : Nat := 0
  /-- How many pieces of work were begun: expressions, statements, calls and texts. -/
  works : Nat := 0
  /-- What was begun of that which costs a step, apart from the calls in `hostCalls`. -/
  tally : Tally := {}

structure Machine extends Scene where
  limits : Limits := {}
  hostFunctions : Array HostFunction := #[]
  depth : Nat := 0
  /-- The deferred calls of the running functions, innermost first; those of one function in
  reverse. -/
  deferred : List (List Deferred) := []
  /-- The text of the panic that runs through deferred calls. -/
  panicking : Option Value := none
  /-- Every halt that was raised, latest first, and the scene at that moment. -/
  endings : List (Halt × Scene) := []

/-- The scope of the top-level declarations, which is the first scope of a store. -/
def globalScope : ScopeId := ⟨0⟩

namespace Machine

def isStopRequested (m : Machine) : Bool :=
  m.stopRequested ||
    (match m.limits.stopAt with
     | some step => step ≤ m.steps
     | none => false)

def stepped (m : Machine) : Machine := { m with steps := m.steps + 1 }

def working (m : Machine) : Machine := { m with works := m.works + 1 }

def undertaking (u : Undertaking) (m : Machine) : Machine := { m with tally := m.tally.count u }

def replied (call : HostCall) (reply : HostReply) (m : Machine) : Machine :=
  { m with
    hostCalls := m.hostCalls.push call
    hostReplies := m.hostReplies.push reply
    stopRequested := m.stopRequested || reply.interrupts }

def written (stream : Library.Stream) (text : String) (m : Machine) : Machine :=
  match stream with
  | .stdout => { m with stdout := m.stdout.writeText text }
  | .stderr => { m with stderr := m.stderr.writeText text }

def deeper (m : Machine) : Machine := { m with depth := m.depth + 1 }

def shallower (m : Machine) : Machine := { m with depth := m.depth - 1 }

def framed (m : Machine) : Machine := { m with deferred := [] :: m.deferred }

def unframed (m : Machine) : Machine := { m with deferred := m.deferred.tail }

def innermost (m : Machine) : List Deferred := m.deferred.headD []

def withPanic (panic : Option Value) (m : Machine) : Machine := { m with panicking := panic }

end Machine

end SandboxedGo
