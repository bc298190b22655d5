import SandboxedGo.Eval.Perform
import SandboxedGo.FailureReport
import SandboxedGo.Source.Parser

/-!
# Running a program

A run loads the declarations of a program, lends it the functions of the host, initialises its
variables, and calls its `init` functions and `main`.  How it ends is one of a few kinds of failure,
or success; leaving with status zero is success.
-/

set_option autoImplicit false

namespace SandboxedGo

open Source

inductive RunFailure
  | parse (e : ParseError)
  /-- A panic that nothing recovered, and the line of the statement that was executed. -/
  | panic (line : Nat) (cause : Panic)
  | runtime (line : Nat) (cause : RuntimeError)
  | interrupted
  | budgetExhausted (budget : Nat)
  | stackOverflow (depth : Nat)
  | exit (code : Int)
  /-- A function of the host broke down. -/
  | hostCrash (message : String)
  | unfinished

namespace RunFailure

/-- A message with its line; line zero stands for no line. -/
def atLine (line : Nat) (message : String) : String :=
  if 0 < line then "line " ++ toString line ++ ": " ++ message else message

def report : RunFailure → FailureReport
  | parse e => .syntaxError e.position e.fault.message
  | panic line cause => .panic (atLine line ("panic: " ++ cause.message))
  | runtime line cause => .runtime (atLine line cause.message)
  | interrupted => .interrupted
  | budgetExhausted budget => .budgetExhausted budget
  | stackOverflow depth => .stackOverflow depth
  | exit code => .exit code
  | hostCrash message => .crash (some message)
  | unfinished => .unfinished

def message (f : RunFailure) : String := f.report.message

/-- The failure that a signal is which leaves the program at a line. -/
def ofSignal (line : Nat) : Signal → RunFailure
  | .panic cause => .panic line cause
  | .error cause => .runtime line cause
  | .break => .runtime line .breakOutsideLoop
  | .continue => .runtime line .continueOutsideLoop
  | .return _ => .runtime line .returnOutsideFunction

/-- The failure that the end of a run is; none if it is no failure. -/
def ofHalt? : Halt → Option RunFailure
  | .interrupted => some .interrupted
  | .budgetExhausted budget => some (.budgetExhausted budget)
  | .stackOverflow depth => some (.stackOverflow depth)
  | .exit code => if code = 0 then none else some (.exit code)
  | .hostCrash message => some (.hostCrash message)
  | .unfinished => some .unfinished

def ofStop? (line : Nat) : Stop → Option RunFailure
  | .signal s => some (ofSignal line s)
  | .halt h => ofHalt? h

end RunFailure

namespace Eval

/-! ## Loading -/

def importPackage (i : Import) : Eval Unit := do
  match Library.Package.ofPath? i.path with
  | none => error (.unavailablePackage i.path)
  | some p =>
    let name := i.localName
    if name = "_" then return
    if name = "." then error .dotImport
    changeGuest fun g => { g with imports := g.imports.put name p }

def declareTypes : Decl → Eval Unit
  | .types specs => specs.forM declareType
  | _ => pure ()

/-- Make a method known; a later one of the same name replaces it. -/
def declareMethod (type : String) (decl : FuncDecl) : Eval Unit :=
  changeGuest fun g =>
    { g with methods := ((type, decl.name), decl) :: g.methods.filter (·.1 ≠ (type, decl.name)) }

/-- Declare the function of a declaration; those called `init` are only kept for later. -/
def declareFunction : Decl → Eval (Option FuncDecl)
  | .func decl =>
    match decl.receiver with
    | some receiver => do
      declareMethod receiver.typeName decl
      return none
    | none =>
      if decl.name = "init" then return some decl
      else do
        define globalScope decl.name (.func (.closure decl.name decl.function globalScope)) none
        return none
  | _ => pure none

/-- Lend functions of the host to the program, from a place on; they hide declarations of the same
name. -/
def lendFunctions (place : Nat) : List HostFunction → Eval Unit
  | [] => pure ()
  | f :: rest => do
    define globalScope f.name (.func (.host f.name place)) none
    lendFunctions (place + 1) rest

def declareValues : Decl → Eval Unit
  | .var specs => specs.forM fun spec => declare spec false globalScope
  | .const specs => specs.forM fun spec => declare spec true globalScope
  | _ => pure ()

def start (decl : FuncDecl) : Eval Unit := do
  setLine decl.line
  let _ ← callFunction (.func (.closure decl.name decl.function globalScope)) []

/-! ## Running -/

def program (hostFunctions : List HostFunction) (p : Program) : Eval Unit := do
  if p.package ≠ "main" then error (.notMainPackage p.package)
  p.imports.forM importPackage
  p.decls.forM declareTypes
  let inits ← p.decls.filterMapM declareFunction
  lendFunctions 0 hostFunctions
  p.decls.forM (declareValues)
  inits.forM (start)
  match ← viewStore (·.localVariable? globalScope "main") with
  | none => error .missingMain
  | some found =>
    let _ ← callFunction (← readCell found.cell) []

end Eval

structure RunOptions where
  limits : Limits := {}
  stdoutCapacity : Nat := Nat.pow 2 20
  stderrCapacity : Nat := Nat.pow 2 20
  hostFunctions : List HostFunction := []
  /-- Whether the host has asked the run to stop before it starts. -/
  stopRequested : Bool := false

structure RunReport where
  failure : Option RunFailure
  stdout : OutputBuffer
  stderr : OutputBuffer
  hostCalls : Array HostCall

/-- The type for building strings, whose first field is the text built so far. -/
def builderDecl : TypeDecl :=
  .struct ⟨0, builderType, [⟨"buf", false, none, false⟩]⟩ [.named "string"]

def Machine.initial (options : RunOptions) : Machine where
  store := (({} : Store).newScope none).2
  types := (∅ : TypeTable).put builderType builderDecl
  hostFunctions := options.hostFunctions.toArray
  limits := options.limits
  stdout := { capacity := options.stdoutCapacity }
  stderr := { capacity := options.stderrCapacity }
  stopRequested := options.stopRequested
  nextId := 1

/-- The depth of the runs that are carried out.  It is large, since evaluation is nested deeper the
longer the source is and the more steps it may take. -/
def evaluationDepth (source : String) (limits : Limits) : Nat :=
  match limits.maxSteps with
  | some budget => min (Nat.pow 2 62) ((budget + 2) * (source.utf8ByteSize + 1000))
  | none => Nat.pow 2 62

def RunReport.ofResult : EStateM.Result Stop Machine Unit → RunReport
  | .ok _ m => ⟨none, m.stdout, m.stderr, m.hostCalls⟩
  | .error stop m => ⟨RunFailure.ofStop? m.line stop, m.stdout, m.stderr, m.hostCalls⟩

/-- Run a program from the beginning, with evaluation nested at most `depth` deep: how it ends, and
the machine it leaves. -/
def runProgramTo (depth : Nat) (p : Program) (options : RunOptions) :
    EStateM.Result Stop Machine Unit :=
  (Eval.program options.hostFunctions p).run (Evaluator.ofDepth depth) (Machine.initial options)

def runProgram (source : String) (p : Program) (options : RunOptions) :
    EStateM.Result Stop Machine Unit :=
  runProgramTo (evaluationDepth source options.limits) p options

def runSourceTo (depth : Nat) (source : String) (options : RunOptions) : RunReport :=
  match parseProgram source with
  | .error e =>
    let m := Machine.initial options
    ⟨some (.parse e), m.stdout, m.stderr, m.hostCalls⟩
  | .ok p => RunReport.ofResult (runProgramTo depth p options)

def runSource (source : String) (options : RunOptions) : RunReport :=
  runSourceTo (evaluationDepth source options.limits) source options

end SandboxedGo
