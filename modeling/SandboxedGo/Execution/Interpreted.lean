import SandboxedGo.Bridge
import SandboxedGo.Execution.Failure
import SandboxedGo.Interpreter
import SandboxedGo.Run
import SandboxedGo.Settings

/-!
# Interpreted executions

A program is run by an instance from the pool, or by a fresh one if it has a bridge to the host.
The host watches the run and asks it to stop when its time is over, that is after as many steps as
the computer gets through in that time.  An instance goes back to the pool unless its run was
stopped or broke down.
-/

set_option autoImplicit false

namespace SandboxedGo

/-!
## A pool of instances

Up to a fixed number of idle instances are kept; the one given back last is handed out first.  When
none is idle a fresh one is handed out instead, and one that is given back to a full pool is
dropped.
-/

/-- Idle instances, at most `capacity` of them, the last one given back first. -/
structure Pool (α : Type) where
  capacity : Nat
  idle : List α

namespace Pool

variable {α : Type}

def filled (capacity : Nat) (instance_ : α) : Pool α :=
  ⟨capacity, List.replicate capacity instance_⟩

/-- An instance, and the pool without it; the fresh one if none is idle. -/
def acquire (p : Pool α) (fresh : α) : α × Pool α :=
  match p.idle with
  | [] => (fresh, p)
  | a :: rest => (a, { p with idle := rest })

def release (p : Pool α) (a : α) : Pool α :=
  if p.idle.length < p.capacity then { p with idle := a :: p.idle } else p

def available (p : Pool α) : Nat := p.idle.length

end Pool

/-! ## Executions -/

/-- The computer that runs are carried out on. -/
structure HostMachine where
  /-- How many steps a run gets through in so much time. -/
  stepsWithin : Duration → Nat := fun time => 2000 * time.milliseconds
  /-- Where objects of a run are put. -/
  addresses : Pointee → Option Nat := some ∘ Pointee.apart

structure InterpretedBackend where
  pool : Pool Interpreter
  limits : ResourceLimits
  settings : InterpreterSettings
  host : HostMachine

structure ExecutionRequest where
  source : String
  /-- The time it may take, if that is not the one of the settings. -/
  timeout : Option Duration := none
  bridge : Option Bridge := none
  /-- Whether the caller has canceled the execution. -/
  canceled : Bool := false

namespace InterpretedBackend

def make (limits : ResourceLimits) (settings : InterpreterSettings) (host : HostMachine := {}) :
    InterpretedBackend :=
  ⟨.filled settings.poolSize {}, limits, settings, host⟩

def timeLimit (b : InterpretedBackend) (request : ExecutionRequest) : Duration :=
  request.timeout.getD b.limits.timeout

def runOptions (b : InterpretedBackend) (request : ExecutionRequest) : RunOptions where
  limits :=
    { maxSteps := b.settings.maxSteps
      maxCallDepth := b.settings.maxCallDepth
      maxAlloc := b.settings.maxAlloc
      stopAt := some (b.host.stepsWithin (b.timeLimit request))
      addresses := b.host.addresses }
  stdoutCapacity := b.settings.outputCapacity
  stderrCapacity := b.settings.outputCapacity
  hostFunctions := (request.bridge.map Bridge.hostFunctions).getD []
  stopRequested := request.canceled

/-- Why the host stopped a run, if it did: a canceled run is stopped at once, and any other that
was interrupted has used up its time. -/
def stopReason (request : ExecutionRequest) (failure : Option RunFailure) : StopReason :=
  if request.canceled then .canceled
  else
    match failure with
    | some .interrupted => .deadline
    | _ => .running

/-- Whether a run leaves its instance fit for another one. -/
def leavesReusable (reason : StopReason) (failure : Option RunFailure) : Bool :=
  match reason, failure with
  | .running, some (.hostCrash _) => false
  | .running, _ => true
  | _, _ => false

def execute (b : InterpretedBackend) (request : ExecutionRequest) :
    ExecutionResult × InterpretedBackend :=
  let report := runSource request.source (b.runOptions request)
  let reason := stopReason request report.failure
  let result :=
    { stdout := report.stdout.contents
      stderr := report.stderr.contents
      failure :=
        classifyRun (report.failure.map RunFailure.report) reason (b.timeLimit request) }
  match request.bridge with
  | some _ => (result, b)
  | none =>
    let (used, pool) := b.pool.acquire {}
    let pool := if leavesReusable reason report.failure then pool.release used else pool
    (result, { b with pool })

end InterpretedBackend

/-!
## Concurrent runs over one pool

Runs that execute at the same time share a pool, but hold it only while they take an instance or
give one back: others may do so in between.  A run with a bridge to the host works with an instance
of its own, which neither comes from the pool nor goes into it.
-/

inductive RunStage (α : Type)
  | waiting
  | holding (a : α)
  /-- The instance was given back, even if a full pool has dropped it. -/
  | returned
  /-- The instance was not given back. -/
  | lost

structure PoolRun (α : Type) where
  bridged : Bool
  stage : RunStage α := .waiting

inductive RunStep (α : Type)
  /-- Take an instance, which is the fresh one if none is idle. -/
  | acquire (fresh : α)
  /-- The outcome of the run has come. -/
  | report (reason : StopReason) (failure : Option RunFailure)
  /-- No outcome comes: the thread of the run did not start, or it was abandoned. -/
  | vanish

/-- A step of a run, and what it does to the pool; none if it is not the next one. -/
def Pool.advance? {α : Type} (p : Pool α) (bridged : Bool) :
    RunStage α → RunStep α → Option (RunStage α × Pool α)
  | .waiting, .acquire fresh =>
    if bridged then some (.holding fresh, p)
    else
      let (a, rest) := p.acquire fresh
      some (.holding a, rest)
  | .holding a, .report reason failure =>
    if !bridged && InterpretedBackend.leavesReusable reason failure then
      some (.returned, p.release a)
    else some (.lost, p)
  | .holding _, .vanish => some (.lost, p)
  | _, _ => none

inductive PoolEvent (α : Type)
  | begin (bridged : Bool)
  /-- A step of the run with a number. -/
  | step (i : Nat) (step : RunStep α)

/-- A pool and the runs over it, in the order in which they begin. -/
structure PoolTraffic (α : Type) where
  pool : Pool α
  runs : List (PoolRun α) := []

namespace PoolTraffic

variable {α : Type}

def opened (capacity : Nat) (instance_ : α) : PoolTraffic α :=
  { pool := .filled capacity instance_ }

/-- What an event leads to; none if it cannot happen. -/
def after? (t : PoolTraffic α) : PoolEvent α → Option (PoolTraffic α)
  | .begin bridged => some { t with runs := t.runs ++ [{ bridged := bridged }] }
  | .step i step =>
    match t.runs[i]? with
    | some run =>
      match t.pool.advance? run.bridged run.stage step with
      | some (stage, pool) => some ⟨pool, t.runs.set i { run with stage }⟩
      | none => none
    | none => none

def run? (t : PoolTraffic α) (events : List (PoolEvent α)) : Option (PoolTraffic α) :=
  events.foldlM after? t

end PoolTraffic

end SandboxedGo
