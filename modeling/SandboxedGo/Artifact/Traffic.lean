import Mathlib.Algebra.GroupWithZero.Nat
import SandboxedGo.Artifact.Compiler

/-!
# The use of a cache, and concurrent compilation

Callers that share a cache hold no lock between their steps.  A lookup is two of them: it reads the
artifact, and it notes its use, which may come late, after other callers have done more, or not at
all.  A caller that is alone makes whole requests instead.

Calls to one compiler that run at the same time share its cache in this way: others may look up,
keep or clear artifacts in between.  A toolchain may answer each build differently, so its answer is
part of the step that brings it.
-/

set_option autoImplicit false

namespace SandboxedGo

/-! ## Steps of callers -/

def bytesTogether (entries : List (Digest × Artifact)) : Nat := (entries.map (·.2.size)).sum

inductive CacheStep
  | insert (key : Digest) (artifact : Artifact)
  /-- Read the artifact of a digest. -/
  | look (key : Digest)
  /-- Note the use of an artifact, whatever has become of it. -/
  | promote (key : Digest)
  | contains (key : Digest)
  | clear

inductive CacheRequest
  | insert (key : Digest) (artifact : Artifact)
  | get (key : Digest)
  | contains (key : Digest)
  | clear

inductive CacheAnswer
  | done
  | got (artifact : Option Artifact)
  | contained (answer : Bool)

namespace ArtifactCache

/-- The cache after a step.  Looking and asking change nothing. -/
def after (c : ArtifactCache) : CacheStep → ArtifactCache
  | .insert key artifact => c.insert key artifact
  | .look _ | .contains _ => c
  | .promote key => c.promote key
  | .clear => c.clear

def afterAll (c : ArtifactCache) (steps : List CacheStep) : ArtifactCache := steps.foldl after c

def answer (c : ArtifactCache) : CacheRequest → CacheAnswer × ArtifactCache
  | .insert key artifact => (.done, c.insert key artifact)
  | .get key => (.got (c.get? key).1, (c.get? key).2)
  | .contains key => (.contained (c.contains key), c)
  | .clear => (.done, c.clear)

def answers (c : ArtifactCache) : List CacheRequest → List CacheAnswer × ArtifactCache
  | [] => ([], c)
  | request :: rest =>
    let (first, next) := c.answer request
    let (others, last) := next.answers rest
    (first :: others, last)

/-! ## Counting without a loss -/

/-- A difference, unless more is to be taken away than there is. -/
def minus? (total part : Nat) : Option Nat := if part ≤ total then some (total - part) else none

/-- `shrink`, unless an entry has more bytes than are counted. -/
def shrink? (maxBytes : Nat) : List (Digest × Artifact) → (bytes : Nat) →
    Option (List (Digest × Artifact) × Nat)
  | [], bytes => some ([], bytes)
  | e :: rest, bytes =>
    if maxBytes < bytes then (minus? bytes e.2.size).bind (shrink? maxBytes rest)
    else some (e :: rest, bytes)

/-- `insert`, unless one of its subtractions takes away more bytes than are counted. -/
def insert? (c : ArtifactCache) (key : Digest) (a : Artifact) : Option ArtifactCache :=
  if c.maxBytes < a.size then some c
  else do
    let (entries, displaced) := push c.entryLimit key a c.entries
    let bytes ← minus? (c.totalBytes + a.size) ((displaced.map Artifact.size).getD 0)
    let (kept, total) ← shrink? c.maxBytes entries.reverse bytes
    some { c with entries := kept.reverse, totalBytes := total }

end ArtifactCache

/-! ## Concurrent calls -/

inductive Progress
  | begun
  /-- The cache had the artifact; its use is not noted yet. -/
  | hit (artifact : Artifact)
  | missed
  | building
  /-- The build made the artifact, which is not kept yet. -/
  | built (artifact : Artifact)
  | returned (result : Except CompilationError Artifact)

structure Call where
  source : String
  progress : Progress := .begun

inductive CallStep
  | look
  /-- Note the use of an artifact. -/
  | promote
  /-- Go without that, while another call holds the cache. -/
  | pass
  | invoke
  | finish (result : Except CompilationError Artifact)
  | store

/-- A step of a call for a source; none if it is not the next one. -/
def Compiler.advance? (c : Compiler) (source : String) :
    Progress → CallStep → Option (Progress × Compiler)
  | .begun, .look =>
    match c.cache.peek? (Digest.ofText source) with
    | some artifact => some (.hit artifact, c)
    | none => some (.missed, c)
  | .hit artifact, .promote =>
    some (.returned (.ok artifact), { c with cache := c.cache.promote (Digest.ofText source) })
  | .hit artifact, .pass => some (.returned (.ok artifact), c)
  | .missed, .invoke => some (.building, { c with builds := c.builds + 1 })
  | .building, .finish (.ok artifact) => some (.built artifact, c)
  | .building, .finish (.error e) => some (.returned (.error e), c)
  | .built artifact, .store => some (.returned (.ok artifact), c.store source (.ok artifact))
  | _, _ => none

inductive Event
  | call (source : String)
  | clear
  /-- A step of the call with a number. -/
  | step (i : Nat) (step : CallStep)

/-- A compiler and the calls to it, in the order in which they begin. -/
structure Traffic where
  compiler : Compiler
  calls : List Call := []

namespace Traffic

def opened (maxEntries maxBytes : Nat) : Traffic :=
  { compiler := { cache := { maxEntries, maxBytes } } }

def sources (t : Traffic) : List String := t.calls.map Call.source

/-- What an event leads to; none if it cannot happen. -/
def after? (t : Traffic) : Event → Option Traffic
  | .call source => some { t with calls := t.calls ++ [{ source }] }
  | .clear => some { t with compiler := t.compiler.clear }
  | .step i step =>
    match t.calls[i]? with
    | some call =>
      match t.compiler.advance? call.source call.progress step with
      | some (progress, compiler) => some ⟨compiler, t.calls.set i { call with progress }⟩
      | none => none
    | none => none

def run? (t : Traffic) : List Event → Option Traffic
  | [] => some t
  | e :: rest =>
    match t.after? e with
    | some next => next.run? rest
    | none => none

end Traffic

def history (i : Nat) : List Event → List CallStep
  | [] => []
  | .step j step :: rest => if j = i then step :: history i rest else history i rest
  | _ :: rest => history i rest

end SandboxedGo
