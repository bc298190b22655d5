import SandboxedGo.Digest

/-!
# The cache of artifacts

Artifacts are kept under the digests of their sources, from the most to the least recently used,
within a limit on their number and a limit on their bytes.  What is used least recently gives way.
-/

set_option autoImplicit false

namespace SandboxedGo

structure Artifact where
  bytes : ByteArray

namespace Artifact

def size (a : Artifact) : Nat := a.bytes.size

def diagnostic (a : Artifact) : String := "CompiledArtifact(" ++ toString a.size ++ " bytes)"

end Artifact

/-- Artifacts in the order of their last use. -/
structure ArtifactCache where
  maxEntries : Nat
  maxBytes : Nat
  /-- The most recently used first. -/
  entries : List (Digest × Artifact) := []
  totalBytes : Nat := 0

namespace ArtifactCache

/-- How many entries there may be; there is always room for one. -/
def entryLimit (c : ArtifactCache) : Nat := max 1 c.maxEntries

def size (c : ArtifactCache) : Nat := c.entries.length

def peek? (c : ArtifactCache) (key : Digest) : Option Artifact := c.entries.lookup key

def contains (c : ArtifactCache) (key : Digest) : Bool := (c.peek? key).isSome

def promote (c : ArtifactCache) (key : Digest) : ArtifactCache :=
  match c.peek? key with
  | some a => { c with entries := (key, a) :: c.entries.filter (·.1 ≠ key) }
  | none => c

/-- The artifact of a digest, which counts as a use. -/
def get? (c : ArtifactCache) (key : Digest) : Option Artifact × ArtifactCache :=
  (c.peek? key, c.promote key)

/-- The entries with a new one in front, and the artifact that gave way to it: the former one of
the digest, or the least recently used if there are as many entries as there may be. -/
def push (limit : Nat) (key : Digest) (a : Artifact) (entries : List (Digest × Artifact)) :
    List (Digest × Artifact) × Option Artifact :=
  match entries.lookup key with
  | some former => ((key, a) :: entries.filter (·.1 ≠ key), some former)
  | none =>
    if entries.length < limit then ((key, a) :: entries, none)
    else ((key, a) :: entries.dropLast, entries.getLast?.map Prod.snd)

/-- The entries, least recently used first, without the first ones as long as their bytes together
are more than `maxBytes`. -/
def shrink (maxBytes : Nat) : List (Digest × Artifact) → (bytes : Nat) →
    List (Digest × Artifact) × Nat
  | [], bytes => ([], bytes)
  | e :: rest, bytes =>
    if maxBytes < bytes then shrink maxBytes rest (bytes - e.2.size) else (e :: rest, bytes)

/-- Keep an artifact; one that is larger than all may be together is not kept. -/
def insert (c : ArtifactCache) (key : Digest) (a : Artifact) : ArtifactCache :=
  if c.maxBytes < a.size then c
  else
    let (entries, displaced) := push c.entryLimit key a c.entries
    let bytes := c.totalBytes + a.size - (displaced.map Artifact.size).getD 0
    let (kept, total) := shrink c.maxBytes entries.reverse bytes
    { c with entries := kept.reverse, totalBytes := total }

def clear (c : ArtifactCache) : ArtifactCache := { c with entries := [], totalBytes := 0 }

end ArtifactCache

end SandboxedGo
