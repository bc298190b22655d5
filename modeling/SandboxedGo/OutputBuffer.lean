import SandboxedGo.Text.Utf8

/-!
# Captured output

A buffer keeps the first bytes written to it, up to its capacity, and remembers whether some did
not fit.
-/

set_option autoImplicit false

namespace SandboxedGo

/-- The first bytes written to a stream. -/
structure OutputBuffer where
  capacity : Nat
  bytes : ByteArray := ByteArray.empty
  truncated : Bool := false

namespace OutputBuffer

/-- What stands behind the text of a buffer that did not hold everything. -/
def truncationMarker : String := "\n... [output truncated]"

def size (b : OutputBuffer) : Nat := b.bytes.size

/-- Write bytes; those that do not fit are dropped. -/
def write (b : OutputBuffer) (bytes : ByteArray) : OutputBuffer :=
  let room := b.capacity - b.bytes.size
  if bytes.size ≤ room then { b with bytes := b.bytes ++ bytes }
  else { b with bytes := b.bytes ++ bytes.extract 0 room, truncated := true }

def writeText (b : OutputBuffer) (text : String) : OutputBuffer := b.write text.toUTF8

/-- The text of a buffer, with the marker behind it if bytes were dropped. -/
def contents (b : OutputBuffer) : String :=
  Text.ofBytes b.bytes ++ (if b.truncated then truncationMarker else "")

end OutputBuffer

/-!
## Handles of captured output

A run and its host hold handles of a buffer.  A clone of a handle refers to the same buffer, so the
host reads through its own handle what the run has written through another one.  Only one handle
writes at a time, so what happens to all handles is one sequence of events.
-/

/-- What happens to handles, which are numbered in the order in which they are made. -/
inductive OutputEvent
  /-- A new buffer and its first handle. -/
  | create (capacity : Nat)
  /-- Another handle of the buffer of a handle. -/
  | clone (handle : Nat)
  | write (handle : Nat) (bytes : ByteArray)

structure OutputHandles where
  buffers : List OutputBuffer := []
  /-- The place of the buffer that each handle refers to. -/
  targets : List Nat := []

namespace OutputHandles

def buffer? (t : OutputHandles) (handle : Nat) : Option OutputBuffer := do
  t.buffers[← t.targets[handle]?]?

def contents? (t : OutputHandles) (handle : Nat) : Option String :=
  (t.buffer? handle).map OutputBuffer.contents

def create (t : OutputHandles) (capacity : Nat) : OutputHandles :=
  ⟨t.buffers ++ [{ capacity := capacity }], t.targets ++ [t.buffers.length]⟩

/-- Another handle of a buffer. -/
def refer (t : OutputHandles) (target : Nat) : OutputHandles :=
  { t with targets := t.targets ++ [target] }

def write (t : OutputHandles) (target : Nat) (bytes : ByteArray) : OutputHandles :=
  { t with buffers := t.buffers.modify target (·.write bytes) }

/-- What an event leads to; none if there is no such handle. -/
def after? (t : OutputHandles) : OutputEvent → Option OutputHandles
  | .create capacity => some (t.create capacity)
  | .clone handle => t.targets[handle]?.map t.refer
  | .write handle bytes => t.targets[handle]?.map (t.write · bytes)

def run? (t : OutputHandles) (events : List OutputEvent) : Option OutputHandles :=
  events.foldlM after? t

end OutputHandles

end SandboxedGo
