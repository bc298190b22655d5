import SandboxedGo.Text.Digits

/-!
# Log levels

The levels of the log, how they are written, and the filter that lets the sandbox log at a level
while everything else stays at warnings.
-/

set_option autoImplicit false

namespace SandboxedGo

inductive LogLevel
  | error | warn | info | debug | trace
  deriving DecidableEq, Repr

namespace LogLevel

/-- All levels, from the fewest messages to the most; a level may be named by its place, counted
from one. -/
def all : List LogLevel := [error, warn, info, debug, trace]

def name : LogLevel → String
  | error => "error"
  | warn => "warn"
  | info => "info"
  | debug => "debug"
  | trace => "trace"

def placeOf? : List Char → Option Nat
  | '+' :: digits => Text.numberIn? 10 digits
  | digits => Text.numberIn? 10 digits

def parse? (text : String) : Option LogLevel :=
  match placeOf? text.toList with
  | some (place + 1) => all[place]?
  | some 0 => none
  | none => all.find? fun level => text.toList.map Char.toLower = level.name.toList

/-- The parts of the sandbox that log. -/
def targets : List String := ["gobox_core", "gobox_interp"]

def directives (level : LogLevel) : String :=
  ",".intercalate ("warn" :: targets.map fun target => target ++ "=" ++ level.name)

end LogLevel

end SandboxedGo
