import SandboxedGo.Settings
import SandboxedGo.Toml.Reader

/-!
# Reading settings

Settings are read from a TOML document.  What the document does not mention keeps its default, and
what is no setting is left out of account.  A section may also be written as an array of its
settings in order.
-/

set_option autoImplicit false

namespace SandboxedGo

namespace Toml

def nat? : Toml → Option Nat
  | .int n => if 0 ≤ n then some n.toNat else none
  | _ => none

def string? : Toml → Option String
  | .string s => some s
  | _ => none

def strings? : Toml → Option (List String)
  | .array items => items.mapM string?
  | _ => none

def section? (names : List String) : Toml → Option Entries
  | .table _ entries => some entries
  | .array items => some (names.zip items)
  | .tables items => some (names.zip (items.map (.table .header)))
  | .date => some []
  | _ => none

/-- The value of a setting; the default if it is not mentioned, and none if it is of a wrong
kind. -/
def setting? {α : Type} (entries : Entries) (name : String) (read : Toml → Option α)
    (default : α) : Option α :=
  match entries.lookup name with
  | some value => read value
  | none => some default

end Toml

open Toml

def ResourceLimits.ofToml? (t : Toml) : Option ResourceLimits := do
  let entries ← section? ["memory_bytes", "timeout_ms"] t
  let default : ResourceLimits := {}
  return {
    memoryBytes := UInt64.ofNat (← setting? entries "memory_bytes" nat? default.memoryBytes.toNat)
    timeoutMilliseconds := ← setting? entries "timeout_ms" nat? default.timeoutMilliseconds }

def ValidationSettings.ofToml? (t : Toml) : Option ValidationSettings := do
  let entries ← section? ["max_source_bytes", "forbidden_imports", "forbidden_directives"] t
  let default : ValidationSettings := {}
  return {
    maxSourceBytes := ← setting? entries "max_source_bytes" nat? default.maxSourceBytes
    forbiddenImports := ← setting? entries "forbidden_imports" strings? default.forbiddenImports
    forbiddenDirectives :=
      ← setting? entries "forbidden_directives" strings? default.forbiddenDirectives }

def CacheSettings.ofToml? (t : Toml) : Option CacheSettings := do
  let entries ← section? ["max_entries", "max_bytes"] t
  let default : CacheSettings := {}
  return {
    maxEntries := ← setting? entries "max_entries" nat? default.maxEntries
    maxBytes := ← setting? entries "max_bytes" nat? default.maxBytes }

def ToolchainSettings.ofToml? (t : Toml) : Option ToolchainSettings := do
  let entries ← section? ["program", "target", "opt_level", "timeout_secs", "extra_args"] t
  let default : ToolchainSettings := {}
  return {
    program := ← setting? entries "program" string? default.program
    target := ← setting? entries "target" string? default.target
    optLevel := ← setting? entries "opt_level" string? default.optLevel
    timeoutSeconds := ← setting? entries "timeout_secs" nat? default.timeoutSeconds
    extraArguments := ← setting? entries "extra_args" strings? default.extraArguments }

def InterpreterSettings.ofToml? (t : Toml) : Option InterpreterSettings := do
  let entries ← section?
    ["pool_size", "max_steps", "max_call_depth", "max_alloc", "output_cap_bytes", "bridge_name"] t
  let default : InterpreterSettings := {}
  return {
    poolSize := ← setting? entries "pool_size" nat? default.poolSize
    maxSteps := ← setting? entries "max_steps" (fun v => (nat? v).map some) default.maxSteps
    maxCallDepth := ← setting? entries "max_call_depth" nat? default.maxCallDepth
    maxAlloc := ← setting? entries "max_alloc" nat? default.maxAlloc
    outputCapacity := ← setting? entries "output_cap_bytes" nat? default.outputCapacity
    bridgeName := ← setting? entries "bridge_name" string? default.bridgeName }

namespace Settings

def ofEntries? (entries : Entries) : Option Settings := do
  return {
    limits := ← setting? entries "limits" ResourceLimits.ofToml? {}
    validation := ← setting? entries "validation" ValidationSettings.ofToml? {}
    cache := ← setting? entries "cache" CacheSettings.ofToml? {}
    toolchain := ← setting? entries "toolchain" ToolchainSettings.ofToml? {}
    interpreter := ← setting? entries "interpreter" InterpreterSettings.ofToml? {} }

inductive ReadFault
  /-- The text is no document, or a setting is of a wrong kind. -/
  | malformed
  | invalid (fault : SettingsFault)
  deriving DecidableEq, Repr

def ReadFault.message : ReadFault → String
  | malformed => "invalid config"
  | invalid fault => "invalid config: " ++ fault.message

def read (text : String) : Except ReadFault Settings :=
  match (Toml.parse? text).bind ofEntries? with
  | none => .error .malformed
  | some settings =>
    match settings.fault? with
    | some fault => .error (.invalid fault)
    | none => .ok settings

end Settings

end SandboxedGo
