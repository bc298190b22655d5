import SandboxedGo.Duration
import SandboxedGo.Submission.HostCalls
import SandboxedGo.Submission.Policy

/-!
# Settings of a sandbox

Limits, the policy for programs, the cache, the toolchain and the interpreter.  Everything has a
default.  The memory limit is counted in pages; the computation is done in sixty-four bits.
-/

set_option autoImplicit false

namespace SandboxedGo

structure ResourceLimits where
  memoryBytes : UInt64 := 64 * 1024 * 1024
  timeoutMilliseconds : Nat := 30000

namespace ResourceLimits

def pageSize : UInt64 := 65536

def timeout (l : ResourceLimits) : Duration := ⟨l.timeoutMilliseconds⟩

def memoryPages (l : ResourceLimits) : UInt64 :=
  l.memoryBytes / pageSize + (if l.memoryBytes % pageSize = 0 then 0 else 1)

def memoryCeiling (l : ResourceLimits) : UInt64 := l.memoryPages * pageSize

end ResourceLimits

structure ValidationSettings where
  maxSourceBytes : Nat := 256 * 1024
  forbiddenImports : List String :=
    ["os/exec", "syscall", "unsafe", "plugin", "net", "net/http", "net/rpc", "runtime/cgo", "C"]
  forbiddenDirectives : List String :=
    ["//go:linkname", "//go:embed", "//export", "//go:wasmimport", "#cgo"]

def ValidationSettings.policy (s : ValidationSettings) : Submission.Policy :=
  .make s.maxSourceBytes s.forbiddenImports s.forbiddenDirectives

structure CacheSettings where
  maxEntries : Nat := 256
  maxBytes : Nat := 256 * 1024 * 1024

structure ToolchainSettings where
  program : String := "tinygo"
  target : String := "wasi"
  optLevel : String := "z"
  timeoutSeconds : Nat := 120
  extraArguments : List String := []

namespace ToolchainSettings

def timeout (s : ToolchainSettings) : Duration := .ofSeconds s.timeoutSeconds

def arguments (s : ToolchainSettings) (source output : String) : List String :=
  ["build", "-o", output, "-target=" ++ s.target, "-opt=" ++ s.optLevel, "-no-debug"] ++
    s.extraArguments ++ [source]

end ToolchainSettings

structure InterpreterSettings where
  poolSize : Nat := 5
  /-- The step budget of a run; without one only the timeout bounds it. -/
  maxSteps : Option Nat := none
  maxCallDepth : Nat := 1000
  /-- The greatest number of elements in a slice, and of bytes in a text, built in one step. -/
  maxAlloc : Nat := 16 * 1024 * 1024
  /-- How many bytes of each output stream are kept. -/
  outputCapacity : Nat := 1024 * 1024
  /-- The name under which the host is bound. -/
  bridgeName : String := Submission.canonicalHostCall

structure Settings where
  limits : ResourceLimits := {}
  validation : ValidationSettings := {}
  cache : CacheSettings := {}
  toolchain : ToolchainSettings := {}
  interpreter : InterpreterSettings := {}

inductive SettingsFault
  | timeoutZero
  | memoryBelowPage
  | cacheWithoutEntries
  | blankProgram
  | allocationZero
  | bridgeNameNotIdentifier (name : String)
  deriving DecidableEq, Repr

namespace SettingsFault

def message : SettingsFault → String
  | timeoutZero => "limits.timeout_ms must be positive"
  | memoryBelowPage =>
    "limits.memory_bytes must be at least one page (" ++
      toString ResourceLimits.pageSize.toNat ++ " bytes)"
  | cacheWithoutEntries => "cache.max_entries must be positive"
  | blankProgram => "toolchain.program must not be empty"
  | allocationZero => "interpreter.max_alloc must be positive"
  | bridgeNameNotIdentifier name =>
    "interpreter.bridge_name " ++ Text.quoteDiagnostic name ++ " is not a Go identifier"

end SettingsFault

namespace Settings

def fault? (s : Settings) : Option SettingsFault :=
  if s.limits.timeoutMilliseconds = 0 then some .timeoutZero
  else if s.limits.memoryBytes < ResourceLimits.pageSize then some .memoryBelowPage
  else if s.cache.maxEntries = 0 then some .cacheWithoutEntries
  else if (Text.trim s.toolchain.program.toList).isEmpty then some .blankProgram
  else if s.interpreter.maxAlloc = 0 then some .allocationZero
  else if !Submission.isIdentifier s.interpreter.bridgeName then
    some (.bridgeNameNotIdentifier s.interpreter.bridgeName)
  else none

end Settings

end SandboxedGo
