import SandboxedGo.Host
import SandboxedGo.Text.Quoted

/-!
# Bridges to the host

A bridge binds functions of the host under names.  A function takes one map of arguments, which may
be left out; a tool dispatcher takes the name of a tool and such a map.
-/

set_option autoImplicit false

namespace SandboxedGo

inductive HostError
  | failed (message : String)
  | invalidArguments (message : String)
  | unknownTool (name : String)
  deriving DecidableEq, Repr

namespace HostError

def message : HostError → String
  | failed message => message
  | invalidArguments message => "invalid arguments: " ++ message
  | unknownTool name => "unknown tool: " ++ name

end HostError

abbrev Arguments := List (String × Json)

inductive BridgeReply
  | value (j : Json)
  | error (e : HostError)
  | crash (message : String)

inductive Binding
  | function (respond : Arguments → BridgeReply)
  | tools (respond : (tool : String) → Arguments → BridgeReply)

namespace Json

def kind : Json → String
  | null => "null"
  | bool _ => "bool"
  | int _ | float _ => "number"
  | string _ => "string"
  | array _ => "array"
  | object _ => "object"

end Json

inductive CallFault
  | tooManyArguments (count : Nat)
  | notToolCall (count : Nat)
  | notMap (kind : String)
  | toolNameNotString (kind : String)
  deriving DecidableEq, Repr

namespace CallFault

def message : CallFault → String
  | tooManyArguments count => "expected at most 1 argument, got " ++ toString count
  | notToolCall count => "expected (name, args), got " ++ toString count ++ " arguments"
  | notMap kind => "expected a map argument, got " ++ kind
  | toolNameNotString kind => "tool name must be a string, got " ++ kind

end CallFault

/-- The map in a list of at most one argument. -/
def mapArgument : List Json → Except CallFault Arguments
  | [] | .null :: _ => .ok []
  | .object entries :: _ => .ok entries
  | j :: _ => .error (.notMap j.kind)

def Binding.reply (b : Binding) (arguments : List Json) : Except CallFault BridgeReply :=
  match b with
  | .function respond =>
    if 1 < arguments.length then .error (.tooManyArguments arguments.length)
    else (mapArgument arguments).map respond
  | .tools respond =>
    match arguments with
    | [.string tool] => .ok (respond tool [])
    | [.string tool, j] => (mapArgument [j]).map (respond tool)
    | [j] | [j, _] => .error (.toolNameNotString j.kind)
    | _ => .error (.notToolCall arguments.length)

def Binding.outcome (b : Binding) (name : String) (arguments : List Json) : HostOutcome :=
  match b.reply arguments with
  | .ok (.value j) => .value j
  | .ok (.error e) => .failure e.message
  | .ok (.crash message) => .crash message
  | .error fault => .failure (HostError.invalidArguments (name ++ ": " ++ fault.message)).message

/-- Names of the host with their bindings, in the order of the names. -/
structure Bridge where
  bindings : List (String × Binding) := []

namespace Bridge

/-- Bindings with one more; a binding of the same name is replaced. -/
def insertBinding (name : String) (b : Binding) : List (String × Binding) → List (String × Binding)
  | [] => [(name, b)]
  | (n, c) :: rest =>
    if name < n then (name, b) :: (n, c) :: rest
    else if name = n then (name, b) :: rest
    else (n, c) :: insertBinding name b rest

def bind (bridge : Bridge) (name : String) (b : Binding) : Bridge :=
  ⟨insertBinding name b bridge.bindings⟩

/-- The bridge of bindings, of which a later one of the same name counts. -/
def ofList (bindings : List (String × Binding)) : Bridge :=
  bindings.foldl (fun bridge b => bridge.bind b.1 b.2) {}

def names (bridge : Bridge) : List String := bridge.bindings.map Prod.fst

def isEmpty (bridge : Bridge) : Bool := bridge.bindings.isEmpty

def diagnostic (bridge : Bridge) : String :=
  "HostFunctionBridge \x7b names: " ++ Text.quoteDiagnosticList bridge.names ++ " \x7d"

/-- What a call under a name comes to; none if the name is not bound. -/
def call? (bridge : Bridge) (name : String) (arguments : List Json) : Option HostOutcome :=
  (bridge.bindings.lookup name).map fun b => b.outcome name arguments

def hostFunctions (bridge : Bridge) : List HostFunction :=
  bridge.bindings.map fun (name, b) => ⟨name, fun _ arguments => ⟨b.outcome name arguments, false⟩⟩

end Bridge

end SandboxedGo
