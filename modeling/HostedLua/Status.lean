import HostedLua.Text.Basic

/-! The numbered outcomes that hosts and scripts see: of calls, of coroutines, of reloading a script. -/

namespace HostedLua

inductive ErrorStatus where
  | ok | yielded | runtime | badSource | memory | collector | handler | file
  deriving DecidableEq, Repr

namespace ErrorStatus

/-- All outcomes in the order of their numbers. -/
def all : List ErrorStatus := [.ok, .yielded, .runtime, .badSource, .memory, .collector, .handler, .file]

/-- The number of an outcome. -/
def code : ErrorStatus → Nat
  | .ok => 0 | .yielded => 1 | .runtime => 2 | .badSource => 3
  | .memory => 4 | .collector => 5 | .handler => 6 | .file => 7

def name : ErrorStatus → String
  | .ok => "OK" | .yielded => "YIELDED" | .runtime => "RUNTIME" | .badSource => "SYNTAX"
  | .memory => "MEMORY" | .collector => "GC" | .handler => "HANDLER" | .file => "FILE"

def ofName? (t : Text) : Option ErrorStatus := all.find? fun s => (s.name : Text) == t

end ErrorStatus

inductive CoroutineStatus where
  | ok | yield | runtime | badSource | memory | handler
  deriving DecidableEq, Repr

namespace CoroutineStatus

/-- All outcomes in the order of their numbers. -/
def all : List CoroutineStatus := [.ok, .yield, .runtime, .badSource, .memory, .handler]

/-- The number of an outcome, that of the matching outcome of a call. -/
def code : CoroutineStatus → Nat
  | .ok => 0 | .yield => 1 | .runtime => 2 | .badSource => 3 | .memory => 4 | .handler => 6

def name : CoroutineStatus → String
  | .ok => "OK" | .yield => "YIELD" | .runtime => "ERRRUN" | .badSource => "ERRSYNTAX"
  | .memory => "ERRMEM" | .handler => "ERRERR"

/-- The outcome of a resumption from that of its call; collector failures count as memory failures,
and file failures as runtime errors. -/
def ofStatus : ErrorStatus → CoroutineStatus
  | .ok => .ok
  | .yielded => .yield
  | .badSource => .badSource
  | .memory | .collector => .memory
  | .handler => .handler
  | .runtime | .file => .runtime

end CoroutineStatus

inductive ReloadStatus where
  | ok | failed | outOfMemory | scriptFailed | parseError
  deriving DecidableEq, Repr

namespace ReloadStatus

/-- All outcomes in the order of their numbers. -/
def all : List ReloadStatus := [.ok, .failed, .outOfMemory, .scriptFailed, .parseError]

/-- The number of an outcome. -/
def code : ReloadStatus → Nat
  | .ok => 0 | .failed => 1 | .outOfMemory => 6 | .scriptFailed => 39 | .parseError => 43

def name : ReloadStatus → String
  | .ok => "OK" | .failed => "FAILED" | .outOfMemory => "OUT_OF_MEMORY"
  | .scriptFailed => "SCRIPT_FAILED" | .parseError => "PARSE_ERROR"

/-- The outcome of a reload whose run failed. -/
def ofStatus : ErrorStatus → ReloadStatus
  | .memory | .collector => .outOfMemory
  | .badSource => .parseError
  | _ => .scriptFailed

end ReloadStatus

inductive ScriptState where
  | unloaded | valid | invalid
  deriving DecidableEq, Repr

namespace ScriptState

def all : List ScriptState := [.unloaded, .valid, .invalid]

def name : ScriptState → String
  | .unloaded => "UNLOADED" | .valid => "VALID" | .invalid => "INVALID"

def text : ScriptState → String
  | .unloaded => "unloaded" | .valid => "valid" | .invalid => "invalid"

end ScriptState

/-- A failure inside Lua as an ordinary value: an outcome and a message. -/
structure LuaError where
  status : ErrorStatus := .runtime
  message : Text := []
  deriving DecidableEq, Repr

namespace LuaError

def text (e : LuaError) : Text := e.status.name ++ ": " ++ e.message

end LuaError

end HostedLua
