import HostedLua.Fault
import HostedLua.Lua.Machine

/-! The host's values. Scalars are values of their own; all else is an object with an identity, a
number that the `World` gives an `Object` to. -/

namespace HostedLua.Host

inductive Member where
  | error (s : ErrorStatus)
  | coroutine (s : CoroutineStatus)
  | reload (s : ReloadStatus)
  deriving DecidableEq, Repr

namespace Member

def code : Member → Nat
  | .error s => s.code
  | .coroutine s => s.code
  | .reload s => s.code

def enumeration : Member → String
  | .error _ => "ErrorStatus"
  | .coroutine _ => "CoroutineStatus"
  | .reload _ => "ReloadStatus"

def name : Member → String
  | .error s => s.name
  | .coroutine s => s.name
  | .reload s => s.name

end Member

inductive Value where
  | none
  | bool (b : Bool)
  | int (i : Int)
  | float (x : Float)
  | text (t : Text)
  | bytes (b : Bytes)
  | member (m : Member)
  | obj (id : Nat)

inductive HandleKind where
  | plain | table | function | subFunction | coroutine
  deriving DecidableEq, Repr

namespace HandleKind

def name : HandleKind → String
  | .plain => "LuaHandle" | .table => "LuaTable" | .function => "LuaFunction"
  | .subFunction => "SubFunction" | .coroutine => "LuaCoroutine"

def label : HandleKind → String
  | .plain => "LuaObject" | .table => "LuaTable" | .function | .subFunction => "LuaFunction"
  | .coroutine => "LuaCoroutine"

/-- Handles that can be called. -/
def isFunction : HandleKind → Bool
  | .function | .subFunction => true
  | _ => false

end HandleKind

/-- A handle: the state and the value it stands for, and for a coroutine the function it was made
from, whether it owns its thread, what the last resumption came to, and whether it was closed. -/
structure Handle where
  kind : HandleKind
  state : Nat
  guest : Value
  function : Option Nat := Option.none
  owns : Bool := false
  status : CoroutineStatus := .yield
  closed : Bool := false

/-- A Lua value as the host first gets it: the state it belongs to, and whether it stands for a thread
that has not run, whose function it is. -/
structure Guest where
  state : Nat
  value : Lua.Value
  unstarted : Bool := false

/-- What a callback does with its arguments, which it notes first. -/
inductive Action where
  /-- Gives them back as a group. -/
  | args
  | const (v : Value)
  | raise (f : Fault)
  | invoke (var : Text)
  | resume (var : Text)
  | close (var : Text)
  | finish

inductive Callback where
  | action (a : Action) (language : Nat)
  /-- Records its arguments as text on the diagnostics. -/
  | capture (diagnostics : Nat)
  /-- Makes an error of an outcome and a message: the class of errors. -/
  | errorClass

inductive Object where
  /-- Stands for no value where Lua holds it as an object. -/
  | nothing
  | list (items : List Value)
  | tuple (items : List Value)
  | dict (items : List (Value × Value))
  /-- A mapping that cannot be written. -/
  | proxy (items : List (Value × Value))
  | byteArray (b : Bytes)
  | thing (name : Text)
  /-- A mapping whose walk gives one item and then fails. -/
  | badItems (text : Text)
  | error (e : LuaError) (isSub : Bool)
  | fault (f : Fault)
  | callback (c : Callback)
  | handle (h : Handle)
  | guest (g : Guest)
  | state (id : Nat)
  | script (id : Nat)
  | runner (id : Nat)
  /-- A value with a text of its own and nothing else to it. -/
  | shown (typeName text : Text)
  /-- A value whose text cannot be made: a fault is raised instead. -/
  | mute (typeName : Text) (f : Fault)
  /-- Anything else, by the name of its type. -/
  | other (typeName : Text)

/-- The options of a Lua state and of the scripts in it, as they were given. -/
structure Config where
  encoding : Value := .text "UTF-8"
  maxMemory : Value := .none
  unpackTuples : Value := .bool true
  registerEval : Value := .bool false
  registerBuiltins : Value := .bool false
  defaultBaseType : Value := .text "RefCounted"

namespace Value

/-- All values but none, false, zeros and empty text count as true; of objects see `World.truthy`. -/
def scalarTruthy : Value → Bool
  | .none => false
  | .bool b => b
  | .int i => i ≠ 0
  | .float x => !(x == 0.0)
  | .text t => !t.isEmpty
  | .bytes b => !b.isEmpty
  | .member m => m.code ≠ 0
  | .obj _ => true

/-- The whole number that a value is, members and truth values included. -/
def int? : Value → Option Int
  | .int i => some i
  | .bool b => some (if b then 1 else 0)
  | .member m => some m.code
  | _ => Option.none

def ofString (s : String) : Value := .text s

end Value

end HostedLua.Host
