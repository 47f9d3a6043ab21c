import HostedLua.Host.Limits
import HostedLua.Host.View
import HostedLua.Lua.Parser

/-! The world of a host: its objects, the Lua states with their machines, languages, scripts, side
effects and records. A `Bridge` computation changes the world and may raise a fault; it has no outcome
if Lua code runs on without end. -/

namespace HostedLua

open Host

/-- How the threads of a state that nothing holds any more are closed. -/
inductive Closing where
  | byHand
  /-- They are left to Lua. -/
  | spared
  /-- What closes them cannot be called. -/
  | refused
  deriving DecidableEq, Repr

/-- A Lua state: its options, its diagnostics, its machine, and what it remembers about itself. -/
structure LuaState where
  config : Nat
  diagnostics : Nat
  isOpen : Bool := true
  /-- The set that strings cross in, fixed when the state was opened. -/
  charset : Charset
  unpackTuples : Bool := true
  machine : Lua.Machine
  /-- The variable that holds the table of globals, around every chunk. -/
  globals : Nat
  /-- The function that makes a Lua function of any callable one. -/
  wrapper : Lua.Value := .nil
  closing : Closing := .byHand
  hasIntegers : Bool := true
  /-- The fault raised last by the host inside of Lua that has not been raised again. -/
  pending : Option Fault := none

def LuaState.needsThreadClose (s : LuaState) : Bool := s.closing ≠ .spared

inductive Adapter where
  /-- Notes what it is given. -/
  | record
  /-- Leaves making them to nobody. -/
  | unimplemented
  deriving DecidableEq, Repr

/-- The scripting language: its options and diagnostics, its adapter and its state, if one was made. -/
structure Language where
  config : Nat
  diagnostics : Nat
  adapter : Option Adapter := none
  state : Option Nat := none

/-- A script: its source, the table that its run gave, and its state. -/
structure Script where
  language : Nat
  source : Text
  loaded : Option Nat := none
  state : ScriptState := .unloaded

/-- Runs chunks and packages the outcome; it may capture what Lua prints. -/
structure Runner where
  language : Nat
  capture : Bool := true
  /-- The state whose `print` it has taken over. -/
  bound : Option Nat := none

/-- The world of a host. -/
structure World where
  limits : Limits := {}
  objects : Array Object := #[.nothing]
  configs : Array Config := #[]
  diagnostics : Array (List Effect) := #[]
  states : Array LuaState := #[]
  languages : Array Language := #[]
  scripts : Array Script := #[]
  runners : Array Runner := #[]
  bindings : List (Text × Value) := []
  /-- Containers by the names that recipes gave them. -/
  names : List (Text × Value) := []
  /-- The language that scripts belong to by default. -/
  singleton : Option Nat := none
  /-- Values that a computation under way holds. -/
  held : List Value := []
  /-- States that a computation under way holds. -/
  heldStates : List Nat := []
  /-- Warnings and errors that were logged, the last one first. -/
  logs : List Text := []
  /-- The arguments of callbacks, the last call first. -/
  calls : List (List View) := []
  /-- The text that Lua printed outside of any capture. -/
  output : Bytes := []

/-- A computation in the world of a host. -/
abbrev Bridge := ExceptT Fault (StateT World Option)

/-- What Lua code and callbacks come to when the host calls them: it is given by whoever runs them. -/
structure Engine where
  /-- Runs a program on the machine of a state, on its main thread. -/
  run : (state : Nat) → Lua.Prog → Bridge (Except Lua.Thrown (List Lua.Value))
  /-- Calls a callback. -/
  callback : Callback → List Value → Bridge Value

namespace Bridge

def raise {α : Type} (kind : String) (text : Text) : Bridge α := throw (.of kind text)

/-- There is no outcome. -/
def diverge {α : Type} : Bridge α := fun _ => none

/-- Runs a computation and gives what it raises. -/
def attempt {α : Type} (x : Bridge α) : Bridge (Except Fault α) := fun w =>
  match x w with
  | none => none
  | some (.ok a, w) => some (.ok (.ok a), w)
  | some (.error f, w) => some (.ok (.error f), w)

def object (id : Nat) : Bridge Object := do return ((← get).objects[id]?).getD .nothing

def newObject (o : Object) : Bridge Value := modifyGet fun w =>
  (.obj w.objects.size, { w with objects := w.objects.push o })

/-- The first object that is of a kind; it is added where there is none. -/
def soleObject (isIt : Object → Bool) (o : Object) : Bridge Value := do
  match (← get).objects.findIdx? isIt with
  | some id => return .obj id
  | none => newObject o

def setObject (id : Nat) (o : Object) : Bridge Unit := modify fun w =>
  { w with objects := w.objects.set! id o }

def newTuple (vs : List Value) : Bridge Value := newObject (.tuple vs)

def state? (id : Nat) : Bridge (Option LuaState) := do return (← get).states[id]?

def modifyState (id : Nat) (f : LuaState → LuaState) : Bridge Unit := modify fun w =>
  { w with states := w.states.modify id f }

/-- Changes the memory of a state. -/
def modifyHeap (id : Nat) (f : Lua.Heap → Lua.Heap) : Bridge Unit :=
  modifyState id fun s => { s with machine := { s.machine with heap := f s.machine.heap } }

/-- Logs a warning or an error. -/
def log (text : Text) : Bridge Unit := modify fun w => { w with logs := text :: w.logs }

def logError (text : Text) : Bridge Unit := log ("ERROR: " ++ text)

def logWarning (text : Text) : Bridge Unit := log ("WARNING: " ++ text)

/-- Notes the arguments of a call. -/
def noteCall (args : List View) : Bridge Unit := modify fun w => { w with calls := args :: w.calls }

def variableNamed? (name : Text) : Bridge (Option Value) := do
  return (← get).bindings.lookup name

def setVariable (name : Text) (v : Value) : Bridge Unit := modify fun w =>
  { w with bindings := w.bindings.filter (·.1 ≠ name) ++ [(name, v)] }

/-- Holds values and a state while something is computed. -/
def holding {α : Type} (vs : List Value) (state : Nat) (x : Bridge α) : Bridge α := do
  let w ← get
  set { w with held := vs ++ w.held, heldStates := state :: w.heldStates }
  let r ← attempt x
  modify fun v => { v with held := w.held, heldStates := w.heldStates }
  match r with
  | .ok a => return a
  | .error f => throw f

end Bridge

end HostedLua
