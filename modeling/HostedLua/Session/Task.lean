import HostedLua.Host.Recipe

/-! The tasks of a scripted host: what a session can be asked to do with its languages, states, handles,
scripts and runners. Values are given by recipes, and all else by the names of variables. -/

namespace HostedLua.Session

open Host

inductive Binding where
  | nobody
  | adapter (a : Adapter)
  /-- One that is not finished and so cannot be made. -/
  | unfinished
  deriving DecidableEq, Repr

inductive Flag where
  | hasIntegers
  | needsThreadClose
  /-- Closing threads is replaced by something that cannot be called. -/
  | closeThread
  deriving DecidableEq, Repr

inductive Task where
  | addLanguage (name : Text) (config : Option Recipe) (binding : Binding)
  | execute (source : Recipe)
  | finish
  | state
  | newState (config : Option Recipe)
  | runOn (on : Option Text) (source : Recipe)
  | closeState (on : Option Text)
  | isOpen (on : Option Text)
  | globals (on : Option Text)
  | newTable (on : Option Text)
  | setGlobal (on : Option Text) (name : Text) (value : Recipe)
  | tableFrom (on : Option Text) (value : Recipe)
  | setFlag (on : Option Text) (flag : Flag) (value : Bool)
  | setEncoding (on : Option Text) (value : Recipe)
  | capabilities (on : Option Text)
  | createThread (on : Option Text) (function : Text)
  | closeThread (on : Option Text) (handle : Text)
  | address (on : Option Text) (value : Recipe)
  /-- Runs a chunk on a state of its own that is given up at once. -/
  | orphan (source : Text)
  | wrap (kind : HandleKind) (value : Recipe)
  | give (value : Recipe)
  | drop (var : Text)
  /-- Converts a value to the form for Lua and back. -/
  | roundTrip (value : Recipe)
  | toGuest (value : Recipe)
  | toGuestValues (args : List Recipe)
  | toHostResult (status : ErrorStatus) (payload : Recipe)
  | text (value : Recipe)
  | print (value : Recipe) (indentWidth maxDepth level : Int)
  | valid (handle : Text)
  | sameState (on : Option Text) (handle : Text)
  | same (a b : Recipe)
  /-- Calls a value, directly or by its `invoke`. -/
  | call (isDirect : Bool) (function : Text) (args : List Recipe)
  | mapping (handle : Text)
  | get (handle : Text) (key default : Recipe)
  | createCoroutine (function : Recipe)
  | resume (coroutine : Text) (args : List Recipe)
  | status (coroutine : Text)
  | close (coroutine : Text)
  /-- Calls a function so many times. -/
  | repeatCall (function : Text) (times : Nat)
  | newScript (script : Text) (source : Text)
  | defaultScript (source : Text)
  | reload (script : Text) (keep : List Recipe)
  | loadSource (script : Text) (source : Text)
  | setSource (script : Text) (source : Text)
  | describeScript (script : Text)
  | instantiate (script : Text) (target : Recipe)
  | newRunner (runner : Text) (capture : List Recipe)
  | runChunk (runner : Text) (source : Recipe)
  | report (value : Recipe)
  | emit (topics : View) (args : List Recipe)
  | errors
  | clear

/-- A task in a language, with the variable that takes its result, and the depth to which tables in the
result are shown. -/
structure Step where
  task : Task
  language : Text := "main"
  save : Option Text := none
  deep : Nat := 0

end HostedLua.Session
