import HostedLua.Lua.Heap

/-! What remains to be done by a running thread. A `Prog` is a tree of steps: a step works on memory or
asks the machine for something, a call, a resumption, a look at the stack, and goes on with the answer.
The evaluator and the library only build programs; `Machine` runs them. -/

namespace HostedLua.Lua

/-- The variables in force, the innermost first, and the further arguments of the function. -/
structure Env where
  cells : List Nat
  extra : List Value

inductive Exit where
  | normal
  | leave
  | goto (name : Bytes)
  | ret (vs : List Value)

inductive Task where
  | block (base rest : Block) (env : Env)
  | whileLoop (c : Expr) (body : Block) (env : Env)
  | forInt (count : Nat) (i step : Int64) (body : Block) (env : Env)
  | forFloat (i limit step : Float) (body : Block) (env : Env)
  | forEach (line : Nat) (f state control : Value) (count : Nat) (body : Block) (env : Env)

/-- How the code at hand names a value: the kind of name and the name. -/
structure Naming where
  kind : String
  name : Bytes

/-- Where an operation happens: the line of the code, if Lua code does it, and the name of the value
called. -/
structure Site where
  line : Option Nat
  naming : Option Naming

/-- A function on the stack: itself, what its caller names it, its current line if it is a Lua
function, and the count of arguments that `__call` put in front. -/
structure Activation where
  function : Value
  naming : Option Naming
  line : Option Nat
  inserted : Nat := 0

inductive ThreadStatus where
  | running | suspended | normal | dead
  deriving DecidableEq, Repr

/-- What a program can see of the machine: the functions on the stack, the innermost first, the
current thread, the state of every thread, and whether the current thread can yield. -/
structure View where
  stack : List Activation
  current : Nat
  status : Nat → ThreadStatus
  yieldable : Bool

inductive Request where
  /-- Calls a host object. -/
  | call (object : Nat) (args : List Value)
  /-- The text of a host object. -/
  | text (object : Nat)
  /-- A field or item of a host object. -/
  | get (object : Nat) (key : Value)
  /-- Writes bytes to the standard output. -/
  | write (bytes : Bytes)

/-- What is thrown: a value, or the failure to get memory. -/
inductive Thrown where
  | value (v : Value)
  | memory

/-- The value that a protected call sees of what is thrown. -/
def Thrown.seen : Thrown → Value
  | .value v => v
  | .memory => .ofString "not enough memory"

inductive Prog where
  /-- The running function returns. -/
  | ret (vs : List Value)
  /-- Works on memory. -/
  | upd (f : Heap → Heap × Prog)
  /-- Throws a value from here, with a trace if the host gets it. -/
  | raise (v : Value)
  /-- Goes on throwing. -/
  | unwind (t : Thrown)
  /-- Calls a value. -/
  | call (site : Site) (f : Value) (args : List Value) (k : List Value → Prog)
  /-- Calls a value in place of the running function. -/
  | tailCall (site : Site) (f : Value) (args : List Value)
  /-- Does what is left of a loop or block. -/
  | run (t : Task) (k : Exit → Prog)
  /-- Calls a value and gets what it throws. -/
  | attempt (f : Value) (args : List Value) (k : Except Thrown (List Value) → Prog)
  /-- Holds a value that is to be closed. -/
  | hold (v : Value) (k : Prog)
  /-- Closes the value held last. -/
  | release (k : Prog)
  /-- Looks at the machine. -/
  | look (k : View → Prog)
  /-- Makes a thread that will call a value. -/
  | spawn (f : Value) (k : Nat → Prog)
  /-- Resumes a suspended thread. -/
  | resume (thread : Nat) (args : List Value) (k : Except Thrown (List Value) → Prog)
  /-- Suspends the current thread. -/
  | yield (vs : List Value) (k : List Value → Prog)
  /-- Closes a suspended or dead thread; gets what it died of. -/
  | close (thread : Nat) (k : Except Thrown Unit → Prog)
  /-- Asks the host. -/
  | ask (r : Request) (k : List Value → Prog)

namespace Prog

/-- Reads memory. -/
def withHeap (f : Heap → Prog) : Prog := .upd fun h => (h, f h)

/-- Throws a message about a place in Lua code, or without one. -/
def fail (line : Option Nat) (message : Bytes) : Prog :=
  match line with
  | some l => .raise (.str (atPosition l message))
  | none => .raise (.str message)

end Prog

end HostedLua.Lua
