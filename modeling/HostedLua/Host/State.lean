import HostedLua.Host.Options
import HostedLua.Host.Reach

/-! What a Lua state does for the bridge: it opens and closes, runs chunks, calls values, and makes,
resumes and closes threads. Calls are protected: what they raise comes back as an outcome and a text. -/

namespace HostedLua.Bridge

open Host

/-- The truth of a value; empty containers count as false. -/
def truthy (v : Value) : Bridge Bool := do
  match v with
  | .obj id =>
    match ← object id with
    | .list vs | .tuple vs => return !vs.isEmpty
    | .dict ps | .proxy ps => return !ps.isEmpty
    | .byteArray b => return !b.isEmpty
    | _ => return true
  | v => return v.scalarTruthy

/-- The function that makes a Lua function of any callable value. -/
def wrapperSource : Bytes := .ofString "return function(f) return function(...) return f(...) end end"

/-- A machine with its library loaded and the wrapping function compiled. -/
def freshMachine (limit : Option Nat) (bridge : List (String × Lua.Value)) :
    Lua.Machine × Nat × Lua.Value :=
  let (h, cell) := (Lua.Library.initialHeap limit bridge).newCell .nil
  let h := h.write cell (.table h.globals)
  let m : Lua.Machine := { heap := h }
  match Lua.Chunk.parse wrapperSource with
  | .error _ => (m, cell, .nil)
  | .ok f =>
    let (h, id) := h.newClosure ⟨f, [cell]⟩
    match (Lua.Machine.enter { heap := h } (.call ⟨none, none⟩ (.closure id) [] .ret)).run 1000 with
    | some (m, .done (.ok (v :: _))) => (m, cell, v)
    | _ => (m, cell, .nil)

/-- The limit on memory that a state is opened under; zero is none. Less than the state takes is refused, and so is what no
word holds. -/
def memoryLimit (maxMemory : Option Int) : Bridge (Option Nat) := do
  match maxMemory with
  | none => return none
  | some n =>
    if n < 0 then raise "OverflowError" "can't convert negative value to size_t"
    else if UInt64.size ≤ n then raise "OverflowError" "Python int too large to convert to C size_t"
    else if n = 0 then return none
    else if n < (← get).limits.leastMemory then raise "LuaMemoryError" "not enough memory"
    else return some n.toNat

/-- What Lua code finds under a name in the bridge's table, if a flag asks for it. -/
def registered (name typeName : String) (flag : Value) : Bridge (List (String × Lua.Value)) := do
  if ← truthy flag then
    match ← newObject (.other typeName) with
    | .obj id => return [(name, .host id)]
    | _ => return []
  else return []

def openState (configId diagnostics : Nat) : Bridge Nat := do
  let c ← config configId
  let o ← c.options
  let limit ← memoryLimit o.maxMemory
  let unpackTuples ← truthy o.unpackTuples
  let eval ← registered "eval" "builtin_function_or_method" o.registerEval
  let builtins ← registered "builtins" "module" o.registerBuiltins
  match charset? c.encoding with
  | none => raise "TypeError" "'NoneType' object is not subscriptable"
  | some charset =>
    let (machine, globals, wrapper) :=
      freshMachine limit (("none", .host Value.nothingId) :: eval ++ builtins)
    let s : LuaState :=
      { config := configId, diagnostics, charset, unpackTuples, machine, globals, wrapper }
    modifyGet fun w => (w.states.size, { w with states := w.states.push s })

def closeState (id : Nat) : Bridge Unit := modifyState id fun s => { s with isOpen := false }

def isOpen (id : Nat) : Bridge Bool := do
  match ← state? id with
  | some s => return s.isOpen
  | none => return false

def reportTo (state : Nat) (message : Text) : Bridge Unit := do
  match ← state? state with
  | some s => report s.diagnostics message
  | none => return

def closedMessage : Text := "InvalidState: Lua state is closed"

/-- A failure that a protected call took: its outcome and its text. -/
structure Failure where
  status : ErrorStatus
  message : Text

/-- Runs a computation and takes the ordinary faults that it raises. -/
def protectedCall {α : Type} (x : Bridge α) : Bridge (Except Failure α) := do
  match ← attempt x with
  | .ok a => return .ok a
  | .error f => if f.isOrdinary then return .error ⟨f.status, f.message⟩ else throw f

/-- The text of a class, as a message about a wrong type shows it. -/
def classText (v : Value) : Bridge Text := do
  return "<class '" ++ (← typeName v) ++ "'>"

/-- Runs a chunk: text in the state's set, or bytes. -/
def execute (E : Engine) (state : Nat) (source : Value) : Bridge (List Value) := do
  match ← state? state with
  | none => return []
  | some s =>
    let bytes ← match source with
      | .text t =>
        match s.charset.encodeEscaped t with
        | .ok b => pure b
        | .error e => throw (.ofEncoding e)
      | .bytes b => pure b
      | v => raise "TypeError" ("Expected string, got " ++ (← classText v))
    let f ← load state bytes
    group (← runProg E state (callProg f []))

/-- The address that a text consists of, white space at its end apart, in lower case. -/
def addressHere? (t : Text) : Option Text :=
  match t with
  | z :: x :: body =>
    let digits : Text := body.takeWhile fun d => d.hexValue?.isSome
    if z = '0' && x = 'x' && !digits.isEmpty && (body.drop digits.length).all CodePoint.isBlank then
      some digits.lower
    else none
  | _ => none

/-- The address at the end of a text. -/
def addressIn? (t : Text) : Option Text :=
  match t with
  | [] => none
  | c :: rest =>
    match addressHere? (c :: rest) with
    | some a => some a
    | none => addressIn? rest

/-- The address that Lua gives for a value, if any. -/
def addressOf (E : Engine) (state : Nat) (v : Value) : Bridge (Option Text) := do
  if !(← isOpen state) then return none
  match ← protectedCall (callLua E state (.builtin .tostring) [v]) with
  | .ok [.text t] => return addressIn? t
  | _ => return none

def threadOf (state : Nat) (f : Lua.Value) : Bridge Value := do
  match ← state? state with
  | none => return .none
  | some s =>
    let t := s.machine.threads.size
    modifyState state fun s =>
      { s with machine := { s.machine with threads := s.machine.threads.push { rest := .fresh f } } }
    newObject (.guest ⟨state, .thread t, false⟩)

/-- Makes a thread for a value. Only Lua functions have threads of their own; any other Lua value gets
a Lua function around it. -/
def newThread (E : Engine) (state : Nat) (f : Value) : Bridge Value := do
  let noThreads (typeName : Text) : Bridge Value :=
    raise "AttributeError" ("'" ++ typeName ++ "' object has no attribute 'coroutine'")
  match f with
  | .obj id =>
    match ← object id with
    | .guest g =>
      match g.value with
      | .closure _ => threadOf g.state g.value
      | _ =>
        match ← state? state with
        | none => return .none
        | some s =>
          match ← callLua E state s.wrapper [f] with
          | [.obj wrapped] =>
            match ← object wrapped with
            | .guest g => threadOf state g.value
            | _ => return .none
          | _ => return .none
    | o => noThreads o.typeName
  | v => noThreads (← typeName v)

/-- Makes a thread for a value; a refusal is reported and gives none. -/
def createThread (E : Engine) (state : Nat) (f : Value) : Bridge Value := do
  if !(← isOpen state) then
    reportTo state closedMessage
    return .none
  match ← protectedCall (newThread E state f) with
  | .ok v => return v
  | .error e =>
    reportTo state (e.status.name ++ ": " ++ e.message)
    return .none

/-- What a resumption came to: an outcome with values, or a failure. -/
inductive Resumption where
  | ended (values : List Value)
  | yielded (values : List Value)
  | failed (e : Failure)

/-- The outcome and text of an error value that a resumption gave. -/
def errorValue (text : Value → Bridge Text) (v : Value) : Bridge Failure := do
  let status := ErrorStatus.ofMessage (← text v)
  return ⟨status, ← text v⟩

/-- Resumes a thread. The state may have been closed meanwhile, and then the thread's own state can no
longer be asked for. -/
def resumeThread (E : Engine) (text : Value → Bridge Text) (state : Nat) (thread : Value)
    (args : List Value) : Bridge Resumption := do
  match ← protectedCall (callLua E state (.builtin .coResume) (thread :: args)) with
  | .error e => return .failed e
  | .ok results =>
    match ← group results with
    | [] => return .failed ⟨.runtime, "coroutine.resume returned nothing"⟩
    | ok :: values =>
      if !(← truthy ok) then .failed <$> errorValue text (values.headD .none)
      else if !(← isOpen state) then
        raise "TypeError" "'NoneType' object is not callable"
      else
        match ← callLua E state (.builtin .coStatus) [thread] with
        | [.text t] => if t == ("dead" : Text) then return .ended values else return .yielded values
        | _ => return .yielded values

/-- Closes a thread, if the state closes threads by hand. The error value of a thread that failed is made a text, which
may run Lua code and fail like any other text. -/
def closeThread (E : Engine) (text : Value → Bridge Text) (state : Nat) (thread : Value) : Bridge Unit := do
  match ← state? state with
  | none => return
  | some s =>
    match s.closing with
    | .refused => raise "TypeError" "'int' object is not callable"
    | .spared => return
    | .byHand =>
      if !s.isOpen then return
      match ← protectedCall (callLua E state (.builtin .coClose) [thread]) with
      | .error e => logWarning ("coroutine.close failed: " ++ e.message)
      | .ok results =>
        match ← group results with
        | .bool false :: values => discard (text (values.headD .none))
        | _ => return

end HostedLua.Bridge
