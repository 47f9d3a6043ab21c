import HostedLua.World

/-! How values cross between the host and a Lua state. `fetch` takes a Lua value to the host and `push` a
host value to Lua. Scalars cross by value and strings in the state's set; Lua's own objects reach the
host as guests, and host objects reach Lua as themselves. `call` runs Lua code and raises what it throws. -/

namespace HostedLua

open Host

namespace Lua.Machine

/-- The function of a thread that has not run. -/
def unstarted? (m : Lua.Machine) (t : Nat) : Option Lua.Value :=
  match (m.thread t).rest with
  | .fresh f => some f
  | _ => none

end Lua.Machine

namespace Host.Value

/-- The object number that stands for no value where Lua holds it as an object. -/
def nothingId : Nat := 0

end Host.Value

namespace World

/-- What a Lua value is on the host: a scalar or a host object, or a guest that is new to it. -/
def fetched (s : LuaState) (state : Nat) (v : Lua.Value) : Value ⊕ Guest :=
  match v with
  | .nil => .inl .none
  | .bool b => .inl (.bool b)
  | .int i => .inl (.int i.toInt)
  | .float x => .inl (.float x)
  | .str b => .inl (.text (s.charset.decodeEscaped b))
  | .host id => .inl (if id = Value.nothingId then .none else .obj id)
  | .thread t =>
    match s.machine.unstarted? t with
    | some f => .inr ⟨state, f, true⟩
    | none => .inr ⟨state, v, false⟩
  | v => .inr ⟨state, v, false⟩

end World

namespace Bridge

/-- A Lua value as it reaches the host. -/
def fetch (state : Nat) (v : Lua.Value) : Bridge Value := do
  match ← state? state with
  | none => return .none
  | some s =>
    match World.fetched s state v with
    | .inl v => return v
    | .inr g => newObject (.guest g)

/-- Lua values as they reach the host. -/
def fetchAll (state : Nat) (vs : List Lua.Value) : Bridge (List Value) := vs.mapM (fetch state)

/-- The least and the greatest whole number that Lua has. -/
def minInt : Int := -0x8000000000000000

/-- The greatest whole number that Lua has. -/
def maxInt : Int := 0x7FFFFFFFFFFFFFFF

/-- A host value as it reaches Lua. Whole numbers out of range, text that the set cannot write, and
guests of other states are refused. -/
def push (state : Nat) (v : Value) : Bridge Lua.Value := do
  match v with
  | .none => return .nil
  | .bool b => return .bool b
  | .int i =>
    if minInt ≤ i ∧ i ≤ maxInt then return .int (Int64.ofInt i)
    else raise "OverflowError" "Python int too large to convert to C long"
  | .float x => return .float x
  | .text t =>
    match ← state? state with
    | none => return .nil
    | some s =>
      match s.charset.encodeEscaped t with
      | .ok b => return .str b
      | .error e => throw (.ofEncoding e)
  | .bytes b => return .str b
  | .member m => return .int (Int64.ofNat m.code)
  | .obj id =>
    match ← object id with
    | .guest g =>
      if g.state = state then return g.value
      else raise "LuaError" "cannot mix objects from different Lua runtimes"
    | _ => return .host id

/-- A key as it reaches Lua: no value crosses as the object that stands for it. -/
def pushKey (state : Nat) (v : Value) : Bridge Lua.Value :=
  match v with
  | .none => return .host Value.nothingId
  | v => push state v

/-- Raises what Lua code threw. A fault of the host that went through Lua is raised again. -/
def raiseThrown {α : Type} (state : Nat) (t : Lua.Thrown) : Bridge α := do
  match t with
  | .memory => raise "LuaMemoryError" []
  | .value (.str b) =>
    match ← state? state with
    | some s => raise "LuaError" (s.charset.decodeEscaped b)
    | none => raise "LuaError" []
  | .value (.host id) =>
    match ← object id, ← state? state with
    | .fault _, some s =>
      match s.pending with
      | some f =>
        modifyState state fun s => { s with pending := none }
        throw f
      | none => raise "LuaError" []
    | _, _ => raise "LuaError" []
  | .value _ => raise "LuaError" []

/-- Runs a program on a state and gives its results on the host, or raises what it throws. -/
def runProg (E : Engine) (state : Nat) (p : Lua.Prog) : Bridge (List Value) := do
  match ← E.run state p with
  | .ok vs => fetchAll state vs
  | .error t => raiseThrown state t

def callProg (f : Lua.Value) (args : List Lua.Value) : Lua.Prog := .call ⟨none, none⟩ f args .ret

/-- Calls a Lua value with host values. -/
def callLua (E : Engine) (state : Nat) (f : Lua.Value) (args : List Value) : Bridge (List Value) := do
  let args ← args.mapM (push state)
  runProg E state (callProg f args)

/-- The group of values that a call gives: nothing for a lone none, and the members of a lone tuple. -/
def group (results : List Value) : Bridge (List Value) := do
  match results with
  | [.none] => return []
  | [.obj id] =>
    match ← object id with
    | .tuple items => return items
    | _ => return results
  | _ => return results

def chunkClosure (state : Nat) (f : Lua.Func) : Bridge Lua.Value := do
  match ← state? state with
  | none => return .nil
  | some s =>
    let id := s.machine.heap.closures.size
    modifyHeap state fun h => (h.newClosure ⟨f, [s.globals]⟩).1
    return .closure id

/-- Loads a chunk, which may be malformed. -/
def load (state : Nat) (source : Bytes) : Bridge Lua.Value := do
  match Lua.Chunk.parse source with
  | .ok f => chunkClosure state f
  | .error e =>
    let text ← match ← state? state with
      | some s => pure (s.charset.decodeEscaped e.message)
      | none => pure []
    raise "LuaSyntaxError" ("error loading code: " ++ text)

end Bridge

def Host.Object.typeName : Object → Text
  | .nothing => "NoneType"
  | .list _ => "list"
  | .tuple _ => "tuple"
  | .dict _ => "dict"
  | .proxy _ => "mappingproxy"
  | .byteArray _ => "bytearray"
  | .thing _ => "Thing"
  | .badItems _ => "BadItems"
  | .error _ isSub => if isSub then "SubError" else "LuaError"
  | .fault f => f.kind.name
  | .callback .errorClass => "type"
  | .callback _ => "function"
  | .handle h => h.kind.name
  | .guest g =>
    match g.value with
    | .table _ => "_LuaTable"
    | .thread _ => "_LuaThread"
    | .closure _ | .builtin _ | .wrapped _ => if g.unstarted then "_LuaCoroutineFunction" else "_LuaFunction"
    | _ => "_LuaObject"
  | .state _ => "LuaState"
  | .script _ => "LuaScript"
  | .runner _ => "ScriptRunner"
  | .shown name _ | .mute name _ | .other name => name

def Bridge.typeName (v : Value) : Bridge Text := do
  match v with
  | .none => return "NoneType"
  | .bool _ => return "bool"
  | .int _ => return "int"
  | .float _ => return "float"
  | .text _ => return "str"
  | .bytes _ => return "bytes"
  | .member m => return m.enumeration
  | .obj id => return (← object id).typeName

end HostedLua
