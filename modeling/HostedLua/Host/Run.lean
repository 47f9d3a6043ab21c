import HostedLua.Language
import HostedLua.Host.Attribute
import HostedLua.Host.Look

/-! Running Lua code for the host, and callbacks for Lua code. A machine runs until it is done or asks the
host; the host answers, for which it may run code again, and the machine goes on. -/

namespace HostedLua.Bridge

open Host

def runCallback (E : Engine) (c : Callback) (args : List Value) : Bridge Value := do
  match c with
  | .capture diagnostics =>
    let parts ← args.mapM (printText E)
    addEffect diagnostics ⟨[.text "stdout"], Text.join " " parts⟩
    return .none
  | .errorClass => newObject (.error (← makeError E args) false)
  | .action a language =>
    let state ← languageState language
    let hosted ← args.mapM (toHost E state)
    noteCall (← hosted.mapM (look E 0))
    let target (var : Text) : Bridge (Option (Nat × Handle)) := do
      match ← variableNamed? var with
      | some v => handle? v
      | none => return none
    match a with
    | .args => newTuple args
    | .const v => return v
    | .raise f => throw f
    | .invoke var =>
      match ← target var with
      | some (_, h) => invoke E h hosted
      | none => raise "AttributeError" "object has no attribute 'invokev'"
    | .resume var =>
      match ← target var with
      | some (id, h) => resume E id h hosted
      | none => raise "AttributeError" "object has no attribute 'resumev'"
    | .close var =>
      match ← target var with
      | some (id, _) =>
        closeCoroutine E id
        return .none
      | none => raise "AttributeError" "object has no attribute 'close'"
    | .finish =>
      finish language
      return .none

/-- What a call of the host gives is pushed: the parts of a tuple one by one if the state takes tuples apart. -/
def pushResult (state : Nat) (r : Value) : Bridge (List Lua.Value) := do
  let single : Bridge (List Lua.Value) := do return [← push state r]
  match r with
  | .obj id =>
    match ← object id, ← state? state with
    | .tuple vs, some s => if s.unpackTuples then vs.mapM (push state) else single
    | _, _ => single
  | _ => single

/-- Calls a host object from Lua: a callback, or a handle that stands for a function. -/
def callObject (E : Engine) (state : Nat) (id : Nat) (args : List Lua.Value) :
    Bridge (List Lua.Value) := do
  let uncallable (o : Object) : Bridge (List Lua.Value) :=
    raise "TypeError" ("'" ++ o.typeName ++ "' object is not callable")
  match ← object id with
  | .callback c => do pushResult state (← E.callback c (← fetchAll state args))
  | .handle h =>
    if h.kind.isFunction then do pushResult state (← invoke E h (← fetchAll state args))
    else uncallable (.handle h)
  | o => uncallable o

/-- Answers what Lua code asks of the host. -/
def answer (E : Engine) (state : Nat) (r : Lua.Request) : Bridge (List Lua.Value) := do
  match r with
  | .call id args => callObject E state id args
  | .text id => return [← push state (.text (← str E (if id = Value.nothingId then .none else .obj id)))]
  | .get id key =>
    match ← getMember E id (← fetch state key) with
    | [v] => return [← pushKey state v]
    | _ => return []
  | .write b =>
    modify fun w => { w with output := w.output ++ b }
    return []

/-- What Lua code gets for what it asks: values, or the fault that it is to throw. -/
def reply (E : Engine) (state : Nat) (r : Lua.Request) : Bridge (Except Lua.Value (List Lua.Value)) := do
  match ← attempt (answer E state r) with
  | .ok vs => return .ok vs
  | .error f =>
    modifyState state ({ · with pending := some f })
    match ← newObject (.fault f) with
    | .obj id => return .error (.host id)
    | _ => return .error .nil

/-- The most steps between two questions to the host. -/
def maxSteps : Nat := 1000000000000

/-- Runs a machine of a state to the end of the host's call. -/
def drive (E : Engine) (state : Nat) : (fuel : Nat) → Lua.Machine →
    Bridge (Except Lua.Thrown (List Lua.Value))
  | 0, _ => diverge
  | fuel + 1, m => do
    match m.run maxSteps with
    | none => diverge
    | some (m, .done r) =>
      modifyState state ({ · with machine := m })
      return r
    | some (m, .asks q) =>
      modifyState state ({ · with machine := m })
      let a ← reply E state q
      match ← state? state with
      | some s => drive E state fuel (s.machine.answer a)
      | none => diverge

/-- The engine that lets calls nest to a depth. -/
def engine : (depth : Nat) → Engine
  | 0 => { run := fun _ _ => failNesting, callback := fun _ _ => failNesting }
  | depth + 1 =>
    let inner := engine depth
    { run := fun state p => do
        match ← state? state with
        | some s => drive inner state maxSteps (s.machine.enter p)
        | none => diverge
      callback := fun c args => runCallback inner c args }

/-- How deep calls between the host and Lua nest. -/
def maxCalls : Nat := 230

end HostedLua.Bridge
