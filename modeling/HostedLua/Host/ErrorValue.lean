import HostedLua.Host.Equality
import HostedLua.Host.Show

/-! Errors as values: made from any outcome number and any message, changed, compared and hashed. -/

namespace HostedLua.Bridge

open Host

/-- The outcome of a number, given as anything equal to it. -/
def statusOf (E : Engine) (v : Value) : Bridge ErrorStatus := do
  let w ← get
  match ErrorStatus.all.find? fun s => w.valueEq w.eqDepth v (.int s.code) with
  | some s => return s
  | none => raise "ValueError" ((← repr E v) ++ " is not a valid ErrorStatus")

/-- An error from up to two arguments: its outcome and its message. -/
def makeError (E : Engine) (args : List Value) : Bridge LuaError := do
  match args with
  | [] => return {}
  | [s] => return { status := ← statusOf E s }
  | [s, m] => return { status := ← statusOf E s, message := ← str E m }
  | _ => raise "TypeError" "an error takes at most two arguments"

/-- An error is equal to a value: to errors with the same outcome and message. -/
def errorEq (e : LuaError) (v : Value) : Bridge Bool := do
  match (← get).object? v with
  | some (.error f _) => return e == f
  | _ => return false

/-- An error has the same hash as a value: equal errors, and pairs of the outcome's number and the
message. -/
def sameHash (e : LuaError) (v : Value) : Bridge Bool := do
  let w ← get
  if !(w.hashable w.eqDepth v) then raise "TypeError" ("unhashable type: '" ++ (← typeName v) ++ "'")
  match w.object? v with
  | some (.tuple [s, m]) =>
    return w.valueEq w.eqDepth s (.int e.status.code) && w.valueEq w.eqDepth m (.text e.message)
  | _ => errorEq e v

/-- The group of values that a result stands for: nothing for none, a tuple's parts, or the value. -/
def resultGroup (v : Value) : Bridge (List Value) := do
  match v with
  | .none => return []
  | .obj id =>
    match ← object id with
    | .tuple vs => return vs
    | _ => return [v]
  | v => return [v]

/-- The text that a version is read out of. -/
def versionText (E : Engine) (v : Value) : Bridge Text := do
  match v with
  | .none => return []
  | .bytes b => return Utf8.decodeLossy b
  | .obj id =>
    match ← object id with
    | .byteArray b => return Utf8.decodeLossy b
    | _ => str E v
  | v => str E v

end HostedLua.Bridge
