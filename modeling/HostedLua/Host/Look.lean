import HostedLua.Host.Handle

/-! Taking a view of a value. Tables are expanded to a depth that only they use up. -/

namespace HostedLua.Bridge

open Host

/-- How deep containers are looked into. -/
def maxLook : Nat := 400

/-- The view of a value, tables expanded to a depth. -/
def lookAt (E : Engine) : (fuel : Nat) → (deep : Nat) → Value → Bridge View
  | 0, _, _ => failNesting
  | fuel + 1, deep, v => do
    let all (vs : List Value) : Bridge (List View) := vs.mapM (lookAt E fuel deep)
    let pairs (deep : Nat) (ps : List (Value × Value)) : Bridge (List (View × View)) :=
      ps.mapM fun (k, v) => do
        let k ← lookAt E fuel 0 k
        return (k, ← lookAt E fuel deep v)
    match v with
    | .none => return .none
    | .bool b => return .bool b
    | .int i => return .int i
    | .float x => return .float x
    | .text t => return .text t
    | .bytes b => return .bytes b
    | .member m => return .member m
    | .obj id =>
      match ← object id with
      | .list vs => return .list (← all vs)
      | .tuple vs => return .tuple (← all vs)
      | .dict ps | .proxy ps => return .dict (← pairs deep ps)
      | .byteArray b => return .bytes b
      | .thing name => return .thing name
      | .error e _ => return .error e
      | .fault f => return .fault f
      | .handle h =>
        let valid ← isValid h
        match h.kind, deep with
        | .coroutine, _ => return .coroutine valid h.status h.closed
        | .table, deep + 1 =>
          if valid then return .table (← pairs deep (← toMapping E h))
          else return .handle h.kind.label valid
        | _, _ => return .handle h.kind.label valid
      | .guest g => return .other (guestKind g.value)
      | .callback _ => return .other "callback"
      | o => return .other o.typeName

/-- The view of a value, tables expanded to a depth. -/
def look (E : Engine) (deep : Nat) (v : Value) : Bridge View := lookAt E maxLook deep v

end HostedLua.Bridge
