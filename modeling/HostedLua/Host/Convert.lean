import HostedLua.Host.Show

/-! The two conversions. `toHost` gives a fetched value its host form: guests become handles, and strings
with undecodable bytes become bytes. `toGuest` gives a host value the form that is pushed: handles give
their guests, and containers become new tables, one for each container. -/

namespace HostedLua.Bridge

open Host

def configOf (state : Nat) : Bridge Config := do
  match ← state? state with
  | some s => config s.config
  | none => return {}

def newHandle (h : Handle) : Bridge Value := newObject (.handle h)

/-- A whole float as a number without fraction. -/
def wholeFloat (x : Float) : Value :=
  match Binary.whole? x with
  | some i => .int i
  | none => .float x

/-- A fetched value in its host form. A thread that has not run gets a new thread of its own. -/
def toHost (E : Engine) (state : Nat) (v : Value) : Bridge Value := do
  match v with
  | .text t => hostText t (← configOf state).encoding
  | .float x =>
    match ← state? state with
    | some s => return if s.hasIntegers then .float x else wholeFloat x
    | none => return .float x
  | .obj id =>
    match ← object id with
    | .guest g =>
      if g.unstarted then
        let thread ← createThread E state v
        newHandle { kind := .coroutine, state, guest := thread, owns := true }
      else match g.value with
        | .table _ => newHandle { kind := .table, state, guest := v }
        | .closure _ | .builtin _ | .wrapped _ => newHandle { kind := .function, state, guest := v }
        | .thread _ => newHandle { kind := .coroutine, state, guest := v }
        | _ => return v
    | _ => return v
  | v => return v

/-- A group of values in host form: none, one, or a tuple of several. -/
def toHostValues (E : Engine) (state : Nat) (vs : List Value) : Bridge Value := do
  match vs with
  | [] => return .none
  | [v] => toHost E state v
  | vs => newTuple (← vs.mapM (toHost E state))

def newError (status : ErrorStatus) (message : Text) : Bridge Value :=
  newObject (.error ⟨status, message⟩ false)

/-- The result of a protected call in host form; a failure is an error value. -/
def toHostResult (E : Engine) (state : Nat) (r : Except Failure (List Value)) : Bridge Value := do
  match r with
  | .ok vs => toHostValues E state vs
  | .error e => newError e.status e.message

/-- A new table of a state as a guest; none if the state is closed. -/
def newTable (state : Nat) : Bridge Value := do
  match ← state? state with
  | some s =>
    if s.isOpen then
      let id := s.machine.heap.tables.size
      modifyHeap state fun h => h.newTable.1
      newObject (.guest ⟨state, .table id, false⟩)
    else return .none
  | none => return .none

/-- Puts a value at a key of a table that has no metatable. -/
def putRaw (state : Nat) (table : Value) (key value : Value) : Bridge Unit := do
  match table with
  | .obj id =>
    match ← object id with
    | .guest ⟨_, .table t, _⟩ =>
      let k ← pushKey state key
      let v ← push state value
      match k.key? with
      | .ok k => modifyHeap state fun h => h.set t k v
      | .error _ => raise "LuaError" "table index is NaN"
    | _ => raise "TypeError" "object does not support item assignment"
  | _ => raise "TypeError" "'NoneType' object does not support item assignment"

/-- The tables that containers have been given so far. -/
abbrev Seen := List (Nat × Value)

/-- A key that no entry is made for: none, or not a number. -/
def skipsKey : Value → Bool
  | .none => true
  | .float x => x.isNaN
  | _ => false

/-- The items of a container by key, sequences from 1 on; a failure of the walk comes after the items
before it. -/
def items? (o : Object) : Option (List (Value × Value) × Option Fault) :=
  match o with
  | .list vs | .tuple vs => some (vs.zipIdx.map fun (v, i) => (.int (i + 1), v), none)
  | .dict ps | .proxy ps => some (ps, none)
  | .badItems text => some ([(.text "a", .int 1)], some (.of "ValueError" text))
  | _ => none

/-- A host value in the form that is pushed. -/
def toGuestAt (state : Nat) : (depth : Nat) → Value → StateT Seen Bridge Value
  | 0, _ => fun _ => failNesting
  | depth + 1, v => do
    match v with
    | .text t =>
      match (← configOf state).encoding with
      | .none =>
        match Charset.utf8.encodeEscaped t with
        | .ok b => return .bytes b
        | .error e => throw (.ofEncoding e)
      | _ => return v
    | .int i =>
      if minInt ≤ i ∧ i ≤ maxInt then return v
      else match Binary.ofInt? i with
        | some x => return .float x
        | none => fun _ => raise "OverflowError" "int too large to convert to float"
    | .obj id =>
      let o ← object id
      match o with
      | .handle h =>
        if (← isValid h) && h.state = state then return h.guest
        else
          reportTo state ("InvalidState: " ++ h.kind.name ++ " does not belong to an open Lua state")
          return .none
      | _ =>
        match items? o with
        | none => return v
        | some (items, failure) =>
          match (← get).lookup id with
          | some table => return table
          | none =>
            let table ← newTable state
            match table with
            | .none => pure ()
            | _ => modify fun seen => (id, table) :: seen
            items.forM fun (k, v) => do
              if !skipsKey k then
                let v ← toGuestAt state depth v
                let k ← toGuestAt state depth k
                putRaw state table k v
            match failure with
            | some f => throw f
            | none => return table
    | v => return v

/-- A host value in the form that is pushed, as far as the host has room for it. -/
def toGuest (state : Nat) (v : Value) : Bridge Value := do
  return (← (toGuestAt state ((← get).limits.nesting + 1) v).run []).1

/-- Arguments in the form that is pushed; an ordinary fault comes back as a failure. -/
def toGuestValues (state : Nat) (vs : List Value) : Bridge (Except Failure (List Value)) :=
  protectedCall (vs.mapM (toGuest state))

end HostedLua.Bridge
