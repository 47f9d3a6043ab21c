import HostedLua.Host.Convert
import HostedLua.Host.Equality

/-! What handles do: functions are called, tables are read, coroutines are resumed and closed. An
operation on a handle without a usable state touches no state; it reports to the owner of the state, or
logs if the state is gone. -/

namespace HostedLua.Bridge

open Host

/-- The state of a handle, if it can be used; else the failure is reported or logged. -/
def requireState (h : Handle) (what : Text) : Bridge (Option LuaState) := do
  if ← isValid h then state? h.state
  else
    let message : Text := "InvalidState: " ++ h.kind.name ++ " does not have a valid " ++ what
    if ← isAlive h.state then reportTo h.state message else logError message
    return none

def handle? (v : Value) : Bridge (Option (Nat × Handle)) := do
  match v with
  | .obj id =>
    match ← object id with
    | .handle h => return some (id, h)
    | _ => return none
  | _ => return none

/-- Calls a value with values in the form that is pushed. -/
def callValue (E : Engine) (f : Value) (args : List Value) : Bridge (List Value) := do
  match f with
  | .obj id =>
    match ← object id with
    | .guest g =>
      if g.unstarted then return [← threadOf g.state g.value] else callLua E g.state g.value args
    | .callback c => return [← E.callback c args]
    | o => raise "TypeError" ("'" ++ o.typeName ++ "' object is not callable")
  | v => raise "TypeError" ("'" ++ (← typeName v) ++ "' object is not callable")

/-- Calls a function handle with host values. -/
def invoke (E : Engine) (h : Handle) (args : List Value) : Bridge Value := do
  match ← requireState h "function" with
  | none => return .none
  | some _ =>
    holding (h.guest :: args) h.state do
      match ← toGuestValues h.state args with
      | .error e => newError e.status e.message
      | .ok args =>
        let r ← protectedCall do group (← callValue E h.guest args)
        toHostResult E h.state r

/-- The entries of a table in walk order, as they reach the host. -/
def tableItems (g : Guest) : Bridge (List (Value × Value)) := do
  match g.value, ← state? g.state with
  | .table id, some s =>
    (s.machine.heap.table id).toList.mapM fun (k, v) => do
      let k ← fetch g.state k.value
      return (k, ← fetch g.state v)
  | _, _ => return []

/-- The walk over what a table handle stands for: its entries and the failure that ends it, if any.
Values without a walk are refused at once. -/
def walk (v : Value) : Bridge (List (Value × Value) × Option Fault) := do
  let refuse (typeName : Text) : Bridge (List (Value × Value) × Option Fault) :=
    raise "AttributeError" ("'" ++ typeName ++ "' object has no attribute 'items'")
  match v with
  | .obj id =>
    match ← object id with
    | .guest g =>
      match g.value with
      | .table _ => return (← tableItems g, none)
      | _ => raise "TypeError" "item/attribute access not supported on functions"
    | .dict ps | .proxy ps => return (ps, none)
    | .badItems text => return ([], some (.of "ValueError" text))
    | o => refuse o.typeName
  | v => refuse (← typeName v)

/-- The entries of a table handle in host form; those with equal keys become one. -/
def toMapping (E : Engine) (h : Handle) : Bridge (List (Value × Value)) := do
  match ← requireState h "table" with
  | none => return []
  | some s =>
    holding [h.guest] h.state do
      let (items, failure) ← walk h.guest
      match failure with
      | some f =>
        report s.diagnostics (f.status.name ++ ": " ++ f.message)
        return []
      | none =>
        items.foldlM (fun entries (k, v) => do
          let v ← toHost E h.state v
          let k ← toHost E h.state k
          let w ← get
          if w.hashable w.eqDepth k then return w.putEntry entries k v
          else raise "TypeError" ("unhashable type: '" ++ (← typeName k) ++ "'")) []

/-- The item of a sequence at a place, counted from the end if it is negative. -/
def itemAt {α : Type} (items : List α) (i : Int) : Option α :=
  let i := if i < 0 then i + items.length else i
  if i < 0 then none else items[i.toNat]?

def getItem (E : Engine) (v key : Value) : Bridge (List Value) := do
  let indexed (items : List Value) : Bridge (List Value) := do
    match key.int? with
    | some i =>
      match itemAt items i with
      | some v => return [v]
      | none => raise "IndexError" "index out of range"
    | none => raise "TypeError" "indices must be integers or slices"
  match v with
  | .text t => indexed (t.map fun c => .text [c])
  | .bytes b => indexed (b.map fun x => .int x.toNat)
  | .obj id =>
    match ← object id with
    | .guest g =>
      match g.value with
      | .table _ =>
        let k ← pushKey g.state key
        runProg E g.state (Lua.Operate.index none ⟨g.value, none⟩ k fun v => .ret [v])
      | _ => raise "TypeError" "item/attribute access not supported on functions"
    | .list vs | .tuple vs => indexed vs
    | .byteArray b => indexed (b.map fun x => .int x.toNat)
    | .dict ps | .proxy ps =>
      match (← get).findEntry ps key with
      | some v => return [v]
      | none => throw (.of "KeyError" (← repr E key))
    | o => raise "TypeError" ("'" ++ o.typeName ++ "' object is not subscriptable")
  | v => raise "TypeError" ("'" ++ (← typeName v) ++ "' object is not subscriptable")

/-- The value at a key of a table handle in host form; the default where it is nil or cannot be read. -/
def getValue (E : Engine) (h : Handle) (key default : Value) : Bridge Value := do
  if !(← isValid h) then return default
  holding [h.guest, key, default] h.state do
    let key ← toGuest h.state key
    match ← protectedCall do group (← getItem E h.guest key) with
    | .ok (v :: _) =>
      match v with
      | .none => return default
      | v => toHost E h.state v
    | _ => return default

/-- Makes a coroutine of a function handle. -/
def createCoroutine (E : Engine) (f : Value) : Bridge Value := do
  let refuse : Text := "InvalidArgument: Function cannot be null"
  match ← handle? f with
  | some (id, h) =>
    if h.kind.isFunction then
      match ← requireState h "function" with
      | none => return .none
      | some _ =>
        match ← holding [f] h.state (createThread E h.state h.guest) with
        | .none => return .none
        | thread =>
          newHandle { kind := .coroutine, state := h.state, guest := thread, function := some id,
                      owns := true }
    else
      if ← isAlive h.state then reportTo h.state refuse else logError refuse
      return .none
  | none =>
    logError refuse
    return .none

def modifyHandle (id : Nat) (f : Handle → Handle) : Bridge Unit := do
  match ← object id with
  | .handle h => setObject id (.handle (f h))
  | _ => return

/-- Notes what a resumption came to, and gives its values or its failure in host form. -/
def settle (E : Engine) (id : Nat) (h : Handle) (status : ErrorStatus) (r : Except Failure (List Value)) :
    Bridge Value := do
  modifyHandle id ({ · with status := .ofStatus status })
  toHostResult E h.state r

/-- Resumes a valid coroutine handle with host values, and notes what it came to. -/
def resumeValid (E : Engine) (id : Nat) (h : Handle) (args : List Value) : Bridge Value := do
  match ← toGuestValues h.state args with
  | .error e => newError e.status e.message
  | .ok args =>
    match ← resumeThread E (errorMessage E) h.state h.guest args with
    | .ended vs => settle E id h .ok (.ok vs)
    | .yielded vs => settle E id h .yielded (.ok vs)
    | .failed e => settle E id h e.status (.error e)

def resume (E : Engine) (id : Nat) (h : Handle) (args : List Value) : Bridge Value := do
  match ← requireState h "thread" with
  | none => return .none
  | some _ => holding (.obj id :: h.guest :: args) h.state (resumeValid E id h args)

/-- Closes a coroutine handle, at most once; only a thread that it owns is closed. -/
def closeCoroutine (E : Engine) (id : Nat) : Bridge Unit := do
  match ← object id with
  | .handle h =>
    if h.closed then return
    setObject id (.handle { h with closed := true })
    if !h.owns || !(← isValid h) then return
    match ← state? h.state with
    | some s =>
      if s.needsThreadClose then holding [.obj id, h.guest] h.state (closeThread E (errorMessage E) h.state h.guest)
    | none => return
  | _ => return

end HostedLua.Bridge
