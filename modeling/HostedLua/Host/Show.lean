import HostedLua.Host.State

/-! The text of a value: `str` for people and `repr` for containers, which quote what they hold. Handles
show the address of their Lua value, which asks Lua for it. -/

namespace HostedLua.Bridge

open Host

def tooDeep : Fault := .of "RecursionError" "maximum recursion depth exceeded"

def failNesting {α : Type} : Bridge α := throw tooDeep

/-- The text of a whole number, unless it is too long. -/
def intText (i : Int) : Bridge Text :=
  match Integer.write? i with
  | some t => return t
  | none => raise "ValueError" Integer.unwritable

def objectAddress (id : Nat) : Text := Text.hex (0x7f0000000000 + 48 * id)

/-- A handle stands for a value of a state that is held and open. -/
def isValid (h : Handle) : Bridge Bool := do
  match h.guest with
  | .none => return false
  | _ => return (← openState? h.state).isSome

/-- The text of a handle: its kind and the address of its value. -/
def handleText (E : Engine) (id : Nat) (h : Handle) : Bridge Text := do
  let address ← if ← isValid h then addressOf E h.state h.guest else pure none
  return "[" ++ h.kind.label ++ ":0x" ++ address.getD (objectAddress id) ++ "]"

/-- The type of a Lua value that the host shows. -/
def guestKind (v : Lua.Value) : Text :=
  match v with
  | .table _ => "table"
  | .closure _ | .builtin _ | .wrapped _ => "function"
  | .thread _ => "thread"
  | _ => "userdata"

/-- The text of a guest: by its `__tostring`, or its type and address. -/
def guestText (E : Engine) (id : Nat) (g : Guest) (useMeta : Bool) : Bridge Text := do
  let plain : Text := "<Lua " ++ guestKind g.value ++ " at 0x" ++ objectAddress id ++ ">"
  match ← state? g.state with
  | none => return plain
  | some s =>
    match useMeta, s.machine.heap.metamethod g.value "__tostring" with
    | false, _ | _, .nil => return plain
    | true, handler =>
      match ← E.run g.state (callProg handler [g.value]) with
      | .ok (v :: _) =>
        match v.toBytes? with
        | some b => return s.charset.decodeEscaped b
        | none => return plain
      | _ => return plain

def enclosed (opening : Text) (parts : List Text) (closing : Text) : Text :=
  opening ++ Text.join ", " parts ++ closing

/-- The parts of a tuple in parentheses; a lone part is followed by a comma. -/
def tupleText (parts : List Text) : Text :=
  match parts with
  | [p] => "(" ++ p ++ ",)"
  | ps => enclosed "(" ps ")"

/-- The text of a class and number for objects without a text of their own. -/
def objectText (id : Nat) (typeName : Text) : Text :=
  "<" ++ typeName ++ " object at 0x" ++ objectAddress id ++ ">"

/-- The text of a callback; the class of errors shows by its name. -/
def callbackText (id : Nat) : Callback → Text
  | .errorClass => "<class 'luabridge.lua_error.LuaError'>"
  | _ => "<function callback at 0x" ++ objectAddress id ++ ">"

/-- The quoted text of a value. `around` are the containers it lies in; `script` gives the text of
scripts. -/
def reprWith (E : Engine) (script : Nat → Bridge Text) : (depth : Nat) → (around : List Nat) → Value →
    Bridge Text
  | 0, _, _ => failNesting
  | depth + 1, around, v => do
    let inner (around : List Nat) (vs : List Value) : Bridge (List Text) :=
      vs.mapM (reprWith E script depth around)
    let pairs (around : List Nat) (ps : List (Value × Value)) : Bridge (List Text) :=
      ps.mapM fun (k, v) => do
        let k ← reprWith E script depth around k
        return k ++ ": " ++ (← reprWith E script depth around v)
    match v with
    | .none => return "None"
    | .bool b => return if b then "True" else "False"
    | .int i => intText i
    | .float x => return Decimal.shortest x
    | .text t => return t.quoted
    | .bytes b => return b.quoted
    | .member m =>
      return "<" ++ m.enumeration ++ "." ++ m.name ++ ": " ++ Text.ofNat m.code ++ ">"
    | .obj id =>
      let again := around.contains id
      let around := id :: around
      match ← object id with
      | .nothing => return "None"
      | .list vs => if again then return "[...]" else return enclosed "[" (← inner around vs) "]"
      | .tuple vs => if again then return "(...)" else return tupleText (← inner around vs)
      | .dict ps => if again then return "\x7b...\x7d" else return enclosed "\x7b" (← pairs around ps) "\x7d"
      | .proxy ps =>
        if again then return "mappingproxy(\x7b...\x7d)"
        else return enclosed "mappingproxy(\x7b" (← pairs around ps) "\x7d)"
      | .byteArray b => return "bytearray(" ++ b.quoted ++ ")"
      | .thing name => return "<thing " ++ name ++ ">"
      | .error e _ => return "LuaError(" ++ e.status.name ++ ", " ++ e.message.quoted ++ ")"
      | .fault f =>
        if f.text.isEmpty then return f.kind.name ++ "()"
        else if f.kind.isA "KeyError" then return f.kind.name ++ "(" ++ f.text ++ ")"
        else return f.kind.name ++ "(" ++ f.text.quoted ++ ")"
      | .callback c => return callbackText id c
      | .handle h => handleText E id h
      | .guest g => guestText E id g false
      | .script s => script s
      | .shown _ text => return text
      | .mute _ f => throw f
      | o => return objectText id o.typeName

/-- The quoted text of a value, as far as the host has room for it. -/
def quotedText (E : Engine) (script : Nat → Bridge Text) (v : Value) : Bridge Text := do
  reprWith E script ((← get).limits.textNesting + 1) [] v

def strWith (E : Engine) (script : Nat → Bridge Text) (v : Value) : Bridge Text := do
  match v with
  | .text t => return t
  | .member m => return Text.ofNat m.code
  | .obj id =>
    match ← object id with
    | .error e _ => return e.text
    | .fault f => return f.text
    | .guest g => guestText E id g true
    | _ => quotedText E script v
  | v => quotedText E script v

/-- Scripts met where their text cannot be asked for. -/
def plainScript (id : Nat) : Bridge Text := return objectText id "LuaScript"

def str (E : Engine) (v : Value) : Bridge Text := strWith E plainScript v

def repr (E : Engine) (v : Value) : Bridge Text := quotedText E plainScript v

def errorMessage (E : Engine) (v : Value) : Bridge Text := do
  match v with
  | .none => return "unknown Lua error"
  | .bytes b => return Utf8.decodeLossy b
  | .obj id =>
    match ← object id with
    | .byteArray b => return Utf8.decodeLossy b
    | .fault f => return f.message
    | _ => str E v
  | v => str E v

def errorStatus (E : Engine) (v : Value) : Bridge ErrorStatus := do
  return .ofMessage (← errorMessage E v)

/-- An error report as one line of text. -/
def describe (E : Engine) (v : Value) : Bridge Text := do
  match v with
  | .none => return "Unknown error"
  | .obj id =>
    match ← object id with
    | .fault f => return f.described
    | _ => str E v
  | v => str E v

/-- The text of a printed value: Lua's words for no value and truth values, and text whose undecodable
bytes are replaced. -/
def printText (E : Engine) (v : Value) : Bridge Text := do
  match v with
  | .none => return "nil"
  | .bool b => return if b then "true" else "false"
  | .bytes b => return Utf8.decodeLossy b
  | .text t =>
    match Charset.utf8.encodeEscaped t with
    | .ok b => return Utf8.decodeLossy b
    | .error e => throw (.ofEncoding e)
  | v => str E v

end HostedLua.Bridge
