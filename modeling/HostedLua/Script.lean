import HostedLua.Host.Run

/-! Scripts: a source whose run gives a table, the class that it defines. The table's conventional keys
give the script's name, its base and whether it is a tool; instances are made by the language's adapter. -/

namespace HostedLua.Bridge

open Host

def script (id : Nat) : Bridge Script := do
  return ((← get).scripts[id]?).getD { language := 0, source := [] }

def modifyScript (id : Nat) (f : Script → Script) : Bridge Unit := modify fun w =>
  { w with scripts := w.scripts.modify id f }

def newScript (language : Nat) (source : Text) : Bridge Nat := modifyGet fun w =>
  (w.scripts.size, { w with scripts := w.scripts.push { language, source } })

/-- A script that is valid has a table, and only then. -/
def unload (id : Nat) : Bridge Unit := modifyScript id ({ · with loaded := none, state := .invalid })

/-- Takes the result of a run as the class of a script. -/
def adopt (E : Engine) (id : Nat) (result : Value) : Bridge ReloadStatus := do
  let s ← script id
  let diagnostics := (← language s.language).diagnostics
  let refuse : Bridge ReloadStatus := do
    report diagnostics "Lua script must return a table"
    unload id
    return .scriptFailed
  match result with
  | .obj r =>
    match ← object r with
    | .error e _ =>
      report diagnostics (← describe E result)
      unload id
      return .ofStatus e.status
    | .handle h =>
      match h.kind with
      | .table =>
        modifyScript id ({ · with loaded := some r, state := .valid })
        return .ok
      | _ => refuse
    | _ => refuse
  | _ => refuse

/-- Runs the source of a script and takes the table that it gives. -/
def reload (E : Engine) (id : Nat) : Bridge ReloadStatus := do
  let s ← script id
  adopt E id (← runIn E s.language (.text s.source))

def setSource (id : Nat) (source : Text) : Bridge Unit := modifyScript id ({ · with source })

/-- A field of the class of a script; the default where there is none. -/
def classValue (E : Engine) (id : Nat) (key : Text) (default : Value) : Bridge Value := do
  let s ← script id
  match s.state, s.loaded with
  | .valid, some r =>
    match ← object r with
    | .handle h => getValue E h (.text key) default
    | _ => return default
  | _, _ => return default

def globalName (E : Engine) (id : Nat) : Bridge Text := do
  match ← classValue E id "class_name" (.text []) with
  | .text t => return t
  | v => str E v

def baseType (E : Engine) (id : Nat) : Bridge Value := do
  let s ← script id
  let default := (← config (← language s.language).config).defaultBaseType
  match ← classValue E id "extends" default with
  | .text t => return .text t
  | _ => return default

def isTool (E : Engine) (id : Nat) : Bridge Bool := do
  truthy (← classValue E id "tool" (.bool false))

def scriptText (E : Engine) (id : Nat) : Bridge Text := do
  let name ← globalName E id
  let shown : Text := if name.isEmpty then "<anonymous>" else name
  return "<LuaScript " ++ shown ++ " state=" ++ (← script id).state.text ++ ">"

/-- What an adapter makes of an object and a class. -/
def makeInstance (E : Engine) (a : Adapter) (target table : Value) : Bridge Value := do
  match a with
  | .record =>
    noteCall [← look E 0 target, ← look E 1 table]
    newTuple [.text "instance", target]
  | .unimplemented => raise "NotImplementedError" []

/-- An instance of a script for an object; without a class or an adapter that is reported. -/
def instantiate (E : Engine) (id : Nat) (target : Value) : Bridge Value := do
  let s ← script id
  let l ← language s.language
  match s.state, s.loaded with
  | .valid, some r =>
    match l.adapter with
    | none =>
      report l.diagnostics "No script instance adapter is configured"
      return .none
    | some a => makeInstance E a target (.obj r)
  | _, _ =>
    report l.diagnostics "InvalidState: cannot instantiate a script without a valid class table"
    return .none

end HostedLua.Bridge
