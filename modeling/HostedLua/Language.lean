import HostedLua.Host.Handle

/-! The scripting language: it owns one state at a time, opens it when it is first used, and runs chunks in
it. -/

namespace HostedLua.Bridge

open Host

def language (id : Nat) : Bridge Language := do
  return ((← get).languages[id]?).getD { config := 0, diagnostics := 0 }

def modifyLanguage (id : Nat) (f : Language → Language) : Bridge Unit := modify fun w =>
  { w with languages := w.languages.modify id f }

/-- Adds a language with options and diagnostics of its own. -/
def newLanguage (c : Config) (adapter : Option Adapter) : Bridge Nat := do
  let config ← newConfig c
  let diagnostics ← newDiagnostics
  modifyGet fun w =>
    (w.languages.size, { w with languages := w.languages.push { config, diagnostics, adapter } })

/-- The open state of a language; it is opened where there is none. -/
def languageState (id : Nat) : Bridge Nat := do
  let l ← language id
  let open_ : Bridge Nat := do
    let s ← openState l.config l.diagnostics
    modifyLanguage id ({ · with state := some s })
    return s
  match l.state with
  | some s => if ← isOpen s then return s else open_
  | none => open_

/-- Runs a chunk on a state and gives its result in host form. -/
def doString (E : Engine) (state : Nat) (source : Value) : Bridge Value := do
  if !(← isOpen state) then
    reportTo state closedMessage
    return .none
  holding [source] state do
    let r ← protectedCall (execute E state source)
    toHostResult E state r

def runIn (E : Engine) (language : Nat) (source : Value) : Bridge Value := do
  doString E (← languageState language) source

/-- Ends a language: its state is closed and given up. -/
def finish (id : Nat) : Bridge Unit := do
  match (← language id).state with
  | some s =>
    closeState s
    modifyLanguage id ({ · with state := none })
  | none => pure ()
  modify fun w => if w.singleton = some id then { w with singleton := none } else w

/-- Gives a global of a state a value; nothing happens on a closed state. -/
def setGlobal (state : Nat) (name : Text) (v : Value) : Bridge Unit := do
  match ← state? state with
  | some s =>
    if s.isOpen then
      let v ← toGuest state v
      let k ← push state (.text name)
      let v ← push state v
      match k.key? with
      | .ok k => modifyHeap state fun h => h.set h.globals k v
      | .error _ => return
  | none => return

end HostedLua.Bridge
