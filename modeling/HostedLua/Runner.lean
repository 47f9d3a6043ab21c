import HostedLua.Host.Run
import HostedLua.Excerpt

/-! Running chunks for a user: what Lua prints is captured as side effects, and an error is shown with the
lines of the source around it. -/

namespace HostedLua

open Host

/-- The outcome of a run. -/
structure Outcome where
  success : Bool
  value : Value := .none
  message : Value := .none
  line : Option Int := none
  effects : List Effect := []

namespace Outcome

def linePrefix : Text := "Error on line "

/-- The error of an outcome as text, with its line in front; the message is given as text. -/
def errorText (success : Bool) (message : Text) (line : Option Int) : Text :=
  if success then []
  else match line with
    | some l =>
      if linePrefix.isPrefixOf message then message
      else linePrefix ++ Text.ofInt l ++ ": " ++ message
    | none => message

end Outcome

namespace Bridge

/-- The message of an outcome as text, whatever it is; false ones are unknown. -/
def messageText (E : Engine) (message : Value) : Bridge Text := do
  if ← truthy message then str E message else return "Unknown error"

def formatError (E : Engine) (o : Outcome) : Bridge Text := do
  if o.success then return []
  return Outcome.errorText false (← messageText E o.message) o.line

/-- The lines of a source as they are shown; lines of bytes show quoted. -/
def sourceLines (source : Value) : List Text :=
  match source with
  | .text t => t.lines
  | .bytes b => (splitBytes b).map Bytes.quoted
  | _ => []
where
  /-- The lines of bytes; only line feeds and carriage returns end them. -/
  splitBytes (b : Bytes) : List Bytes := go b.length b
  go : Nat → Bytes → List Bytes
    | 0, _ => []
    | fuel + 1, b =>
      let line := b.takeWhile fun x => x ≠ 10 && x ≠ 13
      match b.drop line.length with
      | [] => if line.isEmpty then [] else [line]
      | 13 :: 10 :: rest => line :: go fuel rest
      | _ :: rest => line :: go fuel rest

/-- The message of an error without the place it names, with the lines around it; and the line. -/
def formatLuaError (e : LuaError) (source : Value) : Bridge (Text × Option Int) := do
  let shown (message : Text) : Text := e.status.name ++ ": " ++ message
  match Place.find e.message with
  | none => return (shown e.message, none)
  | some p =>
    match Integer.read p.digits with
    | .error err => raise "ValueError" (err.message p.digits.quoted)
    | .ok line =>
      let message := shown (p.removeFrom e.message)
      let excerpt := Excerpt.around (sourceLines source) line 2
      return (if excerpt.isEmpty then message else message ++ "\n" ++ excerpt, some line)

def runner (id : Nat) : Bridge Runner := do
  return ((← get).runners[id]?).getD { language := 0 }

def newRunner (language : Nat) (capture : Bool) : Bridge Nat := modifyGet fun w =>
  (w.runners.size, { w with runners := w.runners.push { language, capture } })

/-- Takes over what Lua prints in the present state, if that has not been done. -/
def bindPrint (id : Nat) : Bridge Unit := do
  let r ← runner id
  let l ← language r.language
  let state ← languageState r.language
  if !r.capture || r.bound = some state then return
  let print ← newObject (.callback (.capture l.diagnostics))
  setGlobal state "print" print
  modify fun w => { w with runners := w.runners.modify id ({ · with bound := some state }) }

/-- Runs a chunk and packages its outcome. -/
def handleScript (E : Engine) (id : Nat) (source : Value) : Bridge Outcome := do
  let r ← runner id
  let diagnostics := (← language r.language).diagnostics
  clearEffects diagnostics
  bindPrint id
  let result ← runIn E r.language source
  let success : Bridge Outcome := do
    return { success := true, value := result, effects := ← effects diagnostics }
  match result with
  | .obj v =>
    match ← object v with
    | .error e _ =>
      let (message, line) ← formatLuaError e source
      report diagnostics message
      return { success := false, message := .text message, line, effects := ← effects diagnostics }
    | _ => success
  | _ => success

end Bridge

end HostedLua
