import HostedLua.Config
import HostedLua.Printer
import HostedLua.Runner

/-! The command line: a file is run to its end, or lines are read and run one by one. A line is first tried
as an expression. What Lua prints and what a run gives goes to the output, errors to the error output. -/

namespace HostedLua

open Host

/-- What was written. -/
structure Console where
  out : Text := []
  err : Text := []

namespace Console

/-- What was written before and after. -/
def append (a b : Console) : Console := ⟨a.out ++ b.out, a.err ++ b.err⟩

instance : Append Console := ⟨append⟩

def line (t : Text) : Console := { out := t ++ "\n" }

/-- A line on the error output. -/
def complaint (t : Text) : Console := { err := t ++ "\n" }

end Console

namespace Repl

/-- The lines that greet a user. -/
def greeting : Console := Console.line "Lua REPL v0.1" ++ Console.line "Type 'exit' or press Ctrl+D to quit."

/-- What is shown before a line is read. -/
def prompt : Console := { out := "> " }

/-- What is shown when the input ends. -/
def farewell : Console := Console.line "\nExiting."

/-- What reading a line comes to; no text is the end of the input. -/
inductive Read where
  | line (t : Text)
  | failed (f : Fault)

/-- How to go on after a reading: a fault that nothing takes ends the conversation as well. -/
inductive Next where
  | goOn
  | stop
  | raises (f : Fault)
  deriving DecidableEq, Repr

/-- What Lua printed in a run. -/
def printed (es : List Effect) : Console :=
  (es.filter (·.isOnly "stdout")).foldl (fun c e => c ++ .line e.message) {}

/-- What a successful run shows: what Lua printed, and the value if there is one. -/
def shownValue (E : Engine) (o : Outcome) : Bridge Text := do
  match o.value with
  | .none => return []
  | v => return (← Printer.format {} E v 0) ++ "\n"

/-- The outcome of a line, as an expression, or as statements if it is none. -/
def evaluate (E : Engine) (runner : Nat) (line : Text) : Bridge Outcome := do
  let o ← Bridge.handleScript E runner (.text ("return " ++ line))
  let isMalformed := match o.message with
    | .text t => !o.success && (ErrorStatus.badSource.name : Text).isPrefixOf t
    | _ => false
  if isMalformed then Bridge.handleScript E runner (.text line) else return o

/-- What becomes of a fault: the end of the input and an interruption end the conversation, ordinary faults are shown. -/
def recover (f : Fault) : Console × Next :=
  if f.kind.isA "EOFError" || f.kind.isA "KeyboardInterrupt" then (farewell, .stop)
  else if f.isOrdinary then (.complaint ("Error: " ++ f.text), .goOn)
  else ({}, .raises f)

/-- What a line that is not empty shows. -/
def answer (E : Engine) (runner : Nat) (line : Text) : Bridge (Console × Next) := do
  match ← Bridge.attempt (evaluate E runner line) with
  | .error f => return recover f
  | .ok o =>
    if o.success then
      match ← Bridge.attempt (shownValue E o) with
      | .ok t => return (printed o.effects ++ { out := t }, .goOn)
      | .error f => return (printed o.effects ++ (recover f).1, (recover f).2)
    else
      match ← Bridge.attempt (Bridge.formatError E o) with
      | .ok t => return (.complaint t, .goOn)
      | .error f => return recover f

def respond (E : Engine) (runner : Nat) (r : Read) : Bridge (Console × Next) := do
  match r with
  | .failed f => return recover f
  | .line [] => return (farewell, .stop)
  | .line t =>
    let t := t.strip
    if t.isEmpty then return ({}, .goOn)
    else if t == ("exit" : Text) then return ({}, .stop)
    else answer E runner t

/-- Responds to one reading after the other. A fault that ends the conversation comes with what was written
before it. -/
def converse (E : Engine) (runner : Nat) : List Read → Bridge (Console × Option Fault)
  | [] => return (prompt ++ farewell, none)
  | r :: rest => do
    let (c, next) ← respond E runner r
    match next with
    | .goOn =>
      let (d, f) ← converse E runner rest
      return (prompt ++ c ++ d, f)
    | .stop => return (prompt ++ c, none)
    | .raises f => return (prompt ++ c, some f)

/-- A runner in the language that scripts belong to by default, made with the given options. -/
def openRunner (config : Bridge Config) : Bridge Nat := do
  let l ← Bridge.newLanguage (← config) none
  modify fun w => { w with singleton := some l }
  Bridge.newRunner l true

/-- Shows the outcome of a file: the exit code, or the fault that ends the run, with what was written. -/
def showRun (E : Engine) (o : Outcome) : Bridge (Console × Except Fault Nat) := do
  let shown := printed o.effects
  if o.success then
    match ← Bridge.attempt (shownValue E o) with
    | .ok t => return (shown ++ { out := t }, .ok 0)
    | .error f => return (shown, .error f)
  else
    match ← Bridge.attempt (Bridge.formatError E o) with
    | .ok t => return (shown ++ .complaint t, .ok 1)
    | .error f => return (shown, .error f)

def runFile (E : Engine) (runner : Nat) (path : Text) (c : Bridge.Content) :
    Bridge (Console × Except Fault Nat) := do
  match c with
  | .error f =>
    if f.kind.isA "FileNotFoundError" then
      return (.complaint ("Error: file not found: " ++ path), .ok 1)
    else throw f
  | c =>
    let source ← Bridge.textOfFile c
    showRun E (← Bridge.handleScript E runner (.text source))

/-- The file that arguments name, if they name one. -/
def fileOf (args : List Text) : Option Text :=
  match args with
  | a :: _ => if a.head? = some (CodePoint.ofChar '-') then none else some a
  | [] => none

/-- A whole run: the arguments, the content of files, the options, and what is read. The exit code or the
fault that ends the run is given with what was written. -/
def main (E : Engine) (args : List Text) (content : Text → Bridge.Content) (config : Bridge Config)
    (reads : List Read) : Bridge (Console × Except Fault Nat) := do
  match fileOf args with
  | some path =>
    match ← Bridge.attempt (do runFile E (← openRunner config) path (content path)) with
    | .ok r => return r
    | .error f => return ({}, .error f)
  | none =>
    match ← Bridge.attempt (openRunner config) with
    | .error f => return (greeting, .error f)
    | .ok runner =>
      let (c, f) ← converse E runner reads
      return (greeting ++ c, match f with
        | some f => .error f
        | none => .ok 0)

end Repl

end HostedLua
