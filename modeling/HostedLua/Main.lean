import HostedLua.Repl

/-! The program: reads and writes for the command line, and decides nothing. -/

namespace HostedLua.Program

open Host

/-- The engine that the program runs code with. -/
def engine : Engine := Bridge.engine Bridge.maxCalls

/-- The string of a text; code points that no string can hold become replacement characters. -/
def string (t : Text) : String := String.ofList (t.map fun c => Char.ofNat (if c.isSurrogate then 0xFFFD else c.val))

def contentOf (path : String) : IO Bridge.Content := do
  try
    return .ok (← IO.FS.readBinFile path).toList
  catch
    | .noFileOrDirectory .. => return .error (.of "FileNotFoundError" ("no such file: " ++ path))
    | e => return .error (.of "OSError" (toString e))

/-- Writes what a part of a run wrote. -/
def write (c : Console) : IO Unit := do
  let out ← IO.getStdout
  out.putStr (string c.out)
  out.flush
  (← IO.getStderr).putStr (string c.err)

/-- Runs a computation and writes what it logged and what Lua printed outside of any capture. -/
def run {α : Type} (x : Bridge α) (w : World) : IO (Except Fault α × World) := do
  match x.run.run w with
  | none => return (.error (.of "RuntimeError" "the run has no end"), w)
  | some (r, w) =>
    let out ← IO.getStdout
    out.write (ByteArray.mk w.output.toArray)
    let err ← IO.getStderr
    w.logs.reverse.forM fun t => err.putStrLn (string t)
    return (r, { w with logs := [], output := [] })

/-- Ends the run with a fault. -/
def failWith (f : Fault) : IO UInt32 := do
  (← IO.getStderr).putStrLn (string f.described)
  return 1

/-- Reads lines and responds to them. -/
partial def converse (runner : Nat) (w : World) : IO UInt32 := do
  write Repl.prompt
  let line ← (← IO.getStdin).getLine
  match ← run (Repl.respond engine runner (.line line)) w with
  | (.error f, _) => failWith f
  | (.ok (c, next), w) =>
    write c
    match next with
    | .goOn => converse runner w
    | .stop => return 0
    | .raises f => failWith f

/-- The options that the environment names a file of. -/
def configOf : IO (Bridge Config) := do
  match ← IO.getEnv "LUABRIDGE_CONFIG" with
  | none | some "" => return pure {}
  | some path =>
    let content ← contentOf path
    return Bridge.configOfFile engine path content

end HostedLua.Program

open HostedLua Program in
/-- Runs the file that the arguments name, or reads lines. -/
def main (args : List String) : IO UInt32 := do
  let config ← configOf
  match Repl.fileOf (args.map Text.ofString) with
  | some path =>
    let content ← contentOf (args.headD "")
    match ← run (do Repl.runFile engine (← Repl.openRunner config) path content) {} with
    | (.ok (c, code), _) =>
      write c
      match code with
      | .ok n => return n.toUInt32
      | .error f => failWith f
    | (.error f, _) => failWith f
  | none =>
    write Repl.greeting
    match ← run (Repl.openRunner config) {} with
    | (.ok runner, w) => converse runner w
    | (.error f, _) => failWith f
