import HostedLua.Status
import HostedLua.Text.Quoted

/-! Faults raised on the host side. A fault has a kind, kinds have parents, and the kind decides which
outcome a fault counts as. -/

namespace HostedLua

/-- The kind of a fault, by name. -/
structure FaultKind where
  name : Text
  deriving DecidableEq, Repr

namespace FaultKind

def ofString (s : String) : FaultKind := ⟨s⟩

/-- The kinds that a kind is directly one of. -/
def parents : List (String × List String) :=
  [("SystemExit", ["BaseException"]), ("KeyboardInterrupt", ["BaseException"]),
   ("GeneratorExit", ["BaseException"]), ("BaseException", []), ("Exception", ["BaseException"]),
   ("FloatingPointError", ["ArithmeticError"]), ("OverflowError", ["ArithmeticError"]),
   ("ZeroDivisionError", ["ArithmeticError"]), ("ModuleNotFoundError", ["ImportError"]),
   ("IndexError", ["LookupError"]), ("KeyError", ["LookupError"]),
   ("UnboundLocalError", ["NameError"]), ("FileNotFoundError", ["OSError"]),
   ("FileExistsError", ["OSError"]), ("PermissionError", ["OSError"]), ("TimeoutError", ["OSError"]),
   ("IsADirectoryError", ["OSError"]), ("NotADirectoryError", ["OSError"]),
   ("ConnectionError", ["OSError"]), ("NotImplementedError", ["RuntimeError"]),
   ("RecursionError", ["RuntimeError"]), ("IndentationError", ["SyntaxError"]),
   ("UnicodeError", ["ValueError"]), ("UnicodeDecodeError", ["UnicodeError"]),
   ("UnicodeEncodeError", ["UnicodeError"]), ("LuaSyntaxError", ["LuaError"]),
   ("LuaMemoryError", ["LuaError", "MemoryError"])]

/-- A kind is another one or below it. Kinds without an entry are ordinary ones. -/
def isA (k : FaultKind) (ancestor : String) : Bool := go 6 k
where
  go : Nat → FaultKind → Bool
    | 0, _ => false
    | fuel + 1, k =>
      if k = ofString ancestor then true
      else match parents.find? fun p => ofString p.1 = k with
        | some (_, ps) => ps.any fun p => go fuel (ofString p)
        | none => go fuel (ofString "Exception")

end FaultKind

/-- A fault: its kind and its text. -/
structure Fault where
  kind : FaultKind
  text : Text
  deriving DecidableEq, Repr

namespace Fault

def of (kind : String) (text : Text) : Fault := ⟨.ofString kind, text⟩

/-- A fault made from a kind and its argument; the text of a missing key is quoted. -/
def make (kind : FaultKind) (argument : Text) : Fault :=
  if kind.isA "KeyError" && !argument.isEmpty then ⟨kind, argument.quoted⟩ else ⟨kind, argument⟩

/-- A Lua error that carries its own text. -/
def isLua (f : Fault) : Bool := f.kind.isA "LuaError"

/-- A fault that protected calls take. -/
def isOrdinary (f : Fault) : Bool := f.kind.isA "Exception"

def described (f : Fault) : Text :=
  if f.text.isEmpty then f.kind.name else f.kind.name ++ ": " ++ f.text

/-- The message of a fault as an error: Lua errors give their text, others their kind too. -/
def message (f : Fault) : Text := if f.isLua then f.text else f.described

/-- A failure to encode text. -/
def ofEncoding (e : EncodeError) : Fault := .of "UnicodeEncodeError" e.message

/-- A failure to decode bytes. -/
def ofDecoding (e : Utf8.DecodeError) : Fault := .of "UnicodeDecodeError" e.message

end Fault

/-- The outcome that a message tells of. -/
def ErrorStatus.ofMessage (message : Text) : ErrorStatus :=
  if message.contains "not enough memory" then .memory
  else if message.contains "error in error handling" then .handler
  else if message.contains "error in __gc" then .collector
  else .runtime

/-- The outcome of a fault that leaves a call. -/
def Fault.status (f : Fault) : ErrorStatus :=
  if f.kind.isA "LuaSyntaxError" then .badSource
  else if f.kind.isA "MemoryError" then .memory
  else if f.isLua then .ofMessage f.message
  else .runtime

end HostedLua
