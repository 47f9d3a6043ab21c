import HostedLua.Host.Recipe
import HostedLua.Host.Show
import HostedLua.Text.Lines
import HostedLua.Yaml.Content

/-! Options read from mappings and files. A mapping names options; keys that name none are logged and left
out. A file holds a mapping in YAML, or nothing. -/

namespace HostedLua

open Host

namespace Host.Config

def entries (c : Config) : List (String × Value) :=
  [("encoding", c.encoding), ("max_memory", c.maxMemory), ("unpack_returned_tuples", c.unpackTuples),
   ("register_eval", c.registerEval), ("register_builtins", c.registerBuiltins),
   ("default_base_type", c.defaultBaseType)]

def set? (c : Config) (name : Text) (v : Value) : Option Config :=
  if name = "encoding" then some { c with encoding := v }
  else if name = "max_memory" then some { c with maxMemory := v }
  else if name = "unpack_returned_tuples" then some { c with unpackTuples := v }
  else if name = "register_eval" then some { c with registerEval := v }
  else if name = "register_builtins" then some { c with registerBuiltins := v }
  else if name = "default_base_type" then some { c with defaultBaseType := v }
  else none

end Host.Config

namespace Bridge

/-- Sets the options that entries name, in order; others are logged. -/
def configOfEntries (E : Engine) (ps : List (Value × Value)) : Bridge Config :=
  ps.foldlM (fun c (k, v) => do
    let known := match k with
      | .text name => c.set? name v
      | _ => none
    match known with
    | some c => return c
    | none =>
      logWarning ("Ignoring unknown config key " ++ (← repr E k))
      return c) {}

/-- The options that a mapping gives. -/
def configOfMapping (E : Engine) (v : Value) : Bridge Config := do
  let refuse (typeName : Text) : Bridge Config :=
    raise "AttributeError" ("'" ++ typeName ++ "' object has no attribute 'items'")
  match v with
  | .obj id =>
    match ← object id with
    | .dict ps | .proxy ps => configOfEntries E ps
    | .badItems text =>
      let _ ← configOfEntries E [(.text "a", .int 1)]
      raise "ValueError" text
    | o => refuse o.typeName
  | v => refuse (← typeName v)

/-- The content of a file: its bytes, or the fault that keeps it from being read. -/
abbrev Content := Except Fault Bytes

def textOfFile (c : Content) : Bridge Text := do
  match c with
  | .error f => throw f
  | .ok b =>
    match Utf8.decodeFrom 0 b with
    | .ok t => return t.withLineFeeds
    | .error e => throw (.ofDecoding e)

def configOfFile (E : Engine) (path : Text) (c : Content) : Bridge Config := do
  let t ← textOfFile c
  match Yaml.document? t with
  | .error p => throw p.toFault
  | .ok none => return {}
  | .ok (some r) =>
    let v ← make 0 r
    let refuse : Bridge Config := do
      raise "ValueError"
        ("Config file " ++ path ++ " must contain a mapping, not " ++ (← typeName v))
    match v with
    | .none => return {}
    | .obj id =>
      match ← object id with
      | .dict ps | .proxy ps => configOfEntries E ps
      | _ => refuse
    | _ => refuse

/-- Two sets of options are equal. -/
def configEq (a b : Config) : Bridge Bool := do
  let w ← get
  return (a.entries.zip b.entries).all fun ((_, v), (_, u)) => w.valueEq w.eqDepth v u

/-- The options as a mapping that opening a state takes. -/
def optionEntries (c : Config) : Bridge (List (Value × Value)) := do
  let o ← c.options
  let base : List (Value × Value) :=
    [(.ofString "encoding", o.encoding), (.ofString "unpack_returned_tuples", o.unpackTuples),
     (.ofString "register_eval", o.registerEval), (.ofString "register_builtins", o.registerBuiltins)]
  return base ++ (o.maxMemory.map fun n => (.ofString "max_memory", .int n)).toList

end Bridge

end HostedLua
