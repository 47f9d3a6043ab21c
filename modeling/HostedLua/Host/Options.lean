import HostedLua.Host.Crossing
import HostedLua.Host.Diagnostics
import HostedLua.Number.Integer

/-! The options of a Lua state as they are used: names checked and numbers read. -/

namespace HostedLua

open Host

namespace Bridge

/-- A value as a whole number: numbers lose their fraction, and text is read. -/
def toInt (v : Value) : Bridge Int := do
  let readText (t quoted : Text) : Bridge Int :=
    match Integer.read t with
    | .ok i => return i
    | .error e => raise "ValueError" (e.message quoted)
  match v with
  | .text t => readText t t.quoted
  | .bytes b => readText b.widen b.quoted
  | .float x =>
    match Binary.ofFloat x with
    | .nan => raise "ValueError" "cannot convert float NaN to integer"
    | .infinite _ => raise "OverflowError" "cannot convert float infinity to integer"
    | .finite .. => return (Binary.truncated? x).getD 0
  | .obj id =>
    match ← object id with
    | .byteArray b => readText b.widen ("bytearray(" ++ b.quoted ++ ")")
    | o => raise "TypeError" ("int() argument must be a string, a bytes-like object or a real number, not '" ++
        o.typeName ++ "'")
  | v =>
    match v.int? with
    | some i => return i
    | none => raise "TypeError" "int() argument must be a string, a bytes-like object or a real number"

/-- The name of the escaping set for an encoding; none keeps bytes. Unknown encodings are refused. -/
def guestCodec (encoding : Value) : Bridge Value := do
  match encoding with
  | .none => return .none
  | .text t =>
    match Charset.lookup t with
    | some _ => return .text (Charset.escapedPrefix ++ t)
    | none => raise "LookupError" ("unknown encoding: " ++ t)
  | _ => raise "TypeError" "lookup() argument must be str"

/-- The set that an encoding's name stands for, if it is one of this library. -/
def charset? (encoding : Value) : Option Charset :=
  match encoding with
  | .text t => (Charset.lookup t).bind Charset.Entry.charset?
  | _ => none

/-- Text as decoded from Lua, or its bytes when it carries undecodable ones. -/
def hostText (t : Text) (encoding : Value) : Bridge Value := do
  if t.isClean then return .text t
  else
    let name : Value := match encoding with
      | .none | .text [] => .text "utf-8"
      | e => e
    match charset? name with
    | some cs =>
      match cs.encodeEscaped t with
      | .ok b => return .bytes b
      | .error e => throw (.ofEncoding e)
    | none =>
      match name with
      | .text n => raise "LookupError" ("unknown encoding: " ++ n)
      | _ => raise "TypeError" "encode() argument 'encoding' must be str"

end Bridge

/-- Options in the form that opening a state takes. -/
structure Options where
  encoding : Value
  unpackTuples : Value
  registerEval : Value
  registerBuiltins : Value
  maxMemory : Option Int

/-- The options in use; the limit on memory is left out where it is not given. -/
def Host.Config.options (c : Config) : Bridge Options := do
  let encoding ← Bridge.guestCodec c.encoding
  let maxMemory ← match c.maxMemory with
    | .none => pure none
    | v => some <$> Bridge.toInt v
  return { encoding, unpackTuples := c.unpackTuples, registerEval := c.registerEval,
           registerBuiltins := c.registerBuiltins, maxMemory }

end HostedLua
