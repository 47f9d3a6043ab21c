import HostedLua.Lua.Numeral

/-! Lua values and table keys. Tables, closures and threads are numbers that a machine gives meaning to;
objects of the host are numbers that the host does. `Value.key?` takes a value to the key that is equal to it,
so that two values are raw-equal exactly when their keys are. -/

namespace HostedLua.Lua

inductive Builtin where
  | assert | error | getmetatable | ipairs | ipairsNext | next | pairs | pcall | print | rawequal | rawget
  | rawlen | rawset | select | setmetatable | tonumber | tostring | type | collectgarbage
  | byte | char | len | lower | rep | reverse | sub | upper
  | strAdd | strSub | strMul | strMod | strPow | strDiv | strIdiv | strUnm
  | concat | insert | pack | remove | sort | unpack
  | abs | ceil | floor | max | min | sqrt | tointeger | mathType
  | coCreate | coResume | coYield | coStatus | coWrap | coClose | coRunning | coIsYieldable
  | traceback
  deriving DecidableEq, Repr

namespace Builtin

/-- The name under which the library holds a function. -/
def name : Builtin → String
  | .assert => "assert" | .error => "error" | .getmetatable => "getmetatable" | .ipairs => "ipairs"
  | .ipairsNext => "?" | .next => "next" | .pairs => "pairs" | .pcall => "pcall" | .print => "print"
  | .rawequal => "rawequal" | .rawget => "rawget" | .rawlen => "rawlen" | .rawset => "rawset"
  | .select => "select" | .setmetatable => "setmetatable" | .tonumber => "tonumber"
  | .tostring => "tostring" | .type => "type" | .collectgarbage => "collectgarbage"
  | .byte => "string.byte" | .char => "string.char" | .len => "string.len" | .lower => "string.lower"
  | .rep => "string.rep" | .reverse => "string.reverse" | .sub => "string.sub" | .upper => "string.upper"
  | .strAdd | .strSub | .strMul | .strMod | .strPow | .strDiv | .strIdiv | .strUnm => "?"
  | .concat => "table.concat" | .insert => "table.insert" | .pack => "table.pack"
  | .remove => "table.remove" | .sort => "table.sort" | .unpack => "table.unpack"
  | .abs => "math.abs" | .ceil => "math.ceil" | .floor => "math.floor" | .max => "math.max"
  | .min => "math.min" | .sqrt => "math.sqrt" | .tointeger => "math.tointeger"
  | .mathType => "math.type"
  | .coCreate => "coroutine.create" | .coResume => "coroutine.resume" | .coYield => "coroutine.yield"
  | .coStatus => "coroutine.status" | .coWrap => "coroutine.wrap" | .coClose => "coroutine.close"
  | .coRunning => "coroutine.running" | .coIsYieldable => "coroutine.isyieldable"
  | .traceback => "debug.traceback"

end Builtin

inductive Value where
  | nil
  | bool (b : Bool)
  | int (i : Int64)
  | float (x : Float)
  | str (s : Bytes)
  | table (id : Nat)
  | closure (id : Nat)
  | builtin (b : Builtin)
  /-- The function that resumes a thread, as `coroutine.wrap` gives it. -/
  | wrapped (thread : Nat)
  | thread (id : Nat)
  /-- The standard output file. -/
  | stdout
  /-- An object of the host. -/
  | host (id : Nat)

/-- A float that is a key of its own, by its bits: it is a number, and no integer equals it. -/
structure FloatKey where
  bits : UInt64
  toBits_ofBits : (Float.ofBits bits).toBits = bits
  exactInt?_ofBits : exactInt? (Float.ofBits bits) = none
  isNaN_ofBits : (Float.ofBits bits).isNaN = false
  deriving DecidableEq

/-- The key that a float is, if it is one of its own. -/
def FloatKey.ofFloat? (x : Float) : Option FloatKey :=
  let y := Float.ofBits x.toBits
  if h : y.toBits = x.toBits ∧ exactInt? y = none ∧ y.isNaN = false then some ⟨x.toBits, h.1, h.2.1, h.2.2⟩
  else none

/-- A table key: a value other than nil and NaN, integral floats as integers. -/
inductive Key where
  | int (i : Int64)
  | bool (b : Bool)
  | float (x : FloatKey)
  | str (s : Bytes)
  | table (id : Nat)
  | closure (id : Nat)
  | builtin (b : Builtin)
  | wrapped (thread : Nat)
  | thread (id : Nat)
  | stdout
  | host (id : Nat)
  deriving DecidableEq

namespace Key

/-- The place of a key in the walk order: positive integers ascending, then all else. -/
def code : Key → List Nat
  | .int i => if 0 < i then [0, i.toUInt64.toNat] else [1, i.toUInt64.toNat]
  | .bool b => [2, b.toNat]
  | .float x => [3, x.bits.toNat]
  | .str s => 4 :: s.map UInt8.toNat
  | .table id => [5, id]
  | .closure id => [6, id]
  | .builtin b => [7, b.ctorIdx]
  | .wrapped t => [8, t]
  | .thread t => [9, t]
  | .stdout => [10]
  | .host id => [11, id]

def order (a b : Key) : Ordering := compare a.code b.code

def value : Key → Value
  | .int i => .int i
  | .bool b => .bool b
  | .float x => .float (Float.ofBits x.bits)
  | .str s => .str s
  | .table id => .table id
  | .closure id => .closure id
  | .builtin b => .builtin b
  | .wrapped t => .wrapped t
  | .thread t => .thread t
  | .stdout => .stdout
  | .host id => .host id

end Key

inductive KeyFault where
  | nil | nan
  deriving DecidableEq, Repr

namespace Value

def key? : Value → Except KeyFault Key
  | .nil => .error .nil
  | .bool b => .ok (.bool b)
  | .int i => .ok (.int i)
  | .float x =>
    match exactInt? x with
    | some i => .ok (.int i)
    | none =>
      match FloatKey.ofFloat? x with
      | some k => .ok (.float k)
      | none => .error .nan
  | .str s => .ok (.str s)
  | .table id => .ok (.table id)
  | .closure id => .ok (.closure id)
  | .builtin b => .ok (.builtin b)
  | .wrapped t => .ok (.wrapped t)
  | .thread t => .ok (.thread t)
  | .stdout => .ok .stdout
  | .host id => .ok (.host id)

/-- Equality without metamethods. -/
def rawEqual (a b : Value) : Bool :=
  match a.key?, b.key? with
  | .ok k, .ok l => k == l
  | .error .nil, .error .nil => true
  | _, _ => false

/-- All values but nil and false count as true. -/
def truthy : Value → Bool
  | .nil | .bool false => false
  | _ => true

def isNil : Value → Bool
  | .nil => true
  | _ => false

def typeName : Value → String
  | .nil => "nil"
  | .bool _ => "boolean"
  | .int _ | .float _ => "number"
  | .str _ => "string"
  | .table _ => "table"
  | .closure _ | .builtin _ | .wrapped _ => "function"
  | .thread _ => "thread"
  | .stdout | .host _ => "userdata"

def ofString (s : String) : Value := .str (.ofString s)

/-- A natural number as an integer value. -/
def ofNat (n : Nat) : Value := .int (Int64.ofNat n)

def ofNumber : Number → Value
  | .int i => .int i
  | .float x => .float x

def number? : Value → Option Number
  | .int i => some (.int i)
  | .float x => some (.float x)
  | _ => none

/-- The number that a value is or, as a string, reads as. -/
def toNumber? : Value → Option Number
  | .int i => some (.int i)
  | .float x => some (.float x)
  | .str s => Number.read? s
  | _ => none

/-- The string that a value is or, as a number, is written as. -/
def toBytes? : Value → Option Bytes
  | .str s => some s
  | .int i => some (Number.text (.int i))
  | .float x => some (Number.text (.float x))
  | _ => none

end Value

namespace Number

def toFloat : Number → Float
  | .int i => floatOf i
  | .float x => x

/-- A number as an integer, if it equals one. -/
def toInt? : Number → Option Int64
  | .int i => some i
  | .float x => exactInt? x

end Number

end HostedLua.Lua
