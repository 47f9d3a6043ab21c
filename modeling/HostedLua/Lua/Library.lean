import HostedLua.Lua.Library.Basic
import HostedLua.Lua.Library.Strings
import HostedLua.Lua.Library.Tables
import HostedLua.Lua.Library.Maths
import HostedLua.Lua.Library.Threads

/-! The library as a whole: what each function does, and the globals of a new machine. -/

namespace HostedLua.Lua

/-- What a function of the library does with arguments. -/
def Builtin.enter (b : Builtin) (args : List Value) : Prog :=
  match b with
  | .assert => Library.assert args
  | .error => Library.error args
  | .getmetatable => Library.getmetatable args
  | .ipairs => Library.ipairs args
  | .ipairsNext => Library.ipairsNext args
  | .next => Library.next args
  | .pairs => Library.pairs args
  | .pcall => Library.pcall args
  | .print => Library.print args
  | .rawequal => Library.rawequal args
  | .rawget => Library.rawget args
  | .rawlen => Library.rawlen args
  | .rawset => Library.rawset args
  | .select => Library.select args
  | .setmetatable => Library.setmetatable args
  | .tonumber => Library.tonumber args
  | .tostring => Library.tostring args
  | .type => Library.type args
  | .collectgarbage => Library.collectgarbage args
  | .byte => Library.byte args
  | .char => Library.char args
  | .len => Library.len args
  | .lower => Library.lower args
  | .rep => Library.rep args
  | .reverse => Library.reverse args
  | .sub => Library.sub args
  | .upper => Library.upper args
  | .strAdd => Library.stringArith .add args
  | .strSub => Library.stringArith .sub args
  | .strMul => Library.stringArith .mul args
  | .strMod => Library.stringArith .mod args
  | .strPow => Library.stringArith .pow args
  | .strDiv => Library.stringArith .div args
  | .strIdiv => Library.stringArith .idiv args
  | .strUnm => Library.stringNegate args
  | .concat => Library.concat args
  | .insert => Library.insert args
  | .pack => Library.pack args
  | .remove => Library.remove args
  | .sort => Library.sort args
  | .unpack => Library.unpack args
  | .abs => Library.abs args
  | .ceil => Library.ceil args
  | .floor => Library.floor args
  | .max => Library.greatest args
  | .min => Library.least args
  | .sqrt => Library.sqrt args
  | .tointeger => Library.tointeger args
  | .mathType => Library.mathType args
  | .coCreate => Library.coCreate args
  | .coResume => Library.coResume args
  | .coYield => Library.coYield args
  | .coStatus => Library.coStatus args
  | .coWrap => Library.coWrap args
  | .coClose => Library.coClose args
  | .coRunning => Library.coRunning
  | .coIsYieldable => Library.coIsYieldable
  | .traceback => Library.traceback args

namespace Library

def addNamed (h : Heap) (fields : List (String × Value)) : Heap × Nat :=
  let (h, id) := h.newTable
  (fields.foldl (fun h (name, v) => h.set id (.str (.ofString name)) v) h, id)

def strings : List (String × Value) :=
  [("byte", .builtin .byte), ("char", .builtin .char), ("len", .builtin .len),
   ("lower", .builtin .lower), ("rep", .builtin .rep), ("reverse", .builtin .reverse),
   ("sub", .builtin .sub), ("upper", .builtin .upper)]

def stringMetamethods : List (String × Value) :=
  [("__add", .builtin .strAdd), ("__sub", .builtin .strSub), ("__mul", .builtin .strMul),
   ("__mod", .builtin .strMod), ("__pow", .builtin .strPow), ("__div", .builtin .strDiv),
   ("__idiv", .builtin .strIdiv), ("__unm", .builtin .strUnm)]

/-- The functions on sequences. -/
def tables : List (String × Value) :=
  [("concat", .builtin .concat), ("insert", .builtin .insert), ("pack", .builtin .pack),
   ("remove", .builtin .remove), ("sort", .builtin .sort), ("unpack", .builtin .unpack)]

/-- The functions on numbers. -/
def maths : List (String × Value) :=
  [("abs", .builtin .abs), ("ceil", .builtin .ceil), ("floor", .builtin .floor),
   ("huge", .float (1.0 / 0.0)), ("max", .builtin .max), ("maxinteger", .int Int64.maxValue),
   ("min", .builtin .min), ("mininteger", .int Int64.minValue), ("pi", .float 3.141592653589793),
   ("sqrt", .builtin .sqrt), ("tointeger", .builtin .tointeger), ("type", .builtin .mathType)]

def threads : List (String × Value) :=
  [("close", .builtin .coClose), ("create", .builtin .coCreate),
   ("isyieldable", .builtin .coIsYieldable), ("resume", .builtin .coResume),
   ("running", .builtin .coRunning), ("status", .builtin .coStatus), ("wrap", .builtin .coWrap),
   ("yield", .builtin .coYield)]

/-- The functions among the globals. -/
def basics : List (String × Value) :=
  [("assert", .builtin .assert), ("collectgarbage", .builtin .collectgarbage),
   ("error", .builtin .error), ("getmetatable", .builtin .getmetatable),
   ("ipairs", .builtin .ipairs), ("next", .builtin .next), ("pairs", .builtin .pairs),
   ("pcall", .builtin .pcall), ("print", .builtin .print), ("rawequal", .builtin .rawequal),
   ("rawget", .builtin .rawget), ("rawlen", .builtin .rawlen), ("rawset", .builtin .rawset),
   ("select", .builtin .select), ("setmetatable", .builtin .setmetatable),
   ("tonumber", .builtin .tonumber), ("tostring", .builtin .tostring), ("type", .builtin .type),
   ("_VERSION", .ofString "Lua 5.5")]

/-- The memory of a new machine: the library, and a table of bridge values under a name. -/
def initialHeap (limit : Option Nat) (bridge : List (String × Value)) : Heap :=
  let (h, stringTable) := addNamed { limit } strings
  let (h, stringMeta) := addNamed h (("__index", .table stringTable) :: stringMetamethods)
  let (h, tableTable) := addNamed h tables
  let (h, mathTable) := addNamed h maths
  let (h, threadTable) := addNamed h threads
  let (h, debugTable) := addNamed h [("traceback", .builtin .traceback)]
  let (h, ioTable) := addNamed h [("stdout", .stdout)]
  let (h, bridgeTable) := addNamed h bridge
  let (h, globals) := addNamed h (basics ++
    [("string", .table stringTable), ("table", .table tableTable), ("math", .table mathTable),
     ("coroutine", .table threadTable), ("debug", .table debugTable), ("io", .table ioTable),
     ("python", .table bridgeTable)])
  { h.set globals (.str (.ofString "_G")) (.table globals) with globals, strings := stringMeta }

end Library

end HostedLua.Lua
