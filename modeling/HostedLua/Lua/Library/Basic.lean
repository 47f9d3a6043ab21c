import HostedLua.Lua.Library.Args

/-! The functions of the library that stand among the globals. -/

namespace HostedLua.Lua.Library

open Operate (first)

/-- Throws a value; a string is prefixed by the place at a depth of the stack. -/
def throwAt (level : Int64) (v : Value) : Prog :=
  match v with
  | .str s =>
    if 0 < level then .look fun view => .raise (.str (position view level.toNatClampNeg ++ s)) else .raise v
  | v => .raise v

/-- Gives its arguments back, or throws the second one if the first one is false. -/
def assert (args : Args) : Prog :=
  args.any 1 fun v =>
    if v.truthy then .ret args
    else throwAt 1 ((args.get? 2).getD (.ofString "assertion failed!"))

/-- Throws its first argument. -/
def error (args : Args) : Prog := args.intOr 2 1 fun level => throwAt level (args.get 1)

/-- The metatable of a value, or what its `__metatable` says. -/
def getmetatable (args : Args) : Prog :=
  args.any 1 fun v => .withHeap fun h =>
    match h.metatable? v with
    | none => .ret [.nil]
    | some id =>
      match h.get id (.str (.ofString "__metatable")) with
      | .nil => .ret [.table id]
      | field => .ret [field]

/-- Gives a table a metatable. -/
def setmetatable (args : Args) : Prog :=
  let put (mt : Option Nat) : Prog :=
    args.table 1 fun id => .withHeap fun h =>
      match h.metamethod (.table id) "__metatable" with
      | .nil => .upd fun h => (h.modifyTable id fun t => { t with metatable := mt }, .ret [.table id])
      | _ => failHere (.ofString "cannot change a protected metatable")
  match args.get? 2 with
  | some (.table mt) => put (some mt)
  | some .nil => put none
  | v => args.table 1 fun _ => failArgType 2 "nil or table" v

/-- The walk over 1, 2, … up to the first nil. -/
def ipairs (args : Args) : Prog :=
  args.any 1 fun v => .ret [.builtin .ipairsNext, v, .int 0]

def ipairsNext (args : Args) : Prog :=
  args.int 2 fun i =>
    let i := i + 1
    Operate.index none ⟨args.get 1, none⟩ (.int i) fun v =>
      if v.isNil then .ret [.nil] else .ret [.int i, v]

def next (args : Args) : Prog :=
  args.table 1 fun id => .withHeap fun h =>
    let after (k : Option Key) : Prog :=
      match (h.table id).next? k with
      | some (k, v) => .ret [k.value, v]
      | none => .ret [.nil]
    match args.get 2 with
    | .nil => after none
    | v =>
      match v.key? with
      | .ok k => after (some k)
      | .error _ => failHere (.ofString "invalid key to 'next'")

/-- The walk over all entries, or the one that `__pairs` gives. -/
def pairs (args : Args) : Prog :=
  args.any 1 fun v => .withHeap fun h =>
    match h.metamethod v "__pairs" with
    | .nil => .ret [.builtin .next, v, .nil]
    | handler => .call ⟨none, none⟩ handler [v] fun vs => .ret [vs.getD 0 .nil, vs.getD 1 .nil, vs.getD 2 .nil]

/-- Calls a value and gives what it returns or throws. -/
def pcall (args : Args) : Prog :=
  args.any 1 fun f =>
    .attempt f args.tail fun r =>
      match r with
      | .ok vs => .ret (.bool true :: vs)
      | .error t => .ret [.bool false, t.seen]

/-- Writes its arguments, between tabs, as a line. -/
def print (args : Args) : Prog := go args []
where
  go : List Value → Bytes → Prog
    | [], line => .ask (.write (line ++ [10])) fun _ => .ret []
    | [v], line => text v fun s => go [] (line ++ s)
    | v :: w :: rest, line => text v fun s => go (w :: rest) (line ++ s ++ [9])

/-- Equality without metamethods. -/
def rawequal (args : Args) : Prog :=
  args.any 1 fun v => args.any 2 fun w => .ret [.bool (v.rawEqual w)]

/-- The length without metamethods. -/
def rawlen (args : Args) : Prog :=
  match args.get? 1 with
  | some (.table id) => .withHeap fun h => .ret [.ofNat (h.table id).border]
  | some (.str s) => .ret [.ofNat s.length]
  | v => failArgType 1 "table or string" v

/-- The value at a key without metamethods. -/
def rawget (args : Args) : Prog :=
  args.table 1 fun id => args.any 2 fun v =>
    match v.key? with
    | .ok k => .withHeap fun h => .ret [h.get id k]
    | .error _ => .ret [.nil]

/-- Puts a value at a key without metamethods. -/
def rawset (args : Args) : Prog :=
  args.table 1 fun id => args.any 2 fun v => args.any 3 fun w =>
    match v.key? with
    | .ok k => .upd fun h => (h.set id k w, .ret [.table id])
    | .error e => Operate.failKey none e

/-- The arguments from a place on, or their count. -/
def select (args : Args) : Prog :=
  let n : Int := args.length
  let pick : Prog := args.int 1 fun i =>
    let i := i.toInt
    let from_ := if i < 0 then n + i else if n < i then n else i
    if from_ < 1 then failArg 1 (.ofString "index out of range") else .ret (args.drop from_.toNat)
  match args.get 1 with
  | .str (35 :: _) => .ret [.ofNat (args.length - 1)]
  | _ => pick

/-- The digits of a numeral in a base up to 36. -/
def digitIn (base : Nat) (b : UInt8) : Option Nat :=
  let n := if isDigit b then some (b.toNat - 48)
    else if 97 ≤ b && b ≤ 122 then some (b.toNat - 87)
    else if 65 ≤ b && b ≤ 90 then some (b.toNat - 55)
    else none
  n.filter (· < base)

def readInBase (base : Nat) (s : Bytes) : Option Int64 :=
  let (negative, body) := match s.dropWhile isSpace with
    | 45 :: rest => (true, rest)
    | rest => (false, rest)
  let ds := body.takeWhile fun b => (digitIn base b).isSome
  if ds.isEmpty || !(body.drop ds.length).all isSpace then none
  else
    let n := ds.foldl (fun n b => n * base + (digitIn base b).getD 0) 0
    let i := Int64.ofNat n
    some (if negative then -i else i)

/-- The number that a value is or reads as. -/
def tonumber (args : Args) : Prog :=
  if args.isAbsent 2 then
    match args.get 1 with
    | .str s => .ret [((Number.read? s).map Value.ofNumber).getD .nil]
    | v =>
      match v.number? with
      | some n => .ret [.ofNumber n]
      | none => args.any 1 fun _ => .ret [.nil]
  else
    args.int 2 fun base =>
      match args.get? 1 with
      | some (.str s) =>
        if base < 2 || 36 < base then failArg 2 (.ofString "base out of range")
        else .ret [((readInBase base.toNatClampNeg s).map Value.int).getD .nil]
      | v => failArgType 1 "string" v

def tostring (args : Args) : Prog := args.any 1 fun v => text v fun s => .ret [.str s]

def type (args : Args) : Prog := args.any 1 fun v => .ret [.ofString v.typeName]

/-- Memory is never collected; the count of what is in use is in kilobytes. -/
def collectgarbage (args : Args) : Prog :=
  args.strOr 1 (.ofString "collect") fun opt =>
    if opt = .ofString "count" then .ret [.float 24.0]
    else if opt = .ofString "isrunning" then .ret [.bool true]
    else if opt = .ofString "step" then .ret [.bool true]
    else .ret [.int 0]

end HostedLua.Lua.Library
