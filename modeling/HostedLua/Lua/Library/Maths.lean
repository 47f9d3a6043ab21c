import HostedLua.Lua.Library.Args

/-! The functions of the library on numbers. -/

namespace HostedLua.Lua.Library

/-- A float as an integer, if it fits. -/
def wholeValue (x : Float) : Value :=
  match exactInt? x with
  | some i => .int i
  | none => .float x

/-- The magnitude of a number. -/
def abs (args : Args) : Prog :=
  args.number 1 fun n =>
    match n with
    | .int i => .ret [.int (if i < 0 then -i else i)]
    | .float x => .ret [.float x.abs]

/-- The greatest integer at most a number. -/
def floor (args : Args) : Prog :=
  args.number 1 fun n =>
    match n with
    | .int i => .ret [.int i]
    | .float x => .ret [wholeValue x.floor]

/-- The least integer at least a number. -/
def ceil (args : Args) : Prog :=
  args.number 1 fun n =>
    match n with
    | .int i => .ret [.int i]
    | .float x => .ret [wholeValue x.ceil]

def sqrt (args : Args) : Prog := args.number 1 fun n => .ret [.float n.toFloat.sqrt]

/-- Picks one of its arguments by comparing each with the best one so far. -/
def extreme (better : Number → Number → Bool) (args : Args) : Prog :=
  args.number 1 fun n => go args.tail 2 n
where
  go : List Value → Nat → Number → Prog
    | [], _, best => .ret [.ofNumber best]
    | v :: rest, i, best =>
      Args.number (List.replicate (i - 1) .nil ++ [v]) i fun n =>
        go rest (i + 1) (if better n best then n else best)

def greatest (args : Args) : Prog := extreme (fun n best => Operate.below false best n) args

def least (args : Args) : Prog := extreme (fun n best => Operate.below false n best) args

/-- The integer that a value equals. -/
def tointeger (args : Args) : Prog :=
  args.any 1 fun v =>
    match v.toNumber?.bind Number.toInt? with
    | some i => .ret [.int i]
    | none => .ret [.nil]

/-- The subtype of a number. -/
def mathType (args : Args) : Prog :=
  args.any 1 fun v =>
    match v with
    | .int _ => .ret [.ofString "integer"]
    | .float _ => .ret [.ofString "float"]
    | _ => .ret [.nil]

end HostedLua.Lua.Library
