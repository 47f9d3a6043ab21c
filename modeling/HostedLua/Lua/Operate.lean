import HostedLua.Lua.Prog

/-! The operators of Lua, metamethods included. Each takes the place it happens at and what is to be done
with its result; operands come with the names that messages call them by. -/

namespace HostedLua.Lua

/-- An operand: its value and how the code names it. -/
structure Operand where
  value : Value
  naming : Option Naming := none

/-- An operand's name in a message. -/
def Naming.text : Option Naming → Bytes
  | none => []
  | some n => .ofString (" (" ++ n.kind ++ " '") ++ n.name ++ .ofString "')"

/-- The name under which metamethods are called. -/
def metaSite (line : Option Nat) (event : String) : Site :=
  ⟨line, some ⟨"metamethod", .ofString (event.drop 2).toString⟩⟩

namespace Operate

open Prog (fail withHeap)

-- Powers are those of `Nat`, whatever powers an import adds.
attribute [local instance (2000)] instPowNat

/-- Throws that an operation does not work on a value. -/
def failType (line : Option Nat) (action : String) (a : Operand) : Prog :=
  withHeap fun h =>
    fail line (.ofString ("attempt to " ++ action ++ " a ") ++ h.typeName a.value ++ .ofString " value" ++
      Naming.text a.naming)

/-- The first of the results of a call. -/
def first (vs : List Value) : Value := vs.headD .nil

/-- The longest chain of `__index` or `__newindex` tables. -/
def maxChain : Nat := 2000

/-- Throws that a chain of tables is too long. -/
def failChain (line : Option Nat) (event : String) : Prog :=
  fail line (.ofString ("'" ++ event ++ "' chain too long; possibly a loop"))

/-- Reads a field, with `__index`. -/
def index (line : Option Nat) (a : Operand) (key : Value) (k : Value → Prog) : Prog :=
  go maxChain a k
where
  go : Nat → Operand → (Value → Prog) → Prog
    | 0, _, _ => failChain line "__index"
    | fuel + 1, a, k => withHeap fun h =>
      match a.value with
      | .host id => .ask (.get id key) fun vs => k (first vs)
      | .table id =>
        let v := match key.key? with
          | .ok key => h.get id key
          | .error _ => .nil
        match v with
        | .nil =>
          match h.metamethod a.value "__index" with
          | .nil => k .nil
          | handler => through fuel a.value handler k
        | v => k v
      | v =>
        match h.metamethod v "__index" with
        | .nil => failType line "index" a
        | handler => through fuel v handler k
  termination_by fuel => 2 * fuel
  through (fuel : Nat) (v handler : Value) (k : Value → Prog) : Prog :=
    match handler with
    | .closure _ | .builtin _ | .wrapped _ => .call (metaSite line "__index") handler [v, key] fun vs => k (first vs)
    | handler => go fuel ⟨handler, none⟩ k
  termination_by 2 * fuel + 1

/-- Throws that a value is no key. -/
def failKey (line : Option Nat) : KeyFault → Prog
  | .nil => fail line (.ofString "table index is nil")
  | .nan => fail line (.ofString "table index is NaN")

/-- Writes a field, with `__newindex`. -/
def setIndex (line : Option Nat) (a : Operand) (key v : Value) (k : Prog) : Prog :=
  go maxChain a
where
  go : Nat → Operand → Prog
    | 0, _ => failChain line "__newindex"
    | fuel + 1, a => withHeap fun h =>
      let through (handler : Value) : Prog :=
        match handler with
        | .closure _ | .builtin _ | .wrapped _ =>
          .call (metaSite line "__newindex") handler [a.value, key, v] fun _ => k
        | handler => go fuel ⟨handler, none⟩
      match a.value with
      | .table id =>
        let put : Prog :=
          match key.key? with
          | .ok key => .upd fun h => (h.set id key v, k)
          | .error e => failKey line e
        let old := match key.key? with
          | .ok key => h.get id key
          | .error _ => .nil
        match old with
        | .nil =>
          match h.metamethod a.value "__newindex" with
          | .nil => put
          | handler => through handler
        | _ => put
      | w =>
        match h.metamethod w "__newindex" with
        | .nil => failType line "index" a
        | handler => through handler

/-- The metamethod of the first operand that has one. -/
def binaryHandler (h : Heap) (event : String) (a b : Value) : Value :=
  match h.metamethod a event with
  | .nil => h.metamethod b event
  | handler => handler

/-- Floor division of integers, by other than zero. -/
def floorDiv (a b : Int64) : Int64 :=
  if b = -1 then -a else Int64.ofInt (Int.fdiv a.toInt b.toInt)

/-- The remainder of floor division, by other than zero. -/
def floorMod (a b : Int64) : Int64 := Int64.ofInt (Int.fmod a.toInt b.toInt)

/-- The bits moved to the left, or to the right by a negative count; zeros move in. -/
def shiftLeft (a n : Int64) : Int64 :=
  let bits := a.toUInt64
  if n ≤ -64 || 64 ≤ n then 0
  else if 0 ≤ n then (bits <<< n.toUInt64).toInt64
  else (bits >>> (-n).toUInt64).toInt64

/-- The remainder of finite division rounded toward zero, with the sign of the dividend. -/
def remainder (a b : Float) : Float :=
  match Binary.ofFloat a, Binary.ofFloat b with
  | .finite neg m e _, .finite _ n f _ =>
    if n = 0 then 0.0 / 0.0
    else
      let least := min e f
      let x := m * 2 ^ (e - least).toNat
      let y := n * 2 ^ (f - least).toNat
      let r := x % y
      if 0 ≤ least then Binary.ofRatio neg (r * 2 ^ least.toNat) 1
      else Binary.ofRatio neg r (2 ^ (-least).toNat)
  | .finite .., .infinite _ => a
  | _, _ => 0.0 / 0.0

/-- The remainder of floor division of floats. -/
def floatMod (a b : Float) : Float :=
  let r := remainder a b
  if (r > 0.0 && b < 0.0) || (r < 0.0 && b > 0.0) then r + b else r

/-- The event of an arithmetic or bitwise operator. -/
def event : BinaryOp → String
  | .add => "__add" | .sub => "__sub" | .mul => "__mul" | .mod => "__mod" | .pow => "__pow"
  | .div => "__div" | .idiv => "__idiv" | .band => "__band" | .bor => "__bor" | .bxor => "__bxor"
  | .shl => "__shl" | .shr => "__shr" | .concat => "__concat" | .eq | .ne => "__eq"
  | .lt | .gt => "__lt" | .le | .ge => "__le"

def isBitwise : BinaryOp → Bool
  | .band | .bor | .bxor | .shl | .shr => true
  | _ => false

inductive ArithFault where
  | divideByZero | moduloZero | noInteger
  deriving DecidableEq, Repr

/-- The result of an arithmetic or bitwise operator on numbers. -/
def compute (op : BinaryOp) (a b : Number) : Except ArithFault Number :=
  let floats (f : Float → Float → Float) : Except ArithFault Number := .ok (.float (f a.toFloat b.toFloat))
  let bits (f : Int64 → Int64 → Int64) : Except ArithFault Number :=
    match a.toInt?, b.toInt? with
    | some x, some y => .ok (.int (f x y))
    | _, _ => .error .noInteger
  match op, a, b with
  | .add, .int x, .int y => .ok (.int (x + y))
  | .sub, .int x, .int y => .ok (.int (x - y))
  | .mul, .int x, .int y => .ok (.int (x * y))
  | .idiv, .int x, .int y => if y = 0 then .error .divideByZero else .ok (.int (floorDiv x y))
  | .mod, .int x, .int y => if y = 0 then .error .moduloZero else .ok (.int (floorMod x y))
  | .add, _, _ => floats (· + ·)
  | .sub, _, _ => floats (· - ·)
  | .mul, _, _ => floats (· * ·)
  | .div, _, _ => floats (· / ·)
  | .idiv, _, _ => floats fun x y => (x / y).floor
  | .mod, _, _ => floats floatMod
  | .pow, _, _ => floats fun x y => if y == 2.0 then x * x else x.pow y
  | .band, _, _ => bits fun x y => (x.toUInt64 &&& y.toUInt64).toInt64
  | .bor, _, _ => bits fun x y => (x.toUInt64 ||| y.toUInt64).toInt64
  | .bxor, _, _ => bits fun x y => (x.toUInt64 ^^^ y.toUInt64).toInt64
  | .shl, _, _ => bits shiftLeft
  | .shr, _, _ => bits fun x y => if y = Int64.minValue then 0 else shiftLeft x (-y)
  | _, _, _ => .error .noInteger

def failArith (line : Option Nat) (e : ArithFault) (a b : Operand) : Prog :=
  match e with
  | .divideByZero => fail line (.ofString "attempt to divide by zero")
  | .moduloZero => fail line (.ofString "attempt to perform 'n%%0'")
  | .noInteger =>
    let culprit := match a.value.number? with
      | some n => if n.toInt?.isNone then a else b
      | none => b
    fail line (.ofString "number" ++ Naming.text culprit.naming ++
      .ofString " has no integer representation")

/-- An arithmetic or bitwise operator. -/
def arith (line : Option Nat) (op : BinaryOp) (a b : Operand) (k : Value → Prog) : Prog :=
  match a.value.number?, b.value.number? with
  | some x, some y =>
    match compute op x y with
    | .ok n => k (.ofNumber n)
    | .error e => failArith line e a b
  | x?, _ => withHeap fun h =>
    match binaryHandler h (event op) a.value b.value with
    | .nil =>
      let culprit := if x?.isNone then a else b
      failType line (if isBitwise op then "perform bitwise operation on" else "perform arithmetic on") culprit
    | handler => .call (metaSite line (event op)) handler [a.value, b.value] fun vs => k (first vs)

def negate : Number → Number
  | .int i => .int (-i)
  | .float x => .float (-x)

/-- A value with one operand: the negative, the bitwise complement or the length. -/
def unary (line : Option Nat) (op : UnaryOp) (a : Operand) (k : Value → Prog) : Prog :=
  let handled (event action : String) : Prog := withHeap fun h =>
    match h.metamethod a.value event with
    | .nil => failType line action a
    | handler => .call (metaSite line event) handler [a.value, a.value] fun vs => k (first vs)
  match op with
  | .not => k (.bool !a.value.truthy)
  | .neg =>
    match a.value.number? with
    | some n => k (.ofNumber (negate n))
    | none => handled "__unm" "perform arithmetic on"
  | .bnot =>
    match a.value.number? with
    | some n =>
      match n.toInt? with
      | some i => k (.int (~~~i.toUInt64).toInt64)
      | none => failArith line .noInteger a a
    | none => handled "__bnot" "perform bitwise operation on"
  | .len =>
    match a.value with
    | .str s => k (.ofNat s.length)
    | .table id => withHeap fun h =>
      match h.metamethod a.value "__len" with
      | .nil => k (.ofNat (h.table id).border)
      | handler => .call (metaSite line "__len") handler [a.value, a.value] fun vs => k (first vs)
    | _ => handled "__len" "get length of"

/-- Equality, with `__eq` between tables. -/
def equal (line : Option Nat) (a b : Value) (k : Bool → Prog) : Prog :=
  if a.rawEqual b then k true
  else match a, b with
    | .table _, .table _ => withHeap fun h =>
      match binaryHandler h "__eq" a b with
      | .nil => k false
      | handler => .call (metaSite line "__eq") handler [a, b] fun vs => k (first vs).truthy
    | _, _ => k false

/-- An integer against a float; none if the float is NaN. -/
def compareMixed (i : Int64) (x : Float) : Option Ordering :=
  match Binary.ofFloat x with
  | .nan => none
  | .infinite negative => some (if negative then .gt else .lt)
  | .finite negative m e _ =>
    let (num, den) := Binary.ratio m e
    let n : Int := if negative then -(num : Int) else num
    some (compare (i.toInt * den) n)

/-- One number is below another, or at most equal to it. -/
def below (orEqual : Bool) (a b : Number) : Bool :=
  let mixed (o : Option Ordering) : Bool := match o with
    | some .lt => true
    | some .eq => orEqual
    | _ => false
  match a, b with
  | .int x, .int y => if orEqual then x ≤ y else x < y
  | .float x, .float y => if orEqual then x ≤ y else x < y
  | .int x, .float y => mixed (compareMixed x y)
  | .float x, .int y => mixed ((compareMixed y x).map Ordering.swap)

/-- Bytewise order of strings. -/
def bytesBelow (orEqual : Bool) : Bytes → Bytes → Bool
  | [], [] => orEqual
  | [], _ :: _ => true
  | _ :: _, [] => false
  | a :: as, b :: bs => if a < b then true else if b < a then false else bytesBelow orEqual as bs

/-- The order of two values: below, or at most equal, with `__lt` and `__le`. -/
def less (line : Option Nat) (orEqual : Bool) (a b : Value) (k : Bool → Prog) : Prog :=
  match a, b with
  | .str s, .str t => k (bytesBelow orEqual s t)
  | a, b =>
    match a.number?, b.number? with
    | some x, some y => k (below orEqual x y)
    | _, _ => withHeap fun h =>
      let event := if orEqual then "__le" else "__lt"
      match binaryHandler h event a b with
      | .nil =>
        let s := h.typeName a
        let t := h.typeName b
        fail line (if s = t then .ofString "attempt to compare two " ++ s ++ .ofString " values"
          else .ofString "attempt to compare " ++ s ++ .ofString " with " ++ t)
      | handler => .call (metaSite line event) handler [a, b] fun vs => k (first vs).truthy

def concat (line : Option Nat) (a b : Operand) (k : Value → Prog) : Prog :=
  match a.value.toBytes?, b.value.toBytes? with
  | some s, some t => k (.str (s ++ t))
  | s?, _ => withHeap fun h =>
    match binaryHandler h "__concat" a.value b.value with
    | .nil => failType line "concatenate" (if s?.isNone then a else b)
    | handler => .call (metaSite line "__concat") handler [a.value, b.value] fun vs => k (first vs)

def binary (line : Option Nat) (op : BinaryOp) (a b : Operand) (k : Value → Prog) : Prog :=
  match op with
  | .concat => concat line a b k
  | .eq => equal line a.value b.value fun r => k (.bool r)
  | .ne => equal line a.value b.value fun r => k (.bool !r)
  | .lt => less line false a.value b.value fun r => k (.bool r)
  | .le => less line true a.value b.value fun r => k (.bool r)
  | .gt => less line false b.value a.value fun r => k (.bool r)
  | .ge => less line true b.value a.value fun r => k (.bool r)
  | op => arith line op a b k

/-- Calls the `__close` of a value that is no longer used, after an error if there is one. -/
def closeValue (v : Value) (error : Option Value) (k : Prog) : Prog :=
  withHeap fun h =>
    .call (metaSite none "__close") (h.metamethod v "__close")
      (v :: match error with
        | some e => [e]
        | none => []) fun _ => k

end Operate

end HostedLua.Lua
