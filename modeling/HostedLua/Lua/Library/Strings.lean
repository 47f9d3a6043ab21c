import HostedLua.Lua.Library.Args

/-! The functions of the library on strings, and the arithmetic that strings take part in. -/

namespace HostedLua.Lua.Library

open Operate (first)

/-- A start counted from 1, or from the end if it is negative. -/
def startIndex (i : Int64) (length : Nat) : Nat :=
  let i := i.toInt
  if 0 < i then i.toNat
  else if i = 0 then 1
  else if i < -(length : Int) then 1
  else (length + i + 1).toNat

/-- An end counted from 1, or from the end if it is negative. -/
def endIndex (i : Int64) (length : Nat) : Nat :=
  let i := i.toInt
  if (length : Int) < i then length
  else if 0 ≤ i then i.toNat
  else if i < -(length : Int) then 0
  else (length + i + 1).toNat

/-- The part of a string between two places. -/
def slice (s : Bytes) (start stop : Nat) : Bytes := (s.take stop).drop (start - 1)

/-- The part of a string between two places. -/
def sub (args : Args) : Prog :=
  args.str 1 fun s => args.int 2 fun i => args.intOr 3 (-1) fun j =>
    .ret [.str (slice s (startIndex i s.length) (endIndex j s.length))]

/-- The bytes of a part of a string. -/
def byte (args : Args) : Prog :=
  args.str 1 fun s => args.intOr 2 1 fun i => args.intOr 3 i fun j =>
    .ret ((slice s (startIndex i s.length) (endIndex j s.length)).map fun b => .ofNat b.toNat)

def char (args : Args) : Prog := go args 1 []
where
  go : List Value → Nat → Bytes → Prog
    | [], _, acc => .ret [.str acc.reverse]
    | v :: rest, n, acc =>
      Args.int (List.replicate (n - 1) .nil ++ [v]) n fun i =>
        if 0 ≤ i && i ≤ 255 then go rest (n + 1) (i.toUInt64.toUInt8 :: acc)
        else failArg n (.ofString "value out of range")

def len (args : Args) : Prog := args.str 1 fun s => .ret [.ofNat s.length]

/-- A string with its ASCII letters in lower case. -/
def lower (args : Args) : Prog :=
  args.str 1 fun s => .ret [.str (s.map fun b => if 65 ≤ b && b ≤ 90 then b + 32 else b)]

/-- A string with its ASCII letters in upper case. -/
def upper (args : Args) : Prog :=
  args.str 1 fun s => .ret [.str (s.map fun b => if 97 ≤ b && b ≤ 122 then b - 32 else b)]

def reverse (args : Args) : Prog := args.str 1 fun s => .ret [.str s.reverse]

/-- The longest string that memory can be got for. -/
def maxLength : Nat := 0x80000000

/-- Copies of a string with another one between them. -/
def repeated (s sep : Bytes) : Nat → Bytes
  | 0 => []
  | 1 => s
  | n + 1 => s ++ sep ++ repeated s sep n

/-- A string repeated; too long a string is refused, and memory may not suffice. -/
def rep (args : Args) : Prog :=
  args.str 1 fun s => args.int 2 fun n => args.strOr 3 [] fun sep => .withHeap fun h =>
    let total := (s.length + sep.length) * n.toNatClampNeg - sep.length
    if n ≤ 0 || total = 0 then .ret [.str []]
    else if 0x8000000000000000 ≤ total + sep.length then failHere (.ofString "resulting string too large")
    else if min maxLength (h.limit.getD maxLength) < total then .unwind .memory
    else if sep.isEmpty then .ret [.str (List.replicate n.toNatClampNeg s).flatten]
    else .ret [.str (repeated s sep n.toNatClampNeg)]

/-- Arithmetic of which an operand is a string: strings that read as numbers stand for them. -/
def stringArith (op : BinaryOp) (args : Args) : Prog :=
  let a := args.get 1
  let b := args.get 2
  match a.toNumber?, b.toNumber? with
  | some x, some y => Operate.arith none op ⟨.ofNumber x, none⟩ ⟨.ofNumber y, none⟩ fun v => .ret [v]
  | _, _ => .withHeap fun h =>
    let fails : Prog :=
      failHere (.ofString ("attempt to " ++ ((Operate.event op).drop 2).toString ++ " a '" ++ a.typeName ++
        "' with a '" ++ b.typeName ++ "'"))
    match b with
    | .str _ => fails
    | _ =>
      match h.metamethod b (Operate.event op) with
      | .nil => fails
      | handler => .call ⟨none, none⟩ handler [a, b] fun vs => .ret [first vs]

/-- The negative of a string that reads as a number. -/
def stringNegate (args : Args) : Prog :=
  match (args.get 1).toNumber? with
  | some x => .ret [.ofNumber (Operate.negate x)]
  | none =>
    let name := (args.get 1).typeName
    failHere (.ofString ("attempt to unm a '" ++ name ++ "' with a '" ++ name ++ "'"))

end HostedLua.Lua.Library
