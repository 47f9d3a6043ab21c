import HostedLua.Text.Basic

/-! What a host has room for. Nothing is known of its stack but that it ends: how much of it is left at a place in what is
printed depends on the calls that lead there, and so on the containers around the place. -/

namespace HostedLua.Host

/-- How a value lies in a container that is printed: in a list, in a tuple, or in a mapping or a table of Lua's. -/
inductive Link where
  | item
  | part
  | key (inTable : Bool)
  | value (inTable : Bool)
  deriving DecidableEq, Repr

/-- A place in what is printed: how a value lies in each of the containers around it, and at which entry, the innermost
container first. -/
abbrev Path := List (Link × Nat)

inductive Room where
  | ample
  /-- Enough for a table, but not for the walk over its entries, which is protected. -/
  | scarce
  | none
  deriving DecidableEq, Repr

/-- How many calls a link takes. -/
def Link.calls : Link → Nat
  | .item => 2
  | .part => 3
  | .key inTable => if inTable then 4 else 3
  | .value inTable => if inTable then 3 else 2

/-- How many calls lead to a place. -/
def Path.calls : Path → Nat
  | [] => 0
  | (link, _) :: p => link.calls + calls p

/-- What a stack of 1000 calls leaves at a place, with a few under way before anything is printed. -/
def Path.usualRoom (p : Path) : Room := if p.calls ≤ 990 then .ample else .none

structure Limits where
  /-- In how many containers a value may lie that is converted. -/
  nesting : Nat := 900
  /-- In how many containers a value may lie whose text is made. -/
  textNesting : Nat := 900
  /-- In how many containers a value may lie that is printed, whatever they are. -/
  printNesting : Nat := 1000
  /-- What is left of the stack for the value at a place inside of what is printed. -/
  room : Path → Room := Path.usualRoom
  /-- The memory that a new state takes. -/
  leastMemory : Nat := 20000

/-- What is left for the value at a place: enough for one that lies in nothing, and nothing for one that lies in too many
containers. -/
def Limits.roomAt (l : Limits) (p : Path) : Room :=
  match p with
  | [] => .ample
  | _ => if l.printNesting < p.length then .none else l.room p

end HostedLua.Host
