import HostedLua.Host.Handle

/-! Printing host values as readable text in the manner of Lua: containers as blocks of indented entries,
Lua tables down to a depth. -/

namespace HostedLua

open Host

/-- How values are printed: the indent of one level, and the level at which tables are no longer
expanded. -/
structure Printer where
  indentWidth : Int := 2
  maxDepth : Int := 4

namespace Printer

def escape (c : CodePoint) : Text :=
  if c = '"' then "\\\""
  else if c = '\\' then "\\\\"
  else if c = '\n' then "\\n"
  else if c = '\r' then "\\r"
  else if c = '\t' then "\\t"
  else [c]

def quoted (t : Text) : Text := "\"" ++ t.flatMap escape ++ "\""

def indent (p : Printer) (level : Int) : Text :=
  Text.spaces (p.indentWidth.toNat * level.toNat)

def block (p : Printer) (entries : List Text) (level : Int) : Text :=
  if entries.isEmpty then "\x7b\x7d"
  else
    "\x7b\n" ++ Text.join "\n" (entries.map fun e => p.indent (level + 1) ++ e ++ ",") ++ "\n" ++
      p.indent level ++ "\x7d"

/-- A name that stands for itself as a key; a line feed may follow it. -/
def isName (t : Text) : Bool :=
  let isStart (c : CodePoint) : Bool := c.isLetter || c = '_'
  let body := if t.getLast? = some (CodePoint.ofChar '\n') then t.dropLast else t
  match body with
  | c :: rest => isStart c && rest.all fun d => isStart d || d.isDigit
  | [] => false

/-- The word for a truth value. -/
def boolText (b : Bool) : Text := if b then "true" else "false"

/-- The entries of a table handle for which there is so much room. The walk over them is protected: where there is none for
it, this is reported and there are no entries. -/
def entriesWithin (E : Engine) (room : Room) (h : Handle) : Bridge (List (Value × Value)) := do
  match room with
  | .scarce =>
    Bridge.reportTo h.state ("RUNTIME: " ++ Bridge.tooDeep.message)
    return []
  | _ => Bridge.toMapping E h

/-- The printed form of a value that stands at a place and a level. -/
def formatAt (p : Printer) (l : Limits) (E : Engine) : (fuel : Nat) → Path → (level : Int) → Value → Bridge Text
  | 0, _, _, _ => Bridge.failNesting
  | fuel + 1, path, level, v => do
    let parts (link : Link) (level : Int) (vs : List Value) : Bridge (List Text) :=
      vs.zipIdx.mapM fun (v, i) => formatAt p l E fuel ((link, i) :: path) level v
    let entries (inTable : Bool) (ps : List (Value × Value)) : Bridge (List Text) :=
      ps.zipIdx.mapM fun ((k, v), i) => do
        let bracketed : Bridge Text := do
          return "[" ++ (← formatAt p l E fuel ((.key inTable, i) :: path) (level + 1) k) ++ "]"
        let key ← match k with
          | .text t => if isName t then pure t else bracketed
          | _ => bracketed
        return key ++ " = " ++ (← formatAt p l E fuel ((.value inTable, i) :: path) (level + 1) v)
    let room := l.roomAt path
    if room = .none then Bridge.failNesting
    else match v with
    | .none => return "nil"
    | .bool b => return boolText b
    | .int i => Bridge.intText i
    | .float x => return Decimal.shortest x
    | .text t => return quoted t
    | .bytes b => return quoted (Utf8.decodeLossy b)
    | .member _ => Bridge.repr E v
    | .obj id =>
      match ← Bridge.object id with
      | .tuple vs => return Text.join ", " (← parts .part level vs)
      | .list vs => return p.block (← parts .item (level + 1) vs) level
      | .dict ps | .proxy ps => return p.block (← entries false ps) level
      | .badItems text => Bridge.raise "ValueError" text
      | .error e _ => return "error(" ++ e.status.name ++ "): " ++ e.message
      | .handle h =>
        match h.kind with
        | .table =>
          if !(← Bridge.isValid h) then Bridge.handleText E id h
          else if p.maxDepth ≤ level then return "\x7b...\x7d"
          else return p.block (← entries true (← entriesWithin E room h)) level
        | _ => Bridge.handleText E id h
      | _ => Bridge.repr E v

/-- The printed form of a value at a level, as far as the host has room for it. -/
def format (p : Printer) (E : Engine) (v : Value) (level : Int) : Bridge Text := do
  let l := (← get).limits
  p.formatAt l E (l.printNesting + 1) [] level v

end Printer

end HostedLua
