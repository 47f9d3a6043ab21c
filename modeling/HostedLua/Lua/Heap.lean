import HostedLua.Lua.Value
import HostedLua.Lua.Chunk
import Std.Data.TreeMap

/-! The memory of a machine: tables, variables and closures by number. Nothing is ever given back, so
a number means the same thing from its creation on. -/

namespace HostedLua.Lua

/-- A table: its entries by key, of which none is nil, and its metatable. -/
structure Table where
  entries : Std.TreeMap Key Value Key.order := ∅
  metatable : Option Nat := none

namespace Table

def get (t : Table) (k : Key) : Value := (t.entries[k]?).getD .nil

/-- Puts a value at a key; nil removes the entry. -/
def set (t : Table) (k : Key) (v : Value) : Table :=
  match v with
  | .nil => { t with entries := t.entries.erase k }
  | v => { t with entries := t.entries.insert k v }

/-- The entry after a key in walk order, or the first one. -/
def next? (t : Table) : Option Key → Option (Key × Value)
  | none => t.entries.minEntry?
  | some k => t.entries.getEntryGT? k

/-- The entries in walk order. -/
def toList (t : Table) : List (Key × Value) := t.entries.toList

/-- The least `n` from `from_` on without a value at `n + 1`, sought in `fuel` steps. -/
def borderFrom (t : Table) : (fuel : Nat) → (n : Nat) → Nat
  | 0, n => n
  | fuel + 1, n =>
    if (t.get (.int (Int64.ofNat (n + 1)))).isNil then n else borderFrom t fuel (n + 1)

/-- The least border: the count of values at 1, 2, … up to the first gap. -/
def border (t : Table) : Nat := t.borderFrom t.entries.size 0

end Table

/-- A closure: its function, and the variables in force around it. -/
structure Closure where
  func : Func
  cells : List Nat

/-- The memory of a machine. -/
structure Heap where
  tables : Array Table := #[]
  cells : Array Value := #[]
  closures : Array Closure := #[]
  /-- The table of globals. -/
  globals : Nat := 0
  /-- The metatable of strings. -/
  strings : Nat := 0
  /-- The limit on the size of a string, if memory is limited. -/
  limit : Option Nat := none

namespace Heap

def table (h : Heap) (id : Nat) : Table := (h.tables[id]?).getD {}

def modifyTable (h : Heap) (id : Nat) (f : Table → Table) : Heap :=
  { h with tables := h.tables.modify id f }

def newTable (h : Heap) : Heap × Nat := ({ h with tables := h.tables.push {} }, h.tables.size)

def get (h : Heap) (id : Nat) (k : Key) : Value := (h.table id).get k

def set (h : Heap) (id : Nat) (k : Key) (v : Value) : Heap := h.modifyTable id (·.set k v)

def read (h : Heap) (cell : Nat) : Value := (h.cells[cell]?).getD .nil

/-- Gives a variable a value. -/
def write (h : Heap) (cell : Nat) (v : Value) : Heap := { h with cells := h.cells.set! cell v }

def newCell (h : Heap) (v : Value) : Heap × Nat := ({ h with cells := h.cells.push v }, h.cells.size)

/-- Adds variables, the last one innermost. -/
def newCells (h : Heap) (cells : List Nat) : List Value → Heap × List Nat
  | [] => (h, cells)
  | v :: vs =>
    let (h, c) := h.newCell v
    h.newCells (c :: cells) vs

def newClosure (h : Heap) (c : Closure) : Heap × Nat :=
  ({ h with closures := h.closures.push c }, h.closures.size)

def metatable? (h : Heap) : Value → Option Nat
  | .table id => (h.table id).metatable
  | .str _ => some h.strings
  | _ => none

/-- The metamethod of a value for an event, nil where there is none. -/
def metamethod (h : Heap) (v : Value) (event : String) : Value :=
  match h.metatable? v with
  | some id => h.get id (.str (.ofString event))
  | none => .nil

/-- The name of a value's type in messages; a metatable may give a name of its own. -/
def typeName (h : Heap) (v : Value) : Bytes :=
  match v with
  | .host _ => .ofString "POBJECT"
  | .stdout => .ofString "FILE*"
  | .table _ =>
    match h.metamethod v "__name" with
    | .str s => s
    | _ => .ofString v.typeName
  | _ => .ofString v.typeName

end Heap

end HostedLua.Lua
