import HostedLua.Lua.Numeral

/-! Chunks as trees. Variables are resolved: a variable is the distance to its declaration in the list
of declarations in force, the innermost first, whose last one is the table of globals `_ENV`. -/

namespace HostedLua.Lua

def chunkName : Bytes := .ofString "[string \"<python>\"]"

def atPosition (line : Nat) (message : Bytes) : Bytes :=
  chunkName ++ .ofString (":" ++ toString line ++ ": ") ++ message

inductive BinaryOp where
  | add | sub | mul | mod | pow | div | idiv | band | bor | bxor | shl | shr
  | concat | eq | ne | lt | le | gt | ge
  deriving DecidableEq, Repr

inductive UnaryOp where
  | neg | not | len | bnot
  deriving DecidableEq, Repr

inductive Scope where
  | own | outer
  deriving DecidableEq, Repr

/-- What a function does with its arguments beyond the named ones. -/
inductive Extra where
  | dropped
  | kept
  /-- They are also put into a table in a variable of their own. -/
  | tabled
  deriving DecidableEq, Repr

mutual

/-- An expression. Lines are those that errors in it are reported at. -/
inductive Expr where
  | nil
  | bool (b : Bool)
  | num (n : Number)
  | str (s : Bytes)
  | varargs
  | var (scope : Scope) (index : Nat) (name : Bytes)
  | index (line : Nat) (table key : Expr)
  | call (line : Nat) (f : Expr) (args : List Expr)
  | method (nameLine line : Nat) (object : Expr) (name : Bytes) (args : List Expr)
  | function (f : Func)
  | binary (line : Nat) (op : BinaryOp) (a b : Expr)
  | unary (line : Nat) (op : UnaryOp) (a : Expr)
  | and (a b : Expr)
  | or (a b : Expr)
  | paren (e : Expr)
  | table (fields : List Field)

inductive Field where
  | item (e : Expr)
  | named (line : Nat) (key value : Expr)

inductive Func where
  | mk (line : Nat) (params : Nat) (extra : Extra) (body : List Stat)

/-- A statement. Blocks are lists of statements. -/
inductive Stat where
  /-- Declares variables, of which one may be closed at the end of the block. -/
  | locals (line : Nat) (count : Nat) (closed : Option (Nat × Bytes)) (values : List Expr)
  | localFunction (f : Func)
  | assign (line : Nat) (targets values : List Expr)
  /-- Assigns globals that must not have a value yet. -/
  | globals (line : Nat) (names : List Bytes) (targets values : List Expr)
  | call (e : Expr)
  | block (body : List Stat)
  | whileLoop (c : Expr) (body : List Stat)
  | cond (c : Expr) (yes no : List Stat)
  | forRange (line : Nat) (start limit : Expr) (step : Option Expr) (body : List Stat)
  | forEach (line : Nat) (count : Nat) (values : List Expr) (body : List Stat)
  | ret (values : List Expr)
  /-- Returns what a call returns and gives up the frame first. -/
  | retCall (e : Expr)
  | leave
  | goto (name : Bytes)
  /-- A label, with the count of declarations in force at it. -/
  | label (name : Bytes) (depth : Nat)

end

abbrev Block := List Stat

namespace Expr

/-- The expression with its outermost table access reported at another line. -/
def atLine (line : Nat) : Expr → Expr
  | .index _ t k => .index line t k
  | e => e

def isCall : Expr → Bool
  | .call .. | .method .. => true
  | _ => false

/-- Something that can be assigned. -/
def isTarget : Expr → Bool
  | .var .. | .index .. => true
  | _ => false

/-- An expression with any count of values. -/
def isOpen : Expr → Bool
  | .call .. | .method .. | .varargs => true
  | _ => false

end Expr

end HostedLua.Lua
