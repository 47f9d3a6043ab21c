import HostedLua.Lua.Operate

/-! What the functions of the library share: errors about their arguments, and reading the arguments.
A function is named in an error as its caller names it, or by its place in the library. -/

namespace HostedLua.Lua.Library

/-- The place that messages from a function at some depth of the stack begin with. -/
def position (v : View) (level : Nat) : Bytes :=
  match v.stack[level]? with
  | some a =>
    match a.line with
    | some l => atPosition l []
    | none => []
  | none => []

/-- Throws a message about the place that called the running function. -/
def failHere (message : Bytes) : Prog := .look fun v => .raise (.str (position v 1 ++ message))

/-- The name of a function of the library, or a question mark. -/
def libraryName : Value → Bytes
  | .builtin b => .ofString b.name
  | _ => .ofString "?"

/-- Throws that an argument is wrong. -/
def failArg (n : Nat) (what : Bytes) : Prog :=
  .look fun v =>
    let bad (word : String) (n : Nat) (name : Bytes) : Prog :=
      .raise (.str (position v 1 ++ .ofString ("bad " ++ word ++ " #" ++ toString n ++ " to '") ++ name ++
        .ofString "' (" ++ what ++ .ofString ")"))
    match v.stack.head? with
    | none => bad "argument" n (.ofString "?")
    | some a =>
      let name := match a.naming with
        | some naming => naming.name
        | none => libraryName a.function
      let isMethod : Bool := match a.naming with
        | some naming => naming.kind = "method"
        | none => false
      if n ≤ a.inserted then bad "extra argument" n name
      else
        let n := n - a.inserted
        if isMethod then
          if n = 1 then
            .raise (.str (position v 1 ++ .ofString "calling '" ++ name ++ .ofString "' on bad self (" ++ what ++
              .ofString ")"))
          else bad "argument" (n - 1) name
        else bad "argument" n name

/-- Throws that an argument is of the wrong type; `none` is a missing argument. -/
def failArgType (n : Nat) (expected : String) (got : Option Value) : Prog :=
  .upd fun h =>
    let name := match got with
      | some v => h.typeName v
      | none => .ofString "no value"
    (h, failArg n (.ofString (expected ++ " expected, got ") ++ name))

/-- The arguments of a function. -/
abbrev Args := List Value

namespace Args

/-- The argument at a place, counted from 1; nil where it is missing. -/
def get (args : Args) (n : Nat) : Value := args.getD (n - 1) .nil

/-- The argument at a place, counted from 1. -/
def get? (args : Args) (n : Nat) : Option Value := args[n - 1]?

/-- The argument is missing or nil. -/
def isAbsent (args : Args) (n : Nat) : Bool := (args.get n).isNil

def any (args : Args) (n : Nat) (k : Value → Prog) : Prog :=
  match args.get? n with
  | some v => k v
  | none => failArg n (.ofString "value expected")

def table (args : Args) (n : Nat) (k : Nat → Prog) : Prog :=
  match args.get? n with
  | some (.table id) => k id
  | v => failArgType n "table" v

/-- An integer, or what reads as one. -/
def int (args : Args) (n : Nat) (k : Int64 → Prog) : Prog :=
  match args.get? n with
  | none => failArgType n "number" none
  | some v =>
    match v.toNumber? with
    | none => failArgType n "number" (some v)
    | some x =>
      match x.toInt? with
      | some i => k i
      | none => failArg n (.ofString "number has no integer representation")

def intOr (args : Args) (n : Nat) (default : Int64) (k : Int64 → Prog) : Prog :=
  if args.isAbsent n then k default else args.int n k

def number (args : Args) (n : Nat) (k : Number → Prog) : Prog :=
  match args.get? n with
  | none => failArgType n "number" none
  | some v =>
    match v.toNumber? with
    | none => failArgType n "number" (some v)
    | some x => k x

/-- A string, or a number as text. -/
def str (args : Args) (n : Nat) (k : Bytes → Prog) : Prog :=
  match args.get? n with
  | none => failArgType n "string" none
  | some v =>
    match v.toBytes? with
    | none => failArgType n "string" (some v)
    | some s => k s

def strOr (args : Args) (n : Nat) (default : Bytes) (k : Bytes → Prog) : Prog :=
  if args.isAbsent n then k default else args.str n k

/-- A function of Lua or of the library. -/
def function (args : Args) (n : Nat) (k : Value → Prog) : Prog :=
  match args.get? n with
  | some (.closure id) => k (.closure id)
  | some (.builtin b) => k (.builtin b)
  | some (.wrapped t) => k (.wrapped t)
  | v => failArgType n "function" v

def thread (args : Args) (n : Nat) (k : Nat → Prog) : Prog :=
  match args.get? n with
  | some (.thread t) => k t
  | v => failArgType n "thread" v

end Args

/-- The address that the text of a value shows. -/
def address (kind id : Nat) : Bytes :=
  Number.asciiBytes ("0x" ++ Text.hexPadded 14 (0x55d000000000 + kind * 0x1000000000 + id * 64))

def text (v : Value) (k : Bytes → Prog) : Prog :=
  .upd fun h =>
    (h, match v with
      | .host id => .ask (.text id) fun vs =>
          match Operate.first vs with
          | .str s => k s
          | _ => k []
      | _ =>
        match h.metamethod v "__tostring" with
        | .nil =>
          let named (kind id : Nat) := k (h.typeName v ++ .ofString ": " ++ address kind id)
          match v with
          | .nil => k (.ofString "nil")
          | .bool b => k (.ofString (if b then "true" else "false"))
          | .int i => k (Number.text (.int i))
          | .float x => k (Number.text (.float x))
          | .str s => k s
          | .table id => named 1 id
          | .closure id => named 2 id
          | .builtin b => named 3 b.ctorIdx
          | .wrapped t => named 4 t
          | .thread t => named 5 t
          | .stdout => k (.ofString "file (" ++ address 6 0 ++ .ofString ")")
          | .host _ => k []
        | handler =>
          .call ⟨none, none⟩ handler [v] fun rs =>
            match (Operate.first rs).toBytes? with
            | some s => k s
            | none => failHere (.ofString "'__tostring' must return a string"))

end HostedLua.Lua.Library
