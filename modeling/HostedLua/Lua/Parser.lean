import HostedLua.Lua.Chunk
import HostedLua.Lua.Token

/-! Reading a chunk. `Chunk.parse` gives the main function of a chunk or the first thing wrong with it,
in the order of the text: lexical, grammatical and scope errors are met as the reader goes along with
one token of lookahead. -/

namespace HostedLua.Lua

/-- What a declaration in force allows. -/
inductive VarKind where
  | regular | const | closed
  /-- A global declared by name, or all globals at once. -/
  | global (const : Bool) | allGlobals (const : Bool)
  deriving DecidableEq, Repr

/-- A declaration in force: its name, its kind and the depth of its function. -/
structure Var where
  name : Bytes
  kind : VarKind
  level : Nat

namespace VarKind

/-- A declaration that holds a value of its own. -/
def isLocal : VarKind → Bool
  | .global _ | .allGlobals _ => false
  | _ => true

end VarKind

/-- A jump whose label has not been met: its name, line, and the count of declarations in force. -/
structure Jump where
  name : Bytes
  line : Nat
  active : Nat

/-- A label met: its name, its line, and the count of declarations in force. -/
structure Label where
  name : Bytes
  line : Nat

/-- A block being read. -/
structure OpenBlock where
  isLoop : Bool
  closes : Bool
  start : Nat
  labels : List Label
  jumps : List Jump

/-- The reader's state: the current lexeme and those to come, the line of the last one passed, the
declarations in force and the open blocks of the function being read. -/
structure Reader where
  here : Lexeme
  ahead : List (Except Malformed Lexeme)
  lastLine : Nat
  vars : List Var
  blocks : List OpenBlock
  takesExtra : Bool
  level : Nat
  depth : Nat

abbrev Read := StateT Reader (Except Malformed)

namespace Read

/-- Gives up with a message about the current place. -/
def fail {α : Type} (what : String) : Read α := fun r => .error ⟨r.here.line, .ofString what, none⟩

/-- Gives up with a message that quotes the current token. -/
def failNear {α : Type} (what : Bytes) : Read α := fun r => .error ⟨r.here.line, what, some r.here.near⟩

/-- Gives up with a message about the current place. -/
def failWith {α : Type} (what : Bytes) : Read α := fun r => .error ⟨r.here.line, what, none⟩

/-- Passes the current lexeme. -/
def advance : Read Unit := fun r =>
  match r.ahead with
  | .ok l :: rest => .ok ((), { r with here := l, ahead := rest, lastLine := r.here.line })
  | .error e :: _ => .error e
  | [] => .ok ((), { r with lastLine := r.here.line })

/-- The lexeme after the current one; a malformed one is met here. -/
def peek : Read Lexeme := fun r =>
  match r.ahead with
  | .ok l :: _ => .ok (l, r)
  | .error e :: _ => .error e
  | [] => .ok (r.here, r)

/-- The line of the current lexeme. -/
def line : Read Nat := fun r => .ok (r.here.line, r)

/-- The line of the last lexeme passed. -/
def lastLine : Read Nat := fun r => .ok (r.lastLine, r)

/-- The current token is a certain word or operator. -/
def at? (w : String) : Read Bool := fun r => .ok (r.here.token.is w, r)

/-- Passes a certain token if it is there. -/
def accept (w : String) : Read Bool := do
  if ← at? w then advance; return true else return false

def failExpected {α : Type} (w : String) : Read α :=
  failNear (Token.expectedText w ++ .ofString " expected")

/-- Passes a certain token, which must be there. -/
def expect (w : String) : Read Unit := do
  if ← at? w then advance else failExpected w

/-- Passes the token that closes what another one opened on a line. -/
def expectClosing (w opener : String) (openLine : Nat) : Read Unit := do
  if ← at? w then advance
  else if (← line) = openLine then failExpected w
  else failNear (Token.expectedText w ++ .ofString " expected (to close " ++ Token.expectedText opener ++
    .ofString (" at line " ++ toString openLine ++ ")"))

def name : Read Bytes := do
  match (← get).here.token with
  | .name s => advance; return s
  | _ => failExpected "<name>"

def atBlockEnd (withUntil : Bool) : Read Bool := do
  match (← get).here.token with
  | .eof => return true
  | .word w => return w = "else" || w = "elseif" || w = "end" || (withUntil && w = "until")
  | _ => return false

def declare (name : Bytes) (kind : VarKind) : Read Unit :=
  modify fun r => { r with vars := ⟨name, kind, r.level⟩ :: r.vars }

def openBlock (isLoop : Bool) : Read Unit :=
  modify fun r =>
    let closes := (r.blocks.head?.map (·.closes)).getD false
    { r with blocks := ⟨isLoop, closes, r.vars.length, [], []⟩ :: r.blocks }

/-- Marks the innermost block as one that closes a variable. -/
def markClosing : Read Unit :=
  modify fun r =>
    match r.blocks with
    | b :: rest => { r with blocks := { b with closes := true } :: rest }
    | [] => r

/-- Closes the innermost block: its declarations end, and its open jumps pass to the block around it,
or fail where there is none. -/
def closeBlock : Read Unit := do
  let r ← get
  match r.blocks with
  | [] => return
  | b :: rest =>
    let vars := r.vars.drop (r.vars.length - b.start)
    match rest with
    | outer :: others =>
      let moved := b.jumps.map fun j => { j with active := min j.active b.start }
      set { r with vars, blocks := { outer with jumps := outer.jumps ++ moved } :: others }
    | [] =>
      match b.jumps with
      | [] => set { r with vars, blocks := rest }
      | j :: _ =>
        failWith (.ofString "no visible label '" ++ j.name ++
          .ofString ("' for <goto> at line " ++ toString j.line))

/-- The label of a name that is visible from here. -/
def findLabel? (r : Reader) (name : Bytes) : Option Label :=
  r.blocks.findSome? fun b => b.labels.find? fun l => l.name = name

/-- Adds a label and settles the open jumps to it. -/
def addLabel (name : Bytes) (line : Nat) (last : Bool) : Read Unit := do
  let r ← get
  match findLabel? r name with
  | some l =>
    failWith (.ofString "label '" ++ name ++ .ofString ("' already defined on line " ++ toString l.line))
  | none =>
    match r.blocks with
    | [] => return
    | b :: rest =>
      let active := if last then b.start else r.vars.length
      match b.jumps.find? fun j => j.name = name && j.active < active with
      | some j =>
        let inner := ((r.vars.reverse[j.active]?).map (·.name)).getD []
        failWith (.ofString "<goto " ++ name ++ .ofString ("> at line " ++ toString j.line ++
          " jumps into the scope of '") ++ inner ++ .ofString "'")
      | none =>
        let b := { b with labels := ⟨name, line⟩ :: b.labels, jumps := b.jumps.filter (·.name ≠ name) }
        set { r with blocks := b :: rest }

def addJump (name : Bytes) (line : Nat) : Read Unit := do
  let r ← get
  match findLabel? r name with
  | some _ => return
  | none =>
    match r.blocks with
    | b :: rest =>
      let jump : Jump := ⟨name, line, r.vars.length⟩
      set { r with blocks := { b with jumps := b.jumps ++ [jump] } :: rest }
    | [] => return

/-- The distance to a declaration: the declarations with values before it. -/
def distance (vars : List Var) (n : Nat) : Nat := ((vars.take n).filter (·.kind.isLocal)).length

/-- What a name means: a variable, or a global that may be read-only. -/
inductive Meaning where
  | variable (e : Expr) (kind : VarKind)
  | global (const : Bool)
  | undeclared

/-- Looks a name up in the declarations in force, the innermost first. -/
def meaning (level : Nat) (vars : List Var) (name : Bytes) : Meaning :=
  let rec go (n : Nat) (state : Option (Option Bool)) : List Var → Meaning
    -- `state`: none before any declaration of globals, `some none` after one of other names,
    -- `some (some c)` after one of all names
    | [] =>
      match state with
      | none => .global false
      | some none => .undeclared
      | some (some c) => .global c
    | v :: rest =>
      match v.kind with
      | .allGlobals c =>
        go (n + 1) (match state with
          | some (some d) => some (some d)
          | _ => some (some c)) rest
      | .global c =>
        if v.name = name then .global c
        else go (n + 1) (if state.isNone then some none else state) rest
      | kind =>
        if v.name = name then
          .variable (.var (if v.level = level then .own else .outer) (distance vars n) name) kind
        else go (n + 1) state rest
  go 0 none vars

def envName : Bytes := .ofString "_ENV"

def resolve (name : Bytes) : Read Expr := do
  let r ← get
  match meaning r.level r.vars name with
  | .variable e _ => return e
  | .undeclared => failWith (.ofString "variable '" ++ name ++ .ofString "' not declared")
  | .global _ =>
    match meaning r.level r.vars envName with
    | .variable e _ => return .index (← lastLine) e (.str name)
    | _ => failWith (.ofString "variable '" ++ envName ++ .ofString "' not declared")

/-- The name of a variable that must not be assigned. -/
def readOnly? (r : Reader) : Expr → Option Bytes
  | .var _ _ name =>
    match meaning r.level r.vars name with
    | .variable _ kind => if kind = .regular then none else some name
    | _ => none
  | .index _ (.var _ _ env) (.str name) =>
    if env = envName then
      match meaning r.level r.vars name with
      | .global true => some name
      | _ => none
    else none
  | _ => none

/-- Refuses an assignment to a constant. -/
def checkAssignable (e : Expr) : Read Unit := do
  match readOnly? (← get) e with
  | some name => failWith (.ofString "attempt to assign to const variable '" ++ name ++ .ofString "'")
  | none => return

/-- The deepest nesting of statements and expressions. -/
def maxDepth : Nat := 195

/-- Reads something one level deeper. -/
def nested {α : Type} (read : Read α) : Read α := do
  let r ← get
  if maxDepth ≤ r.depth then throw ⟨0, .ofString "C stack overflow", none⟩
  set { r with depth := r.depth + 1 }
  let x ← read
  modify fun r => { r with depth := r.depth - 1 }
  return x

/-- The binary operators with their binding strengths to the left and to the right. -/
def binaryOp? (t : Token) : Option (String × Nat × Nat) :=
  let w := match t with
    | .word w | .op w => w
    | _ => ""
  match w with
  | "+" | "-" => some (w, 10, 10)
  | "*" | "%" | "/" | "//" => some (w, 11, 11)
  | "^" => some (w, 14, 13)
  | ".." => some (w, 9, 8)
  | "<<" | ">>" => some (w, 7, 7)
  | "&" => some (w, 6, 6)
  | "~" => some (w, 5, 5)
  | "|" => some (w, 4, 4)
  | "==" | "<" | "<=" | "~=" | ">" | ">=" => some (w, 3, 3)
  | "and" => some (w, 2, 2)
  | "or" => some (w, 1, 1)
  | _ => none

def binaryExpr (w : String) (line : Nat) (a b : Expr) : Expr :=
  match w with
  | "and" => .and a b
  | "or" => .or a b
  | "+" => .binary line .add a b
  | "-" => .binary line .sub a b
  | "*" => .binary line .mul a b
  | "%" => .binary line .mod a b
  | "^" => .binary line .pow a b
  | "/" => .binary line .div a b
  | "//" => .binary line .idiv a b
  | "&" => .binary line .band a b
  | "|" => .binary line .bor a b
  | "~" => .binary line .bxor a b
  | "<<" => .binary line .shl a b
  | ">>" => .binary line .shr a b
  | ".." => .binary line .concat a b
  | "==" => .binary line .eq a b
  | "~=" => .binary line .ne a b
  | "<" => .binary line .lt a b
  | "<=" => .binary line .le a b
  | ">" => .binary line .gt a b
  | _ => .binary line .ge a b

def unaryOp? (t : Token) : Option UnaryOp :=
  if t.is "not" then some .not
  else if t.is "-" then some .neg
  else if t.is "~" then some .bnot
  else if t.is "#" then some .len
  else none

def unaryStrength : Nat := 12

/-- An attribute in angle brackets. -/
def attribute? : Read (Option Bytes) := do
  if ← accept "<" then
    let a ← name
    expect ">"
    return some a
  else return none

/-- The kind that an attribute of a local variable asks for. -/
def localKind (default : VarKind) : Option Bytes → Read VarKind
  | none => return default
  | some a =>
    if a = .ofString "const" then return .const
    else if a = .ofString "close" then return .closed
    else failWith (.ofString "unknown attribute '" ++ a ++ .ofString "'")

def attributedNames (default : VarKind) : (fuel : Nat) → Read (List (Bytes × VarKind))
  | 0 => return []
  | fuel + 1 => do
    let n ← name
    let kind ← localKind default (← attribute?)
    if ← accept "," then return (n, kind) :: (← attributedNames default fuel)
    else return [(n, kind)]

/-- Further names after a comma. -/
def moreNames : (fuel : Nat) → Read (List Bytes)
  | 0 => return []
  | fuel + 1 => do
    if ← accept "," then
      let n ← name
      return n :: (← moreNames fuel)
    else return []

/-- The parameters of a function up to the closing parenthesis. -/
def params : (fuel : Nat) → Read (List Bytes × Extra)
  | 0 => return ([], .dropped)
  | fuel + 1 => do
    if ← accept "..." then
      match (← get).here.token with
      | .name s => advance; return ([s], .tabled)
      | _ => return ([], .kept)
    else
      match (← get).here.token with
      | .name s =>
        advance
        if ← accept "," then
          let (ns, extra) ← params fuel
          return (s :: ns, extra)
        else return ([s], .dropped)
      | _ => failNear (.ofString "<name> or '...' expected")

/-- Runs a reader inside a new function of parameters and gives its result back outside. -/
def inFunction {α : Type} (takesExtra : Bool) (read : Read α) : Read α := do
  let r ← get
  set { r with blocks := [], takesExtra, level := r.level + 1 }
  let x ← read
  modify fun s => { s with blocks := r.blocks, takesExtra := r.takesExtra, level := r.level, vars := r.vars }
  return x

mutual

def expr : (fuel : Nat) → Read Expr
  | 0 => fail "chunk has too many levels"
  | fuel + 1 => subexpr fuel 0

/-- Reads an expression of operators that bind stronger than `limit`. -/
def subexpr : (fuel : Nat) → (limit : Nat) → Read Expr
  | 0, _ => fail "chunk has too many levels"
  | fuel + 1, limit => nested do
    let e ← match unaryOp? (← get).here.token with
      | some op => do
        let l ← line
        advance
        let a ← subexpr fuel unaryStrength
        pure (.unary l op a)
      | none => simple fuel
    operators fuel limit e

def operators : (fuel : Nat) → (limit : Nat) → Expr → Read Expr
  | 0, _, _ => fail "chunk has too many levels"
  | fuel + 1, limit, e => do
    match binaryOp? (← get).here.token with
    | some (w, left, right) =>
      if limit < left then
        let l ← line
        advance
        let b ← subexpr fuel right
        operators fuel limit (binaryExpr w l (e.atLine l) b)
      else return e
    | none => return e

def simple : (fuel : Nat) → Read Expr
  | 0 => fail "chunk has too many levels"
  | fuel + 1 => do
    match (← get).here.token with
    | .num n => advance; return .num n
    | .str s => advance; return .str s
    | .word "nil" => advance; return .nil
    | .word "true" => advance; return .bool true
    | .word "false" => advance; return .bool false
    | .op "..." =>
      if (← get).takesExtra then advance; return .varargs
      else failNear (.ofString "cannot use '...' outside a vararg function")
    | .op "\x7b" => table fuel
    | .word "function" =>
      let l ← line
      advance
      return .function (← body fuel l false)
    | _ => suffixed fuel

def primary : (fuel : Nat) → Read Expr
  | 0 => fail "chunk has too many levels"
  | fuel + 1 => do
    match (← get).here.token with
    | .name s => advance; resolve s
    | .op "(" =>
      let l ← line
      advance
      let e ← expr fuel
      expectClosing ")" "(" l
      return .paren e
    | _ => failNear (.ofString "unexpected symbol")

def suffixed : (fuel : Nat) → Read Expr
  | 0 => fail "chunk has too many levels"
  | fuel + 1 => do
    let e ← primary fuel
    suffixes fuel e

/-- Reads the suffixes of an expression: fields, indices, calls and method calls. -/
def suffixes : (fuel : Nat) → Expr → Read Expr
  | 0, _ => fail "chunk has too many levels"
  | fuel + 1, e => do
    match (← get).here.token with
    | .op "." =>
      advance
      let key ← name
      suffixes fuel (.index (← lastLine) e (.str key))
    | .op "[" =>
      let key ← bracketed fuel
      suffixes fuel (.index (← lastLine) e key)
    | .op ":" =>
      advance
      let key ← name
      let nameLine ← lastLine
      let l ← line
      let args ← arguments fuel
      suffixes fuel (.method nameLine l e key args)
    | .op "(" | .op "\x7b" | .str _ =>
      let l ← line
      let args ← arguments fuel
      suffixes fuel (.call l e args)
    | _ => return e

def bracketed : (fuel : Nat) → Read Expr
  | 0 => fail "chunk has too many levels"
  | fuel + 1 => do
    advance
    let key ← expr fuel
    expect "]"
    return key

def arguments : (fuel : Nat) → Read (List Expr)
  | 0 => fail "chunk has too many levels"
  | fuel + 1 => do
    match (← get).here.token with
    | .op "(" =>
      let l ← line
      advance
      if ← accept ")" then return []
      else
        let es ← exprList fuel
        expectClosing ")" "(" l
        return es
    | .op "\x7b" => return [← table fuel]
    | .str s => advance; return [.str s]
    | _ => failNear (.ofString "function arguments expected")

def exprList : (fuel : Nat) → Read (List Expr)
  | 0 => fail "chunk has too many levels"
  | fuel + 1 => do
    let e ← expr fuel
    if ← accept "," then
      let l ← lastLine
      return e.atLine l :: (← exprList fuel)
    else return [e]

def table : (fuel : Nat) → Read Expr
  | 0 => fail "chunk has too many levels"
  | fuel + 1 => do
    let l ← line
    expect "\x7b"
    let fields ← fieldList fuel
    expectClosing "\x7d" "\x7b" l
    return .table fields

/-- Reads the fields of a table constructor up to its closing brace. -/
def fieldList : (fuel : Nat) → Read (List Field)
  | 0 => fail "chunk has too many levels"
  | fuel + 1 => do
    if ← at? "\x7d" then return []
    else
      let f ← field fuel
      if (← accept ",") || (← accept ";") then return f :: (← fieldList fuel)
      else return [f]

def field : (fuel : Nat) → Read Field
  | 0 => fail "chunk has too many levels"
  | fuel + 1 => do
    match (← get).here.token with
    | .name s =>
      if (← peek).token.is "=" then
        advance
        advance
        let v ← expr fuel
        return .named (← lastLine) (.str s) v
      else return .item (← expr fuel)
    | .op "[" =>
      let key ← bracketed fuel
      expect "="
      let v ← expr fuel
      return .named (← lastLine) key v
    | _ => return .item (← expr fuel)

/-- Reads the parameters and the body of a function that starts on a line. -/
def body : (fuel : Nat) → (line : Nat) → (isMethod : Bool) → Read Func
  | 0, _, _ => fail "chunk has too many levels"
  | fuel + 1, start, isMethod => inFunction false do
    openBlock false
    if isMethod then declare (.ofString "self") .regular
    expect "("
    let (names, extra) ← if ← at? ")" then pure ([], Extra.dropped) else params fuel
    names.forM fun n => declare n .regular
    let count := (names.length + if isMethod then 1 else 0) - if extra = .tabled then 1 else 0
    modify fun r => { r with takesExtra := extra ≠ .dropped }
    expect ")"
    let b ← statements fuel
    expectClosing "end" "function" start
    closeBlock
    return .mk start count extra b

/-- Reads statements up to the end of their block. -/
def statements : (fuel : Nat) → Read (List Stat)
  | 0 => fail "chunk has too many levels"
  | fuel + 1 => do
    if ← atBlockEnd true then return []
    else if ← at? "return" then statement fuel
    else
      let s ← statement fuel
      return s ++ (← statements fuel)

def blockOf : (fuel : Nat) → (isLoop : Bool) → Read (List Stat)
  | 0, _ => fail "chunk has too many levels"
  | fuel + 1, isLoop => do
    openBlock isLoop
    let b ← statements fuel
    closeBlock
    return b

/-- Reads the clauses of a conditional after the word that opens one. -/
def clauses : (fuel : Nat) → (line : Nat) → Read Stat
  | 0, _ => fail "chunk has too many levels"
  | fuel + 1, start => do
    advance
    let c ← expr fuel
    expect "then"
    let yes ← blockOf fuel false
    if ← at? "elseif" then
      let no ← clauses fuel start
      return .cond c yes [no]
    else if ← accept "else" then
      let no ← blockOf fuel false
      expectClosing "end" "if" start
      return .cond c yes no
    else
      expectClosing "end" "if" start
      return .cond c yes []

def loopBody : (fuel : Nat) → (line : Nat) → (vars : List Bytes) → Read (Nat × List Stat)
  | 0, _, _ => fail "chunk has too many levels"
  | fuel + 1, start, names => do
    expect "do"
    let doLine ← lastLine
    openBlock false
    match names with
    | n :: rest =>
      declare n .const
      rest.forM fun n => declare n .regular
    | [] => pure ()
    let b ← statements fuel
    closeBlock
    expectClosing "end" "for" start
    return (doLine, b)

/-- Reads the targets of an assignment after the first one, up to the values. -/
def targets : (fuel : Nat) → Expr → Read (List Expr)
  | 0, _ => fail "chunk has too many levels"
  | fuel + 1, e => do
    if !e.isTarget then failNear (.ofString "syntax error")
    checkAssignable e
    if ← accept "," then
      let next ← suffixed fuel
      return e :: (← nested (targets fuel next))
    else
      expect "="
      return [e]

def localVars : (fuel : Nat) → Read (List Stat)
  | 0 => fail "chunk has too many levels"
  | fuel + 1 => do
    let default ← localKind .regular (← attribute?)
    let names ← attributedNames default fuel
    let closed := (names.zipIdx).filter fun ((_, k), _) => k = .closed
    if 1 < closed.length then fail "multiple to-be-closed variables in local list"
    let values ← if ← accept "=" then exprList fuel else pure []
    let l ← lastLine
    names.forM fun (n, k) => declare n k
    match closed with
    | ((n, _), i) :: _ =>
      markClosing
      return [.locals l names.length (some (i, n)) values]
    | [] => return [.locals l names.length none values]

/-- Reads a declaration of globals after its word. -/
def globalVars : (fuel : Nat) → Read (List Stat)
  | 0 => fail "chunk has too many levels"
  | fuel + 1 => do
    if ← accept "function" then
      let start ← lastLine
      let n ← name
      declare n (.global false)
      let target ← resolve n
      let f ← body fuel start false
      return [.globals start [n] [target] [.function f]]
    else
      let asGlobal : VarKind → Read VarKind := fun k =>
        match k with
        | .const => pure (.global true)
        | .closed => fail "global variables cannot be to-be-closed"
        | _ => pure (.global false)
      let default ← localKind .regular (← attribute?)
      let globalDefault ← asGlobal default
      if ← accept "*" then
        declare [] (.allGlobals (globalDefault = .global true))
        return []
      else
        let names ← attributedNames default fuel
        let kinds ← names.mapM fun (n, k) => do return (n, ← asGlobal k)
        if ← accept "=" then
          let r ← get
          let targets := kinds.map fun (n, _) =>
            match meaning r.level r.vars envName with
            | .variable e _ => Expr.index r.lastLine e (.str n)
            | _ => .nil
          let values ← exprList fuel
          let l ← lastLine
          kinds.forM fun (n, k) => declare n k
          return [.globals l (kinds.map (·.1)) targets values]
        else
          kinds.forM fun (n, k) => declare n k
          return []

/-- Reads statements without effect after a label. -/
def skipVoid : (fuel : Nat) → Read (List Stat)
  | 0 => fail "chunk has too many levels"
  | fuel + 1 => do
    if (← at? ";") || (← at? "::") then
      let s ← statement fuel
      return s ++ (← skipVoid fuel)
    else return []

/-- Reads a statement; declarations of globals and empty statements leave nothing. -/
def statement : (fuel : Nat) → Read (List Stat)
  | 0 => fail "chunk has too many levels"
  | fuel + 1 => nested do
    let start ← line
    match (← get).here.token with
    | .op ";" => advance; return []
    | .word "if" => return [← clauses fuel start]
    | .word "while" =>
      advance
      let c ← expr fuel
      expect "do"
      let b ← blockOf fuel true
      expectClosing "end" "while" start
      return [.whileLoop c b]
    | .word "do" =>
      advance
      let b ← blockOf fuel false
      expectClosing "end" "do" start
      return [.block b]
    | .word "for" =>
      openBlock true
      advance
      let n ← name
      if ← accept "=" then
        let from_ ← expr fuel
        expect ","
        let limit ← expr fuel
        let step ← if ← accept "," then some <$> expr fuel else pure none
        let (doLine, b) ← loopBody fuel start [n]
        closeBlock
        return [.forRange doLine from_ limit step b]
      else if (← at? ",") || (← at? "in") then
        let more ← moreNames fuel
        expect "in"
        let values ← exprList fuel
        markClosing
        let (_, b) ← loopBody fuel start (n :: more)
        closeBlock
        return [.forEach start (more.length + 1) values b]
      else failNear (.ofString "'=' or 'in' expected")
    | .word "repeat" =>
      advance
      openBlock true
      openBlock false
      let b ← statements fuel
      expectClosing "until" "repeat" start
      let c ← expr fuel
      closeBlock
      closeBlock
      return [.whileLoop (.bool true) (b ++ [.cond c [.leave] []])]
    | .word "function" =>
      advance
      let n ← name
      let first ← resolve n
      let (target, isMethod) ← functionName fuel first
      checkAssignable target
      let f ← body fuel start isMethod
      return [.assign start [target] [.function f]]
    | .word "local" =>
      advance
      if ← accept "function" then
        let n ← name
        declare n .regular
        let f ← body fuel (← lastLine) false
        return [.localFunction f]
      else localVars fuel
    | .op "::" =>
      advance
      let n ← name
      expect "::"
      let r ← get
      let depth := (r.vars.filter (·.kind.isLocal)).length
      let void ← skipVoid fuel
      addLabel n start (← atBlockEnd false)
      return .label n depth :: void
    | .word "return" =>
      advance
      let values ← if (← atBlockEnd true) || (← at? ";") then pure [] else exprList fuel
      discard (accept ";")
      let closes := ((← get).blocks.head?.map (·.closes)).getD false
      match values with
      | [e] => return [if e.isCall && !closes then .retCall e else .ret [e]]
      | es => return [.ret es]
    | .word "break" =>
      if (← get).blocks.any (·.isLoop) then advance; return [.leave]
      else failNear (.ofString "break outside loop")
    | .word "goto" =>
      advance
      let n ← name
      addJump n start
      return [.goto n]
    | .name s =>
      let next ← if s = .ofString "global" then (fun l => some l.token) <$> peek else pure none
      let isDeclaration := match next with
        | some (.name _) => true
        | some t => t.is "<" || t.is "*" || t.is "function"
        | none => false
      if isDeclaration then
        advance
        globalVars fuel
      else exprStatement fuel
    | _ => exprStatement fuel

def functionName : (fuel : Nat) → Expr → Read (Expr × Bool)
  | 0, _ => fail "chunk has too many levels"
  | fuel + 1, e => do
    if ← accept "." then
      let key ← name
      functionName fuel (.index (← lastLine) e (.str key))
    else if ← accept ":" then
      let key ← name
      return (.index (← lastLine) e (.str key), true)
    else return (e, false)

/-- Reads a call or an assignment. -/
def exprStatement : (fuel : Nat) → Read (List Stat)
  | 0 => fail "chunk has too many levels"
  | fuel + 1 => do
    let e ← suffixed fuel
    if (← at? "=") || (← at? ",") then
      let ts ← targets fuel e
      let values ← exprList fuel
      return [.assign (← lastLine) ts values]
    else if e.isCall then return [.call e]
    else failNear (.ofString "syntax error")

end

/-- Reads the whole chunk as the body of a function of any arguments. -/
def main (fuel : Nat) : Read Func := do
  openBlock false
  let b ← statements fuel
  match (← get).here.token with
  | .eof => closeBlock; return .mk 0 0 .kept b
  | _ => failExpected "<eof>"

end Read

/-- The message of a chunk that cannot be read. -/
def Malformed.message (m : Malformed) : Bytes :=
  let text := m.what ++ match m.near with
    | some near => .ofString " near " ++ near
    | none => []
  if m.line = 0 then text else atPosition m.line text

def Chunk.parse (source : Bytes) : Except Malformed Func :=
  match Lexeme.ofBytes source with
  | .error e :: _ => .error e
  | [] => .ok (.mk 0 0 .kept [])
  | .ok first :: ahead =>
    let start : Reader :=
      { here := first, ahead, lastLine := 1, vars := [⟨Read.envName, .regular, 0⟩], blocks := [],
        takesExtra := true, level := 1, depth := 0 }
    match (Read.main (32 * (ahead.length + 8))).run start with
    | .ok (f, _) => .ok f
    | .error e => .error e

end HostedLua.Lua
