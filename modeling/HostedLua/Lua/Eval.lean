import HostedLua.Lua.Operate

/-! The meaning of chunks: expressions and statements as programs. Each takes what is to be done with its
outcome, so that a program can stop at any point and be kept as a value. Loops and jumps leave their
next round as a task, which makes every definition here a recursion on the chunk. -/

namespace HostedLua.Lua

open Operate (first)

/-- How the code names the value of an expression. -/
def Expr.naming : Expr → Option Naming
  | .var .own _ name => some ⟨"local", name⟩
  | .var .outer _ name => some ⟨"upvalue", name⟩
  | .str s => some ⟨"constant", s⟩
  | .index _ t key =>
    match key with
    | .str s =>
      let isGlobal : Bool := match t with
        | .var _ _ name => name = .ofString "_ENV"
        | _ => false
      some ⟨if isGlobal then "global" else "field", s⟩
    | .num (.int i) => 
      some ⟨"field", .ofString (if 0 ≤ i && i ≤ 255 then "integer index" else "?")⟩
    | _ => some ⟨"field", .ofString "?"⟩
  | .paren e => e.naming
  | _ => none

/-- A variable of the running function stays where it is until an operator uses it. -/
def Expr.isOwnVar : Expr → Bool
  | .var .own .. => true
  | .paren e => e.isOwnVar
  | _ => false

/-- The statements after a label, with the count of declarations in force at it. -/
def Block.after? (name : Bytes) : Block → Option (Block × Nat)
  | [] => none
  | .label n depth :: rest => if n = name then some (rest, depth) else Block.after? name rest
  | _ :: rest => Block.after? name rest

/-- The innermost variables given up, so that `depth` are left. -/
def Env.trim (env : Env) (depth : Nat) : Env :=
  { env with cells := env.cells.drop (env.cells.length - depth) }

/-- What follows a statement inside a block: a jump to a label of the block goes on there. -/
def afterStat (base : Block) (env : Env) (next : Prog) (k : Exit → Prog) : Exit → Prog
  | .normal => next
  | .goto name =>
    match Block.after? name base with
    | some (rest, depth) => .run (.block base rest (env.trim depth)) k
    | none => k (.goto name)
  | e => k e

def Env.readVar (env : Env) (index : Nat) (k : Value → Prog) : Prog :=
  .upd fun h => (h, k (h.read (env.cells.getD index 0)))

/-- Adds variables with values. -/
def Env.bind (env : Env) (vs : List Value) (k : Env → Prog) : Prog :=
  .upd fun h =>
    let (h, cells) := h.newCells env.cells vs
    (h, k { env with cells })

/-- Cuts or fills a list of values to a length. -/
def adjust : Nat → List Value → List Value
  | 0, _ => []
  | n + 1, [] => .nil :: adjust n []
  | n + 1, v :: vs => v :: adjust n vs

/-- Puts values at the places 1, 2, … of a table. -/
def fillSequence (h : Heap) (id : Nat) (start : Nat) : List Value → Heap
  | [] => h
  | v :: vs => fillSequence (h.set id (.int (Int64.ofNat start)) v) id (start + 1) vs

inductive Place where
  | cell (id : Nat)
  | field (table : Operand) (key : Value)
  | nowhere

def Place.store (line : Nat) (p : Place) (v : Value) (k : Prog) : Prog :=
  match p with
  | .cell id => .upd fun h => (h.write id v, k)
  | .field t key => Operate.setIndex line t key v k
  | .nowhere => k

/-- Gives places values, the last one first. -/
def storeAll (line : Nat) (k : Prog) : List (Place × Value) → Prog
  | [] => k
  | (p, v) :: rest => storeAll line (p.store line v k) rest

/-- The value is closable: it is nil, false, or has a `__close`. -/
def isClosable (h : Heap) (v : Value) : Bool := !v.truthy || !(h.metamethod v "__close").isNil

/-- Holds a value to be closed, if it needs to be, while something is done. -/
def holding (line : Nat) (name : Bytes) (v : Value) (body : (Exit → Prog) → Prog) (k : Exit → Prog) : Prog :=
  if !v.truthy then body k
  else Prog.withHeap fun h =>
    if isClosable h v then .hold v (body fun e => .release (k e))
    else Prog.fail line (.ofString "variable '" ++ name ++ .ofString "' got a non-closable value")

/-- The count of rounds of an integer loop after the first one. -/
def roundsAfterFirst (start limit step : Int64) : Nat :=
  if 0 < step then ((limit.toInt - start.toInt) / step.toInt).toNat
  else ((start.toInt - limit.toInt) / (-step.toInt)).toNat

/-- The integer limit of an integer loop, or none if the loop does not run at all. -/
def integerLimit? (start step : Int64) (limit : Number) : Option Int64 :=
  let limit? : Option Int64 := match limit with
    | .int i => some i
    | .float x =>
      match exactInt? (if step < 0 then x.ceil else x.floor) with
      | some i => some i
      | none =>
        if x > 0.0 then if step < 0 then none else some Int64.maxValue
        else if 0 < step then none else if x.isNaN then none else some Int64.minValue
  match limit? with
  | some i => if 0 < step then (if start ≤ i then some i else none) else if i ≤ start then some i else none
  | none => none

/-- Throws that a part of a numeric loop is no number. -/
def failFor (line : Nat) (what : String) (v : Value) : Prog :=
  Prog.withHeap fun h =>
    Prog.fail line (.ofString ("bad 'for' " ++ what ++ " (number expected, got ") ++ h.typeName v ++ .ofString ")")

def startRange (line : Nat) (start limit step : Value) (body : Block) (env : Env) (k : Exit → Prog) : Prog :=
  match start, step with
  | .int i, .int s =>
    match limit.toNumber? with
    | none => failFor line "limit" limit
    | some limit =>
      if s = 0 then Prog.fail line (.ofString "'for' step is zero")
      else match integerLimit? i s limit with
        | none => k .normal
        | some l => .run (.forInt (roundsAfterFirst i l s + 1) i s body env) k
  | _, _ =>
    match limit.toNumber?, step.toNumber?, start.toNumber? with
    | none, _, _ => failFor line "limit" limit
    | _, none, _ => failFor line "step" step
    | _, _, none => failFor line "initial value" start
    | some l, some s, some i =>
      let x := s.toFloat
      if x == 0.0 then Prog.fail line (.ofString "'for' step is zero")
      else .run (.forFloat i.toFloat l.toFloat x body env) k

mutual

/-- One value of an expression. -/
def Expr.eval (e : Expr) (env : Env) (k : Value → Prog) : Prog :=
  match e with
  | .nil => k .nil
  | .bool b => k (.bool b)
  | .num n => k (.ofNumber n)
  | .str s => k (.str s)
  | .varargs => k (first env.extra)
  | .var _ index _ => env.readVar index k
  | .index line t key =>
    if t.isOwnVar then
      key.eval env fun kv => t.eval env fun tv =>
        Operate.index line ⟨tv, t.naming⟩ kv k
    else
      t.eval env fun tv => key.eval env fun kv =>
        Operate.index line ⟨tv, t.naming⟩ kv k
  | .call line f args =>
    f.eval env fun fv => evalList args env fun vs =>
      .call ⟨some line, f.naming⟩ fv vs fun rs => k (first rs)
  | .method nameLine line o name args =>
    o.eval env fun ov => Operate.index nameLine ⟨ov, o.naming⟩ (.str name) fun fv =>
      evalList args env fun vs =>
        .call ⟨some line, some ⟨"method", name⟩⟩ fv (ov :: vs) fun rs => k (first rs)
  | .function f => .upd fun h =>
    let (h, id) := h.newClosure ⟨f, env.cells⟩
    (h, k (.closure id))
  | .binary line op a b =>
    if a.isOwnVar && op ≠ .concat then
      b.eval env fun bv => a.eval env fun av =>
        Operate.binary line op ⟨av, a.naming⟩ ⟨bv, b.naming⟩ k
    else
      a.eval env fun av => b.eval env fun bv =>
        Operate.binary line op ⟨av, a.naming⟩ ⟨bv, b.naming⟩ k
  | .unary line op a => a.eval env fun av => Operate.unary line op ⟨av, a.naming⟩ k
  | .and a b => a.eval env fun av => if av.truthy then b.eval env k else k av
  | .or a b => a.eval env fun av => if av.truthy then k av else b.eval env k
  | .paren e => e.eval env k
  | .table fields => .upd fun h =>
    let (h, id) := h.newTable
    (h, evalFields fields env id 1 [] (k (.table id)))

/-- All values of an expression that may have any number of them. -/
def Expr.evalOpen (e : Expr) (env : Env) (k : List Value → Prog) : Prog :=
  match e with
  | .varargs => k env.extra
  | .call line f args =>
    f.eval env fun fv => evalList args env fun vs => .call ⟨some line, f.naming⟩ fv vs k
  | .method nameLine line o name args =>
    o.eval env fun ov => Operate.index nameLine ⟨ov, o.naming⟩ (.str name) fun fv =>
      evalList args env fun vs => .call ⟨some line, some ⟨"method", name⟩⟩ fv (ov :: vs) k
  | _ => k []

/-- The values of a list of expressions, all those of the last one. -/
def evalList (es : List Expr) (env : Env) (k : List Value → Prog) : Prog :=
  match es with
  | [] => k []
  | e :: rest =>
    if rest.isEmpty && e.isOpen then e.evalOpen env k
    else e.eval env fun v => evalList rest env fun vs => k (v :: vs)

/-- Fills a new table from its fields; the values without keys wait for the end. -/
def evalFields (fs : List Field) (env : Env) (id next : Nat) (waiting : List Value) (k : Prog) : Prog :=
  match fs with
  | [] => .upd fun h => (fillSequence h id next waiting.reverse, k)
  | .item e :: rest =>
    if rest.isEmpty && e.isOpen then
      e.evalOpen env fun vs => .upd fun h => (fillSequence h id next (waiting.reverse ++ vs), k)
    else e.eval env fun v => evalFields rest env id next (v :: waiting) k
  | .named line key value :: rest =>
    key.eval env fun kv => value.eval env fun v =>
      match kv.key? with
      | .ok key => .upd fun h => (h.set id key v, evalFields rest env id next waiting k)
      | .error e => Operate.failKey line e

end

/-- All values of an expression. -/
def Expr.evalAll (e : Expr) (env : Env) (k : List Value → Prog) : Prog :=
  if e.isOpen then e.evalOpen env k else e.eval env fun v => k [v]

/-- Evaluates the targets of an assignment, except for the assignment. -/
def evalPlaces (targets : List Expr) (env : Env) (k : List Place → Prog) : Prog :=
  match targets with
  | [] => k []
  | .var _ index _ :: rest =>
    evalPlaces rest env fun ps => k (.cell (env.cells.getD index 0) :: ps)
  | .index _ t key :: rest =>
    t.eval env fun tv => key.eval env fun kv =>
      evalPlaces rest env fun ps => k (.field ⟨tv, t.naming⟩ kv :: ps)
  | _ :: rest => evalPlaces rest env fun ps => k (.nowhere :: ps)

/-- Refuses to define globals that have a value. -/
def checkUndefined (line : Nat) (k : Prog) : List (Bytes × Place) → Prog
  | [] => k
  | (name, .field t key) :: rest =>
    Operate.index line t key fun v =>
      if v.isNil then checkUndefined line k rest
      else Prog.fail line (.ofString "global '" ++ name ++ .ofString "' already defined")
  | _ :: rest => checkUndefined line k rest

/-- Calls in place of the running function. -/
def tailCall (e : Expr) (env : Env) : Prog :=
  match e with
  | .call line f args =>
    f.eval env fun fv => evalList args env fun vs => .tailCall ⟨some line, f.naming⟩ fv vs
  | .method nameLine line o name args =>
    o.eval env fun ov => Operate.index nameLine ⟨ov, o.naming⟩ (.str name) fun fv =>
      evalList args env fun vs => .tailCall ⟨some line, some ⟨"method", name⟩⟩ fv (ov :: vs)
  | e => e.evalAll env .ret

mutual

/-- A statement that declares nothing. -/
def Stat.exec (s : Stat) (env : Env) (k : Exit → Prog) : Prog :=
  match s with
  | .assign line targets values =>
    evalPlaces targets env fun ps => evalList values env fun vs =>
      storeAll line (k .normal) (ps.zip (adjust ps.length vs))
  | .globals line names targets values =>
    evalPlaces targets env fun ps => evalList values env fun vs =>
      checkUndefined line (storeAll line (k .normal) (ps.zip (adjust ps.length vs))) (names.zip ps)
  | .call e => e.evalAll env fun _ => k .normal
  | .block b => execBlock b b env k
  | .whileLoop c body => .run (.whileLoop c body env) k
  | .cond c yes no =>
    c.eval env fun v => if v.truthy then execBlock yes yes env k else execBlock no no env k
  | .forRange line start limit step body =>
    start.eval env fun sv => limit.eval env fun lv =>
      match step with
      | some step => step.eval env fun tv => startRange line sv lv tv body env k
      | none => startRange line sv lv (.int 1) body env k
  | .forEach line count values body =>
    evalList values env fun vs =>
      match adjust 4 vs with
      | [f, state, control, closing] =>
        holding line (.ofString "(for state)") closing
          (fun k => .run (.forEach line f state control count body env) k) k
      | _ => k .normal
  | .ret values => evalList values env fun vs => k (.ret vs)
  | .retCall e => tailCall e env
  | .leave => k .leave
  | .goto name => k (.goto name)
  | .label .. | .locals .. | .localFunction _ => k .normal

/-- Statements from some place in a block on; `base` are those whose labels can be jumped to. -/
def execBlock (base : Block) (ss : Block) (env : Env) (k : Exit → Prog) : Prog :=
  match ss with
  | [] => k .normal
  | .locals line count closed values :: rest =>
    evalList values env fun vs =>
      let vs := adjust count vs
      env.bind vs fun inner =>
        match closed with
        | none => execBlock base rest inner k
        | some (i, name) =>
          holding line name (vs.getD i .nil) (fun k => execBlock rest rest inner k)
            (afterStat base env (k .normal) k)
  | .localFunction f :: rest =>
    .upd fun h =>
      let (h, cell) := h.newCell .nil
      let inner : Env := { env with cells := cell :: env.cells }
      let (h, id) := h.newClosure ⟨f, inner.cells⟩
      (h.write cell (.closure id), execBlock base rest inner k)
  | s :: rest => s.exec env (afterStat base env (execBlock base rest env k) k)

end

def afterRound (next : Prog) (k : Exit → Prog) : Exit → Prog
  | .normal => next
  | .leave => k .normal
  | e => k e

/-- Does what is left of a loop or block. -/
def Task.exec (t : Task) (k : Exit → Prog) : Prog :=
  match t with
  | .block base rest env => execBlock base rest env k
  | .whileLoop c body env =>
    c.eval env fun v =>
      if v.truthy then execBlock body body env (afterRound (.run (.whileLoop c body env) k) k) else k .normal
  | .forInt 0 _ _ _ _ => k .normal
  | .forInt (n + 1) i step body env =>
    env.bind [.int i] fun inner =>
      execBlock body body inner (afterRound (.run (.forInt n (i + step) step body env) k) k)
  | .forFloat i limit step body env =>
    if (if step > 0.0 then i ≤ limit else limit ≤ i) then
      env.bind [.float i] fun inner =>
        execBlock body body inner (afterRound (.run (.forFloat (i + step) limit step body env) k) k)
    else k .normal
  | .forEach line f state control count body env =>
    .call ⟨some line, some ⟨"for iterator", .ofString "for iterator"⟩⟩ f [state, control] fun vs =>
      match first vs with
      | .nil => k .normal
      | next =>
        env.bind (adjust count vs) fun inner =>
          execBlock body body inner
            (afterRound (.run (.forEach line f state next count body env) k) k)

/-- The body of a closure on arguments. -/
def Closure.enter (c : Closure) (args : List Value) : Prog :=
  match c.func with
  | .mk _ params extra body =>
    let more := args.drop params
    let finish : Exit → Prog
      | .ret vs => .ret vs
      | _ => .ret []
    let env : Env := { cells := c.cells, extra := if extra = .dropped then [] else more }
    env.bind (adjust params args) fun env =>
      match extra with
      | .tabled => .upd fun h =>
        let (h, id) := h.newTable
        let h := (fillSequence h id 1 more).set id (.str (.ofString "n")) (.ofNat more.length)
        let (h, cell) := h.newCell (.table id)
        (h, execBlock body body { env with cells := cell :: env.cells } finish)
      | _ => execBlock body body env finish

end HostedLua.Lua
