import HostedLua.Lua.Eval
import HostedLua.Lua.Library

/-! The machine that runs programs: memory, threads with their stacks, and the program of the current
thread. A step of the machine either leaves a machine to go on with or stops, because the host's call
has ended or the host is asked something. The host may call again while it is asked; such calls run
on the main thread, over whatever waits there. -/

namespace HostedLua.Lua

inductive Frame where
  /-- A function that runs, how deep it lies among all calls and among calls from outside of Lua code,
  and what its caller does with its results. -/
  | call (function : Activation) (depth nested : Nat) (k : List Value → Prog)
  /-- A protected call. -/
  | guard (k : Except Thrown (List Value) → Prog)
  /-- A value to be closed. -/
  | held (v : Value)
  /-- The resumption of another thread. -/
  | resumed (k : Except Thrown (List Value) → Prog)
  /-- A question to the host. -/
  | asked (k : List Value → Prog)
  /-- A call by the host, made while a thread was current. -/
  | entry (current : Nat)

/-- What a thread that is not current will do when it is resumed. -/
inductive Rest where
  | fresh (f : Value)
  | yielded (k : List Value → Prog)
  | waiting
  | dead

/-- A thread: what it will do, its stack while it is not current, and what it died of. -/
structure Thread where
  rest : Rest
  stack : List Frame := []
  failure : Option Thrown := none

/-- A machine. The main thread has number 0. -/
structure Machine where
  heap : Heap
  threads : Array Thread := #[{ rest := .waiting }]
  current : Nat := 0
  /-- The stack of the current thread. -/
  stack : List Frame := []
  /-- The threads that wait for the current one, the innermost first. -/
  waiting : List Nat := []
  prog : Prog := .ret []

inductive Stop where
  /-- The host's call has ended. -/
  | done (r : Except Thrown (List Value))
  /-- The host is asked something. -/
  | asks (r : Request)

namespace Machine

/-- The deepest stack of calls. -/
def maxDepth : Nat := 190000

/-- The deepest nesting of calls that do not come from Lua code. -/
def maxNested : Nat := 195

/-- The functions on a stack, the innermost first. -/
def activations (stack : List Frame) : List Activation :=
  stack.filterMap fun
    | .call a _ _ _ => some a
    | _ => none

/-- How deep the innermost function of a stack lies. -/
def depths : List Frame → Nat × Nat
  | [] => (0, 0)
  | .call _ depth nested _ :: _ => (depth, nested)
  | _ :: rest => depths rest

/-- The line of the innermost function of a stack, if it is a Lua function. -/
def lineOf (stack : List Frame) : Option Nat := (activations stack).head?.bind (·.line)

/-- Notes the line that the innermost function has come to, if it runs in the host's latest call. -/
def noteLine (line : Nat) : List Frame → List Frame
  | [] => []
  | .entry current :: rest => .entry current :: rest
  | .call a d n k :: rest => .call (if a.line.isSome then { a with line := some line } else a) d n k :: rest
  | f :: rest => f :: noteLine line rest

/-- A stack with the line noted that an operation happens on. -/
def noted (site : Site) (stack : List Frame) : List Frame :=
  match site.line with
  | some l => noteLine l stack
  | none => stack

def thread (m : Machine) (t : Nat) : Thread := (m.threads[t]?).getD { rest := .dead }

/-- The state that a thread shows. -/
def status (m : Machine) (t : Nat) : ThreadStatus :=
  if t = m.current then .running
  else match (m.thread t).rest with
    | .fresh _ | .yielded _ => .suspended
    | .waiting => .normal
    | .dead => .dead

/-- The calls of the innermost functions of a stack let a thread be suspended: each caller that is no
Lua function is one that can wait. -/
def canYield (stack : List Frame) : Bool :=
  (activations stack).tail.all fun a =>
    match a.function with
    | .closure _ | .builtin .pcall | .builtin .pairs => true
    | _ => false

/-- What a program sees of the machine. -/
def view (m : Machine) : View :=
  { stack := activations m.stack, current := m.current, status := m.status,
    yieldable := m.current ≠ 0 && canYield m.stack }

/-- The lines of a trace, the outermost function first. -/
def trace (stack : List Frame) : Bytes :=
  .ofString "stack traceback:" ++ ((activations stack).reverse.map fun a =>
    match a.line with
    | some l => Bytes.ofString "\n\t" ++ atPosition l (Bytes.ofString "in function <" ++ chunkName ++ Bytes.ofString ">")
    | none => Bytes.ofString "\n\t[C]: in ?").flatten

/-- What the host gets of a value thrown in its call: text gains a trace. -/
def traced (stack : List Frame) (v : Value) : Thrown :=
  match v with
  | .nil => .value (.str (trace stack))
  | v =>
    match v.toBytes? with
    | some s =>
      if s = .ofString "not enough memory" then .memory
      else .value (.str (s ++ 10 :: trace stack))
    | none => .value v

/-- What is thrown for an error value: a text stands in for no value. -/
def thrown (v : Value) : Thrown :=
  match v with
  | .nil => .value (.str (.ofString "<no error object>"))
  | v => .value v

/-- The innermost of the protected calls and host calls on a stack is one by the host. -/
def caughtByHost : List Frame → Bool
  | [] => false
  | .guard _ :: _ => false
  | .entry _ :: _ => true
  | _ :: rest => caughtByHost rest

/-- Something on the stack takes what is thrown. -/
def isCaught : List Frame → Bool
  | [] => false
  | .guard _ :: _ | .entry _ :: _ => true
  | _ :: rest => isCaught rest

/-- Errors that the host gets are traced, unless Lua code has taken the function for it away. -/
def tracing (h : Heap) : Bool :=
  match h.get h.globals (.str (.ofString "debug")) with
  | .table id =>
    match h.get id (.str (.ofString "traceback")) with
    | .builtin .traceback => true
    | _ => false
  | _ => false

/-- Makes another thread current, and gives the program what its stack waits for. -/
def switchBack (m : Machine) (r : Except Thrown (List Value)) : Machine :=
  match m.waiting with
  | [] => { m with prog := .ret [] }
  | t :: rest =>
    let stack := (m.thread t).stack
    let m := { m with current := t, waiting := rest, threads := m.threads.modify t ({ · with stack := [] }) }
    match stack with
    | .resumed k :: stack => { m with stack, prog := k r }
    | stack => { m with stack, prog := .ret [] }

/-- The current thread ends. -/
def finishThread (m : Machine) (held : List Frame) (failure : Option Thrown)
    (r : Except Thrown (List Value)) : Machine :=
  { m with threads := m.threads.modify m.current fun _ => { rest := .dead, stack := held, failure } }.switchBack r

/-- The host's call ends. -/
def leave (m : Machine) (current : Nat) (stack : List Frame) : Machine :=
  if current = 0 then { m with stack, prog := .ret [] }
  else
    let inner := (m.thread current).stack
    { m with
      threads := (m.threads.modify 0 ({ · with stack })).modify current ({ · with stack := [] })
      current, stack := inner, waiting := m.waiting.tail, prog := .ret [] }

/-- The running function returns. -/
def return_ (m : Machine) (vs : List Value) : Machine ⊕ (Machine × Stop) :=
  match m.stack with
  | [] => .inl (m.finishThread [] none (.ok vs))
  | .call _ _ _ k :: stack => .inl { m with stack, prog := k vs }
  | .guard k :: stack => .inl { m with stack, prog := k (.ok vs) }
  | .held v :: stack => .inl { m with stack, prog := Operate.closeValue v none (.ret vs) }
  | .entry current :: stack => .inr (m.leave current stack, .done (.ok vs))
  | .resumed _ :: stack | .asked _ :: stack => .inl { m with stack }

/-- The values that are still to be closed on a stack. -/
def heldOnly (stack : List Frame) : List Frame :=
  stack.filter fun
    | .held _ => true
    | _ => false

/-- What is thrown passes the innermost frame. -/
def unwind (m : Machine) (t : Thrown) : Machine ⊕ (Machine × Stop) :=
  if !isCaught m.stack then .inl (m.finishThread (heldOnly m.stack) (some t) (.error t))
  else match m.stack with
    | [] => .inl m
    | .guard k :: stack => .inl { m with stack, prog := k (.error t) }
    | .held v :: stack => .inl { m with stack, prog := Operate.closeValue v (some t.seen) (.unwind t) }
    | .entry current :: stack => .inr (m.leave current stack, .done (.error t))
    | _ :: stack => .inl { m with stack }

/-- What a call comes to: the function to enter and its arguments, of which some were put in front by
`__call`. -/
def resolve (h : Heap) : (fuel : Nat) → (f : Value) → (args : List Value) → (inserted : Nat) →
    Option (Value × List Value × Nat)
  | 0, _, _, _ => none
  | fuel + 1, f, args, inserted =>
    match f with
    | .closure _ | .builtin _ | .wrapped _ | .host _ => some (f, args, inserted)
    | f =>
      match h.metamethod f "__call" with
      | .nil => none
      | handler => resolve h fuel handler (f :: args) (inserted + 1)

/-- The program of a function on arguments. -/
def body (h : Heap) (f : Value) (args : List Value) : Prog :=
  match f with
  | .closure id =>
    match h.closures[id]? with
    | some c => c.enter args
    | none => .ret []
  | .builtin b => b.enter args
  | .wrapped t => Library.callWrapped t args
  | .host id => .ask (.call id args) .ret
  | _ => .ret []

/-- The line that a function starts on, if it is a Lua function. -/
def startLine (h : Heap) : Value → Option Nat
  | .closure id =>
    match h.closures[id]? with
    | some ⟨.mk line _ _ _, _⟩ => some line
    | none => none
  | _ => none

/-- How deep a call at a place lies among the calls that do not come from Lua code. -/
def nestedAt (site : Site) (stack : List Frame) : Nat :=
  let isMeta : Bool := match site.naming with
    | some n => n.kind == "metamethod"
    | none => false
  let nested := (depths stack).2
  if (lineOf stack).isNone || isMeta then nested + 1 else nested

/-- A call: the function's frame goes on the stack. -/
def call (m : Machine) (site : Site) (f : Value) (args : List Value) (k : List Value → Prog) : Machine :=
  let stack := noted site m.stack
  let line := lineOf stack
  match resolve m.heap 8 f args 0 with
  | none =>
    let message := .ofString "attempt to call a " ++ m.heap.typeName f ++ .ofString " value" ++
      Naming.text site.naming
    { m with stack, prog := .fail line message }
  | some (g, args, inserted) =>
    let depth := (depths stack).1
    let nested := nestedAt site stack
    if maxDepth ≤ depth then { m with stack, prog := .fail line (.ofString "stack overflow") }
    else if maxNested ≤ nested then { m with stack, prog := .fail line (.ofString "C stack overflow") }
    else
      let act : Activation := { function := g, naming := site.naming, line := startLine m.heap g, inserted }
      { m with stack := .call act (depth + 1) nested k :: stack, prog := body m.heap g args }

/-- A call in place of the running function; only a Lua function gives up the frame. -/
def tailCall (m : Machine) (site : Site) (f : Value) (args : List Value) : Machine :=
  match resolve m.heap 8 f args 0, m.stack with
  | some (.closure id, args, inserted), .call _ depth nested k :: stack =>
    let act : Activation :=
      { function := .closure id, naming := none, line := startLine m.heap (.closure id), inserted }
    { m with stack := .call act depth nested k :: stack, prog := body m.heap (.closure id) args }
  | _, _ => m.call site f args .ret

/-- Resumes a suspended thread. -/
def resume (m : Machine) (t : Nat) (args : List Value) (k : Except Thrown (List Value) → Prog) : Machine :=
  let (_, nested) := depths m.stack
  if maxNested ≤ nested + 1 then { m with prog := k (.error (.value (.ofString "C stack overflow"))) }
  else
    let resumed := m.thread t
    let switched :=
      { m with
        threads := (m.threads.modify m.current ({ · with stack := .resumed k :: m.stack })).modify t
          fun _ => { rest := .waiting }
        current := t, stack := resumed.stack, waiting := m.current :: m.waiting }
    match resumed.rest with
    | .fresh f => { switched with prog := .call ⟨none, none⟩ f args .ret }
    | .yielded k => { switched with prog := k args }
    | .waiting | .dead => { m with prog := k (.error (.value (.ofString "cannot resume dead coroutine"))) }

/-- Closes values one after the other; an error in closing takes the place of the error so far. -/
def closeAll (k : Except Thrown Unit → Prog) : List Frame → Option Thrown → Prog
  | [], none => k (.ok ())
  | [], some t => k (.error t)
  | .held v :: rest, t =>
    .withHeap fun h =>
      .attempt (h.metamethod v "__close") (v :: (t.map Thrown.seen).toList) fun r =>
        match r with
        | .ok _ => closeAll k rest t
        | .error e => closeAll k rest (some e)
  | _ :: rest, t => closeAll k rest t

/-- Closes a thread: a suspended or dead one from outside, or the current one from inside. One that waits for
another thread is not closed. -/
def close (m : Machine) (t : Nat) (k : Except Thrown Unit → Prog) : Machine :=
  if t = m.current then
    let finish (r : Except Thrown Unit) : Prog :=
      match r with
      | .ok _ => .ret []
      | .error e => .unwind e
    { m with stack := [], prog := closeAll finish (heldOnly m.stack) none }
  else
    let closed := m.thread t
    match closed.rest with
    | .waiting => { m with prog := .raise (.ofString "cannot close a normal coroutine") }
    | _ =>
      { m with
        threads := m.threads.modify t fun _ => { rest := .dead }
        prog := closeAll k (heldOnly closed.stack) closed.failure }

/-- One step. The main thread is neither suspended nor closed. -/
def step (m : Machine) : Machine ⊕ (Machine × Stop) :=
  match m with
  | ⟨heap, threads, current, stack, waiting, prog⟩ =>
    let withProg (prog : Prog) : Machine := ⟨heap, threads, current, stack, waiting, prog⟩
    match prog with
    | .ret vs => return_ ⟨heap, threads, current, stack, waiting, .ret vs⟩ vs
    | .upd f =>
      let (heap, prog) := f heap
      .inl ⟨heap, threads, current, stack, waiting, prog⟩
    | .raise v =>
      .inl (withProg (.unwind (if caughtByHost stack && tracing heap then traced stack v else thrown v)))
    | .unwind t => unwind ⟨heap, threads, current, stack, waiting, .unwind t⟩ t
    | .call site f args k => .inl (call ⟨heap, threads, current, stack, waiting, .ret []⟩ site f args k)
    | .tailCall site f args => .inl (tailCall ⟨heap, threads, current, stack, waiting, .ret []⟩ site f args)
    | .run t k => .inl (withProg (t.exec k))
    | .attempt f args k =>
      .inl ⟨heap, threads, current, .guard k :: stack, waiting, .call ⟨none, none⟩ f args .ret⟩
    | .hold v k => .inl ⟨heap, threads, current, .held v :: stack, waiting, k⟩
    | .release k =>
      match stack with
      | .held v :: stack => .inl ⟨heap, threads, current, stack, waiting, Operate.closeValue v none k⟩
      | stack => .inl ⟨heap, threads, current, stack, waiting, k⟩
    | .look k => .inl (withProg (k (withProg (.ret [])).view))
    | .spawn f k =>
      let t := threads.size
      .inl ⟨heap, threads.push { rest := .fresh f }, current, stack, waiting, k t⟩
    | .resume t args k => .inl (resume ⟨heap, threads, current, stack, waiting, .ret []⟩ t args k)
    | .yield vs k =>
      if current = 0 then .inl (withProg (.raise (.ofString "attempt to yield from outside a coroutine")))
      else
        let m : Machine :=
          ⟨heap, threads.modify current fun _ => { rest := .yielded k, stack }, current, [], waiting, .ret []⟩
        .inl (m.switchBack (.ok vs))
    | .close t k =>
      if t = 0 then .inl (withProg (.raise (.ofString "cannot close main thread")))
      else .inl (close ⟨heap, threads, current, stack, waiting, .ret []⟩ t k)
    | .ask r k => .inr (⟨heap, threads, current, .asked k :: stack, waiting, .ret []⟩, .asks r)

/-- Steps until the machine stops; none if that takes more steps than allowed. -/
def run : (fuel : Nat) → Machine → Option (Machine × Stop)
  | 0, _ => none
  | fuel + 1, m =>
    match m.step with
    | .inl m => run fuel m
    | .inr r => some r

/-- The host has a program run, on the main thread. -/
def enter (m : Machine) (prog : Prog) : Machine :=
  if m.current = 0 then { m with stack := .entry 0 :: m.stack, prog }
  else
    { m with
      threads := (m.threads.modify m.current ({ · with stack := m.stack })).modify 0 ({ · with stack := [] })
      current := 0, stack := .entry m.current :: (m.thread 0).stack
      waiting := m.current :: m.waiting, prog }

/-- The host answers what it was asked, with values or by throwing one. -/
def answer (m : Machine) (r : Except Value (List Value)) : Machine :=
  match m.stack with
  | .asked k :: stack =>
    match r with
    | .ok vs => { m with stack, prog := k vs }
    | .error v => { m with stack, prog := .raise v }
  | _ => m

end Machine

end HostedLua.Lua
