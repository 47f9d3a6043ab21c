import HostedLua.Lua.Library.Args

/-! The functions of the library on threads. -/

namespace HostedLua.Lua.Library

def statusName : ThreadStatus → String
  | .running => "running"
  | .suspended => "suspended"
  | .normal => "normal"
  | .dead => "dead"

def resumeThread (t : Nat) (args : List Value) (k : Except Thrown (List Value) → Prog) : Prog :=
  .look fun v =>
    let refuse (why : String) : Prog := k (.error (.value (.ofString why)))
    match v.status t with
    | .suspended => .resume t args k
    | .dead => refuse "cannot resume dead coroutine"
    | .running | .normal => refuse "cannot resume non-suspended coroutine"

def coCreate (args : Args) : Prog := args.function 1 fun f => .spawn f fun t => .ret [.thread t]

/-- Resumes a thread and says whether it went well. -/
def coResume (args : Args) : Prog :=
  args.thread 1 fun t => resumeThread t args.tail fun r =>
    match r with
    | .ok vs => .ret (.bool true :: vs)
    | .error e => .ret [.bool false, e.seen]

/-- Suspends the running thread. -/
def coYield (args : Args) : Prog :=
  .look fun v =>
    if v.yieldable then .yield args .ret
    else .raise (.ofString (if v.current = 0 then "attempt to yield from outside a coroutine"
      else "attempt to yield across a C-call boundary"))

def coStatus (args : Args) : Prog :=
  args.thread 1 fun t => .look fun v => .ret [.ofString (statusName (v.status t))]

/-- A function that resumes a new thread. -/
def coWrap (args : Args) : Prog := args.function 1 fun f => .spawn f fun t => .ret [.wrapped t]

/-- Resumes a wrapped thread; what it throws is thrown on, strings with the place in front. -/
def callWrapped (t : Nat) (args : Args) : Prog :=
  resumeThread t args fun r =>
    match r with
    | .ok vs => .ret vs
    | .error e =>
      let rethrow (e : Thrown) : Prog :=
        match e with
        | .value (.str s) => .look fun v => .raise (.str (position v 1 ++ s))
        | .value v => .raise v
        | .memory => .unwind .memory
      .look fun v =>
        match v.status t with
        | .dead => .close t fun r =>
          match r with
          | .ok _ => rethrow e
          | .error e => rethrow e
        | _ => rethrow e

/-- Closes a suspended or dead thread, or the running one. -/
def coClose (args : Args) : Prog :=
  let close (t : Nat) : Prog := .look fun v =>
    match v.status t with
    | .normal => failHere (.ofString "cannot close a normal coroutine")
    | .running =>
      if t = 0 then failHere (.ofString "cannot close main thread")
      else .close t fun _ => .ret []
    | .suspended | .dead => .close t fun r =>
      match r with
      | .ok _ => .ret [.bool true]
      | .error e => .ret [.bool false, e.seen]
  if args.isEmpty then .look fun v => close v.current else args.thread 1 close

/-- The running thread and whether it is the main one. -/
def coRunning : Prog := .look fun v => .ret [.thread v.current, .bool (v.current = 0)]

/-- The running thread can yield. -/
def coIsYieldable : Prog := .look fun v => .ret [.bool v.yieldable]

/-- The lines of a trace, the innermost function first. -/
def traceLines (v : View) (level : Nat) : List Bytes :=
  (v.stack.drop level).map fun a =>
    match a.line, a.function with
    | some l, _ => .ofString ("\n\t[string \"<python>\"]:" ++ toString l ++ ": in function <?>")
    | none, _ => .ofString "\n\t[C]: in ?"

/-- A message with the trace of the stack after it. -/
def traceback (args : Args) : Prog :=
  let trace (message : Bytes) : Prog := .look fun v =>
    .ret [.str (message ++ .ofString "stack traceback:" ++ (traceLines v 1).flatten)]
  match args.get 1 with
  | .nil => trace []
  | .str s => trace (s ++ [10])
  | v =>
    match v.toBytes? with
    | some s => trace (s ++ [10])
    | none => .ret [v]

end HostedLua.Lua.Library
