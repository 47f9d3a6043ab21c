import HostedLua.Session.Task
import HostedLua.Config
import HostedLua.Printer
import HostedLua.Runner
import HostedLua.Script

/-! Sessions: a scripted host with named languages and variables. Each step performs a task, gives a view of
its result, and tells which side effects are on record, what was logged and which callbacks were called.
Values that no variable holds are given up at the end of a step, and coroutines among them are closed. -/

namespace HostedLua

open Host

/-- A session: its languages by name. -/
structure Session where
  languages : List (Text × Nat) := []

namespace Session

/-- The outcome of a run as it is shown. -/
structure Report where
  success : Bool
  value : View
  message : View
  line : Option Int
  effects : List Effect
  text : Text

inductive Result where
  | view (v : View)
  | report (r : Report)

/-- The answer of a step, with the side effects of the languages that have any. -/
structure Answer where
  result : Except Fault Result
  effects : List (Text × List Effect)
  logs : List Text
  calls : List (List View)

end Session

namespace Bridge

/-- The value of a handle for Lua, and any other value as it is. -/
def guestOf (v : Value) : Bridge Value := do
  match ← handle? v with
  | some (_, h) => return h.guest
  | none => return v

def lacks {α : Type} (v : Value) (what : Text) : Bridge α := do
  raise "AttributeError" ("'" ++ (← typeName v) ++ "' object has no attribute '" ++ what ++ "'")

/-- The handle in a variable, which must be of a kind that can do what is asked. -/
def handleIn (var : Text) (can : HandleKind → Bool) (what : Text) : Bridge (Nat × Handle) := do
  let v ← variableValue var
  match ← handle? v with
  | some (id, h) => if can h.kind then return (id, h) else lacks v what
  | none => lacks v what

def scriptIn (var : Text) : Bridge Nat := do
  let v ← variableValue var
  match v with
  | .obj id =>
    match ← object id with
    | .script s => return s
    | _ => lacks v "reload"
  | _ => lacks v "reload"

def runnerIn (var : Text) : Bridge Nat := do
  let v ← variableValue var
  match v with
  | .obj id =>
    match ← object id with
    | .runner r => return r
    | _ => lacks v "handle_script"
  | _ => lacks v "handle_script"

/-- A table of a state with the items of a value as they are, not converted; none on a closed state. -/
def tableFrom (E : Engine) (state : Nat) (v : Value) : Bridge Value := do
  if !(← isOpen state) then return .none
  let entries : List (Value × Value) ← match v with
    | .text t => pure (t.zipIdx.map fun (c, i) => (.int (i + 1), .text [c]))
    | .bytes b => pure (b.zipIdx.map fun (x, i) => (.int (i + 1), .int x.toNat))
    | .obj id =>
      match ← object id with
      | .byteArray b => pure (b.zipIdx.map fun (x, i) => (.int (i + 1), .int x.toNat))
      | .guest g => tableItems g
      | o =>
        match o, items? o with
        | .badItems _, _ | _, none => raise "TypeError" ("'" ++ o.typeName ++ "' object is not iterable")
        | _, some (ps, _) => pure ps
    | v => raise "TypeError" ("'" ++ (← typeName v) ++ "' object is not iterable")
  let table ← newTable state
  entries.forM fun (k, v) => putRaw state table k v
  toHost E state table

/-- The values of a group, as a conversion of results takes them. -/
def groupOf (v : Value) : Bridge (List Value) := do
  match v with
  | .none => return []
  | .text t => return t.map fun c => .text [c]
  | .obj id =>
    match ← object id with
    | .list vs | .tuple vs => return vs
    | .dict ps | .proxy ps => return ps.map (·.1)
    | o => raise "TypeError" ("object of type '" ++ o.typeName ++ "' has no len()")
  | v => raise "TypeError" ("object of type '" ++ (← typeName v) ++ "' has no len()")

def isSame (a b : Value) : Bool :=
  match a, b with
  | .none, .none => true
  | .bool a, .bool b => a == b
  | .int a, .int b => a == b
  | .float a, .float b => a.toBits == b.toBits
  | .text a, .text b => a == b
  | .bytes a, .bytes b => a == b
  | .member a, .member b => a == b
  | .obj a, .obj b => a == b
  | _, _ => false

/-- The language that scripts belong to by default, made when it is first asked for. -/
def singleton : Bridge Nat := do
  match (← get).singleton with
  | some l => return l
  | none =>
    let l ← newLanguage {} none
    modify fun w => { w with singleton := some l }
    return l

/-- What a script tells about itself, by name. -/
def scriptEntries (E : Engine) (id : Nat) : Bridge (List (String × Value)) := do
  let s ← script id
  let name ← globalName E id
  let nameAgain ← globalName E id
  let base ← baseType E id
  let baseAgain ← baseType E id
  let tool ← isTool E id
  let text ← scriptText E id
  return [("state", .ofString s.state.text), ("valid", .bool (s.state = .valid)),
    ("name", ← newTuple [.text name, .text nameAgain]), ("base", ← newTuple [base, baseAgain]),
    ("tool", .bool tool), ("class", (s.loaded.map Value.obj).getD .none),
    ("has_source", .bool !s.source.isEmpty), ("source", ← newTuple [.text s.source, .text s.source]),
    ("base_script", .none), ("inherits", .bool false), ("can", .bool true), ("lang", .ofString "Lua"),
    ("repr", .text text)]

end Bridge

namespace Session

open Bridge

def configFrom (E : Engine) (language : Nat) (r : Option Recipe) : Bridge Config := do
  match r with
  | none => return {}
  | some r => configOfMapping E (← make language r)

def addLanguage (E : Engine) (s : Session) (name : Text) (r : Option Recipe) (b : Binding) :
    Bridge Session := do
  let c ← configFrom E 0 r
  let adapter ← match b with
    | .nobody => pure none
    | .adapter a => pure (some a)
    | .unfinished => raise "TypeError" "Can't instantiate abstract class"
  let l ← newLanguage c adapter
  return { languages := (s.languages.filter (·.1 ≠ name)) ++ [(name, l)] }

/-- The state in a variable, or that of the present language. -/
def stateFor (language : Nat) (on : Option Text) : Bridge Nat := do
  match on with
  | none => languageState language
  | some var =>
    let v ← variableValue var
    match v with
    | .obj id =>
      match ← object id with
      | .state s => return s
      | _ => lacks v "is_open"
    | _ => lacks v "is_open"

/-- At most one argument was given. -/
def atMostOne (args : List Value) : Bridge Unit :=
  if args.length ≤ 1 then return
  else raise "TypeError" "takes at most one argument"

/-- Performs a task of a language and gives its value. -/
def perform (E : Engine) (l : Nat) (t : Task) : Bridge Value := do
  let value (r : Recipe) : Bridge Value := make l r
  let all (rs : List Recipe) : Bridge (List Value) := makeAll l rs
  let nothing (x : Bridge Unit) : Bridge Value := do
    x
    return .none
  match t with
  | .addLanguage .. | .runChunk .. => return .none
  | .execute source => runIn E l (← value source)
  | .finish => nothing (finish l)
  | .state => do stateObject (← languageState l)
  | .newState config =>
    let c ← newConfig (← configFrom E l config)
    stateObject (← openState c (← language l).diagnostics)
  | .runOn on source =>
    let s ← stateFor l on
    doString E s (← value source)
  | .closeState on => nothing do closeState (← stateFor l on)
  | .isOpen on => return .bool (← isOpen (← stateFor l on))
  | .globals on =>
    let s ← stateFor l on
    match ← state? s with
    | some st =>
      if st.isOpen then newObject (.guest ⟨s, .table st.machine.heap.globals, false⟩) else return .none
    | none => return .none
  | .newTable on => do newTable (← stateFor l on)
  | .setGlobal on name v =>
    let s ← stateFor l on
    nothing do setGlobal s name (← value v)
  | .tableFrom on v =>
    let s ← stateFor l on
    tableFrom E s (← value v)
  | .setFlag on flag b =>
    let s ← stateFor l on
    nothing <| modifyState s fun st => match flag with
      | .hasIntegers => { st with hasIntegers := b }
      | .needsThreadClose => { st with closing := if b then .byHand else .spared }
      | .closeThread => { st with closing := .refused }
  | .setEncoding on encoding =>
    let s ← stateFor l on
    let v ← value encoding
    nothing do
      match ← state? s with
      | some st => modify fun w => { w with configs := w.configs.modify st.config ({ · with encoding := v }) }
      | none => return
  | .capabilities on =>
    match ← state? (← stateFor l on) with
    | some st =>
      newTuple [← newTuple [.int 5, .int 5], .bool st.needsThreadClose, .bool st.hasIntegers]
    | none => return .none
  | .createThread on f =>
    let s ← stateFor l on
    toHost E s (← createThread E s (← guestOf (← variableValue f)))
  | .closeThread on h =>
    let s ← stateFor l on
    nothing do closeThread E (errorMessage E) s (← guestOf (← variableValue h))
  | .address on v =>
    let s ← stateFor l on
    match ← addressOf E s (← guestOf (← value v)) with
    | none => return .none
    | some a => return .text (if a.length < 6 then a else "ADDR")
  | .orphan source =>
    let c ← newConfig {}
    let s ← openState c (← language l).diagnostics
    doString E s (.text source)
  | .wrap kind v =>
    let s ← languageState l
    newHandle { kind, state := s, guest := ← guestOf (← value v) }
  | .give v => value v
  | .drop var => nothing do
      let _ ← variableValue var
      modify fun w => { w with bindings := w.bindings.filter (·.1 ≠ var) }
  | .roundTrip v =>
    let s ← languageState l
    toHost E s (← toGuest s (← value v))
  | .toGuest v =>
    let s ← languageState l
    toGuest s (← value v)
  | .toGuestValues args =>
    let s ← languageState l
    match ← toGuestValues s (← all args) with
    | .ok vs => newTuple [← newObject (.list vs), .none]
    | .error e => newTuple [.none, ← newError e.status e.message]
  | .toHostResult status payload =>
    let s ← languageState l
    let v ← value payload
    match status with
    | .ok | .yielded => toHostValues E s (← groupOf v)
    | status => newError status (← errorMessage E v)
  | .text v => return .text (← strWith E (scriptText E) (← value v))
  | .print v indentWidth maxDepth level =>
    return .text (← Printer.format { indentWidth, maxDepth } E (← value v) level)
  | .valid h =>
    let (_, h) ← handleIn h (fun _ => true) "valid"
    return .bool (← isValid h)
  | .sameState on h =>
    let (_, h) ← handleIn h (fun _ => true) "state"
    let s ← stateFor l on
    return .bool (h.state = s && (← isAlive h.state))
  | .same a b =>
    let a ← value a
    return .bool (isSame a (← value b))
  | .call isDirect f args =>
    let v ← variableValue f
    let args ← all args
    match ← handle? v with
    | some (_, h) =>
      if h.kind.isFunction then invoke E h args
      else if isDirect then raise "TypeError" ("'" ++ h.kind.name ++ "' object is not callable")
      else lacks v "invokev"
    | none =>
      if !isDirect then lacks v "invokev"
      else match ← callValue E v args with
        | [] => return .none
        | [v] => return v
        | vs => newTuple vs
  | .mapping h =>
    let (_, h) ← handleIn h (· = .table) "to_mapping"
    newObject (.dict (← toMapping E h))
  | .get h key default =>
    let (_, h) ← handleIn h (· = .table) "get_value"
    let key ← value key
    getValue E h key (← value default)
  | .createCoroutine f => do createCoroutine E (← value f)
  | .resume co args =>
    let (id, h) ← handleIn co (· = .coroutine) "resumev"
    resume E id h (← all args)
  | .status co =>
    let (_, h) ← handleIn co (· = .coroutine) "status"
    return .member (.coroutine h.status)
  | .close co => nothing do
      let (id, _) ← handleIn co (· = .coroutine) "close"
      closeCoroutine E id
  | .repeatCall f times => nothing do
      let (_, h) ← handleIn f HandleKind.isFunction "invoke"
      (List.replicate times ()).forM fun _ => do
        let _ ← invoke E h []
  | .newScript name source => nothing do
      setVariable name (← newObject (.script (← newScript l source)))
  | .defaultScript source =>
    let s ← newScript (← singleton) source
    let status ← reload E s
    newTuple [.bool true, .member (.reload status), .text (← globalName E s)]
  | .reload name keep =>
    let s ← scriptIn name
    atMostOne (← all keep)
    return .member (.reload (← reload E s))
  | .loadSource name source =>
    let s ← scriptIn name
    setSource s source
    return .member (.reload (← reload E s))
  | .setSource name source => nothing do setSource (← scriptIn name) source
  | .describeScript name =>
    let entries ← scriptEntries E (← scriptIn name)
    newObject (.dict (entries.map fun (k, v) => (.ofString k, v)))
  | .instantiate name target =>
    let s ← scriptIn name
    instantiate E s (← value target)
  | .newRunner name capture => nothing do
      let args ← all capture
      atMostOne args
      let capture ← match args with
        | [v] => truthy v
        | _ => pure true
      setVariable name (← newObject (.runner (← newRunner l capture)))
  | .report v => nothing do report (← language l).diagnostics (← describe E (← value v))
  | .emit topics args => nothing do
      let args ← all args
      let topics ← topicsOf topics
      let parts ← args.mapM (str E)
      addEffect (← language l).diagnostics ⟨topics, Text.join " " parts⟩
  | .errors =>
    newObject (.list ((← errors (← language l).diagnostics).map Value.text))
  | .clear => nothing (clearEffects (← language l).diagnostics)

/-- Runs a chunk with a runner and gives what is shown of the outcome. -/
def runChunk (E : Engine) (l : Nat) (runner : Text) (source : Recipe) (deep : Nat) : Bridge Result := do
  let id ← runnerIn runner
  let o ← handleScript E id (← make l source)
  return .report { success := o.success, value := ← look E deep o.value, message := ← look E deep o.message,
                   line := o.line, effects := o.effects, text := ← formatError E o }

/-- Performs a step in a language, saves its value and takes its view. -/
def performStep (E : Engine) (l : Nat) (step : Step) : Bridge Result := do
  match step.task with
  | .runChunk runner source => runChunk E l runner source step.deep
  | task =>
    let v ← perform E l task
    match step.save with
    | some name => setVariable name v
    | none => pure ()
    return .view (← look E step.deep v)

/-- Closes the coroutine handles that nothing holds any more. -/
def release (E : Engine) : Bridge Unit := do
  let w ← get
  let live := w.live
  (List.range w.objects.size).forM fun id => do
    match (w.objects[id]? : Option Object) with
    | some (.handle h) =>
      if h.kind = .coroutine && !h.closed && !live.contains id then
        let _ ← attempt (closeCoroutine E id)
    | _ => return

/-- The side effects of the languages that have any. -/
def effectsNow (s : Session) : Bridge (List (Text × List Effect)) := do
  let all ← s.languages.mapM fun (name, l) => do
    return (name, ← effects (← language l).diagnostics)
  return all.filter fun (_, es) => !es.isEmpty

/-- Takes the logs and the calls noted since they were taken last. -/
def takeNotes : Bridge (List Text × List (List View)) := modifyGet fun w =>
  ((w.logs.reverse, w.calls.reverse), { w with logs := [], calls := [] })

def step (E : Engine) (s : Session) (st : Step) : Bridge (Session × Answer) := do
  let (s, result) ← match st.task with
    | .addLanguage name config binding =>
      match ← attempt (addLanguage E s name config binding) with
      | .ok s => pure (s, .ok (.view .none))
      | .error f => pure (s, .error f)
    | _ =>
      match s.languages.lookup st.language with
      | some l => pure (s, ← attempt (performStep E l st))
      | none => pure (s, .error (.make (.ofString "KeyError") st.language))
  release E
  let effects ← effectsNow s
  let (logs, calls) ← takeNotes
  return (s, { result, effects, logs, calls })

/-- Performs steps one after the other. -/
def steps (E : Engine) (s : Session) : List Step → Bridge (List Answer)
  | [] => return []
  | st :: rest => do
    let (s, a) ← step E s st
    return a :: (← steps E s rest)

/-- A session whose first language is called main. -/
def run (E : Engine) (config : Option Recipe) (binding : Binding) (sts : List Step) :
    Bridge (List Answer) := do
  let s ← addLanguage E {} "main" config binding
  steps E s sts

end Session

end HostedLua
