import HostedLua.Proofs.History.Trail
import HostedLua.Proofs.Evolution.Script

/-! Moments of a session. The host does one thing after the other. Lua code that runs for it may call back, and a
callback may do all that the host does, so that what is done nests. Whatever the callbacks of a host are, each moment
lies on a trail from where the session started. -/

namespace HostedLua

open Host

namespace Bridge

open World

/-- What runs callbacks, given whoever runs Lua code and callbacks for it in turn. -/
abbrev Handler := Engine → Callback → List Value → Bridge Value

/-- The callbacks keep an invariant and go along trails, if all that they run does. -/
def Handler.Preserves (I : World → Prop) (host : Handler) : Prop :=
  ∀ {E : Engine}, EngineKeeps I Leads E → ∀ c args, Keeps I Leads (host E c args)

/-- The callbacks go along trails, if all that they run does. -/
def Handler.Steps (host : Handler) : Prop :=
  ∀ {E : Engine}, EngineKeeps Any Leads E → ∀ c args, Keeps Any Leads (host E c args)

/-- The engine of a host that lets calls nest to a depth. -/
def engineOf (host : Handler) : (depth : Nat) → Engine
  | 0 => { run := fun _ _ => failNesting, callback := fun _ _ => failNesting }
  | depth + 1 =>
    let inner := engineOf host depth
    { run := fun state p => do
        match ← state? state with
        | some s => drive inner state maxSteps (s.machine.enter p)
        | none => diverge
      callback := fun c args => host inner c args }

/-- With the callbacks of sessions it is the engine that sessions run on. -/
theorem engineOf_runCallback (n : Nat) : engineOf runCallback n = engine n := by
  induction n with
  | zero => rfl
  | succ n ih =>
    rw [engineOf, ih]
    rfl

theorem preserves_runCallback {I : World → Prop} [OfObjects I] : Handler.Preserves I runCallback :=
  fun hE c args => keeps_runCallback hE c args

theorem steps_runCallback : Handler.Steps runCallback := preserves_runCallback

/-! ### Running goes along trails -/

section Engine

variable {I : World → Prop} [OfObjects I] {E : Engine} {host : Handler} {w w' v : World} {state id : Nat}
  {m m' : Lua.Machine}

theorem leads_withMachine (w : World) (state : Nat) (m : Lua.Machine) : w.Leads (w.withMachine state m) := by
  have step : Step w [] (w.withMachine state m) := .state fun _ => ⟨rfl, fun h => h⟩
  exact step.leads

theorem keeps_drive (hE : EngineKeeps I Leads E) (state fuel : Nat) (m : Lua.Machine) :
    Keeps I Leads (drive E state fuel m) :=
  keeps_drive_of (fun w state m hw => ⟨OfObjects.same (by rfl) hw, leads_withMachine w state m⟩) hE state fuel m

/-- Whatever Lua code and callbacks do goes along trails, and keeps what the callbacks keep. -/
theorem preserves_engineOf (hosts : host.Preserves I) (n : Nat) : EngineKeeps I Leads (engineOf host n) := by
  induction n with
  | zero => exact ⟨fun _ _ => keeps_failNesting, fun _ _ => keeps_failNesting⟩
  | succ n ih =>
    refine ⟨fun state p => (keeps_state? state).bind fun s => ?_, fun c args => hosts ih c args⟩
    split
    · exact keeps_drive ih _ _ _
    · exact .diverge

theorem engineOf_steps (hosts : host.Steps) (n : Nat) : EngineKeeps Any Leads (engineOf host n) :=
  preserves_engineOf hosts n

/-- Lua code that runs has gone along a trail from where it began, and has kept what it should. -/
theorem keeps_reaches (hE : EngineKeeps I Leads E) {p q : World × Lua.Machine} (h : Reaches E state p q) (hp : I p.1) :
    I q.1 ∧ (p.1.withMachine state p.2).Leads (q.1.withMachine state q.2) := by
  induction h with
  | refl => exact ⟨hp, [], .nil _⟩
  | tail _ goes ih =>
    obtain ⟨hv, htrail⟩ := ih
    cases goes with
    | @steps w m m' step =>
      have h := leads_withMachine (w.withMachine state m) state m'
      rw [withMachine_withMachine] at h
      exact ⟨hv, htrail.trans h⟩
    | @answered w v m m' q a s step reply found =>
      have h := leads_withMachine (w.withMachine state m) state m'
      rw [withMachine_withMachine] at h
      obtain ⟨hv', hreply⟩ := keeps_reply hE state q (OfObjects.same (by rfl) hv) reply
      exact ⟨hv', htrail.trans ((h.trans hreply).trans (leads_withMachine v state _))⟩

end Engine

/-! ### Scripts go along trails -/

section Scripts

variable {I : World → Prop} [OfObjects I] {E : Engine} {w w' : World} {id : Nat} {status : ReloadStatus}

theorem leads_newScript (language : Nat) (source : Text) : Keeps I Leads (newScript language source) := by
  intro w r w' hw h
  obtain ⟨-, rfl⟩ := Prod.mk.inj (Option.some.inj h)
  exact ⟨OfObjects.same (by rfl) hw, (Step.script _).leads⟩

theorem leads_setSource (id : Nat) (source : Text) : Keeps I Leads (setSource id source) := by
  intro w r w' hw h
  obtain ⟨-, rfl⟩ := Prod.mk.inj (Option.some.inj h)
  exact ⟨OfObjects.same (by rfl) hw, (Step.source id source).leads⟩

/-- A script takes what its source has given, and objects stay as they are. -/
theorem adopt_objects {result : Value} (h : adopt E id result w = some (.ok status, w')) : w'.objects = w.objects := by
  obtain ⟨status', v, hadopt, hadopts⟩ := adopt_adopts E id result w
  obtain ⟨-, rfl⟩ := Prod.mk.inj (Option.some.inj (hadopt.symm.trans h))
  cases hadopts <;> rfl

/-- A reload that completes is noted last on its trail. -/
theorem trail_reload (hE : EngineKeeps Any Leads E) (h : reload E id w = some (.ok status, w')) :
    ∃ es result, w.Trail (es ++ [⟨id, status, result⟩]) w' := by
  obtain ⟨result, v, hrun, hadopt, -⟩ := reload_ok h
  obtain ⟨-, es, htrail⟩ := keeps_runIn hE _ _ trivial hrun
  exact ⟨es, result, htrail.trans (Step.completes hrun hadopt).trail⟩

theorem leads_reload (hE : EngineKeeps I Leads E) (id : Nat) : Keeps I Leads (reload E id) := by
  intro w r w' hw h
  cases r with
  | ok status =>
    obtain ⟨result, v, hrun, hadopt, -⟩ := reload_ok h
    obtain ⟨hv, htrail⟩ := keeps_runIn hE _ _ hw hrun
    exact ⟨OfObjects.same (adopt_objects hadopt) hv, htrail.trans (Step.completes hrun hadopt).leads⟩
  | error f =>
    rw [reload_eq] at h
    rcases bind_some h with ⟨e, he, -⟩ | ⟨result, v, -, hadopt⟩
    · exact keeps_runIn hE _ _ hw he
    · obtain ⟨status, w'', hok, -⟩ := adopt_adopts E id result v
      cases hok.symm.trans hadopt

end Scripts

/-! ### What a host does -/

/-- Something that a host does with languages, states, handles and scripts. -/
inductive Act where
  | lookUp (language : Nat)
  | execute (language : Nat) (source : Value)
  | finish (language : Nat)
  | close (state : Nat)
  | invoke (h : Handle) (args : List Value)
  | resume (id : Nat) (h : Handle) (args : List Value)
  | closeCoroutine (id : Nat)
  | createCoroutine (f : Value)
  | toMapping (h : Handle)
  | getValue (h : Handle) (key default : Value)
  | newScript (language : Nat) (source : Text)
  | setSource (script : Nat) (source : Text)
  | reload (script : Nat)
  | loadSource (script : Nat) (source : Text)
  | globalName (script : Nat)
  | baseType (script : Nat)
  | isTool (script : Nat)
  | instantiate (script : Nat) (target : Value)

/-- Does it, whatever comes of it. -/
def Act.perform (E : Engine) : Act → Bridge Unit
  | .lookUp l => discard (languageState l)
  | .execute l source => discard (runIn E l source)
  | .finish l => Bridge.finish l
  | .close s => closeState s
  | .invoke h args => discard (Bridge.invoke E h args)
  | .resume id h args => discard (Bridge.resume E id h args)
  | .closeCoroutine id => Bridge.closeCoroutine E id
  | .createCoroutine f => discard (Bridge.createCoroutine E f)
  | .toMapping h => discard (Bridge.toMapping E h)
  | .getValue h key default => discard (Bridge.getValue E h key default)
  | .newScript l source => discard (Bridge.newScript l source)
  | .setSource id source => Bridge.setSource id source
  | .reload id => discard (Bridge.reload E id)
  | .loadSource id source => do
    Bridge.setSource id source
    discard (Bridge.reload E id)
  | .globalName id => discard (Bridge.globalName E id)
  | .baseType id => discard (Bridge.baseType E id)
  | .isTool id => discard (Bridge.isTool E id)
  | .instantiate id target => discard (Bridge.instantiate E id target)

/-- What a host does keeps what running Lua code and making, changing and reloading scripts keep. -/
theorem keeps_perform_of {I : World → Prop} {R : World → World → Prop} [Admits I R] {E : Engine}
    (hE : EngineKeeps I R E) (hnew : ∀ l source, Keeps I R (Bridge.newScript l source))
    (hset : ∀ id source, Keeps I R (Bridge.setSource id source)) (hreload : ∀ id, Keeps I R (Bridge.reload E id))
    (a : Act) : Keeps I R (a.perform E) := by
  cases a with
  | lookUp l => exact (keeps_languageState l).map
  | execute l source => exact (keeps_runIn hE l source).map
  | finish l => exact keeps_finish l
  | close s => exact keeps_closeState s
  | invoke h args => exact (keeps_invoke hE h args).map
  | resume id h args => exact (keeps_resume hE id h args).map
  | closeCoroutine id => exact keeps_closeCoroutine hE id
  | createCoroutine f => exact (keeps_createCoroutine hE f).map
  | toMapping h => exact (keeps_toMapping hE h).map
  | getValue h key default => exact (keeps_getValue hE h key default).map
  | newScript l source => exact (hnew l source).map
  | setSource id source => exact hset id source
  | reload id => exact (hreload id).map
  | loadSource id source => exact (hset id source).bind fun _ => (hreload id).map
  | globalName id => exact (keeps_globalName hE id).map
  | baseType id => exact (keeps_baseType hE id).map
  | isTool id => exact (keeps_isTool hE id).map
  | instantiate id target => exact (keeps_instantiate hE id target).map

theorem keeps_perform {I : World → Prop} [OfObjects I] {E : Engine} (hE : EngineKeeps I Leads E) (a : Act) :
    Keeps I Leads (a.perform E) :=
  keeps_perform_of hE leads_newScript leads_setSource (leads_reload hE) a

/-- A moment of a session that started in some world: when the host has done something, when Lua code runs for it,
and when it has done part of something, such as converting the arguments of a call. -/
inductive Moment (host : Handler) (w₀ : World) : World → Prop where
  | start : Moment host w₀ w₀
  | done {n : Nat} {a : Act} {r : Except Fault Unit} {w w' : World} (moment : Moment host w₀ w)
    (run : a.perform (engineOf host n) w = some (r, w')) : Moment host w₀ w'
  | running {n state : Nat} {p : Lua.Prog} {s : LuaState} {w v : World} {m : Lua.Machine} (moment : Moment host w₀ w)
    (found : w.states[state]? = some s) (reaches : Reaches (engineOf host n) state (w, s.machine.enter p) (v, m)) :
    Moment host w₀ (v.withMachine state m)
  | within {α : Type} {x : Bridge α} {r : Except Fault α} {w w' : World} (moment : Moment host w₀ w)
    (steps : Keeps Any Leads x) (run : x w = some (r, w')) : Moment host w₀ w'

variable {host : Handler} {w₀ w w' : World}

/-- Each moment lies on a trail from the start. -/
theorem Moment.leads (hosts : host.Steps) (h : Moment host w₀ w) : w₀.Leads w := by
  induction h with
  | start => exact ⟨[], .nil w₀⟩
  | @done n a _ _ _ _ run ih =>
    obtain ⟨-, h⟩ := keeps_perform (engineOf_steps hosts n) a trivial run
    exact ih.trans h
  | @running n state p s w v m _ found reaches ih =>
    obtain ⟨-, h⟩ := keeps_reaches (engineOf_steps hosts n) reaches trivial
    exact (ih.trans (leads_withMachine w state _)).trans h
  | within _ steps run ih =>
    obtain ⟨-, h⟩ := steps trivial run
    exact ih.trans h

/-- What lasts lasts from moment to moment. -/
theorem Moment.follows (hosts : host.Steps) (h : Moment host w₀ w) : w₀.Follows w := by
  obtain ⟨es, htrail⟩ := h.leads hosts
  exact htrail.follows

/-! ### Keeping an invariant -/

/-- A stretch of a session that keeps an invariant: the host does something, Lua code runs for it for a while, or it
does part of something. -/
inductive Stretch (I : World → Prop) (host : Handler) : World → World → Prop where
  | done {n : Nat} {a : Act} {r : Except Fault Unit} {w w' : World}
    (run : a.perform (engineOf host n) w = some (r, w')) : Stretch I host w w'
  | running {n state : Nat} {p : Lua.Prog} {s : LuaState} {w v : World} {m : Lua.Machine}
    (found : w.states[state]? = some s) (reaches : Reaches (engineOf host n) state (w, s.machine.enter p) (v, m)) :
    Stretch I host w (v.withMachine state m)
  | within {α : Type} {x : Bridge α} {r : Except Fault α} {w w' : World} (keeps : Keeps I Leads x)
    (run : x w = some (r, w')) : Stretch I host w w'

/-- What goes on in a session from some world on, as long as an invariant is kept. -/
abbrev Onward (I : World → Prop) (host : Handler) : World → World → Prop := Relation.ReflTransGen (Stretch I host)

variable {I : World → Prop} [OfObjects I]

theorem Stretch.keeps (hosts : host.Preserves I) (h : Stretch I host w w') (hw : I w) : I w' ∧ w.Leads w' := by
  cases h with
  | @done n a _ _ _ run => exact keeps_perform (preserves_engineOf hosts n) a hw run
  | @running n state p s w v m found reaches =>
    obtain ⟨hv, h⟩ := keeps_reaches (preserves_engineOf hosts n) reaches hw
    exact ⟨OfObjects.same (by rfl) hv, (leads_withMachine w state _).trans h⟩
  | within keeps run => exact keeps hw run

theorem Onward.keeps (hosts : host.Preserves I) (h : Onward I host w w') (hw : I w) : I w' ∧ w.Leads w' := by
  induction h with
  | refl => exact ⟨hw, [], .nil w⟩
  | tail _ stretch ih =>
    obtain ⟨hv, h⟩ := ih
    obtain ⟨hw', h'⟩ := stretch.keeps hosts hv
    exact ⟨hw', h.trans h'⟩

end Bridge

end HostedLua
