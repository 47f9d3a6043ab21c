import HostedLua.Proofs.Container.Frame
import HostedLua.Proofs.Coroutine.Turn
import HostedLua.Proofs.Crossing.Strings
import HostedLua.Proofs.Lua.Brief

/-! How Lua's values arrive on the host. Every value has a host form: scalars are as they were, strings are text or
bytes, tables, functions and threads are behind handles, and a thread that has not run is a coroutine of its own. The
conversion only adds to the world: objects, and threads and functions of the state. -/

namespace HostedLua

open Host

/-- The wrapping function of a state is in its place, as opening the state puts it there. -/
def LuaState.Wraps (s : LuaState) : Prop :=
  ∃ id cells, s.wrapper = .closure id ∧ s.machine.heap.closures[id]? = some ⟨Bridge.wrapping, cells⟩

/-- A state whose machine has gone on without a change to what there was. -/
structure LuaState.Grown (s s' : LuaState) : Prop where
  same : s' = { s with machine := s'.machine }
  machine : s.machine.Grown s'.machine

namespace LuaState

variable {s s' s'' : LuaState}

theorem Grown.refl (s : LuaState) : s.Grown s := ⟨rfl, .refl _⟩

theorem Grown.trans (h : s.Grown s') (h' : s'.Grown s'') : s.Grown s'' := by
  refine ⟨?_, h.machine.trans h'.machine⟩
  rw [h'.same, h.same]

theorem Wraps.grown (h : s.Wraps) (hs : s.Grown s') : s'.Wraps := by
  obtain ⟨id, cells, hwrapper, hid⟩ := h
  exact ⟨id, cells, by rw [hs.same]; exact hwrapper, hs.machine.closures hid⟩

end LuaState

/-- The kind of the handle that a value of Lua's own is put behind. -/
def Lua.Value.handleKind? : Lua.Value → Option HandleKind
  | .table _ => some .table
  | .closure _ | .builtin _ | .wrapped _ => some .function
  | .thread _ => some .coroutine
  | _ => none

namespace World

variable {w w' w'' : World} {state : Nat} {s s' s₀ : LuaState} {encoding : Value}

/-- A world to which a state has added: there are more objects, and the state has gone on. -/
structure Grown (w : World) (state : Nat) (w' : World) : Prop where
  configs : w'.configs = w.configs
  objects : ∀ {id : Nat} {o : Object}, w.objects[id]? = some o → w'.objects[id]? = some o
  state : ∀ {s}, w.states[state]? = some s → ∃ s', w'.states[state]? = some s' ∧ s.Grown s'

theorem Grown.refl (w : World) (state : Nat) : w.Grown state w := ⟨rfl, id, fun {s} h => ⟨s, h, .refl s⟩⟩

theorem Grown.trans (h : w.Grown state w') (h' : w'.Grown state w'') : w.Grown state w'' := by
  refine ⟨h'.configs.trans h.configs, h'.objects ∘ h.objects, fun hs => ?_⟩
  obtain ⟨s', hs', hg⟩ := h.state hs
  obtain ⟨s'', hs'', hg'⟩ := h'.state hs'
  exact ⟨s'', hs'', hg.trans hg'⟩

theorem grown_more (w : World) (state : Nat) (os : Array Object) : w.Grown state (w.more os) :=
  ⟨rfl, object_more, fun {s} h => ⟨s, h, .refl s⟩⟩

theorem Grown.release (h : w.Grown state w') (v : World) : w.Grown state (w'.release v) :=
  ⟨h.configs, h.objects, h.state⟩

theorem Grown.size_le (h : w.Grown state w') : w.objects.size ≤ w'.objects.size := by
  by_contra hlt
  have hw : w'.objects.size < w.objects.size := Nat.lt_of_not_le hlt
  have hnone := h.objects (Array.getElem?_eq_getElem hw)
  rw [Array.getElem?_eq_none (Nat.le_refl _)] at hnone
  contradiction

/-- The state of a world goes on to another machine. -/
theorem grown_withMachine {m : Lua.Machine} (hs : w.states[state]? = some s) (hm : s.machine.Grown m) :
    w.Grown state (w.withMachine state m) := by
  refine ⟨rfl, id, fun hs' => ?_⟩
  obtain rfl := Option.some.inj (hs.symm.trans hs')
  exact ⟨_, withMachine_states hs, rfl, hm⟩

theorem Serves.grown (hs : w.Serves state s encoding) (h : w.Grown state w') :
    ∃ s', w'.Serves state s' encoding ∧ s.Grown s' := by
  obtain ⟨s', hs', hg⟩ := h.state hs.found
  refine ⟨s', ⟨⟨hs', ?_, ?_⟩, ?_, ?_⟩, hg⟩
  · rw [hg.same]
    exact hs.isOpen
  · rw [h.configs, hg.same]
    exact hs.encoding_eq
  · rw [hg.same]
    exact hs.hasIntegers
  · rw [hg.same]
    exact hs.charset

/-- A value stands for a new thread that is to run a function; in place of a library function it runs one of Lua's that
calls it, and then there is no thread at all if calls nest too deep to make that one. -/
inductive Runs (w : World) (state : Nat) (s : LuaState) (f : Lua.Value) : Value → Prop where
  | thread {o t : Nat} {s' : LuaState} {g : Lua.Value} (guest : w.objects[o]? = some (.guest ⟨state, .thread t, false⟩))
    (found : w.states[state]? = some s') (new : s.machine.threads.size ≤ t) (rest : s'.machine.unstarted? t = some g)
    (body : ∀ c, f = .closure c → g = f) : Runs w state s f (.obj o)
  | refused (library : ∀ c, f ≠ .closure c) : Runs w state s f .none

inductive Presents (w : World) (state : Nat) (s : LuaState) (encoding : Value) : Lua.Value → Value → Prop where
  | nil : Presents w state s encoding .nil .none
  | bool (b : Bool) : Presents w state s encoding (.bool b) (.bool b)
  | int (i : Int64) : Presents w state s encoding (.int i) (.int i.toInt)
  | float (x : Float) : Presents w state s encoding (.float x) (.float x)
  | str (b : Bytes) : Presents w state s encoding (.str b) (s.charset.shown encoding b)
  | handle {v : Lua.Value} {kind : HandleKind} {o id : Nat} (kind_eq : v.handleKind? = some kind)
    (started : ∀ t, v = .thread t → s.machine.unstarted? t = none)
    (guest : w.objects[o]? = some (.guest ⟨state, v, false⟩))
    (handle : w.objects[id]? = some (.handle { kind, state, guest := .obj o })) :
    Presents w state s encoding v (.obj id)
  | fresh {t id : Nat} {f : Lua.Value} {thread : Value} (unstarted : s.machine.unstarted? t = some f)
    (runs : w.Runs state s f thread)
    (handle : w.objects[id]? = some (.handle { kind := .coroutine, state, guest := thread, owns := true })) :
    Presents w state s encoding (.thread t) (.obj id)
  | stdout {o : Nat} (guest : w.objects[o]? = some (.guest ⟨state, .stdout, false⟩)) :
    Presents w state s encoding .stdout (.obj o)
  | object (n : Nat) : Presents w state s encoding (.host n) (if n = Value.nothingId then .none else .obj n)

theorem Runs.grown {f : Lua.Value} {thread : Value} (h : w.Runs state s f thread) (hw : w.Grown state w') :
    w'.Runs state s f thread := by
  cases h with
  | thread guest found new rest body =>
    obtain ⟨s'', found', hg⟩ := hw.state found
    exact .thread (hw.objects guest) found' new (hg.machine.unstarted rest) body
  | refused library => exact .refused library

theorem Presents.grown {v : Lua.Value} {x : Value} (h : w.Presents state s encoding v x) (hw : w.Grown state w') :
    w'.Presents state s encoding v x := by
  cases h with
  | nil => exact .nil
  | bool b => exact .bool b
  | int i => exact .int i
  | float x => exact .float x
  | str b => exact .str b
  | handle kind_eq started guest handle => exact .handle kind_eq started (hw.objects guest) (hw.objects handle)
  | fresh unstarted runs handle => exact .fresh unstarted (runs.grown hw) (hw.objects handle)
  | stdout guest => exact .stdout (hw.objects guest)
  | object n => exact .object n

/-- If a value is an object of the host's, the object is there, and stands for no Lua value: those that do reach Lua as
the values that they stand for. -/
def Proper (w : World) (v : Lua.Value) : Prop :=
  ∀ n, v = .host n → ∃ o, w.objects[n]? = some o ∧ ∀ g, o ≠ .guest g

theorem Proper.grown {v : Lua.Value} (h : w.Proper v) (hw : w.Grown state w') : w'.Proper v := fun n hn =>
  let ⟨o, ho, hguest⟩ := h n hn
  ⟨o, hw.objects ho, hguest⟩

/-- A value is what the host got for a Lua value that was fetched from a state. -/
inductive Came (w : World) (state : Nat) (s : LuaState) (v : Lua.Value) : Value → Prop where
  | value {u : Value} (eq : fetched s state v = .inl u) : Came w state s v u
  | guest {o : Nat} {g : Guest} (eq : fetched s state v = .inr g) (found : w.objects[o]? = some (.guest g)) :
    Came w state s v (.obj o)

theorem Came.grown {v : Lua.Value} {u : Value} (h : w.Came state s v u) (hw : w.Grown state w') :
    w'.Came state s v u := by
  cases h with
  | value eq => exact .value eq
  | guest eq found => exact .guest eq (hw.objects found)

/-- Only an object of the host's own is fetched as an object that was there. -/
theorem fetched_ne_obj {v : Lua.Value} (hv : ∀ id, v ≠ .host id) (id : Nat) : fetched s state v ≠ .inl (.obj id) := by
  intro h
  cases v with
  | host n => exact absurd rfl (hv n)
  | thread t =>
    simp only [fetched] at h
    split at h <;> contradiction
  | _ => cases h

/-- What the host got as an object for a value of Lua's own is a guest. -/
theorem Came.guest_of_obj {v : Lua.Value} {id : Nat} (h : w.Came state s v (.obj id)) (hv : ∀ n, v ≠ .host n) :
    ∃ g, w.objects[id]? = some (.guest g) := by
  cases h with
  | value eq => exact absurd eq (fetched_ne_obj hv id)
  | guest eq found => exact ⟨_, found⟩

theorem Came.ne_none {v : Lua.Value} {u : Value} (h : w.Came state s v u) (hnil : v ≠ .nil)
    (hv : ∀ n, v ≠ .host n) : u ≠ .none := by
  rintro rfl
  cases h with
  | value eq =>
    cases v with
    | nil => exact hnil rfl
    | host n => exact hv n rfl
    | thread t =>
      simp only [fetched] at eq
      split at eq <;> contradiction
    | _ => cases eq

end World

namespace Bridge

open World Lua.Machine

variable {n state : Nat} {w w' : World} {s s₀ : LuaState} {encoding : Value}

/-- Every value can be fetched. What comes for a value of Lua's own is new if it is an object. -/
theorem fetch_came (hs : w.states[state]? = some s) (v : Lua.Value) :
    ∃ u os, fetch state v w = some (.ok u, w.more os) ∧ (w.more os).Came state s v u ∧
      ((∀ id, v ≠ .host id) → ∀ id, u = .obj id → w.objects.size ≤ id) := by
  cases hf : fetched s state v with
  | inl u =>
    refine ⟨u, #[], by rw [more_empty]; exact fetch_inl hs hf, .value hf, fun hv id hid => ?_⟩
    exact absurd (hid ▸ hf) (fetched_ne_obj hv id)
  | inr g =>
    refine ⟨.obj w.objects.size, #[.guest g], ?_, .guest hf (by simp [World.more]), fun _ id hid => ?_⟩
    · rw [fetch_inr hs hf, World.more, Array.push_eq_append]
    · exact (Value.obj.inj hid).le

/-- What has come for a value of Lua's own is no group of values. -/
theorem group_came {v : Lua.Value} {u : Value} (h : w.Came state s v u) (hnil : v ≠ .nil)
    (hv : ∀ id, v ≠ .host id) : group [u] w = some (.ok [u], w) := by
  cases u with
  | none => exact absurd rfl (h.ne_none hnil hv)
  | obj id =>
    obtain ⟨g, hg⟩ := h.guest_of_obj hv
    rw [group, bind_ok (object_apply id w), hg]
    rfl
  | _ => rfl

/-! ### Threads of their own -/

/-- A thread is made that is to run a function. -/
theorem threadOf_apply (hs : w.states[state]? = some s) (f : Lua.Value) : threadOf state f w =
    some (.ok (.obj w.objects.size), { w.withMachine state
      { s.machine with threads := s.machine.threads.push { rest := .fresh f } } with
        objects := w.objects.push (.guest ⟨state, .thread s.machine.threads.size, false⟩) }) := by
  have hsame : w.states.modify state (fun s => { s with machine :=
      { s.machine with threads := s.machine.threads.push { rest := .fresh f } } }) =
      (w.withMachine state { s.machine with threads := s.machine.threads.push { rest := .fresh f } }).states := by
    refine Array.ext_getElem? fun i => ?_
    simp only [withMachine, Array.getElem?_modify]
    split_ifs with hi
    · rw [← hi, hs]
      rfl
    · rfl
  rw [threadOf, bind_ok (state?_apply state w), hs]
  dsimp only
  rw [bind_ok (modifyState_apply state _ w), hsame, newObject_apply]
  rfl

theorem threadOf_runs (hs : w.states[state]? = some s) (hs₀ : s₀.Grown s) {f g : Lua.Value}
    (hbody : ∀ c, f = .closure c → g = f) :
    ∃ thread w', threadOf state g w = some (.ok thread, w') ∧ w.Grown state w' ∧ w'.Runs state s₀ f thread := by
  let m : Lua.Machine := { s.machine with threads := s.machine.threads.push { rest := .fresh g } }
  let made : World := w.withMachine state m
  have hmade : w.Grown state made := grown_withMachine hs (.push _ _)
  refine ⟨.obj w.objects.size, made.more #[.guest ⟨state, .thread s.machine.threads.size, false⟩], ?_,
    hmade.trans (grown_more _ _ _), ?_⟩
  · rw [threadOf_apply hs, World.more, Array.push_eq_append]
    rfl
  · refine .thread (t := s.machine.threads.size) (by simp [World.more, made, withMachine])
      (withMachine_states hs) hs₀.machine.size_le (unstarted?_eq_some.mpr ⟨{ rest := .fresh g }, ?_, rfl⟩) hbody
    exact Array.getElem?_push_size

/-- What is thrown as a text is raised as a fault that a protected call takes. -/
theorem raiseThrown_text {α : Type} {e : Lua.Thrown} (he : e.IsText) (w : World) :
    ∃ f, (raiseThrown state e : Bridge α) w = some (.error f, w) ∧ f.isOrdinary = true := by
  have hmemory : (FaultKind.ofString "LuaMemoryError").isA "Exception" = true := by decide +kernel
  have hlua : (FaultKind.ofString "LuaError").isA "Exception" = true := ordinary_kinds "LuaError" (by simp)
  rcases he with rfl | ⟨b, rfl⟩
  · exact ⟨_, rfl, hmemory⟩
  · rw [raiseThrown, bind_ok (state?_apply state w)]
    cases w.states[state]? <;> exact ⟨_, rfl, hlua⟩

/-- A function of Lua's own is made of another value, unless calls nest too deep. -/
theorem callLua_wrapper (hs : w.states[state]? = some s) (hwraps : s.Wraps) {o : Nat} {g : Guest}
    (ho : w.objects[o]? = some (.guest g)) (hg : g.state = state) :
    (∃ f w', callLua (engine (n + 1)) state s.wrapper [.obj o] w = some (.error f, w') ∧ f.isOrdinary = true ∧
      w.Grown state w') ∨
    ∃ p c w', callLua (engine (n + 1)) state s.wrapper [.obj o] w = some (.ok [.obj p], w') ∧ w.Grown state w' ∧
      w'.objects[p]? = some (.guest ⟨state, .closure c, false⟩) := by
  obtain ⟨id, cells, hwrapper, hid⟩ := hwraps
  have hpush : [Value.obj o].mapM (push state) w = some (.ok [g.value], w) := by
    rw [List.mapM_cons, bind_ok (push_guest ho hg)]
    rfl
  obtain ⟨m', r, hrun, halone, hr⟩ := run_wrapping hid g.value 999999999995
  let m : Lua.Machine := m'.leave s.machine.current s.machine.mainStack
  have hw : w.Grown state (w.withMachine state m) := grown_withMachine hs halone.grown
  have hcall : (engine (n + 1)).run state (callProg s.wrapper [g.value]) w = some (.ok r, w.withMachine state m) := by
    rw [hwrapper]
    exact engineRun_over hs hrun
  rw [callLua, bind_ok hpush, runProg, bind_ok hcall]
  rcases hr with ⟨c, rfl⟩ | ⟨e, rfl, he⟩
  · have hs' := withMachine_states (m := m) hs
    refine .inr ⟨w.objects.size, c, (w.withMachine state m).more #[.guest ⟨state, .closure c, false⟩], ?_,
      hw.trans (grown_more _ _ _), by simp [World.more, withMachine]⟩
    have hfetch : fetch state (.closure c) (w.withMachine state m) = _ := fetch_inr hs' rfl
    dsimp only
    rw [fetchAll, List.mapM_cons, bind_ok hfetch, World.more, ← Array.push_eq_append]
    rfl
  · have hraise : ∃ f, (raiseThrown state e : Bridge (List Value)) (w.withMachine state m) =
        some (.error f, w.withMachine state m) ∧ f.isOrdinary = true := raiseThrown_text he _
    obtain ⟨f, hf, hordinary⟩ := hraise
    exact .inl ⟨f, _, hf, hordinary, hw⟩

section Library

variable {o : Nat} {f : Lua.Value} (hs : w.states[state]? = some s)
  (ho : w.objects[o]? = some (.guest ⟨state, f, true⟩)) (hf : ∀ c, f ≠ .closure c)

include hs ho hf

theorem newThread_refused {e : Fault}
    (hcall : callLua (engine (n + 1)) state s.wrapper [.obj o] w = some (.error e, w')) :
    newThread (engine (n + 1)) state (.obj o) w = some (.error e, w') := by
  rw [newThread, bind_ok (object_apply o w), ho]
  cases f with
  | closure c => exact absurd rfl (hf c)
  | _ =>
    refine (bind_ok (state?_apply state w)).trans ?_
    rw [hs]
    exact bind_error hcall

theorem newThread_around {p c : Nat}
    (hcall : callLua (engine (n + 1)) state s.wrapper [.obj o] w = some (.ok [.obj p], w'))
    (hp : w'.objects[p]? = some (.guest ⟨state, .closure c, false⟩)) :
    newThread (engine (n + 1)) state (.obj o) w = threadOf state (.closure c) w' := by
  rw [newThread, bind_ok (object_apply o w), ho]
  cases f with
  | closure c => exact absurd rfl (hf c)
  | _ =>
    refine (bind_ok (state?_apply state w)).trans ?_
    rw [hs]
    refine (bind_ok hcall).trans ?_
    dsimp only
    rw [bind_ok (object_apply p w'), hp]
    rfl

end Library

/-- A thread of its own is made for a function, or no function of Lua's own can be made that calls it. -/
theorem newThread_runs (hs : w.states[state]? = some s) (hs₀ : s₀.Grown s) (hwraps : s.Wraps) {o : Nat} {f : Lua.Value}
    (ho : w.objects[o]? = some (.guest ⟨state, f, true⟩)) :
    (∃ thread w', newThread (engine (n + 1)) state (.obj o) w = some (.ok thread, w') ∧ w.Grown state w' ∧
      w'.Runs state s₀ f thread) ∨
    ∃ e w', newThread (engine (n + 1)) state (.obj o) w = some (.error e, w') ∧ e.isOrdinary = true ∧
      w.Grown state w' ∧ ∀ c, f ≠ .closure c := by
  by_cases hf : ∃ c, f = .closure c
  · obtain ⟨c, rfl⟩ := hf
    obtain ⟨thread, w', hthread, hw, hruns⟩ := threadOf_runs hs hs₀ (f := .closure c) fun _ _ => rfl
    refine .inl ⟨thread, w', ?_, hw, hruns⟩
    rw [newThread, bind_ok (object_apply o w), ho]
    exact hthread
  · have hf : ∀ c, f ≠ .closure c := fun c hc => hf ⟨c, hc⟩
    rcases callLua_wrapper hs hwraps ho rfl with ⟨e, w', hcall, he, hw⟩ | ⟨p, c, w', hcall, hw, hp⟩
    · exact .inr ⟨e, w', newThread_refused hs ho hf hcall, he, hw, hf⟩
    · obtain ⟨s', hs', hg⟩ := hw.state hs
      obtain ⟨thread, w'', hthread, hw', hruns⟩ :=
        threadOf_runs hs' (hs₀.trans hg) (f := f) (g := .closure c) fun c hc => absurd hc (hf c)
      exact .inl ⟨thread, w'', (newThread_around hs ho hf hcall hp).trans hthread, hw.trans hw', hruns⟩

theorem createThread_runs (hs : w.Serves state s encoding) (hs₀ : s₀.Grown s) (hwraps : s.Wraps) {o : Nat}
    {f : Lua.Value} (ho : w.objects[o]? = some (.guest ⟨state, f, true⟩)) :
    ∃ thread w', createThread (engine (n + 1)) state (.obj o) w = some (.ok thread, w') ∧ w.Grown state w' ∧
      w'.Runs state s₀ f thread := by
  have hopen := isOpen_apply hs.found
  rw [hs.isOpen] at hopen
  rw [createThread, bind_ok hopen, if_neg (by decide)]
  rcases newThread_runs (n := n) hs.found hs₀ hwraps ho with ⟨thread, w', hnew, hw, hruns⟩ | ⟨e, w', hnew, he, hw, hf⟩
  · exact ⟨thread, w', bind_ok (protectedCall_ok hnew), hw, hruns⟩
  · obtain ⟨s', hs', hg⟩ := hw.state hs.found
    let message : Text := e.status.name ++ ": " ++ e.message
    let reported : World := { w' with diagnostics := w'.diagnostics.modify s'.diagnostics (· ++ [.report message]) }
    have hreport : reportTo state message w' = some (.ok ⟨⟩, reported) := reportTo_apply hs'
    refine ⟨.none, reported, ?_, hw.trans ⟨rfl, id, fun {s} h => ⟨s, h, .refl s⟩⟩, .refused hf⟩
    refine (bind_ok (protectedCall_error he hnew)).trans ?_
    exact bind_ok hreport

/-! ### Host forms -/

theorem fetched_guest {v : Lua.Value} {g : Guest} (h : fetched s state v = .inr g) :
    (g = ⟨state, v, false⟩ ∧ ∀ t, v = .thread t → s.machine.unstarted? t = none) ∨
      ∃ t f, v = .thread t ∧ s.machine.unstarted? t = some f ∧ g = ⟨state, f, true⟩ := by
  cases v with
  | thread t =>
    simp only [fetched] at h
    split at h
    · next f hf => exact .inr ⟨t, f, rfl, hf, (Sum.inr.inj h).symm⟩
    · next hf =>
      refine .inl ⟨(Sum.inr.inj h).symm, ?_⟩
      rintro _ ⟨⟩
      exact hf
  | nil | bool | int | float | str | host => contradiction
  | _ => exact .inl ⟨(Sum.inr.inj h).symm, fun _ => Lua.Value.noConfusion⟩

/-- A guest that stands for a value of Lua's own that has a kind of handle gets such a handle. -/
theorem toHost_handle {v : Lua.Value} {kind : HandleKind} {o : Nat} (hkind : v.handleKind? = some kind)
    (ho : w.objects[o]? = some (.guest ⟨state, v, false⟩)) : toHost (engine n) state (.obj o) w =
      some (.ok (.obj w.objects.size), w.more #[.handle { kind, state, guest := .obj o }]) := by
  rw [toHost, bind_ok (object_apply o w), ho, World.more, ← Array.push_eq_append]
  cases v <;> first | cases hkind; rfl | contradiction

/-- Every value that has been fetched has a host form, which is new if it is a handle. -/
theorem toHost_presents (hs : w.Serves state s encoding) (hs₀ : s₀.Grown s) (hwraps : s.Wraps) {v : Lua.Value}
    {u : Value} (hv : w.Proper v) (hu : w.Came state s₀ v u) :
    ∃ x w', toHost (engine (n + 1)) state u w = some (.ok x, w') ∧ w.Grown state w' ∧
      w'.Presents state s₀ encoding v x ∧ ∀ id, x = .obj id → w.objects.size ≤ id ∨ x = u := by
  cases hu with
  | value eq =>
    cases v with
    | nil =>
      obtain rfl := Sum.inl.inj eq
      exact ⟨.none, w, rfl, .refl _ _, .nil, fun _ h => .inr rfl⟩
    | bool b =>
      obtain rfl := Sum.inl.inj eq
      exact ⟨.bool b, w, rfl, .refl _ _, .bool b, fun _ h => .inr rfl⟩
    | int i =>
      obtain rfl := Sum.inl.inj eq
      exact ⟨.int i.toInt, w, rfl, .refl _ _, .int i, fun _ h => .inr rfl⟩
    | float x =>
      obtain rfl := Sum.inl.inj eq
      refine ⟨.float x, w, ?_, .refl _ _, .float x, fun _ h => .inr rfl⟩
      rw [toHost, bind_ok (state?_apply state w), hs.found]
      simp [hs.hasIntegers]
    | str b =>
      obtain rfl := Sum.inl.inj eq
      have hcs : s₀.charset = s.charset := by rw [hs₀.same]
      refine ⟨_, w, ?_, .refl _ _, .str b, fun id h => absurd h (Charset.shown_ne_obj _ _ _ id)⟩
      rw [toHost, bind_ok (configOf_apply hs.found), hs.encoding_eq, hcs, hostText_shown hs]
    | host m =>
      obtain ⟨ob, hob, hguest⟩ := hv m rfl
      obtain rfl := Sum.inl.inj eq
      refine ⟨_, w, ?_, .refl _ _, .object m, fun _ _ => .inr rfl⟩
      split_ifs
      · rfl
      · rw [toHost, bind_ok (object_apply m w), hob]
        cases ob with
        | guest g => exact absurd rfl (hguest g)
        | _ => rfl
    | thread t =>
      simp only [fetched] at eq
      split at eq <;> contradiction
    | _ => contradiction
  | @guest o g eq found =>
    rcases fetched_guest eq with ⟨rfl, hstarted⟩ | ⟨t, f, rfl, ht, rfl⟩
    · cases hkind : v.handleKind? with
      | some kind =>
        have hw : w.Grown state (w.more #[.handle { kind, state, guest := .obj o }]) := grown_more _ _ _
        refine ⟨_, _, toHost_handle hkind found, hw, .handle hkind hstarted (hw.objects found) ?_, ?_⟩
        · simp [World.more]
        · exact fun id hid => .inl (Value.obj.inj hid).le
      | none =>
        refine ⟨.obj o, w, ?_, .refl _ _, ?_, fun _ _ => .inr rfl⟩
        · rw [toHost, bind_ok (object_apply o w), found]
          cases v <;> first | rfl | contradiction
        · cases v <;> first | exact .stdout found | contradiction
    · obtain ⟨thread, w', hcreate, hw, hruns⟩ := createThread_runs (n := n) hs hs₀ hwraps found
      let h : Handle := { kind := .coroutine, state, guest := thread, owns := true }
      have hw' : w'.Grown state (w'.more #[.handle h]) := grown_more _ _ _
      refine ⟨.obj w'.objects.size, w'.more #[.handle h], ?_, hw.trans hw', .fresh ht (hruns.grown hw') ?_, ?_⟩
      · rw [toHost, bind_ok (object_apply o w), found]
        refine (bind_ok hcreate).trans ?_
        rw [newHandle, newObject_apply, World.more, ← Array.push_eq_append]
      · simp [World.more, h]
      · exact fun id hid => .inl (Value.obj.inj hid ▸ hw.size_le)

end Bridge

end HostedLua
