import HostedLua.Runner
import HostedLua.Proofs.Lua.Table
import HostedLua.Proofs.History.Moment
import HostedLua.Proofs.Runner.Telling

/-! Where `print` leads. A runner takes over the global `print` of the state that its language has, once for each state:
it remembers the last one. As long as nobody else assigns to `print`, every chunk that it runs starts in a state whose
`print` puts what it is called with on the record of the language. -/

namespace HostedLua

open Host

/-! ### The global `print` of a state -/

def printKey : Lua.Key := .str (.ofString "print")

namespace LuaState

variable {s : LuaState} {v : Lua.Value}

def print (s : LuaState) : Lua.Value := s.machine.heap.get s.machine.heap.globals printKey

def withPrint (s : LuaState) (v : Lua.Value) : LuaState :=
  { s with machine := { s.machine with heap := s.machine.heap.set s.machine.heap.globals printKey v } }

theorem print_withPrint (h : s.machine.heap.globals < s.machine.heap.tables.size) : (s.withPrint v).print = v := by
  have hset : (s.machine.heap.tables.modify s.machine.heap.globals (·.set printKey v))[s.machine.heap.globals]? =
      some ((s.machine.heap.tables[s.machine.heap.globals]).set printKey v) := by
    rw [Array.getElem?_modify, if_pos rfl, Array.getElem?_eq_getElem h]
    rfl
  show (Lua.Table.get ((s.machine.heap.tables.modify s.machine.heap.globals
    (·.set printKey v))[s.machine.heap.globals]?.getD {}) printKey) = v
  rw [hset, Option.getD_some, Lua.Table.get_set_self]

/-- What has a `print` has a table of globals. -/
theorem globals_of_print (h : s.print ≠ .nil) : s.machine.heap.globals < s.machine.heap.tables.size := by
  by_contra hlt
  have hnone : s.machine.heap.tables[s.machine.heap.globals]? = none := Array.getElem?_eq_none (Nat.le_of_not_lt hlt)
  refine h ?_
  rw [print, Lua.Heap.get, Lua.Heap.table, hnone]
  rfl

end LuaState

namespace World

variable {w w' : World} {id l d state p : Nat}

/-- The global `print` of a state puts what it is called with on a record. -/
def Captures (w : World) (d state : Nat) : Prop := ∃ s p, w.states[state]? = some s ∧ s.print = .host p ∧
  w.objects[p]? = some (.callback (.capture d))

/-- No `print` is missing. -/
def Prints (w : World) : Prop := ∀ ⦃i : Nat⦄ ⦃s : LuaState⦄, w.states[i]? = some s → s.print ≠ .nil

/-- Nobody has assigned to `print`: states that were there have the one they had, and new ones the one of the
library. -/
structure Spares (w w' : World) : Prop where
  kept : ∀ ⦃i : Nat⦄ ⦃s s' : LuaState⦄, w.states[i]? = some s → w'.states[i]? = some s' → s'.print = s.print
  new : ∀ ⦃i : Nat⦄ ⦃s' : LuaState⦄, w.states[i]? = none → w'.states[i]? = some s' → s'.print = .builtin .print

theorem Spares.prints (h : w.Spares w') (hw : w.Prints) : w'.Prints := by
  intro i s' hs'
  cases hs : w.states[i]? with
  | none =>
    rw [h.new hs hs']
    exact Lua.Value.noConfusion
  | some s =>
    rw [h.kept hs hs']
    exact hw hs

theorem Spares.of_states {v : World} (h : w.Spares w') (hv : w'.states = v.states) : w.Spares v :=
  ⟨fun _ _ _ hs hs' => h.kept hs (hv ▸ hs'), fun _ _ hs hs' => h.new hs (hv ▸ hs')⟩

/-- Any two worlds. -/
def Anyhow (_ _ : World) : Prop := True

/-- A runner of a language that captures what Lua prints, and the record of the language. -/
structure RunnerOf (id l d : Nat) (w : World) : Prop where
  runner : ∃ bound, w.runners[id]? = some { language := l, capture := true, bound }
  language : ∃ k, w.languages[l]? = some k ∧ k.diagnostics = d
  record : w.HasRecord d

/-- Where a runner has taken over `print`, that puts what it is called with on the record of the language; and no state
lacks a `print`. -/
structure HasRunner (w : World) (id l d : Nat) : Prop extends RunnerOf id l d w where
  captures : ∀ ⦃r : Runner⦄ ⦃state : Nat⦄, w.runners[id]? = some r → r.bound = some state → w.Captures d state
  prints : w.Prints

theorem RunnerOf.diagnostics (h : w.RunnerOf id l d) : (w.languageOf l).diagnostics = d := by
  obtain ⟨k, hk, hd⟩ := h.language
  rw [languageOf_eq hk, hd]

theorem RunnerOf.of_eq (hw : w.RunnerOf id l d) (hrunners : w'.runners = w.runners) (hlanguages : w'.languages = w.languages)
    (hsize : w'.diagnostics.size = w.diagnostics.size) : w'.RunnerOf id l d :=
  ⟨hrunners ▸ hw.runner, hlanguages ▸ hw.language, Nat.lt_of_lt_of_eq hw.record hsize.symm⟩

theorem RunnerOf.enter (hw : w.RunnerOf id l d) (k : Nat) (i : Option Nat) : (w.enter k i).RunnerOf id l d := by
  obtain ⟨hrunner, ⟨j, hj, hd⟩, hrecord⟩ := hw
  refine ⟨hrunner, ⟨_, getElem?_modify_some hj k _, ?_⟩, hrecord⟩
  split_ifs <;> exact hd

/-- Whatever Lua code does, a runner stays a runner of its language. -/
instance : AdmitsPrint (RunnerOf id l d) Anyhow where
  refl _ := trivial
  trans _ _ := trivial
  beside hw h := ⟨hw.of_eq h.runners h.languages (congrArg Array.size h.diagnostics), trivial⟩
  report _ _ hw := ⟨hw.of_eq rfl rfl Array.size_modify, trivial⟩
  object _ hw := ⟨hw.of_eq rfl rfl rfl, trivial⟩
  handle hw _ _ _ := ⟨hw.of_eq rfl rfl rfl, trivial⟩
  state hw _ _ := ⟨hw.of_eq rfl rfl rfl, trivial⟩
  opens hw _ := ⟨hw.of_eq rfl rfl rfl, trivial⟩
  enter hw _ := ⟨hw.enter _ _, trivial⟩
  print _ _ hv _ _ := ⟨hv.of_eq rfl rfl Array.size_modify, trivial⟩

/-- The runners are certain ones. -/
def HasRunners (rs : Array Runner) (w : World) : Prop := w.runners = rs

/-- Nothing but a runner changes runners. -/
instance {rs : Array Runner} : AdmitsPrint (HasRunners rs) Anyhow where
  refl _ := trivial
  trans _ _ := trivial
  beside hw h := ⟨h.runners.trans hw, trivial⟩
  report _ _ hw := ⟨hw, trivial⟩
  object _ hw := ⟨hw, trivial⟩
  handle hw _ _ _ := ⟨hw, trivial⟩
  state hw _ _ := ⟨hw, trivial⟩
  opens hw _ := ⟨hw, trivial⟩
  enter hw _ := ⟨hw, trivial⟩
  print _ _ hv _ _ := ⟨hv, trivial⟩

theorem HasRunner.of_diagnostics {ds : Array (List Effect)} (hw : w.HasRunner id l d)
    (hsize : ds.size = w.diagnostics.size) : HasRunner { w with diagnostics := ds } id l d :=
  ⟨hw.toRunnerOf.of_eq rfl rfl hsize, hw.captures, hw.prints⟩

theorem HasRunner.closed (hw : w.HasRunner id l d) (i : Nat) : (w.closed i).HasRunner id l d := by
  have hprint {j : Nat} {s' : LuaState} (hs' : (w.closed i).states[j]? = some s') :
      ∃ s, w.states[j]? = some s ∧ s'.print = s.print := by
    rw [World.closed, Array.getElem?_modify] at hs'
    split_ifs at hs'
    · obtain ⟨s, hs, rfl⟩ := Option.map_eq_some_iff.mp hs'
      exact ⟨s, hs, rfl⟩
    · exact ⟨s', hs', rfl⟩
  refine ⟨hw.toRunnerOf.of_eq rfl rfl rfl, fun r state hr hb => ?_, fun j s' hs' => ?_⟩
  · obtain ⟨s, p, hs, hsp, hp⟩ := hw.captures hr hb
    refine ⟨_, p, getElem?_modify_some hs i _, ?_, hp⟩
    split_ifs <;> exact hsp
  · obtain ⟨s, hs, hsame⟩ := hprint hs'
    rw [hsame]
    exact hw.prints hs

theorem HasRunner.enter (hw : w.HasRunner id l d) (k : Nat) (i : Option Nat) : (w.enter k i).HasRunner id l d :=
  ⟨hw.toRunnerOf.enter k i, hw.captures, hw.prints⟩

def HasCallback (p : Nat) (c : Callback) (w : World) : Prop := w.objects[p]? = some (.callback c)

/-- A callback stays what it is. -/
instance {c : Callback} : OfObjects (HasCallback p c) where
  same h hw := by rwa [HasCallback, h]
  object o hw := getElem?_push_some hw o
  handle {w id g g'} hw hid _ _ := by
    have hne : id ≠ p := by
      rintro rfl
      cases hid.symm.trans hw
    rw [HasCallback, Array.set!_eq_setIfInBounds, Array.getElem?_setIfInBounds_ne hne]
    exact hw

end World

namespace Bridge

open World

variable {w w' : World} {d l id state p : Nat} {s : LuaState}

/-! ### Assigning to `print` -/

theorem encode_print (charset : Charset) : charset.encodeEscaped "print" = .ok (.ofString "print") := by
  cases charset <;> rfl

/-- The global `print` of an open state becomes a callback. -/
theorem setGlobal_print {c : Callback} (hs : w.states[state]? = some s) (ho : s.isOpen = true)
    (hp : w.objects[p]? = some (.callback c)) : setGlobal state "print" (.obj p) w =
      some (.ok ⟨⟩, { w with states := w.states.modify state (·.withPrint (.host p)) }) := by
  have hguest : toGuest state (.obj p) w = some (.ok (.obj p), w) := by
    refine toGuest_ok (σ := []) ?_
    rw [toGuestAt, seen_bind_ok (lift_ok (object_apply p w)), hp]
    rfl
  have hkey : push state (.text "print") w = some (.ok (.str (.ofString "print")), w) := by
    rw [push, bind_ok (state?_apply state w), hs]
    dsimp only
    rw [encode_print]
    rfl
  have hvalue : push state (.obj p) w = some (.ok (.host p), w) := by
    rw [push, bind_ok (object_apply p w), hp]
    rfl
  rw [setGlobal, bind_ok (state?_apply state w), hs]
  dsimp only
  rw [if_pos ho, bind_ok hguest, bind_ok hkey, bind_ok hvalue]
  rfl

/-- A runner of a language has taken over the `print` of the state that the language has. -/
structure Bound (id l state : Nat) (w : World) : Prop where
  runner : w.runners[id]? = some { language := l, capture := true, bound := some state }
  entered : (w.languageOf l).state = some state
  opened : w.opened state = true

/-- The state that a runner is to take over: an open one that its language has. -/
structure Awaits (id l d state : Nat) (s : LuaState) (w : World) : Prop extends RunnerOf id l d w where
  entered : (w.languageOf l).state = some state
  found : w.states[state]? = some s
  isOpen : s.isOpen = true

/-- Only one state may lack a `print`, and that one has a table of globals. -/
structure PrintsBut (w : World) (state : Nat) (s : LuaState) : Prop where
  globals : s.machine.heap.globals < s.machine.heap.tables.size
  others : ∀ ⦃i : Nat⦄ ⦃s : LuaState⦄, i ≠ state → w.states[i]? = some s → s.print ≠ .nil

/-- A world in which a runner has taken over the `print` of a state. -/
def takenOver (w : World) (id d state : Nat) : World :=
  { w with
    objects := w.objects.push (.callback (.capture d))
    states := w.states.modify state (·.withPrint (.host w.objects.size))
    runners := w.runners.modify id ({ · with bound := some state }) }

theorem Awaits.bound (h : Awaits id l d state s w) : Bound id l state (takenOver w id d state) := by
  obtain ⟨bound, hr⟩ := h.runner
  refine ⟨?_, h.entered, ?_⟩
  · rw [takenOver, getElem?_modify_some hr, if_pos rfl]
  · rw [World.opened, takenOver, getElem?_modify_some h.found, if_pos rfl]
    exact h.isOpen

theorem Awaits.runnerOf (h : Awaits id l d state s w) : (takenOver w id d state).RunnerOf id l d :=
  ⟨⟨some state, h.bound.runner⟩, h.language, h.record⟩

theorem Awaits.captures (h : Awaits id l d state s w) (hbut : PrintsBut w state s) :
    (takenOver w id d state).Captures d state := by
  refine ⟨s.withPrint (.host w.objects.size), w.objects.size, ?_, LuaState.print_withPrint hbut.globals, ?_⟩
  · rw [takenOver, getElem?_modify_some h.found, if_pos rfl]
  · exact Array.getElem?_push_size

theorem Awaits.hasRunner (h : Awaits id l d state s w) (hbut : PrintsBut w state s) :
    (takenOver w id d state).HasRunner id l d := by
  obtain ⟨bound, hr⟩ := h.runner
  refine ⟨h.runnerOf, fun r i hr' hi => ?_, fun i s' hs' => ?_⟩
  · rw [takenOver, getElem?_modify_some hr, if_pos rfl] at hr'
    obtain rfl := Option.some.inj hr'
    exact Option.some.inj hi ▸ h.captures hbut
  · by_cases hi : i = state
    · obtain ⟨s'', p, hs'', hprint, -⟩ := h.captures hbut
      obtain rfl := Option.some.inj (hs''.symm.trans (hi ▸ hs'))
      rw [hprint]
      exact Lua.Value.noConfusion
    · rw [takenOver, Array.getElem?_modify, if_neg (Ne.symm hi)] at hs'
      exact hbut.others hi hs'

/-- A state that is there is taken over. -/
theorem Awaits.bind (h : Awaits id l d state s w) : (do
    let print ← newObject (.callback (.capture d))
    setGlobal state "print" print
    modify fun w => { w with runners := w.runners.modify id ({ · with bound := some state }) } : Bridge Unit) w =
      some (.ok ⟨⟩, takenOver w id d state) := by
  let v : World := { w with objects := w.objects.push (.callback (.capture d)) }
  have hset := setGlobal_print (w := v) h.found h.isOpen Array.getElem?_push_size
  rw [bind_ok (newObject_apply _ w), bind_ok hset]
  rfl

/-- What asking a language of a runner for its state comes to. -/
theorem languageState_awaits (hw : w.RunnerOf id l d) (h : languageState l w = some (.ok state, w')) :
    (∃ s, Awaits id l d state s w' ∧ (w.Prints → PrintsBut w' state s)) ∧ w'.diagnostics = w.diagnostics ∧
      (w' = w ∨ w.states[state]? = none) := by
  obtain ⟨hhosts, -⟩ := keeps_languageState l hw h
  rcases vacant_or l w with hv | ⟨i, hi, ho⟩
  · by_cases hu : w.Usable (w.languageOf l).config
    · obtain ⟨objects, s, hopen, hs, -, -, hglobals⟩ := openState_ok hu (w.languageOf l).diagnostics
      rw [languageState_vacant hv, bind_ok hopen, bind_ok (enter_apply l _ _)] at h
      obtain ⟨rfl, rfl⟩ := ok_inj h
      obtain ⟨k, hk, -⟩ := hw.language
      have hlanguage := getElem?_modify_some hk l ({ · with state := some w.states.size })
      rw [if_pos rfl] at hlanguage
      refine ⟨⟨s, ⟨hhosts, by rw [languageOf_eq hlanguage], Array.getElem?_push_size, hs⟩, fun hprints => ?_⟩, rfl,
        .inr (Array.getElem?_eq_none (Nat.le_refl _))⟩
      refine ⟨hglobals, fun i s' hi hs' => ?_⟩
      have hs' : (w.states.push s)[i]? = some s' := hs'
      rw [Array.getElem?_push, if_neg hi] at hs'
      exact hprints hs'
    · obtain ⟨f, objects, hopen⟩ := openState_error hu (w.languageOf l).diagnostics
      rw [languageState_vacant hv, bind_error hopen] at h
      cases h
  · rw [languageState_opened hi ho] at h
    obtain ⟨rfl, rfl⟩ := ok_inj h
    rw [World.opened] at ho
    obtain ⟨s, hs, hopen⟩ := (Option.any_eq_true _ _).mp ho
    exact ⟨⟨s, ⟨hhosts, hi, hs, hopen⟩, fun hprints =>
      ⟨LuaState.globals_of_print (hprints hs), fun i s' _ hs' => hprints hs'⟩⟩, rfl, .inl rfl⟩

/-- A language that has no open state and cannot open one changes nothing that its runners depend on. -/
theorem hasRunner_languageState {f : Fault} (hw : w.HasRunner id l d) (h : languageState l w = some (.error f, w')) :
    w'.HasRunner id l d := by
  have hcallback {p : Nat} (hp : w.objects[p]? = some (.callback (.capture d))) :
      w'.objects[p]? = some (.callback (.capture d)) :=
    (keeps_languageState l (I := HasCallback p (.capture d)) hp h).1
  rcases vacant_or l w with hv | ⟨i, hi, ho⟩
  · by_cases hu : w.Usable (w.languageOf l).config
    · obtain ⟨objects, s, hopen, -⟩ := openState_ok hu (w.languageOf l).diagnostics
      rw [languageState_vacant hv, bind_ok hopen, bind_ok (enter_apply l _ _)] at h
      cases h
    · obtain ⟨f, objects, hopen⟩ := openState_error hu (w.languageOf l).diagnostics
      rw [languageState_vacant hv, bind_error hopen] at h
      obtain ⟨-, rfl⟩ := Prod.mk.inj (Option.some.inj h)
      refine ⟨hw.toRunnerOf.of_eq rfl rfl rfl, fun r state hr hb => ?_, hw.prints⟩
      obtain ⟨s, p, hs, hprint, hp⟩ := hw.captures hr hb
      exact ⟨s, p, hs, hprint, hcallback hp⟩
  · rw [languageState_opened hi ho] at h
    cases h

theorem runner_apply {r : Runner} (hr : w.runners[id]? = some r) : runner id w = some (.ok r, w) := by
  show (some (.ok ((w.runners[id]?).getD _), w) : Option (Except Fault Runner × World)) = _
  rw [hr]
  rfl

/-- A runner that takes over the `print` of its language's state leaves that state with a `print` that leads to the record
of the language, if nobody has assigned to `print` before. -/
theorem bindPrint_ok (hw : w.RunnerOf id l d) (h : bindPrint id w = some (.ok ⟨⟩, w')) : ∃ state, Bound id l state w' ∧
    w'.RunnerOf id l d ∧ w'.diagnostics = w.diagnostics ∧
      (w.HasRunner id l d → w'.HasRunner id l d ∧ w'.Captures d state) := by
  obtain ⟨bound, hr⟩ := hw.runner
  rw [bindPrint, bind_ok (runner_apply hr), bind_ok (language_apply l w)] at h
  obtain ⟨state, v, hstate, hrest⟩ := bind_some_ok h
  obtain ⟨⟨s, hawaits, hbut⟩, hdiagnostics, hsame⟩ := languageState_awaits hw hstate
  rw [hw.diagnostics] at hrest
  refine ⟨state, ?_⟩
  by_cases hb : bound = some state
  · rw [if_pos (by simp [hb])] at hrest
    obtain ⟨-, rfl⟩ := ok_inj hrest
    obtain ⟨hrunners, -⟩ := keeps_languageState l (I := HasRunners w.runners) rfl hstate
    have hrunners : v.runners = w.runners := hrunners
    have hv : Bound id l state v :=
      ⟨by rw [hrunners, hr, hb], hawaits.entered, by rw [World.opened_eq hawaits.found, hawaits.isOpen]⟩
    refine ⟨hv, hawaits.toRunnerOf, hdiagnostics, fun hw => ?_⟩
    -- the state is the one that was taken over, so that it was there before
    have hcaptures := hw.captures hr hb
    obtain rfl | hnone := hsame
    · exact ⟨hw, hcaptures⟩
    · obtain ⟨s', -, hs', -⟩ := hcaptures
      rw [hnone] at hs'
      cases hs'
  · rw [if_neg (by simp [hb]), hawaits.bind] at hrest
    obtain ⟨-, rfl⟩ := ok_inj hrest
    refine ⟨hawaits.bound, hawaits.runnerOf, hdiagnostics, fun hw => ?_⟩
    exact ⟨hawaits.hasRunner (hbut hw.prints), hawaits.captures (hbut hw.prints)⟩

/-- A runner that has taken over the state of its language leaves it at that. -/
theorem bindPrint_bound (h : Bound id l state w) : bindPrint id w = some (.ok ⟨⟩, w) := by
  rw [bindPrint, bind_ok (runner_apply h.runner), bind_ok (language_apply l w),
    bind_ok (languageState_opened h.entered h.opened), if_pos (by simp)]
  rfl

/-- A runner that cannot take over anything can go on later. -/
theorem bindPrint_error {f : Fault} (hw : w.RunnerOf id l d) (h : bindPrint id w = some (.error f, w')) :
    w'.RunnerOf id l d ∧ (w.HasRunner id l d → w'.HasRunner id l d) := by
  obtain ⟨bound, hr⟩ := hw.runner
  rw [bindPrint, bind_ok (runner_apply hr), bind_ok (language_apply l w), hw.diagnostics] at h
  rcases bind_some h with ⟨f, hf, -⟩ | ⟨state, v, hstate, hrest⟩
  · exact ⟨(keeps_languageState l hw hf).1, fun hw => hasRunner_languageState hw hf⟩
  · obtain ⟨⟨s, hawaits, -⟩, -, -⟩ := languageState_awaits hw hstate
    split_ifs at hrest
    · cases hrest
    · rw [hawaits.bind] at hrest
      cases hrest

end Bridge

end HostedLua
