import HostedLua.Proofs.Coroutine.Closing
import HostedLua.Proofs.Lua.Chain

/-! How a session goes on from any moment on, also from one at which Lua code waits for an answer of the host: things
are done to their end, Lua code begins to run for the host, and code that has got its answer runs on. Whatever happens,
threads that are dead stay so, and what handles stand for and that they have been closed is not forgotten. -/

namespace HostedLua

open Host

namespace World

open Lua.Machine

variable {w w' : World} {state t : Nat} {s : LuaState} {rest : Lua.Rest}

/-- The threads of a state that are under way are in order. -/
structure Orderly (w : World) (state : Nat) : Prop where
  sound : w.Sound
  linked : ∃ s, w.states[state]? = some s ∧ s.machine.Linked

theorem rests_iff (hs : w.states[state]? = some s) : w.Rests state t rest ↔ HasRest s.machine.threads t rest := by
  constructor
  · rintro ⟨s', th, hs', hth, hrest⟩
    obtain rfl := Option.some.inj (hs.symm.trans hs')
    exact ⟨th, hth, hrest⟩
  · rintro ⟨th, hth, hrest⟩
    exact ⟨s, th, hs, hth, hrest⟩

theorem Rests.unique {rest' : Lua.Rest} (h : w.Rests state t rest) (h' : w.Rests state t rest') : rest = rest' := by
  obtain ⟨s, th, hs, hth, hrest⟩ := h
  exact HasRest.unique ⟨th, hth, hrest⟩ ((rests_iff hs).mp h')

theorem Orderly.kept (h : w.Orderly state) (hw' : w'.Sound) (hk : w.Kept w') : w'.Orderly state := by
  obtain ⟨s, hs, hlinked⟩ := h.linked
  obtain ⟨s', hs', hks⟩ := hk.states hs
  exact ⟨hw', s', hs', hlinked.kept hks.machine⟩

end World

namespace Bridge

open World Lua.Machine

variable {n state : Nat} {u v w : World} {s : LuaState} {b m₀ m m' : Lua.Machine}

/-- A stretch of a session, from one moment to another. -/
inductive Lapse : World → World → Prop where
  /-- Something is done to its end. -/
  | done {u v : World} (sound : v.Sound) (kept : u.Kept v) (shut : ∀ id, u.Shut id → v.Shut id) : Lapse u v
  /-- Lua code begins to run for the host, and comes to where it asks something or ends. -/
  | begins {n i : Nat} {p : Lua.Prog} {u v : World} {s : LuaState} {m m' : Lua.Machine} {stop : Lua.Stop}
    (found : u.states[i]? = some s) (reaches : Reaches (engine n) i (u, s.machine.enter p) (v, m))
    (stops : m.step = .inr (m', stop)) : Lapse u (v.withMachine i m')
  /-- Lua code that has asked something gets an answer, and comes to where it asks something or ends. -/
  | goesOn {n i : Nat} {u v : World} {s : LuaState} {b m m' : Lua.Machine} {a : Except Lua.Value (List Lua.Value)}
    {stop : Lua.Stop} (found : u.states[i]? = some s) (sound : b.Sound) (underWay : UnderWay b s.machine)
    (reaches : Reaches (engine n) i (u, s.machine.answer a) (v, m)) (stops : m.step = .inr (m', stop)) :
    Lapse u (v.withMachine i m')

/-- No handle forgets that it has been closed, whatever Lua code and callbacks do. -/
theorem shut_engine (id n : Nat) : EngineKeeps (Shut id) Leads (engine n) :=
  engineOf_runCallback n ▸ preserves_engineOf preserves_runCallback n

/-- What a session comes to from some moment on. -/
abbrev Later : World → World → Prop := Relation.ReflTransGen Lapse

/-! ### What a host does is done to its end -/

/-- What changes neither options nor objects nor states changes no more than it may. -/
theorem kept_of_same {α : Type} {x : Bridge α}
    (hx : ∀ {w r w'}, x w = some (r, w') → w'.configs = w.configs ∧ w'.objects = w.objects ∧ w'.states = w.states) :
    Keeps World.Sound World.Kept x := by
  intro w r w' hw h
  obtain ⟨hconfigs, hobjects, hstates⟩ := hx h
  exact ⟨hw.of_eq hstates, .of_eq hconfigs hobjects hstates⟩

/-- A reload runs the source of a script; what the script takes of what that gives changes nothing else. -/
theorem kept_reload (n id : Nat) : Keeps World.Sound World.Kept (reload (engine n) id) := by
  intro w r w' hw h
  rw [reload_eq] at h
  have hadopt (result : Value) : Keeps World.Sound World.Kept (adopt (engine n) id result) := by
    refine kept_of_same fun {w r w'} h => ?_
    obtain ⟨status, v, hadopt, hadopts⟩ := adopt_adopts (engine n) id result w
    obtain ⟨-, rfl⟩ := Prod.mk.inj (Option.some.inj (hadopt.symm.trans h))
    cases hadopts <;> exact ⟨rfl, rfl, rfl⟩
  exact ((keeps_runIn (engine_keeps n) _ _).bind hadopt) hw h

/-- What a host does is a stretch of the session. -/
theorem Act.lapse {a : Act} {r : Except Fault Unit} (hw : w.Sound) (run : a.perform (engine n) w = some (r, v)) :
    Lapse w v := by
  have hnew (l : Nat) (source : Text) : Keeps World.Sound World.Kept (Bridge.newScript l source) := by
    refine kept_of_same fun {w r w'} h => ?_
    obtain ⟨-, rfl⟩ := Prod.mk.inj (Option.some.inj h)
    exact ⟨rfl, rfl, rfl⟩
  have hset (id : Nat) (source : Text) : Keeps World.Sound World.Kept (Bridge.setSource id source) := by
    refine kept_of_same fun {w r w'} h => ?_
    obtain ⟨-, rfl⟩ := Prod.mk.inj (Option.some.inj h)
    exact ⟨rfl, rfl, rfl⟩
  obtain ⟨hv, hk⟩ := keeps_perform_of (engine_keeps n) hnew hset (kept_reload n) a hw run
  refine .done hv hk fun id hshut => ?_
  exact (keeps_perform (shut_engine id n) a hshut run).1

/-! ### What remains -/

/-- What there is at some moment is there still: threads that are dead, what handles and guests stand for, and that
handles have been closed; and the threads under way are in order. -/
structure Remains (state : Nat) (u v : World) : Prop where
  orderly : v.Orderly state
  dead : ∀ {t}, u.Rests state t .dead → v.Rests state t .dead
  guests : ∀ {id : Nat} {g : Guest}, u.objects[id]? = some (.guest g) → v.objects[id]? = some (.guest g)
  handles : ∀ {id : Nat} {h : Handle}, u.objects[id]? = some (.handle h) →
    ∃ h', v.objects[id]? = some (.handle h') ∧ h.Kept h'
  shut : ∀ {id : Nat}, u.Shut id → v.Shut id

theorem Remains.refl (hu : u.Orderly state) : Remains state u u := ⟨hu, id, id, fun {_ h} hh => ⟨h, hh, .refl h⟩, id⟩

theorem Remains.trans (h : Remains state u v) (h' : Remains state v w) : Remains state u w := by
  refine ⟨h'.orderly, fun hd => h'.dead (h.dead hd), fun hg => h'.guests (h.guests hg), fun hh => ?_,
    fun hs => h'.shut (h.shut hs)⟩
  obtain ⟨k, hk, hkept⟩ := h.handles hh
  obtain ⟨k', hk', hkept'⟩ := h'.handles hk
  exact ⟨k', hk', hkept.trans hkept'⟩

theorem Remains.kept (hu : u.Orderly state) (hv : v.Sound) (hk : u.Kept v) (hshut : ∀ id, u.Shut id → v.Shut id) :
    Remains state u v :=
  ⟨hu.kept hv hk, fun hd => hd.kept (.inr rfl) hk, hk.guests, hk.handles, fun {_} => hshut _⟩

theorem Remains.isThread {t : Nat} {thread : Value} (h : Remains state u v) (ht : u.IsThread state thread t) :
    v.IsThread state thread t := by
  obtain ⟨g, rfl, hg⟩ := ht
  exact ⟨g, rfl, h.guests hg⟩

/-- Lua code that runs for the host on any state comes to where it stops. -/
theorem remains_run {i : Nat} {stop : Lua.Stop} (hu : u.Orderly state) (hb : b.Sound) (hs : u.states[i]? = some s)
    (hm₀ : UnderWay b m₀) (hlinked : s.machine.Linked → m₀.Linked)
    (hdead : ∀ t, HasRest s.machine.threads t .dead → HasRest m₀.threads t .dead)
    (reaches : Reaches (engine n) i (u, m₀) (v, m)) (stops : m.step = .inr (m', stop)) :
    Remains state u (v.withMachine i m') := by
  have hub : (u.withMachine i b).Sound := hu.sound.withMachine hb
  obtain ⟨hunder, ⟨sv, hsv⟩, hvb, hk⟩ :=
    reaches_lasts (engine_keeps n) (lasts_underWay b) hb reaches hm₀ ⟨s, hs⟩ hub
  have hsound (hm' : m'.Sound) : (v.withMachine i m').Sound := by
    rw [← withMachine_withMachine (m := b)]
    exact hvb.withMachine hm'
  have hshut {id : Nat} (hid : u.Shut id) : (v.withMachine i m').Shut id := by
    obtain ⟨hv, -⟩ := keeps_reaches (shut_engine id n) reaches hid
    exact OfObjects.same (by rfl) hv
  by_cases hi : i = state
  · subst hi
    obtain ⟨s', hs', hl⟩ := hu.linked
    obtain rfl := Option.some.inj (hs.symm.trans hs')
    have hstart : InLine b (HasRest s.machine.threads · .dead) m₀ := ⟨hm₀, hlinked hl, hdead⟩
    obtain ⟨hinLine, -, -, -⟩ := reaches_lasts (engine_keeps n) (lasts_inLine b _) hb reaches hstart ⟨s, hs⟩ hub
    obtain ⟨hm', hlinked', hdead'⟩ := hinLine.stops stops
    have hfound := withMachine_states (m := m') hsv
    refine ⟨⟨hsound hm', _, hfound, hlinked'⟩, fun hd => ?_, hk.guests, hk.handles, hshut⟩
    exact (rests_iff hfound).mpr (hdead' _ ((rests_iff hs).mp hd))
  · have hm' : m'.Sound := hunder.sound_of_stops stops
    have hkept : (u.withMachine i b).Kept (v.withMachine i b) := hk
    obtain ⟨s', hs', hl⟩ := hu.linked
    have hother (w : World) (m : Lua.Machine) : (w.withMachine i m).states[state]? = w.states[state]? := by
      rw [withMachine, Array.getElem?_modify, if_neg hi]
    obtain ⟨s'', hs'', hks⟩ := hk.states ((hother u b).trans hs')
    rw [hother] at hs''
    have hfound := (hother v m').trans hs''
    refine ⟨⟨hsound hm', s'', hfound, hl.kept hks.machine⟩, fun hd => ?_, hk.guests, hk.handles, hshut⟩
    exact (rests_iff hfound).mpr (((rests_iff hs').mp hd).of_stands (.inr rfl) hks.machine.stands)

/-- Whatever happens next, what there is remains. -/
theorem Lapse.remains (h : Lapse u v) (hu : u.Orderly state) : Remains state u v := by
  cases h with
  | done sound kept shut => exact .kept hu sound kept shut
  | begins found reaches stops =>
    have hb := hu.sound found
    exact remains_run hu hb found (underWay_enter hb) (·.enter hb) (fun _ hd => hd.enter) reaches stops
  | @goesOn _ _ _ _ _ _ _ _ a _ found sound underWay reaches stops =>
    have hanswer : UnderWay _ _ := ⟨underWay.running.answer (a := a), underWay.rises.answer⟩
    refine remains_run hu sound found hanswer (·.answer a) (fun t hd => ?_) reaches stops
    rwa [threads_answer]

theorem Later.remains (h : Later u v) (hu : u.Orderly state) : Remains state u v := by
  induction h with
  | refl => exact .refl hu
  | tail _ lapse ih => exact ih.trans (lapse.remains ih.orderly)

end Bridge

end HostedLua
