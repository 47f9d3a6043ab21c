import HostedLua.Host.Run
import HostedLua.Proofs.Bridge.Run
import HostedLua.Proofs.Lua.HostCall

/-! What computations keep. `Keeps` says of a computation that an invariant of the world lasts and that the world goes
on along a relation, whatever comes of the computation. It is built up along the computation, for any invariant and
relation that allow the changes that the bridge consists of. The first ones are these: whatever the host computes,
options stay as they are, what is a guest stays that guest, handles stand for what they stood for, and every Lua state
goes on with the same main thread. -/

namespace HostedLua

open Host

/-- A state with what the host cannot change in it: the options that it was opened under, the set that strings
cross in, and the main thread. A state that has been closed is not opened again. -/
structure LuaState.Kept (s s' : LuaState) : Prop where
  config : s'.config = s.config
  charset : s'.charset = s.charset
  opened : s'.isOpen = true → s.isOpen = true
  machine : s.machine.Kept s'.machine

theorem LuaState.Kept.refl (s : LuaState) : s.Kept s := ⟨rfl, rfl, id, .refl _⟩

theorem LuaState.Kept.trans {s s' s'' : LuaState} (h : s.Kept s') (h' : s'.Kept s'') : s.Kept s'' :=
  ⟨h'.config.trans h.config, h'.charset.trans h.charset, h.opened ∘ h'.opened, h.machine.trans h'.machine⟩

/-- A handle with what the host cannot change in it: only the notes that it carries change. -/
structure Host.Handle.Kept (h h' : Handle) : Prop where
  kind : h'.kind = h.kind
  state : h'.state = h.state
  guest : h'.guest = h.guest
  owns : h'.owns = h.owns

theorem Host.Handle.Kept.refl (h : Handle) : h.Kept h := ⟨rfl, rfl, rfl, rfl⟩

theorem Host.Handle.Kept.trans {h h' h'' : Handle} (hk : h.Kept h') (hk' : h'.Kept h'') : h.Kept h'' :=
  ⟨hk'.kind.trans hk.kind, hk'.state.trans hk.state, hk'.guest.trans hk.guest, hk'.owns.trans hk.owns⟩

namespace World

/-- A world that differs in its records alone: what was logged, printed and called, and what is held. -/
structure Beside (w w' : World) : Prop where
  configs : w'.configs = w.configs
  objects : w'.objects = w.objects
  states : w'.states = w.states
  languages : w'.languages = w.languages
  scripts : w'.scripts = w.scripts
  runners : w'.runners = w.runners
  diagnostics : w'.diagnostics = w.diagnostics

def enter (w : World) (language : Nat) (state : Option Nat) : World :=
  { w with languages := w.languages.modify language ({ · with state }) }

/-- A world in which a side effect has been added to a record. -/
def withEffect (w : World) (d : Nat) (e : Effect) : World :=
  { w with diagnostics := w.diagnostics.modify d (· ++ [e]) }

def languageOf (w : World) (language : Nat) : Language :=
  (w.languages[language]?).getD { config := 0, diagnostics := 0 }

end World

def Host.Effect.printed (parts : List Text) : Effect := ⟨[.text "stdout"], Text.join " " parts⟩

/-- An invariant and a relation between worlds that allow the changes that the bridge consists of: records are made,
reports among them, objects are added, handles note what a resumption came to and that they have been closed, states are
opened, go on and are closed, and a language gets another state, unless the one it has is open. -/
class Admits (I : World → Prop) (R : outParam (World → World → Prop)) : Prop where
  refl (w : World) : R w w
  trans {w w' w'' : World} : R w w' → R w' w'' → R w w''
  beside {w w' : World} : I w → w.Beside w' → I w' ∧ R w w'
  report {w : World} (d : Nat) (message : Text) :
    I w → I (w.withEffect d (.report message)) ∧ R w (w.withEffect d (.report message))
  object {w : World} (o : Object) :
    I w → I { w with objects := w.objects.push o } ∧ R w { w with objects := w.objects.push o }
  handle {w : World} {id : Nat} {g g' : Handle} : I w → w.objects[id]? = some (.handle g) → g.Kept g' →
    (g.closed = true → g'.closed = true) →
    I { w with objects := w.objects.set! id (.handle g') } ∧ R w { w with objects := w.objects.set! id (.handle g') }
  state {w : World} {i : Nat} {f : LuaState → LuaState} : I w →
    (∀ s : LuaState, s.machine.Sound → (f s).machine.Sound ∧ s.Kept (f s)) →
    (∀ s : LuaState, (f s).diagnostics = s.diagnostics ∧ ((f s).isOpen = true → s.isOpen = true)) →
    I { w with states := w.states.modify i f } ∧ R w { w with states := w.states.modify i f }
  opens {w : World} {s : LuaState} : I w → s.machine.Sound →
    I { w with states := w.states.push s } ∧ R w { w with states := w.states.push s }
  enter {w : World} {l : Nat} {state : Option Nat} : I w →
    (∀ s, (w.languageOf l).state = some s → w.opened s = true → state = some s) →
    I (w.enter l state) ∧ R w (w.enter l state)

/-- They allow what Lua prints to be put on record, too. -/
class AdmitsPrint (I : World → Prop) (R : outParam (World → World → Prop)) : Prop extends Admits I R where
  /-- The texts of values have been made, and are printed. -/
  print {E : Engine} {w v : World} {args : List Value} {parts : List Text} (d : Nat) :
    I w → I v → R w v → args.mapM (Bridge.printText E) w = some (.ok parts, v) →
    I (v.withEffect d (.printed parts)) ∧ R w (v.withEffect d (.printed parts))

namespace World

variable {w w' w'' : World}

/-- The machines of all states are as the host finds them. -/
def Sound (w : World) : Prop := ∀ ⦃i : Nat⦄ ⦃s : LuaState⦄, w.states[i]? = some s → s.machine.Sound

/-- A world with all that the host cannot change in it. -/
structure Kept (w w' : World) : Prop where
  configs : w'.configs = w.configs
  guests : ∀ {id : Nat} {g : Guest}, w.objects[id]? = some (.guest g) → w'.objects[id]? = some (.guest g)
  handles : ∀ {id : Nat} {h : Handle}, w.objects[id]? = some (.handle h) →
    ∃ h', w'.objects[id]? = some (.handle h') ∧ h.Kept h'
  states : ∀ {i : Nat} {s : LuaState}, w.states[i]? = some s → ∃ s', w'.states[i]? = some s' ∧ s.Kept s'

/-- The world of a language that has opened no state yet. -/
def unopened (options : Config) : World :=
  { configs := #[options], diagnostics := #[[]], languages := #[{ config := 0, diagnostics := 0 }] }

theorem sound_unopened (options : Config) : (unopened options).Sound := by
  intro i s hs
  cases hs

theorem sound_single {s : LuaState} (hw : w.states = #[s]) (hm : s.machine.Sound) : w.Sound := by
  intro i s' hs
  have hmem : s' ∈ #[s] := hw ▸ Array.mem_of_getElem? hs
  obtain rfl : s' = s := by simpa using hmem
  exact hm

theorem Kept.refl (w : World) : w.Kept w :=
  ⟨rfl, id, fun {_ h} hh => ⟨h, hh, .refl h⟩, fun {_ s} h => ⟨s, h, .refl s⟩⟩

theorem Kept.trans (h : w.Kept w') (h' : w'.Kept w'') : w.Kept w'' := by
  refine ⟨h'.configs.trans h.configs, fun hg => h'.guests (h.guests hg), fun hh => ?_, fun hs => ?_⟩
  · obtain ⟨g, hg, hk⟩ := h.handles hh
    obtain ⟨g', hg', hk'⟩ := h'.handles hg
    exact ⟨g', hg', hk.trans hk'⟩
  · obtain ⟨s', hs', hk⟩ := h.states hs
    obtain ⟨s'', hs'', hk'⟩ := h'.states hs'
    exact ⟨s'', hs'', hk.trans hk'⟩

theorem Kept.of_eq (hc : w'.configs = w.configs) (ho : w'.objects = w.objects) (hs : w'.states = w.states) :
    w.Kept w' :=
  ⟨hc, fun hg => ho ▸ hg, fun {_ h} hh => ⟨h, ho ▸ hh, .refl h⟩, fun {_ s} h => ⟨s, hs ▸ h, .refl s⟩⟩

theorem Sound.of_eq (h : w.Sound) (hs : w'.states = w.states) : w'.Sound := fun _ _ hi => h (hs ▸ hi)

/-- A state is changed to what it may become. -/
theorem Kept.modify {i : Nat} {f : LuaState → LuaState} (hf : ∀ {s}, w.states[i]? = some s → s.Kept (f s)) :
    w.Kept { w with states := w.states.modify i f } := by
  refine ⟨rfl, id, fun {_ h} hh => ⟨h, hh, .refl h⟩, fun {j s} h => ⟨_, getElem?_modify_some h i f, ?_⟩⟩
  split_ifs with hij
  · exact hf (hij ▸ h)
  · exact .refl s

theorem Sound.modify {i : Nat} {f : LuaState → LuaState} (hw : w.Sound)
    (hf : ∀ {s}, w.states[i]? = some s → (f s).machine.Sound) :
    World.Sound { w with states := w.states.modify i f } := by
  intro j s h
  dsimp only at h
  rw [Array.getElem?_modify] at h
  split_ifs at h with hij
  · obtain ⟨s', hs', rfl⟩ := Option.map_eq_some_iff.mp h
    exact hf (hij ▸ hs')
  · exact hw h

/-- The notes that a handle carries are replaced. -/
theorem Kept.setHandle {id : Nat} {g g' : Handle} (hid : w.objects[id]? = some (.handle g)) (hg : g.Kept g') :
    w.Kept { w with objects := w.objects.set! id (.handle g') } := by
  have hold {j : Nat} {o : Object} (hne : id ≠ j) (ho : w.objects[j]? = some o) :
      (w.objects.set! id (.handle g'))[j]? = some o := by
    rw [Array.set!_eq_setIfInBounds, Array.getElem?_setIfInBounds_ne hne, ho]
  refine ⟨rfl, fun {j o} ho => ?_, fun {j k} hk => ?_, fun {_ s} hs => ⟨s, hs, .refl s⟩⟩
  · have hne : id ≠ j := by
      rintro rfl
      rw [hid] at ho
      cases ho
    exact hold hne ho
  · by_cases hj : id = j
    · subst hj
      obtain rfl := Object.handle.inj (Option.some.inj (hid.symm.trans hk))
      have hlt : id < w.objects.size := (Array.getElem?_eq_some_iff.mp hid).1
      refine ⟨g', ?_, hg⟩
      dsimp only
      rw [Array.set!_eq_setIfInBounds, Array.getElem?_setIfInBounds_self_of_lt hlt]
    · exact ⟨k, hold hj hk, .refl k⟩

theorem Kept.push (w : World) (o : Object) : w.Kept { w with objects := w.objects.push o } :=
  ⟨rfl, fun hg => getElem?_push_some hg o, fun {_ h} hh => ⟨h, getElem?_push_some hh o, .refl h⟩,
    fun {_ s} hs => ⟨s, hs, .refl s⟩⟩

theorem Kept.opens (w : World) (s : LuaState) : w.Kept { w with states := w.states.push s } :=
  ⟨rfl, id, fun {_ h} hh => ⟨h, hh, .refl h⟩, fun {_ s'} hs' => ⟨s', getElem?_push_some hs' s, .refl s'⟩⟩

theorem Sound.opens {s : LuaState} (hw : w.Sound) (hs : s.machine.Sound) :
    World.Sound { w with states := w.states.push s } := by
  intro i s' hs'
  dsimp only at hs'
  rw [Array.getElem?_push] at hs'
  split_ifs at hs'
  · exact Option.some.inj hs' ▸ hs
  · exact hw hs'

instance : AdmitsPrint World.Sound World.Kept where
  refl := .refl
  trans := .trans
  beside hw h := ⟨hw.of_eq h.states, .of_eq h.configs h.objects h.states⟩
  report _ _ hw := ⟨hw.of_eq rfl, .of_eq rfl rfl rfl⟩
  print _ _ hv hk _ := ⟨hv.of_eq rfl, hk.trans (.of_eq rfl rfl rfl)⟩
  object o hw := ⟨hw.of_eq rfl, .push _ o⟩
  handle hw hid hg _ := ⟨hw.of_eq rfl, .setHandle hid hg⟩
  state hw hf _ := ⟨hw.modify fun h => (hf _ (hw h)).1, .modify fun h => (hf _ (hw h)).2⟩
  opens hw hs := ⟨hw.opens hs, .opens _ _⟩
  enter hw _ := ⟨hw.of_eq rfl, .of_eq rfl rfl rfl⟩

end World

namespace Bridge

variable {α β : Type} {I : World → Prop} {R : World → World → Prop} {w w' : World}

/-- An invariant lasts while a computation runs, and the world goes on along a relation, whatever comes of it. -/
def Keeps (I : World → Prop) (R : World → World → Prop) (x : Bridge α) : Prop :=
  ∀ ⦃w r w'⦄, I w → x w = some (r, w') → I w' ∧ R w w'

variable [Admits I R]

/-! ### Steps -/

@[grind ←] theorem Keeps.pure (a : α) : Keeps I R (pure a) := by
  intro w r w' hw hx
  obtain ⟨-, rfl⟩ := Prod.mk.inj (Option.some.inj hx)
  exact ⟨hw, Admits.refl I w⟩

@[grind ←] theorem Keeps.throw (f : Fault) : Keeps I R (throw f : Bridge α) := by
  intro w r w' hw hx
  obtain ⟨-, rfl⟩ := Prod.mk.inj (Option.some.inj hx)
  exact ⟨hw, Admits.refl I w⟩

@[grind ←] theorem Keeps.raise (kind : String) (text : Text) : Keeps I R (raise kind text : Bridge α) := .throw _

omit [Admits I R] in
@[grind ←] theorem Keeps.diverge : Keeps I R (diverge : Bridge α) := by
  intro w r w' _ hx
  contradiction

/-- After a step that keeps what it should in the world at hand, a computation goes on. -/
theorem keeps_after {x : Bridge α} {f : α → Bridge β} {r : Except Fault β}
    (hx : ∀ {r w'}, x w = some (r, w') → I w' ∧ R w w') (hf : ∀ a, Keeps I R (f a))
    (h : (x >>= f) w = some (r, w')) : I w' ∧ R w w' := by
  rcases bind_some h with ⟨e, he, rfl⟩ | ⟨a, v, ha, hf'⟩
  · exact hx he
  · obtain ⟨hv, hk⟩ := hx ha
    obtain ⟨hw', hk'⟩ := hf a hv hf'
    exact ⟨hw', Admits.trans I hk hk'⟩

@[grind ←] theorem Keeps.bind {x : Bridge α} {f : α → Bridge β} (hx : Keeps I R x) (hf : ∀ a, Keeps I R (f a)) :
    Keeps I R (x >>= f) :=
  fun _ _ _ hw h => keeps_after (hx hw) hf h

@[grind ←] theorem Keeps.map {x : Bridge α} {f : α → β} (hx : Keeps I R x) : Keeps I R (f <$> x) := by
  rw [map_eq_pure_bind]
  exact hx.bind fun a => .pure _

@[grind ←] theorem Keeps.get : Keeps I R (get : Bridge World) := by
  intro w r w' hw hx
  obtain ⟨-, rfl⟩ := Prod.mk.inj (Option.some.inj hx)
  exact ⟨hw, Admits.refl I w⟩

omit [Admits I R] in
@[grind ←] theorem Keeps.attempt {x : Bridge α} (hx : Keeps I R x) : Keeps I R (attempt x) := by
  intro w r w' hw h
  rw [attempt_apply] at h
  obtain ⟨⟨r₁, w₁⟩, hr, heq⟩ := Option.map_eq_some_iff.mp h
  obtain ⟨-, rfl⟩ := Prod.mk.inj heq
  exact hx hw hr

theorem Keeps.mapM {f : α → Bridge β} (hf : ∀ a, Keeps I R (f a)) (l : List α) : Keeps I R (l.mapM f) := by
  induction l with
  | nil => exact .pure _
  | cons a l ih =>
    rw [List.mapM_cons]
    exact (hf a).bind fun b => ih.bind fun bs => .pure _

theorem Keeps.foldlM {f : β → α → Bridge β} (hf : ∀ b a, Keeps I R (f b a)) (l : List α) (b : β) :
    Keeps I R (l.foldlM f b) := by
  induction l generalizing b with
  | nil => exact .pure _
  | cons a l ih =>
    rw [List.foldlM_cons]
    exact (hf b a).bind fun b => ih b

theorem Reads.keeps {x : Bridge α} (hx : Reads x) : Keeps I R x := by
  intro w r w' hw h
  obtain ⟨r', hr'⟩ := hx.total w
  obtain ⟨-, rfl⟩ := Prod.mk.inj (Option.some.inj (h.symm.trans hr'))
  exact ⟨hw, Admits.refl I w'⟩

/-! ### The operations of a world -/

theorem keeps_modify {f : World → World} (hf : ∀ w : World, w.Beside (f w)) : Keeps I R (modify f) := by
  intro w r w' hw h
  obtain ⟨-, rfl⟩ := Prod.mk.inj (Option.some.inj h)
  exact Admits.beside hw (hf w)

theorem keeps_modifyState {i : Nat} {f : LuaState → LuaState}
    (hf : ∀ s : LuaState, s.machine.Sound → (f s).machine.Sound ∧ s.Kept (f s))
    (hsame : ∀ s : LuaState, (f s).diagnostics = s.diagnostics ∧ ((f s).isOpen = true → s.isOpen = true)) :
    Keeps I R (modifyState i f) := by
  intro w r w' hw h
  obtain ⟨-, rfl⟩ := Prod.mk.inj (Option.some.inj h)
  exact Admits.state hw hf hsame

@[grind ←] theorem keeps_object (id : Nat) : Keeps I R (object id) := by
  grind [object]

@[grind ←] theorem keeps_state? (id : Nat) : Keeps I R (state? id) := by
  grind [state?]

@[grind ←] theorem keeps_newObject (o : Object) : Keeps I R (newObject o) := by
  intro w r w' hw h
  obtain ⟨-, rfl⟩ := Prod.mk.inj (Option.some.inj h)
  exact Admits.object o hw

/-- The notes that a handle carries are replaced. -/
theorem keeps_setHandle {id : Nat} {g g' : Handle} {r : Except Fault Unit} (hw : I w)
    (hid : w.objects[id]? = some (.handle g)) (hg : g.Kept g') (hclosed : g.closed = true → g'.closed = true)
    (h : setObject id (.handle g') w = some (r, w')) : I w' ∧ R w w' := by
  obtain ⟨-, rfl⟩ := Prod.mk.inj (Option.some.inj h)
  exact Admits.handle hw hid hg hclosed

theorem keeps_pushState {s : LuaState} (hs : s.machine.Sound) :
    Keeps I R (modifyGet fun w => (w.states.size, { w with states := w.states.push s })) := by
  intro w r w' hw h
  obtain ⟨-, rfl⟩ := Prod.mk.inj (Option.some.inj h)
  exact Admits.opens hw hs

@[grind ←] theorem keeps_modifyHeap (i : Nat) (f : Lua.Heap → Lua.Heap) : Keeps I R (modifyHeap i f) :=
  keeps_modifyState (fun _ h => ⟨⟨h.threads, h.stack⟩, rfl, rfl, id, rfl, rfl, rfl, .refl⟩) fun _ => ⟨rfl, id⟩

@[grind ←] theorem keeps_log (text : Text) : Keeps I R (log text) :=
  keeps_modify fun _ => ⟨rfl, rfl, rfl, rfl, rfl, rfl, rfl⟩

@[grind ←] theorem keeps_noteCall (args : List View) : Keeps I R (noteCall args) :=
  keeps_modify fun _ => ⟨rfl, rfl, rfl, rfl, rfl, rfl, rfl⟩

@[grind ←] theorem keeps_report (d : Nat) (message : Text) : Keeps I R (report d message) := by
  intro w r w' hw h
  obtain ⟨-, rfl⟩ := Prod.mk.inj (Option.some.inj h)
  exact Admits.report d message hw

omit [Admits I R] in
/-- The texts of values are made and printed. -/
theorem keeps_print [AdmitsPrint I R] {E : Engine} (htext : ∀ v, Keeps I R (printText E v)) (d : Nat) (args : List Value) :
    Keeps I R (do
      let parts ← args.mapM (printText E)
      addEffect d (.printed parts)) := by
  intro w r w' hw h
  have htexts : Keeps I R (args.mapM (printText E)) := .mapM htext args
  rcases bind_some h with ⟨e, he, -⟩ | ⟨parts, v, hparts, h⟩
  · exact htexts hw he
  · obtain ⟨hv, hk⟩ := htexts hw hparts
    obtain ⟨-, rfl⟩ := Prod.mk.inj (Option.some.inj h)
    exact AdmitsPrint.print d hw hv hk hparts

@[grind ←] theorem keeps_variableNamed? (name : Text) : Keeps I R (variableNamed? name) := by
  grind [variableNamed?]

@[grind ←] theorem Keeps.holding {vs : List Value} {state : Nat} {x : Bridge α} (hx : Keeps I R x) :
    Keeps I R (holding vs state x) := by
  intro w r w' hw h
  rw [holding_apply] at h
  obtain ⟨⟨r₁, w₁⟩, hr, heq⟩ := Option.map_eq_some_iff.mp h
  obtain ⟨-, rfl⟩ := Prod.mk.inj heq
  let held : World := { w with held := vs ++ w.held, heldStates := state :: w.heldStates }
  have hbeside : w.Beside held := ⟨rfl, rfl, rfl, rfl, rfl, rfl, rfl⟩
  obtain ⟨hheld, hk⟩ := Admits.beside hw hbeside
  obtain ⟨hw₁, hk₁⟩ := hx hheld hr
  have hbeside₁ : w₁.Beside { w₁ with held := w.held, heldStates := w.heldStates } :=
    ⟨rfl, rfl, rfl, rfl, rfl, rfl, rfl⟩
  obtain ⟨hw', hk'⟩ := Admits.beside hw₁ hbeside₁
  exact ⟨hw', Admits.trans I (Admits.trans I hk hk₁) hk'⟩

end Bridge

end HostedLua
