import HostedLua.Proofs.Coroutine.Closing
import HostedLua.Proofs.Function.Calling
import HostedLua.Proofs.Lua.Spares
import HostedLua.Proofs.Table.Faults

/-! What becomes of a state while its values come to the host. Everything that was there stays as it was: objects,
tables, globals, and every thread with all that it waits over. What is new is the host's: handles, and threads that the
handles of coroutines own, which have not run. So those can be closed, and no code runs for that. Only the wrapping
function of the state is called on the way, and `coroutine.close` on such threads; `RunsOwn` says of whoever runs
programs for the host that these two come to what they come to on the machine, and nothing of any other program. -/

namespace HostedLua

open Host

namespace World

variable {w₀ w w' w'' : World} {state t : Nat} {s s' : LuaState} {m : Lua.Machine} {T : Nat → Prop}

/-- What there is in a world beside objects, states, and records of what has happened and is under way. -/
def frame (w : World) : World :=
  { w with objects := #[], states := #[], diagnostics := #[], logs := [], held := [], heldStates := [] }

/-- A world in which a state has gone on, and all that was there before is as it was. -/
structure Intact (w : World) (state : Nat) (w' : World) : Prop where
  frame : w'.frame = w.frame
  objects : ∀ {id : Nat} {o : Object}, w.objects[id]? = some o → w'.objects[id]? = some o
  others : ∀ {i : Nat}, i ≠ state → w'.states[i]? = w.states[i]?
  machine : ∀ {s : LuaState}, w.states[state]? = some s →
    ∃ m, w'.states[state]? = some { s with machine := m } ∧ s.machine.Spares (· < s.machine.threads.size) m

/-- A thread of a state has not begun, or nothing is left of it. -/
def Bare (w : World) (state t : Nat) : Prop := ∃ s, w.states[state]? = some s ∧ s.machine.Bare t

/-- A value is a thread that is new and bare, or stands for none. -/
def NewThread (w : World) (state : Nat) (s : LuaState) (v : Value) : Prop :=
  v = .none ∨ ∃ t, w.IsThread state v t ∧ s.machine.threads.size ≤ t ∧ w.Bare state t

/-- A handle owns no thread that there was. -/
structure OwnsNew (w : World) (state : Nat) (s : LuaState) (h : Handle) : Prop where
  state_eq : h.state = state
  thread : w.NewThread state s h.guest

/-- A world to which values of a state have come: all that was there is as it was, what has come belongs to the state,
and the handles among it own new threads alone. -/
structure Lent (w₀ : World) (state : Nat) (s : LuaState) (w : World) : Prop extends w₀.Intact state w where
  guests : ∀ {id : Nat} {g : Guest}, w₀.objects.size ≤ id → w.objects[id]? = some (.guest g) → g.state = state
  owned : ∀ {id : Nat} {h : Handle}, w₀.objects.size ≤ id → w.objects[id]? = some (.handle h) → h.owns = true →
    w.OwnsNew state s h

/-- If a value is an object that was there, it is one of certain objects. -/
def NewOr (w : World) (H : Nat → Prop) (u : Value) : Prop := ∀ id, u = .obj id → w.objects.size ≤ id ∨ H id

/-- Certain objects are there, and stand for no Lua values: in Lua they are the host's own. -/
def HostOwned (w : World) (H : Nat → Prop) : Prop := ∀ id, H id → w.Proper (.host id)

theorem Intact.refl (w : World) (state : Nat) : w.Intact state w :=
  ⟨rfl, id, fun _ => rfl, fun {s} hs => ⟨s.machine, hs, .refl _⟩⟩

theorem Intact.trans (h : w.Intact state w') (h' : w'.Intact state w'') : w.Intact state w'' := by
  refine ⟨h'.frame.trans h.frame, h'.objects ∘ h.objects, fun hi => (h'.others hi).trans (h.others hi),
    fun {s} hs => ?_⟩
  obtain ⟨m, hm, hspares⟩ := h.machine hs
  obtain ⟨m', hm', hspares'⟩ := h'.machine hm
  exact ⟨m', hm', hspares.trans hspares' fun t ht => Nat.lt_of_lt_of_le ht hspares.size_le⟩

/-- What is no part of what changes is as it was. -/
theorem Intact.field {α : Type} (h : w.Intact state w') (f : World → α) (hf : ∀ w : World, f w.frame = f w) :
    f w' = f w := by
  rw [← hf, h.frame, hf]

/-- The state has grown. -/
theorem Intact.grown (h : w.Intact state w') : w.Grown state w' := by
  refine ⟨h.field configs fun _ => rfl, h.objects, fun {s} hs => ?_⟩
  obtain ⟨m, hm, hspares⟩ := h.machine hs
  exact ⟨_, hm, rfl, hspares.grown⟩

theorem Lent.start (w : World) (state : Nat) (s : LuaState) : w.Lent state s w :=
  ⟨.refl w state, fun hid hg => absurd (Array.getElem?_eq_some_iff.mp hg).1 (Nat.not_lt.mpr hid),
    fun hid hh => absurd (Array.getElem?_eq_some_iff.mp hh).1 (Nat.not_lt.mpr hid)⟩

/-! ### What may change -/

theorem OwnsNew.mono {k : Handle} (h : w.OwnsNew state s k)
    (hobjects : ∀ {id : Nat} {g : Guest}, w.objects[id]? = some (.guest g) → w'.objects[id]? = some (.guest g))
    (hbare : ∀ {t}, w.Bare state t → w'.Bare state t) : w'.OwnsNew state s k := by
  refine ⟨h.state_eq, h.thread.imp id ?_⟩
  rintro ⟨t, ⟨o, hguest, ho⟩, hnew, ht⟩
  exact ⟨t, ⟨o, hguest, hobjects ho⟩, hnew, hbare ht⟩

/-- Only records and what is held are others. -/
theorem Lent.beside (h : w₀.Lent state s w)
    (hframe : w'.frame = w.frame) (hobjects : w'.objects = w.objects) (hstates : w'.states = w.states) :
    w₀.Lent state s w' := by
  refine ⟨⟨hframe.trans h.frame, fun ho => hobjects ▸ h.objects ho, fun hi => hstates ▸ h.others hi,
    fun hs => hstates ▸ h.machine hs⟩,
    fun hid hg => h.guests hid (hobjects ▸ hg), fun hid hh howns => ?_⟩
  refine (h.owned hid (hobjects ▸ hh) howns).mono (fun hg => hobjects ▸ hg) ?_
  rintro t ⟨s', hs', ht⟩
  exact ⟨s', hstates ▸ hs', ht⟩

theorem Lent.hold (h : w₀.Lent state s w) (vs : List Value) (i : Nat) : w₀.Lent state s (w.hold vs i) :=
  h.beside rfl rfl rfl

theorem Lent.release (h : w₀.Lent state s w) (v : World) : w₀.Lent state s (w.release v) := h.beside rfl rfl rfl

/-- An object is new: a guest of the state, or a handle that owns a new thread if it owns one. -/
theorem Lent.push (h : w₀.Lent state s w) (o : Object) (hguest : ∀ g, o = .guest g → g.state = state)
    (howns : ∀ k, o = .handle k → k.owns = true → w.OwnsNew state s k) :
    w₀.Lent state s { w with objects := w.objects.push o } := by
  have hold {id : Nat} {o' : Object} (ho : (w.objects.push o)[id]? = some o') : o' = o ∨ w.objects[id]? = some o' := by
    rw [Array.getElem?_push] at ho
    split_ifs at ho
    · exact .inl (Option.some.inj ho).symm
    · exact .inr ho
  refine ⟨⟨h.frame, fun ho => getElem?_push_some (h.objects ho) o, h.others, h.machine⟩, fun hid hg => ?_,
    fun {i k} hid hh hk => ?_⟩
  · rcases hold hg with heq | hg
    · exact hguest _ heq.symm
    · exact h.guests hid hg
  · have hnew : w.OwnsNew state s k := by
      rcases hold hh with heq | hh
      · exact howns _ heq.symm hk
      · exact h.owned hid hh hk
    exact hnew.mono (fun hg => getElem?_push_some hg o) fun hbare => hbare

/-- The state goes on: its machine spares the threads that there were. -/
theorem Intact.withMachine (h : w₀.Intact state w) (hs : w₀.states[state]? = some s) (hs' : w.states[state]? = some s')
    (hm : s'.machine.Spares T m) (hT : ∀ t < s.machine.threads.size, T t) :
    w₀.Intact state (w.withMachine state m) := by
  have hmachine := withMachine_states (m := m) hs'
  refine ⟨h.frame, h.objects, fun {i} hi => ?_, fun {s₁} hs₁ => ?_⟩
  · rw [World.withMachine]
    dsimp only
    rw [Array.getElem?_modify, if_neg (Ne.symm hi), h.others hi]
  · obtain rfl := Option.some.inj (hs.symm.trans hs₁)
    obtain ⟨m', hm', hspares⟩ := h.machine hs
    obtain rfl := Option.some.inj (hs'.symm.trans hm')
    exact ⟨m, hmachine, hspares.trans hm hT⟩

/-- What has come stays as it was, if bare threads stay so. -/
theorem Lent.withMachine (h : w₀.Lent state s w) (hs : w₀.states[state]? = some s) (hs' : w.states[state]? = some s')
    (hm : s'.machine.Spares T m) (hT : ∀ t < s.machine.threads.size, T t)
    (hbare : ∀ {t}, s'.machine.Bare t → m.Bare t) : w₀.Lent state s (w.withMachine state m) := by
  refine ⟨h.toIntact.withMachine hs hs' hm hT, h.guests, fun hid hh hk => ?_⟩
  refine (h.owned hid hh hk).mono id ?_
  rintro t ⟨s₁, hs₁, ht⟩
  obtain rfl := Option.some.inj (hs'.symm.trans hs₁)
  exact ⟨_, withMachine_states hs', hbare ht⟩

theorem Lent.guest_state {id : Nat} {g : Guest} {H : Nat → Prop} (h : w₀.Lent state s w) (hH : w₀.HostOwned H)
    (hu : w₀.NewOr H (.obj id)) (hg : w.objects[id]? = some (.guest g)) : g.state = state := by
  rcases hu id rfl with hnew | hhost
  · exact h.guests hnew hg
  · obtain ⟨o, ho, hguest⟩ := hH id hhost id rfl
    exact absurd (Option.some.inj ((h.objects ho).symm.trans hg)) (hguest g)

theorem Intact.size_le (h : w₀.Intact state w) : w₀.objects.size ≤ w.objects.size := by
  by_contra hlt
  have hw : w.objects.size < w₀.objects.size := Nat.lt_of_not_le hlt
  have hnone := h.objects (Array.getElem?_eq_getElem hw)
  rw [Array.getElem?_eq_none (Nat.le_refl _)] at hnone
  contradiction

/-- A new handle notes that it has been closed. -/
theorem Lent.shut {id : Nat} {k : Handle} (h : w₀.Lent state s w) (hid : w₀.objects.size ≤ id)
    (hk : w.objects[id]? = some (.handle k)) : w₀.Lent state s (w.shut id k) := by
  have hobject (i : Nat) : (w.withHandle id { k with closed := true }).objects[i]? =
      if i = id then some (.handle { k with closed := true }) else w.objects[i]? := withHandle_objects hk i
  refine ⟨⟨h.frame, fun {i o} ho => ?_, h.others, h.machine⟩, fun {i g} hi hg => ?_, fun {i k'} hi hh howns => ?_⟩
  · have hne : i ≠ id := fun heq => absurd (Array.getElem?_eq_some_iff.mp ho).1 (Nat.not_lt.mpr (heq ▸ hid))
    rw [World.shut, hobject, if_neg hne, h.objects ho]
  · rw [World.shut, hobject] at hg
    split_ifs at hg
    · cases hg
    · exact h.guests hi hg
  · refine OwnsNew.mono (w := w) ?_ (fun {i g} hg => ?_) fun hbare => hbare
    · rw [World.shut, hobject] at hh
      split_ifs at hh
      · obtain rfl := Object.handle.inj (Option.some.inj hh)
        have hnew := h.owned hid hk howns
        exact ⟨hnew.state_eq, hnew.thread⟩
      · exact h.owned hi hh howns
    · have hne : i ≠ id := by
        rintro rfl
        rw [hk] at hg
        cases hg
      rw [World.shut, hobject, if_neg hne, hg]

end World

namespace Bridge

open World Lua.Machine

variable {α β : Type} {J : World → Prop} {P : α → World → Prop} {Q : β → World → Prop} {w w' : World}

/-- A computation ends in a world of some kind, and what it gives there has some property. -/
def Ends (J : World → Prop) (P : α → World → Prop) (x : Bridge α) (w : World) : Prop :=
  ∃ r w', x w = some (r, w') ∧ J w' ∧ ∀ a, r = .ok a → P a w'

theorem Ends.of_ok {x : Bridge α} {a : α} (hx : x w = some (.ok a, w')) (hw : J w') (ha : P a w') : Ends J P x w :=
  ⟨_, w', hx, hw, fun _ heq => Except.ok.inj heq ▸ ha⟩

theorem Ends.of_error {x : Bridge α} {f : Fault} (hx : x w = some (.error f, w')) (hw : J w') : Ends J P x w :=
  ⟨_, w', hx, hw, fun _ heq => by cases heq⟩

theorem Ends.pure {a : α} (hw : J w) (ha : P a w) : Ends J P (pure a) w := .of_ok (pure_apply a w) hw ha

theorem Ends.raise (kind : String) (text : Text) (hw : J w) : Ends J P (raise kind text) w := .of_error rfl hw

theorem Ends.bind {x : Bridge α} {f : α → Bridge β} (hx : Ends J P x w)
    (hf : ∀ a w', J w' → P a w' → Ends J Q (f a) w') : Ends J Q (x >>= f) w := by
  obtain ⟨r, w', hr, hw', ha⟩ := hx
  cases r with
  | error e => exact .of_error (bind_error hr) hw'
  | ok a =>
    obtain ⟨r', w'', hr', hrest⟩ := hf a w' hw' (ha a rfl)
    exact ⟨r', w'', (bind_ok hr).trans hr', hrest⟩

/-- What is known of an end holds of the one that there is. -/
theorem Ends.of_run {x : Bridge α} {a : α} (h : Ends J P x w) (hx : x w = some (.ok a, w')) : J w' ∧ P a w' := by
  obtain ⟨r, v, hr, hv, ha⟩ := h
  obtain ⟨rfl, rfl⟩ := Prod.mk.inj (Option.some.inj (hr.symm.trans hx))
  exact ⟨hv, ha a rfl⟩

/-- A step that is known is taken. -/
theorem Ends.step {x : Bridge α} {f : α → Bridge β} {a : α} (hx : x w = some (.ok a, w')) (hf : Ends J Q (f a) w') :
    Ends J Q (x >>= f) w := by
  obtain ⟨r, w'', hr, hrest⟩ := hf
  exact ⟨r, w'', (bind_ok hx).trans hr, hrest⟩

theorem Ends.protectedCall {x : Bridge α} (hx : Ends J P x w) :
    Ends J (fun r w' => ∀ a, r = .ok a → P a w') (protectedCall x) w := by
  obtain ⟨r, w', hr, hw', ha⟩ := hx
  cases r with
  | ok a => exact .of_ok (protectedCall_ok hr) hw' fun _ heq => Except.ok.inj heq ▸ ha a rfl
  | error f =>
    cases hf : f.isOrdinary with
    | true => exact .of_ok (protectedCall_error hf hr) hw' fun _ heq => by cases heq
    | false =>
      have hattempt : attempt x w = some (.ok (.error f), w') := by rw [attempt_apply, hr]; rfl
      refine .of_error (f := f) ((bind_ok hattempt).trans ?_) hw'
      dsimp only
      rw [hf, if_neg Bool.false_ne_true, throw_apply]

theorem Ends.holding {x : Bridge α} {vs : List Value} {i : Nat} (hx : Ends J P x (w.hold vs i))
    (hrelease : ∀ w', J w' → J (w'.release w)) : Ends J (fun _ _ => True) (holding vs i x) w := by
  obtain ⟨r, w', hr, hw', -⟩ := hx
  exact ⟨r, _, holding_of hr, hrelease w' hw', fun _ _ => trivial⟩

/-- A list is gone through; the values that are got are of some kind in whatever world. -/
theorem Ends.mapM {R : α → Prop} {S : β → Prop} {f : α → Bridge β} (l : List α) (hl : ∀ a ∈ l, R a) (hw : J w)
    (hf : ∀ a w, R a → J w → Ends J (fun b _ => S b) (f a) w) : Ends J (fun bs _ => ∀ b ∈ bs, S b) (l.mapM f) w := by
  induction l generalizing w with
  | nil => exact .pure hw fun b hb => absurd hb List.not_mem_nil
  | cons a l ih =>
    rw [List.mapM_cons]
    refine (hf a w (hl a List.mem_cons_self) hw).bind fun b w₁ hw₁ hb => ?_
    refine (ih (fun a ha => hl a (List.mem_cons_of_mem _ ha)) hw₁).bind fun bs w₂ hw₂ hbs => ?_
    exact .pure hw₂ (List.forall_mem_cons.mpr ⟨hb, hbs⟩)

theorem Ends.foldlM {R : α → Prop} {S : β → Prop} {f : β → α → Bridge β} (l : List α) {b : β} (hb : S b)
    (hl : ∀ a ∈ l, R a) (hw : J w) (hf : ∀ b a w, S b → R a → J w → Ends J (fun b _ => S b) (f b a) w) :
    Ends J (fun b _ => S b) (l.foldlM f b) w := by
  induction l generalizing w b with
  | nil => exact .pure hw hb
  | cons a l ih =>
    rw [List.foldlM_cons]
    refine (hf b a w hb (hl a List.mem_cons_self) hw).bind fun b w₁ hw₁ hb => ?_
    exact ih hb (fun a ha => hl a (List.mem_cons_of_mem _ ha)) hw₁

/-- Two computations come to the same step by step. -/
theorem bind_agree {x y : Bridge α} {f g : α → Bridge β} (hx : x w = y w)
    (hf : ∀ a w', y w = some (.ok a, w') → f a w' = g a w') : (x >>= f) w = (y >>= g) w := by
  rw [bind_apply, bind_apply, hx]
  rcases hy : y w with _ | ⟨_ | a, w'⟩
  · rfl
  · rfl
  · exact hf a w' hy

/-- A text becomes a scalar, or is refused. -/
theorem hostText_cases (t : Text) (encoding : Value) :
    (∃ v, hostText t encoding = pure v ∧ ∀ id, v ≠ .obj id) ∨ ∃ f, hostText t encoding = throw f := by
  unfold hostText
  split
  · exact .inl ⟨_, rfl, fun _ => Value.noConfusion⟩
  · dsimp only
    split
    · split
      · exact .inl ⟨_, rfl, fun _ => Value.noConfusion⟩
      · exact .inr ⟨_, rfl⟩
    · split
      · exact .inr ⟨_, rfl⟩
      · exact .inr ⟨_, rfl⟩

/-! ### The programs that are run -/

/-- Whoever runs programs for the host runs the wrapping function of a state and the closing of a bare thread as they
run on the machine. Nothing is said of other programs: they may come to anything, or to nothing. -/
structure RunsOwn (E : Engine) (n state : Nat) : Prop where
  wraps : ∀ {w : World} {s : LuaState} (g : Lua.Value), w.states[state]? = some s → s.Wraps →
    E.run state (callProg s.wrapper [g]) w = (engine (n + 1)).run state (callProg s.wrapper [g]) w
  closes : ∀ {w : World} {s : LuaState} {t : Nat}, w.states[state]? = some s → s.machine.Bare t →
    E.run state (callProg (.builtin .coClose) [.thread t]) w =
      (engine (n + 1)).run state (callProg (.builtin .coClose) [.thread t]) w

/-- Objects are dropped, one after another. What is a handle tries to close its coroutine, if it has one; what that
raises is lost. -/
def dropAll (E : Engine) (ids : List Nat) : Bridge Unit := ids.forM fun id => discard (attempt (closeCoroutine E id))

theorem runsOwn_engine (n state : Nat) : RunsOwn (engine (n + 1)) n state := ⟨fun _ _ _ => rfl, fun _ _ => rfl⟩

section Lent

variable {E : Engine} {n state : Nat} {w₀ w : World} {s : LuaState} {H : Nat → Prop} (hown : RunsOwn E n state)
  (hs : w₀.states[state]? = some s) (hwraps : s.Wraps) (hcur : s.machine.current < s.machine.threads.size)
  (hH : w₀.HostOwned H)

/-- The state has gone on to another machine, on which the current thread and the wrapping function are in place. -/
structure InPlace (w : World) (state : Nat) (s : LuaState) (m : Lua.Machine) : Prop where
  found : w.states[state]? = some { s with machine := m }
  spares : s.machine.Spares (· < s.machine.threads.size) m
  current : m.current < m.threads.size
  wraps : LuaState.Wraps { s with machine := m }

include hs hwraps hcur in
theorem inPlace_lent (hw : w₀.Lent state s w) : ∃ m, InPlace w state s m := by
  obtain ⟨m, hm, hspares⟩ := hw.machine hs
  obtain ⟨id, cells, hwrapper, hid⟩ := hwraps
  exact ⟨m, hm, hspares, hspares.current ▸ Nat.lt_of_lt_of_le hcur hspares.size_le, id, cells, hwrapper,
    hspares.heap.closures hid⟩

include hs hwraps hcur

theorem ends_threadOf (hw : w₀.Lent state s w) (f : Lua.Value) :
    Ends (w₀.Lent state s) (fun v w => w.NewThread state s v) (threadOf state f) w := by
  obtain ⟨m, hm⟩ := inPlace_lent hs hwraps hcur hw
  let pushed : Lua.Machine := { m with threads := m.threads.push { rest := .fresh f } }
  have hnew : pushed.Bare m.threads.size :=
    ⟨Nat.ne_of_gt (Nat.zero_lt_of_lt hm.current), Nat.ne_of_gt hm.current, { rest := .fresh f },
      Array.getElem?_push_size, .inr ⟨f, rfl⟩, rfl, rfl⟩
  have hpush : m.Spares (· < m.threads.size) pushed := .push m _
  have hmade : w₀.Lent state s (w.withMachine state pushed) := by
    refine hw.withMachine hs hm.found hpush (fun t ht => Nat.lt_of_lt_of_le ht hm.spares.size_le) fun {t} ht => ?_
    obtain ⟨th, hth, -⟩ := ht.thread
    exact ht.spares hpush (Array.getElem?_eq_some_iff.mp hth).1
  refine .of_ok (threadOf_apply hm.found f) (hmade.push _ ?_ ?_) (.inr ⟨m.threads.size, ⟨_, rfl, ?_⟩, ?_, ?_⟩)
  · rintro _ ⟨⟩
    rfl
  · rintro _ ⟨⟩
  · exact Array.getElem?_push_size
  · exact hm.spares.size_le
  · exact ⟨_, withMachine_states hm.found, hnew⟩

include hown

/-- The wrapping function is called. -/
theorem ends_wrapper (hw : w₀.Lent state s w) {o : Nat} {g : Guest} (ho : w.objects[o]? = some (.guest g))
    (hg : g.state = state) :
    Ends (w₀.Lent state s) (fun _ _ => True) (callLua E state s.wrapper [.obj o]) w := by
  obtain ⟨m, hm⟩ := inPlace_lent hs hwraps hcur hw
  obtain ⟨id, cells, hwrapper, hid⟩ := hm.wraps
  have hwrapper : s.wrapper = .closure id := hwrapper
  have hpush : [Value.obj o].mapM (push state) w = some (.ok [g.value], w) := by
    rw [List.mapM_cons, bind_ok (push_guest ho hg)]
    rfl
  obtain ⟨ended, r, hrun, halone, hr⟩ := run_wrapping hid g.value 999999999995
  let m' : Lua.Machine := ended.leave m.current m.mainStack
  have hspares : m.Spares (fun _ => True) m' := halone.spares hm.current trivial
  have hlent : w₀.Lent state s (w.withMachine state m') :=
    hw.withMachine hs hm.found hspares (fun _ _ => trivial) fun ht => ht.spares hspares trivial
  have hcall : E.run state (callProg s.wrapper [g.value]) w = some (.ok r, w.withMachine state m') := by
    rw [hown.wraps g.value hm.found hm.wraps, hwrapper]
    exact engineRun_over hm.found hrun
  refine .step hpush (.step hcall ?_)
  rcases hr with ⟨c, rfl⟩ | ⟨e, rfl, he⟩
  · have hfetch : fetch state (.closure c) (w.withMachine state m') = _ := fetch_inr (withMachine_states hm.found) rfl
    refine .of_ok (a := [.obj w.objects.size]) ?_ (hlent.push (.guest ⟨state, .closure c, false⟩) ?_ ?_) trivial
    · dsimp only
      rw [fetchAll, List.mapM_cons, bind_ok hfetch]
      rfl
    · rintro _ ⟨⟩
      rfl
    · rintro _ ⟨⟩
  · obtain ⟨f, hf, -⟩ : ∃ f, (raiseThrown state e : Bridge (List Value)) (w.withMachine state m') =
        some (.error f, w.withMachine state m') ∧ f.isOrdinary = true := raiseThrown_text he _
    exact .of_error hf hlent

theorem ends_newThread (hw : w₀.Lent state s w) {o : Nat} {g : Guest} (ho : w.objects[o]? = some (.guest g))
    (hg : g.state = state) :
    Ends (w₀.Lent state s) (fun v w => w.NewThread state s v) (newThread E state (.obj o)) w := by
  have hthread (w' : World) (hw' : w₀.Lent state s w') (f : Lua.Value) := ends_threadOf hs hwraps hcur hw' f
  obtain ⟨m, hm⟩ := inPlace_lent hs hwraps hcur hw
  refine .step (object_apply o w) ?_
  rw [ho, Option.getD_some]
  obtain ⟨i, f, unstarted⟩ := g
  obtain rfl : state = i := hg.symm
  cases f with
  | closure c => exact hthread _ hw _
  | _ =>
    refine .step (state?_apply state w) ?_
    rw [hm.found]
    refine (ends_wrapper hown hs hwraps hcur hw ho rfl).bind fun vs w₁ hw₁ _ => ?_
    split
    · next wrapped =>
      refine .step (object_apply wrapped w₁) ?_
      split
      · exact hthread _ hw₁ _
      · exact .pure hw₁ (.inl rfl)
    · exact .pure hw₁ (.inl rfl)

/-- A new thread is made for a guest, or its refusal is reported. -/
theorem ends_createThread (hw : w₀.Lent state s w) {o : Nat} {g : Guest} (ho : w.objects[o]? = some (.guest g))
    (hg : g.state = state) :
    Ends (w₀.Lent state s) (fun v w => w.NewThread state s v) (createThread E state (.obj o)) w := by
  have hreport (message : Text) {w : World} (hw : w₀.Lent state s w) :
      Ends (w₀.Lent state s) (fun v w => w.NewThread state s v) (do
        reportTo state message
        return .none) w := by
    obtain ⟨m, hm⟩ := inPlace_lent hs hwraps hcur hw
    refine .step (reportTo_apply hm.found) (.pure (hw.beside rfl rfl rfl) (.inl rfl))
  obtain ⟨m, hm⟩ := inPlace_lent hs hwraps hcur hw
  refine .step (isOpen_apply hm.found) ?_
  dsimp only
  split_ifs
  · exact hreport _ hw
  · refine (ends_newThread hown hs hwraps hcur hw ho hg).protectedCall.bind fun r w' hw' hr => ?_
    cases r with
    | ok v => exact .pure hw' (hr v rfl)
    | error e => exact hreport _ hw'

/-! ### Host forms -/

omit hown hwraps hcur in
/-- What is fetched for a value is new, if it is an object, or the host's own object that the value is. -/
theorem ends_fetch (hw : w₀.Lent state s w) {v : Lua.Value} (hv : ∀ id, v = .host id → H id) :
    Ends (w₀.Lent state s) (fun u _ => w₀.NewOr H u) (fetch state v) w := by
  obtain ⟨m, hm, -⟩ := hw.machine hs
  cases hf : fetched { s with machine := m } state v with
  | inl u =>
    refine .of_ok (fetch_inl hm hf) hw fun id hid => ?_
    by_cases hhost : ∃ n, v = .host n
    · obtain ⟨n, rfl⟩ := hhost
      have hu : (if n = Value.nothingId then .none else .obj n) = u := Sum.inl.inj hf
      rw [hid] at hu
      split_ifs at hu
      obtain rfl := Value.obj.inj hu
      exact .inr (hv n rfl)
    · exact absurd (hid ▸ hf) (fetched_ne_obj (fun n hn => hhost ⟨n, hn⟩) id)
  | inr g =>
    have hg : g.state = state := by
      rcases fetched_guest hf with ⟨rfl, -⟩ | ⟨t, f, -, -, rfl⟩ <;> rfl
    refine .of_ok (fetch_inr hm hf) (hw.push (.guest g) ?_ ?_) fun id hid => .inl (Value.obj.inj hid ▸ hw.size_le)
    · rintro _ ⟨⟩
      exact hg
    · rintro _ ⟨⟩

include hH

/-- What has been fetched gets its host form: if that is an object, it is new as well. -/
theorem ends_toHost (hw : w₀.Lent state s w) {u : Value} (hu : w₀.NewOr H u) :
    Ends (w₀.Lent state s) (fun x _ => w₀.NewOr H x) (toHost E state u) w := by
  obtain ⟨m, hm⟩ := inPlace_lent hs hwraps hcur hw
  have hnew {w : World} (hw : w₀.Lent state s w) : w₀.NewOr H (.obj w.objects.size) := fun id hid =>
    .inl (Value.obj.inj hid ▸ hw.size_le)
  have hborrows (kind : HandleKind) :
      Ends (w₀.Lent state s) (fun x _ => w₀.NewOr H x) (newHandle { kind, state, guest := u }) w := by
    refine .of_ok (newObject_apply _ w) (hw.push _ ?_ ?_) (hnew hw)
    · rintro _ ⟨⟩
    · rintro _ ⟨⟩ ⟨⟩
  cases u with
  | text t =>
    refine .step (configOf_apply hm.found) ?_
    rcases hostText_cases t ((w.configs[s.config]?).getD {}).encoding with ⟨x, hx, hobj⟩ | ⟨f, hf⟩
    · exact hx ▸ .pure hw fun id hid => absurd hid (hobj id)
    · exact hf ▸ .of_error (throw_apply f w) hw
  | float x =>
    refine .step (state?_apply state w) ?_
    rw [hm.found]
    refine .pure hw fun id hid => ?_
    dsimp only at hid
    unfold wholeFloat at hid
    split_ifs at hid
    split at hid <;> cases hid
  | obj id =>
    refine .step (object_apply id w) ?_
    cases ho : w.objects[id]? with
    | none => exact .pure hw hu
    | some o =>
      cases o with
      | guest g =>
        have hg : g.state = state := hw.guest_state hH hu ho
        rw [Option.getD_some]
        dsimp only
        split_ifs
        · refine (ends_createThread hown hs hwraps hcur hw ho hg).bind fun v w' hw' hv => ?_
          refine .of_ok (newObject_apply _ w') (hw'.push _ ?_ ?_) (hnew hw')
          · rintro _ ⟨⟩
          · rintro _ ⟨⟩ -
            exact ⟨rfl, hv⟩
        · cases g.value with
          | table | closure | builtin | wrapped | thread => exact hborrows _
          | _ => exact .pure hw hu
      | _ => exact .pure hw hu
  | _ => exact .pure hw hu

/-! ### Whoever runs programs -/

omit hH in
theorem newThread_own (hw : w₀.Lent state s w) {o : Nat} {g : Guest} (ho : w.objects[o]? = some (.guest g))
    (hg : g.state = state) : newThread E state (.obj o) w = newThread (engine (n + 1)) state (.obj o) w := by
  obtain ⟨m, hm⟩ := inPlace_lent hs hwraps hcur hw
  obtain ⟨i, f, unstarted⟩ := g
  obtain rfl : state = i := hg.symm
  have hpush : [Value.obj o].mapM (push state) w = some (.ok [f], w) := by
    rw [List.mapM_cons, bind_ok (push_guest ho rfl)]
    rfl
  have hcall : callLua E state s.wrapper [.obj o] w = callLua (engine (n + 1)) state s.wrapper [.obj o] w := by
    have hrun := hown.wraps f hm.found hm.wraps
    rw [callLua, callLua, bind_ok hpush, bind_ok hpush]
    exact bind_congr_left hrun
  rw [newThread, newThread, bind_ok (object_apply o w), bind_ok (object_apply o w), ho, Option.getD_some]
  cases f with
  | closure c => rfl
  | _ =>
    dsimp only
    rw [bind_ok (state?_apply state w), bind_ok (state?_apply state w), hm.found]
    exact bind_congr_left hcall

omit hH in
theorem createThread_own (hw : w₀.Lent state s w) {o : Nat} {g : Guest} (ho : w.objects[o]? = some (.guest g))
    (hg : g.state = state) : createThread E state (.obj o) w = createThread (engine (n + 1)) state (.obj o) w := by
  obtain ⟨m, hm⟩ := inPlace_lent hs hwraps hcur hw
  rw [createThread, createThread, bind_ok (isOpen_apply hm.found), bind_ok (isOpen_apply hm.found)]
  dsimp only
  split_ifs
  · rfl
  · exact bind_congr_left (protectedCall_congr (newThread_own hown hs hwraps hcur hw ho hg))

/-- What has been fetched gets the same host form whoever runs programs. -/
theorem toHost_own (hw : w₀.Lent state s w) {u : Value} (hu : w₀.NewOr H u) :
    toHost E state u w = toHost (engine (n + 1)) state u w := by
  cases u with
  | obj id =>
    rw [toHost, toHost, bind_ok (object_apply id w), bind_ok (object_apply id w)]
    cases ho : w.objects[id]? with
    | none => rfl
    | some o =>
      cases o with
      | guest g =>
        have hg : g.state = state := hw.guest_state hH hu ho
        rw [Option.getD_some]
        dsimp only
        split_ifs
        · exact bind_congr_left (createThread_own hown hs hwraps hcur hw ho hg)
        · rfl
      | _ => rfl
  | _ => rfl

/-! ### Closing -/

omit hH

/-- `coroutine.close` is called on a new thread that is bare. -/
theorem ends_coClose (hw : w₀.Lent state s w) {thread : Value} {t : Nat} (ht : w.IsThread state thread t)
    (hnew : s.machine.threads.size ≤ t) (hbare : w.Bare state t) :
    Ends (w₀.Lent state s) (fun vs _ => vs = [.bool true]) (callLua E state (.builtin .coClose) [thread]) w := by
  obtain ⟨m, hm⟩ := inPlace_lent hs hwraps hcur hw
  obtain ⟨s', hs', ht'⟩ := hbare
  obtain rfl := Option.some.inj (hs'.symm.trans hm.found)
  have ht' : m.Bare t := ht'
  obtain ⟨m', r, hrun, hspares, hclosed, hr⟩ := run_coClose_bare ht' hm.current 999999999995
  have hlent : w₀.Lent state s (w.withMachine state m') := by
    refine hw.withMachine hs hm.found hspares (fun u hu => Nat.ne_of_lt (Nat.lt_of_lt_of_le hu hnew)) fun {u} hu => ?_
    by_cases heq : u = t
    · exact heq ▸ hclosed
    · exact hu.spares hspares heq
  have hcall : E.run state (callProg (.builtin .coClose) [.thread t]) w = some (.ok r, w.withMachine state m') := by
    rw [hown.closes hm.found ht']
    exact engineRun_builtin hm.found hrun
  refine .step (mapM_push_thread ht rfl) (.step hcall ?_)
  rcases hr with rfl | ⟨e, rfl, he⟩
  · have hfetch : fetch state (.bool true) (w.withMachine state m') = _ := fetch_inl (withMachine_states hm.found) rfl
    refine .of_ok ?_ hlent rfl
    dsimp only
    rw [fetchAll, List.mapM_cons, bind_ok hfetch]
    rfl
  · obtain ⟨f, hf, -⟩ : ∃ f, (raiseThrown state e : Bridge (List Value)) (w.withMachine state m') =
        some (.error f, w.withMachine state m') ∧ f.isOrdinary = true := raiseThrown_text he _
    exact .of_error hf hlent

/-- An attempt is made to close what has come. -/
theorem ends_closeCoroutine (hw : w₀.Lent state s w) {id : Nat} (hid : w₀.objects.size ≤ id) :
    Ends (w₀.Lent state s) (fun _ _ => True) (closeCoroutine E id) w := by
  by_cases hhandle : ∃ h, w.objects[id]? = some (.handle h)
  · obtain ⟨h, hh⟩ := hhandle
    have hshut := hw.shut hid hh
    by_cases hdue : ∃ s', w.states[h.state]? = some s' ∧ Closable w h s'
    · obtain ⟨s', hs', hc⟩ := hdue
      have hown' := hshut.owned hid ((withHandle_objects hh id).trans (if_pos rfl)) hc.owns
      have hstate : h.state = state := hown'.state_eq
      have hguest : h.guest ≠ .none := by
        intro hnone
        have hvalid := Except.ok.inj (Prod.mk.inj (Option.some.inj ((valid_apply h w).symm.trans hc.valid))).1
        simp [World.valid, Handle.stands, hnone] at hvalid
      obtain ⟨t, ht, hnew, hbare⟩ := hown'.thread.resolve_left hguest
      unfold Ends
      rw [closeCoroutine_due E hh hs' hc, hstate]
      refine Ends.holding (P := fun _ _ => True) ?_ fun w' hw' => hw'.release _
      refine (ends_coClose hown hs hwraps hcur (hshut.hold _ _) ht hnew hbare).protectedCall.bind fun r w' hw' hr => ?_
      cases r with
      | error e => exact .of_ok rfl (hw'.beside rfl rfl rfl) trivial
      | ok vs =>
        obtain rfl := hr vs rfl
        exact .pure hw' trivial
    · have hnot (s' : LuaState) (hs' : w.states[h.state]? = some s') : ¬ Closable w h s' := fun hc => hdue ⟨s', hs', hc⟩
      obtain ⟨r, hr⟩ := closeCoroutine_undue E hh hnot
      exact ⟨r, _, hr, hshut, fun _ _ => trivial⟩
  · refine .step (object_apply id w) ?_
    cases ho : w.objects[id]? with
    | none => exact .pure hw trivial
    | some o =>
      cases o with
      | handle h => exact absurd ⟨h, ho⟩ hhandle
      | _ => exact .pure hw trivial

/-- What has come can be dropped, in any order. -/
theorem ends_dropAll (hw : w₀.Lent state s w) (ids : List Nat) (hids : ∀ id ∈ ids, w₀.objects.size ≤ id) :
    ∃ w', dropAll E ids w = some (.ok ⟨⟩, w') ∧ w₀.Lent state s w' := by
  induction ids generalizing w with
  | nil => exact ⟨w, rfl, hw⟩
  | cons id ids ih =>
    obtain ⟨r, w₁, hr, hw₁, -⟩ := ends_closeCoroutine hown hs hwraps hcur hw (hids id List.mem_cons_self)
    obtain ⟨w₂, hw₂, hlent⟩ := ih hw₁ fun i hi => hids i (List.mem_cons_of_mem _ hi)
    have hdrop : discard (attempt (closeCoroutine E id)) w = some (.ok ⟨⟩, w₁) := by
      rw [discard_apply, attempt_apply, hr]
      rfl
    exact ⟨w₂, (bind_ok hdrop).trans hw₂, hlent⟩

end Lent

end Bridge

end HostedLua
