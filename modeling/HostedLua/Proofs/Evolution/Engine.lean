import HostedLua.Proofs.Evolution.Language
import Mathlib.Logic.Relation

/-! What Lua code and callbacks change. A call by the host runs a machine that leaves the main thread as it was,
and whatever callbacks do in between keeps it too, by induction on how deep calls nest. -/

namespace HostedLua

open Host

namespace Bridge

section Callbacks

variable {I : World → Prop} {R : World → World → Prop} [Admits I R]

/-- Finding the handle that a variable names. -/
theorem keeps_target (var : Text) : Keeps I R (do
    match ← variableNamed? var with
    | some v => handle? v
    | none => return none) := by
  refine (keeps_variableNamed? var).bind fun v => ?_
  split
  · exact keeps_handle? _
  · exact .pure _

theorem keeps_soleObject (isIt : Object → Bool) (o : Object) : Keeps I R (soleObject isIt o) := by
  refine Keeps.get.bind fun w => ?_
  split
  · exact .pure _
  · exact keeps_newObject o

theorem keeps_typedNames (names : List (String × String)) : Keeps I R (typedNames names) :=
  .mapM (fun _ => (keeps_newObject _).bind fun _ => .pure _) names

theorem keeps_moduleNames : Keeps I R moduleNames :=
  (keeps_typedNames _).bind fun _ => (keeps_typedNames _).bind fun _ =>
    (keeps_soleObject _ _).bind fun _ => keeps_newObject _

theorem keeps_attribute (o : Object) : ∀ p ∈ attributes o, Keeps I R p.2 := by
  unfold attributes
  split
  · simp only [List.forall_mem_cons]
    exact ⟨.pure _, .pure _, List.forall_mem_nil _⟩
  · next h =>
    have hstate : Keeps I R (do if ← isAlive h.state then stateObject h.state else return .none) := by
      refine (keeps_isAlive _).bind fun alive => ?_
      split
      · exact keeps_soleObject _ _
      · exact .pure _
    simp only [List.forall_mem_append, List.forall_mem_cons]
    refine ⟨⟨hstate, .pure _, (keeps_isValid h).map, List.forall_mem_nil _⟩, ?_⟩
    split_ifs
    · simp only [List.forall_mem_cons]
      exact ⟨.pure _, .pure _, List.forall_mem_nil _⟩
    · exact List.forall_mem_nil _
  · simp only [List.forall_mem_cons]
    exact ⟨.pure _, .pure _, List.forall_mem_nil _⟩
  · simp only [List.forall_mem_cons]
    exact ⟨.pure _, .pure _, .pure _, keeps_moduleNames, List.forall_mem_nil _⟩
  · exact List.forall_mem_nil _

theorem keeps_attributeOf (o : Object) (name : Text) : Keeps I R (attributeOf o name) := by
  unfold attributeOf
  split
  · next h => exact keeps_attribute o _ (List.mem_of_find?_eq_some h)
  · split
    · exact keeps_newObject _
    · exact .raise _ _

variable {E : Engine} (hE : EngineKeeps I R E)

include hE

theorem keeps_getMember (id : Nat) (key : Value) : Keeps I R (getMember E id key) := by
  refine (keeps_object id).bind fun o => ?_
  split_ifs
  · exact keeps_getItem hE _ _
  · split
    · exact (keeps_attributeOf o _).bind fun _ => .pure _
    · exact (keeps_typeName _).bind fun _ => .raise _ _

theorem keeps_makeError (args : List Value) : Keeps I R (makeError E args) := by
  have hstatus (v : Value) : Keeps I R (statusOf E v) := by
    refine Keeps.get.bind fun w => ?_
    split
    · exact .pure _
    · exact (keeps_repr hE v).bind fun _ => .raise _ _
  unfold makeError
  split
  · exact .pure _
  · exact (hstatus _).bind fun _ => .pure _
  · exact (hstatus _).bind fun _ => (keeps_str hE _).bind fun _ => .pure _
  · exact .raise _ _

theorem keeps_lookAt (fuel deep : Nat) (v : Value) : Keeps I R (lookAt E fuel deep v) := by
  induction fuel generalizing deep v with
  | zero => exact keeps_failNesting
  | succ fuel ih =>
    have hpair (deep : Nat) (p : Value × Value) : Keeps I R (do
        let k ← lookAt E fuel 0 p.1
        return (k, ← lookAt E fuel deep p.2)) := (ih 0 p.1).bind fun k => (ih deep p.2).bind fun v => .pure _
    have hpairs (deep : Nat) (ps : List (Value × Value)) := Keeps.mapM (hpair deep) ps
    have hall (vs : List Value) : Keeps I R (vs.mapM (lookAt E fuel deep)) := .mapM (ih deep) vs
    unfold lookAt
    split <;> try exact .pure _
    refine (keeps_object _).bind fun o => ?_
    split
    · exact (hall _).bind fun _ => .pure _
    · exact (hall _).bind fun _ => .pure _
    · exact (hpairs _ _).bind fun _ => .pure _
    · exact (hpairs _ _).bind fun _ => .pure _
    · exact .pure _
    · exact .pure _
    · exact .pure _
    · exact .pure _
    · refine (keeps_isValid _).bind fun valid => ?_
      split
      · exact .pure _
      · split
        · exact (keeps_toMapping hE _).bind fun ps => (hpairs _ ps).bind fun _ => .pure _
        · exact .pure _
      · exact .pure _
    · exact .pure _
    · exact .pure _
    · exact .pure _

omit [Admits I R] in
theorem keeps_runCallback [AdmitsPrint I R] (c : Callback) (args : List Value) : Keeps I R (runCallback E c args) := by
  cases c with
  | capture diagnostics =>
    have hprint := (keeps_print (keeps_printText hE) diagnostics args).bind fun _ => Keeps.pure Value.none
    rwa [bind_assoc] at hprint
  | errorClass => exact (keeps_makeError hE args).bind fun _ => keeps_newObject _
  | action a language =>
    refine (keeps_languageState language).bind fun state => ?_
    refine (Keeps.mapM (keeps_toHost hE state) args).bind fun hosted => ?_
    refine (Keeps.mapM (keeps_lookAt hE maxLook 0) hosted).bind fun views => (keeps_noteCall _).bind fun _ => ?_
    cases a with
    | args => exact keeps_newObject _
    | const v => exact .pure _
    | raise f => exact .throw _
    | invoke var =>
      refine (keeps_target var).bind fun t => ?_
      split
      · exact keeps_invoke hE _ _
      · exact .raise _ _
    | resume var =>
      refine (keeps_target var).bind fun t => ?_
      split
      · exact keeps_resume hE _ _ _
      · exact .raise _ _
    | close var =>
      refine (keeps_target var).bind fun t => ?_
      split
      · exact (keeps_closeCoroutine hE _).bind fun _ => .pure _
      · exact .raise _ _
    | finish => exact (keeps_finish language).bind fun _ => .pure _

omit hE in
theorem keeps_pushResult (state : Nat) (r : Value) : Keeps I R (pushResult state r) := by
  have hsingle : Keeps I R (do return [← push state r]) := (keeps_push state r).bind fun _ => .pure _
  unfold pushResult
  dsimp only
  split
  · refine (keeps_object _).bind fun o => (keeps_state? state).bind fun s => ?_
    split
    · split
      · exact .mapM (keeps_push state) _
      · exact hsingle
    · exact hsingle
  · exact hsingle

theorem keeps_callObject (state id : Nat) (args : List Lua.Value) : Keeps I R (callObject E state id args) := by
  refine (keeps_object id).bind fun o => ?_
  dsimp only
  split
  · exact (keeps_fetchAll state args).bind fun vs => (hE.callback _ vs).bind fun r => keeps_pushResult state r
  · split
    · exact (keeps_fetchAll state args).bind fun vs => (keeps_invoke hE _ vs).bind fun r => keeps_pushResult state r
    · exact .raise _ _
  · exact .raise _ _

theorem keeps_answer (state : Nat) (r : Lua.Request) : Keeps I R (answer E state r) := by
  cases r with
  | call id args => exact keeps_callObject hE state id args
  | text id => exact (keeps_str hE _).bind fun _ => (keeps_push _ _).bind fun _ => .pure _
  | get id key =>
    refine (keeps_fetch state key).bind fun k => (keeps_getMember hE id k).bind fun vs => ?_
    split
    · exact (keeps_pushKey _ _).bind fun _ => .pure _
    · exact .pure _
  | write b => exact Keeps.bind (keeps_modify fun _ => ⟨rfl, rfl, rfl, rfl, rfl, rfl, rfl⟩) fun _ => .pure _

theorem keeps_reply (state : Nat) (r : Lua.Request) : Keeps I R (reply E state r) := by
  refine (keeps_answer hE state r).attempt.bind fun a => ?_
  cases a with
  | ok vs => exact .pure _
  | error f =>
    refine (keeps_setPending state (some f)).bind fun _ => (keeps_newObject _).bind fun o => ?_
    split <;> exact .pure _

end Callbacks

theorem reply_ne_error {E : Engine} {state : Nat} {q : Lua.Request} {w w' : World} {e : Fault} :
    reply E state q w ≠ some (.error e, w') := by
  intro h
  rcases bind_some h with ⟨e', he, -⟩ | ⟨a, v, -, h⟩
  · obtain ⟨_, hr, -⟩ := attempt_some he
    contradiction
  · cases a <;> cases h

/-- The machine of a state gets what it asked for, and goes on. -/
theorem reply_some {E : Engine} {state fuel : Nat} {q : Lua.Request} {w w' : World}
    {r : Except Fault (Except Lua.Thrown (List Lua.Value))} (h : (do
      let a ← reply E state q
      match ← state? state with
      | some s => drive E state fuel (s.machine.answer a)
      | none => diverge) w = some (r, w')) :
    ∃ a v s, reply E state q w = some (.ok a, v) ∧ v.states[state]? = some s ∧
      drive E state fuel (s.machine.answer a) v = some (r, w') := by
  rcases bind_some h with ⟨e, he, -⟩ | ⟨a, v, ha, h⟩
  · exact absurd he reply_ne_error
  · rw [bind_ok (state?_apply state v)] at h
    cases hs : v.states[state]? with
    | none =>
      rw [hs] at h
      contradiction
    | some s =>
      rw [hs] at h
      exact ⟨a, v, s, ha, hs, h⟩

end Bridge

/-! ### The machine of a state under way -/

namespace World

variable {w w' : World} {state : Nat} {s : LuaState} {m b : Lua.Machine}

def withMachine (w : World) (state : Nat) (m : Lua.Machine) : World :=
  { w with states := w.states.modify state ({ · with machine := m }) }

theorem withMachine_states (h : w.states[state]? = some s) :
    (w.withMachine state m).states[state]? = some { s with machine := m } := by
  simp [withMachine, Array.getElem?_modify, h]

theorem withMachine_withMachine : (w.withMachine state m).withMachine state b = w.withMachine state b := by
  simp only [withMachine, modify_modify]

theorem withMachine_self (h : w.states[state]? = some s) : w.withMachine state s.machine = w := by
  have hsame : w.states.modify state ({ · with machine := s.machine }) = w.states := by
    refine modify_self fun s' hs' => ?_
    obtain rfl := Option.some.inj (h.symm.trans hs')
    rfl
  simp only [withMachine, hsame]

theorem Sound.withMachine (hw : w.Sound) (hm : m.Sound) : (w.withMachine state m).Sound :=
  hw.modify fun _ => hm

/-- Whatever its machine has come to meanwhile, a state that is given its old one again has changed no more
than it may. -/
theorem Kept.withMachine (h : (w.withMachine state m).Kept w') :
    (w.withMachine state b).Kept (w'.withMachine state b) := by
  refine ⟨h.configs, h.guests, h.handles, fun {i s} hs => ?_⟩
  simp only [World.withMachine, Array.getElem?_modify] at hs ⊢
  split_ifs at hs ⊢ with hi
  · subst hi
    obtain ⟨s₀, hs₀, rfl⟩ := Option.map_eq_some_iff.mp hs
    obtain ⟨s', hs', hk⟩ := h.states (withMachine_states hs₀)
    exact ⟨{ s' with machine := b }, by rw [hs']; rfl, hk.config, hk.charset, hk.opened, .refl _⟩
  · refine h.states ?_
    rw [World.withMachine, Array.getElem?_modify, if_neg hi, hs]

/-- A machine that has gone on from where its call began is one that the state may have. -/
theorem Kept.of_machine (h : w.states[state]? = some s) (hk : s.machine.Kept m) :
    w.Kept (w.withMachine state m) := by
  refine .modify fun {s'} hs' => ?_
  obtain rfl := Option.some.inj (h.symm.trans hs')
  exact ⟨rfl, rfl, id, hk⟩

end World

namespace Bridge

open World Lua.Machine

variable {E : Engine} {w w' : World} {state : Nat} {s : LuaState} {b m : Lua.Machine} {I : Lua.Machine → Prop}
  {Q : Lua.Machine → Except Lua.Thrown (List Lua.Value) → Prop}

/-- A call by the host that runs on a machine of a state goes on: the machine steps, or gets the answer to what it
asks. -/
inductive Goes (E : Engine) (state : Nat) : World × Lua.Machine → World × Lua.Machine → Prop where
  | steps {w : World} {m m' : Lua.Machine} (step : m.step = .inl m') : Goes E state (w, m) (w, m')
  | answered {w v : World} {m m' : Lua.Machine} {q : Lua.Request} {a : Except Lua.Value (List Lua.Value)}
    {s : LuaState} (step : m.step = .inr (m', .asks q))
    (reply : reply E state q (w.withMachine state m') = some (.ok a, v)) (found : v.states[state]? = some s) :
    Goes E state (w, m) (v, s.machine.answer a)

/-- What a call by the host comes to on its way. -/
abbrev Reaches (E : Engine) (state : Nat) : World × Lua.Machine → World × Lua.Machine → Prop :=
  Relation.ReflTransGen (Goes E state)

theorem reaches_run {m' : Lua.Machine} {stop : Lua.Stop} {fuel : Nat} (h : m.run fuel = some (m', stop)) :
    ∃ m₁, Reaches E state (w, m) (w, m₁) ∧ m₁.step = .inr (m', stop) := by
  induction fuel generalizing m with
  | zero => contradiction
  | succ fuel ih =>
    rw [Lua.Machine.run] at h
    cases hstep : m.step with
    | inl m₁ =>
      rw [hstep] at h
      obtain ⟨m₂, hreaches, hstop⟩ := ih h
      exact ⟨m₂, .head (.steps hstep) hreaches, hstop⟩
    | inr stop =>
      rw [hstep] at h
      exact ⟨m, .refl, hstep.trans (congrArg _ (Option.some.inj h))⟩

/-- A call by the host that ends has come to a machine that is done. -/
theorem reaches_drive {fuel : Nat} {r : Except Fault (Except Lua.Thrown (List Lua.Value))}
    (h : drive E state fuel m w = some (r, w')) : ∃ res v m₁ m', r = .ok res ∧
      Reaches E state (w, m) (v, m₁) ∧ m₁.step = .inr (m', .done res) ∧ w' = World.withMachine v state m' := by
  induction fuel generalizing m w with
  | zero => contradiction
  | succ fuel ih =>
    rw [drive] at h
    cases hstop : m.run maxSteps with
    | none =>
      rw [hstop] at h
      contradiction
    | some p =>
      obtain ⟨m', stop⟩ := p
      rw [hstop] at h
      obtain ⟨m₁, hreaches, hstep⟩ : ∃ m₁, Reaches E state (w, m) (w, m₁) ∧ m₁.step = .inr (m', stop) :=
        reaches_run hstop
      cases stop with
      | done res =>
        obtain ⟨rfl, rfl⟩ := Prod.mk.inj (Option.some.inj h)
        exact ⟨res, w, m₁, m', rfl, hreaches, hstep, rfl⟩
      | asks q =>
        obtain ⟨a, v, s, hreply, hs, hrest⟩ := reply_some h
        obtain ⟨res, v', m₂, m'', hr, hreaches', hdone, hw'⟩ := ih hrest
        exact ⟨res, v', m₂, m'', hr, hreaches.trans (.head (.answered hstep hreply hs) hreaches'), hdone, hw'⟩

/-- While the host answers, nothing changes but what may, in the machine at hand and in the world otherwise. -/
theorem answered_keeps (hE : EngineKeeps World.Sound World.Kept E) (hb : b.Sound) (hm : m.Sound) {q : Lua.Request}
    {a : Except Lua.Value (List Lua.Value)} {t : LuaState} (hs : w.states[state]? = some s)
    (hsound : (w.withMachine state b).Sound) (hreply : reply E state q (w.withMachine state m) = some (.ok a, w'))
    (ht : w'.states[state]? = some t) : m.Kept t.machine ∧ t.machine.Sound ∧ (w'.withMachine state b).Sound ∧
      (w.withMachine state b).Kept (w'.withMachine state b) := by
  have hw : (w.withMachine state m).Sound := by
    rw [← withMachine_withMachine (m := b)]
    exact hsound.withMachine hm
  obtain ⟨hw', hk⟩ := keeps_reply hE state q hw hreply
  obtain ⟨t', ht', hkt⟩ := hk.states (withMachine_states hs)
  obtain rfl := Option.some.inj (ht.symm.trans ht')
  exact ⟨hkt.machine, hw' ht, hw'.withMachine hb, hk.withMachine⟩

/-- What lasts while a call by the host runs holds wherever the call comes to, and nothing has changed otherwise but
what may. -/
theorem reaches_lasts (hE : EngineKeeps World.Sound World.Kept E) (h : Lasts I Q) (hb : b.Sound)
    {p q : World × Lua.Machine} (hreaches : Reaches E state p q) (hm : I p.2) (hs : ∃ s, p.1.states[state]? = some s)
    (hsound : (p.1.withMachine state b).Sound) : I q.2 ∧ (∃ s, q.1.states[state]? = some s) ∧
      (q.1.withMachine state b).Sound ∧ (p.1.withMachine state b).Kept (q.1.withMachine state b) := by
  induction hreaches with
  | refl => exact ⟨hm, hs, hsound, .refl _⟩
  | tail _ goes ih =>
    obtain ⟨hm, ⟨s, hs⟩, hsound, hk⟩ := ih
    cases goes with
    | steps step => exact ⟨h.step hm step, ⟨s, hs⟩, hsound, hk⟩
    | answered step reply found =>
      obtain ⟨hsound', hI⟩ := h.asks hm step
      obtain ⟨hkm, hmt, hv, hk'⟩ := answered_keeps hE hb hsound' hs hsound reply found
      exact ⟨hI _ hkm hmt, ⟨_, found⟩, hv, hk.trans hk'⟩

/-- A call by the host runs to its end with a property that lasts: the machine is then one of which its end
holds, and nothing else has changed but what may. -/
theorem drive_lasts (hE : EngineKeeps World.Sound World.Kept E) (h : Lasts I Q) (hb : b.Sound) {fuel : Nat}
    {r : Except Fault (Except Lua.Thrown (List Lua.Value))} (hm : I m) (hs : w.states[state]? = some s)
    (hsound : (w.withMachine state b).Sound) (hrun : drive E state fuel m w = some (r, w')) :
    ∃ res m' v, r = .ok res ∧ Q m' res ∧ w' = World.withMachine v state m' ∧ (∃ s', v.states[state]? = some s') ∧
      (v.withMachine state b).Sound ∧ (w.withMachine state b).Kept (v.withMachine state b) := by
  obtain ⟨res, v, m₁, m', hr, hreaches, hdone, hw'⟩ := reaches_drive hrun
  obtain ⟨hm₁, hfound, hv, hk⟩ := reaches_lasts hE h hb hreaches hm ⟨s, hs⟩ hsound
  exact ⟨res, m', v, hr, h.done hm₁ hdone, hw', hfound, hv, hk⟩

/-- Only a state that there is runs programs. -/
theorem engineRun_some {n : Nat} {p : Lua.Prog} {r : Except Fault (Except Lua.Thrown (List Lua.Value))}
    (h : (engine (n + 1)).run state p w = some (r, w')) :
    ∃ s, w.states[state]? = some s ∧ drive (engine n) state maxSteps (s.machine.enter p) w = some (r, w') := by
  rw [engine] at h
  dsimp only at h
  rw [bind_ok (state?_apply state w)] at h
  cases hs : w.states[state]? with
  | none =>
    rw [hs] at h
    contradiction
  | some s =>
    rw [hs] at h
    exact ⟨s, rfl, h⟩

/-- What lasts while a program runs holds of its end, and nothing has changed but what may. -/
theorem engineRun_lasts {n : Nat} {p : Lua.Prog} {r : Except Fault (Except Lua.Thrown (List Lua.Value))}
    (hE : EngineKeeps World.Sound World.Kept (engine n)) (hw : w.Sound) (hs : w.states[state]? = some s) (h : Lasts I Q)
    (hI : I (s.machine.enter p)) (hrun : (engine (n + 1)).run state p w = some (r, w')) :
    ∃ res m', r = .ok res ∧ Q m' res ∧ w'.Sound ∧ w.Kept w' := by
  have hb : s.machine.Sound := hw hs
  have hself : w.withMachine state s.machine = w := withMachine_self hs
  obtain ⟨s', hs', hdrive⟩ := engineRun_some hrun
  obtain rfl := Option.some.inj (hs.symm.trans hs')
  obtain ⟨res, m', v, hr, ⟨⟨hm', hkept⟩, hQ⟩, rfl, ⟨t, ht⟩, hv, hk⟩ :=
    drive_lasts hE ((lasts_underWay s.machine).and h) hb ⟨underWay_enter hb, hI⟩ hs (hself.symm ▸ hw) hdrive
  rw [hself] at hk
  have hend : (v.withMachine state s.machine).withMachine state m' = v.withMachine state m' :=
    withMachine_withMachine
  rw [← hend]
  exact ⟨res, m', hr, hQ, hv.withMachine hm', hk.trans (.of_machine (withMachine_states ht) hkept)⟩

/-! ### Any invariant -/

section Any

variable {J : World → Prop} {R : World → World → Prop}

/-- Lua code keeps what the host's answers keep, if machines may go on. -/
theorem keeps_drive_of [Admits J R] (hmachine : ∀ w state m, J w → J (withMachine w state m) ∧ R w (withMachine w state m))
    (hE : EngineKeeps J R E) (state fuel : Nat) (m : Lua.Machine) : Keeps J R (drive E state fuel m) := by
  have hset (m : Lua.Machine) : Keeps J R (modifyState state ({ · with machine := m })) := by
    intro w r w' hw h
    obtain ⟨-, rfl⟩ := Prod.mk.inj (Option.some.inj h)
    exact hmachine w state m hw
  induction fuel generalizing m with
  | zero => exact .diverge
  | succ fuel ih =>
    rw [drive]
    split
    · exact .diverge
    · exact (hset _).bind fun _ => .pure _
    · refine (hset _).bind fun _ => (keeps_reply hE _ _).bind fun a => (keeps_state? _).bind fun s => ?_
      split
      · exact ih _
      · exact .diverge

/-- What callbacks keep and machines that go on, Lua code keeps too. -/
theorem engine_keeps_of [AdmitsPrint J R]
    (hmachine : ∀ w state m, J w → J (withMachine w state m) ∧ R w (withMachine w state m)) (n : Nat) :
    EngineKeeps J R (engine n) := by
  induction n with
  | zero => exact ⟨fun _ _ => keeps_failNesting, fun _ _ => keeps_failNesting⟩
  | succ n ih =>
    refine ⟨fun state p => (keeps_state? state).bind fun s => ?_, fun c args => keeps_runCallback ih c args⟩
    split
    · exact keeps_drive_of hmachine ih _ _ _
    · exact .diverge

end Any

/-- Whatever Lua code and callbacks do, they change no more than they may. -/
theorem engine_keeps (n : Nat) : EngineKeeps World.Sound World.Kept (engine n) := by
  induction n with
  | zero => exact ⟨fun _ _ => keeps_failNesting, fun _ _ => keeps_failNesting⟩
  | succ n ih =>
    refine ⟨fun state p w r w' hw hrun => ?_, fun c args => keeps_runCallback ih c args⟩
    obtain ⟨s, hs, -⟩ := engineRun_some hrun
    obtain ⟨_, _, -, -, hw', hk⟩ := engineRun_lasts ih hw hs (lasts_underWay s.machine) (underWay_enter (hw hs)) hrun
    exact ⟨hw', hk⟩

end Bridge

end HostedLua
