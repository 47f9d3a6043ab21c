import HostedLua.Proofs.Coroutine.Resume
import HostedLua.Proofs.Lua.Resumption

/-! The turn of a coroutine. Where no other call by the host is under way, resuming a suspended thread runs its body,
and whatever else, until the body suspends itself, returns or fails; what the host is told then is what the thread
left. A dead thread is refused, and no code runs at all. -/

namespace HostedLua

open Host

namespace World

def IsThread (w : World) (state : Nat) (thread : Value) (t : Nat) : Prop :=
  ∃ g, thread = .obj g ∧ w.objects[g]? = some (.guest ⟨state, .thread t, false⟩)

/-- What a thread of a state will do when it is resumed. -/
def Rests (w : World) (state t : Nat) (rest : Lua.Rest) : Prop :=
  ∃ s th, w.states[state]? = some s ∧ s.machine.threads[t]? = some th ∧ th.rest = rest

/-- A world in which nothing is left to do on the machine of a state. -/
def rested (w : World) (state : Nat) (s : LuaState) : World :=
  w.withMachine state { s.machine with prog := .ret [] }

variable {w w' : World} {state t : Nat} {thread : Value} {s : LuaState}

theorem IsThread.kept (h : w.IsThread state thread t) (hk : w.Kept w') : w'.IsThread state thread t := by
  obtain ⟨g, rfl, hg⟩ := h
  exact ⟨g, rfl, hk.guests hg⟩

theorem Rests.kept {rest : Lua.Rest} (h : w.Rests state t rest) (hsettled : rest.Settled) (hk : w.Kept w') :
    w'.Rests state t rest := by
  obtain ⟨s, th, hs, hth, rfl⟩ := h
  obtain ⟨s', hs', hks⟩ := hk.states hs
  obtain ⟨th', hth', hrest⟩ := hks.machine.stands hth hsettled
  exact ⟨s', th', hs', hth', hrest⟩

theorem Rests.rested {rest : Lua.Rest} (h : w.Rests state t rest) (hs : w.states[state]? = some s) :
    (w.rested state s).Rests state t rest := by
  obtain ⟨s', th, hs', hth, hrest⟩ := h
  obtain rfl := Option.some.inj (hs.symm.trans hs')
  exact ⟨_, th, withMachine_states hs, hth, hrest⟩

end World

namespace Bridge

open World Lua.Machine

variable {E : Engine} {n state t : Nat} {w w' : World} {s : LuaState} {b m : Lua.Machine} {us vs : List Lua.Value}
  {thread : Value} {args : List Value}

/-! ### Runs that are over at once -/

theorem drive_run {fuel : Nat} {m' : Lua.Machine} {r : Except Lua.Thrown (List Lua.Value)}
    (h : m.run maxSteps = some (m', .done r)) :
    drive E state (fuel + 1) m w = some (.ok r, w.withMachine state m') := by
  rw [drive, h]
  rfl

/-- A program of the host's that is over without a question to the host. -/
theorem engineRun_over {p : Lua.Prog} {m' : Lua.Machine} {r : Except Lua.Thrown (List Lua.Value)}
    (hs : w.states[state]? = some s) (h : (s.machine.enter p).run maxSteps = some (m', .done r)) :
    (engine (n + 1)).run state p w = some (.ok r, w.withMachine state m') := by
  rw [engine]
  dsimp only
  rw [bind_ok (state?_apply state w), hs]
  exact drive_run h

/-- The host's call of a library function that is over without a question to the host. -/
theorem engineRun_builtin {f : Lua.Builtin} {m' : Lua.Machine} {r : Except Lua.Thrown (List Lua.Value)}
    (hs : w.states[state]? = some s) (h : (s.machine.calling f vs).run maxSteps = some (m', .done r)) :
    (engine (n + 1)).run state (callProg (.builtin f) vs) w = some (.ok r, w.withMachine state m') :=
  engineRun_over hs h

theorem mapM_push_thread (ht : w.IsThread state thread t) (hargs : args.mapM (push state) w = some (.ok us, w)) :
    (thread :: args).mapM (push state) w = some (.ok (.thread t :: us), w) := by
  obtain ⟨g, rfl, hg⟩ := ht
  rw [List.mapM_cons, bind_ok (push_guest hg rfl), bind_ok hargs]
  rfl

/-- Where resuming a thread gives a truth value and a host object, the host gets both as they are. -/
theorem callLua_coResume_host {ok : Bool} {id : Nat} (ht : w.IsThread state thread t)
    (hargs : args.mapM (push state) w = some (.ok us, w))
    (hrun : E.run state (callProg (.builtin .coResume) (.thread t :: us)) w =
      some (.ok (.ok [.bool ok, .host id]), w'))
    (hs : w'.states[state]? = some s) (hid : id ≠ Value.nothingId) :
    callLua E state (.builtin .coResume) (thread :: args) w = some (.ok [.bool ok, .obj id], w') := by
  rw [callLua, bind_ok (mapM_push_thread ht hargs), runProg, bind_ok hrun]
  dsimp only
  rw [fetchAll, List.mapM_cons, bind_ok (fetch_inl hs rfl), List.mapM_cons, bind_assoc, bind_ok (fetch_host hs hid)]
  rfl

/-- A string of Lua's own words is text in every set. -/
theorem decodeEscaped_statusName (cs : Charset) (status : Lua.ThreadStatus) :
    (cs.decodeEscaped (.ofString (Lua.Library.statusName status)) == ("dead" : Text)) = (status == .dead) := by
  cases cs <;> cases status <;> decide +kernel

/-- While no other call by the host is under way, `coroutine.status` tells the state of a thread and changes
nothing. -/
theorem callLua_coStatus_idle (hs : w.states[state]? = some s) (hidle : s.machine.Idle)
    (ht : w.IsThread state thread t) : callLua (engine (n + 1)) state (.builtin .coStatus) [thread] w =
      some (.ok [.text (s.charset.decodeEscaped (.ofString (Lua.Library.statusName (s.machine.status t))))],
        w.rested state s) := by
  have hpush : [thread].mapM (push state) w = some (.ok [.thread t], w) := mapM_push_thread ht rfl
  have hrun := engineRun_builtin (n := n) hs (run_coStatus (t := t) hidle 999999999996)
  have hfetch : fetch state (.ofString (Lua.Library.statusName (s.machine.status t))) (w.rested state s) = _ :=
    fetch_inl (withMachine_states hs) rfl
  rw [callLua, bind_ok hpush, runProg, bind_ok hrun]
  dsimp only
  rw [fetchAll, List.mapM_cons]
  exact (bind_ok hfetch).trans rfl

/-! ### Runs that give a thread its turn -/

/-- A step that the machine takes by itself is the next one of the call. -/
theorem reaches_step {q : World × Lua.Machine} {m' : Lua.Machine} {p : Lua.Machine × Lua.Stop}
    (h : Reaches E state (w, m) q) (hstep : m.step = .inl m') (hstop : q.2.step = .inr p) :
    Reaches E state (w, m') q := by
  rcases h.cases_head with rfl | ⟨c, goes, h⟩
  · rw [hstep] at hstop
    contradiction
  · cases goes with
    | steps step => exact Sum.inl.inj (hstep.symm.trans step) ▸ h
    | answered step =>
      rw [hstep] at step
      contradiction

/-- A call that is done goes no further. -/
theorem reaches_done {q : World × Lua.Machine} {m' : Lua.Machine} {r : Except Lua.Thrown (List Lua.Value)}
    (h : Reaches E state (w, m) q) (hdone : m.step = .inr (m', .done r)) : q = (w, m) := by
  rcases h.cases_head with heq | ⟨c, goes, -⟩
  · exact heq.symm
  · cases goes with
    | steps step =>
      rw [hdone] at step
      contradiction
    | answered step =>
      rw [hdone] at step
      cases step

/-- A call that ends while a thread has its turn comes to where that thread stops, and goes on from there. -/
theorem turn_over (hE : EngineKeeps World.Sound World.Kept E) (hb : b.Sound)
    {k : Except Lua.Thrown (List Lua.Value) → Lua.Prog} {B : List Lua.Frame} {W : List Nat}
    {p q : World × Lua.Machine} {m' : Lua.Machine} {res : Except Lua.Thrown (List Lua.Value)} (hreaches : Reaches E state p q)
    (hdone : q.2.step = .inr (m', .done res)) (hturn : Turn t k B W p.2) (hs : ∃ s, p.1.states[state]? = some s)
    (hsound : (p.1.withMachine state b).Sound) : ∃ v m₀ m₁ th r, Reaches E state p (v, m₀) ∧ m₀.current = t ∧
      Halts m₀ th r ∧ Over t th r k B W m₁ ∧ Reaches E state (v, m₁) q := by
  induction hreaches using Relation.ReflTransGen.head_induction_on with
  | refl => exact absurd hdone hturn.away.not_done
  | head goes hrest ih =>
    obtain ⟨s, hs⟩ := hs
    cases goes with
    | @steps w m m₁ step =>
      rcases hturn.step step with hturn' | ⟨hcur, th, r, halts, hover⟩
      · obtain ⟨v, m₀, m₂, th, r, hreaches, hcur, halts, hover, hrest'⟩ := ih hturn' ⟨s, hs⟩ hsound
        exact ⟨v, m₀, m₂, th, r, .head (.steps step) hreaches, hcur, halts, hover, hrest'⟩
      · exact ⟨w, m, m₁, th, r, .refl, hcur, halts, hover, hrest⟩
    | answered step reply found =>
      have hasked := hturn.asks step
      obtain ⟨hk, hm, hv, -⟩ := answered_keeps hE hb hasked.away.sound hs hsound reply found
      obtain ⟨v, m₀, m₂, th, r, hreaches, hcur, halts, hover, hrest'⟩ := ih (hasked.kept hk hm).answer ⟨_, found⟩ hv
      exact ⟨v, m₀, m₂, th, r, .head (.answered step reply found) hreaches, hcur, halts, hover, hrest'⟩

section Resumed

variable (hw : w.Sound) (hs : w.states[state]? = some s) (hidle : s.machine.Idle)
  (hsuspended : s.machine.status t = .suspended)

include hw hs hidle hsuspended

/-- A call by the host of `coroutine.resume` on a suspended thread that ends has given the thread its turn: the
thread has stopped, is left as it stopped, and what it leaves is reported; nothing else in the world has changed since
it stopped. -/
theorem engineRun_coResume {r : Except Fault (Except Lua.Thrown (List Lua.Value))}
    (hrun : (engine (n + 1)).run state (callProg (.builtin .coResume) (.thread t :: us)) w = some (r, w')) :
    ∃ v m th res s', Reaches (engine n) state (w, s.machine.calling .coResume (.thread t :: us)) (v, m) ∧
      m.current = t ∧ Halts m th res ∧ r = .ok (.ok (reported res)) ∧ w' = v.withMachine state s'.machine ∧
      w'.states[state]? = some s' ∧ s'.machine.threads[t]? = some th := by
  have hb : s.machine.Sound := hw hs
  have hself : (w.withMachine state s.machine).Sound := by rwa [withMachine_self hs]
  obtain ⟨s', hs', hdrive⟩ := engineRun_some hrun
  obtain rfl := Option.some.inj (hs.symm.trans hs')
  obtain ⟨res, v₁, m₁, m', rfl, hreaches, hdone, rfl⟩ := reaches_drive hdrive
  obtain ⟨-, ⟨s₁, hs₁⟩, -, -⟩ :=
    reaches_lasts (engine_keeps n) (lasts_underWay s.machine) hb hreaches (underWay_enter hb) ⟨s, hs⟩ hself
  obtain ⟨c₁, c₂, c₃, k, hc₁, hc₂, hc₃, hturn, hk⟩ := turn_coResume us hidle hb hsuspended
  have hrest := reaches_step (reaches_step (reaches_step hreaches hc₁ hdone) hc₂ hdone) hc₃ hdone
  obtain ⟨v, m, m₂, th, r, hstops, hcur, halts, hover, hlast⟩ :=
    turn_over (engine_keeps n) hb hrest hdone hturn ⟨s, hs⟩ hself
  -- the main thread only passes on what it got
  obtain ⟨hret, hend⟩ := step_reported (hover.prog.trans (hk r)) hover.stack
  obtain ⟨rfl, rfl⟩ := Prod.mk.inj (reaches_done (reaches_step hlast hret hdone) hend)
  obtain ⟨rfl, hres⟩ := Prod.mk.inj (Sum.inr.inj (hend.symm.trans hdone))
  obtain rfl := Lua.Stop.done.inj hres
  refine ⟨v₁, m, th, r, _, ?_, hcur, halts, rfl, rfl, withMachine_states hs₁, hover.thread⟩
  exact .head (.steps hc₁) (.head (.steps hc₂) (.head (.steps hc₃) hstops))

/-- What the host's call of `coroutine.resume` on a suspended thread gives back. -/
theorem callLua_coResume_suspended {r : Except Fault (List Value)} (ht : w.IsThread state thread t)
    (hargs : args.mapM (push state) w = some (.ok us, w))
    (h : callLua (engine (n + 1)) state (.builtin .coResume) (thread :: args) w = some (r, w')) :
    ∃ v m th res w₁ s₁, Reaches (engine n) state (w, s.machine.calling .coResume (.thread t :: us)) (v, m) ∧
      m.current = t ∧ Halts m th res ∧ w₁ = v.withMachine state s₁.machine ∧ w₁.Sound ∧ w.Kept w₁ ∧
      w₁.states[state]? = some s₁ ∧ s₁.machine.threads[t]? = some th ∧
      fetchAll state (reported res) w₁ = some (r, w') := by
  rw [callLua, bind_ok (mapM_push_thread ht hargs)] at h
  rcases bind_some h with ⟨e, he, -⟩ | ⟨r₁, w₁, hrun, hrest⟩
  · obtain ⟨_, _, _, _, _, -, -, -, hr, -⟩ := engineRun_coResume hw hs hidle hsuspended he
    contradiction
  · obtain ⟨v, m, th, res, s₁, hreaches, hcur, halts, hr, hv, hs₁, hth⟩ :=
      engineRun_coResume hw hs hidle hsuspended hrun
    obtain rfl := Except.ok.inj hr
    obtain ⟨hw₁, hk⟩ := (engine_keeps (n + 1)).run _ _ hw hrun
    exact ⟨v, m, th, res, w₁, s₁, hreaches, hcur, halts, hv, hw₁, hk, hs₁, hth, hrest⟩

end Resumed

/-- What the host is told of a thread that has stopped at a machine, where `w` is the world at the end of the call:
it is suspended or has returned, with values, or it has failed, with an error value. -/
inductive Tells (text : Value → Bridge Text) (state t : Nat) (m : Lua.Machine) (w : World) :
    Except Fault Resumption → World → Prop where
  | yields {vs : List Lua.Value} {k : List Lua.Value → Lua.Prog} {values : List Value} {w₁ : World} {s : LuaState}
    (prog : m.prog = .yield vs k) (fetched : fetchAll state vs w = some (.ok values, w₁))
    (found : w₁.states[state]? = some s) (left : (w₁.rested state s).Rests state t (.yielded k)) :
    Tells text state t m w (.ok (.yielded values)) (w₁.rested state s)
  | returns {vs : List Lua.Value} {values : List Value} {w₁ : World} {s : LuaState}
    (prog : m.prog = .ret vs) (stack : m.stack = []) (fetched : fetchAll state vs w = some (.ok values, w₁))
    (found : w₁.states[state]? = some s) (left : (w₁.rested state s).Rests state t .dead) :
    Tells text state t m w (.ok (.ended values)) (w₁.rested state s)
  | fails {e : Lua.Thrown} {v : Value} {r : Except Fault Failure} {w₁ w' : World}
    (prog : m.prog = .unwind e) (uncaught : isCaught m.stack = false)
    (fetched : fetch state e.seen w = some (.ok v, w₁)) (error : errorValue text v w₁ = some (r, w'))
    (left : w'.Rests state t .dead) : Tells text state t m w (r.map .failed) w'

/-- A truth value in front of values is fetched as such. -/
theorem fetchAll_front (hs : w.states[state]? = some s) (ok : Bool) (vs : List Lua.Value) :
    ∃ values os, fetchAll state vs w = some (.ok values, w.more os) ∧
      fetchAll state (.bool ok :: vs) w = some (.ok (.bool ok :: values), w.more os) := by
  obtain ⟨values, os, hvalues⟩ := fetchAll_more state vs w
  have hbool : fetch state (.bool ok) w = some (.ok (.bool ok), w) := fetch_inl hs rfl
  refine ⟨values, os, hvalues, ?_⟩
  rw [fetchAll, List.mapM_cons, bind_ok hbool]
  exact (bind_ok hvalues).trans rfl

/-- Once `coroutine.resume` has given values back, the thread's own state tells whether it has returned. -/
theorem resumeThread_stopped {text : Value → Bridge Text} {values : List Value}
    (hc : callLua (engine (n + 1)) state (.builtin .coResume) (thread :: args) w =
      some (.ok (.bool true :: values), w'))
    (hs : w'.states[state]? = some s) (hidle : s.machine.Idle) (ht : w'.IsThread state thread t)
    (hopen : s.isOpen = true) : resumeThread (engine (n + 1)) text state thread args w =
      some (.ok (if s.machine.status t == .dead then .ended values else .yielded values), w'.rested state s) := by
  have hisOpen := isOpen_apply hs
  rw [hopen] at hisOpen
  rw [resumeThread_eq hc, if_neg (by decide), bind_ok hisOpen, if_neg (by decide),
    bind_ok (callLua_coStatus_idle hs hidle ht)]
  dsimp only
  rw [decodeEscaped_statusName]
  split <;> rfl

section Told

variable {text : Value → Bridge Text} {rc : Except Fault (List Value)} {wc w₁ : World} {s₁ : LuaState}
  {r : Except Fault Resumption}
  (hc : callLua (engine (n + 1)) state (.builtin .coResume) (thread :: args) w = some (rc, wc))
  (hs₁ : w₁.states[state]? = some s₁)
  (h : resumeThread (engine (n + 1)) text state thread args w = some (r, w'))

include hc hs₁ h

/-- With values, the thread is asked for its own state. -/
theorem resumeThread_ok (hfetch : fetchAll state (reported (.ok vs)) w₁ = some (rc, wc)) (hidle : s₁.machine.Idle)
    (ht : w₁.IsThread state thread t) (hopen : isOpen state w' = some (.ok true, w')) :
    ∃ values w₂, fetchAll state vs w₁ = some (.ok values, w₂) ∧ w₂.states[state]? = some s₁ ∧
      w' = w₂.rested state s₁ ∧
      r = .ok (if s₁.machine.status t == .dead then .ended values else .yielded values) := by
  obtain ⟨values, os, hvalues, hall⟩ := fetchAll_front hs₁ true vs
  obtain ⟨hrc, rfl⟩ := Prod.mk.inj (Option.some.inj (hall.symm.trans hfetch))
  rw [← hrc] at hc
  have hs₂ : (w₁.more os).states[state]? = some s₁ := hs₁
  have hopen₂ := isOpen_apply hs₂
  cases hopened : s₁.isOpen with
  | false =>
    rw [hopened] at hopen₂
    rw [resumeThread_eq hc, if_neg (by decide), bind_ok hopen₂] at h
    obtain ⟨-, rfl⟩ := Prod.mk.inj (Option.some.inj h)
    rw [hopen₂] at hopen
    cases hopen
  | true =>
    have ht₂ : (w₁.more os).IsThread state thread t := by
      obtain ⟨g, hg, hguest⟩ := ht
      exact ⟨g, hg, object_more hguest⟩
    rw [resumeThread_stopped hc hs₂ hidle ht₂ hopened] at h
    obtain ⟨rfl, rfl⟩ := Prod.mk.inj (Option.some.inj h)
    exact ⟨values, w₁.more os, hvalues, hs₂, rfl, rfl⟩

/-- Without values, the error value is asked for its text. -/
theorem resumeThread_failed {e : Lua.Thrown} (hfetch : fetchAll state (reported (.error e)) w₁ = some (rc, wc)) :
    ∃ v os r₁, fetch state e.seen w₁ = some (.ok v, w₁.more os) ∧
      errorValue text v (w₁.more os) = some (r₁, w') ∧ r = r₁.map .failed := by
  obtain ⟨v, os, hvalue⟩ := fetch_more state e.seen w₁
  obtain ⟨values, os', hvalues, hall⟩ := fetchAll_front hs₁ false [e.seen]
  rw [fetchAll, List.mapM_cons, bind_ok hvalue] at hvalues
  obtain ⟨hv, hos⟩ := Prod.mk.inj (Option.some.inj hvalues)
  obtain rfl := Except.ok.inj hv
  obtain ⟨hrc, rfl⟩ := Prod.mk.inj (Option.some.inj (hall.symm.trans hfetch))
  rw [← hrc] at hc
  rw [resumeThread_eq hc, if_pos (by decide), map_apply] at h
  obtain ⟨⟨r₁, w₂⟩, herror, heq⟩ := Option.map_eq_some_iff.mp h
  obtain ⟨rfl, rfl⟩ := Prod.mk.inj heq
  rw [← hos] at herror
  exact ⟨v, os, r₁, hvalue, herror, rfl⟩

end Told

/-- A suspended thread is resumed, and its state stays open: its body runs until it stops, and the host is told of
it. -/
theorem resumeThread_suspended {text : Value → Bridge Text} {r : Except Fault Resumption}
    (htext : ∀ v, Keeps World.Sound World.Kept (text v)) (hw : w.Sound) (hs : w.states[state]? = some s)
    (hidle : s.machine.Idle) (hsuspended : s.machine.status t = .suspended) (ht : w.IsThread state thread t)
    (hargs : args.mapM (push state) w = some (.ok us, w))
    (h : resumeThread (engine (n + 1)) text state thread args w = some (r, w'))
    (hopen : isOpen state w' = some (.ok true, w')) :
    ∃ v m m', Reaches (engine n) state (w, s.machine.calling .coResume (.thread t :: us)) (v, m) ∧ m.current = t ∧
      Tells text state t m (v.withMachine state m') r w' := by
  have hne : t ≠ 0 := by
    obtain ⟨S, hS⟩ := (hw hs).threads
    obtain ⟨th, -, hrest, hthread⟩ := suspended_thread hsuspended
    exact hS.ne_main (hthread ▸ hrest)
  cases hc : callLua (engine (n + 1)) state (.builtin .coResume) (thread :: args) w with
  | none =>
    rw [resumeThread, bind_none (protectedCall_none hc)] at h
    contradiction
  | some p =>
    obtain ⟨rc, wc⟩ := p
    obtain ⟨v, m, th, res, w₁, s₁, hreaches, hcur, halts, hv, hw₁, hk, hs₁, hth, hfetch⟩ :=
      callLua_coResume_suspended hw hs hidle hsuspended ht hargs hc
    obtain ⟨s₁', hs₁', hks⟩ := hk.states hs
    obtain rfl := Option.some.inj (hs₁.symm.trans hs₁')
    have hidle₁ := hidle.kept hks.machine
    have hne₁ : t ≠ s₁.machine.current := by rwa [hidle₁.current]
    have ht₁ := ht.kept hk
    refine ⟨v, m, s₁.machine, hreaches, hcur, ?_⟩
    rw [← hv]
    -- what the thread will do tells whether it has returned
    cases halts with
    | @yields vs k prog =>
      obtain ⟨values, w₂, hvalues, hs₂, rfl, rfl⟩ := resumeThread_ok hc hs₁ h hfetch hidle₁ ht₁ hopen
      rw [status_of_thread hne₁ hth]
      exact .yields prog hvalues hs₂ (Rests.rested ⟨s₁, _, hs₂, hth, rfl⟩ hs₂)
    | @returns vs prog stack =>
      obtain ⟨values, w₂, hvalues, hs₂, rfl, rfl⟩ := resumeThread_ok hc hs₁ h hfetch hidle₁ ht₁ hopen
      rw [status_of_thread hne₁ hth]
      exact .returns prog stack hvalues hs₂ (Rests.rested ⟨s₁, _, hs₂, hth, rfl⟩ hs₂)
    | @fails e prog uncaught =>
      obtain ⟨v₁, os, r₁, hvalue, herror, rfl⟩ := resumeThread_failed hc hs₁ h hfetch
      have hw₂ : (w₁.more os).Sound := hw₁.of_eq rfl
      obtain ⟨-, hk₂⟩ := keeps_errorValue htext _ hw₂ herror
      have hleft : (w₁.more os).Rests state t .dead := ⟨s₁, _, hs₁, hth, rfl⟩
      exact .fails prog uncaught hvalue herror (hleft.kept (.inr rfl) hk₂)

/-! ### Threads that are dead or are closed -/

def deadText : Text := "cannot resume dead coroutine"

theorem decodeEscaped_deadMessage (cs : Charset) : cs.decodeEscaped deadMessage = deadText := by
  cases cs <;> decide +kernel

/-- Where `coroutine.resume` refuses a thread since it is dead, that is what resuming it comes to. -/
theorem resumeThread_refused {m' : Lua.Machine} (E : Engine) (hs : w.states[state]? = some s)
    (hrun : (s.machine.calling .coResume (.thread t :: us)).run maxSteps =
      some (m', .done (.ok [.bool false, .str deadMessage])))
    (ht : w.IsThread state thread t) (hargs : args.mapM (push state) w = some (.ok us, w)) :
    resumeThread (engine (n + 1)) (errorMessage E) state thread args w =
      some (.ok (.failed ⟨.runtime, deadText⟩), w.withMachine state m') := by
  have hs' : (w.withMachine state m').states[state]? = _ := withMachine_states hs
  have hmessage :
      fetch state (.str deadMessage) (w.withMachine state m') = some (.ok (.text deadText), w.withMachine state m') := by
    rw [← decodeEscaped_deadMessage s.charset]
    exact fetch_inl hs' rfl
  have hfalse : fetch state (.bool false) (w.withMachine state m') = some (.ok (.bool false), w.withMachine state m') :=
    fetch_inl hs' rfl
  have hfetch : fetchAll state [.bool false, .str deadMessage] (w.withMachine state m') =
      some (.ok [.bool false, .text deadText], w.withMachine state m') := by
    simp only [fetchAll, List.mapM_cons, bind_apply, hfalse, hmessage]
    rfl
  have hc : callLua (engine (n + 1)) state (.builtin .coResume) (thread :: args) w =
      some (.ok [.bool false, .text deadText], w.withMachine state m') := by
    rw [callLua, bind_ok (mapM_push_thread ht hargs)]
    exact (bind_ok (engineRun_builtin hs hrun)).trans hfetch
  have hstatus : ErrorStatus.ofMessage deadText = .runtime := by decide +kernel
  have herror : errorValue (errorMessage E) (.text deadText) (w.withMachine state m') =
      some (.ok ⟨.ofMessage deadText, deadText⟩, w.withMachine state m') := rfl
  rw [resumeThread_eq hc, if_pos (by decide), map_apply, List.headD_cons, herror, hstatus]
  rfl

/-- The host's call of `coroutine.close` on a suspended thread leaves it dead, whatever comes of closing what the
thread holds, unless the call is refused for its depth. -/
theorem callLua_coClose {rest : Lua.Rest} {r : Except Fault (List Value)} (hw : w.Sound)
    (hs : w.states[state]? = some s) (hfits : Fits s.machine) (hrests : w.Rests state t rest)
    (hsettled : ¬ rest.Settled) (ht : w.IsThread state thread t)
    (h : callLua (engine (n + 1)) state (.builtin .coClose) [thread] w = some (r, w')) :
    w'.Rests state t .dead := by
  have hb : s.machine.Sound := hw hs
  have hself : (w.withMachine state s.machine).Sound := by rwa [withMachine_self hs]
  obtain ⟨s₀, th, hs₀, hth, rfl⟩ := hrests
  obtain rfl := Option.some.inj (hs.symm.trans hs₀)
  have hrun {r : Except Fault (Except Lua.Thrown (List Lua.Value))} {w₁ : World}
      (hrun : (engine (n + 1)).run state (callProg (.builtin .coClose) [.thread t]) w = some (r, w₁)) :
      w₁.Rests state t .dead := by
    obtain ⟨s', hs', hdrive⟩ := engineRun_some hrun
    obtain rfl := Option.some.inj (hs.symm.trans hs')
    obtain ⟨res, v, m₁, m', -, hreaches, hdone, rfl⟩ := reaches_drive hdrive
    obtain ⟨c₁, c₂, c₃, hc₁, hc₂, hc₃, hrunning, hrises, hdead⟩ := closes_coClose hb hfits hth hsettled
    have hrest := reaches_step (reaches_step (reaches_step hreaches hc₁ hdone) hc₂ hdone) hc₃ hdone
    have hlasts := lasts_stands s.machine c₃.threads
    obtain ⟨hI, ⟨s₁, hs₁⟩, -, -⟩ :=
      reaches_lasts (engine_keeps n) hlasts hb hrest ⟨hrunning, hrises⟩ ⟨s, hs⟩ hself
    obtain ⟨th', hth', hrest'⟩ := hlasts.done hI hdone hdead (.inr rfl)
    exact ⟨_, th', withMachine_states hs₁, hth', hrest'⟩
  have hpush : [thread].mapM (push state) w = some (.ok [.thread t], w) := mapM_push_thread ht rfl
  rw [callLua, bind_ok hpush] at h
  rcases bind_some h with ⟨e, he, -⟩ | ⟨r₁, w₁, hr₁, hrest⟩
  · exact hrun he
  · obtain ⟨hw₁, -⟩ := (engine_keeps (n + 1)).run _ _ hw hr₁
    have hk : w₁.Kept w' := by
      cases r₁ with
      | ok vs => exact (keeps_fetchAll state vs hw₁ hrest).2
      | error t => exact (keeps_raiseThrown state t hw₁ hrest).2
    exact (hrun hr₁).kept (.inr rfl) hk

end Bridge

end HostedLua
