import HostedLua.Proofs.Coroutine.Death
import HostedLua.Proofs.Coroutine.Outcome
import HostedLua.Proofs.Function.Calling
import HostedLua.Proofs.Lua.Throw

/-! The ways by which a callback's fault comes back to the host. Lua code throws it on as an object. Where nothing in the
code takes it, a call raises the fault again and its kind decides on the outcome; a coroutine fails with the object,
and the text of the object decides. So the message is the same, and the outcome need not be. -/

namespace HostedLua

open Host

/-! ### Outcomes of faults -/

/-- Only the kind itself is one that no kind is directly below. -/
theorem FaultKind.eq_of_isA {k : FaultKind} {a : String} (hleaf : ∀ p ∈ parents, ∀ q ∈ p.2, ofString q ≠ ofString a)
    (hexception : ofString "Exception" ≠ ofString a) (h : k.isA a = true) : k = ofString a := by
  have hgo (fuel : Nat) : ∀ k, isA.go a fuel k = true → k = ofString a := by
    induction fuel with
    | zero =>
      intro k h
      cases h
    | succ fuel ih =>
      intro k h
      rw [isA.go] at h
      split_ifs at h with hk
      · exact hk
      · split at h
        · next p ps hfind =>
          obtain ⟨q, hq, hgo⟩ := List.any_eq_true.mp h
          exact absurd (ih _ hgo) (hleaf _ (List.mem_of_find?_eq_some hfind) q hq)
        · exact absurd (ih _ h) hexception
  exact hgo 6 k h

namespace ErrorStatus

variable {message : Text}

theorem ofMessage_memory : ofMessage message = .memory ↔ message.contains "not enough memory" = true := by
  rw [ofMessage]
  split_ifs <;> simp_all

theorem ofMessage_runtime : ofMessage message = .runtime ↔ message.contains "not enough memory" = false ∧
    message.contains "error in error handling" = false ∧ message.contains "error in __gc" = false := by
  rw [ofMessage]
  split_ifs <;> simp_all

end ErrorStatus

/-- A fault that is none of Lua's counts by its kind: as a lack of memory or as a failure of the code. -/
theorem Fault.status_of_host {f : Fault} (hf : f.isLua = false) :
    f.status = if f.kind.isA "MemoryError" then .memory else .runtime := by
  have hsource : f.kind.isA "LuaSyntaxError" = false := by
    refine Bool.eq_false_iff.mpr fun h => ?_
    have hkind := FaultKind.eq_of_isA (by decide +kernel) (by decide +kernel) h
    have hlua : FaultKind.isA (.ofString "LuaSyntaxError") "LuaError" = true := by decide +kernel
    rw [isLua, hkind, hlua] at hf
    cases hf
  rw [status, hsource, hf]
  rfl

namespace Bridge

open World Lua.Machine

variable {E : Engine} {n state t o id : Nat} {w w₀ v : World} {s : LuaState} {m : Lua.Machine}
  {p q e : World × Lua.Machine} {f : Fault} {args : List Value} {us : List Lua.Value}

/-! ### Runs are determined -/

/-- A call by the host goes on in one way. -/
theorem Goes.unique {q' : World × Lua.Machine} (h : Goes E state p q) (h' : Goes E state p q') : q = q' := by
  cases h with
  | steps step =>
    cases h' with
    | steps step' => rw [Sum.inl.inj (step.symm.trans step')]
    | answered step' => cases step.symm.trans step'
  | answered step reply found =>
    cases h' with
    | steps step' => cases step.symm.trans step'
    | answered step' reply' found' =>
      obtain ⟨rfl, hstop⟩ := Prod.mk.inj (Sum.inr.inj (step.symm.trans step'))
      obtain rfl := Lua.Stop.asks.inj hstop
      obtain ⟨rfl, rfl⟩ := ok_inj (reply.symm.trans reply')
      rw [Option.some.inj (found.symm.trans found')]

/-- A call that is done has come through whatever it comes to. -/
theorem reaches_through {m' : Lua.Machine} {r : Except Lua.Thrown (List Lua.Value)} (he : Reaches E state p e)
    (hq : Reaches E state p q) (hdone : e.2.step = .inr (m', .done r)) : Reaches E state q e := by
  have hunique : Relator.RightUnique (Goes E state) := fun _ _ _ h h' => h.unique h'
  rcases Relation.ReflTransGen.total_of_right_unique hunique hq he with h | h
  · exact h
  · obtain ⟨u, c⟩ := e
    rw [reaches_done h hdone]

theorem reaches_next {c : World × Lua.Machine} (h : Reaches E state p q) (goes : Goes E state p c)
    (hne : q.2.current ≠ p.2.current) : Reaches E state c q := by
  rcases h.cases_head with rfl | ⟨c', goes', h⟩
  · contradiction
  · exact goes.unique goes' ▸ h

/-! ### Faults that are thrown -/

/-- An object stands for the fault that a callback of a state has raised last. -/
structure Raised (f : Fault) (state o : Nat) (v : World) : Prop where
  fault : v.objects[o]? = some (.fault f)
  pending : ∃ s, v.states[state]? = some s ∧ s.pending = some f

theorem Raised.withMachine (h : Raised f state o v) (m : Lua.Machine) : Raised f state o (v.withMachine state m) := by
  obtain ⟨s, hs, hpending⟩ := h.pending
  exact ⟨h.fault, _, withMachine_states hs, hpending⟩

/-- Code throws the object of the fault that was raised last. -/
structure Throwing (f : Fault) (state o : Nat) (v : World) (m : Lua.Machine) : Prop extends Raised f state o v where
  throws : m.Throws (.host o)
  something : o ≠ Value.nothingId

/-- A fault that an answer of the host raises is thrown where the code has asked. -/
theorem goes_raised {m₁ : Lua.Machine} {r : Lua.Request} {k : List Lua.Value → Lua.Prog} {stack : List Lua.Frame}
    (hstep : m.step = .inr (m₁, .asks r)) (hanswer : answer E state r (w.withMachine state m₁) = some (.error f, v))
    (hs : v.states[state]? = some s) (hstack : s.machine.stack = .asked k :: stack) (hv : 0 < v.objects.size) :
    ∃ v₁, Goes E state (w, m) (v₁, { s.machine with stack, prog := .raise (.host v.objects.size) }) ∧
      Throwing f state v.objects.size v₁ { s.machine with stack, prog := .raise (.host v.objects.size) } := by
  let noted : World := { v with states := v.states.modify state ({ · with pending := some f }) }
  let v₁ : World := { noted with objects := v.objects.push (.fault f) }
  have hreply : reply E state r (w.withMachine state m₁) = some (.ok (.error (.host v.objects.size)), v₁) := by
    have hattempt : attempt (answer E state r) (w.withMachine state m₁) = some (.ok (.error f), v) := by
      rw [attempt_apply, hanswer]
      rfl
    rw [reply, bind_ok hattempt]
    rfl
  have hs₁ : v₁.states[state]? = some { s with pending := some f } := by
    simp [v₁, noted, Array.getElem?_modify, hs]
  have hgoes : Goes E state (w, m) (v₁, s.machine.answer (.error (.host v.objects.size))) :=
    .answered (s := { s with pending := some f }) hstep hreply hs₁
  rw [Lua.Machine.answer, hstack] at hgoes
  exact ⟨v₁, hgoes, ⟨Array.getElem?_push_size, _, hs₁, rfl⟩, .inl rfl, Nat.ne_of_gt hv⟩

/-! ### Calls -/

/-- The code that the host runs throws a fault that nothing takes, and ends. Where there are values to be closed on the
way, that may run more code, and the fault has come through it. -/
inductive CodeThrows (n state : Nat) (p : Lua.Prog) (f : Fault) (w : World) : Prop where
  | clear {s : LuaState} {v : World} {m : Lua.Machine} {o : Nat} (found : w.states[state]? = some s)
    (reaches : Reaches (engine n) state (w, s.machine.enter p) (v, m)) (throwing : Throwing f state o v m)
    (clear : isClear m.stack = true) (ends : ((engine (n + 1)).run state p w).isSome = true)
  | closing {v : World} {o : Nat} (run : (engine (n + 1)).run state p w = some (.ok (.error (.value (.host o))), v))
    (raised : Raised f state o v)

/-- A run that ends has ended on a machine that is done. -/
theorem engineRun_ends {c : Lua.Prog} (hs : w.states[state]? = some s)
    (hends : ((engine (n + 1)).run state c w).isSome = true) : ∃ res u m₁ m',
      Reaches (engine n) state (w, s.machine.enter c) (u, m₁) ∧ m₁.step = .inr (m', .done res) ∧
        (engine (n + 1)).run state c w = some (.ok res, u.withMachine state m') := by
  obtain ⟨⟨r, w'⟩, hrun⟩ := Option.isSome_iff_exists.mp hends
  obtain ⟨s', hs', hdrive⟩ := engineRun_some hrun
  obtain rfl := Option.some.inj (hs.symm.trans hs')
  obtain ⟨res, u, m₁, m', rfl, hreaches, hdone, rfl⟩ := reaches_drive hdrive
  exact ⟨res, u, m₁, m', hreaches, hdone, hrun⟩

/-- What is thrown over a clear stack is what the host's call comes to. -/
theorem engineRun_throws {c : Lua.Prog} (hs : w.states[state]? = some s)
    (hreaches : Reaches (engine n) state (w, s.machine.enter c) (v, m)) (hthrows : m.Throws (.host o))
    (hclear : isClear m.stack = true) (hends : ((engine (n + 1)).run state c w).isSome = true) :
    ∃ m', (engine (n + 1)).run state c w = some (.ok (.error (.value (.host o))), v.withMachine state m') := by
  obtain ⟨res, u, m₁, m', hend, hdone, hrun⟩ := engineRun_ends hs hends
  obtain ⟨k, m'', hunwinds⟩ := hthrows.run hclear
  obtain ⟨m₂, hthrown, hstop⟩ : ∃ m₂, Reaches (engine n) state (v, m) (v, m₂) ∧ _ := reaches_run hunwinds
  obtain ⟨rfl, rfl⟩ := Prod.mk.inj (reaches_done (reaches_through hend (hreaches.trans hthrown) hdone) hstop)
  obtain ⟨rfl, hres⟩ := Prod.mk.inj (Sum.inr.inj (hstop.symm.trans hdone))
  obtain rfl := Lua.Stop.done.inj hres
  exact ⟨_, hrun⟩

theorem CodeThrows.ended {c : Lua.Prog} (h : CodeThrows n state c f w) : ∃ o v,
    (engine (n + 1)).run state c w = some (.ok (.error (.value (.host o))), v) ∧ Raised f state o v := by
  cases h with
  | @clear s v m o found reaches throwing clear ends =>
    obtain ⟨m', hrun⟩ := engineRun_throws found reaches throwing.throws clear ends
    exact ⟨o, _, hrun, throwing.toRaised.withMachine m'⟩
  | @closing v o run raised => exact ⟨o, v, run, raised⟩

/-- The object of the fault that was raised last is raised as that fault. -/
theorem raiseThrown_fault {α : Type} (h : Raised f state o w) : (raiseThrown state (.value (.host o)) : Bridge α) w =
    some (.error f, { w with states := w.states.modify state ({ · with pending := none }) }) := by
  obtain ⟨s, hs, hpending⟩ := h.pending
  simp [raiseThrown, bind_apply, h.fault, hs, hpending]

/-- A call whose code throws a fault raises the fault again. -/
theorem runProg_throws {c : Lua.Prog} (hcode : CodeThrows n state c f w) :
    ∃ w', runProg (engine (n + 1)) state c w = some (.error f, w') := by
  obtain ⟨o, v, hrun, hraised⟩ := hcode.ended
  exact ⟨_, (bind_ok hrun).trans (raiseThrown_fault hraised)⟩

/-- A computation comes to a fault as calls by the host do: to an error value with the outcome of the fault and its text,
or to the fault itself if it is no ordinary one. -/
structure FailsWith (f : Fault) (x : Bridge Value) (w : World) : Prop where
  ordinary : f.isOrdinary = true →
    ∃ i w', x w = some (.ok (.obj i), w') ∧ w'.objects[i]? = some (.error ⟨f.status, f.message⟩ false)
  extraordinary : f.isOrdinary = false → ∃ w', x w = some (.error f, w')

/-- What is held meanwhile makes no difference. -/
theorem FailsWith.released {x y : Bridge Value} (h : FailsWith f x w₀)
    (hy : y w = (x w₀).map fun p => (p.1, p.2.release w)) : FailsWith f y w := by
  refine ⟨fun hf => ?_, fun hf => ?_⟩
  · obtain ⟨i, w', hx, hi⟩ := h.ordinary hf
    exact ⟨i, w'.release w, by rw [hy, hx]; rfl, hi⟩
  · obtain ⟨w', hx⟩ := h.extraordinary hf
    exact ⟨w'.release w, by rw [hy, hx]; rfl⟩

theorem outcome_throws {c : Lua.Prog} (hcode : CodeThrows n state c f w) :
    FailsWith f (outcome (engine (n + 1)) state c) w := by
  obtain ⟨w', hrun⟩ := runProg_throws hcode
  have hgroup : (runProg (engine (n + 1)) state c >>= group) w = some (.error f, w') := bind_error hrun
  refine ⟨fun hf => ?_, fun hf => ?_⟩
  · rw [outcome, bind_ok (protectedCall_error hf hgroup)]
    exact ⟨_, _, rfl, Array.getElem?_push_size⟩
  · exact ⟨w', bind_error (protectedCall_extraordinary hf hgroup)⟩

/-- The code that a call by the host runs throws a fault that nothing takes. -/
def CallThrows (n : Nat) (f : Fault) (w : World) (x : Bridge Value) : Prop :=
  ∃ state c w₀, Calling (engine (n + 1)) w x state c w₀ ∧ CodeThrows n state c f w₀

/-- A call whose code throws a fault fails with the outcome of the fault. -/
theorem call_fails {x : Bridge Value} (h : CallThrows n f w x) : FailsWith f x w := by
  obtain ⟨state, c, w₀, calling, code⟩ := h
  exact (outcome_throws code).released calling.eq

/-! ### Coroutines -/

/-- Once a turn is over, the main thread runs to the end of the call. -/
theorem Over.main {th : Lua.Thread} {r : Except Lua.Thrown (List Lua.Value)}
    {k : Except Lua.Thrown (List Lua.Value) → Lua.Prog} {g : Lua.Builtin} {W : List Nat} {vs : List Lua.Value}
    (hover : Over t th r k (callOf g) W m) (hk : k r = .ret vs) (hreaches : Reaches E state (w, m) q) :
    q.2.current = 0 := by
  obtain ⟨hret, hend⟩ := step_reported (hover.prog.trans hk) hover.stack
  rcases hreaches.cases_head with rfl | ⟨c, goes, hrest⟩
  · exact hover.current
  · cases goes with
    | steps step =>
      obtain rfl := Sum.inl.inj (hret.symm.trans step)
      rw [reaches_done hrest hend]
      exact hover.current
    | answered step => cases hret.symm.trans step

section Turn

variable {b : Lua.Machine} {k : Except Lua.Thrown (List Lua.Value) → Lua.Prog} {g : Lua.Builtin} {W : List Nat}

/-- Where a thread that has its turn is current, the turn is not over. -/
theorem turn_reaches (hE : EngineKeeps World.Sound World.Kept E) (hb : b.Sound) (hk : ∀ r, ∃ vs, k r = .ret vs)
    (hreaches : Reaches E state p q) (hturn : Turn t k (callOf g) W p.2) (hs : ∃ s, p.1.states[state]? = some s)
    (hsound : (p.1.withMachine state b).Sound) (hcur : q.2.current = t) : Turn t k (callOf g) W q.2 := by
  induction hreaches using Relation.ReflTransGen.head_induction_on with
  | refl => exact hturn
  | head goes hrest ih =>
    obtain ⟨s, hs⟩ := hs
    cases goes with
    | steps step =>
      rcases hturn.step step with hturn' | ⟨-, th, r, -, hover⟩
      · exact ih hturn' ⟨s, hs⟩ hsound
      · obtain ⟨vs, hvs⟩ := hk r
        exact absurd (hcur.symm.trans (Over.main hover hvs hrest)) hturn.ne_main
    | answered step reply found =>
      have hasked := hturn.asks step
      obtain ⟨hkept, hm, hv, -⟩ := answered_keeps hE hb hasked.away.sound hs hsound reply found
      exact ih (hasked.kept hkept hm).answer ⟨_, found⟩ hv

/-- A turn in which the thread throws a host object that nothing takes ends with it. -/
theorem turn_throws (hturn : Turn t k (callOf g) W m) (hcur : m.current = t) (hthrows : m.Throws (.host o))
    (huncaught : isCaught m.stack = false) : ∃ m' th, Reaches E state (w, m) (w, m') ∧
      Over t th (.error (.value (.host o))) k (callOf g) W m' := by
  rcases hthrows with hraise | hunwind
  · obtain ⟨m', hstep, th, hover⟩ := (hturn.raise (e := .value (.host o))).unwind hcur rfl huncaught
    exact ⟨m', th, .head (.steps (step_raise_host hraise)) (.single (.steps hstep)), hover⟩
  · obtain ⟨m', hstep, th, hover⟩ := hturn.unwind hcur hunwind huncaught
    exact ⟨m', th, .single (.steps hstep), hover⟩

end Turn

/-- What the host's call of `coroutine.resume` gives where the body of the coroutine throws a host object that nothing
takes. -/
theorem engineRun_coResume_throws (hw : w.Sound) (hs : w.states[state]? = some s) (hidle : s.machine.Idle)
    (hsuspended : s.machine.status t = .suspended)
    (hreaches : Reaches (engine n) state (w, s.machine.calling .coResume (.thread t :: us)) (v, m))
    (hcur : m.current = t) (hthrows : m.Throws (.host o)) (huncaught : isCaught m.stack = false)
    (hends : ((engine (n + 1)).run state (callProg (.builtin .coResume) (.thread t :: us)) w).isSome = true) :
    ∃ m', (engine (n + 1)).run state (callProg (.builtin .coResume) (.thread t :: us)) w =
      some (.ok (.ok [.bool false, .host o]), v.withMachine state m') := by
  have hb : s.machine.Sound := hw hs
  have hself : (w.withMachine state s.machine).Sound := by rwa [withMachine_self hs]
  obtain ⟨res, u, m₁, m', hend, hdone, hrun⟩ := engineRun_ends hs hends
  obtain ⟨c₁, c₂, c₃, k, hc₁, hc₂, hc₃, hturn, hk⟩ := turn_coResume us hidle hb hsuspended
  -- the main thread is current until the turn begins
  obtain ⟨look, hlook⟩ : ∃ look, Lua.Builtin.coResume.enter (.thread t :: us) = .look look := ⟨_, rfl⟩
  obtain rfl := Sum.inl.inj ((step_calling hidle).symm.trans hc₁)
  obtain rfl := Sum.inl.inj ((step_look hlook).symm.trans hc₂)
  have haway : m.current ≠ 0 := hcur ▸ hturn.ne_main
  have hbegun : m.current ≠ (s.machine.calling .coResume (.thread t :: us)).current := by
    rwa [show (s.machine.calling .coResume (.thread t :: us)).current = 0 from (enter_main hb).1]
  have hidle' : m.current ≠ s.machine.current := by rwa [hidle.current]
  have hthrown := reaches_next (reaches_next (reaches_next hreaches (.steps hc₁) hbegun) (.steps hc₂) hidle')
    (.steps hc₃) hidle'
  have hturn' : Turn t k _ _ m := turn_reaches (engine_keeps n) hb (fun r => ⟨_, hk r⟩) hthrown hturn ⟨s, hs⟩ hself hcur
  obtain ⟨m₂, th, hover, hends⟩ : ∃ m₂ th, Reaches (engine n) state (v, m) (v, m₂) ∧ _ :=
    turn_throws hturn' hcur hthrows huncaught
  -- the main thread only passes on what it got
  obtain ⟨hret, hlast⟩ := step_reported (hends.prog.trans (hk _)) hends.stack
  have hover' := reaches_through hend (hreaches.trans (hover.tail (.steps hret))) hdone
  obtain ⟨rfl, rfl⟩ := Prod.mk.inj (reaches_done hover' hlast)
  obtain ⟨rfl, hres⟩ := Prod.mk.inj (Sum.inr.inj (hlast.symm.trans hdone))
  obtain rfl := Lua.Stop.done.inj hres
  exact ⟨_, hrun⟩

/-- A coroutine handle is resumed with arguments that cross, and the body of the coroutine throws a fault that nothing
takes. -/
inductive TurnThrows (n : Nat) (f : Fault) (w : World) (id : Nat) : Bridge Value → Prop where
  | intro {t o : Nat} {h : Handle} {args guests : List Value} {us : List Lua.Value} {s : LuaState} {w₀ v : World}
    {m : Lua.Machine} (ready : w.Ready id h.state t) (found : w.objects[id]? = some (.handle h))
    (crosses : Crosses id h args guests us w w₀) (stands : w₀.states[h.state]? = some s)
    (reaches : Reaches (engine n) h.state (w₀, s.machine.calling .coResume (.thread t :: us)) (v, m))
    (current : m.current = t) (throwing : Throwing f h.state o v m) (uncaught : isCaught m.stack = false)
    (ends : ((engine (n + 1)).run h.state (callProg (.builtin .coResume) (.thread t :: us)) w₀).isSome = true) :
    TurnThrows n f w id (resume (engine (n + 1)) id h args)

/-- The text of an object that stands for a fault is that of the fault, and tells of the outcome. -/
theorem errorValue_fault (ho : w.objects[o]? = some (.fault f)) :
    errorValue (errorMessage E) (.obj o) w = some (.ok ⟨.ofMessage f.message, f.message⟩, w) := by
  have hmessage : errorMessage E (.obj o) w = some (.ok f.message, w) := by
    rw [errorMessage, bind_ok (object_apply o w), ho]
    rfl
  rw [errorValue, bind_ok hmessage, bind_ok hmessage]
  rfl

/-- Resuming a thread whose body throws a fault fails with the text of the fault. -/
theorem resumeThread_throws {thread : Value} (ht : w.IsThread state thread t)
    (hargs : args.mapM (push state) w = some (.ok us, w)) (hthrowing : Throwing f state o v m) {m' : Lua.Machine}
    (hrun : (engine (n + 1)).run state (callProg (.builtin .coResume) (.thread t :: us)) w =
      some (.ok (.ok [.bool false, .host o]), v.withMachine state m')) :
    resumeThread (engine (n + 1)) (errorMessage E) state thread args w =
      some (.ok (.failed ⟨.ofMessage f.message, f.message⟩), v.withMachine state m') := by
  obtain ⟨s, hs, -⟩ := hthrowing.pending
  have hcall := callLua_coResume_host ht hargs hrun (withMachine_states hs) hthrowing.something
  have herror := errorValue_fault (E := E) (w := v.withMachine state m') hthrowing.fault
  rw [resumeThread_eq hcall, if_pos (by decide), map_apply, List.headD_cons, herror]
  rfl

/-- A coroutine whose body throws a fault fails with the outcome that the text of the fault tells of. -/
theorem turn_fails {x : Bridge Value} (hthrows : TurnThrows n f w id x) :
    ∃ i w', x w = some (.ok (.obj i), w') ∧
      w'.objects[i]? = some (.error ⟨.ofMessage f.message, f.message⟩ false) ∧
      w'.Notes id (.ofStatus (.ofMessage f.message)) := by
  obtain @⟨t, o, h, args, guests, us, s, w₀, v, m, ready, found, crosses, stands, reaches, current, throwing, uncaught,
    ends⟩ := hthrows
  obtain ⟨h', found', -, thread⟩ := ready.hosts.handle
  obtain rfl := Object.handle.inj (Option.some.inj (found.symm.trans found'))
  obtain ⟨hw₀, hk₀⟩ := converted_keeps_hold ready.hosts.sound crosses.converted
  have hready := Ready.converted ready crosses.converted
  obtain ⟨s', hs', -, hidle⟩ := hready.hosts.found
  obtain rfl := Option.some.inj (stands.symm.trans hs')
  obtain ⟨m', hrun⟩ := engineRun_coResume_throws hw₀ stands hidle (hready.suspended stands) reaches current
    throwing.throws uncaught ends
  have hresume := resumeThread_throws (E := engine (n + 1)) (thread.kept hk₀) crosses.pushed throwing hrun
  obtain ⟨-, hk₁⟩ := (engine_keeps (n + 1)).run _ _ hw₀ hrun
  obtain ⟨k, hid, -⟩ := (hk₀.trans hk₁).handles found
  obtain ⟨i, w₁, hsettle, hvalue, hnotes, -⟩ :=
    settle_failed (engine (n + 1)) h ⟨.ofMessage f.message, f.message⟩ hid
  refine ⟨i, w₁.release w, ?_, hvalue, hnotes⟩
  rw [resume_eq crosses.valid crosses.converted, bind_ok hresume]
  exact congrArg _ hsettle

/-- A fault of a callback that nothing in Lua code takes comes back with the same text whether the code was called or
resumed. A call takes the outcome from the kind of the fault: a lack of memory, or a failure of the code. A resumption
takes it from the text: that agrees just where the text speaks of a lack of memory and the fault is one, or where it
speaks of no other outcome and the fault is none. -/
theorem failure_paths (f : Fault) :
    (∀ {n w x}, CallThrows n f w x → FailsWith f x w) ∧
    (∀ {n w id x}, TurnThrows n f w id x → ∃ i w', x w = some (.ok (.obj i), w') ∧
      w'.objects[i]? = some (.error ⟨.ofMessage f.message, f.message⟩ false) ∧
      w'.Notes id (.ofStatus (.ofMessage f.message))) ∧
    (f.isLua = false → f.message = f.described ∧
      (f.kind.isA "MemoryError" = true → f.status = .memory ∧
        (ErrorStatus.ofMessage f.message = f.status ↔ f.described.contains "not enough memory" = true)) ∧
      (f.kind.isA "MemoryError" = false → f.status = .runtime ∧
        (ErrorStatus.ofMessage f.message = f.status ↔ f.described.contains "not enough memory" = false ∧
          f.described.contains "error in error handling" = false ∧ f.described.contains "error in __gc" = false))) := by
  refine ⟨call_fails, turn_fails, fun hf => ?_⟩
  have hmessage : f.message = f.described := by rw [Fault.message, hf, if_neg Bool.false_ne_true]
  have hstatus := Fault.status_of_host hf
  refine ⟨hmessage, fun hk => ?_, fun hk => ?_⟩
  · rw [hk, if_pos rfl] at hstatus
    rw [hstatus, hmessage]
    exact ⟨rfl, ErrorStatus.ofMessage_memory⟩
  · rw [hk, if_neg Bool.false_ne_true] at hstatus
    rw [hstatus, hmessage]
    exact ⟨rfl, ErrorStatus.ofMessage_runtime⟩

namespace Raiser

/-! A Lua function calls its argument, a callback that runs out of memory. -/

def fault : Fault := .of "MemoryError" "boom"

def function : Handle := { kind := .function, state := 0, guest := .obj 4 }

def world : World :=
  { objects := #[.nothing, .callback (.action (.raise fault) 0), .guest ⟨0, .thread 1, false⟩, .handle Caller.coroutine,
      .guest ⟨0, .closure 0, false⟩]
    configs := #[{}], diagnostics := #[[]], states := #[Caller.opened Caller.machine]
    languages := #[{ config := 0, diagnostics := 0, state := some 0 }] }

/-- The callback raises its fault wherever a machine of the state has asked for it. -/
theorem answer_raises (vs : List Value) (m : Lua.Machine) :
    ∃ v, answer (engine 1) 0 (.call 1 []) ((world.hold vs 0).withMachine 0 m) = some (.error fault, v) ∧
      v.states[0]? = some (Caller.opened m) ∧ v.objects.size = 5 :=
  ⟨_, rfl, rfl, rfl⟩

/-- The machine when the function asks the host for the call. -/
def called : Lua.Machine :=
  match (Caller.machine.enter (callProg (.closure 0) [.host 1])).run 60 with
  | some (m, _) => m
  | none => Caller.machine

theorem run_called :
    (Caller.machine.enter (callProg (.closure 0) [.host 1])).run 60 = some (called, .asks (.call 1 [])) := by
  have hasks : Caller.asks ((Caller.machine.enter (callProg (.closure 0) [.host 1])).run 60) = true := by cbv
  unfold Caller.asks at hasks
  split at hasks
  · next m hrun => rw [called, hrun]
  · contradiction

def asksOver (test : List Lua.Frame → Bool) : List Lua.Frame → Bool
  | .asked _ :: stack => test stack
  | _ => false

theorem of_asksOver {test : List Lua.Frame → Bool} {stack : List Lua.Frame} (h : asksOver test stack = true) :
    ∃ k rest, stack = .asked k :: rest ∧ test rest = true := by
  unfold asksOver at h
  split at h
  · exact ⟨_, _, rfl, h⟩
  · cases h

/-- Where the code has asked for the callback, its fault is thrown. -/
theorem reaches_throwing (vs : List Value) {p : Lua.Prog} {asking : Lua.Machine} {test : List Lua.Frame → Bool}
    (hrun : (Caller.machine.enter p).run 60 = some (asking, .asks (.call 1 [])))
    (htest : asksOver test asking.stack = true) :
    ∃ v m, Reaches (engine 1) 0 (world.hold vs 0, Caller.machine.enter p) (v, m) ∧ Throwing fault 0 5 v m ∧
      m.current = asking.current ∧ test m.stack = true := by
  obtain ⟨m, hreaches, hstop⟩ : ∃ m, Reaches (engine 1) 0 (world.hold vs 0, _) (world.hold vs 0, m) ∧ _ :=
    reaches_run hrun
  obtain ⟨v, hanswer, hstates, hsize⟩ := answer_raises vs asking
  obtain ⟨k, rest, hstack, hrest⟩ := of_asksOver htest
  obtain ⟨v₁, hgoes, hthrowing⟩ := goes_raised hstop hanswer hstates hstack (by rw [hsize]; decide)
  rw [hsize] at hgoes hthrowing
  exact ⟨v₁, _, hreaches.tail hgoes, hthrowing, rfl, hrest⟩

theorem valid_function : world.valid function = true := by
  simp [World.valid, Handle.stands, World.opened, World.stateAlive, world, function, Caller.opened]

theorem valid_coroutine : world.valid Caller.coroutine = true := by
  simp [World.valid, Handle.stands, World.opened, World.stateAlive, world, Caller.coroutine, Caller.opened]

theorem ends_called (vs : List Value) :
    ((engine 2).run 0 (callProg (.closure 0) [.host 1]) (world.hold vs 0)).isSome = true := by cbv

theorem ends_resumed (vs : List Value) : ((engine 2).run 0 Caller.prog (world.hold vs 0)).isSome = true := by cbv

theorem callThrows : CallThrows 1 fault world (invoke (engine 2) function [.obj 1]) := by
  have hclear : asksOver isClear called.stack = true := by cbv
  obtain ⟨v, m, reaches, throwing, -, clear⟩ := reaches_throwing [.obj 4, .obj 1] run_called hclear
  have valid : isValid function world = some (.ok true, world) := valid_function ▸ valid_apply function world
  exact ⟨_, _, _, .invoke valid rfl ⟨4, rfl, rfl⟩ rfl, .clear rfl reaches throwing clear (ends_called _)⟩

theorem turnThrows : TurnThrows 1 fault world 3 (resume (engine 2) 3 Caller.coroutine [.obj 1]) := by
  have huncaught : asksOver (fun stack => !isCaught stack) Caller.asking.stack = true := by cbv
  have hcurrent : Caller.asking.current = 1 := by cbv
  obtain ⟨v, m, reaches, throwing, current, uncaught⟩ :=
    reaches_throwing [.obj 3, .obj 2, .obj 1] Caller.run_asking huncaught
  have valid : isValid Caller.coroutine world = some (.ok true, world) :=
    valid_coroutine ▸ valid_apply Caller.coroutine world
  have sound : world.Sound := sound_single rfl ((Lua.Machine.Sound.new _).push Lua.Machine.noEntry_nil)
  have ready : world.Ready 3 0 1 :=
    ⟨⟨sound, ⟨_, rfl, rfl, 2, rfl, rfl⟩, _, rfl, rfl, rfl, rfl⟩, .fresh (.closure 0), ⟨_, _, rfl, rfl, rfl⟩,
      by simp [Lua.Rest.Settled]⟩
  exact .intro ready rfl ⟨valid, rfl, rfl⟩ rfl reaches (current.trans hcurrent) throwing (by simpa using uncaught)
    (ends_resumed _)

end Raiser

/-- A callback runs out of memory: the call says so, and the coroutine gives the same text with another outcome. -/
theorem failure_paths_memory :
    (∃ i w', invoke (engine 2) Raiser.function [.obj 1] Raiser.world = some (.ok (.obj i), w') ∧
      w'.objects[i]? = some (.error ⟨.memory, "MemoryError: boom"⟩ false)) ∧
    ∃ i w', resume (engine 2) 3 Caller.coroutine [.obj 1] Raiser.world = some (.ok (.obj i), w') ∧
      w'.objects[i]? = some (.error ⟨.runtime, "MemoryError: boom"⟩ false) ∧ w'.Notes 3 .runtime := by
  obtain ⟨hcalls, hturns, hhost⟩ := failure_paths Raiser.fault
  obtain ⟨hmessage, hmemory, -⟩ := hhost (by decide +kernel)
  have hdescribed : Raiser.fault.message = "MemoryError: boom" := hmessage.trans (by decide +kernel)
  have htold : ErrorStatus.ofMessage "MemoryError: boom" = .runtime := by decide +kernel
  have hcalled := (hcalls Raiser.callThrows).ordinary (by decide +kernel)
  have hresumed := hturns Raiser.turnThrows
  rw [(hmemory (by decide +kernel)).1, hdescribed] at hcalled
  rw [hdescribed, htold] at hresumed
  exact ⟨hcalled, hresumed⟩

end Bridge

end HostedLua
