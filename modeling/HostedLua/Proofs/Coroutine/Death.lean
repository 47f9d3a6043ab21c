import HostedLua.Proofs.Coroutine.Life
import HostedLua.Proofs.History.Lapse

/-! What closing a handle does to its thread, at whatever moment of a session it is closed. A suspended thread is dead
from then on, and every resumption is refused. But the attempt is noted before `coroutine.close` is called, and Lua
closes neither a thread that runs or waits nor any thread where calls nest too deep. Such a thread is left alone, and no
later attempt closes it. -/

namespace HostedLua

open Host

namespace Bridge

open World Lua.Machine

variable {E : Engine} {n id state t : Nat} {h : Handle} {w w' u v w₀ : World} {s s₀ : LuaState} {rest : Lua.Rest}
  {args : List Value} {α : Type}

/-! ### Calls that are refused for their depth -/

/-- What Lua code threw is raised, and threads will do what they would. -/
theorem raiseThrown_rests {e : Lua.Thrown} {r : Except Fault α} {i : Nat} (hrests : w.Rests i t rest)
    (h : raiseThrown state e w = some (r, w')) : w'.Rests i t rest := by
  have hraise {kind : String} {text : Text} (h : (raise kind text : Bridge α) w = some (r, w')) :
      w'.Rests i t rest := by
    obtain ⟨-, rfl⟩ := Prod.mk.inj (Option.some.inj h)
    exact hrests
  cases e with
  | memory => exact hraise h
  | value u =>
    cases u with
    | str b =>
      rw [raiseThrown, bind_ok (state?_apply state w)] at h
      cases hs : w.states[state]? <;> rw [hs] at h <;> exact hraise h
    | host id =>
      rw [raiseThrown, bind_ok (object_apply id w), bind_ok (state?_apply state w)] at h
      generalize (w.objects[id]?).getD .nothing = o at h
      cases hs : w.states[state]? with
      | none =>
        rw [hs] at h
        cases o <;> exact hraise h
      | some s =>
        rw [hs] at h
        cases o with
        | fault f =>
          dsimp only at h
          cases hpending : s.pending with
          | none =>
            rw [hpending] at h
            exact hraise h
          | some g =>
            -- only what is to be raised is taken from the state
            rw [hpending] at h
            obtain ⟨-, rfl⟩ := Prod.mk.inj (Option.some.inj h)
            obtain ⟨s', th, hs', hth, hrest⟩ := hrests
            refine ⟨_, th, getElem?_modify_some hs' _ _, ?_, hrest⟩
            split_ifs <;> exact hth
        | _ => exact hraise h
    | _ => exact hraise h

/-- The host's call of a library function that is refused for its depth fails, and threads will do what they would. -/
theorem callLua_deep {f : Lua.Builtin} {r : Except Fault (List Value)} (hw : w.Sound) (hs : w.states[state]? = some s)
    (hdeep : ¬ Fits s.machine) (h : callLua (engine (n + 1)) state (.builtin f) args w = some (r, w')) :
    (∃ e, r = .error e) ∧ ∀ {t : Nat} {rest : Lua.Rest}, w.Rests state t rest → w'.Rests state t rest := by
  rcases bind_some h with ⟨e, he, rfl⟩ | ⟨us, v, hus, hraises⟩
  · rw [Still.mapM still_push _ he]
    exact ⟨⟨e, rfl⟩, id⟩
  · obtain rfl := Still.mapM still_push _ hus
    obtain ⟨m', e, hrun, hrest⟩ : ∃ m' e, (s.machine.calling f us).run 1000000000000 = some (m', .done (.error e)) ∧
        ∀ {t rest}, Lua.Machine.HasRest s.machine.threads t rest → Lua.Machine.HasRest m'.threads t rest :=
      run_deep (hw hs) hdeep 999999999997
    rw [runProg, bind_ok (engineRun_builtin hs hrun)] at hraises
    have herror : ∃ e, r = .error e := by
      cases r with
      | ok vs => exact absurd hraises (fails_raiseThrown e _ vs w')
      | error e => exact ⟨e, rfl⟩
    refine ⟨herror, fun hrests => raiseThrown_rests ?_ hraises⟩
    exact (rests_iff (withMachine_states hs)).mpr (hrest ((rests_iff hs).mp hrests))

/-! ### Closing -/

/-- Where `coroutine.close` fails, that is at most logged. -/
theorem afterClosing_error {x : Bridge (List Value)} {text : Value → Bridge Text} {e : Fault} {r : Except Fault Unit}
    (hx : x w = some (.error e, v)) (h : (protectedCall x >>= afterClosing text) w = some (r, w')) :
    w'.states = v.states := by
  by_cases hordinary : e.isOrdinary = true
  · rw [bind_ok (protectedCall_error hordinary hx)] at h
    obtain ⟨-, rfl⟩ := Prod.mk.inj (Option.some.inj h)
    rfl
  · rw [bind_error (protectedCall_extraordinary (Bool.eq_false_iff.mpr hordinary) hx)] at h
    obtain ⟨-, rfl⟩ := Prod.mk.inj (Option.some.inj h)
    rfl

/-- A handle that can be closed notes it, and has `coroutine.close` called on its thread. -/
theorem closeCoroutine_calls {r : Except Fault Unit} (hid : w.objects[id]? = some (.handle h))
    (hs : w.states[h.state]? = some s) (hc : Closable w h s) (run : closeCoroutine E id w = some (r, w')) :
    ∃ rc v v', callLua E h.state (.builtin .coClose) [h.guest] ((w.shut id h).hold [.obj id, h.guest] h.state) =
        some (rc, v) ∧
      (protectedCall (callLua E h.state (.builtin .coClose) [h.guest]) >>= afterClosing (errorMessage E))
        ((w.shut id h).hold [.obj id, h.guest] h.state) = some (r, v') ∧ w' = v'.release (w.shut id h) := by
  rw [closeCoroutine_due E hid hs hc] at run
  obtain ⟨v', hv', rfl⟩ := holding_some run
  obtain ⟨rc, v, hcall⟩ := protectedCall_called hv'
  exact ⟨rc, v, v', hcall, hv', rfl⟩

/-- What closing a handle that can be closed leaves of its thread. -/
theorem closeCoroutine_rests {r : Except Fault Unit} (hw : w.Sound) (hid : w.objects[id]? = some (.handle h))
    (hs : w.states[h.state]? = some s) (hc : Closable w h s) (ht : w.IsThread h.state h.guest t)
    (hrests : w.Rests h.state t rest) (hsettled : ¬ rest.Settled)
    (run : closeCoroutine (engine (n + 1)) id w = some (r, w')) :
    (Fits s.machine → w'.Rests h.state t .dead) ∧ (¬ Fits s.machine → w'.Rests h.state t rest) := by
  obtain ⟨rc, v, v', hcall, hrest, rfl⟩ := closeCoroutine_calls hid hs hc run
  let u : World := (w.shut id h).hold [.obj id, h.guest] h.state
  have hu : u.Sound := hw.of_eq rfl
  have hkept : h.Kept { h with closed := true } := ⟨rfl, rfl, rfl, rfl⟩
  have hset : setObject id (.handle { h with closed := true }) w = some (.ok ⟨⟩, w.shut id h) := rfl
  obtain ⟨-, hshut⟩ := keeps_setHandle hw hid hkept (fun _ => rfl) hset
  have hk : w.Kept u := hshut.trans (.of_eq rfl rfl rfl)
  have hsu : u.states[h.state]? = some s := hs
  have hrestsu : u.Rests h.state t rest := hrests.of_states rfl
  refine ⟨fun hfits => ?_, fun hdeep => ?_⟩
  · have hdead := callLua_coClose hu hsu hfits hrestsu hsettled (ht.kept hk) hcall
    obtain ⟨hv, -⟩ := keeps_callLua (engine_keeps (n + 1)) _ _ _ hu hcall
    obtain ⟨-, hkv⟩ := protectedCall_afterClosing (keeps_errorMessage (engine_keeps (n + 1))) hcall hv hrest
    exact (hdead.kept (.inr rfl) hkv).of_states rfl
  · obtain ⟨⟨e, rfl⟩, hleft⟩ := callLua_deep hu hsu hdeep hcall
    have hsame : v'.states = v.states := afterClosing_error hcall hrest
    exact (hleft hrestsu).of_states hsame

/-- An attempt to close a handle that can be closed is noted. -/
theorem shut_closeCoroutine {r : Except Fault Unit} (hid : w.objects[id]? = some (.handle h))
    (hs : w.states[h.state]? = some s) (hc : Closable w h s)
    (run : closeCoroutine (engine n) id w = some (r, w')) : w'.Shut id := by
  have hE := shut_engine id n
  rw [closeCoroutine_due _ hid hs hc] at run
  have hkeeps := (keeps_callLua hE h.state (.builtin .coClose) [h.guest]).protectedCall.bind
    (keeps_afterClosing (keeps_errorMessage hE))
  exact (hkeeps.holding (shut_shut hid) run).1

/-! ### Resumptions that are refused -/

/-- However a handle is resumed next with arguments that cross, it gives an error value that says that its thread is
dead, and notes it, where calls do not nest too deep. -/
def IsRefused (id : Nat) (w : World) : Prop :=
  ∀ {n : Nat} {h : Handle} {s : LuaState} {args guests : List Value} {us : List Lua.Value} {v : World},
    w.objects[id]? = some (.handle h) → w.states[h.state]? = some s → Fits s.machine →
    Crosses id h args guests us w v → ∃ o w', resume (engine (n + 1)) id h args w = some (.ok (.obj o), w') ∧
      w'.objects[o]? = some (.error ⟨.runtime, deadText⟩ false) ∧ w'.Notes id .runtime

theorem isRefused (horderly : w.Orderly h.state) (hid : w.objects[id]? = some (.handle h))
    (ht : w.IsThread h.state h.guest t) (hdead : w.Rests h.state t .dead) : IsRefused id w := by
  intro n k s args guests us v hid' hs hfits hcrosses
  obtain rfl := Object.handle.inj (Option.some.inj (hid.symm.trans hid'))
  obtain ⟨hv, hk⟩ := converted_keeps_hold horderly.sound hcrosses.converted
  obtain ⟨s', hs', hks⟩ := hk.states hs
  obtain ⟨s'', hs'', hlinked⟩ := (horderly.kept hv hk).linked
  obtain rfl := Option.some.inj (hs'.symm.trans hs'')
  have hsound : s'.machine.Sound := hv hs'
  have hdead' : HasRest s'.machine.threads t .dead := (rests_iff hs').mp (hdead.kept (.inr rfl) hk)
  have hstatus : (s'.machine.begun .coResume (.thread t :: us)).status t = .dead :=
    (hlinked.enter (p := callProg (.builtin .coResume) (.thread t :: us)) hsound).status_dead hdead'.enter
  obtain ⟨m', hrun⟩ := run_coResume_refused us hsound (hks.machine.fits hfits) hstatus 999999999996
  obtain ⟨o, w', hresume, hvalue, hnotes, -⟩ := resume_dead n horderly.sound hid ht hcrosses hs' hrun
  exact ⟨o, w', hresume, hvalue, hnotes⟩

/-! ### From closing on -/

/-- A handle is closed for the first time, at any moment of a session in which it has begun with no thread under way but
the main one. The thread that it owns is dead then just if it has been dead before or was suspended, and the call of
`coroutine.close` was not refused for its depth; else it is left alone. No later attempt closes it. And once the thread
is dead it stays so, and every resumption of the handle is refused. -/
theorem closed_dead_iff {r : Except Fault Unit} (sound : w₀.Sound) (found₀ : w₀.states[h.state]? = some s₀)
    (main : s₀.machine.current = 0 ∧ s₀.machine.waiting = []) (later : Later w₀ w)
    (found : w.objects[id]? = some (.handle h)) (state : w.states[h.state]? = some s)
    (thread : w.IsThread h.state h.guest t) (rests : w.Rests h.state t rest) (closable : Closable w h s)
    (run : closeCoroutine (engine (n + 1)) id w = some (r, w')) :
    (w'.Rests h.state t .dead ↔ rest = .dead ∨ ¬ rest.Settled ∧ Fits s.machine) ∧
      (¬ w'.Rests h.state t .dead → w'.Rests h.state t rest) ∧
      (∀ v, Later w' v → ∀ E, closeCoroutine E id v = some (.ok ⟨⟩, v)) ∧
      (w'.Rests h.state t .dead → ∀ v, Later w' v → v.Rests h.state t .dead ∧ IsRefused id v) := by
  have hstart : w₀.Orderly h.state := ⟨sound, s₀, found₀, linked_main (sound found₀) main.1 main.2⟩
  have horderly := (later.remains hstart).orderly
  obtain ⟨hw', hk⟩ := keeps_closeCoroutine (engine_keeps (n + 1)) id horderly.sound run
  have horderly' := horderly.kept hw' hk
  have hshut := shut_closeCoroutine found state closable run
  obtain ⟨k, hfound', hkept⟩ := hk.handles found
  have hleft : rest.Settled → w'.Rests h.state t rest := fun hsettled => rests.kept hsettled hk
  have hclosed : ¬ rest.Settled → _ := fun hsettled =>
    closeCoroutine_rests horderly.sound found state closable thread rests hsettled run
  refine ⟨?_, ?_, fun v hv E => ?_, fun hdead v hv => ?_⟩
  · constructor
    · intro hdead
      by_cases hsettled : rest.Settled
      · exact .inl (hdead.unique (hleft hsettled)).symm
      · refine .inr ⟨hsettled, of_not_not fun hdeep => ?_⟩
        exact hsettled (.inr (((hclosed hsettled).2 hdeep).unique hdead))
    · rintro (rfl | ⟨hsettled, hfits⟩)
      · exact hleft (.inr rfl)
      · exact (hclosed hsettled).1 hfits
  · intro hnot
    by_cases hsettled : rest.Settled
    · exact hleft hsettled
    · exact (hclosed hsettled).2 fun hfits => hnot ((hclosed hsettled).1 hfits)
  · exact closeCoroutine_shut E ((hv.remains horderly').shut hshut)
  · have hremains := hv.remains horderly'
    obtain ⟨k', hfound'', hkept'⟩ := hremains.handles hfound'
    have hstate : k'.state = h.state := hkept'.state.trans hkept.state
    have hguest : k'.guest = h.guest := hkept'.guest.trans hkept.guest
    have hdead' := hremains.dead hdead
    refine ⟨hdead', isRefused (t := t) (hstate ▸ hremains.orderly) hfound'' ?_ (hstate ▸ hdead')⟩
    rw [hstate, hguest]
    exact hremains.isThread (thread.kept hk)

namespace Caller

/-! The body of a coroutine calls its argument, a callback that closes the coroutine. -/

def machine : Lua.Machine :=
  { heap := { closures := #[⟨.mk 1 1 .dropped [.call (.call 1 (.var .own 0 (.ofString "cb")) [])], []⟩] }
    threads := #[{ rest := .waiting }, { rest := .fresh (.closure 0) }] }

def coroutine : Handle := { kind := .coroutine, state := 0, guest := .obj 2, owns := true }

def opened (machine : Lua.Machine) : LuaState :=
  { config := 0, diagnostics := 0, charset := .utf8, machine, globals := 0 }

def world : World :=
  { objects := #[.nothing, .callback (.action (.close "co") 0), .guest ⟨0, .thread 1, false⟩, .handle coroutine]
    configs := #[{}], diagnostics := #[[]], states := #[opened machine]
    languages := #[{ config := 0, diagnostics := 0, state := some 0 }] }

def prog : Lua.Prog := callProg (.builtin .coResume) [.thread 1, .host 1]

/-- The machine when the body asks the host for the call. -/
def asking : Lua.Machine :=
  match (machine.enter prog).run 60 with
  | some (m, _) => m
  | none => machine

def asks : Option (Lua.Machine × Lua.Stop) → Bool
  | some (_, .asks (.call 1 [])) => true
  | _ => false

theorem run_asking : (machine.enter prog).run 60 = some (asking, .asks (.call 1 [])) := by
  have hasks : asks ((machine.enter prog).run 60) = true := by cbv
  unfold asks at hasks
  split at hasks
  · next m hrun => rw [asking, hrun]
  · contradiction

def during : World := world.withMachine 0 asking

def isWaiting : Option Lua.Thread → Bool
  | some ⟨.waiting, _, _⟩ => true
  | _ => false

/-- The body waits for what comes of its call. -/
theorem rests_during : during.Rests 0 1 .waiting := by
  have hwaiting : isWaiting asking.threads[1]? = true := by cbv
  unfold isWaiting at hwaiting
  split at hwaiting
  · next hth => exact ⟨opened asking, _, rfl, hth, rfl⟩
  · contradiction

theorem closable_during : Closable during coroutine (opened asking) := ⟨rfl, rfl, by cbv, rfl⟩

def refuses : Option (Except Fault (List Value) × World) → Bool
  | some (.error f, _) => f.kind == .ofString "LuaError"
  | _ => false

/-- Lua does not close the coroutine, and the host goes on. -/
theorem closes_during : ∃ w', closeCoroutine (engine 1) 3 during = some (.ok ⟨⟩, w') := by
  have hrefuses : refuses (callLua (engine 1) 0 (.builtin .coClose) [.obj 2]
      ((during.shut 3 coroutine).hold [.obj 3, .obj 2] 0)) = true := by cbv
  have hordinary : FaultKind.isA (.ofString "LuaError") "Exception" = true := by decide +kernel
  unfold refuses at hrefuses
  split at hrefuses
  · next f v hcall =>
    have hf : f.isOrdinary = true := by rw [Fault.isOrdinary, eq_of_beq hrefuses, hordinary]
    rw [closeCoroutine_due _ rfl rfl closable_during]
    exact ⟨_, holding_of (bind_ok (protectedCall_error hf hcall))⟩
  · contradiction

end Caller

/-- The body of a coroutine has called a callback that closes the coroutine: Lua refuses to, the coroutine goes on
waiting, and no later attempt does anything. -/
theorem closed_dead_iff_waiting : ∃ w', Later Caller.world Caller.during ∧
    closeCoroutine (engine 1) 3 Caller.during = some (.ok ⟨⟩, w') ∧ ¬ w'.Rests 0 1 .dead ∧ w'.Rests 0 1 .waiting ∧
    ∀ v, Later w' v → ∀ E, closeCoroutine E 3 v = some (.ok ⟨⟩, v) := by
  have sound : Caller.world.Sound := World.sound_single rfl ((Lua.Machine.Sound.new _).push Lua.Machine.noEntry_nil)
  obtain ⟨m, reaches, stops⟩ : ∃ m, Reaches (engine 0) 0 (Caller.world, _) (Caller.world, m) ∧ _ :=
    reaches_run Caller.run_asking
  have later : Later Caller.world Caller.during := .single (.begins rfl reaches stops)
  obtain ⟨w', run⟩ := Caller.closes_during
  have thread : Caller.during.IsThread 0 (.obj 2) 1 := ⟨2, rfl, rfl⟩
  obtain ⟨hiff, hleft, hshut, -⟩ :=
    closed_dead_iff sound rfl ⟨rfl, rfl⟩ later rfl rfl thread Caller.rests_during Caller.closable_during run
  have halive : ¬ w'.Rests 0 1 .dead := by
    intro hdead
    rcases hiff.mp hdead with h | ⟨hnot, -⟩
    · cases h
    · exact hnot (.inl rfl)
  exact ⟨w', later, run, halive, hleft halive, hshut⟩

end Bridge

end HostedLua
