import HostedLua.Proofs.Coroutine.Handle
import HostedLua.Proofs.History.Moment

/-! Closing at most once. A handle notes an attempt to close it before anything else happens, and never forgets it. So
the first attempt alone can have `coroutine.close` called on the thread, and whatever runs for that, Lua code and
callbacks that attempt it again among it, finds the attempt noted. -/

namespace HostedLua

open Host

namespace World

variable {w w' : World} {id : Nat} {h : Handle}

def Shut (id : Nat) (w : World) : Prop := ∃ h, w.objects[id]? = some (.handle h) ∧ h.closed = true

def shut (w : World) (id : Nat) (h : Handle) : World := w.withHandle id { h with closed := true }

theorem shut_shut (hid : w.objects[id]? = some (.handle h)) : (w.shut id h).Shut id :=
  ⟨_, (withHandle_objects hid id).trans (if_pos rfl), rfl⟩

/-- A handle that has noted it before notes nothing new. -/
theorem shut_self (hid : w.objects[id]? = some (.handle h)) (hclosed : h.closed = true) : w.shut id h = w := by
  have hsame : ({ h with closed := true } : Handle) = h := by rw [← hclosed]
  have hlt : id < w.objects.size := (Array.getElem?_eq_some_iff.mp hid).1
  have hobjects : w.objects.set! id (.handle h) = w.objects := by
    refine Array.ext_getElem? fun i => ?_
    rw [Array.set!_eq_setIfInBounds]
    by_cases hi : id = i
    · subst hi
      rw [Array.getElem?_setIfInBounds_self_of_lt hlt, hid]
    · rw [Array.getElem?_setIfInBounds_ne hi]
  rw [shut, withHandle, hsame, hobjects]

/-- No handle forgets that it has been closed. -/
instance : OfObjects (Shut id) where
  same hobjects := by
    rintro ⟨h, hid, hclosed⟩
    exact ⟨h, hobjects ▸ hid, hclosed⟩
  object o := by
    rintro ⟨h, hid, hclosed⟩
    exact ⟨h, getElem?_push_some hid o, hclosed⟩
  handle := by
    rintro w i g g' ⟨h, hid, hclosed⟩ found - closed
    by_cases hi : id = i
    · subst hi
      obtain rfl := Object.handle.inj (Option.some.inj (hid.symm.trans found))
      exact ⟨g', (withHandle_objects found id).trans (if_pos rfl), closed hclosed⟩
    · exact ⟨h, (withHandle_objects found id).trans ((if_neg hi).trans hid), hclosed⟩

end World

namespace Bridge

open World

variable {E : Engine} {host : Handler} {n id : Nat} {h : Handle} {w w' v : World} {s : LuaState} {args : List Value}

/-! ### One attempt -/

/-- An attempt to close a handle that has noted one before does nothing. -/
theorem closeCoroutine_shut (E : Engine) (hw : w.Shut id) : closeCoroutine E id w = some (.ok ⟨⟩, w) := by
  obtain ⟨h, hid, hclosed⟩ := hw
  rw [closeCoroutine, bind_ok (object_apply id w), hid]
  dsimp only [Option.getD_some]
  rw [if_pos hclosed]
  rfl

/-- The state of a handle that is valid is open. -/
theorem isOpen_of_valid (hs : w.states[h.state]? = some s) (hv : isValid h w = some (.ok true, w)) :
    s.isOpen = true := by
  obtain ⟨hvalid, -⟩ := Prod.mk.inj (Option.some.inj ((valid_apply h w).symm.trans hv))
  have hvalid := Except.ok.inj hvalid
  rw [World.valid, Bool.and_eq_true, Bool.and_eq_true] at hvalid
  exact (opened_eq hs).symm.trans hvalid.1.2

/-- An attempt that is due notes itself, and has `coroutine.close` called on the thread, once. -/
theorem closeCoroutine_due (E : Engine) (hid : w.objects[id]? = some (.handle h))
    (hs : w.states[h.state]? = some s) (hc : Closable w h s) : closeCoroutine E id w =
      holding [.obj id, h.guest] h.state (do
        afterClosing (errorMessage E) (← protectedCall (callLua E h.state (.builtin .coClose) [h.guest])))
        (w.shut id h) := by
  have hheld : ((w.shut id h).hold [.obj id, h.guest] h.state).states[h.state]? = some s := hs
  have hdue : (h.owns && true && s.needsThreadClose) = true := by
    rw [hc.owns, needsThreadClose_of_byHand hc.byHand]
    rfl
  rw [closeCoroutine_first E hid hs hc.first hc.valid, if_pos hdue, ← shut, holding_eq, holding_eq,
    closeThread_byHand hheld (isOpen_of_valid hs hc.valid) hc.byHand]

/-- An attempt that is not due notes itself, and does nothing else. -/
theorem closeCoroutine_undue (E : Engine) (hid : w.objects[id]? = some (.handle h))
    (hnot : ∀ s, w.states[h.state]? = some s → ¬ Closable w h s) :
    ∃ r, closeCoroutine E id w = some (r, w.shut id h) := by
  cases hclosed : h.closed with
  | true =>
    rw [shut_self hid hclosed]
    exact ⟨_, closeCoroutine_shut E ⟨h, hid, hclosed⟩⟩
  | false =>
    obtain ⟨valid, hvalid⟩ := isValid_total h w
    by_cases hdue : (h.owns && valid) = true
    · obtain ⟨howns, rfl⟩ := Bool.and_eq_true_iff.mp hdue
      obtain ⟨s, hs⟩ := state_of_isValid hvalid
      rw [closeCoroutine_first E hid hs hclosed hvalid, ← shut]
      have hbyHand : s.closing ≠ .byHand := fun hbyHand => hnot s hs ⟨hclosed, howns, hvalid, hbyHand⟩
      split_ifs
      · have hheld : ((w.shut id h).hold [.obj id, h.guest] h.state).states[h.state]? = some s := hs
        obtain ⟨r, hleaves⟩ := closeThread_leaves E (errorMessage E) h.guest hheld hbyHand
        exact ⟨r, holding_of hleaves⟩
      · exact ⟨_, rfl⟩
    · rw [closeCoroutine_notes E hid hclosed hvalid, if_neg hdue]
      exact ⟨_, rfl⟩

/-- What an attempt to close a handle does, whoever runs Lua code for it. -/
inductive Attempt (id : Nat) (w : World) : Prop where
  /-- It has `coroutine.close` called on the thread, once, and makes a note or a text of what comes of that. -/
  | calls {h : Handle} {s : LuaState} (found : w.objects[id]? = some (.handle h))
    (state : w.states[h.state]? = some s) (due : Closable w h s)
    (run : ∀ E, closeCoroutine E id w =
      holding [.obj id, h.guest] h.state (do
        afterClosing (errorMessage E) (← protectedCall (callLua E h.state (.builtin .coClose) [h.guest])))
        (w.shut id h))
  /-- It is noted, and nothing else happens. -/
  | notes {h : Handle} (found : w.objects[id]? = some (.handle h))
    (undue : ∀ s, w.states[h.state]? = some s → ¬ Closable w h s)
    (run : ∀ E, ∃ r, closeCoroutine E id w = some (r, w.shut id h))

theorem attempt_handle (hid : w.objects[id]? = some (.handle h)) : Attempt id w := by
  by_cases hdue : ∃ s, w.states[h.state]? = some s ∧ Closable w h s
  · obtain ⟨s, hs, hc⟩ := hdue
    exact .calls hid hs hc fun E => closeCoroutine_due E hid hs hc
  · have hnot (s : LuaState) (hs : w.states[h.state]? = some s) : ¬ Closable w h s := fun hc => hdue ⟨s, hs, hc⟩
    exact .notes hid hnot fun E => closeCoroutine_undue E hid hnot

/-! ### All attempts -/

/-- Attempts to close a handle, in the order in which they begin. Each begins while the session goes on from where the
one before has been noted: what that one has had run may still be under way. -/
inductive Attempts (host : Handler) (id : Nat) : World → List World → World → Prop where
  | none {w w' : World} (onward : Onward (Shut id) host w w') : Attempts host id w [] w'
  | begins {w v w' : World} {h : Handle} {vs : List World} (onward : Onward (Shut id) host w v)
    (found : v.objects[id]? = some (.handle h)) (later : Attempts host id (v.shut id h) vs w') :
    Attempts host id w (v :: vs) w'

/-- Once one attempt has been noted, all others find it noted. -/
theorem Attempts.shut {vs : List World} (hosts : host.Preserves (Shut id)) (h : Attempts host id w vs w')
    (hw : w.Shut id) : ∀ v ∈ vs, v.Shut id := by
  induction h with
  | none => exact fun v hv => absurd hv List.not_mem_nil
  | begins onward found _ ih =>
    obtain ⟨hv, -⟩ := onward.keeps hosts hw
    exact List.forall_mem_cons.mpr ⟨hv, ih (shut_shut found)⟩

theorem Attempts.attempt {vs : List World} (h : Attempts host id w vs w') : ∀ v ∈ vs, Attempt id v := by
  induction h with
  | none => exact fun v hv => absurd hv List.not_mem_nil
  | begins _ found _ ih => exact List.forall_mem_cons.mpr ⟨attempt_handle found, ih⟩

/-- All attempts but the first one find one noted. -/
theorem Attempts.later {vs : List World} (hosts : host.Preserves (Shut id)) (h : Attempts host id w vs w') :
    ∀ v ∈ vs.tail, v.Shut id := by
  cases h with
  | none => exact fun v hv => absurd hv List.not_mem_nil
  | begins _ found later => exact later.shut hosts (shut_shut found)

/-! ### Closed states -/

/-- A handle of a closed state is not valid. -/
theorem invalid_of_closed (hs : w.states[h.state]? = some s) (hclosed : s.isOpen = false) :
    isValid h w = some (.ok false, w) := by
  have hvalid : w.valid h = false := by rw [World.valid, opened_eq hs, hclosed, Bool.and_false, Bool.false_and]
  rw [valid_apply, hvalid]

theorem complained_states (w : World) (h : Handle) (what : Text) : (w.complained h what).states = w.states := by
  rw [World.complained]
  split_ifs
  · split <;> rfl
  · rfl

/-- Closing or resuming a handle of a closed state leaves all states alone. -/
theorem untouched (E : Engine) (hid : w.objects[id]? = some (.handle h)) (hs : w.states[h.state]? = some s)
    (hclosed : s.isOpen = false) (args : List Value) :
    (∃ r v, closeCoroutine E id w = some (r, v) ∧ v.states = w.states) ∧
      ∃ v, resume E id h args w = some (.ok .none, v) ∧ v.states = w.states := by
  have hinvalid := invalid_of_closed hs hclosed
  refine ⟨?_, w.complained h "thread", ?_, complained_states w h "thread"⟩
  · have hnot (s' : LuaState) (_ : w.states[h.state]? = some s') : ¬ Closable w h s' := by
      intro hc
      cases hinvalid.symm.trans hc.valid
    obtain ⟨r, hr⟩ := closeCoroutine_undue E hid hnot
    exact ⟨r, _, hr, rfl⟩
  · rw [resume, bind_ok (requireState_invalid "thread" hinvalid)]
    rfl

/-- Of all attempts to close a handle only the first can have `coroutine.close` called on the thread, and it does so just
if it is due then: the handle owns the thread and is valid, and its state closes threads by hand. Every later attempt
does nothing, those among them that begin while the first is under way. And once the state of the handle is closed, no
attempt to close it and no resumption does anything to any state. -/
theorem closes_once (hosts : ∀ {I : World → Prop} [OfObjects I], host.Preserves I) {vs : List World}
    (attempts : Attempts host id w vs w') :
    (∀ v ∈ vs, Attempt id v) ∧ (∀ v ∈ vs.tail, ∀ E, closeCoroutine E id v = some (.ok ⟨⟩, v)) ∧
      ∀ {u v : World} {h : Handle} {s : LuaState}, u.objects[id]? = some (.handle h) →
        u.states[h.state]? = some s → s.isOpen = false → Moment host u v →
        ∃ k, v.objects[id]? = some (.handle k) ∧ k.state = h.state ∧ ∀ E args,
          (∃ r v', closeCoroutine E id v = some (r, v') ∧ v'.states = v.states) ∧
            ∃ v', resume E id k args v = some (.ok .none, v') ∧ v'.states = v.states := by
  refine ⟨attempts.attempt, fun v hv E => closeCoroutine_shut E (attempts.later hosts v hv), ?_⟩
  intro u v h s hid hs hclosed moment
  have hfollows := moment.follows hosts
  obtain ⟨k, hk, hkept⟩ := hfollows.handles hid
  obtain ⟨s', hs', -, hopen⟩ := hfollows.states hs
  have hclosed' : s'.isOpen = false := Bool.eq_false_iff.mpr fun ho => Bool.false_ne_true (hclosed.symm.trans (hopen ho))
  exact ⟨k, hk, hkept.state, fun E args => untouched E hk (hkept.state ▸ hs') hclosed' args⟩

/-- A handle is closed twice. -/
theorem closes_once_twice : ∃ v vs w', Attempts runCallback 4 (Lone.made .utf8 {}) (v :: vs) w' ∧ vs.length = 1 ∧
    (∃ h s, v.objects[4]? = some (.handle h) ∧ v.states[h.state]? = some s ∧ Closable v h s) ∧ Attempt 4 v ∧
    ∀ u ∈ vs, ∀ E, closeCoroutine E 4 u = some (.ok ⟨⟩, u) := by
  let v : World := Lone.made .utf8 {}
  have hid : v.objects[4]? = some (.handle Lone.coroutine) := rfl
  have hshut : (v.shut 4 Lone.coroutine).objects[4]? = some (.handle { Lone.coroutine with closed := true }) := rfl
  have attempts : Attempts runCallback 4 v [v, v.shut 4 Lone.coroutine] _ :=
    .begins .refl hid (.begins .refl hshut (.none .refl))
  obtain ⟨hall, hlater, -⟩ := closes_once preserves_runCallback attempts
  refine ⟨v, _, _, attempts, rfl, ⟨Lone.coroutine, _, hid, rfl, rfl, rfl, Lone.valid .utf8 {}, rfl⟩, ?_, hlater⟩
  exact hall v (List.mem_cons_self ..)

end Bridge

end HostedLua
