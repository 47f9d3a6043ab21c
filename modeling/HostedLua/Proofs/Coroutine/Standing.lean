import HostedLua.Proofs.Coroutine.Turn
import HostedLua.Proofs.Container.Frame

/-! Where a coroutine stands, when no call by the host is under way on its state: its thread is suspended or dead, and
its handle carries a status. A conversion of arguments changes nothing in that. If the arguments are then refused where
they are pushed, only the status changes. -/

namespace HostedLua

open Host

namespace World

/-- The status that a handle carries. -/
def Notes (w : World) (id : Nat) (status : CoroutineStatus) : Prop :=
  ∃ h, w.objects[id]? = some (.handle h) ∧ h.status = status

/-- Nothing between two worlds has noted anything on a handle, or resumed or closed its thread. -/
structure Leaves (w w' : World) (id state t : Nat) : Prop where
  notes : ∀ {status}, w.Notes id status → w'.Notes id status
  rests : ∀ {rest}, w.Rests state t rest → w'.Rests state t rest

/-- A handle stands for a thread of a state that is open, and on which no call by the host is under way. -/
structure Hosts (w : World) (id state t : Nat) : Prop where
  sound : w.Sound
  handle : ∃ h, w.objects[id]? = some (.handle h) ∧ h.state = state ∧ w.IsThread state h.guest t
  found : ∃ s, w.states[state]? = some s ∧ s.isOpen = true ∧ s.machine.Idle

/-- A thread is suspended. -/
structure Ready (w : World) (id state t : Nat) : Prop where
  hosts : w.Hosts id state t
  rests : ∃ rest, w.Rests state t rest ∧ ¬ rest.Settled

/-- A thread is dead. -/
structure Spent (w : World) (id state t : Nat) : Prop where
  hosts : w.Hosts id state t
  rests : w.Rests state t .dead

variable {w w' : World} {id state t : Nat} {s : LuaState} {rest : Lua.Rest} {a b : CoroutineStatus}

theorem Notes.unique (ha : w.Notes id a) (hb : w.Notes id b) : a = b := by
  obtain ⟨h, hh, rfl⟩ := ha
  obtain ⟨h', hh', rfl⟩ := hb
  rw [Object.handle.inj (Option.some.inj (hh.symm.trans hh'))]

/-- A new object takes nothing from what a handle notes. -/
theorem Notes.of_push {o : Object} (h : w.Notes id a) (hw' : w'.objects = w.objects.push o) : w'.Notes id a := by
  obtain ⟨k, hk, hstatus⟩ := h
  have hlt : id < w.objects.size := (Array.getElem?_eq_some_iff.mp hk).1
  refine ⟨k, ?_, hstatus⟩
  rw [hw', Array.getElem?_push_lt hlt, ← hk, Array.getElem?_eq_getElem hlt]

theorem Leaves.refl (w : World) (id state t : Nat) : w.Leaves w id state t := ⟨fun h => h, fun h => h⟩

/-- A handle that carries other notes but the same status. -/
theorem Leaves.withHandle {h h' : Handle} (hid : w.objects[id]? = some (.handle h)) (hstatus : h'.status = h.status)
    (state t : Nat) : w.Leaves (w.withHandle id h') id state t := by
  refine ⟨fun ⟨k, hk, hnotes⟩ => ⟨h', (withHandle_objects hid id).trans (if_pos rfl), ?_⟩, fun h => h⟩
  obtain rfl := Object.handle.inj (Option.some.inj (hid.symm.trans hk))
  exact hstatus.trans hnotes

theorem Rests.of_states (h : w.Rests state t rest) (hs : w'.states = w.states) : w'.Rests state t rest := by
  obtain ⟨s, th, hs', hth, hrest⟩ := h
  exact ⟨s, th, hs ▸ hs', hth, hrest⟩

/-- A state that is open was so before. -/
theorem Kept.isOpen (hk : w.Kept w') (hs : w.states[state]? = some s)
    (hopen : Bridge.isOpen state w' = some (.ok true, w')) : s.isOpen = true := by
  obtain ⟨s', hs', hks⟩ := hk.states hs
  rw [Bridge.isOpen_apply hs'] at hopen
  exact hks.opened (Except.ok.inj (Prod.mk.inj (Option.some.inj hopen)).1)

theorem isOpen_congr {b : Bool} (hs : w'.states = w.states) (h : Bridge.isOpen state w' = some (.ok b, w')) :
    Bridge.isOpen state w = some (.ok b, w) := by
  rw [Bridge.opened_apply, opened, hs] at h
  obtain ⟨rfl, -⟩ := Bridge.ok_inj h
  exact Bridge.opened_apply state w

theorem Hosts.kept (h : w.Hosts id state t) (hw' : w'.Sound) (hk : w.Kept w')
    (hopen : Bridge.isOpen state w' = some (.ok true, w')) : w'.Hosts id state t := by
  obtain ⟨g, hg, hstate, ht⟩ := h.handle
  obtain ⟨g', hg', hkg⟩ := hk.handles hg
  obtain ⟨s, hs, -, hidle⟩ := h.found
  obtain ⟨s', hs', hks⟩ := hk.states hs
  refine ⟨hw', ⟨g', hg', hkg.state.trans hstate, hkg.guest ▸ ht.kept hk⟩, s', hs', ?_, hidle.kept hks.machine⟩
  rw [Bridge.isOpen_apply hs'] at hopen
  exact Except.ok.inj (Prod.mk.inj (Option.some.inj hopen)).1

/-- What a thread other than the main one will do shows in its state. -/
theorem Hosts.status (h : w.Hosts id state t) (hs : w.states[state]? = some s) (hrests : w.Rests state t rest)
    (hrest : rest ≠ .waiting) : s.machine.status t = rest.shown := by
  obtain ⟨s', hs', -, hidle⟩ := h.found
  obtain rfl := Option.some.inj (hs.symm.trans hs')
  obtain ⟨s', th, hs', hth, rfl⟩ := hrests
  obtain rfl := Option.some.inj (hs.symm.trans hs')
  obtain ⟨⟨S, hS⟩, -⟩ := h.sound hs
  have hne : t ≠ s.machine.current := by
    rw [hidle.current]
    rintro rfl
    rw [hS.main] at hth
    obtain rfl := Option.some.inj hth
    exact hrest rfl
  exact Lua.Machine.status_of_thread hne hth

theorem Ready.suspended (h : w.Ready id state t) (hs : w.states[state]? = some s) :
    s.machine.status t = .suspended := by
  obtain ⟨rest, hrests, hsettled⟩ := h.rests
  rw [h.hosts.status hs hrests fun hw => hsettled (.inl hw)]
  cases rest with
  | fresh | yielded => rfl
  | waiting => exact absurd (.inl rfl) hsettled
  | dead => exact absurd (.inr rfl) hsettled

theorem Spent.dead (h : w.Spent id state t) (hs : w.states[state]? = some s) : s.machine.status t = .dead :=
  h.hosts.status hs h.rests (by simp)

theorem Spent.kept (h : w.Spent id state t) (hw' : w'.Sound) (hk : w.Kept w')
    (hopen : Bridge.isOpen state w' = some (.ok true, w')) : w'.Spent id state t :=
  ⟨h.hosts.kept hw' hk hopen, h.rests.kept (.inr rfl) hk⟩

theorem Ready.leaves (h : w.Ready id state t) (hw' : w'.Sound) (hk : w.Kept w')
    (hopen : Bridge.isOpen state w' = some (.ok true, w')) (hl : w.Leaves w' id state t) : w'.Ready id state t := by
  obtain ⟨rest, hrests, hsettled⟩ := h.rests
  exact ⟨h.hosts.kept hw' hk hopen, rest, hl.rests hrests, hsettled⟩

end World

namespace Bridge

open World Lua.Machine

variable {E : Engine} {n id state t : Nat} {h : Handle} {w w' w₀ : World} {s : LuaState}
  {args guests values : List Value} {us : List Lua.Value} {res : Except Fault Value}

/-! ### Arguments that cross -/

/-- The outcome that a resumption is noted with. -/
def Resumption.status : Resumption → ErrorStatus
  | .ended _ => .ok
  | .yielded _ => .yielded
  | .failed e => e.status

def Resumption.result : Resumption → Except Failure (List Value)
  | .ended vs | .yielded vs => .ok vs
  | .failed e => .error e

/-- A valid handle is resumed with arguments that are converted and can be pushed. -/
structure Crosses (id : Nat) (h : Handle) (args guests : List Value) (us : List Lua.Value) (w w₀ : World) : Prop where
  valid : isValid h w = some (.ok true, w)
  converted : toGuestValues h.state args (w.hold (.obj id :: h.guest :: args) h.state) = some (.ok (.ok guests), w₀)
  pushed : guests.mapM (push h.state) w₀ = some (.ok us, w₀)

/-- A conversion changes nothing in a machine but its memory, and notes nothing on a handle. -/
theorem converted_leaves {vs : List Value} {r : Except Fault (Except Failure (List Value))}
    (hs : w.states[state]? = some s) (h : toGuestValues state args (w.hold vs state) = some (r, w₀)) :
    w.Leaves w₀ id state t ∧ isOpen state w₀ = some (.ok s.isOpen, w₀) := by
  obtain ⟨g, rfl⟩ : ∃ g, w₀ = (w.hold vs state).after state g := by
    obtain ⟨g, -, ⟨_, -, heq⟩ | ⟨_, -, heq⟩⟩ := toGuestValues_adds state args (w.hold vs state) <;>
    · obtain ⟨-, rfl⟩ := Prod.mk.inj (Option.some.inj (heq.symm.trans h))
      exact ⟨g, rfl⟩
  have hs₀ : ((w.hold vs state).after state g).states[state]? = some (s.withTables g.tables) := after_state hs
  have hopen := isOpen_apply hs₀
  refine ⟨⟨fun ⟨k, hk, hstatus⟩ => ⟨k, object_after hk, hstatus⟩, fun ⟨s', th, hs', hth, hrest⟩ => ?_⟩, hopen⟩
  obtain rfl := Option.some.inj (hs.symm.trans hs')
  exact ⟨_, th, hs₀, hth, hrest⟩

theorem converted_keeps_hold {vs : List Value} {r : Except Fault (Except Failure (List Value))} (hw : w.Sound)
    (h : toGuestValues state args (w.hold vs state) = some (r, w₀)) : w₀.Sound ∧ w.Kept w₀ := by
  obtain ⟨hw₀, hk⟩ := keeps_toGuestValues _ _ (hw.hold vs state) h
  exact ⟨hw₀, (Kept.of_eq rfl rfl rfl : w.Kept (w.hold vs state)).trans hk⟩

/-- A conversion leaves every coroutine alone. -/
theorem Hosts.converted {vs : List Value} {r : Except Fault (Except Failure (List Value))} (hosts : w.Hosts id state t)
    (h : toGuestValues state args (w.hold vs state) = some (r, w₀)) :
    w₀.Sound ∧ w.Kept w₀ ∧ isOpen state w₀ = some (.ok true, w₀) ∧ w.Leaves w₀ id state t := by
  obtain ⟨s, hs, hopen, -⟩ := hosts.found
  obtain ⟨hw₀, hk⟩ := converted_keeps_hold hosts.sound h
  obtain ⟨hl, hopen₀⟩ := converted_leaves hs h
  exact ⟨hw₀, hk, hopen ▸ hopen₀, hl⟩

theorem Ready.converted {vs : List Value} {r : Except Fault (Except Failure (List Value))}
    (hready : w.Ready id state t) (h : toGuestValues state args (w.hold vs state) = some (r, w₀)) :
    w₀.Ready id state t := by
  obtain ⟨hw₀, hk, hopen, hl⟩ := Hosts.converted hready.hosts h
  exact hready.leaves hw₀ hk hopen hl

theorem Spent.converted {vs : List Value} {r : Except Fault (Except Failure (List Value))}
    (hspent : w.Spent id state t) (h : toGuestValues state args (w.hold vs state) = some (r, w₀)) :
    w₀.Spent id state t := by
  obtain ⟨hw₀, hk, hopen, -⟩ := Hosts.converted hspent.hosts h
  exact hspent.kept hw₀ hk hopen

/-- Converted arguments are resumed with, and what comes of it is noted. -/
theorem resumeValid_eq (hguests : toGuestValues h.state args w = some (.ok (.ok guests), w₀)) :
    resumeValid E id h args w =
      (resumeThread E (errorMessage E) h.state h.guest guests >>= fun r => settle E id h r.status r.result) w₀ := by
  rw [resumeValid, bind_ok hguests]
  refine congrArg (fun f => (resumeThread E (errorMessage E) h.state h.guest guests >>= f) w₀) (funext fun r => ?_)
  cases r <;> rfl

theorem resume_eq (hv : isValid h w = some (.ok true, w))
    (hguests : toGuestValues h.state args (w.hold (.obj id :: h.guest :: args) h.state) =
      some (.ok (.ok guests), w₀)) :
    resume E id h args w =
      ((resumeThread E (errorMessage E) h.state h.guest guests >>= fun r => settle E id h r.status r.result) w₀).map
        fun p => (p.1, p.2.release w) := by
  obtain ⟨s, -, hrequire⟩ := requireState_valid "thread" hv
  rw [resume, bind_ok hrequire]
  dsimp only
  rw [holding_eq, resumeValid_eq hguests]

theorem modifyHandle_apply {f : Handle → Handle} (hid : w.objects[id]? = some (.handle h)) :
    modifyHandle id f w = some (.ok ⟨⟩, w.withHandle id (f h)) := by
  rw [modifyHandle, bind_ok (object_apply id w), hid]
  rfl

/-- What a resumption came to is noted on the handle. -/
theorem noted_status (status : ErrorStatus) (hid : w.objects[id]? = some (.handle h)) :
    ∃ w₁, modifyHandle id ({ · with status := .ofStatus status }) w = some (.ok ⟨⟩, w₁) ∧ w₁.states = w.states ∧
      w₁.Notes id (.ofStatus status) := by
  refine ⟨_, modifyHandle_apply hid, rfl, { h with status := .ofStatus status }, ?_, rfl⟩
  rw [withHandle_objects hid, if_pos rfl]

/-- A failure is noted on the handle, and an error value is made of it. -/
theorem settle_failed {k : Handle} (E : Engine) (h : Handle) (e : Failure) (hid : w.objects[id]? = some (.handle k)) :
    ∃ o w₁, settle E id h e.status (.error e) w = some (.ok (.obj o), w₁) ∧
      w₁.objects[o]? = some (.error ⟨e.status, e.message⟩ false) ∧ w₁.Notes id (.ofStatus e.status) ∧
      w₁.states = w.states := by
  obtain ⟨v, hv, hstates, hnotes⟩ := noted_status e.status hid
  refine ⟨v.objects.size, { v with objects := v.objects.push (.error ⟨e.status, e.message⟩ false) }, ?_,
    Array.getElem?_push_size, hnotes.of_push rfl, hstates⟩
  rw [settle, bind_ok hv]
  exact newObject_apply _ _

/-! ### Arguments that do not cross -/

/-- A valid handle is resumed with arguments that are converted, but of which one is refused where it is pushed. -/
structure Refused (id : Nat) (h : Handle) (args guests : List Value) (f : Fault) (w w₀ : World) : Prop where
  valid : isValid h w = some (.ok true, w)
  converted : toGuestValues h.state args (w.hold (.obj id :: h.guest :: args) h.state) = some (.ok (.ok guests), w₀)
  refused : guests.mapM (push h.state) w₀ = some (.error f, w₀)

/-- Values are pushed, or one of them is refused with an ordinary fault. -/
theorem push_total (state : Nat) (vs : List Value) (w : World) :
    (∃ us, vs.mapM (push state) w = some (.ok us, w)) ∨
      ∃ f, vs.mapM (push state) w = some (.error f, w) ∧ f.isOrdinary = true := by
  have hadding : Adding w state (w.still state) (vs.mapM (push state)) := .mapM adding_push vs
  obtain ⟨r, g, hr, -, hord⟩ := hadding.run
  have hstill := Still.mapM still_push vs hr
  rw [hstill] at hr
  cases r with
  | ok us => exact .inl ⟨us, hr⟩
  | error f => exact .inr ⟨f, hr, hord f rfl⟩

/-- A valid handle with arguments that cannot be converted is left alone, and so is its thread. -/
theorem resume_unconverted {e : Failure} {r : Except Fault Value} (hv : isValid h w = some (.ok true, w))
    (hargs : toGuestValues h.state args (w.hold (.obj id :: h.guest :: args) h.state) = some (.ok (.error e), w₀))
    (hr : resume E id h args w = some (r, w')) : w.Leaves w' id h.state t := by
  obtain ⟨s, hs, hrequire⟩ := requireState_valid "thread" hv
  rw [resume, bind_ok hrequire] at hr
  obtain ⟨v, hv, rfl⟩ := holding_some hr
  rw [resumeValid, bind_ok hargs] at hv
  obtain ⟨-, rfl⟩ := Prod.mk.inj (Option.some.inj hv)
  have hl : w.Leaves w₀ id h.state t := (converted_leaves hs hargs).1
  exact ⟨fun hnotes => (hl.notes hnotes).of_push rfl, fun hrests => (hl.rests hrests).of_states rfl⟩

/-- Where an argument is refused as it is pushed, the result is an error value, and the thread is left alone too, but
the handle notes the refusal. -/
theorem resume_unpushed {f : Fault} (E : Engine) (hw : w.Sound) (hid : w.objects[id]? = some (.handle h))
    (ht : w.IsThread h.state h.guest t) (hrefused : Refused id h args guests f w w₀) :
    ∃ o w', resume E id h args w = some (.ok (.obj o), w') ∧
      w'.objects[o]? = some (.error ⟨f.status, f.message⟩ false) ∧ w'.Notes id (.ofStatus f.status) ∧
      w'.states = w₀.states := by
  obtain ⟨-, hk₀⟩ := converted_keeps_hold hw hrefused.converted
  obtain ⟨h₀, hid₀, -⟩ := hk₀.handles hid
  obtain ⟨g, hg, hguest⟩ := ht.kept hk₀
  have hpush : push h.state h.guest w₀ = some (.ok (.thread t), w₀) := hg ▸ push_guest hguest rfl
  have hcall : callLua E h.state (.builtin .coResume) (h.guest :: guests) w₀ = some (.error f, w₀) := by
    have hpushes : (h.guest :: guests).mapM (push h.state) w₀ = some (.error f, w₀) := by
      rw [List.mapM_cons, bind_ok hpush]
      exact bind_error hrefused.refused
    exact bind_error hpushes
  have hordinary : f.isOrdinary = true := by
    rcases push_total h.state guests w₀ with ⟨us, hus⟩ | ⟨f', hf', hordinary⟩
    · rw [hrefused.refused] at hus
      cases hus
    · obtain ⟨hf, -⟩ := Prod.mk.inj (Option.some.inj (hrefused.refused.symm.trans hf'))
      rwa [Except.error.inj hf]
  have hresume : resumeThread E (errorMessage E) h.state h.guest guests w₀ =
      some (.ok (.failed ⟨f.status, f.message⟩), w₀) := bind_ok (protectedCall_error hordinary hcall)
  obtain ⟨o, w₁, hsettle, hvalue, hnotes, hstates⟩ := settle_failed E h ⟨f.status, f.message⟩ hid₀
  refine ⟨o, w₁.release w, ?_, hvalue, hnotes, hstates⟩
  rw [resume_eq hrefused.valid hrefused.converted, bind_ok hresume]
  exact congrArg _ hsettle

end Bridge

end HostedLua
