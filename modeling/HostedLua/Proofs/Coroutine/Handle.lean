import HostedLua.Proofs.Coroutine.Standing

/-! How a coroutine handle is made and closed. A handle that has been made has a thread that has not run; closing it
leaves a suspended thread dead, if that is how threads are closed, and alone else. -/

namespace HostedLua

open Host

namespace Bridge

open World Lua.Machine

variable {E : Engine} {n id state t : Nat} {h : Handle} {w w' w₀ : World} {s : LuaState}

/-! ### A coroutine is made -/

def IsFresh (w : World) (v : Value) : Prop := ∀ state t, w.IsThread state v t → ∃ f, w.Rests state t (.fresh f)

theorem isFresh_none : IsFresh w .none := by
  rintro state t ⟨g, hg, -⟩
  cases hg

theorem threadOf_fresh {f : Lua.Value} {v : Value} (h : threadOf state f w = some (.ok v, w')) : IsFresh w' v := by
  rw [threadOf, bind_ok (state?_apply state w)] at h
  cases hs : w.states[state]? with
  | none =>
    rw [hs] at h
    obtain ⟨hv, rfl⟩ := Prod.mk.inj (Option.some.inj h)
    exact Except.ok.inj hv ▸ isFresh_none
  | some s =>
    rw [hs] at h
    obtain ⟨rfl, rfl⟩ := ok_inj h
    rintro state' t ⟨g, hg, hguest⟩
    obtain rfl := Value.obj.inj hg
    rw [Array.getElem?_push_size] at hguest
    obtain ⟨rfl, hvalue, -⟩ := Guest.mk.inj (Object.guest.inj (Option.some.inj hguest))
    obtain rfl := Lua.Value.thread.inj hvalue
    refine ⟨f, { s with machine := { s.machine with threads := s.machine.threads.push { rest := .fresh f } } },
      { rest := .fresh f }, ?_, Array.getElem?_push_size, rfl⟩
    simp [Array.getElem?_modify, hs]

theorem newThread_fresh {f v : Value} (h : newThread E state f w = some (.ok v, w')) : IsFresh w' v := by
  have hnone {w : World} (h : (pure .none : Bridge Value) w = some (.ok v, w')) : IsFresh w' v := by
    obtain ⟨hv, rfl⟩ := Prod.mk.inj (Option.some.inj h)
    exact Except.ok.inj hv ▸ isFresh_none
  cases f with
  | obj id =>
    rw [newThread, bind_ok (object_apply id w)] at h
    generalize (w.objects[id]?).getD .nothing = o at h
    cases o with
    | guest g =>
      obtain ⟨st, value, unstarted⟩ := g
      dsimp only at h
      split at h
      · exact threadOf_fresh h
      · rw [bind_ok (state?_apply state w)] at h
        cases hs : w.states[state]? with
        | none => exact hnone (hs ▸ h)
        | some s =>
          rw [hs] at h
          rcases bind_some h with ⟨e, -, hr⟩ | ⟨vs, w₁, -, h⟩
          · cases hr
          · split at h
            · next wrapped =>
              rw [bind_ok (object_apply wrapped w₁)] at h
              generalize (w₁.objects[wrapped]?).getD .nothing = o at h
              cases o with
              | guest g => exact threadOf_fresh h
              | _ => exact hnone h
            · exact hnone h
    | _ => cases h
  | _ => cases h

theorem createThread_fresh {f v : Value} (h : createThread E state f w = some (.ok v, w')) : IsFresh w' v := by
  obtain ⟨b, hb⟩ := isOpen_total state w
  rw [createThread, bind_ok hb] at h
  have hnone {message : Text} {w : World}
      (h : (reportTo state message >>= fun _ => pure .none : Bridge Value) w = some (.ok v, w')) : IsFresh w' v := by
    obtain ⟨w₁, hw₁⟩ := reportTo_total state message w
    rw [bind_ok hw₁] at h
    obtain ⟨hv, rfl⟩ := Prod.mk.inj (Option.some.inj h)
    exact Except.ok.inj hv ▸ isFresh_none
  cases b with
  | false => exact hnone h
  | true =>
    rw [if_neg (by decide)] at h
    rcases bind_some h with ⟨e, -, hr⟩ | ⟨r, w₁, hr, h⟩
    · cases hr
    · cases r with
      | error e => exact hnone h
      | ok u =>
        obtain ⟨rfl, rfl⟩ := ok_inj h
        rcases protectedCall_some hr with ⟨a, ha, heq⟩ | ⟨_, heq⟩ | ⟨_, -, heq⟩
        · obtain rfl := Except.ok.inj (Except.ok.inj heq)
          exact newThread_fresh ha
        · cases heq
        · cases heq

/-- A coroutine that is made has a handle of its own, for a thread that has not run. -/
theorem createCoroutine_made {f : Value} (h : createCoroutine E f w = some (.ok (.obj id), w')) :
    ∃ k w₁, w'.objects[id]? = some (.handle k) ∧ k.status = .yield ∧ w'.objects = w₁.objects.push (.handle k) ∧
      w'.states = w₁.states ∧ IsFresh w₁ k.guest := by
  have hnone {w : World} (h : (pure .none : Bridge Value) w = some (.ok (.obj id), w')) : False := by
    cases h
  rcases bind_some h with ⟨e, -, hr⟩ | ⟨found, w₀, -, h⟩
  · cases hr
  cases found with
  | none =>
    rcases bind_some h with ⟨e, -, hr⟩ | ⟨_, w₁, -, h⟩
    · cases hr
    · exact (hnone h).elim
  | some p =>
    obtain ⟨fid, g⟩ := p
    dsimp only at h
    split_ifs at h
    · rcases bind_some h with ⟨e, -, hr⟩ | ⟨found, w₁, -, h⟩
      · cases hr
      cases found with
      | none => exact (hnone h).elim
      | some s =>
        rcases bind_some h with ⟨e, -, hr⟩ | ⟨thread, w₂, hthread, h⟩
        · cases hr
        obtain ⟨v, hv, rfl⟩ := holding_some hthread
        have hfresh : IsFresh v thread := createThread_fresh hv
        split at h
        · exact (hnone h).elim
        · obtain ⟨hid, rfl⟩ := Prod.mk.inj (Option.some.inj h)
          obtain rfl := Value.obj.inj (Except.ok.inj hid)
          exact ⟨_, _, Array.getElem?_push_size, rfl, rfl, rfl, hfresh⟩
    · rcases bind_some h with ⟨e, -, hr⟩ | ⟨_, w₁, -, h⟩
      · cases hr
      · split_ifs at h
        all_goals
          rcases bind_some h with ⟨e, -, hr⟩ | ⟨_, w₂, -, h⟩
          · cases hr
          · exact (hnone h).elim

/-- The thread of a coroutine that has been made is suspended, where no other call by the host is under way, as long as
nothing has happened to it, and the handle says so. -/
theorem created_ready {f : Value} (hcreate : createCoroutine E f w = some (.ok (.obj id), w'))
    (hid : w'.objects[id]? = some (.handle h)) (ht : w'.IsThread h.state h.guest t)
    (hl : w'.Leaves w₀ id h.state t) (hosts : w₀.Hosts id h.state t) :
    w₀.Ready id h.state t ∧ w₀.Notes id .yield := by
  obtain ⟨k, w₁, hk, hstatus, hobjects, hstates, hfresh⟩ := createCoroutine_made hcreate
  obtain rfl := Object.handle.inj (Option.some.inj (hid.symm.trans hk))
  have ht₁ : w₁.IsThread h.state h.guest t := by
    obtain ⟨g, hg, hguest⟩ := ht
    refine ⟨g, hg, ?_⟩
    rw [hobjects, Array.getElem?_push] at hguest
    split_ifs at hguest
    · cases hguest
    · exact hguest
  obtain ⟨f, hrests⟩ := hfresh _ _ ht₁
  have hsettled : ¬ (Lua.Rest.fresh f).Settled := by simp [Lua.Rest.Settled]
  exact ⟨⟨hosts, .fresh f, hl.rests (hrests.of_states hstates), hsettled⟩, hl.notes ⟨h, hid, hstatus⟩⟩

namespace Lone

/-! A state whose one function has no statements, before and after a coroutine of it is made. -/

def machine : Lua.Machine :=
  { heap := { closures := #[⟨.mk 0 0 .dropped [], []⟩] }, threads := #[{ rest := .waiting }] }

def coroutine : Handle := { kind := .coroutine, state := 0, guest := .obj 3, function := some 2, owns := true }

def world (charset : Charset) (options : Config) : World :=
  { objects := #[.nothing, .guest ⟨0, .closure 0, false⟩, .handle { kind := .function, state := 0, guest := .obj 1 }]
    configs := #[options], diagnostics := #[[]]
    states := #[{ config := 0, diagnostics := 0, charset, machine, globals := 0 }]
    languages := #[{ config := 0, diagnostics := 0, state := some 0 }] }

def made (charset : Charset) (options : Config) : World :=
  let w := world charset options
  { w with
    objects := w.objects ++ #[.guest ⟨0, .thread 1, false⟩, .handle coroutine]
    states := #[{ config := 0, diagnostics := 0, charset, globals := 0
                  machine := { machine with threads := machine.threads.push { rest := .fresh (.closure 0) } } }] }

variable (charset : Charset) (options : Config)

theorem createCoroutine_world :
    createCoroutine (engine 1) (.obj 2) (world charset options) = some (.ok (.obj 4), made charset options) := by cbv

theorem valid : isValid coroutine (made charset options) = some (.ok true, made charset options) := by cbv

theorem isThread : (made charset options).IsThread 0 (.obj 3) 1 := ⟨3, rfl, rfl⟩

theorem hosts : (made charset options).Hosts 4 0 1 := by
  have sound : (made charset options).Sound :=
    World.sound_single rfl ((Lua.Machine.Sound.new _).push Lua.Machine.noEntry_nil)
  exact ⟨sound, ⟨coroutine, rfl, rfl, isThread charset options⟩, _, rfl, rfl, rfl, rfl⟩

end Lone

/-! ### Closing -/

/-- A protected call leaves the world to which the call has come. -/
theorem protectedCall_world {α : Type} {x : Bridge α} {r : Except Fault (Except Failure α)}
    (h : protectedCall x w = some (r, w')) : ∃ a, x w = some (a, w') := by
  rcases bind_some h with ⟨e, he, -⟩ | ⟨a, v, ha, h⟩
  · obtain ⟨_, hr, -⟩ := attempt_some he
    contradiction
  · obtain ⟨a', ha', hx⟩ := attempt_some ha
    obtain rfl := Except.ok.inj ha'
    refine ⟨a, ?_⟩
    cases a with
    | ok a =>
      obtain ⟨-, rfl⟩ := Prod.mk.inj (Option.some.inj h)
      exact hx
    | error f =>
      dsimp only at h
      split_ifs at h
      · obtain ⟨-, rfl⟩ := Prod.mk.inj (Option.some.inj h)
        exact hx
      · obtain ⟨-, rfl⟩ := Prod.mk.inj (Option.some.inj h)
        exact hx

/-- A protected call that anything comes of has made its call. -/
theorem protectedCall_called {α β : Type} {x : Bridge α} {f : Except Failure α → Bridge β} {r : Except Fault β}
    (h : (protectedCall x >>= f) w = some (r, w')) : ∃ a v, x w = some (a, v) := by
  rcases bind_some h with ⟨e, he, -⟩ | ⟨_, v, ha, -⟩
  · obtain ⟨a, hx⟩ := protectedCall_world he
    exact ⟨a, _, hx⟩
  · obtain ⟨a, hx⟩ := protectedCall_world ha
    exact ⟨a, v, hx⟩

theorem needsThreadClose_of_byHand {s : LuaState} (h : s.closing = .byHand) : s.needsThreadClose = true := by
  rw [LuaState.needsThreadClose, h]
  rfl

/-- What is done with the outcome of `coroutine.close`: a refusal is logged, and the error value of a thread that failed
is made a text. -/
def afterClosing (text : Value → Bridge Text) : Except Failure (List Value) → Bridge Unit
  | .error e => logWarning ("coroutine.close failed: " ++ e.message)
  | .ok results => do
    match ← group results with
    | .bool false :: values => discard (text (values.headD .none))
    | _ => return

theorem keeps_afterClosing {I : World → Prop} {R : World → World → Prop} [Admits I R] {text : Value → Bridge Text}
    (htext : ∀ v, Keeps I R (text v)) (r : Except Failure (List Value)) : Keeps I R (afterClosing text r) := by
  cases r with
  | error e => exact keeps_logWarning _
  | ok results =>
    refine (keeps_group results).bind fun vs => ?_
    split
    · exact (htext _).map
    · exact .pure _

/-- A state that is open and closes threads by hand has `coroutine.close` called on a thread. -/
theorem closeThread_byHand {text : Value → Bridge Text} {thread : Value} (hs : w.states[state]? = some s)
    (hopen : s.isOpen = true) (hbyHand : s.closing = .byHand) : closeThread E text state thread w =
      (protectedCall (callLua E state (.builtin .coClose) [thread]) >>= afterClosing text) w := by
  rw [closeThread, bind_ok (state?_apply state w), hs]
  dsimp only
  rw [hbyHand, hopen]
  dsimp only
  rw [if_neg (by decide)]
  refine congrArg (fun f => (protectedCall (callLua E state (.builtin .coClose) [thread]) >>= f) w) (funext fun r => ?_)
  cases r <;> rfl

/-- What is done with the outcome keeps what making texts keeps. -/
theorem protectedCall_afterClosing {I : World → Prop} {R : World → World → Prop} [Admits I R]
    {text : Value → Bridge Text} {x : Bridge (List Value)} {rc : Except Fault (List Value)} {r : Except Fault Unit}
    {v : World} (htext : ∀ v, Keeps I R (text v)) (hx : x w = some (rc, v)) (hv : I v)
    (h : (protectedCall x >>= afterClosing text) w = some (r, w')) : I w' ∧ R v w' := by
  have hsame {u : World} {a : Except Fault (Except Failure (List Value))} (ha : protectedCall x w = some (a, u)) :
      u = v := by
    obtain ⟨rc', hx'⟩ := protectedCall_world ha
    exact (Prod.mk.inj (Option.some.inj (hx'.symm.trans hx))).2
  rcases bind_some h with ⟨e, he, -⟩ | ⟨a, u, ha, hlast⟩
  · exact hsame he ▸ ⟨hsame he ▸ hv, Admits.refl I w'⟩
  · obtain rfl := hsame ha
    exact keeps_afterClosing htext a hv hlast

/-- A state that does not close threads by hand leaves threads alone. -/
theorem closeThread_leaves (E : Engine) (text : Value → Bridge Text) (thread : Value)
    (hs : w.states[state]? = some s) (hnot : s.closing ≠ .byHand) :
    ∃ r, closeThread E text state thread w = some (r, w) := by
  rw [closeThread, bind_ok (state?_apply state w), hs]
  dsimp only
  cases hclosing : s.closing with
  | byHand => exact absurd hclosing hnot
  | spared => exact ⟨_, rfl⟩
  | refused => exact ⟨_, rfl⟩

/-- A suspended thread is closed if its state closes threads by hand; else nothing happens to it. -/
theorem closeThread_ready {r : Except Fault Unit} (hready : w.Ready id state t) (hs : w.states[state]? = some s)
    (ht : w.IsThread state h.guest t)
    (hclose : closeThread (engine (n + 1)) (errorMessage (engine (n + 1))) state h.guest w = some (r, w')) :
    s.closing = .byHand ∧ w'.Rests state t .dead ∨ s.closing ≠ .byHand ∧ w' = w := by
  obtain ⟨s', hs', hopened, hidle⟩ := hready.hosts.found
  obtain rfl := Option.some.inj (hs.symm.trans hs')
  by_cases hbyHand : s.closing = .byHand
  · rw [closeThread_byHand hs hopened hbyHand] at hclose
    obtain ⟨rc, v, hc⟩ := protectedCall_called hclose
    obtain ⟨rest, hrests, hsettled⟩ := hready.rests
    have hdead := callLua_coClose hready.hosts.sound hs hidle.fits hrests hsettled ht hc
    obtain ⟨hv, -⟩ := keeps_callLua (engine_keeps (n + 1)) _ _ _ hready.hosts.sound hc
    obtain ⟨-, hk⟩ := protectedCall_afterClosing (keeps_errorMessage (engine_keeps (n + 1))) hc hv hclose
    exact .inl ⟨hbyHand, hdead.kept (.inr rfl) hk⟩
  · obtain ⟨r', hleaves⟩ :=
      closeThread_leaves (engine (n + 1)) (errorMessage (engine (n + 1))) h.guest hs hbyHand
    obtain ⟨-, rfl⟩ := Prod.mk.inj (Option.some.inj (hleaves.symm.trans hclose))
    exact .inr ⟨hbyHand, rfl⟩

/-- A handle can be closed: it has not been, it owns its thread, it is valid, and its state closes threads by hand. -/
structure Closable (w : World) (h : Handle) (s : LuaState) : Prop where
  first : h.closed = false
  owns : h.owns = true
  valid : isValid h w = some (.ok true, w)
  byHand : s.closing = .byHand

/-- Closing a handle for the first time notes it before anything else is looked at. -/
theorem closeCoroutine_notes {valid : Bool} (E : Engine) (hid : w.objects[id]? = some (.handle h))
    (hclosed : h.closed = false) (hvalid : isValid h w = some (.ok valid, w)) : closeCoroutine E id w =
      (if h.owns && valid then do
        match ← state? h.state with
        | some s =>
          if s.needsThreadClose then
            holding [.obj id, h.guest] h.state (closeThread E (errorMessage E) h.state h.guest)
        | none => return
      else pure ⟨⟩ : Bridge Unit) (w.withHandle id { h with closed := true }) := by
  let flagged : Handle := { h with closed := true }
  have hset : setObject id (.handle flagged) w = some (.ok ⟨⟩, w.withHandle id flagged) := rfl
  have hguest : flagged.guest = h.guest := rfl
  have hvalidv : isValid h (w.withHandle id flagged) = some (.ok valid, w.withHandle id flagged) :=
    isValid_withHandle hid hguest rfl hvalid
  rw [closeCoroutine, bind_ok (object_apply id w), hid]
  dsimp only [Option.getD_some]
  rw [hclosed, if_neg (by decide), bind_ok hset, bind_ok hvalidv, ← Bool.not_and]
  cases h.owns && valid <;> rfl

/-- What closing a handle for the first time comes to: the handle notes it, and the thread is closed if the handle owns
it, is valid, and the state closes threads by hand. -/
theorem closeCoroutine_first {valid : Bool} (E : Engine) (hid : w.objects[id]? = some (.handle h))
    (hs : w.states[h.state]? = some s) (hclosed : h.closed = false) (hvalid : isValid h w = some (.ok valid, w)) :
    closeCoroutine E id w =
      (if h.owns && valid && s.needsThreadClose then
        holding [.obj id, h.guest] h.state (closeThread E (errorMessage E) h.state h.guest)
      else pure ⟨⟩) (w.withHandle id { h with closed := true }) := by
  have hsv : (w.withHandle id { h with closed := true }).states[h.state]? = some s := hs
  rw [closeCoroutine_notes E hid hclosed hvalid]
  cases h.owns && valid with
  | false => rw [if_neg (by decide), Bool.false_and, if_neg (by decide)]
  | true =>
    rw [if_pos rfl, bind_ok (state?_apply _ _), hsv]
    rfl

/-- Closing the handle of a suspended thread leaves the thread dead if the handle can be closed, and alone else. -/
theorem closeCoroutine_ready {r : Except Fault Unit} (hready : w.Ready id state t)
    (hid : w.objects[id]? = some (.handle h)) (hs : w.states[state]? = some s)
    (hclose : closeCoroutine (engine (n + 1)) id w = some (r, w')) (hopen : isOpen state w' = some (.ok true, w')) :
    Closable w h s ∧ w'.Spent id state t ∨ ¬ Closable w h s ∧ w.Leaves w' id state t := by
  obtain ⟨g, hg, rfl, ht⟩ := hready.hosts.handle
  obtain rfl := Object.handle.inj (Option.some.inj (hid.symm.trans hg))
  obtain ⟨hw', hk⟩ := keeps_closeCoroutine (engine_keeps (n + 1)) id hready.hosts.sound hclose
  cases hclosed : h.closed with
  | true =>
    rw [closeCoroutine, bind_ok (object_apply id w), hid] at hclose
    dsimp only [Option.getD_some] at hclose
    rw [hclosed] at hclose
    obtain ⟨-, rfl⟩ := Prod.mk.inj (Option.some.inj hclose)
    exact .inr ⟨fun hc => Bool.false_ne_true (hc.first.symm.trans hclosed), .refl _ _ _ _⟩
  | false =>
    obtain ⟨valid, hvalid⟩ := isValid_total h w
    rw [closeCoroutine_first _ hid hs hclosed hvalid] at hclose
    let flagged : Handle := { h with closed := true }
    have hsame : flagged.status = h.status := rfl
    have hl : w.Leaves (w.withHandle id flagged) id h.state t := .withHandle hid hsame h.state t
    split_ifs at hclose with hcloses
    · simp only [Bool.and_eq_true] at hcloses
      obtain ⟨⟨howns, rfl⟩, -⟩ := hcloses
      let v : World := (w.withHandle id flagged).hold [.obj id, h.guest] h.state
      obtain ⟨u, hu, rfl⟩ := holding_some hclose
      have hkept : h.Kept flagged := ⟨rfl, rfl, rfl, rfl⟩
      have hset : setObject id (.handle flagged) w = some (.ok ⟨⟩, w.withHandle id flagged) := rfl
      obtain ⟨hv, hkv⟩ := keeps_setHandle hready.hosts.sound hid hkept (fun _ => rfl) hset
      have hkh : w.Kept v := hkv.trans (.of_eq rfl rfl rfl)
      have hopened : isOpen h.state w = some (.ok true, w) := hk.isOpen hs hopen ▸ isOpen_apply hs
      have hstates : w.states = v.states := rfl
      have hreadyv := Ready.leaves hready (hv.hold _ _) hkh (isOpen_congr hstates hopened) ⟨hl.notes, hl.rests⟩
      rcases closeThread_ready hreadyv hs (ht.kept hkh) hu with ⟨hbyHand, hdead⟩ | ⟨hnot, rfl⟩
      · exact .inl ⟨⟨hclosed, howns, hvalid, hbyHand⟩, hready.hosts.kept hw' hk hopen, hdead.of_states rfl⟩
      · exact .inr ⟨fun hc => hnot hc.byHand, hl.notes, hl.rests⟩
    · obtain ⟨-, rfl⟩ := Prod.mk.inj (Option.some.inj hclose)
      refine .inr ⟨fun hc => hcloses ?_, hl⟩
      obtain rfl := Except.ok.inj (Prod.mk.inj (Option.some.inj (hvalid.symm.trans hc.valid))).1
      rw [hc.owns, needsThreadClose_of_byHand hc.byHand]
      rfl

end Bridge

end HostedLua
