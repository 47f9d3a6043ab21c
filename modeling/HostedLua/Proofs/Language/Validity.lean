import HostedLua.Proofs.History.Moment
import HostedLua.Proofs.Coroutine.Handle

/-! Which handles of a language are valid. A language has one open state at a time, which it opens when it is asked for
and none is open. A handle is valid while the state of its language is open; once that is closed the handle stays
invalid, whatever states the language has afterwards, and operations on it touch none of them. -/

namespace HostedLua

open Host

namespace World

variable {u u' v w : World} {l i j id : Nat} {h h' : Handle}

/-! ### The state of a language -/

/-- A language has a state. -/
structure Has (w : World) (l i : Nat) : Prop where
  state : (w.languageOf l).state = some i
  found : ∃ s, w.states[i]? = some s

theorem Has.later (h : u.Has l i) (hf : u.Follows w) (ho : w.opened i = true) : w.Has l i := by
  obtain ⟨s, hs⟩ := h.found
  obtain ⟨s', hs', -⟩ := hf.states hs
  exact ⟨hf.entered h.state hs ho, s', hs'⟩

/-- The states that a language has had are one, if they are open. -/
theorem Has.unique (h : u.Has l i) (h' : u'.Has l j) (hf : u.Follows w) (hf' : u'.Follows w)
    (ho : w.opened i = true) (ho' : w.opened j = true) : i = j :=
  Option.some.inj ((h.later hf ho).state.symm.trans (h'.later hf' ho').state)

/-- The state of a language is held. -/
theorem Has.alive (h : w.Has l i) : w.stateAlive i = true := by
  obtain ⟨k, hk, hki⟩ := exists_language h.state
  obtain ⟨hlt, rfl⟩ := Array.getElem?_eq_some_iff.mp hk
  have hany : (w.languages.any fun l => l.state = some i) = true := by
    rw [Array.any_eq_true]
    exact ⟨l, hlt, by simpa using hki⟩
  simp only [stateAlive, hany, Bool.true_or]

/-! ### Handles -/

theorem valid_kept (hk : h.Kept h') : w.valid h' = w.valid h := by
  rw [valid, valid, Handle.stands, Handle.stands, hk.guest, hk.state]

/-- A handle of a language is valid just where it stands for a value and its state is open. -/
theorem Has.valid_eq (hh : u.Has l h.state) (hf : u.Follows w) : w.valid h = (h.stands && w.opened h.state) := by
  cases ho : w.opened h.state with
  | false => rw [valid, ho, Bool.and_false, Bool.false_and]
  | true => rw [valid, ho, (hh.later hf ho).alive, Bool.and_true]

/-- A handle of a language that is not valid stays so. -/
theorem Has.invalid_later (hh : u.Has l h.state) (hv : u.Follows v) (hw : v.Follows w) (hinvalid : v.valid h = false) :
    w.valid h = false := by
  obtain ⟨s, hs⟩ := hh.found
  obtain ⟨s', hs', -⟩ := hv.states hs
  rw [hh.valid_eq hv] at hinvalid
  rw [hh.valid_eq (hv.trans hw)]
  cases hstands : h.stands with
  | false => rfl
  | true =>
    rw [hstands, Bool.true_and] at hinvalid
    rw [Bool.true_and, Bool.eq_false_iff]
    intro ho
    rw [hw.opened hs' ho] at hinvalid
    cases hinvalid

end World

namespace Bridge

open World

variable {E : Engine} {host : Handler} {u v w w' : World} {l i id : Nat} {h : Handle} {r : Except Fault Nat}

/-- What asking a language for its state comes to: the open one that it has, a new one, or a fault where its options
are not usable. -/
inductive LookedUp (l : Nat) (w : World) : Except Fault Nat → World → Prop where
  | there {i : Nat} (state : (w.languageOf l).state = some i) (isOpen : w.opened i = true) : LookedUp l w (.ok i) w
  | made {objects : Array Object} {s : LuaState} (vacant : w.Vacant l) (usable : w.Usable (w.languageOf l).config)
    (isOpen : s.isOpen = true) (diagnostics : s.diagnostics = (w.languageOf l).diagnostics) :
    LookedUp l w (.ok w.states.size)
      (World.enter { w with objects, states := w.states.push s } l (some w.states.size))
  | refused {objects : Array Object} {f : Fault} (vacant : w.Vacant l) (unusable : ¬ w.Usable (w.languageOf l).config) :
    LookedUp l w (.error f) { w with objects }

theorem languageState_total (l : Nat) (w : World) : ∃ r w', languageState l w = some (r, w') ∧ LookedUp l w r w' := by
  rcases vacant_or l w with hv | ⟨i, hi, ho⟩
  · by_cases hu : w.Usable (w.languageOf l).config
    · obtain ⟨objects, s, hopen, hs, -, hd, -⟩ := openState_ok hu (w.languageOf l).diagnostics
      refine ⟨.ok w.states.size, World.enter { w with objects, states := w.states.push s } l (some w.states.size), ?_,
        .made hv hu hs hd⟩
      rw [languageState_vacant hv, bind_ok hopen, bind_ok (enter_apply l _ _)]
      rfl
    · obtain ⟨f, objects, hopen⟩ := openState_error hu (w.languageOf l).diagnostics
      exact ⟨_, _, (languageState_vacant hv).trans (bind_error hopen), .refused hv hu⟩
  · exact ⟨_, _, languageState_opened hi ho, .there hi ho⟩

/-- The state that a language gives is open. -/
theorem LookedUp.opened (hl : LookedUp l w (.ok i) w') : w'.opened i = true := by
  cases hl with
  | there _ isOpen => exact isOpen
  | @made objects s _ _ isOpen =>
    have hnew : World.opened { w with objects, states := w.states.push s } w.states.size = _ := opened_push objects s _
    rw [if_pos rfl, isOpen] at hnew
    exact hnew

/-- The state that a language gives is its own. -/
theorem LookedUp.has (hl : LookedUp l w (.ok i) w') (hlt : l < w.languages.size) : w'.Has l i := by
  cases hl with
  | there state isOpen =>
    refine ⟨state, ?_⟩
    rw [World.opened] at isOpen
    cases hs : w.states[i]? with
    | none => simp [hs] at isOpen
    | some s => exact ⟨s, rfl⟩
  | made =>
    refine ⟨?_, ⟨_, Array.getElem?_push_size⟩⟩
    rw [languageOf_eq (getElem?_modify_some (Array.getElem?_eq_getElem hlt) l _), if_pos rfl]

/-! ### Operations on handles that are not valid -/

/-- An operation on a handle that is not valid gives nothing, or the default, and does nothing but to complain once: to
the diagnostics of the state, or to the log if the state is gone. Reading a value does not even complain. -/
structure Declines (E : Engine) (w : World) (id : Nat) (h : Handle) (s : LuaState) : Prop where
  records : ∃ before, w.diagnostics[s.diagnostics]? = some before
  complains : ∀ what : Text, w.complained h what =
    let message : Text := "InvalidState: " ++ h.kind.name ++ " does not have a valid " ++ what
    if w.stateAlive h.state then
      { w with diagnostics := w.diagnostics.modify s.diagnostics (· ++ [.report message]) }
    else { w with logs := ("ERROR: " ++ message) :: w.logs }
  invoke : ∀ args, Bridge.invoke E h args w = some (.ok .none, w.complained h "function")
  resume : ∀ args, Bridge.resume E id h args w = some (.ok .none, w.complained h "thread")
  toMapping : Bridge.toMapping E h w = some (.ok [], w.complained h "table")
  createCoroutine : h.kind.isFunction = true →
    Bridge.createCoroutine E (.obj id) w = some (.ok .none, w.complained h "function")
  getValue : ∀ key default, Bridge.getValue E h key default w = some (.ok default, w)

theorem declines {s : LuaState} (E : Engine) (hid : w.objects[id]? = some (.handle h))
    (hs : w.states[h.state]? = some s) (hd : s.diagnostics < w.diagnostics.size) (hinvalid : w.valid h = false) :
    Declines E w id h s := by
  have hv : isValid h w = some (.ok false, w) := hinvalid ▸ valid_apply h w
  refine ⟨⟨_, Array.getElem?_eq_getElem hd⟩, fun what => ?_, fun args => ?_, fun args => ?_, ?_, fun hf => ?_,
    fun key default => ?_⟩
  · rw [complained, hs]
  · rw [Bridge.invoke, bind_ok (requireState_invalid "function" hv)]
    rfl
  · rw [Bridge.resume, bind_ok (requireState_invalid "thread" hv)]
    rfl
  · rw [Bridge.toMapping, bind_ok (requireState_invalid "table" hv)]
    rfl
  · have hfound : handle? (.obj id) w = some (.ok (some (id, h)), w) := by
      rw [handle?, bind_ok (object_apply id w), hid]
      rfl
    rw [Bridge.createCoroutine, bind_ok hfound]
    dsimp only
    rw [if_pos hf, bind_ok (requireState_invalid "function" hv)]
    rfl
  · rw [Bridge.getValue, bind_ok hv]
    rfl

/-! ### Runs of a language -/

/-- Whatever is done in a session, at any moment of it the states that a language has had are one if they are open; the
language gives an open state when it is asked for it, unless it has none and its options are not usable; a handle of the
language that has become invalid stays so, also when another state has been opened; and operations on such a handle
change nothing but that they complain once, to whom it may concern. -/
theorem language_handles (hosts : host.Steps) (l : Nat) :
    (∀ {u u' w : World} {i j : Nat}, Moment host u w → Moment host u' w → u.Has l i → u'.Has l j →
      w.opened i = true → w.opened j = true → i = j ∧ w.Has l i) ∧
    (∀ w, ∃ r w', languageState l w = some (r, w') ∧ LookedUp l w r w' ∧
      ∀ i, r = .ok i → w'.opened i = true ∧ (l < w.languages.size → w'.Has l i)) ∧
    (∀ {u v w : World} {id : Nat} {h : Handle}, Moment host u v → Moment host v w → u.Has l h.state →
      v.objects[id]? = some (.handle h) → v.valid h = false →
      ∃ h', w.objects[id]? = some (.handle h') ∧ h.Kept h' ∧ w.valid h' = false) ∧
    ∀ {w : World} {id : Nat} {h : Handle} {s : LuaState} (n : Nat), w.objects[id]? = some (.handle h) →
      w.states[h.state]? = some s → s.diagnostics < w.diagnostics.size → w.valid h = false →
      Declines (engineOf host n) w id h s := by
  refine ⟨fun later later' hi hj ho ho' => ?_, fun w => ?_, fun later later' hh hid hinvalid => ?_,
    fun n hid hs hd hinvalid => declines (engineOf host n) hid hs hd hinvalid⟩
  · have hf := later.follows hosts
    exact ⟨hi.unique hj hf (later'.follows hosts) ho ho', hi.later hf ho⟩
  · obtain ⟨r, w', hr, hl⟩ := languageState_total l w
    refine ⟨r, w', hr, hl, fun i hi => ?_⟩
    subst hi
    exact ⟨hl.opened, hl.has⟩
  · have hf := later'.follows hosts
    obtain ⟨h', hid', hk⟩ := hf.handles hid
    exact ⟨h', hid', hk, (valid_kept hk).trans (hh.invalid_later (later.follows hosts) hf hinvalid)⟩

/-- The options that a language has by default are usable. -/
theorem usable_default (hw : w.configs[0]? = some ({} : Config)) : w.Usable 0 := by
  have hlookup : (Charset.lookup ("UTF-8" : Text)).isSome = true := by cbv
  obtain ⟨e, he⟩ := Option.isSome_iff_exists.mp hlookup
  have hcodec : guestCodec (.text "UTF-8") w = some (.ok (.text (Charset.escapedPrefix ++ "UTF-8")), w) := by
    rw [guestCodec, he]
    rfl
  refine ⟨⟨.text (Charset.escapedPrefix ++ "UTF-8"), .bool true, .bool false, .bool false, none⟩, none, .utf8, ?_, rfl,
    ?_⟩
  · rw [hw]
    exact (bind_ok hcodec).trans rfl
  · rw [hw]
    cbv

/-- A function of a language that has been ended is not valid, and stays so when the language opens another state. -/
theorem language_handles_reopened : ∃ v w h h', Moment runCallback (Lone.world .utf8 {}) v ∧ Moment runCallback v w ∧
    v.objects[2]? = some (.handle h) ∧ v.valid h = false ∧ w.Has 0 1 ∧ w.opened 1 = true ∧
    w.objects[2]? = some (.handle h') ∧ w.valid h' = false := by
  let u := Lone.world .utf8 {}
  let v : World := (u.closed 0).enter 0 none
  let function : Handle := { kind := .function, state := 0, guest := .obj 1 }
  have ended : (Act.finish 0).perform (engineOf runCallback 1) u = some (.ok ⟨⟩, v) := finish_apply 0 u
  have moment : Moment runCallback u v := .done .start ended
  obtain ⟨-, hasks, hstays, -⟩ := language_handles steps_runCallback 0
  obtain ⟨r, w, hr, hl, hopen⟩ := hasks v
  have later : Moment runCallback v w := by
    have run : (Act.lookUp 0).perform (engineOf runCallback 1) v = some (r.map fun _ => ⟨⟩, w) := by
      rw [Act.perform, discard_apply, hr]
      rfl
    exact .done .start run
  have hhas : u.Has 0 0 := ⟨rfl, _, rfl⟩
  have hclosed : v.valid function = false := by
    rw [hhas.valid_eq (moment.follows steps_runCallback)]
    rfl
  have hfound : v.objects[2]? = some (.handle function) := rfl
  obtain ⟨h', hid, -, hinvalid⟩ := hstays moment later hhas hfound hclosed
  cases hl with
  | there state => cases state
  | refused _ unusable => exact absurd (usable_default rfl) unusable
  | made =>
    obtain ⟨hopened, hnew⟩ := hopen _ rfl
    exact ⟨v, _, function, h', moment, later, hfound, hclosed, hnew (by decide), hopened, hid, hinvalid⟩

end Bridge

end HostedLua
