import HostedLua.Proofs.Evolution.Engine
import HostedLua.Proofs.Lua.Ends

/-! The host's calls of the functions on threads. If `coroutine.resume` gives anything back, it is a truth value
in front, and what it was called with is a thread of the state; of such a thread `coroutine.status` tells the
state in a string, whatever has happened to the thread meanwhile. -/

namespace HostedLua

open Host

theorem Lua.Machine.Kept.mark {m m' : Lua.Machine} (h : m.Kept m') : m'.mark = m.mark := by
  rw [Lua.Machine.mark, h.current, h.mainStack, Lua.Machine.mark]

theorem Lua.Machine.Kept.fits {m m' : Lua.Machine} (h : m.Kept m') (hm : m.Fits) : m'.Fits := by
  rwa [Lua.Machine.Fits, h.mark]

namespace Bridge

open Lua.Machine

variable {α β : Type} {n state : Nat} {w w' : World} {s : LuaState}

/-! ### What is pushed and fetched -/

/-- A computation leaves the world as it is, whatever comes of it. -/
def Still (x : Bridge α) : Prop := ∀ ⦃w r w'⦄, x w = some (r, w') → w' = w

theorem Still.pure (a : α) : Still (pure a) := fun _ _ _ h => (Prod.mk.inj (Option.some.inj h)).2.symm

theorem Still.throw (f : Fault) : Still (throw f : Bridge α) :=
  fun _ _ _ h => (Prod.mk.inj (Option.some.inj h)).2.symm

theorem Still.bind {x : Bridge α} {f : α → Bridge β} (hx : Still x) (hf : ∀ a, Still (f a)) : Still (x >>= f) := by
  intro w r w' h
  rcases bind_some h with ⟨e, he, -⟩ | ⟨a, v, ha, h⟩
  · exact hx he
  · exact (hf a h).trans (hx ha)

theorem Still.mapM {f : α → Bridge β} (hf : ∀ a, Still (f a)) (l : List α) : Still (l.mapM f) := by
  induction l with
  | nil => exact .pure _
  | cons a l ih =>
    rw [List.mapM_cons]
    exact (hf a).bind fun b => ih.bind fun bs => .pure _

theorem still_push (v : Value) : Still (push state v) := by
  have hobject (id : Nat) : Still (object id) := fun _ _ _ h => (Prod.mk.inj (Option.some.inj h)).2.symm
  have hstate : Still (state? state) := fun _ _ _ h => (Prod.mk.inj (Option.some.inj h)).2.symm
  cases v with
  | int i =>
    rw [push]
    split_ifs
    · exact .pure _
    · exact .throw _
  | text t =>
    refine hstate.bind fun s => ?_
    split
    · exact .pure _
    · split
      · exact .pure _
      · exact .throw _
  | obj id =>
    refine (hobject id).bind fun o => ?_
    split
    · split_ifs
      · exact .pure _
      · exact .throw _
    · exact .pure _
  | _ => exact .pure _

/-- The first of the values that are pushed. -/
theorem mapM_push_cons {v : Value} {vs : List Value} {us : List Lua.Value}
    (h : (v :: vs).mapM (push state) w = some (.ok us, w')) :
    ∃ x xs, us = x :: xs ∧ push state v w = some (.ok x, w) ∧ w' = w := by
  have hw := Still.mapM still_push _ h
  rw [List.mapM_cons] at h
  rcases bind_some h with ⟨e, -, hr⟩ | ⟨x, w₁, hx, h⟩
  · cases hr
  · rcases bind_some h with ⟨e, -, hr⟩ | ⟨xs, w₂, -, h⟩
    · cases hr
    · obtain ⟨hus, -⟩ := Prod.mk.inj (Option.some.inj h)
      rw [still_push v hx] at hx
      exact ⟨x, xs, (Except.ok.inj hus).symm, hx, hw⟩

/-- Only a guest of the state is pushed as a thread. -/
theorem push_thread {v : Value} {t : Nat} (h : push state v w = some (.ok (.thread t), w')) :
    ∃ id g, v = .obj id ∧ w.objects[id]? = some (.guest g) ∧ g.state = state ∧ g.value = .thread t := by
  cases v with
  | int i =>
    rw [push] at h
    split_ifs at h <;> cases h
  | text u =>
    rw [push, bind_ok (state?_apply state w)] at h
    cases hs : w.states[state]? with
    | none =>
      rw [hs] at h
      cases h
    | some s =>
      rw [hs] at h
      dsimp only at h
      cases he : s.charset.encodeEscaped u <;> rw [he] at h <;> cases h
  | obj id =>
    rw [push, bind_ok (object_apply id w)] at h
    cases ho : w.objects[id]? with
    | none =>
      rw [ho] at h
      cases h
    | some o =>
      rw [ho] at h
      cases o with
      | guest g =>
        dsimp only [Option.getD_some] at h
        split_ifs at h with hg
        · exact ⟨id, g, rfl, ho, hg, Except.ok.inj (Prod.mk.inj (Option.some.inj h)).1⟩
        · cases h
      | _ => cases h
  | _ => cases h

theorem push_guest {id : Nat} {g : Guest} (hg : w.objects[id]? = some (.guest g)) (hstate : g.state = state) :
    push state (.obj id) w = some (.ok g.value, w) := by
  rw [push, bind_ok (object_apply id w), hg]
  dsimp only [Option.getD_some]
  rw [if_pos hstate]
  rfl

/-- A truth value in front is fetched as such. -/
theorem fetchAll_bool (hs : w.states[state]? = some s) {b : Bool} {vs : List Lua.Value} {us : List Value}
    (h : fetchAll state (.bool b :: vs) w = some (.ok us, w')) :
    ∃ values, us = .bool b :: values ∧ fetchAll state vs w = some (.ok values, w') := by
  have hbool : fetch state (.bool b) w = some (.ok (.bool b), w) := by
    rw [fetch, bind_ok (state?_apply state w), hs]
    rfl
  rw [fetchAll, List.mapM_cons, bind_ok hbool] at h
  rcases bind_some h with ⟨e, -, hr⟩ | ⟨values, w₁, hvalues, h⟩
  · cases hr
  · obtain ⟨hus, rfl⟩ := Prod.mk.inj (Option.some.inj h)
    exact ⟨values, (Except.ok.inj hus).symm, hvalues⟩

theorem fetch_text (hs : w.states[state]? = some s) {v : Lua.Value} {t : Text}
    (h : fetch state v w = some (.ok (.text t), w')) : ∃ b, t = s.charset.decodeEscaped b := by
  rw [fetch, bind_ok (state?_apply state w), hs] at h
  cases v with
  | str b => exact ⟨b, (Value.text.inj (Except.ok.inj (Prod.mk.inj (Option.some.inj h)).1)).symm⟩
  | host id =>
    dsimp only [World.fetched] at h
    split_ifs at h <;> cases h
  | thread u =>
    dsimp only [World.fetched] at h
    cases hu : s.machine.unstarted? u <;> rw [hu] at h <;> cases h
  | _ => cases h

/-- Text that is fetched is a string decoded in the set of the state. -/
theorem fetchAll_text (hw : w.Sound) (hs : w.states[state]? = some s) {vs : List Lua.Value} {us : List Value}
    {t : Text}
    (h : fetchAll state vs w = some (.ok us, w')) (ht : .text t ∈ us) : ∃ b, t = s.charset.decodeEscaped b := by
  induction vs generalizing us w s with
  | nil =>
    obtain ⟨hus, -⟩ := Prod.mk.inj (Option.some.inj h)
    rw [← Except.ok.inj hus] at ht
    cases ht
  | cons v vs ih =>
    rw [fetchAll, List.mapM_cons] at h
    rcases bind_some h with ⟨e, -, hr⟩ | ⟨u, w₁, hu, h⟩
    · cases hr
    · rcases bind_some h with ⟨e, -, hr⟩ | ⟨us', w₂, hus', h⟩
      · cases hr
      · obtain ⟨rfl, rfl⟩ := ok_inj h
        obtain ⟨hw₁, hk⟩ := keeps_fetch state v hw hu
        obtain ⟨s₁, hs₁, hk₁⟩ := hk.states hs
        rcases List.mem_cons.mp ht with rfl | ht
        · exact fetch_text hs hu
        · exact hk₁.charset ▸ ih hw₁ hs₁ hus' ht

/-- A computation comes to no value. -/
def Fails (x : Bridge α) : Prop := ∀ w a w', x w ≠ some (.ok a, w')

theorem Fails.bind {x : Bridge β} {f : β → Bridge α} (hf : ∀ b, Fails (f b)) : Fails (x >>= f) := by
  intro w a w' h
  rcases bind_some h with ⟨e, -, hr⟩ | ⟨b, v, -, h⟩
  · cases hr
  · exact hf b v a w' h

/-- What is thrown comes to no value. -/
theorem fails_raiseThrown (t : Lua.Thrown) : Fails (raiseThrown state t : Bridge α) := by
  have hraise (kind : String) (text : Text) : Fails (raise kind text : Bridge α) := by
    intro w a w' h
    cases h
  unfold raiseThrown
  split
  · exact hraise _ _
  · refine .bind fun s => ?_
    split <;> exact hraise _ _
  · refine .bind fun o => .bind fun s => ?_
    split
    · split
      · refine .bind fun _ => ?_
        intro w a w' h
        cases h
      · exact hraise _ _
    · exact hraise _ _
  · exact hraise _ _

end Bridge

/-! ### Threads on the host -/

/-- A value stands for a thread of a state that the host may call functions of. -/
def World.HasThread (w : World) (state : Nat) (thread : Value) : Prop :=
  ∃ id g t s, thread = .obj id ∧ w.objects[id]? = some (.guest g) ∧ g.state = state ∧ g.value = .thread t ∧
    w.states[state]? = some s ∧ s.machine.Fits

theorem World.HasThread.kept {w w' : World} {state : Nat} {thread : Value} (h : w.HasThread state thread)
    (hk : w.Kept w') : w'.HasThread state thread := by
  obtain ⟨id, g, t, s, rfl, hg, hstate, ht, hs, hfits⟩ := h
  obtain ⟨s', hs', hk'⟩ := hk.states hs
  exact ⟨id, g, t, s', rfl, hk.guests hg, hstate, ht, hs', hk'.machine.fits hfits⟩

namespace Bridge

open Lua.Machine

variable {n state : Nat} {w w' : World} {s : LuaState} {thread : Value} {args : List Value}

/-! ### Calls -/

/-- The host calls a library function that ends: it raises if that may raise, or fetches what is returned. -/
theorem runProg_builtin {f : Lua.Builtin} {vs : List Lua.Value} {P : List Lua.Value → Prop} {R : Prop}
    {r : Except Fault (List Value)} (hw : w.Sound) (hs : w.states[state]? = some s)
    (hfits : s.machine.Fits → (f.enter vs).Ends P R) (hdeep : ¬ s.machine.Fits → R)
    (h : runProg (engine (n + 1)) state (callProg (.builtin f) vs) w = some (r, w')) :
    (R ∧ ∃ e, r = .error e) ∨
      ∃ rs w₁, P rs ∧ w₁.Sound ∧ w.Kept w₁ ∧ fetchAll state rs w₁ = some (r, w') := by
  have hlasts := lasts_builtin (hw hs) hfits hdeep
  rcases bind_some h with ⟨e, he, -⟩ | ⟨res, w₁, hres, hend⟩
  · obtain ⟨res, m', hr, -⟩ := engineRun_lasts (engine_keeps n) hw hs hlasts (.inl rfl) he
    contradiction
  · obtain ⟨res', m', hr, hout, hw₁, hk⟩ := engineRun_lasts (engine_keeps n) hw hs hlasts (.inl rfl) hres
    obtain rfl := Except.ok.inj hr
    cases res with
    | ok rs => exact .inr ⟨rs, w₁, hout, hw₁, hk, hend⟩
    | error t =>
      cases r with
      | ok vs => exact absurd hend (fails_raiseThrown t w₁ vs w')
      | error e => exact .inl ⟨hout, e, rfl⟩

/-- A resumption that gives values back was one of a thread, and gives a truth value in front. -/
theorem callLua_coResume {results : List Value} (hw : w.Sound)
    (h : callLua (engine n) state (.builtin .coResume) (thread :: args) w = some (.ok results, w')) :
    ∃ ok values, results = .bool ok :: values ∧ w'.HasThread state thread ∧ w'.Sound ∧ (∃ m, n = m + 1) ∧
      ∀ t, .text t ∈ values → ∃ s b, w'.states[state]? = some s ∧ t = s.charset.decodeEscaped b := by
  rcases bind_some h with ⟨e, -, hr⟩ | ⟨us, w₁, hus, hrun⟩
  · cases hr
  obtain ⟨x, xs, rfl, hx, rfl⟩ := mapM_push_cons hus
  cases n with
  | zero => cases hrun
  | succ n =>
    obtain ⟨s, hs⟩ : ∃ s, w₁.states[state]? = some s := by
      rcases bind_some hrun with ⟨e, he, -⟩ | ⟨res, w₂, hres, -⟩
      · obtain ⟨s, hs, -⟩ := engineRun_some he
        exact ⟨s, hs⟩
      · obtain ⟨s, hs, -⟩ := engineRun_some hres
        exact ⟨s, hs⟩
    let P (rs : List Lua.Value) : Prop :=
      (∃ ok values, rs = .bool ok :: values) ∧ s.machine.Fits ∧ ∃ t, x = .thread t
    have hends (hfits : s.machine.Fits) : (Lua.Builtin.coResume.enter (x :: xs)).Ends P True :=
      Lua.ends_coResume (fun hthread ok values => ⟨⟨ok, values, rfl⟩, hfits, _, (List.cons.inj hthread).1⟩) trivial
    rcases runProg_builtin hw hs hends (fun _ => trivial) hrun with ⟨-, e, he⟩ | ⟨rs, w₂, hP, hw₂, hk, hfetch⟩
    · cases he
    obtain ⟨⟨ok, values, rfl⟩, hfits, t, rfl⟩ := hP
    obtain ⟨s₂, hs₂, -⟩ := hk.states hs
    obtain ⟨vs, rfl, hvs⟩ := fetchAll_bool hs₂ hfetch
    obtain ⟨hw', hk'⟩ := keeps_fetchAll state values hw₂ hvs
    obtain ⟨id, g, rfl, hg, hstate, ht⟩ := push_thread hx
    have hthread : World.HasThread w₁ state (.obj id) := ⟨id, g, t, s, rfl, hg, hstate, ht, hs, hfits⟩
    refine ⟨ok, vs, rfl, (hthread.kept hk).kept hk', hw', ⟨n, rfl⟩, fun t ht => ?_⟩
    obtain ⟨s', hs', hk₂⟩ := hk'.states hs₂
    obtain ⟨b, rfl⟩ := fetchAll_text hw₂ hs₂ hvs ht
    exact ⟨s', b, hs', by rw [hk₂.charset]⟩

/-- A thread that was resumed can be asked for its state. -/
theorem callLua_coStatus {r : Except Fault (List Value)} (hw : w.Sound) (ht : w.HasThread state thread)
    (h : callLua (engine (n + 1)) state (.builtin .coStatus) [thread] w = some (r, w')) :
    ∃ t, r = .ok [.text t] := by
  obtain ⟨id, g, t, s, rfl, hg, hstate, hvalue, hs, hfits⟩ := ht
  have hpush : [Value.obj id].mapM (push state) w = some (.ok [.thread t], w) := by
    rw [List.mapM_cons, bind_ok (push_guest hg hstate), hvalue]
    rfl
  rw [callLua, bind_ok hpush] at h
  have hends : (Lua.Builtin.coStatus.enter [.thread t]).Ends (fun rs => ∃ b, rs = [.str b]) False :=
    Lua.ends_coStatus fun b => ⟨b, rfl⟩
  rcases runProg_builtin hw hs (fun _ => hends) (fun hdeep => hdeep hfits) h with
    ⟨hR, -⟩ | ⟨rs, w₁, ⟨b, rfl⟩, -, hk, hfetch⟩
  · exact hR.elim
  obtain ⟨s₁, hs₁, -⟩ := hk.states hs
  have hstr : fetch state (.str b) w₁ = some (.ok (.text (s₁.charset.decodeEscaped b)), w₁) := by
    rw [fetch, bind_ok (state?_apply state w₁), hs₁]
    rfl
  rw [fetchAll, List.mapM_cons, bind_ok hstr] at hfetch
  obtain ⟨rfl, -⟩ := Prod.mk.inj (Option.some.inj hfetch)
  exact ⟨_, rfl⟩

end Bridge

end HostedLua
