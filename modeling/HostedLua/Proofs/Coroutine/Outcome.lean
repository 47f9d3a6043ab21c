import HostedLua.Proofs.Coroutine.Standing

/-! What resuming a coroutine handle comes to, with arguments that cross and where no other call by the host is under
way. A suspended thread runs until it stops, and the handle notes how; a dead one is refused. -/

namespace HostedLua

open Host

/-- From one world to another, nothing is left to do on the machine of a state, and a handle notes a status. -/
def World.Settles (w w' : World) (id state : Nat) (status : CoroutineStatus) : Prop :=
  ∃ s h, w.states[state]? = some s ∧ w.objects[id]? = some (.handle h) ∧
    w' = (w.rested state s).withHandle id { h with status }

namespace Bridge

open World Lua.Machine

variable {E : Engine} {n id state t : Nat} {h : Handle} {w w' w₀ v : World} {args guests : List Value}
  {us : List Lua.Value} {res : Except Fault Value} {m : Lua.Machine}

/-! ### A suspended thread is resumed -/

/-- The world in which a resumption has noted what it came to, before it gives its values their host form. -/
def Noted (E : Engine) (id : Nat) (h : Handle) (guests : List Value) (w v : World) : Prop :=
  ∃ r w₁, resumeThread E (errorMessage E) h.state h.guest guests w = some (.ok r, w₁) ∧
    modifyHandle id ({ · with status := .ofStatus r.status }) w₁ = some (.ok ⟨⟩, v)

theorem Noted.unique {r : Resumption} (hv : Noted E id h guests w v)
    (hr : resumeThread E (errorMessage E) h.state h.guest guests w = some (.ok r, w'))
    (hw : modifyHandle id ({ · with status := .ofStatus r.status }) w' = some (.ok ⟨⟩, w₀)) : v = w₀ := by
  obtain ⟨r', w₁, hr', hv⟩ := hv
  obtain ⟨rfl, rfl⟩ := ok_inj (hr.symm.trans hr')
  exact (Prod.mk.inj (Option.some.inj (hv.symm.trans hw))).2

/-- What resuming a suspended thread comes to, by what the thread does at the machine where it stops; `w` is the
world in which its values are fetched, `w'` the one at the end. -/
inductive Stops (E : Engine) (id : Nat) (h : Handle) (t : Nat) (m : Lua.Machine) (w : World) (res : Except Fault Value)
    (w' : World) : Prop where
  /-- It suspends itself. -/
  | yields {vs : List Lua.Value} {k : List Lua.Value → Lua.Prog} {values : List Value} {w₁ w₂ w₃ : World}
    (prog : m.prog = .yield vs k) (fetched : fetchAll h.state vs w = some (.ok values, w₁))
    (settled : w₁.Settles w₂ id h.state .yield) (result : toHostValues E h.state values w₂ = some (res, w₃))
    (objects : w'.objects = w₃.objects) (noted : w'.Notes id .yield)
    (left : w'.Rests h.state t (.yielded k)) : Stops E id h t m w res w'
  /-- It returns. -/
  | returns {vs : List Lua.Value} {values : List Value} {w₁ w₂ w₃ : World}
    (prog : m.prog = .ret vs) (stack : m.stack = []) (fetched : fetchAll h.state vs w = some (.ok values, w₁))
    (settled : w₁.Settles w₂ id h.state .ok) (result : toHostValues E h.state values w₂ = some (res, w₃))
    (objects : w'.objects = w₃.objects) (noted : w'.Notes id .ok)
    (left : w'.Rests h.state t .dead) : Stops E id h t m w res w'
  /-- It fails with an error value that has a text. -/
  | fails {e : Lua.Thrown} {v : Value} {f : Failure} {w₁ w₂ : World} {o : Nat}
    (prog : m.prog = .unwind e) (uncaught : isCaught m.stack = false)
    (fetched : fetch h.state e.seen w = some (.ok v, w₁)) (error : errorValue (errorMessage E) v w₁ = some (.ok f, w₂))
    (noted : w'.Notes id (.ofStatus f.status)) (result : res = .ok (.obj o))
    (value : w'.objects[o]? = some (.error ⟨f.status, f.message⟩ false))
    (left : w'.Rests h.state t .dead) : Stops E id h t m w res w'
  /-- It fails with an error value that has no text. -/
  | textless {e : Lua.Thrown} {v : Value} {f : Fault} {w₁ w₂ : World}
    (prog : m.prog = .unwind e) (uncaught : isCaught m.stack = false)
    (fetched : fetch h.state e.seen w = some (.ok v, w₁))
    (error : errorValue (errorMessage E) v w₁ = some (.error f, w₂)) (result : res = .error f)
    (left : w'.Rests h.state t .dead) : Stops E id h t m w res w'

/-- An error value without a text gets out. -/
theorem Tells.raises {f : Fault} {w₁ : World} (htells : Tells (errorMessage E) h.state t m w (.error f) w₁)
    (hstates : w'.states = w₁.states) : Stops E id h t m w (.error f) w' := by
  generalize hr : (Except.error f : Except Fault Resumption) = r at htells
  cases htells with
  | yields => cases hr
  | returns => cases hr
  | @fails e v r _ _ prog uncaught fetched error left =>
    cases r with
    | ok e => cases hr
    | error f' =>
      obtain rfl := Except.error.inj hr
      exact .textless prog uncaught fetched error rfl (left.of_states hstates)

/-- What the host is told is noted on the handle, and is so still when the result has its host form. -/
theorem Tells.settles {r : Resumption} {w₁ w₂ : World} {k : Handle}
    (htells : Tells (errorMessage E) h.state t m w (.ok r) w₁) (hid : w₁.objects[id]? = some (.handle k))
    (hsettle : settle E id h r.status r.result w₁ = some (res, w₂)) (hstates : w'.states = w₂.states)
    (hobjects : w'.objects = w₂.objects)
    (hleaves : ∀ v, modifyHandle id ({ · with status := .ofStatus r.status }) w₁ = some (.ok ⟨⟩, v) →
      v.Leaves w' id h.state t) : Stops E id h t m w res w' := by
  have hv := modifyHandle_apply (f := ({ · with status := .ofStatus r.status })) hid
  have hl := hleaves _ hv
  have hnotes := hl.notes ⟨_, (withHandle_objects hid id).trans (if_pos rfl), rfl⟩
  rw [settle, bind_ok hv] at hsettle
  generalize hr : (Except.ok r : Except Fault Resumption) = r' at htells
  cases htells with
  | yields prog fetched found left =>
    obtain rfl := Except.ok.inj hr
    exact .yields prog fetched ⟨_, k, found, hid, rfl⟩ hsettle hobjects hnotes (hl.rests (left.of_states rfl))
  | returns prog stack fetched found left =>
    obtain rfl := Except.ok.inj hr
    exact .returns prog stack fetched ⟨_, k, found, hid, rfl⟩ hsettle hobjects hnotes (hl.rests (left.of_states rfl))
  | @fails e v r' _ _ prog uncaught fetched error left =>
    cases r' with
    | error f => cases hr
    | ok f =>
      obtain rfl := Except.ok.inj hr
      obtain ⟨rfl, rfl⟩ := Prod.mk.inj (Option.some.inj hsettle)
      refine .fails prog uncaught fetched error hnotes rfl ?_ (hl.rests (left.of_states rfl))
      simp [hobjects]

/-- A suspended thread is resumed while its state stays open and nothing else resumes or closes it: it runs until it
stops, the handle notes how, and what it left is the result. -/
theorem resume_ready (hready : w.Ready id state t) (hid : w.objects[id]? = some (.handle h))
    (hc : Crosses id h args guests us w w₀) (hr : resume (engine (n + 1)) id h args w = some (res, w'))
    (hopen : isOpen state w' = some (.ok true, w'))
    (hleaves : ∀ v, Noted (engine (n + 1)) id h guests w₀ v → v.Leaves w' id state t) :
    ∃ s v m m', w₀.states[state]? = some s ∧
      Reaches (engine n) state (w₀, s.machine.calling .coResume (.thread t :: us)) (v, m) ∧ m.current = t ∧
      Stops (engine (n + 1)) id h t m (v.withMachine state m') res w' := by
  obtain ⟨h', hid', rfl, ht⟩ := hready.hosts.handle
  obtain rfl := Object.handle.inj (Option.some.inj (hid.symm.trans hid'))
  have hready₀ := Ready.converted hready hc.converted
  obtain ⟨hw₀, hk₀⟩ := converted_keeps_hold hready.hosts.sound hc.converted
  obtain ⟨s, hs, -, hidle⟩ := hready₀.hosts.found
  rw [resume_eq hc.valid hc.converted] at hr
  obtain ⟨⟨_, w₂⟩, hrun, heq⟩ := Option.map_eq_some_iff.mp hr
  obtain ⟨rfl, rfl⟩ := Prod.mk.inj heq
  have hreleased : (w₂.release w).states = w₂.states := rfl
  have hopen₂ : isOpen h.state w₂ = some (.ok true, w₂) := isOpen_congr hreleased hopen
  have htext (v : Value) : Keeps World.Sound World.Kept (errorMessage (engine (n + 1)) v) :=
    keeps_errorMessage (engine_keeps (n + 1)) v
  have hstops {r : Except Fault Resumption} {w₁ : World}
      (hr : resumeThread (engine (n + 1)) (errorMessage (engine (n + 1))) h.state h.guest guests w₀ = some (r, w₁))
      (hopen : isOpen h.state w₁ = some (.ok true, w₁)) :=
    resumeThread_suspended htext hw₀ hs hidle (hready₀.suspended hs) (ht.kept hk₀) hc.pushed hr hopen
  rcases bind_some hrun with ⟨f, hf, rfl⟩ | ⟨r, w₁, hr₁, hsettle⟩
  · obtain ⟨v, m, m', hreaches, hcur, htells⟩ := hstops hf hopen₂
    exact ⟨s, v, m, m', hs, hreaches, hcur, htells.raises hreleased⟩
  · obtain ⟨hw₁, hk₁⟩ := keeps_resumeThread (engine_keeps (n + 1)) htext _ _ _ hw₀ hr₁
    obtain ⟨h₁, hid₁, -⟩ := (hk₀.trans hk₁).handles hid
    obtain ⟨s₁, hs₁, -⟩ := hk₁.states hs
    obtain ⟨-, hk₂⟩ := keeps_settle (engine_keeps (n + 1)) id h _ _ hw₁ hsettle
    have hopen₁ : isOpen h.state w₁ = some (.ok true, w₁) := hk₂.isOpen hs₁ hopen₂ ▸ isOpen_apply hs₁
    obtain ⟨v, m, m', hreaches, hcur, htells⟩ := hstops hr₁ hopen₁
    refine ⟨s, v, m, m', hs, hreaches, hcur, htells.settles hid₁ hsettle hreleased rfl ?_⟩
    exact fun v₁ hv₁ => hleaves v₁ ⟨r, w₁, hr₁, hv₁⟩

/-- Where `coroutine.resume` refuses the thread of a handle since it is dead, the result is an error value that says so,
and the handle notes it. -/
theorem resume_dead {s : LuaState} {m' : Lua.Machine} (n : Nat) (hw : w.Sound)
    (hid : w.objects[id]? = some (.handle h)) (ht : w.IsThread h.state h.guest t)
    (hc : Crosses id h args guests us w w₀) (hs : w₀.states[h.state]? = some s)
    (hrun : (s.machine.calling .coResume (.thread t :: us)).run maxSteps =
      some (m', .done (.ok [.bool false, .str deadMessage]))) :
    ∃ o w', resume (engine (n + 1)) id h args w = some (.ok (.obj o), w') ∧
      w'.objects[o]? = some (.error ⟨.runtime, deadText⟩ false) ∧ w'.Notes id .runtime ∧
      w'.states = (w₀.withMachine h.state m').states := by
  obtain ⟨-, hk₀⟩ := converted_keeps_hold hw hc.converted
  have hresume := resumeThread_refused (n := n) (engine (n + 1)) hs hrun (ht.kept hk₀) hc.pushed
  obtain ⟨h₀, hid₀, -⟩ := hk₀.handles hid
  have hid₁ : (w₀.withMachine h.state m').objects[id]? = some (.handle h₀) := hid₀
  obtain ⟨o, w₁, hsettle, hvalue, hnotes, hstates⟩ := settle_failed (engine (n + 1)) h ⟨.runtime, deadText⟩ hid₁
  refine ⟨o, w₁.release w, ?_, hvalue, hnotes, hstates⟩
  rw [resume_eq hc.valid hc.converted, bind_ok hresume]
  exact congrArg _ hsettle

/-- A dead thread is not resumed: the result is an error value that says so, the handle notes it, and nothing has run
on the machine. -/
theorem resume_spent (n : Nat) (hspent : w.Spent id state t) (hid : w.objects[id]? = some (.handle h))
    (hc : Crosses id h args guests us w w₀) :
    ∃ o w' s, resume (engine (n + 1)) id h args w = some (.ok (.obj o), w') ∧
      w'.objects[o]? = some (.error ⟨.runtime, deadText⟩ false) ∧ w'.Notes id .runtime ∧
      w₀.states[state]? = some s ∧ w'.states = (w₀.rested state s).states := by
  obtain ⟨h', hid', rfl, ht⟩ := hspent.hosts.handle
  obtain rfl := Object.handle.inj (Option.some.inj (hid.symm.trans hid'))
  have hspent₀ := Spent.converted hspent hc.converted
  obtain ⟨s, hs, -, hidle⟩ := hspent₀.hosts.found
  have hrun := run_coResume_dead us hidle (hspent₀.dead hs) 999999999996
  obtain ⟨o, w', hresume, hvalue, hnotes, hstates⟩ := resume_dead n hspent.hosts.sound hid ht hc hs hrun
  exact ⟨o, w', s, hresume, hvalue, hnotes, hs, hstates⟩

end Bridge

end HostedLua
