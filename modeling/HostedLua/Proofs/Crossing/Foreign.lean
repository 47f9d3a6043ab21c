import HostedLua.Proofs.Coroutine.Standing
import HostedLua.Proofs.Function.Calling
import HostedLua.Proofs.Table.Lookup

/-! Objects of the host's own that Lua code gives back. Where code gives just one value, a call and a lookup take a tuple
for a group of values; anything else comes back as the object that it is. A resumption gives values with a truth value in
front, so what comes back is always the object itself. -/

namespace HostedLua

open Host

/-- An object of the host's own that Lua code holds as itself. -/
structure World.Foreign (w : World) (id : Nat) (o : Object) : Prop where
  found : w.objects[id]? = some o
  something : id ≠ Value.nothingId
  own : ∀ g, o ≠ .guest g

namespace Bridge

open World Lua.Machine

variable {E : Engine} {n state id t : Nat} {o : Object} {p : Lua.Prog} {w w₀ w₁ : World} {s : LuaState}
  {args guests : List Value} {us : List Lua.Value} {thread : Value}

/-! ### To the host -/

theorem toHost_foreign (E : Engine) (state : Nat) (hid : w.objects[id]? = some o) (ho : ∀ g, o ≠ .guest g) :
    toHost E state (.obj id) w = some (.ok (.obj id), w) := by
  rw [toHost, bind_ok (object_apply id w), hid]
  cases o with
  | guest g => exact absurd rfl (ho g)
  | _ => rfl

/-- A lone object is a group by itself, but a tuple is a group of its items. -/
theorem group_foreign (ho : w.Foreign id o) :
    ((∀ items, o ≠ .tuple items) → group [.obj id] w = some (.ok [.obj id], w)) ∧
      ∀ items, o = .tuple items → group [.obj id] w = some (.ok items, w) := by
  rw [group, bind_ok (object_apply id w), ho.found, Option.getD_some]
  cases o with
  | tuple items => exact ⟨fun hne => absurd rfl (hne items), fun items hitems => by cases hitems; rfl⟩
  | _ => exact ⟨fun _ => rfl, fun items hitems => by cases hitems⟩

theorem runProg_foreign (hs : w₁.states[state]? = some s) (ho : w₁.Foreign id o)
    (hrun : E.run state p w₀ = some (.ok (.ok [.host id]), w₁)) :
    runProg E state p w₀ = some (.ok [.obj id], w₁) := by
  rw [runProg, bind_ok hrun]
  dsimp only
  rw [fetchAll, List.mapM_cons, bind_ok (fetch_host hs ho.something)]
  rfl

theorem run_found (hw : w₀.Sound) (hs : ∃ s, w₀.states[state]? = some s) {r : Except Fault _}
    (hrun : (engine n).run state p w₀ = some (r, w₁)) : ∃ s, w₁.states[state]? = some s := by
  obtain ⟨s, hs⟩ := hs
  obtain ⟨s₁, hs₁, -⟩ := ((engine_keeps n).run _ _ hw hrun).2.states hs
  exact ⟨s₁, hs₁⟩

/-! ### Calls -/

/-- A call whose program gives an object gives it back, or the items of a tuple. -/
theorem Calling.foreign {x : Bridge Value} (h : Calling (engine n) w x state p w₀) (hw : w.Sound)
    (hrun : (engine n).run state p w₀ = some (.ok (.ok [.host id]), w₁)) (ho : w₁.Foreign id o) :
    ((∀ items, o ≠ .tuple items) → x w = some (.ok (.obj id), w₁.release w)) ∧
      ∀ items, o = .tuple items →
        x w = (toHostValues (engine n) state items w₁).map fun r => (r.1, r.2.release w) := by
  obtain ⟨hw₀, hs₀⟩ := h.keeps hw
  obtain ⟨s, hs⟩ := run_found hw₀ hs₀ hrun
  have hprog := runProg_foreign hs ho hrun
  have hx {values : List Value} (hgroup : group [.obj id] w₁ = some (.ok values, w₁)) :
      x w = (toHostValues (engine n) state values w₁).map fun r => (r.1, r.2.release w) := by
    rw [h.eq, outcome, bind_ok (protectedCall_ok ((bind_ok hprog).trans hgroup))]
    rfl
  obtain ⟨hobject, htuple⟩ := group_foreign ho
  refine ⟨fun hne => ?_, fun items hitems => hx (htuple items hitems)⟩
  rw [hx (hobject hne), toHostValues, toHost_foreign _ _ ho.found ho.own]
  rfl

/-! ### Lookups -/

/-- A valid table handle is read at a key: a program on its state looks the key up. -/
structure Reading (h : Handle) (key default : Value) (w : World) (p : Lua.Prog) (w₀ : World) : Prop where
  valid : w.valid h = true
  converted : ∃ u, toGuest h.state key (w.hold [h.guest, key, default] h.state) = some (.ok u, w₀) ∧ ∃ t κ,
    (∃ o, h.guest = .obj o ∧ w₀.objects[o]? = some (.guest ⟨h.state, .table t, false⟩)) ∧
      pushKey h.state u w₀ = some (.ok κ, w₀) ∧ p = Lua.Operate.index none ⟨.table t, none⟩ κ fun v => .ret [v]

/-- What a lookup gives for a group of values. -/
def firstOr (E : Engine) (state : Nat) (default : Value) : List Value → Bridge Value
  | [] | .none :: _ => pure default
  | v :: _ => toHost E state v

theorem Reading.eq {h : Handle} {key default : Value} (hr : Reading h key default w p w₀) {values : List Value}
    (hgroup : (runProg E h.state p >>= group) w₀ = some (.ok values, w₁)) : getValue E h key default w =
      (firstOr E h.state default values w₁).map fun r => (r.1, r.2.release w) := by
  obtain ⟨valid, u, converted, t, κ, ⟨o, hguest, ho⟩, hκ, rfl⟩ := hr
  have hitem : (getItem E h.guest u >>= group) w₀ = some (.ok values, w₁) := by
    rw [← hgroup]
    refine bind_congr_left ?_
    rw [hguest, getItem, bind_ok (object_apply o w₀), ho]
    exact bind_ok hκ
  rw [getValue_valid valid, bind_ok converted, readAt, bind_ok (protectedCall_ok hitem)]
  refine congrArg _ ?_
  cases values with
  | nil => rfl
  | cons v values => cases v <;> rfl

theorem Reading.keeps {h : Handle} {key default : Value} (hr : Reading h key default w p w₀) (hw : w.Sound) :
    w₀.Sound ∧ ∃ s, w₀.states[h.state]? = some s := by
  obtain ⟨valid, u, converted, -⟩ := hr
  obtain ⟨s, hs⟩ := state_of_isValid (valid ▸ valid_apply h w)
  have hheld : (w.hold [h.guest, key, default] h.state).states[h.state]? = some s := hs
  obtain ⟨hw₀, hk⟩ := keeps_toGuest _ key (hw.hold [h.guest, key, default] h.state) converted
  obtain ⟨s₀, hs₀, -⟩ := hk.states hheld
  exact ⟨hw₀, s₀, hs₀⟩

/-- A field that holds an object gives it back, or the first item of a tuple. -/
theorem Reading.foreign {h : Handle} {key default : Value} (hr : Reading h key default w p w₀) (hw : w.Sound)
    (hrun : (engine n).run h.state p w₀ = some (.ok (.ok [.host id]), w₁)) (ho : w₁.Foreign id o) :
    ((∀ items, o ≠ .tuple items) → getValue (engine n) h key default w = some (.ok (.obj id), w₁.release w)) ∧
      ∀ items, o = .tuple items → getValue (engine n) h key default w =
        (firstOr (engine n) h.state default items w₁).map fun r => (r.1, r.2.release w) := by
  obtain ⟨hw₀, hs₀⟩ := hr.keeps hw
  obtain ⟨s, hs⟩ := run_found hw₀ hs₀ hrun
  have hprog := runProg_foreign hs ho hrun
  obtain ⟨hobject, htuple⟩ := group_foreign ho
  refine ⟨fun hne => ?_, fun items hitems => hr.eq ((bind_ok hprog).trans (htuple items hitems))⟩
  rw [hr.eq ((bind_ok hprog).trans (hobject hne)), firstOr, toHost_foreign _ _ ho.found ho.own]
  · rfl
  · rintro ⟨⟩

/-! ### Resumptions -/

/-- Once `coroutine.resume` has given values back, its thread can be asked for its state. -/
theorem callLua_coStatus_ok (hw : w.Sound) (ht : w.HasThread state thread) :
    ∃ t w', callLua (engine (n + 1)) state (.builtin .coStatus) [thread] w = some (.ok [.text t], w') ∧
      w'.objects = w.objects := by
  obtain ⟨id, g, t, s, rfl, hg, hstate, hvalue, hs, hfits⟩ := ht
  obtain ⟨m, b, hrun⟩ : ∃ m b, (s.machine.calling .coStatus [.thread t]).run maxSteps =
      some (m, .done (.ok [.str b])) := by
    have henter : Lua.Builtin.coStatus.enter [.thread t] = .look _ := rfl
    obtain ⟨m, hrun⟩ := run_looks (hw hs) hfits henter rfl 999999999996
    exact ⟨m, _, hrun⟩
  have hpush : [Value.obj id].mapM (push state) w = some (.ok [.thread t], w) := by
    rw [List.mapM_cons, bind_ok (push_guest hg hstate), hvalue]
    rfl
  have hs' : (w.withMachine state m).states[state]? = some { s with machine := m } := withMachine_states hs
  refine ⟨s.charset.decodeEscaped b, w.withMachine state m, ?_, rfl⟩
  rw [callLua, bind_ok hpush, runProg, bind_ok (engineRun_builtin hs hrun)]
  dsimp only
  rw [fetchAll, List.mapM_cons, bind_ok (fetch_inl hs' rfl)]
  rfl

/-- A resumption that has given values back ends or yields with them, if the state is still open. -/
theorem resumeThread_given {text : Value → Bridge Text} {values : List Value} (hw : w.Sound)
    (hcall : callLua (engine (n + 1)) state (.builtin .coResume) (thread :: guests) w₀ =
      some (.ok (.bool true :: values), w)) (hthread : w.HasThread state thread) (hopen : w.opened state = true) :
    ∃ r w₁, resumeThread (engine (n + 1)) text state thread guests w₀ = some (.ok r, w₁) ∧ r.result = .ok values ∧
      w₁.objects = w.objects := by
  obtain ⟨x, w₁, hstatus, hobjects⟩ := callLua_coStatus_ok (n := n) hw hthread
  refine ⟨if x == ("dead" : Text) then .ended values else .yielded values, w₁, ?_, ?_, hobjects⟩
  · rw [resumeThread_eq hcall, if_neg (by decide), bind_ok (opened_apply state w), hopen, if_neg (by decide),
      bind_ok hstatus]
    dsimp only
    split_ifs <;> rfl
  · split_ifs <;> rfl

/-- A lone object that a coroutine gives is the result. -/
theorem settle_foreign {k : Nat} {h h' : Handle} (E : Engine) (status : ErrorStatus)
    (hid : w.objects[k]? = some (.handle h')) (ho : w.Foreign id o) :
    ∃ w', settle E k h status (.ok [.obj id]) w = some (.ok (.obj id), w') := by
  let noted : World := w.withHandle k { h' with status := .ofStatus status }
  have hnoted : ∃ o, noted.objects[id]? = some o ∧ ∀ g, o ≠ .guest g := by
    rw [withHandle_objects hid]
    split_ifs
    · exact ⟨_, rfl, by rintro g ⟨⟩⟩
    · exact ⟨o, ho.found, ho.own⟩
  obtain ⟨o', ho', hown⟩ := hnoted
  refine ⟨noted, ?_⟩
  rw [settle, bind_ok (modifyHandle_apply hid)]
  exact toHost_foreign E h.state ho' hown

/-- A coroutine that gives an object gives it back, if its state has not been closed meanwhile. -/
theorem resume_foreign {k : Nat} {h : Handle} (hw : w.Sound) (hid : w.objects[k]? = some (.handle h))
    (hc : Crosses k h args guests us w w₀) (ht : w.IsThread h.state h.guest t)
    (hrun : (engine (n + 1)).run h.state (callProg (.builtin .coResume) (.thread t :: us)) w₀ =
      some (.ok (.ok (reported (.ok [.host id]))), w₁)) (ho : w₁.Foreign id o) :
    (w₁.opened h.state = true → ∃ w', resume (engine (n + 1)) k h args w = some (.ok (.obj id), w')) ∧
      (w₁.opened h.state = false → resume (engine (n + 1)) k h args w = some (.error closedFault, w₁.release w)) := by
  obtain ⟨hw₀, hk₀⟩ := converted_keeps_hold hw hc.converted
  obtain ⟨hw₁, hk₁⟩ := (engine_keeps (n + 1)).run _ _ hw₀ hrun
  obtain ⟨s, hs⟩ := state_of_isValid hc.valid
  obtain ⟨s₁, hs₁, -⟩ := (hk₀.trans hk₁).states hs
  have hcall := callLua_coResume_host (ht.kept hk₀) hc.pushed hrun hs₁ ho.something
  rw [resume_eq hc.valid hc.converted]
  refine ⟨fun hopen => ?_, fun hclosed => ?_⟩
  · obtain ⟨-, -, -, hthread, -⟩ := callLua_coResume hw₀ hcall
    obtain ⟨r, w₂, hresume, hvalues, hobjects⟩ := resumeThread_given hw₁ hcall hthread hopen
    obtain ⟨h', hid', -⟩ := (hk₀.trans hk₁).handles hid
    have ho₂ : w₂.Foreign id o := ⟨hobjects ▸ ho.found, ho.something, ho.own⟩
    obtain ⟨w₃, hsettle⟩ := settle_foreign (h := h) (engine (n + 1)) r.status (hobjects ▸ hid') ho₂
    rw [bind_ok hresume, hvalues, hsettle]
    exact ⟨_, rfl⟩
  · have hresume : resumeThread (engine (n + 1)) (errorMessage (engine (n + 1))) h.state h.guest guests w₀ =
        some (.error closedFault, w₁) := by
      rw [resumeThread_eq hcall, if_neg (by decide), bind_ok (opened_apply h.state w₁), hclosed]
      rfl
    rw [bind_error hresume]
    rfl

/-! ### All ways back -/

/-- Lua code gives an object of the host's own. A call and a lookup give that object back, unless it is a tuple: of that
a call gives the items, and a lookup the first one. A resumption gives the object back in any case, unless the state of
the coroutine has been closed meanwhile. -/
theorem foreign_returned (n : Nat) {id : Nat} {o : Object} {w w₀ w₁ : World} (hw : w.Sound) (ho : w₁.Foreign id o) :
    (∀ {x state p}, Calling (engine (n + 1)) w x state p w₀ →
      (engine (n + 1)).run state p w₀ = some (.ok (.ok [.host id]), w₁) →
      ((∀ items, o ≠ .tuple items) → x w = some (.ok (.obj id), w₁.release w)) ∧
        ∀ items, o = .tuple items →
          x w = (toHostValues (engine (n + 1)) state items w₁).map fun r => (r.1, r.2.release w)) ∧
    (∀ {h key default p}, Reading h key default w p w₀ →
      (engine (n + 1)).run h.state p w₀ = some (.ok (.ok [.host id]), w₁) →
      ((∀ items, o ≠ .tuple items) → getValue (engine (n + 1)) h key default w = some (.ok (.obj id), w₁.release w)) ∧
        ∀ items, o = .tuple items → getValue (engine (n + 1)) h key default w =
          (firstOr (engine (n + 1)) h.state default items w₁).map fun r => (r.1, r.2.release w)) ∧
    ∀ {k h args guests us t}, w.objects[k]? = some (.handle h) → Crosses k h args guests us w w₀ →
      w.IsThread h.state h.guest t →
      (engine (n + 1)).run h.state (callProg (.builtin .coResume) (.thread t :: us)) w₀ =
        some (.ok (.ok (reported (.ok [.host id]))), w₁) →
      (w₁.opened h.state = true → ∃ w', resume (engine (n + 1)) k h args w = some (.ok (.obj id), w')) ∧
        (w₁.opened h.state = false → resume (engine (n + 1)) k h args w = some (.error closedFault, w₁.release w)) :=
  ⟨fun call hrun => call.foreign hw hrun ho, fun reading hrun => reading.foreign hw hrun ho,
    fun hid crosses thread hrun => resume_foreign hw hid crosses thread hrun ho⟩

namespace Keeper

/-! A function, which a coroutine runs as well, gives an object that it has in a variable, and a table has it in a
field. -/

def machine : Lua.Machine :=
  { heap :=
      { cells := #[.host 1], closures := #[⟨.mk 1 0 .dropped [.ret [.var .outer 0 (.ofString "o")]], [0]⟩]
        tables := #[({} : Lua.Table).set (.str (.ofString "o")) (.host 1)] }
    threads := #[{ rest := .waiting }, { rest := .fresh (.closure 0) }] }

def function : Handle := { kind := .function, state := 0, guest := .obj 2 }

def table : Handle := { kind := .table, state := 0, guest := .obj 3 }

def coroutine : Handle := { kind := .coroutine, state := 0, guest := .obj 4, owns := true }

def world (o : Object) : World :=
  { objects := #[.nothing, o, .guest ⟨0, .closure 0, false⟩, .guest ⟨0, .table 0, false⟩, .guest ⟨0, .thread 1, false⟩,
      .handle coroutine]
    configs := #[{}], diagnostics := #[[]]
    states := #[{ config := 0, diagnostics := 0, charset := .utf8, machine, globals := 0 }]
    languages := #[{ config := 0, diagnostics := 0, state := some 0 }] }

def gives (test : List Lua.Value → Bool) : Option (Lua.Machine × Lua.Stop) → Bool
  | some (_, .done (.ok vs)) => test vs
  | _ => false

def isObject : List Lua.Value → Bool
  | [.host 1] => true
  | _ => false

def isReported : List Lua.Value → Bool
  | .bool true :: vs => isObject vs
  | _ => false

theorem of_gives {test : List Lua.Value → Bool} {r : Option (Lua.Machine × Lua.Stop)} (h : gives test r = true) :
    ∃ m vs, r = some (m, .done (.ok vs)) ∧ test vs = true := by
  unfold gives at h
  split at h
  · exact ⟨_, _, rfl, h⟩
  · cases h

theorem of_isObject {vs : List Lua.Value} (h : isObject vs = true) : vs = [.host 1] := by
  unfold isObject at h
  split at h
  · rfl
  · cases h

theorem sound (o : Object) : (world o).Sound :=
  sound_single rfl ((Lua.Machine.Sound.new _).push Lua.Machine.noEntry_nil)

theorem valid {h : Handle} (o : Object) (hh : h = function ∨ h = table ∨ h = coroutine) :
    (world o).valid h = true := by
  rcases hh with rfl | rfl | rfl <;>
    simp [World.valid, Handle.stands, World.opened, World.stateAlive, world, function, table, coroutine]

/-- Where a program gives the object, it leaves the host's objects alone. -/
theorem run_isObject {p : Lua.Prog} (o : Object) (vs : List Value)
    (h : gives isObject ((machine.enter p).run maxSteps) = true) : ∃ m, (engine 1).run 0 p ((world o).hold vs 0) =
      some (.ok (.ok [.host 1]), ((world o).hold vs 0).withMachine 0 m) := by
  obtain ⟨m, us, hrun, hus⟩ := of_gives h
  obtain rfl := of_isObject hus
  exact ⟨m, engineRun_over rfl hrun⟩

/-- A call of the function. -/
theorem calling (o : Object) : Calling (engine 1) (world o) (invoke (engine 1) function []) 0 (callProg (.closure 0) [])
    ((world o).hold [.obj 2] 0) := by
  have hvalid := valid_apply function (world o)
  rw [valid o (.inl rfl)] at hvalid
  exact .invoke hvalid rfl ⟨2, rfl, rfl⟩ rfl

theorem gives_called : gives isObject ((machine.enter (callProg (.closure 0) [])).run maxSteps) = true := by cbv

def lookup : Lua.Prog := Lua.Operate.index none ⟨.table 0, none⟩ (.str (.ofString "o")) fun v => .ret [v]

theorem gives_lookup : gives isObject ((machine.enter lookup).run maxSteps) = true := by cbv

theorem gives_resumed :
    gives isReported ((machine.calling .coResume [.thread 1]).run maxSteps) = true := by cbv

theorem reading (o : Object) : Reading table (.text "o") .none (world o) lookup
    ((world o).hold [.obj 3, .text "o", .none] 0) :=
  ⟨valid o (.inr (.inl rfl)), .text "o", rfl, 0, _, ⟨3, rfl, rfl⟩, rfl, rfl⟩

theorem crosses (o : Object) : Crosses 5 coroutine [] [] [] (world o) ((world o).hold [.obj 5, .obj 4] 0) := by
  have hvalid := valid_apply coroutine (world o)
  rw [valid o (.inr (.inr rfl))] at hvalid
  exact ⟨hvalid, rfl, rfl⟩

/-- Resumed, the function gives the object as its only value. -/
theorem run_resumed (o : Object) (vs : List Value) : ∃ m,
    (engine 1).run 0 (callProg (.builtin .coResume) [.thread 1]) ((world o).hold vs 0) =
      some (.ok (.ok (reported (.ok [.host 1]))), ((world o).hold vs 0).withMachine 0 m) := by
  obtain ⟨m, us, hrun, hus⟩ := of_gives gives_resumed
  unfold isReported at hus
  split at hus
  · obtain rfl := of_isObject hus
    exact ⟨m, engineRun_builtin rfl hrun⟩
  · cases hus

theorem foreign {o : Object} (vs : List Value) (m : Lua.Machine) (ho : ∀ g, o ≠ .guest g) :
    (((world o).hold vs 0).withMachine 0 m).Foreign 1 o :=
  ⟨rfl, by decide, ho⟩

end Keeper

/-- A list comes back from a call as itself; of a tuple of one number, a call and a lookup give the number, and a
resumption the tuple. -/
theorem foreign_returned_tuple :
    (∃ w, invoke (engine 1) Keeper.function [] (Keeper.world (.list [])) = some (.ok (.obj 1), w)) ∧
    (∃ w, invoke (engine 1) Keeper.function [] (Keeper.world (.tuple [.int 7])) = some (.ok (.int 7), w)) ∧
    (∃ w, getValue (engine 1) Keeper.table (.text "o") .none (Keeper.world (.tuple [.int 7])) =
      some (.ok (.int 7), w)) ∧
    ∃ w, resume (engine 1) 5 Keeper.coroutine [] (Keeper.world (.tuple [.int 7])) = some (.ok (.obj 1), w) := by
  obtain ⟨m₁, hlist⟩ := Keeper.run_isObject (.list []) [.obj 2] Keeper.gives_called
  obtain ⟨m₂, hcalled⟩ := Keeper.run_isObject (.tuple [.int 7]) [.obj 2] Keeper.gives_called
  obtain ⟨m₃, hread⟩ := Keeper.run_isObject (.tuple [.int 7]) [.obj 3, .text "o", .none] Keeper.gives_lookup
  obtain ⟨m₄, hresumed⟩ := Keeper.run_resumed (.tuple [.int 7]) [.obj 5, .obj 4]
  have htuple (vs : List Value) (m : Lua.Machine) := Keeper.foreign (o := .tuple [.int 7]) vs m (by rintro g ⟨⟩)
  obtain ⟨hcall, -⟩ := foreign_returned 0 (Keeper.sound _) (Keeper.foreign (o := .list []) [.obj 2] m₁ (by rintro g ⟨⟩))
  have hkept := (hcall (Keeper.calling _) hlist).1 (by rintro items ⟨⟩)
  obtain ⟨hcall, -, -⟩ := foreign_returned 0 (Keeper.sound _) (htuple [.obj 2] m₂)
  have hitem := (hcall (Keeper.calling _) hcalled).2 _ rfl
  obtain ⟨-, hlookup, -⟩ := foreign_returned 0 (Keeper.sound _) (htuple [.obj 3, .text "o", .none] m₃)
  have hfield := (hlookup (Keeper.reading _) hread).2 _ rfl
  obtain ⟨-, -, hresume⟩ := foreign_returned 0 (Keeper.sound _) (htuple [.obj 5, .obj 4] m₄)
  have hsame := (hresume rfl (Keeper.crosses _) ⟨4, rfl, rfl⟩ hresumed).1 rfl
  exact ⟨⟨_, hkept⟩, ⟨_, hitem⟩, ⟨_, hfield⟩, hsame⟩

end Bridge

end HostedLua
