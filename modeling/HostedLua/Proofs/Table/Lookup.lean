import HostedLua.Proofs.Crossing.Arrival
import HostedLua.Proofs.Function.Invoke

/-! Reading a table at a key. The key goes to Lua, the table is read there, and what it gives goes to the host. A key
that the host has from Lua finds the entry that Lua finds, whatever the default is. -/

namespace HostedLua

open Host

namespace World

variable {w w' : World} {h : Handle} {state t : Nat} {s : LuaState} {encoding x u : Value} {g : Lua.Value}

/-- A handle is valid and stands for a table of a state that serves. -/
structure TableAt (w : World) (h : Handle) (t : Nat) (s : LuaState) (encoding : Value) : Prop
    extends w.Serves h.state s encoding where
  wraps : s.Wraps
  valid : w.valid h = true
  guest : ∃ o, h.guest = .obj o ∧ w.objects[o]? = some (.guest ⟨h.state, .table t, false⟩)

/-- What a value is on the host does not depend on more of a machine than which threads have not run. -/
theorem fetched_withMachine {m : Lua.Machine} (hm : ∀ t, m.unstarted? t = s.machine.unstarted? t) (v : Lua.Value) :
    fetched { s with machine := m } state v = fetched s state v := by
  cases v with
  | thread t => simp only [fetched, hm]
  | _ => rfl

/-- A value that stands for one of Lua's own stands for it later, too. -/
theorem pushed?_kept {cs : Charset} (hk : w.Kept w') (hg : ∀ id, g ≠ .host id)
    (h : w.pushed? state cs u = some g) : w'.pushed? state cs u = some g := by
  cases u with
  | obj id =>
    rw [pushed?] at h ⊢
    cases ho : w.objects[id]? with
    | none => simp [ho] at h
    | some o =>
      rw [ho] at h
      cases o with
      | guest g' => rwa [hk.guests ho]
      | _ => exact absurd (Option.some.inj h).symm (hg id)
  | _ => exact h

theorem leafForm?_kept {cs : Charset} (hk : w.Kept w') (hg : ∀ id, g ≠ .host id)
    (h : w.leafForm? state encoding x = some u) (hp : w.pushed? state cs u = some g) :
    w'.leafForm? state encoding x = some u := by
  cases x with
  | obj id =>
    rw [leafForm?] at h ⊢
    cases ho : w.objects[id]? with
    | none => simp [ho] at h
    | some o =>
      rw [ho] at h
      cases o with
      | handle h' =>
        obtain ⟨h'', ho', hkept⟩ := hk.handles ho
        rw [ho']
        dsimp only at h ⊢
        rwa [hkept.state, hkept.guest]
      | guest g' => rwa [hk.guests ho]
      | _ =>
        -- An object of the host's own is pushed as itself.
        dsimp only at h
        split_ifs at h
        obtain rfl := Option.some.inj h
        simp only [pushed?, ho] at hp
        exact absurd (Option.some.inj hp).symm (hg id)
  | _ => exact h

end World

namespace Bridge

open World

variable {E : Engine} {n state o t : Nat} {w w' w₁ : World} {h : Handle} {s s' : LuaState} {encoding x u d : Value}
  {κ v : Lua.Value}

/-! ### Keys -/

/-- A string comes to the host of a state without an encoding, and goes back. -/
theorem returns_utf8 (hs : w.Serves state s .none) (hcs : s.charset = .utf8) (b : Bytes) :
    ∃ x u, (fetch state (.str b) >>= toHost E state) w = some (.ok x, w) ∧ w.leafForm? state .none x = some u ∧
      w.pushed? state s.charset u = some (.str b) := by
  have hutf8 : charset? (.text "utf-8") = some .utf8 := by decide +kernel
  have hback := Charset.encodeEscaped_decodeEscaped .utf8 b
  rw [bind_ok (fetch_inl hs.found rfl), toHost, bind_ok (configOf_apply hs.found), hs.encoding_eq, hcs]
  unfold hostText
  split_ifs
  · exact ⟨_, .bytes b, rfl, by simp [World.leafForm?, hback, Except.toOption], rfl⟩
  · exact ⟨.bytes b, .bytes b, by simp [hutf8, hback], rfl, rfl⟩

/-- What the host has for a value of Lua's own as a key is that key in Lua, now and later. -/
theorem toHost_key {reach : Nat → Lua.Value → Bridge Value} (hs : w.Serves state s encoding)
    (hreach : reach = handed ∨ reach = fetch ∧ (encoding = .none → s.charset = .utf8)) {g : Lua.Value}
    (hg : s.machine.Hands g) :
    ∃ x w₁, (reach state g >>= toHost E state) w = some (.ok x, w₁) ∧ w₁.states = w.states ∧ ∀ w', w₁.Kept w' →
      ∃ u, w'.leafForm? state encoding x = some u ∧ w'.pushed? state s.charset u = some g := by
  have hhost : ∀ id, g ≠ .host id := by
    rintro id rfl
    exact hg
  have hlater {w₁ : World} {x u : Value} (hl : w₁.leafForm? state encoding x = some u)
      (hp : w₁.pushed? state s.charset u = some g) : ∀ w', w₁.Kept w' →
        ∃ u, w'.leafForm? state encoding x = some u ∧ w'.pushed? state s.charset u = some g :=
    fun w' hk => ⟨u, leafForm?_kept hk hhost hl hp, pushed?_kept hk hhost hp⟩
  obtain ⟨x, u, os, hx, hl, hp⟩ := returns E hs hg
  by_cases hstr : encoding = .none ∧ ∃ b, g = .str b
  · obtain ⟨rfl, b, rfl⟩ := hstr
    rcases hreach with rfl | ⟨rfl, hutf8⟩
    · exact ⟨x, _, hx, rfl, hlater hl hp⟩
    · obtain ⟨x, u, hx, hl, hp⟩ := returns_utf8 (E := E) hs (hutf8 rfl) b
      exact ⟨x, w, hx, rfl, hlater hl hp⟩
  · have hsame : handed state g w = fetch state g w := by
      refine handed_eq_fetch hs.found fun b hb => ?_
      rw [hs.encoding_eq]
      exact fun he => hstr ⟨he, b, hb⟩
    rcases hreach with rfl | ⟨rfl, -⟩
    · exact ⟨x, _, hx, rfl, hlater hl hp⟩
    · rw [bind_apply, hsame, ← bind_apply] at hx
      exact ⟨x, _, hx, rfl, hlater hl hp⟩

/-! ### Reads -/

/-- Reads what a handle stands for at a key in the form that is pushed. -/
def readAt (E : Engine) (h : Handle) (key default : Value) : Bridge Value := do
  match ← protectedCall do group (← getItem E h.guest key) with
  | .ok (v :: _) =>
    match v with
    | .none => return default
    | v => toHost E h.state v
  | _ => return default

theorem getValue_valid (hv : w.valid h = true) : getValue E h x d w =
    ((toGuest h.state x >>= fun u => readAt E h u d) (w.hold [h.guest, x, d] h.state)).map
      fun p => (p.1, p.2.release w) := by
  rw [getValue, bind_ok (valid_apply h w), hv]
  exact holding_eq

theorem getValue_of {r : Except Fault Value} {w₂ : World} (hv : w.valid h = true)
    (hx : toGuest h.state x (w.hold [h.guest, x, d] h.state) = some (.ok u, w₁))
    (hr : readAt E h u d w₁ = some (r, w₂)) : getValue E h x d w = some (r, w₂.release w) := by
  rw [getValue_valid hv, bind_ok hx, hr]
  rfl

theorem getItem_table (hs : w.states[state]? = some s)
    (ho : w.objects[o]? = some (.guest ⟨state, .table t, false⟩)) (hκ : pushKey state u w = some (.ok κ, w))
    (hv : s.machine.heap.rawGet t κ = v)
    (hmeta : v = .nil → s.machine.heap.metamethod (.table t) "__index" = .nil) :
    ∃ m, getItem (engine (n + 1)) (.obj o) u w = fetchAll state [v] (w.withMachine state m) ∧ s.machine.Grown m ∧
      ∀ t, m.unstarted? t = s.machine.unstarted? t := by
  obtain ⟨m, hrun, hm, hunstarted⟩ := Lua.Machine.run_index hv hmeta 999999999998
  have hcall : (engine (n + 1)).run state (Lua.Operate.index none ⟨.table t, none⟩ κ fun v => .ret [v]) w =
      some (.ok (.ok [v]), w.withMachine state m) := engineRun_over hs hrun
  refine ⟨m, ?_, hm, hunstarted⟩
  rw [getItem, bind_ok (object_apply o w), ho]
  refine (bind_ok hκ).trans ?_
  rw [runProg, bind_ok hcall]

section Table

variable (hs : w.states[h.state]? = some s) (hguest : h.guest = .obj o)
  (ho : w.objects[o]? = some (.guest ⟨h.state, .table t, false⟩)) (hκ : pushKey h.state u w = some (.ok κ, w))

include hs hguest ho hκ

/-- What is in a table goes to the host. -/
theorem readAt_entry (hv : s.machine.heap.rawGet t κ = v) (hnil : v ≠ .nil) (hhost : ∀ id, v ≠ .host id) :
    ∃ m, readAt (engine (n + 1)) h u d w =
        (fetch h.state v >>= toHost (engine (n + 1)) h.state) (w.withMachine h.state m) ∧
      s.machine.Grown m ∧ ∀ t, m.unstarted? t = s.machine.unstarted? t := by
  obtain ⟨m, hitem, hm, hunstarted⟩ := getItem_table (n := n) hs ho hκ hv fun h => absurd h hnil
  obtain ⟨u, os, hu, hcame, -⟩ := fetch_came (withMachine_states (m := m) hs) v
  refine ⟨m, ?_, hm, hunstarted⟩
  have hall : fetchAll h.state [v] (w.withMachine h.state m) = some (.ok [u], (w.withMachine h.state m).more os) := by
    rw [fetchAll, List.mapM_cons, bind_ok hu]
    rfl
  rw [readAt, hguest, bind_ok (protectedCall_ok ((bind_ok (hitem.trans hall)).trans (group_came hcame hnil hhost))),
    bind_ok hu]
  cases u with
  | none => exact absurd rfl (hcame.ne_none hnil hhost)
  | _ => rfl

/-- What is not in a table is given by the default, if no metamethod gives it. -/
theorem readAt_default (hv : s.machine.heap.rawGet t κ = .nil)
    (hmeta : s.machine.heap.metamethod (.table t) "__index" = .nil) :
    ∃ w', readAt (engine (n + 1)) h u d w = some (.ok d, w') := by
  obtain ⟨m, hitem, -⟩ := getItem_table (n := n) hs ho hκ hv fun _ => hmeta
  refine ⟨w.withMachine h.state m, ?_⟩
  have hall : fetchAll h.state [.nil] (w.withMachine h.state m) = some (.ok [.none], w.withMachine h.state m) := by
    rw [fetchAll, List.mapM_cons, bind_ok (fetch_inl (withMachine_states hs) rfl)]
    rfl
  rw [readAt, hguest, bind_ok (protectedCall_ok ((bind_ok (hitem.trans hall)).trans rfl))]
  rfl

end Table

/-- A key that stands for no entry of a table gives the default. -/
theorem getValue_default {s₁ : LuaState} (ht : w.TableAt h t s encoding)
    (hx : toGuest h.state x (w.hold [h.guest, x, d] h.state) = some (.ok u, w₁))
    (hκ : pushKey h.state u w₁ = some (.ok κ, w₁)) (hs₁ : w₁.states[h.state]? = some s₁)
    (hv : s₁.machine.heap.rawGet t κ = .nil) (hmeta : s₁.machine.heap.metamethod (.table t) "__index" = .nil) :
    ∃ w₂, getValue (engine (n + 1)) h x d w = some (.ok d, w₂) := by
  obtain ⟨o, hguest, ho⟩ := ht.guest
  let held : World := w.hold [h.guest, x, d] h.state
  have hadding : Adding held h.state (held.still h.state) (toGuest h.state x) := adding_toGuest x
  obtain ⟨r, g, hr, -⟩ := hadding.run
  obtain ⟨-, rfl⟩ := Prod.mk.inj (Option.some.inj (hx.symm.trans hr))
  have ho₁ : (held.after h.state g).objects[o]? = some (.guest ⟨h.state, .table t, false⟩) := object_more (w := w) ho
  obtain ⟨w₂, hread⟩ := readAt_default (n := n) (d := d) hs₁ hguest ho₁ hκ hv hmeta
  exact ⟨_, getValue_of ht.valid hx hread⟩

/-- A key that the host has from Lua is put to a table. -/
theorem getValue_key {k : Lua.Key} (ht : w.TableAt h t s encoding) (hl : w.leafForm? h.state encoding x = some u)
    (hp : w.pushed? h.state s.charset u = some k.value) (n : Nat) (d : Value) :
    (∀ v, s.machine.heap.get t k = v → v ≠ .nil → (∀ id, v ≠ .host id) →
      ∃ y w₂ w₃, getValue (engine (n + 1)) h x d w = some (.ok y, w₃.release w) ∧
        (fetch h.state v >>= toHost (engine (n + 1)) h.state) w₂ = some (.ok y, w₃) ∧ w.Grown h.state w₂ ∧
        w₃.Presents h.state s encoding v y ∧ ∀ id, y = .obj id → w.objects.size ≤ id) ∧
    (s.machine.heap.get t k = .nil → s.machine.heap.metamethod (.table t) "__index" = .nil →
      ∃ w₂, getValue (engine (n + 1)) h x d w = some (.ok d, w₂)) := by
  let held : World := w.hold [h.guest, x, d] h.state
  have hheld : held.Serves h.state s encoding := ht.toServes.mono rfl rfl
  obtain ⟨reports, hconvert⟩ := toGuestAt_leaf held.limits.nesting (σ := []) hheld.toOpens (List.mem_cons_self ..) hl
  let asked : World := { held with diagnostics := reports }
  have hasked : asked.Serves h.state s encoding := hheld.mono rfl rfl
  have hκ : pushKey h.state u asked = some (.ok k.value, asked) := pushKey_ok hasked.found hp k.key?_value
  constructor
  · intro v hv hnil hhost
    obtain ⟨o, hguest, ho⟩ := ht.guest
    obtain ⟨m, hread, hm, hunstarted⟩ := readAt_entry (n := n) (d := d) hasked.found hguest ho hκ
      ((Lua.Heap.rawGet_value _ t k).trans hv) hnil hhost
    let read : World := asked.withMachine h.state m
    have hgrown : w.Grown h.state read :=
      have hsame : w.Grown h.state asked := ⟨rfl, id, fun {s} h => ⟨s, h, .refl s⟩⟩
      hsame.trans (grown_withMachine hasked.found hm)
    have hfound : read.states[h.state]? = some { s with machine := m } := withMachine_states hasked.found
    have hread' : read.Serves h.state { s with machine := m } encoding :=
      ⟨⟨hfound, ht.isOpen, ht.encoding_eq⟩, ht.hasIntegers, ht.charset⟩
    obtain ⟨u', os, hu, hcame, hnew⟩ := fetch_came hfound v
    have hcame' : (read.more os).Came h.state s v u' := by
      cases hcame with
      | value eq => exact .value (fetched_withMachine hunstarted v ▸ eq)
      | guest eq found => exact .guest (fetched_withMachine hunstarted v ▸ eq) found
    have hstate : s.Grown { s with machine := m } := ⟨rfl, hm⟩
    have hmet : (read.more os).Serves h.state { s with machine := m } encoding := hread'.more
    obtain ⟨y, w₃, hy, -, hpresents, hfresh⟩ := toHost_presents (n := n) hmet hstate
      (ht.wraps.grown hstate) (fun id hid => absurd hid (hhost id)) hcame'
    have hboth : (fetch h.state v >>= toHost (engine (n + 1)) h.state) read = some (.ok y, w₃) := (bind_ok hu).trans hy
    refine ⟨y, read, w₃, getValue_of ht.valid (toGuest_ok hconvert) (hread.trans hboth), hboth, hgrown, hpresents,
      fun id hid => ?_⟩
    rcases hfresh id hid with hle | rfl
    · exact ((grown_more read h.state os).size_le).trans hle
    · exact hnew hhost id hid
  · intro hv hmeta
    exact getValue_default ht (toGuest_ok hconvert) hκ hasked.found ((Lua.Heap.rawGet_value _ t k).trans hv) hmeta

/-- What the host has from Lua as a key finds at any later time what the table then has there: the host form of the
value, which is new if it is an object, also where the value is false. Without an encoding a string may have come as its
bytes, or as they are read in UTF-8. Where the table has nothing and no metamethod gives it, the default comes back; so
it does for any other key of the host's. -/
theorem getValue_toHost (n : Nat) (h : Handle) :
    (∀ {w s encoding} {reach : Nat → Lua.Value → Bridge Value} {k : Lua.Key}, w.Serves h.state s encoding →
      (reach = handed ∨ reach = fetch ∧ (encoding = .none → s.charset = .utf8)) → s.machine.Hands k.value →
      ∃ x w₁, (reach h.state k.value >>= toHost (engine (n + 1)) h.state) w = some (.ok x, w₁) ∧
        ∀ {w' s' t}, w₁.Kept w' → w'.TableAt h t s' encoding → ∀ d,
          (∀ v, s'.machine.heap.get t k = v → v ≠ .nil → (∀ id, v ≠ .host id) →
            ∃ y w₂ w₃, getValue (engine (n + 1)) h x d w' = some (.ok y, w₃.release w') ∧
              (fetch h.state v >>= toHost (engine (n + 1)) h.state) w₂ = some (.ok y, w₃) ∧ w'.Grown h.state w₂ ∧
              w₃.Presents h.state s' encoding v y ∧ ∀ id, y = .obj id → w'.objects.size ≤ id) ∧
          (s'.machine.heap.get t k = .nil → s'.machine.heap.metamethod (.table t) "__index" = .nil →
            ∃ w₂, getValue (engine (n + 1)) h x d w' = some (.ok d, w₂))) ∧
      ∀ {w s encoding t x u d w₁ κ s₁}, w.TableAt h t s encoding →
        toGuest h.state x (w.hold [h.guest, x, d] h.state) = some (.ok u, w₁) →
        pushKey h.state u w₁ = some (.ok κ, w₁) → w₁.states[h.state]? = some s₁ →
        s₁.machine.heap.rawGet t κ = .nil → s₁.machine.heap.metamethod (.table t) "__index" = .nil →
        ∃ w₂, getValue (engine (n + 1)) h x d w = some (.ok d, w₂) := by
  refine ⟨fun {w s encoding reach k} hs hreach hk => ?_, getValue_default⟩
  obtain ⟨x, w₁, hx, hstates, hkey⟩ := toHost_key (E := engine (n + 1)) hs hreach hk
  refine ⟨x, w₁, hx, fun {w' s' t} hkept ht d => ?_⟩
  obtain ⟨u, hl, hp⟩ := hkey w' hkept
  have hcs : s'.charset = s.charset := by
    obtain ⟨s'', hs'', hsame⟩ := hkept.states (hstates ▸ hs.found)
    obtain rfl := Option.some.inj (ht.found.symm.trans hs'')
    exact hsame.charset
  exact getValue_key ht hl (hcs ▸ hp) n d

/-- A table has false at a string that is no UTF-8: the host reads false there, and the default elsewhere. -/
theorem getValue_toHost_false :
    let entries : Lua.Table := ({} : Lua.Table).set (.str [0xFF]) (.bool false)
    let m : Lua.Machine := { heap := { tables := #[entries], closures := #[⟨wrapping, []⟩] } }
    let s : LuaState :=
      { config := 0, diagnostics := 0, charset := .utf8, machine := m, globals := 0, wrapper := .closure 0 }
    let h : Handle := { kind := .table, state := 0, guest := .obj 1 }
    let w : World :=
      { objects := #[.nothing, .guest ⟨0, .table 0, false⟩], configs := #[{}], diagnostics := #[[]], states := #[s]
        languages := #[{ config := 0, diagnostics := 0, state := some 0 }] }
    w.TableAt h 0 s (.text "UTF-8") ∧ s.machine.Hands (.str [0xFF]) ∧
      (fetch 0 (.str [0xFF]) >>= toHost (engine 1) 0) w = some (.ok (.bytes [0xFF]), w) ∧
      (∃ w', getValue (engine 1) h (.bytes [0xFF]) (.int 7) w = some (.ok (.bool false), w')) ∧
      ∃ w', getValue (engine 1) h (.text "x") (.int 7) w = some (.ok (.int 7), w') := by
  intro entries m s h w
  have hs : w.Serves 0 s (.text "UTF-8") := ⟨⟨rfl, rfl, rfl⟩, rfl, .inr (by decide +kernel)⟩
  have hvalid : w.valid h = true := by simp [World.valid, Handle.stands, World.opened, World.stateAlive, w, s, h]
  have ht : w.TableAt h 0 s (.text "UTF-8") := ⟨hs, ⟨0, [], rfl, rfl⟩, hvalid, 1, rfl, rfl⟩
  have hform : Charset.utf8.hostForm [0xFF] = .bytes [0xFF] := by cbv
  have hx : (fetch 0 (.str [0xFF]) >>= toHost (engine 1) 0) w = some (.ok (.bytes [0xFF]), w) :=
    hform ▸ toHost_str hs Value.noConfusion [0xFF]
  have hget (k : Lua.Key) : s.machine.heap.get 0 k = entries.get k := rfl
  have hentry : s.machine.heap.get 0 (.str [0xFF]) = .bool false := (hget _).trans Lua.Table.get_set_self
  have hother : s.machine.heap.get 0 (.str [0x78]) = .nil := (hget _).trans (Lua.Table.get_set_of_ne (by simp))
  obtain ⟨hkeys, hdefault⟩ := getValue_toHost 0 h
  refine ⟨ht, trivial, hx, ?_, hdefault ht (x := .text "x") rfl rfl rfl hother rfl⟩
  obtain ⟨x, w₁, hx', hreads⟩ := hkeys (k := .str [0xFF]) hs (.inr ⟨rfl, Value.noConfusion⟩) trivial
  obtain ⟨rfl, rfl⟩ := ok_inj (hx.symm.trans hx')
  obtain ⟨y, -, w₃, hy, -, -, hpresents, -⟩ :=
    (hreads (.refl w) ht (.int 7)).1 _ hentry Lua.Value.noConfusion fun _ => Lua.Value.noConfusion
  cases hpresents with
  | bool b => exact ⟨_, hy⟩
  | handle kind_eq => contradiction

end Bridge

end HostedLua
