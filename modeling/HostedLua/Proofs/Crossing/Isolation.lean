import HostedLua.Proofs.Crossing.Passage
import Mathlib

/-! States are isolated. What a conversion to a state hands out or writes into its tables is either new or stands in a
handle of that state that is valid. All other handles become nil, and each is reported once, where it is come to, to
that state's diagnostics and to no others. -/

namespace HostedLua

open Host

namespace World

variable {w : World} {state : Nat} {s : LuaState} {encoding u v : Value} {τ : Numbering} {g : Growth} {m : Met}

def Holds (w : World) (state : Nat) (v : Value) (h : Handle) : Prop :=
  ∃ id, w.Occurs v (.obj id) ∧ w.objects[id]? = some (.handle h) ∧ w.valid h = true ∧ h.state = state

/-- What a conversion to a state has done. It has reported strays to the state alone; it has made tables for the
containers met and changed no others; strays have become nil; and what comes back or is in a new table is new, or a
handle in the value stands for it that is valid for the state. -/
structure Isolates (w : World) (state : Nat) (s : LuaState) (encoding v u : Value) (m : Met) (τ : Numbering)
    (g : Growth) : Prop where
  reports : g.reports = w.recorded state ((m.handles.filter (w.stray state)).map fun h => strayReport h.kind)
  others : ∀ d ≠ s.diagnostics, g.reports[d]? = w.diagnostics[d]?
  containers : τ.map Prod.fst = if s.isOpen then m.containers else []
  numbers : τ.map Prod.snd = (List.range' s.machine.heap.tables.size τ.length).reverse
  size : g.tables.size = s.machine.heap.tables.size + τ.length
  kept : ∀ t < s.machine.heap.tables.size, g.tables[t]? = s.machine.heap.tables[t]?
  filled : ∀ p ∈ τ, ∀ es, w.entries? (.obj p.1) = some es →
    g.tables[p.2]? = some (es.foldl (store (w.cast state s.charset encoding τ)) {})
  nil : ∀ {x h}, w.handleAt x = some h → w.stray state h = true → w.cast state s.charset encoding τ x = .nil
  handle : ∀ {h}, w.handleAt v = some h → u = if w.stray state h then .none else h.guest
  returned : ∀ {o γ}, u = .obj o → (w.after state g).objects[o]? = some (.guest γ) →
    (∃ t ∈ τ.map Prod.snd, γ = ⟨state, .table t, false⟩) ∨ ∃ h, w.Holds state v h ∧ h.guest = u
  referenced : ∀ {t : Nat} {T : Lua.Table} {k : Lua.Key} {x y : Lua.Value}, t ∈ τ.map Prod.snd →
    g.tables[t]? = some T → T.entries[k]? = some y → x = k.value ∨ x = y → x.isOwn = true →
    (∃ t ∈ τ.map Prod.snd, x = .table t) ∨
      ∃ h id γ, w.Holds state v h ∧ h.guest = .obj id ∧ w.objects[id]? = some (.guest γ) ∧ γ.state = state ∧ γ.value = x

theorem holds_of_handleAt {x : Value} {h : Handle} (hx : w.Occurs v x) (hh : w.handleAt x = some h)
    (hs : w.stray state h = false) : w.Holds state v h := by
  obtain ⟨hvalid, hstate⟩ := Bool.and_eq_true_iff.mp ((Bool.not_eq_eq_eq_not ..).mp hs)
  obtain ⟨id, rfl, hid⟩ := handleAt_some hh
  exact ⟨id, hx, hid, hvalid, eq_of_beq hstate⟩

/-- A guest that is the form of a leaf is what a handle stands for. -/
theorem holds_of_form (hv : w.Native v) (hu : w.form? state encoding v = some u) {o : Nat} {γ : Guest} (ho : u = .obj o)
    (hγ : (w.after state g).objects[o]? = some (.guest γ)) : ∃ h, w.Holds state v h ∧ h.guest = u := by
  subst ho
  cases hh : w.handleAt v with
  | none =>
    rw [form?_leaf hh] at hu
    obtain ⟨x, hx, hguest⟩ := hv.object o (leafForm?_obj hh hu)
    exact absurd (Option.some.inj ((object_after hx).symm.trans hγ)) (hguest γ)
  | some h =>
    rw [form?_handle hh] at hu
    cases hs : w.stray state h with
    | true =>
      rw [hs, if_pos rfl] at hu
      cases hu
    | false =>
      rw [hs, if_neg Bool.false_ne_true] at hu
      exact ⟨h, holds_of_handleAt .refl hh hs, Option.some.inj hu⟩

theorem handle_of_form {h : Handle} (hu : w.form? state encoding v = some u) (hh : w.handleAt v = some h) :
    u = if w.stray state h then .none else h.guest :=
  Option.some.inj (hu.symm.trans (form?_handle hh))

/-- An object of Lua's own in a new table is new, or a handle in the value stands for it. -/
theorem holds_of_stored {cs : Charset} (hv : ∀ x, w.Occurs v x → w.Native x) {id : Nat} {es : List (Value × Value)}
    (hid : w.Occurs v (.obj id)) (hes : w.entries? (.obj id) = some es) {k : Lua.Key} {x y : Lua.Value}
    (hy : (es.foldl (store (w.cast state cs encoding τ)) {}).entries[k]? = some y) (hx : x = k.value ∨ x = y)
    (hown : x.isOwn = true) : (∃ t ∈ τ.map Prod.snd, x = .table t) ∨
      ∃ h id γ, w.Holds state v h ∧ h.guest = .obj id ∧ w.objects[id]? = some (.guest γ) ∧ γ.state = state ∧
        γ.value = x := by
  obtain ⟨e, he, part, hpart, rfl⟩ := own_of_stored hy hx hown
  have hocc : w.Occurs v part := hid.tail ⟨es, hes, e, he, hpart⟩
  rcases cast_own (hv part hocc) hown with ⟨i, t, -, ht, hcast⟩ | ⟨h, i, γ, hh, hs, hguest, hγ, hstate, hval⟩
  · obtain ⟨l₁, l₂, rfl, -⟩ := List.lookup_eq_some_iff.mp ht
    exact .inl ⟨t, by simp, hcast⟩
  · exact .inr ⟨h, i, γ, holds_of_handleAt hocc hh hs, hguest, hγ, hstate, hval⟩

end World

namespace Bridge

open World

variable {w w' : World} {state : Nat} {s : LuaState} {encoding u v : Value} {σ' : Seen} {depth : Nat}

/-- A conversion to an open state. -/
theorem isolates_open (hs : w.Opens state s encoding) (hw : state ∈ w.heldStates)
    (hv : ∀ x, w.Occurs v x → w.Native x) (h : toGuestAt state depth v [] w = some (.ok (u, σ'), w')) :
    ∃ m τ g, w' = w.after state g ∧ w.meet depth ⟨[], []⟩ v = some m ∧ w.Isolates state s encoding v u m τ g := by
  obtain ⟨m, τ, g, rfl, hmeet, hunder, hg, hu⟩ := passes_start hs hw (fun x hx => (hv x hx).present) h
  have hcomplete := complete_of_meet hmeet
  obtain ⟨δ, hδ, hnumbers, hsize, hfull⟩ := hg.fresh
  obtain rfl : τ = δ := by simpa using hδ
  have hτ : τ.Extends τ := ⟨List.suffix_refl _, hunder.containers ▸ hunder.nodup⟩
  refine ⟨m, τ, g, rfl, hmeet, ?_⟩
  exact {
    reports := hunder.reports
    others := fun d hd => hunder.reports ▸ noted_other hs.found hd
    containers := by rw [hs.isOpen, if_pos rfl, hunder.containers]
    numbers := hnumbers
    size := hsize
    kept := fun t ht => hg.kept t ht (Option.some_ne_none t).symm
    filled := hfull τ hτ
    nil := fun hh hstray => by rw [cast_handle hh, hstray, if_pos rfl]
    handle := fun {k} hh => by
      cases hu with
      | table container =>
        obtain ⟨es, hes⟩ := Option.isSome_iff_exists.mp container
        exact absurd (hh.symm.trans (handleAt_container hes)) (Option.some_ne_none k)
      | leaf _ form => exact handle_of_form form hh
    returned := fun {o γ} ho hγ => by
      cases hu with
      | @table _ t o' _ number guest =>
        obtain rfl := Value.obj.inj ho
        obtain ⟨l₁, l₂, rfl, -⟩ := List.lookup_eq_some_iff.mp number
        exact .inl ⟨t, by simp, Object.guest.inj (Option.some.inj (hγ.symm.trans guest))⟩
      | leaf _ form => exact .inr (holds_of_form (hv v .refl) form ho hγ)
    referenced := fun {t T k x y} ht hT hy hx hown => by
      obtain ⟨p, hp, rfl⟩ := List.mem_map.mp ht
      have hmem : p.1 ∈ m.containers := hunder.containers ▸ List.mem_map_of_mem hp
      obtain ⟨hsome, hocc⟩ := (hcomplete.containers p.1).mp hmem
      obtain ⟨es, hes⟩ := Option.isSome_iff_exists.mp hsome
      obtain rfl := Option.some.inj (hT.symm.trans (hfull τ hτ p hp es hes))
      exact holds_of_stored hv hocc hes hy hx hown }

/-- A container is converted to a closed state only if no entry asks for a table. -/
theorem closed_container {id : Nat} {es : List (Value × Value)} (found : w.states[state]? = some s)
    (closed : s.isOpen = false) (hes : w.entries? (.obj id) = some es)
    (h : toGuestAt state (depth + 1) (.obj id) [] w = some (.ok (u, σ'), w')) : u = .none ∧ w' = w ∧ es = [] := by
  obtain ⟨c, items, hc, hi, hitems⟩ := exists_items hes
  have hnew : newTable state w = some (.ok .none, w) := by
    rw [newTable, bind_ok (state?_apply _ _), found]
    dsimp only
    rw [closed, if_neg Bool.false_ne_true]
    rfl
  have hrun : toGuestAt state (depth + 1) (.obj id) [] w =
      (do items.forM (convertEntry state depth .none); return Value.none) [] w := by
    rw [toGuestAt, seen_bind_ok (lift_ok (object_apply id w)), hc, Option.getD_some]
    cases c with
    | list | tuple | dict | proxy =>
      obtain ⟨rfl, -⟩ : _ ∧ True := by simpa [items?] using hi
      simp only [items?, seen_bind_ok (seen_get_apply [] w), List.lookup_nil, seen_bind_ok (lift_ok hnew)]
      rfl
    | _ => simp [items?] at hi
  rw [hrun] at h
  obtain ⟨⟨⟩, σ₁, w₁, hfor, hreturn⟩ := seen_bind_some_ok h
  rw [convertEntries_filter, ← hitems] at hfor
  cases es with
  | nil =>
    obtain ⟨-, rfl⟩ := Prod.mk.inj (Option.some.inj hfor)
    obtain ⟨rfl, -, rfl⟩ := seen_ok_inj hreturn
    exact ⟨rfl, rfl, rfl⟩
  | cons e es =>
    rw [convertEntries_cons] at hfor
    obtain ⟨⟨⟩, σ₂, w₂, hentry, -⟩ := seen_bind_some_ok hfor
    obtain ⟨_, _, _, _, _, -, -, hput⟩ :=
      convertEntry_some_ok (skipsKey_of_mem hes (List.mem_cons_self ..)) hentry
    cases hput

/-- A conversion to a closed state. -/
theorem isolates_closed (found : w.states[state]? = some s) (closed : s.isOpen = false) (hw : state ∈ w.heldStates)
    (hv : ∀ x, w.Occurs v x → w.Native x)
    (h : toGuestAt state (depth + 1) v [] w = some (.ok (u, σ'), w')) :
    ∃ m g, w' = w.after state g ∧ w.meet (depth + 1) ⟨[], []⟩ v = some m ∧
      w.Isolates state s ((w.configs[s.config]?).getD {}).encoding v u m [] g := by
  have htables : (w.still state).tables = s.machine.heap.tables := by simp [still, found]
  have isolates {m : Met} {g : Growth} (hg : g.tables = s.machine.heap.tables)
      (reports : g.reports = w.noted state m.handles)
      (handle : ∀ {h}, w.handleAt v = some h → u = if w.stray state h then .none else h.guest)
      (returned : ∀ {o γ}, u = .obj o → (w.after state g).objects[o]? = some (.guest γ) →
        ∃ h, w.Holds state v h ∧ h.guest = u) :
      w.Isolates state s ((w.configs[s.config]?).getD {}).encoding v u m [] g := {
    reports := reports
    others := fun d hd => reports ▸ noted_other found hd
    containers := by rw [closed]; rfl
    numbers := rfl
    size := by rw [hg]; rfl
    kept := fun t _ => by rw [hg]
    filled := fun p hp => absurd hp List.not_mem_nil
    nil := fun hh hstray => by rw [cast_handle hh, hstray, if_pos rfl]
    handle := handle
    returned := fun ho hγ => .inr (returned ho hγ)
    referenced := fun ht => absurd ht List.not_mem_nil }
  cases hes : w.entries? v with
  | none =>
    have hrun : toGuestAt state (depth + 1) v [] (w.after state (w.still state)) = some (.ok (u, σ'), w') := by
      rwa [after_still]
    obtain ⟨-, form, rfl⟩ := takesForm_leaf found rfl hw (hv v .refl).present hes (fun _ _ => rfl) noted_nil.symm hrun
    exact ⟨_, _, rfl, meet_leaf hes, isolates htables rfl (handle_of_form form) (holds_of_form (hv v .refl) form)⟩
  | some es =>
    obtain ⟨id, rfl⟩ := exists_obj_of_entries? hes
    obtain ⟨rfl, hsame, rfl⟩ := closed_container found closed hes h
    refine ⟨⟨[], [id]⟩, w.still state, hsame.trans after_still.symm, meet_fresh hes List.not_mem_nil, ?_⟩
    refine isolates htables noted_nil.symm (fun {k} hh => ?_) (fun ho => by cases ho)
    exact absurd (hh.symm.trans (handleAt_container hes)) (Option.some_ne_none k)

/-- States are isolated. A conversion of whatever has no guests in it, if it does not fail, comes to every handle that
occurs, each as often as it stands in a container or alone, in the order of the walk. To each that is not valid or
belongs to another state it gives nil, with one report to its own state; all that it gives or puts into its tables is
new, or a valid handle of the state stands for it; and nothing else is done to the world. -/
theorem toGuest_isolates (found : w.states[state]? = some s) (hv : ∀ x, w.Occurs v x → w.Native x)
    (h : holding [v] state (toGuest state v) w = some (.ok u, w')) :
    ∃ m τ g, w' = w.after state g ∧ w.meet (w.limits.nesting + 1) ⟨[], []⟩ v = some m ∧ w.Complete v m ∧
      (w.hold [v] state).Isolates state s ((w.configs[s.config]?).getD {}).encoding v u m τ g := by
  obtain ⟨w₁, hrun, rfl⟩ := holding_some h
  rw [toGuest_apply] at hrun
  obtain ⟨⟨u', σ'⟩, w₂, hat, hreturn⟩ := bind_some_ok hrun
  obtain ⟨hu, rfl⟩ := Prod.mk.inj (Option.some.inj hreturn)
  obtain rfl : u' = u := Except.ok.inj hu
  have hw : state ∈ (w.hold [v] state).heldStates := List.mem_cons_self ..
  have hfound : (w.hold [v] state).states[state]? = some s := found
  have ho : (w.hold [v] state).objects = w.objects := rfl
  have hheld (x : Value) (hx : (w.hold [v] state).Occurs v x) : (w.hold [v] state).Native x := by
    obtain ⟨hobject, hguest⟩ := hv x ((occurs_congr ho).mp hx)
    exact ⟨hobject, hguest⟩
  have ⟨m, τ, g, hworld, hmeet, hisolates⟩ : ∃ m τ g, w₂ = (w.hold [v] state).after state g ∧
      (w.hold [v] state).meet (w.limits.nesting + 1) ⟨[], []⟩ v = some m ∧
      (w.hold [v] state).Isolates state s ((w.configs[s.config]?).getD {}).encoding v u' m τ g := by
    cases hopen : s.isOpen with
    | true => exact isolates_open ⟨hfound, hopen, rfl⟩ hw hheld hat
    | false =>
      obtain ⟨m, g, hworld, hmeet, hisolates⟩ := isolates_closed hfound hopen hw hheld hat
      exact ⟨m, [], g, hworld, hmeet, hisolates⟩
  rw [meet_congr ho] at hmeet
  exact ⟨m, τ, g, by rw [hworld]; rfl, hmeet, complete_of_meet hmeet, hisolates⟩

namespace Mixture

/-! A mapping that holds itself, a function of its state, and a table of another state, once as a key and once as a
value. It also has this table under no key. -/

def lua : LuaState := { config := 0, diagnostics := 0, charset := .utf8, machine := { heap := {} }, globals := 0 }

def own : Handle := { kind := .function, state := 0, guest := .obj 5 }

def foreign : Handle := { kind := .table, state := 1, guest := .obj 4 }

def world : World :=
  { objects := #[.nothing, .dict [(.obj 2, .obj 3), (.int 1, .obj 2), (.bool true, .obj 1), (.none, .obj 2)],
                 .handle foreign, .handle own, .guest ⟨1, .table 0, false⟩, .guest ⟨0, .closure 0, false⟩]
    configs := #[{}], diagnostics := #[[], []], states := #[lua, { lua with diagnostics := 1 }]
    languages := #[{ config := 0, diagnostics := 0, state := some 0 },
                   { config := 0, diagnostics := 1, state := some 1 }] }

theorem entries : world.entries? (.obj 1) = some [(.obj 2, .obj 3), (.int 1, .obj 2), (.bool true, .obj 1)] := rfl

theorem native {x : Value} (hx : world.Occurs (.obj 1) x) : world.Native x := by
  have hmem : x ∈ [Value.obj 1, .obj 2, .obj 3, .int 1, .bool true] := by
    induction hx with
    | refl => simp
    | tail _ hpart ih =>
      obtain ⟨es, hx, e, he, hy⟩ := hpart
      simp only [List.mem_cons, List.not_mem_nil, or_false] at ih
      rcases ih with rfl | rfl | rfl | rfl | rfl
      · obtain rfl := Option.some.inj (entries.symm.trans hx)
        simp only [List.mem_cons, List.not_mem_nil, or_false] at he
        rcases he with rfl | rfl | rfl <;> rcases hy with rfl | rfl <;> simp
      all_goals contradiction
  have guest {h : Handle} {i : Nat} {o : Object} (hi : h.guest = .obj i) (ho : world.objects[i]? = some o) :
      ∀ k, Object.handle h = .handle k → ∀ id, k.guest = .obj id → ∃ o, world.objects[id]? = some o := by
    intro k hk id hid
    obtain rfl := Object.handle.inj hk
    obtain rfl := Value.obj.inj (hi.symm.trans hid)
    exact ⟨o, ho⟩
  simp only [List.mem_cons, List.not_mem_nil, or_false] at hmem
  rcases hmem with rfl | rfl | rfl | rfl | rfl
  · exact .of_object rfl (fun _ h => by cases h) fun _ h => by cases h
  · exact .of_object rfl (fun _ h => by cases h) (guest (h := foreign) rfl rfl)
  · exact .of_object rfl (fun _ h => by cases h) (guest (h := own) rfl rfl)
  · exact .of_scalar fun _ h => by cases h
  · exact .of_scalar fun _ h => by cases h

theorem converts : ∃ u w, holding [.obj 1] 0 (toGuest 0 (.obj 1)) world = some (.ok u, w) := by
  have hsucceeds : succeedsWith (fun _ _ => true) (holding [.obj 1] 0 (toGuest 0 (.obj 1)) world) = true := by cbv
  obtain ⟨u, w, hrun, -⟩ := eq_ok_of_succeedsWith hsucceeds
  exact ⟨u, w, hrun⟩

theorem meets : world.meet (world.limits.nesting + 1) ⟨[], []⟩ (.obj 1) = some ⟨[own, foreign, foreign], [1]⟩ := rfl

end Mixture

/-- The table of the other state is reported twice, and nothing is reported to that state. -/
theorem toGuest_isolates_mixture :
    Mixture.world.states[0]? = some Mixture.lua ∧ (∀ x, Mixture.world.Occurs (.obj 1) x → Mixture.world.Native x) ∧
      ∃ u w τ g, holding [.obj 1] 0 (toGuest 0 (.obj 1)) Mixture.world = some (.ok u, w) ∧ w = Mixture.world.after 0 g ∧
        (Mixture.world.hold [.obj 1] 0).Isolates 0 Mixture.lua (.text "UTF-8") (.obj 1) u
          ⟨[Mixture.own, Mixture.foreign, Mixture.foreign], [1]⟩ τ g ∧
        w.diagnostics = #[[strayReport .table, strayReport .table], []] := by
  obtain ⟨u, w, hok⟩ := Mixture.converts
  obtain ⟨m, τ, g, rfl, hmeet, -, hisolates⟩ := toGuest_isolates rfl (fun _ => Mixture.native) hok
  obtain rfl := Option.some.inj (hmeet.symm.trans Mixture.meets)
  refine ⟨rfl, fun _ => Mixture.native, u, _, τ, g, hok, rfl, hisolates, ?_⟩
  have hheld : 0 ∈ (Mixture.world.hold [.obj 1] 0).heldStates := List.mem_cons_self ..
  have hreports := hisolates.reports
  rw [List.filter_cons_of_neg, List.filter_cons_of_pos, List.filter_cons_of_pos] at hreports
  · exact hreports
  all_goals rw [stray_of_held hheld]; decide

end Bridge

end HostedLua
