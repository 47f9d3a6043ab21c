import HostedLua.Proofs.Container.Pruned
import HostedLua.Proofs.Crossing.Isolation

/-! Entries without a usable key. An entry whose key is none or not a number contributes nothing to a conversion. An entry
whose key is a stray does: a table has no key for nil, so the entry is put at the host's none, where the last such entry
stays. The other entries do not notice. -/

namespace HostedLua

open Host

namespace World

variable {w : World} {state : Nat} {cs : Charset} {encoding : Value} {τ : Numbering} {f : Value → Lua.Value}
  {t t' : Lua.Table} {e : Value × Value} {es : List (Value × Value)} {κ : Lua.Key}

def noneKey : Lua.Key := .host Value.nothingId

def strayKey (w : World) (state : Nat) (e : Value × Value) : Bool :=
  match w.handleAt e.1 with
  | some h => w.stray state h
  | none => false

/-- A stray is put where none is. -/
theorem slot_strayKey (h : w.strayKey state e = true) : slot (w.cast state cs encoding τ e.1) = .ok noneKey := by
  unfold strayKey at h
  split at h
  · next k hk =>
    rw [cast_handle hk, h, if_pos rfl]
    rfl
  · cases h

theorem get_store_self (h : slot (f e.1) = .ok κ) : (store f t e).get κ = f e.2 := by
  rw [store, h]
  exact Lua.Table.get_set_self

theorem get_store_of_ne (h : slot (f e.1) ≠ .ok κ) : (store f t e).get κ = t.get κ := by
  rw [store]
  split
  · next k hk => exact Lua.Table.get_set_of_ne fun he => h (he ▸ hk)
  · rfl

/-- Entries that all go to another key make no difference. -/
theorem get_stored_filter {test : Value × Value → Bool} (htest : ∀ e ∈ es, test e = false → slot (f e.1) ≠ .ok κ)
    (ht : t.get κ = t'.get κ) : (es.foldl (store f) t).get κ = ((es.filter test).foldl (store f) t').get κ := by
  induction es generalizing t t' with
  | nil => exact ht
  | cons e es ih =>
    have hes : ∀ a ∈ es, test a = false → slot (f a.1) ≠ .ok κ := fun a ha => htest a (List.mem_cons_of_mem _ ha)
    rw [List.foldl_cons]
    cases hpass : test e with
    | true =>
      rw [List.filter_cons_of_pos hpass, List.foldl_cons]
      refine ih hes ?_
      by_cases hκ : slot (f e.1) = .ok κ
      · rw [get_store_self hκ, get_store_self hκ]
      · rw [get_store_of_ne hκ, get_store_of_ne hκ, ht]
    | false =>
      rw [List.filter_cons_of_neg (by simp [hpass])]
      refine ih hes ?_
      rw [get_store_of_ne (htest e (List.mem_cons_self ..) hpass), ht]

/-- What stands at a key comes from the last entry that goes there. -/
theorem get_stored_last (h : slot (f e.1) = .ok κ) (hes : ∀ e' ∈ es, slot (f e'.1) ≠ .ok κ) :
    ((e :: es).foldl (store f) t).get κ = f e.2 := by
  have hrest : (es.foldl (store f) (store f t e)).get κ =
      ((es.filter fun _ => false).foldl (store f) (store f t e)).get κ :=
    get_stored_filter (fun a ha _ => hes a ha) rfl
  rw [List.filter_false] at hrest
  exact hrest.trans (get_store_self h)

/-- What a table holds of the entries of a mapping. What is not at the key of none is as it would be without the entries
whose keys are strays; at that key is the value of the last of them. -/
structure Filed (w : World) (state : Nat) (f : Value → Lua.Value) (es : List (Value × Value)) (T : Lua.Table) :
    Prop where
  others : ∀ κ ≠ noneKey, T.get κ = ((es.filter fun e => !w.strayKey state e).foldl (store f) {}).get κ
  strays : ∀ {es₁ e es₂}, es = es₁ ++ e :: es₂ → w.strayKey state e = true →
    (∀ e' ∈ es₂, slot (f e'.1) ≠ .ok noneKey) → T.get noneKey = f e.2

theorem filed (es : List (Value × Value)) : w.Filed state (w.cast state cs encoding τ) es
    (es.foldl (store (w.cast state cs encoding τ)) {}) where
  others κ hκ := by
    refine get_stored_filter (fun e _ he hslot => hκ ?_) rfl
    rw [slot_strayKey (by simpa using he)] at hslot
    exact (Except.ok.inj hslot).symm
  strays {es₁ e es₂} hes hstray hlast := by
    rw [hes, List.foldl_append]
    exact get_stored_last (slot_strayKey hstray) hlast

end World

namespace Bridge

open World

variable {w w' : World} {state : Nat} {s : LuaState} {encoding u v : Value} {σ' : Seen} {depth : Nat}

/-- A mapping that is converted to an open state has a table, which files its entries. -/
theorem files_open (hs : w.Opens state s encoding) (hw : state ∈ w.heldStates) (hv : ∀ x, w.Occurs v x → w.Present x)
    (h : toGuestAt state depth v [] w = some (.ok (u, σ'), w')) :
    ∃ τ g, w' = w.after state g ∧ Becomes w state encoding τ g v u ∧
      (∀ id, id ∈ τ.map Prod.fst ↔ (w.entries? (.obj id)).isSome ∧ w.Occurs v (.obj id)) ∧
      ∀ p ∈ τ, ∀ es, w.entries? (.obj p.1) = some es → ∃ T, g.tables[p.2]? = some T ∧
        w.Filed state (w.cast state s.charset encoding τ) es T := by
  obtain ⟨m, τ, g, rfl, hmeet, hunder, hg, hu⟩ := passes_start hs hw hv h
  obtain ⟨δ, hδ, -, -, hfull⟩ := hg.fresh
  obtain rfl : τ = δ := by simpa using hδ
  have hτ : τ.Extends τ := ⟨List.suffix_refl _, hunder.containers ▸ hunder.nodup⟩
  refine ⟨τ, g, rfl, hu, fun id => ?_, fun p hp es hes => ⟨_, hfull τ hτ p hp es hes, filed es⟩⟩
  rw [hunder.containers]
  exact (complete_of_meet hmeet).containers id

/-- Entries whose key is none or not a number contribute nothing: whatever is converted, that comes to what it does
where no mapping has such entries. An entry whose key is a handle that is not valid or belongs to another state
contributes its value: where a conversion to an open state succeeds, each mapping that occurs gets a table, in which the
last such value stands at the key of none, and all else is as it would be without such entries. -/
theorem toGuest_unusable (w : World) (state : Nat) (v : Value) :
    holding [v] state (toGuest state v) w.pruned =
      (holding [v] state (toGuest state v) w).map (fun p => (p.1, p.2.pruned)) ∧
    ∀ {s u w'}, w.states[state]? = some s → s.isOpen = true → (∀ x, w.Occurs v x → w.Present x) →
      holding [v] state (toGuest state v) w = some (.ok u, w') →
      ∃ τ g, w' = w.after state g ∧
        Becomes (w.hold [v] state) state ((w.configs[s.config]?).getD {}).encoding τ g v u ∧
        (∀ id, id ∈ τ.map Prod.fst ↔ (w.entries? (.obj id)).isSome ∧ w.Occurs v (.obj id)) ∧
        ∀ p ∈ τ, ∀ es, w.entries? (.obj p.1) = some es → ∃ T, g.tables[p.2]? = some T ∧
          (w.hold [v] state).Filed state
            ((w.hold [v] state).cast state s.charset ((w.configs[s.config]?).getD {}).encoding τ) es T := by
  have hw : state ∈ (w.hold [v] state).heldStates := List.mem_cons_self ..
  constructor
  · have hpruned : (w.hold [v] state).pruned = w.pruned.hold [v] state := rfl
    rw [holding_eq, holding_eq, ← hpruned, toGuest_pruned hw]
    cases toGuest state v (w.hold [v] state) <;> rfl
  · intro s u w' found opened hv h
    obtain ⟨w₁, hrun, rfl⟩ := holding_some h
    rw [toGuest_apply] at hrun
    obtain ⟨⟨u', σ'⟩, w₂, hat, hreturn⟩ := bind_some_ok hrun
    obtain ⟨hu, rfl⟩ := Prod.mk.inj (Option.some.inj hreturn)
    obtain rfl : u' = u := Except.ok.inj hu
    have ho : (w.hold [v] state).objects = w.objects := rfl
    have hheld (x : Value) (hx : (w.hold [v] state).Occurs v x) : (w.hold [v] state).Present x := by
      obtain ⟨hobject, hguest⟩ := hv x ((occurs_congr ho).mp hx)
      exact ⟨hobject, hguest⟩
    have hopens : (w.hold [v] state).Opens state s ((w.configs[s.config]?).getD {}).encoding := ⟨found, opened, rfl⟩
    obtain ⟨τ, g, rfl, hbecomes, hmet, hfiled⟩ := files_open hopens hw hheld hat
    refine ⟨τ, g, rfl, hbecomes, fun id => ?_, hfiled⟩
    rw [hmet, occurs_congr ho]
    rfl

/-- A mapping has a function under a table of another state, and itself under a truth value. The function is put at the
key of none. -/
theorem toGuest_unusable_mixture :
    Mixture.world.states[0]? = some Mixture.lua ∧ (∀ x, Mixture.world.Occurs (.obj 1) x → Mixture.world.Present x) ∧
      ∃ (u : Value) (g : Growth) (t : Nat) (T : Lua.Table),
        holding [.obj 1] 0 (toGuest 0 (.obj 1)) Mixture.world = some (.ok u, Mixture.world.after 0 g) ∧
        g.tables[t]? = some T ∧ T.get noneKey = .closure 0 ∧ T.get (.bool true) = .table t := by
  have present (x : Value) (hx : Mixture.world.Occurs (.obj 1) x) := (Mixture.native hx).present
  obtain ⟨u, w, hok⟩ := Mixture.converts
  obtain ⟨τ, g, rfl, hbecomes, -, hfiled⟩ := (toGuest_unusable Mixture.world 0 (.obj 1)).2 rfl rfl present hok
  let held : World := Mixture.world.hold [.obj 1] 0
  have hheld : 0 ∈ held.heldStates := List.mem_cons_self ..
  have hforeign : held.stray 0 Mixture.foreign = true := by
    rw [stray_of_held hheld]
    decide
  have hown : held.stray 0 Mixture.own = false := by
    rw [stray_of_held hheld]
    decide
  cases hbecomes with
  | leaf plain => cases plain
  | @table _ t o container number guest =>
    obtain ⟨l₁, l₂, rfl, -⟩ := List.lookup_eq_some_iff.mp number
    obtain ⟨T, hT, hothers, hstrays⟩ := hfiled (1, t) (by simp) _ Mixture.entries
    refine ⟨rfl, present, _, g, t, T, hok, hT, ?_, ?_⟩
    · have hlast : ∀ e ∈ [(Value.int 1, Value.obj 2), (.bool true, .obj 1)],
          slot (held.cast 0 Mixture.lua.charset (.text "UTF-8") (l₁ ++ (1, t) :: l₂) e.1) ≠ .ok noneKey := by
        simp only [List.forall_mem_cons, List.not_mem_nil, false_imp_iff, implies_true, and_true]
        exact ⟨nofun, nofun⟩
      rw [hstrays (List.nil_append _).symm hforeign hlast, cast_handle (h := Mixture.own) rfl, hown]
      rfl
    · have hstray : held.strayKey 0 (.obj 2, .obj 3) = true := hforeign
      have hkept : [(Value.obj 2, Value.obj 3), (.int 1, .obj 2), (.bool true, .obj 1)].filter
          (fun e => !held.strayKey 0 e) = [(.int 1, .obj 2), (.bool true, .obj 1)] :=
        List.filter_cons_of_neg (by simp [hstray])
      rw [hothers _ (by decide), hkept, List.foldl_cons, get_stored_last rfl (by simp), cast_container container, number]
      rfl

end Bridge

end HostedLua
