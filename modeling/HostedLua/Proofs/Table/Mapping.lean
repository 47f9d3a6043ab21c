import HostedLua.Proofs.Container.Reading
import HostedLua.Proofs.Table.Lookup
import HostedLua.Proofs.Table.Twins

/-! Tables as mappings. The entries of a table are fetched in the order in which the table is walked, and put into a
mapping one by one. Each has its host form there, and only the entries of twins become one. -/

namespace HostedLua

open Host

namespace World

variable {w w' : World} {state : Nat} {s : LuaState} {encoding : Value} {p : Lua.Key × Lua.Value} {e q : Value × Value}

/-- An entry of a table has been fetched. -/
def CameEntry (w : World) (state : Nat) (s : LuaState) (p : Lua.Key × Lua.Value) (q : Value × Value) : Prop :=
  w.Came state s p.1.value q.1 ∧ w.Came state s p.2 q.2

/-- An entry of a table has its host form. -/
def PresentsEntry (w : World) (state : Nat) (s : LuaState) (encoding : Value) (p : Lua.Key × Lua.Value)
    (e : Value × Value) : Prop :=
  w.Presents state s encoding p.1.value e.1 ∧ w.Presents state s encoding p.2 e.2

theorem CameEntry.grown (h : w.CameEntry state s p q) (hw : w.Grown state w') : w'.CameEntry state s p q :=
  ⟨h.1.grown hw, h.2.grown hw⟩

theorem PresentsEntry.grown (h : w.PresentsEntry state s encoding p e) (hw : w.Grown state w') :
    w'.PresentsEntry state s encoding p e :=
  ⟨h.1.grown hw, h.2.grown hw⟩

/-- An entry is put among others as it is on the host: the keys that are equal there are twins. -/
theorem putEntry_presents {A : List (Lua.Key × Lua.Value)} {acc : List (Value × Value)}
    (hacc : List.Forall₂ (fun a b => w.PresentsEntry state s encoding a b ∧ w.valueEq w.eqDepth b.1 e.1 = a.1.twin p.1)
      A acc) (he : w.PresentsEntry state s encoding p e) :
    List.Forall₂ (w.PresentsEntry state s encoding) (Lua.putTwin A p) (w.putEntry acc e.1 e.2) := by
  induction hacc with
  | nil => exact .cons he .nil
  | @cons a b A acc hab hrest ih =>
    obtain ⟨l, u⟩ := b
    rw [Lua.putTwin, putEntry, hab.2]
    cases a.1.twin p.1 with
    | true => exact .cons ⟨hab.1.1, he.2⟩ (hrest.imp fun _ _ h => h.1)
    | false => exact .cons hab.1 ih

end World

namespace Bridge

open World

variable {n state t : Nat} {w w' : World} {h : Handle} {s s' : LuaState} {encoding : Value}
  {p : Lua.Key × Lua.Value} {q : Value × Value} {A es : List (Lua.Key × Lua.Value)} {acc items : List (Value × Value)}

def fetchEntry (state : Nat) (p : Lua.Key × Lua.Value) : Bridge (Value × Value) := do
  let k ← fetch state p.1.value
  return (k, ← fetch state p.2)

/-- Entries of a table in host form, in the order in which they are met. -/
def mapped (E : Engine) (state : Nat) (es : List (Lua.Key × Lua.Value)) : Bridge (List (Value × Value)) := do
  let items ← es.mapM (fetchEntry state)
  items.foldlM (collect E state) []

theorem toMapping_eq {o : Nat} (E : Engine) (hs : w.states[h.state]? = some s) (hv : w.valid h = true)
    (hguest : h.guest = .obj o) (ho : w.objects[o]? = some (.guest ⟨h.state, .table t, false⟩)) :
    toMapping E h w = (mapped E h.state (s.machine.heap.table t).toList (w.hold [h.guest] h.state)).map
      fun p => (p.1, p.2.release w) := by
  have hvalid : isValid h w = some (.ok true, w) := hv ▸ valid_apply h w
  obtain ⟨s', -, hrequire⟩ := requireState_valid "table" hvalid
  have hitems : walk h.guest (w.hold [h.guest] h.state) =
      ((do return (← tableItems ⟨h.state, .table t, false⟩, none)) : Bridge _) (w.hold [h.guest] h.state) := by
    have ho' : (w.hold [h.guest] h.state).objects[o]? = some (.guest ⟨h.state, .table t, false⟩) := ho
    rw [hguest, walk, bind_ok (object_apply o _), ← hguest, ho']
    rfl
  rw [toMapping, bind_ok hrequire]
  dsimp only
  rw [holding_eq, bind_apply, hitems, ← bind_apply, bind_assoc, tableItems, bind_assoc, bind_ok (state?_apply _ _)]
  have hs' : (w.hold [h.guest] h.state).states[h.state]? = some s := hs
  rw [hs']
  rfl

/-! ### Fetching -/

theorem fetchEntries_came (hs : w.states[state]? = some s) (es : List (Lua.Key × Lua.Value)) :
    ∃ items os, es.mapM (fetchEntry state) w = some (.ok items, w.more os) ∧
      List.Forall₂ ((w.more os).CameEntry state s) es items := by
  refine mapM_more (P := fun w => w.CameEntry state s) (fun h => h.grown (grown_more _ _ _))
    (List.forall₂_same.mpr fun p _ os => ?_)
  obtain ⟨k, os₁, hk, hcamek, -⟩ := fetch_came (w := w.more os) hs p.1.value
  obtain ⟨v, os₂, hv, hcamev, -⟩ := fetch_came (w := (w.more os).more os₁) hs p.2
  refine ⟨(k, v), os₁ ++ os₂, ?_⟩
  rw [← more_more (w.more os)]
  refine ⟨?_, hcamek.grown (grown_more _ _ _), hcamev⟩
  rw [fetchEntry, bind_ok hk, bind_ok hv, pure_apply]

/-! ### Collecting -/

/-- Entries have been collected: each of those met so far has its host form, twins as one. -/
structure Collected (w : World) (state : Nat) (s : LuaState) (encoding : Value) (A : List (Lua.Key × Lua.Value))
    (acc : List (Value × Value)) : Prop where
  serves : ∃ s', w.Serves state s' encoding ∧ s.Grown s'
  entries : List.Forall₂ (w.PresentsEntry state s encoding) A acc
  keys : ∀ a ∈ A, ∀ id, a.1 ≠ .host id

/-- An entry gets its host form, the value before the key. -/
theorem entry_presents (hs : w.Serves state s' encoding) (hg : s.Grown s') (hwraps : s.Wraps)
    (hq : w.CameEntry state s p q) (hkey : w.Proper p.1.value) (hvalue : w.Proper p.2) :
    ∃ e w₁ w', toHost (engine (n + 1)) state q.2 w = some (.ok e.2, w₁) ∧
      toHost (engine (n + 1)) state q.1 w₁ = some (.ok e.1, w') ∧ w.Grown state w₁ ∧ w₁.Grown state w' ∧
      w'.PresentsEntry state s encoding p e ∧ ∀ id, e.1 = .obj id → w₁.objects.size ≤ id ∨ e.1 = q.1 := by
  obtain ⟨v, w₁, hv, hw₁, hpv, -⟩ := toHost_presents (n := n) hs hg (hwraps.grown hg) hvalue hq.2
  obtain ⟨s₁, hs₁, hg₁⟩ := hs.grown hw₁
  obtain ⟨k, w', hk, hw', hpk, hnew⟩ := toHost_presents (n := n) hs₁ (hg.trans hg₁) (hwraps.grown (hg.trans hg₁))
    (hkey.grown hw₁) (hq.1.grown hw₁)
  exact ⟨(k, v), w₁, w', hv, hk, hw₁, hw', ⟨hpk, hpv.grown hw'⟩, hnew⟩

/-- One more entry is collected. -/
theorem collect_presents (hwraps : s.Wraps) (hA : Collected w state s encoding A acc)
    (hq : w.CameEntry state s p q) (hp : ∀ id, p.1 ≠ .host id)
    (hproper : w.Proper p.2) (hne : ∀ a ∈ A, a.1 ≠ p.1) :
    ∃ es w', collect (engine (n + 1)) state acc q w = some (.ok es, w') ∧ w.Grown state w' ∧
      Collected w' state s encoding (Lua.putTwin A p) es := by
  obtain ⟨s₁, hs₁, hg₁⟩ := hA.serves
  have hhost := Lua.Key.value_ne_host hp
  obtain ⟨e, w₁, w', hv, hk, hw₁, hw', he, hnew⟩ := entry_presents (n := n) hs₁ hg₁ hwraps hq
    (fun id hid => absurd hid (hhost id)) hproper
  have hw := hw₁.trans hw'
  obtain ⟨s₂, hs₂, hg₂⟩ := hs₁.grown hw
  have hplain : w'.Plain e.1 := he.1.plain hhost
  have hguest : ∀ id, e.1 = .obj id → w₁.objects.size ≤ id ∨ ∃ g, w'.objects[id]? = some (.guest g) := by
    intro id hid
    rcases hnew id hid with hle | hu
    · exact .inl hle
    · obtain ⟨g, hg⟩ := Came.guest_of_obj (hid ▸ hu ▸ hq.1) hhost
      exact .inr ⟨g, hw.objects hg⟩
  refine ⟨w'.putEntry acc e.1 e.2, w', ?_, hw, ⟨s₂, hs₂, hg₁.trans hg₂⟩, putEntry_presents ?_ he, fun a ha => ?_⟩
  · rw [collect, bind_ok hv, bind_ok hk, bind_ok (get_apply _), if_pos (hashable_plain hplain), pure_apply]
  · have hall : List.Forall₂ (fun a b => ((∀ id, a.1 ≠ .host id) ∧ a.1 ≠ p.1) ∧ w.PresentsEntry state s encoding a b) A
        acc := (List.forall₂_and_left _ _).mpr ⟨fun a ha => ⟨hA.keys a ha, hne a ha⟩, hA.entries⟩
    refine hall.imp fun a b hentry => ?_
    obtain ⟨⟨ha, hap⟩, hab⟩ := hentry
    refine ⟨hab.grown hw, ?_⟩
    have hb := hab.1.grown hw₁
    rw [valueEq_plain ((hb.grown hw').plain (Lua.Key.value_ne_host ha)) hplain]
    exact scalarEq_presents rfl hb ha hw' he.1 hp hguest hap
  · rcases Lua.key_of_mem_putTwin ha with hkey | ⟨b, hb, hkey⟩
    · exact hkey ▸ hp
    · exact hkey ▸ hA.keys b hb

theorem foldlM_collect (hwraps : s.Wraps) (hA : Collected w state s encoding A acc)
    (hes : List.Forall₂ (w.CameEntry state s) es items) (hkeys : ∀ p ∈ es, ∀ id, p.1 ≠ .host id)
    (hproper : ∀ p ∈ es, w.Proper p.2) (hnew : ∀ a ∈ A, ∀ p ∈ es, a.1 ≠ p.1)
    (hdistinct : es.Pairwise fun p q => p.1 ≠ q.1) :
    ∃ rs w', items.foldlM (collect (engine (n + 1)) state) acc w = some (.ok rs, w') ∧ w.Grown state w' ∧
      Collected w' state s encoding (es.foldl Lua.putTwin A) rs := by
  induction es generalizing items A acc w with
  | nil =>
    cases hes
    exact ⟨acc, w, rfl, .refl _ _, hA⟩
  | cons p es ih =>
    cases hes with
    | @cons _ q _ items hq hes =>
    rw [List.pairwise_cons] at hdistinct
    have hp : p ∈ p :: es := List.mem_cons_self
    have htail : ∀ {r}, r ∈ es → r ∈ p :: es := List.mem_cons_of_mem _
    obtain ⟨acc', w₁, hcollect, hw₁, hA'⟩ := collect_presents (n := n) hwraps hA hq (hkeys p hp) (hproper p hp)
      fun a ha => hnew a ha p hp
    obtain ⟨rs, w₂, hrs, hw₂, hcollected⟩ := ih hA' (hes.imp fun _ _ h => h.grown hw₁) (fun r hr => hkeys r (htail hr))
      (fun r hr => (hproper r (htail hr)).grown hw₁)
      (fun a ha r hr => by
        rcases Lua.key_of_mem_putTwin ha with hkey | ⟨b, hb, hkey⟩
        · exact hkey ▸ hdistinct.1 r hr
        · exact hkey ▸ hnew b hb r (htail hr))
      hdistinct.2
    exact ⟨rs, w₂, by rw [List.foldlM_cons, bind_ok hcollect, hrs], hw₁.trans hw₂, hcollected⟩

/-- The entries of a table in host form are its entries, of which twins are merged. -/
theorem mapped_presents (hs : w.Serves state s encoding) (hwraps : s.Wraps)
    (hkeys : ∀ p ∈ es, ∀ id, p.1 ≠ .host id) (hproper : ∀ p ∈ es, w.Proper p.2)
    (hdistinct : es.Pairwise fun p q => p.1 ≠ q.1) :
    ∃ rs w', mapped (engine (n + 1)) state es w = some (.ok rs, w') ∧ w.Grown state w' ∧
      List.Forall₂ (w'.PresentsEntry state s encoding) (Lua.mergeTwins es) rs := by
  obtain ⟨items, os, hitems, hcame⟩ := fetchEntries_came hs.found es
  have hw := grown_more w state os
  have hstart : Collected (w.more os) state s encoding [] [] :=
    ⟨⟨s, hs.more, .refl s⟩, .nil, fun a ha => absurd ha List.not_mem_nil⟩
  obtain ⟨rs, w', hrs, hw', hcollected⟩ := foldlM_collect (n := n) hwraps hstart hcame hkeys
    (fun p hp => (hproper p hp).grown hw) (fun a ha => absurd ha List.not_mem_nil) hdistinct
  refine ⟨rs, w', ?_, hw.trans hw', Lua.foldl_putTwin hdistinct ▸ hcollected.entries⟩
  exact (bind_ok hitems).trans hrs

/-! ### Different keys -/

/-- A value of Lua's own gets its host form; if that is an object, it is new, or a guest. -/
theorem toHost_fetch (hs : w.Serves state s encoding) (hwraps : s.Wraps) {v : Lua.Value} (hv : ∀ id, v ≠ .host id) :
    ∃ u os x w', fetch state v w = some (.ok u, w.more os) ∧
      toHost (engine (n + 1)) state u (w.more os) = some (.ok x, w') ∧ (w.more os).Grown state w' ∧
      w'.Presents state s encoding v x ∧
      ∀ id, x = .obj id → (w.more os).objects.size ≤ id ∨ ∃ g, w'.objects[id]? = some (.guest g) := by
  obtain ⟨u, os, hu, hcame, -⟩ := fetch_came hs.found v
  obtain ⟨x, w', hx, hw, hpresents, hnew⟩ := toHost_presents (n := n) hs.more (.refl s) hwraps
    (fun id hid => absurd hid (hv id)) hcame
  refine ⟨u, os, x, w', hu, hx, hw, hpresents, fun id hid => ?_⟩
  rcases hnew id hid with hle | rfl
  · exact .inl hle
  · obtain ⟨g, hg⟩ := Came.guest_of_obj (hid ▸ hcame) hv
    exact .inr ⟨g, hw.objects hg⟩

/-- The host takes two keys of Lua's for one just if they are twins. -/
theorem valueEq_twin {k l : Lua.Key} (hs : w.Serves state s encoding) (hwraps : s.Wraps)
    (hne : k ≠ l) (hk : ∀ id, k ≠ .host id) (hl : ∀ id, l ≠ .host id) :
    ∃ x w₁, (fetch state k.value >>= toHost (engine (n + 1)) state) w = some (.ok x, w₁) ∧
      ∀ w₂, w₁.Grown state w₂ → ∃ y w₃,
        (fetch state l.value >>= toHost (engine (n + 1)) state) w₂ = some (.ok y, w₃) ∧
        ∀ w₄ depth, w₃.Grown state w₄ → w₄.valueEq depth x y = k.twin l := by
  obtain ⟨u, os, x, w₁, hu, hx, hw₁, hpx, -⟩ := toHost_fetch (n := n) hs hwraps (Lua.Key.value_ne_host hk)
  refine ⟨x, w₁, (bind_ok hu).trans hx, fun w₂ hw₂ => ?_⟩
  obtain ⟨s₂, hs₂, hg⟩ := hs.grown (((grown_more w state os).trans hw₁).trans hw₂)
  obtain ⟨u', os', y, w₃, hu', hy, hw₃, hpy, hnew⟩ :=
    toHost_fetch (n := n) hs₂ (hwraps.grown hg) (Lua.Key.value_ne_host hl)
  refine ⟨y, w₃, (bind_ok hu').trans hy, fun w₄ depth hw₄ => ?_⟩
  have hcs : s₂.charset = s.charset := by rw [hg.same]
  have hpx' : (w₂.more os').Presents state s encoding k.value x := (hpx.grown hw₂).grown (grown_more _ _ _)
  rw [valueEq_plain (((hpx'.grown hw₃).grown hw₄).plain (Lua.Key.value_ne_host hk))
    ((hpy.grown hw₄).plain (Lua.Key.value_ne_host hl))]
  exact scalarEq_presents hcs hpx' hk hw₃ hpy hl hnew hne

/-- Different keys of Lua's come to the host as equal ones just if they are twins: a truth value and the number that it
counts as. So the mapping of a table, in whatever order the table is walked, has an entry for each of its entries, keys
and values in their host forms; only the entries of twins become one, with the key met first and the value met last. -/
theorem toMapping_twins (ht : w.TableAt h t s encoding)
    (hkeys : ∀ p ∈ (s.machine.heap.table t).toList, ∀ id, p.1 ≠ .host id)
    (hproper : ∀ p ∈ (s.machine.heap.table t).toList, w.Proper p.2) (n : Nat) :
    (∀ k l : Lua.Key, k ≠ l → (∀ id, k ≠ .host id) → (∀ id, l ≠ .host id) →
      ∃ x w₁, (fetch h.state k.value >>= toHost (engine (n + 1)) h.state) w = some (.ok x, w₁) ∧
        ∀ w₂, w₁.Grown h.state w₂ → ∃ y w₃,
          (fetch h.state l.value >>= toHost (engine (n + 1)) h.state) w₂ = some (.ok y, w₃) ∧
          ∀ w₄ depth, w₃.Grown h.state w₄ → w₄.valueEq depth x y = k.twin l) ∧
      toMapping (engine (n + 1)) h w =
        (mapped (engine (n + 1)) h.state (s.machine.heap.table t).toList (w.hold [h.guest] h.state)).map
          (fun p => (p.1, p.2.release w)) ∧
      ∀ es, es.Perm (s.machine.heap.table t).toList → ∃ rs w',
        mapped (engine (n + 1)) h.state es (w.hold [h.guest] h.state) = some (.ok rs, w') ∧
        List.Forall₂ (w'.PresentsEntry h.state s encoding) (Lua.mergeTwins es) rs ∧
        (es.Pairwise (fun p q => p.1.twin q.1 = false) → rs.length = es.length) := by
  obtain ⟨o, hguest, ho⟩ := ht.guest
  refine ⟨fun k l hne hk hl => valueEq_twin ht.toServes ht.wraps hne hk hl,
    toMapping_eq _ ht.found ht.valid hguest ho, fun es hes => ?_⟩
  have hdistinct : es.Pairwise fun p q => p.1 ≠ q.1 :=
    (hes.pairwise_iff fun h => Ne.symm h).mpr (Lua.Table.pairwise_toList _)
  have hheld : (w.hold [h.guest] h.state).Serves h.state s encoding := ht.toServes.mono rfl rfl
  obtain ⟨rs, w', hrs, -, hentries⟩ := mapped_presents (n := n) hheld ht.wraps
    (fun p hp => hkeys p (hes.subset hp)) (fun p hp => hproper p (hes.subset hp)) hdistinct
  refine ⟨rs, w', hrs, hentries, fun htwins => ?_⟩
  rw [← hentries.length_eq, Lua.mergeTwins_eq_self htwins]

/-- A table has entries at 1 and at true: the mapping has the first key with the second value. -/
theorem toMapping_twins_true :
    let entries : Lua.Table := (({} : Lua.Table).set (.int 1) (.int 5)).set (.bool true) (.int 6)
    let m : Lua.Machine := { heap := { tables := #[entries], closures := #[⟨wrapping, []⟩] } }
    let s : LuaState :=
      { config := 0, diagnostics := 0, charset := .utf8, machine := m, globals := 0, wrapper := .closure 0 }
    let h : Handle := { kind := .table, state := 0, guest := .obj 1 }
    let w : World :=
      { objects := #[.nothing, .guest ⟨0, .table 0, false⟩], configs := #[{}], diagnostics := #[[]], states := #[s]
        languages := #[{ config := 0, diagnostics := 0, state := some 0 }] }
    w.TableAt h 0 s (.text "UTF-8") ∧
      (∀ p ∈ (s.machine.heap.table 0).toList, (∀ id, p.1 ≠ .host id) ∧ w.Proper p.2) ∧
      ∃ w', toMapping (engine 1) h w = some (.ok [(.int 1, .int 6)], w') := by
  intro entries m s h w
  have hs : w.Serves 0 s (.text "UTF-8") := ⟨⟨rfl, rfl, rfl⟩, rfl, .inr (by decide +kernel)⟩
  have hvalid : w.valid h = true := by simp [World.valid, Handle.stands, World.opened, World.stateAlive, w, s, h]
  have ht : w.TableAt h 0 s (.text "UTF-8") := ⟨hs, ⟨0, [], rfl, rfl⟩, hvalid, 1, rfl, rfl⟩
  have htable : (s.machine.heap.table 0).toList = [(.int 1, .int 5), (.bool true, .int 6)] := rfl
  have hentries : ∀ p ∈ (s.machine.heap.table 0).toList, (∀ id, p.1 ≠ .host id) ∧ w.Proper p.2 := by
    intro p hp
    rw [htable] at hp
    rcases List.mem_cons.mp hp with rfl | hp
    · exact ⟨fun _ => Lua.Key.noConfusion, fun _ => Lua.Value.noConfusion⟩
    · obtain rfl := List.mem_singleton.mp hp
      exact ⟨fun _ => Lua.Key.noConfusion, fun _ => Lua.Value.noConfusion⟩
  refine ⟨ht, hentries, ?_⟩
  obtain ⟨-, hmapping, hmapped⟩ := toMapping_twins ht
    (fun p hp => (hentries p hp).1) (fun p hp => (hentries p hp).2) 0
  obtain ⟨rs, w', hrs, hall, -⟩ := hmapped _ (.refl _)
  have hmerged : Lua.mergeTwins (s.machine.heap.table 0).toList = [(.int 1, .int 6)] := rfl
  rw [hmerged] at hall
  cases hall with
  | @cons _ e _ _ he hrest =>
    cases hrest
    obtain ⟨k, v⟩ := e
    obtain ⟨hk, hv⟩ := he
    cases hk with
    | int i =>
      cases hv with
      | int j => exact ⟨_, by rw [hmapping, hrs]; rfl⟩
      | handle kind_eq => contradiction
    | handle kind_eq => contradiction

end Bridge

end HostedLua
