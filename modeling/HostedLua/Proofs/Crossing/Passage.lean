import HostedLua.Proofs.Container.Frame
import HostedLua.Proofs.Crossing.Stray

/-! Conversions that succeed, whatever they are of. A conversion goes the way of `meet`: it reports each stray that it
comes to, at once and to its own state alone, and it puts into new tables what the entries of containers become. -/

namespace HostedLua

open Host

namespace World

variable {w : World} {state : Nat} {s : LuaState} {cs : Charset} {encoding u v : Value} {τ ρ : Numbering}
  {g g' : Growth} {h : Handle} {hs : List Handle}

/-- The records once those handles that are strays have been reported to a state. -/
def noted (w : World) (state : Nat) (hs : List Handle) : Array (List Effect) :=
  w.recorded state ((hs.filter (w.stray state)).map fun h => strayReport h.kind)

theorem noted_nil : w.noted state [] = w.diagnostics := recorded_nil

theorem noted_stray (found : w.states[state]? = some s) (hh : w.stray state h = true) :
    w.noted state (hs ++ [h]) = (w.noted state hs).modify s.diagnostics (· ++ [strayReport h.kind]) := by
  rw [noted, List.filter_append, List.map_append, recorded_append found]
  simp [hh, noted]

theorem noted_own (hh : w.stray state h = false) : w.noted state (hs ++ [h]) = w.noted state hs := by
  simp [noted, hh]

/-- Only the records of the state's own diagnostics change. -/
theorem noted_other (found : w.states[state]? = some s) {d : Nat} (hd : d ≠ s.diagnostics) :
    (w.noted state hs)[d]? = w.diagnostics[d]? := by
  rw [noted, recorded, found]
  dsimp only
  rw [Array.getElem?_modify, if_neg (Ne.symm hd)]

/-! ### A world that has grown -/

theorem stray_after (hw : state ∈ w.heldStates) (h : Handle) : (w.after state g).stray state h = w.stray state h := by
  have hopened : (w.after state g).opened state = w.opened state := by
    simp only [opened, after, Array.getElem?_modify, if_true]
    cases w.states[state]? <;> rfl
  rw [stray_of_held hw, stray_of_held (w := w.after state g) hw, hopened]

theorem pushed?_after (hu : ∀ id, u = .obj id → ∃ o, w.objects[id]? = some o) :
    (w.after state g).pushed? state cs u = w.pushed? state cs u := by
  cases u with
  | obj id =>
    obtain ⟨o, ho⟩ := hu id rfl
    rw [pushed?, pushed?, ho, object_after ho]
  | _ => rfl

end World

namespace Bridge

open World

variable {w w' : World} {state : Nat} {s : LuaState} {encoding u v : Value} {τ ρ : Numbering} {σ σ' : Seen}
  {g g' : Growth} {m : Met} {depth id o t : Nat}

/-! ### Pushes that succeed -/

theorem push_some_ok (found : w.states[state]? = some s) (hu : ∀ id, u = .obj id → ∃ o, w.objects[id]? = some o)
    {y : Lua.Value} (h : push state u w = some (.ok y, w')) : w' = w ∧ w.pushed? state s.charset u = some y := by
  cases u with
  | none | bool | float | bytes | member =>
    obtain ⟨rfl, rfl⟩ := ok_inj h
    exact ⟨rfl, rfl⟩
  | int i =>
    rw [push] at h
    split_ifs at h with hi
    · obtain ⟨rfl, rfl⟩ := ok_inj h
      exact ⟨rfl, if_pos hi⟩
    · cases h
  | text t =>
    rw [push, bind_ok (state?_apply state w), found] at h
    dsimp only at h
    cases he : s.charset.encodeEscaped t with
    | error e =>
      rw [he] at h
      cases h
    | ok b =>
      rw [he] at h
      obtain ⟨rfl, rfl⟩ := ok_inj h
      exact ⟨rfl, by rw [pushed?, he]; rfl⟩
  | obj id =>
    obtain ⟨o, ho⟩ := hu id rfl
    rw [push, bind_ok (object_apply id w), ho, Option.getD_some] at h
    rw [pushed?, ho]
    cases o with
    | guest γ =>
      dsimp only at h ⊢
      split_ifs at h with hst
      · obtain ⟨rfl, rfl⟩ := ok_inj h
        exact ⟨rfl, if_pos hst⟩
      · cases h
    | _ =>
      obtain ⟨rfl, rfl⟩ := ok_inj h
      exact ⟨rfl, rfl⟩

/-- What a value has become when its conversion is over: the table of its container, or the form of a leaf. -/
inductive Becomes (w : World) (state : Nat) (encoding : Value) (τ : Numbering) (g : Growth) : Value → Value → Prop where
  | table {id t o : Nat} (container : (w.entries? (.obj id)).isSome) (number : τ.lookup id = some t)
    (guest : (w.after state g).objects[o]? = some (.guest ⟨state, .table t, false⟩)) :
    Becomes w state encoding τ g (.obj id) (.obj o)
  | leaf {v u : Value} (plain : w.entries? v = none) (form : w.form? state encoding v = some u) :
    Becomes w state encoding τ g v u

theorem Becomes.later (h : Becomes w state encoding τ g v u)
    (ho : ∀ (id : Nat) (o : Object), (w.after state g).objects[id]? = some o →
      (w.after state g').objects[id]? = some o) : Becomes w state encoding τ g' v u := by
  cases h with
  | table container number guest => exact .table container number (ho _ _ guest)
  | leaf plain form => exact .leaf plain form

/-- What a value has become is pushed as what it is in Lua. -/
theorem Becomes.cast (found : w.states[state]? = some s) (hv : w.Present v) (h : Becomes w state encoding τ g v u)
    {y : Lua.Value} (hpush : push state u (w.after state g) = some (.ok y, w')) :
    w' = w.after state g ∧ ∀ ρ : Numbering, ρ.Extends τ → w.cast state s.charset encoding ρ v = y := by
  cases h with
  | @table id t o container number guest =>
    have hobject : ∀ i, Value.obj o = .obj i → ∃ o, (w.after state g).objects[i]? = some o := by
      intro i hi
      obtain rfl := Value.obj.inj hi
      exact ⟨_, guest⟩
    obtain ⟨rfl, hy⟩ := push_some_ok (after_state found) hobject hpush
    refine ⟨rfl, fun ρ hρ => ?_⟩
    rw [cast_container container, hρ.lookup number]
    rw [pushed?, guest] at hy
    exact Option.some.inj ((if_pos rfl).symm.trans hy)
  | leaf plain form =>
    have hobject : ∀ id, u = .obj id → ∃ o, w.objects[id]? = some o := by
      rintro id rfl
      exact hv.form form
    have hobject' : ∀ id, u = .obj id → ∃ o, (w.after state g).objects[id]? = some o := by
      intro id hid
      obtain ⟨o, ho⟩ := hobject id hid
      exact ⟨o, object_after ho⟩
    obtain ⟨rfl, hy⟩ := push_some_ok (after_state found) hobject' hpush
    refine ⟨rfl, fun ρ _ => ?_⟩
    rw [cast_leaf plain, form, Option.bind_some, ← pushed?_after (g := g) hobject]
    exact congrArg (Option.getD · .nil) hy

/-- The key that what a value has become is pushed as is the slot of what it is in Lua. -/
theorem Becomes.slot (found : w.states[state]? = some s) (hv : w.Present v) (h : Becomes w state encoding τ g v u)
    {x : Lua.Value} {κ : Lua.Key} (hpush : pushKey state u (w.after state g) = some (.ok x, w'))
    (hκ : x.key? = .ok κ) :
    w' = w.after state g ∧
      ∀ ρ : Numbering, ρ.Extends τ → World.slot (w.cast state s.charset encoding ρ v) = .ok κ := by
  cases u with
  | none =>
    obtain ⟨rfl, rfl⟩ := ok_inj hpush
    obtain ⟨-, hcast⟩ := h.cast found hv (y := .nil) rfl
    refine ⟨rfl, fun ρ hρ => ?_⟩
    rw [hcast ρ hρ]
    exact hκ
  | _ =>
    obtain ⟨rfl, hcast⟩ := h.cast found hv hpush
    refine ⟨rfl, fun ρ hρ => ?_⟩
    rw [hcast ρ hρ]
    cases x with
    | nil => cases hκ
    | _ => exact hκ

/-- An entry that is put into a table has a key and a value there. -/
theorem putRaw_some_ok {k : Value} (ho : w.objects[o]? = some (.guest ⟨state, .table t, false⟩))
    (h : putRaw state (.obj o) k v w = some (.ok ⟨⟩, w')) :
    ∃ x w₁ y w₂ κ, pushKey state k w = some (.ok x, w₁) ∧ push state v w₁ = some (.ok y, w₂) ∧ x.key? = .ok κ ∧
      modifyHeap state (fun h => h.set t κ y) w₂ = some (.ok ⟨⟩, w') := by
  rw [putRaw, bind_ok (object_apply o w), ho, Option.getD_some] at h
  obtain ⟨x, w₁, hx, h⟩ := bind_some_ok h
  obtain ⟨y, w₂, hy, h⟩ := bind_some_ok h
  cases hκ : x.key? with
  | error e =>
    rw [hκ] at h
    cases h
  | ok κ =>
    rw [hκ] at h
    exact ⟨x, w₁, y, w₂, κ, hx, hy, hκ, h⟩

/-! ### Leaves -/

/-- A mapping whose walk fails is never converted. -/
theorem badItems_not_ok {text : Text} (ho : w.objects[id]? = some (.badItems text)) (hσ : σ.lookup id = none) :
    toGuestAt state (depth + 1) (.obj id) σ w ≠ some (.ok (u, σ'), w') := by
  intro h
  rw [toGuestAt, seen_bind_ok (lift_ok (object_apply id w)), ho, Option.getD_some] at h
  simp only [items?, seen_bind_ok (seen_get_apply σ w), hσ] at h
  obtain ⟨table, σ₁, w₁, -, h⟩ := seen_bind_some_ok h
  have hfails {σ w} : ¬(do
      [(Value.text "a", Value.int 1)].forM (convertEntry state depth table)
      throw (.of "ValueError" text) : StateT Seen Bridge Value) σ w = some (.ok (u, σ'), w') := by
    intro h
    obtain ⟨_, σ₂, w₂, -, h⟩ := seen_bind_some_ok h
    cases h
  cases table with
  | none => exact hfails h
  | _ => exact hfails h

/-- A leaf has been converted: to its form, with a report if it is a stray. -/
structure TakesForm (w : World) (state : Nat) (encoding v : Value) (σ : Seen) (g : Growth) (hs : List Handle)
    (u : Value) (σ' : Seen) (w' : World) : Prop where
  seen : σ' = σ
  form : w.form? state encoding v = some u
  world : w' = w.after state { g with reports := w.noted state (hs ++ (w.handleAt v).toList) }

theorem TakesForm.of_return {hs : List Handle} {x : Value} (hh : w.handleAt v = none)
    (hx : w.leafForm? state encoding v = some x) (hg : g.reports = w.noted state hs)
    (h : (pure x : StateT Seen Bridge Value) σ (w.after state g) = some (.ok (u, σ'), w')) :
    TakesForm w state encoding v σ g hs u σ' w' := by
  obtain ⟨rfl, rfl, rfl⟩ := seen_ok_inj h
  exact ⟨rfl, (form?_leaf hh).trans hx, by rw [hh, Option.toList_none, List.append_nil, ← hg]⟩

/-- A handle becomes what it stands for, or nothing with a report. -/
theorem takesForm_handle (found : w.states[state]? = some s) (hw : state ∈ w.heldStates) {k : Handle}
    (ho : w.objects[id]? = some (.handle k)) {hs : List Handle} (hg : g.reports = w.noted state hs)
    (h : toGuestAt state (depth + 1) (.obj id) σ (w.after state g) = some (.ok (u, σ'), w')) :
    TakesForm w state encoding (.obj id) σ g hs u σ' w' := by
  have hk : w.handleAt (.obj id) = some k := by rw [handleAt, ho]
  have hstray : (!((w.after state g).valid k && decide (k.state = state))) = w.stray state k :=
    stray_after hw k
  rw [toGuestAt, seen_bind_ok (lift_ok (object_apply id _)), object_after ho, Option.getD_some] at h
  dsimp only at h
  rw [seen_bind_ok (lift_ok (valid_apply k _))] at h
  cases hkeep : (w.after state g).valid k && decide (k.state = state) with
  | true =>
    rw [hkeep] at hstray
    rw [hkeep, if_pos rfl] at h
    obtain ⟨rfl, rfl, rfl⟩ := seen_ok_inj h
    refine ⟨rfl, by rw [form?_handle hk, ← hstray]; rfl, ?_⟩
    rw [hk, Option.toList_some, noted_own hstray.symm, ← hg]
  | false =>
    rw [hkeep] at hstray
    rw [hkeep, if_neg Bool.false_ne_true, seen_bind_ok (lift_ok (reportTo_apply (after_state found)))] at h
    obtain ⟨rfl, rfl, rfl⟩ := seen_ok_inj h
    refine ⟨rfl, by rw [form?_handle hk, ← hstray]; rfl, ?_⟩
    rw [hk, Option.toList_some, noted_stray found hstray.symm, ← hg]
    rfl

/-- A leaf that is converted takes its form. -/
theorem takesForm_leaf (found : w.states[state]? = some s)
    (henc : ((w.configs[s.config]?).getD {}).encoding = encoding) (hw : state ∈ w.heldStates) (hv : w.Present v)
    (hes : w.entries? v = none) (hσ : ∀ id, w.entries? (.obj id) = none → σ.lookup id = none)
    {hs : List Handle} (hg : g.reports = w.noted state hs)
    (h : toGuestAt state (depth + 1) v σ (w.after state g) = some (.ok (u, σ'), w')) :
    TakesForm w state encoding v σ g hs u σ' w' := by
  cases v with
  | none | bool | float | bytes | member => exact .of_return rfl rfl hg h
  | int i =>
    rw [toGuestAt] at h
    split_ifs at h with hi
    · exact .of_return rfl (if_pos hi) hg h
    · cases hx : Binary.ofInt? i with
      | none =>
        rw [hx] at h
        cases h
      | some x =>
        rw [hx] at h
        exact .of_return rfl (by rw [leafForm?, if_neg hi, hx]; rfl) hg h
  | text t =>
    have hconfig : configOf state (w.after state g) =
        some (.ok ((w.configs[s.config]?).getD {}), w.after state g) :=
      configOf_apply (s := s.withTables g.tables) (after_state found)
    rw [toGuestAt, seen_bind_ok (lift_ok hconfig), henc] at h
    cases encoding with
    | none =>
      cases he : Charset.utf8.encodeEscaped t with
      | error e =>
        simp only [he] at h
        cases h
      | ok b =>
        simp only [he] at h
        exact .of_return rfl (by rw [leafForm?, he]; rfl) hg h
    | _ => exact .of_return rfl rfl hg h
  | obj id =>
    obtain ⟨o, ho⟩ := hv.object id rfl
    have ho' : (w.after state g).objects[id]? = some o := object_after ho
    cases o with
    | handle k => exact takesForm_handle found hw ho hg h
    | badItems text => exact absurd h (badItems_not_ok ho' (hσ id hes))
    | list | tuple | dict | proxy => simp [entries?, ho, items?] at hes
    | _ =>
      rw [toGuestAt, seen_bind_ok (lift_ok (object_apply id _)), ho', Option.getD_some] at h
      exact .of_return (by rw [handleAt, ho]) (by rw [leafForm?, ho]; rfl) hg h

/-! ### Containers -/

/-- A conversion under way: the containers met have their tables, and the strays met have been reported. -/
structure Underway (w : World) (state : Nat) (m : Met) (τ : Numbering) (σ : Seen) (g : Growth) : Prop where
  tables : (w.after state g).Matches state τ σ
  containers : τ.map Prod.fst = m.containers
  nodup : m.containers.Nodup
  found : ∀ id ∈ m.containers, (w.entries? (.obj id)).isSome
  reports : g.reports = w.noted state m.handles

theorem Underway.lookup_none (h : Underway w state m τ σ g) (hid : id ∉ m.containers) : σ.lookup id = none :=
  h.tables.lookup_none (Numbering.lookup_of_not_mem (h.containers ▸ hid))

/-- A conversion that succeeds goes the way of the walk and keeps the invariants. -/
def PassesAt (w : World) (state : Nat) (s : LuaState) (encoding : Value) (depth : Nat) (v : Value) : Prop :=
  ∀ ⦃m : Met⦄ ⦃τ : Numbering⦄ ⦃σ : Seen⦄ ⦃g : Growth⦄ ⦃u : Value⦄ ⦃σ' : Seen⦄ ⦃w' : World⦄,
    Underway w state m τ σ g → toGuestAt state depth v σ (w.after state g) = some (.ok (u, σ'), w') →
    ∃ m' τ' g', w' = w.after state g' ∧ w.meet depth m v = some m' ∧ Underway w state m' τ' σ' g' ∧
      Grows w (w.stored state s.charset encoding) none τ τ' g g' ∧ Becomes w state encoding τ' g' v u

theorem passes_leaf (hs : w.Opens state s encoding) (hw : state ∈ w.heldStates) (hv : w.Present v)
    (hes : w.entries? v = none) : PassesAt w state s encoding (depth + 1) v := by
  intro m τ σ g u σ' w' hunder h
  have hσ (id : Nat) (hid : w.entries? (.obj id) = none) : σ.lookup id = none := by
    refine hunder.lookup_none fun hmem => ?_
    simpa [hid] using hunder.found id hmem
  obtain ⟨rfl, form, rfl⟩ := takesForm_leaf hs.found hs.encoding_eq hw hv hes hσ hunder.reports h
  exact ⟨_, τ, _, rfl, meet_leaf hes,
    ⟨hunder.tables, hunder.containers, hunder.nodup, hunder.found, rfl⟩, .of_reports, .leaf hes form⟩

theorem convertEntry_some_ok {table : Value} {e : Value × Value} (hskip : skipsKey e.1 = false)
    (h : convertEntry state depth table e σ w = some (.ok (⟨⟩, σ'), w')) :
    ∃ u σ₁ w₁ l w₂, toGuestAt state depth e.2 σ w = some (.ok (u, σ₁), w₁) ∧
      toGuestAt state depth e.1 σ₁ w₁ = some (.ok (l, σ'), w₂) ∧ putRaw state table l u w₂ = some (.ok ⟨⟩, w') := by
  simp only [convertEntry, hskip, Bool.not_false, if_true] at h
  obtain ⟨u, σ₁, w₁, hu, h⟩ := seen_bind_some_ok h
  obtain ⟨l, σ₂, w₂, hl, h⟩ := seen_bind_some_ok h
  obtain ⟨rfl, hput⟩ := lift_some_ok h
  exact ⟨u, σ₁, w₁, l, w₂, hu, hl, hput⟩

/-- The entries of a container go into its table, the value of each before its key. -/
theorem passes_entries (hs : w.Opens state s encoding) {all : List (Value × Value)}
    (hall : w.entries? (.obj id) = some all) (hv : ∀ x, w.HasPart (.obj id) x → w.Present x)
    (ih : ∀ x, w.HasPart (.obj id) x → PassesAt w state s encoding depth x) :
    ∀ {es : List (Value × Value)} {m : Met} {τ : Numbering} {σ : Seen} {g : Growth} {T : Lua.Table} {σ' : Seen}
      {w' : World}, es ⊆ all → Underway w state m τ σ g →
      (w.after state g).objects[o]? = some (.guest ⟨state, .table t, false⟩) → g.tables[t]? = some T →
      (es.forM (convertEntry state depth (.obj o))) σ (w.after state g) = some (.ok (⟨⟩, σ'), w') →
      ∃ m' τ' g', w' = w.after state g' ∧ w.meetEntries depth m es = some m' ∧ Underway w state m' τ' σ' g' ∧
        Grows w (w.stored state s.charset encoding) (some t) τ τ' g g' ∧
        ∀ ρ : Numbering, ρ.Extends τ' →
          g'.tables[t]? = some (es.foldl (store (w.cast state s.charset encoding ρ)) T) := by
  intro es
  induction es with
  | nil =>
    intro m τ σ g T σ' w' _ hunder _ hT h
    obtain ⟨-, rfl, rfl⟩ := seen_ok_inj h
    exact ⟨m, τ, g, rfl, rfl, hunder, .refl, fun ρ _ => hT⟩
  | cons e es ihe =>
    intro m τ σ g T σ' w' hsub hunder ho hT h
    have hmem : e ∈ all := hsub (List.mem_cons_self ..)
    have ht : t < g.tables.size := (Array.getElem?_eq_some_iff.mp hT).1
    have hvalue : w.HasPart (.obj id) e.2 := ⟨all, hall, e, hmem, .inr rfl⟩
    have hkey : w.HasPart (.obj id) e.1 := ⟨all, hall, e, hmem, .inl rfl⟩
    rw [convertEntries_cons] at h
    obtain ⟨⟨⟩, σ₂, w₃, hentry, hrest⟩ := seen_bind_some_ok h
    obtain ⟨u, σ₁, w₁, l, w₂, hrun₁, hrun₂, hput⟩ := convertEntry_some_ok (skipsKey_of_mem hall hmem) hentry
    obtain ⟨m₁, τ₁, g₁, rfl, hmeet₁, hunder₁, hg₁, hu⟩ := ih _ hvalue hunder hrun₁
    obtain ⟨m₂, τ₂, g₂, rfl, hmeet₂, hunder₂, hg₂, hl⟩ := ih _ hkey hunder₁ hrun₂
    obtain ⟨x, _, y, _, κ, hx, hy, hκ, hset⟩ := putRaw_some_ok (hg₂.object (hg₁.object ho)) hput
    obtain ⟨rfl, hslot⟩ := hl.slot hs.found (hv _ hkey) hx hκ
    obtain ⟨rfl, hcast⟩ := (hu.later fun _ _ => hg₂.object).cast hs.found (hv _ hvalue) hy
    obtain ⟨-, rfl⟩ := Prod.mk.inj (Option.some.inj ((modifyHeap_after (·.modify t (·.set κ y))).symm.trans hset))
    -- The table under way has been left alone so far, and now takes the entry.
    have hT₂ : g₂.tables[t]? = some T := by
      rw [hg₂.kept t (ht.trans_le hg₁.size_le) (by simp), hg₁.kept t ht (by simp), hT]
    have hT₃ : (g₂.tables.modify t (·.set κ y))[t]? = some (T.set κ y) := by simp [Array.getElem?_modify, hT₂]
    have hunder₃ : Underway w state m₂ τ₂ σ₂ { g₂ with tables := g₂.tables.modify t (·.set κ y) } :=
      ⟨hunder₂.tables, hunder₂.containers, hunder₂.nodup, hunder₂.found, hunder₂.reports⟩
    obtain ⟨m', τ', g', rfl, hmeet', hunder', hg', hT'⟩ := ihe (fun a ha => hsub (List.mem_cons_of_mem _ ha))
      hunder₃ (hg₂.object (hg₁.object ho)) hT₃ hrest
    have hlt : ∀ i, some t = some i → i < g.tables.size := fun i hi => Option.some.inj hi ▸ ht
    refine ⟨m', τ', g', rfl, meetEntries_cons.mpr ⟨m₁, m₂, hmeet₁, hmeet₂, hmeet'⟩, hunder', ?_, fun ρ hρ => ?_⟩
    · exact ((hg₁.weaken.trans hg₂.weaken hlt).trans .put hlt).trans hg' hlt
    · have hρ₂ := hρ.trans hg'.suffix
      rw [hT' ρ hρ, List.foldl_cons, store, hslot ρ hρ₂, hcast ρ (hρ₂.trans hg₂.suffix)]

theorem passes_again {es : List (Value × Value)} (hes : w.entries? (.obj id) = some es)
    (hunder : Underway w state m τ σ g) (hid : id ∈ m.containers)
    (h : toGuestAt state (depth + 1) (.obj id) σ (w.after state g) = some (.ok (u, σ'), w')) :
    w' = w.after state g ∧ σ' = σ ∧ Becomes w state encoding τ g (.obj id) u := by
  obtain ⟨t, ht⟩ := Numbering.lookup_of_mem (hunder.containers.symm ▸ hid)
  obtain ⟨o, hlookup, hobj⟩ := hunder.tables.lookup ht
  obtain ⟨c, items, hc, hi, -⟩ := exists_items hes
  rw [toGuestAt_seen (object_after hc) hi hlookup] at h
  obtain ⟨rfl, rfl, rfl⟩ := seen_ok_inj h
  exact ⟨rfl, rfl, .table (Option.isSome_of_eq_some hes) ht hobj⟩

/-- A container that is new gets the next table, which is met before its entries are. -/
theorem passes_fresh (hs : w.Opens state s encoding) {es : List (Value × Value)}
    (hes : w.entries? (.obj id) = some es) (hv : ∀ x, w.HasPart (.obj id) x → w.Present x)
    (ih : ∀ x, w.HasPart (.obj id) x → PassesAt w state s encoding depth x)
    (hunder : Underway w state m τ σ g) (hid : id ∉ m.containers)
    (h : toGuestAt state (depth + 1) (.obj id) σ (w.after state g) = some (.ok (u, σ'), w')) :
    ∃ m' τ' g', w' = w.after state g' ∧ w.meet (depth + 1) m (.obj id) = some m' ∧ Underway w state m' τ' σ' g' ∧
      Grows w (w.stored state s.charset encoding) none τ τ' g g' ∧ Becomes w state encoding τ' g' (.obj id) u := by
  have hobj := w.object_newTable state g
  have hunder₁ : Underway w state ⟨m.handles, id :: m.containers⟩ ((id, g.tables.size) :: τ)
      ((id, .obj (w.objects.size + g.objects.size)) :: σ) (g.newTable state) := {
    tables := hunder.tables.newTable id
    containers := congrArg (id :: ·) hunder.containers
    nodup := List.nodup_cons.mpr ⟨hid, hunder.nodup⟩
    found := List.forall_mem_cons.mpr ⟨Option.isSome_of_eq_some hes, hunder.found⟩
    reports := hunder.reports }
  obtain ⟨c, items, hc, hi, hitems⟩ := exists_items hes
  rw [toGuestAt_fresh (object_after hc) hi (hunder.lookup_none hid) (newTable_after hs)] at h
  obtain ⟨⟨⟩, σ₂, w₂, hfor, hreturn⟩ := seen_bind_some_ok h
  rw [convertEntries_filter, ← hitems] at hfor
  obtain ⟨rfl, rfl, rfl⟩ := seen_ok_inj hreturn
  obtain ⟨m', τ', g', rfl, hmeet, hunder', hg', hT⟩ := passes_entries hs hes hv ih (List.Subset.refl es) hunder₁ hobj
    Array.getElem?_push_size hfor
  have hnumber : τ'.lookup id = some g.tables.size := by
    have hτ' : τ'.Extends τ' := ⟨List.suffix_refl _, hunder'.containers ▸ hunder'.nodup⟩
    exact (hτ'.trans hg'.suffix).lookup List.lookup_cons_self
  exact ⟨m', τ', g', rfl, (meet_fresh hes hid).trans hmeet, hunder', hg'.close hes hT,
    .table (Option.isSome_of_eq_some hes) hnumber (hg'.object hobj)⟩

/-- Whatever a conversion is of, it goes the way of the walk. -/
theorem passes (hs : w.Opens state s encoding) (hw : state ∈ w.heldStates) :
    ∀ depth v, (∀ x, w.Occurs v x → w.Present x) → PassesAt w state s encoding depth v := by
  intro depth
  induction depth with
  | zero =>
    intro v _ m τ σ g u σ' w' _ h
    cases h
  | succ depth ih =>
    intro v hv
    cases hes : w.entries? v with
    | none => exact passes_leaf hs hw (hv v .refl) hes
    | some es =>
      obtain ⟨id, rfl⟩ := exists_obj_of_entries? hes
      intro m τ σ g u σ' w' hunder h
      by_cases hid : id ∈ m.containers
      · obtain ⟨rfl, rfl, hu⟩ := passes_again hes hunder hid h
        exact ⟨m, τ, g, rfl, meet_again hes hid, hunder, .refl, hu⟩
      · refine passes_fresh hs hes (fun x hx => hv x (.single hx)) (fun x hx => ?_) hunder hid h
        exact ih x fun y hy => hv y (.head hx hy)

/-- A conversion from its start: nothing has been met, and nothing has been added to the world. -/
theorem passes_start (hs : w.Opens state s encoding) (hw : state ∈ w.heldStates) (hv : ∀ x, w.Occurs v x → w.Present x)
    (h : toGuestAt state depth v [] w = some (.ok (u, σ'), w')) :
    ∃ m τ g, w' = w.after state g ∧ w.meet depth ⟨[], []⟩ v = some m ∧ Underway w state m τ σ' g ∧
      Grows w (w.stored state s.charset encoding) none [] τ ⟨#[], w.diagnostics, s.machine.heap.tables⟩ g ∧
      Becomes w state encoding τ g v u := by
  have start : Underway w state ⟨[], []⟩ [] [] ⟨#[], w.diagnostics, s.machine.heap.tables⟩ :=
    ⟨.nil, rfl, List.nodup_nil, fun _ hid => absurd hid List.not_mem_nil, noted_nil.symm⟩
  rw [← after_self hs.found] at h
  exact passes hs hw depth v hv start h

end Bridge

end HostedLua
