import HostedLua.Proofs.Container.Graph

/-! The conversion of containers. Each gets a new table before its entries are converted, and the conversion
goes the way of `World.visit`; so it ends wherever that walk stays within the limit on nesting. -/

namespace HostedLua.Bridge

open Host World

variable {w : World} {state : Nat} {s : LuaState} {encoding : Value}
variable {τ : Numbering} {σ : Seen} {g : Growth} {t o : Nat}

/-! ### Steps in a world that has grown -/

theorem modifyHeap_after (f : Array Lua.Table → Array Lua.Table) :
    modifyHeap state (fun h => { h with tables := f h.tables }) (w.after state g) =
      some (.ok ⟨⟩, w.after state { g with tables := f g.tables }) := by
  rw [modifyHeap, modifyState_apply]
  have hstates : (w.after state g).states.modify state (fun s => { s with machine := { s.machine with
      heap := { s.machine.heap with tables := f s.machine.heap.tables } } }) =
      (w.after state { g with tables := f g.tables }).states := by
    dsimp only [World.after]
    exact modify_modify _ _
  rw [hstates]
  rfl

theorem newTable_after (hs : w.Opens state s encoding) : newTable state (w.after state g) =
    some (.ok (.obj (w.objects.size + g.objects.size)), w.after state (g.newTable state)) := by
  rw [newTable, bind_ok (state?_apply _ _), after_state hs.found]
  simp only [LuaState.withTables, hs.isOpen, if_true]
  have hnew : modifyHeap state (fun h => h.newTable.1) (w.after state g) =
      some (.ok ⟨⟩, w.after state { g with tables := g.tables.push {} }) := modifyHeap_after (·.push {})
  rw [bind_ok hnew, newObject_apply]
  simp [World.after, Growth.newTable]

theorem pushKey_ok {v : Value} {y : Lua.Value} {k : Lua.Key} (hs : w.states[state]? = some s)
    (h : w.pushed? state s.charset v = some y) (hk : y.key? = .ok k) : pushKey state v w = some (.ok y, w) := by
  cases v with
  | none =>
    obtain rfl := Option.some.inj h
    contradiction
  | _ => exact push_ok hs h

theorem putRaw_after (hs : w.Opens state s encoding)
    (ho : (w.after state g).objects[o]? = some (.guest ⟨state, .table t, false⟩)) {k v : Value} {x y : Lua.Value}
    {κ : Lua.Key} (hk : (w.after state g).pushed? state s.charset k = some x) (hκ : x.key? = .ok κ)
    (hv : (w.after state g).pushed? state s.charset v = some y) :
    putRaw state (.obj o) k v (w.after state g) =
      some (.ok ⟨⟩, w.after state { g with tables := g.tables.modify t (·.set κ y) }) := by
  have hstate : (w.after state g).states[state]? = some (s.withTables g.tables) := after_state hs.found
  rw [putRaw, bind_ok (object_apply _ _), ho, Option.getD_some]
  simp only [bind_ok (pushKey_ok hstate hk hκ), bind_ok (push_ok hstate hv), hκ]
  exact modifyHeap_after (·.modify t (·.set κ y))

/-! ### Containers, one step -/

/-- An entry is converted, its value first, and put into a table. -/
def convertEntry (state depth : Nat) (table : Value) (e : Value × Value) : StateT Seen Bridge Unit := do
  if !skipsKey e.1 then
    let v ← toGuestAt state depth e.2
    let k ← toGuestAt state depth e.1
    putRaw state table k v

theorem exists_items {id : Nat} {es : List (Value × Value)} (h : w.entries? (.obj id) = some es) :
    ∃ c items, w.objects[id]? = some c ∧ items? c = some (items, none) ∧
      es = items.filter fun e => !skipsKey e.1 := by
  simp only [entries?] at h
  split at h
  · rename_i items hitems
    obtain ⟨c, hc, hci⟩ := Option.bind_eq_some_iff.mp hitems
    exact ⟨c, items, hc, hci, (Option.some.inj h).symm⟩
  · contradiction

variable {id depth : Nat} {c : Object} {items : List (Value × Value)}

/-- The keys that entries are made for are not skipped. -/
theorem skipsKey_of_mem {es : List (Value × Value)} (h : w.entries? (.obj id) = some es) {e : Value × Value}
    (he : e ∈ es) : skipsKey e.1 = false := by
  obtain ⟨_, items, _, _, rfl⟩ := exists_items h
  simpa using (List.mem_filter.mp he).2

theorem toGuestAt_seen (hc : w.objects[id]? = some c) (hi : items? c = some (items, none)) {table : Value}
    (hl : σ.lookup id = some table) : toGuestAt state (depth + 1) (.obj id) σ w = some (.ok (table, σ), w) := by
  rw [toGuestAt, seen_bind_ok (lift_ok (object_apply id w)), hc]
  cases c <;> simp_all [items?, seen_bind_ok (seen_get_apply σ w)]

theorem toGuestAt_fresh (hc : w.objects[id]? = some c) (hi : items? c = some (items, none))
    (hl : σ.lookup id = none) {w' : World} (hn : newTable state w = some (.ok (.obj o), w')) :
    toGuestAt state (depth + 1) (.obj id) σ w =
      (do items.forM (convertEntry state depth (.obj o)); return Value.obj o) ((id, .obj o) :: σ) w' := by
  rw [toGuestAt, seen_bind_ok (lift_ok (object_apply id w)), hc, Option.getD_some]
  have hnew := lift_ok (σ := σ) hn
  cases c with
  | list | tuple | dict | proxy =>
    obtain ⟨rfl, -⟩ : _ ∧ True := by simpa [items?] using hi
    simp only [items?, seen_bind_ok (seen_get_apply σ w), hl, seen_bind_ok hnew]
    rfl
  | _ => simp [items?] at hi

/-! ### The way of a conversion -/

/-- A conversion, from tables met and a world grown so far: it succeeds, goes the way of the walk, keeps the
invariant, and gives what is pushed as the image of the value. -/
def Converted (w : World) (state : Nat) (s : LuaState) (encoding : Value) (depth : Nat) (v : Value) (τ : Numbering)
    (σ : Seen) (g : Growth) (seen : List Nat) : Prop :=
  ∃ u τ' σ' g', toGuestAt state depth v σ (w.after state g) = some (.ok (u, σ'), w.after state g') ∧
    τ'.map Prod.fst = seen ∧ (w.after state g').Matches state τ' σ' ∧
    Grows w (w.assigned state s.charset encoding) none τ τ' g g' ∧
    ∃ y, (w.after state g').pushed? state s.charset u = some y ∧
      ∀ ρ : Numbering, ρ.Extends τ' → w.image state s.charset encoding ρ v = y

theorem converted_leaf (hs : w.Opens state s encoding) (hw : state ∈ w.heldStates) {depth : Nat} {v : Value}
    (hv : w.entries? v = none) (hc : w.Converts state s.charset encoding v)
    (hσ : (w.after state g).Matches state τ σ) :
    Converted w state s encoding (depth + 1) v τ σ g (τ.map Prod.fst) := by
  obtain ⟨y, hy⟩ := Option.isSome_iff_exists.mp (hc.leaf hv)
  obtain ⟨u, hu, hpush⟩ := Option.bind_eq_some_iff.mp hy
  obtain ⟨reports, hrun⟩ := toGuestAt_leaf depth (σ := σ) (hs.after (g := g)) hw (leafForm?_after hu)
  refine ⟨u, τ, σ, { g with reports }, hrun, rfl, hσ, .of_reports, y, ?_, fun ρ _ => ?_⟩
  · exact pushed?_of_objects hpush fun _ _ => object_after
  · simp [image_leaf hv, hy]

theorem converted_seen {es : List (Value × Value)} (hes : w.entries? (.obj id) = some es)
    (hid : id ∈ τ.map Prod.fst) (hσ : (w.after state g).Matches state τ σ) :
    Converted w state s encoding (depth + 1) (.obj id) τ σ g (τ.map Prod.fst) := by
  obtain ⟨t, ht⟩ := Numbering.lookup_of_mem hid
  obtain ⟨o, hlookup, hobj⟩ := hσ.lookup ht
  refine ⟨.obj o, τ, σ, g, ?_, rfl, hσ, .refl, .table t, ?_, fun ρ hρ => ?_⟩
  · obtain ⟨c, items, hc, hi, -⟩ := exists_items hes
    exact toGuestAt_seen (object_after hc) hi hlookup
  · simp [pushed?, hobj]
  · rw [image_container (Option.isSome_of_eq_some hes), hρ.lookup ht]
    rfl

theorem convertEntries_cons {table : Value} {e : Value × Value} :
    (e :: items).forM (convertEntry state depth table) =
      (convertEntry state depth table e >>= fun _ => items.forM (convertEntry state depth table)) := rfl

theorem convertEntries_filter {table : Value} :
    (items.forM (convertEntry state depth table)) σ w =
      ((items.filter fun e => !skipsKey e.1).forM (convertEntry state depth table)) σ w := by
  induction items generalizing σ w with
  | nil => rfl
  | cons e items ih =>
    cases hk : skipsKey e.1 with
    | true =>
      have hskip : convertEntry state depth table e σ w = some (.ok (⟨⟩, σ), w) := by simp [convertEntry, hk]
      rw [List.filter_cons_of_neg (by simp [hk]), convertEntries_cons, seen_bind_ok hskip, ih]
    | false =>
      rw [List.filter_cons_of_pos (by simp [hk]), convertEntries_cons, convertEntries_cons]
      rw [seen_bind_apply, seen_bind_apply]
      simp only [ih]

theorem convertEntry_ok {σ₁ σ₂ : Seen} {w₁ w₂ w₃ : World} {t u l : Value} {e : Value × Value}
    (hskip : skipsKey e.1 = false) (hv : toGuestAt state depth e.2 σ w = some (.ok (u, σ₁), w₁))
    (hk : toGuestAt state depth e.1 σ₁ w₁ = some (.ok (l, σ₂), w₂))
    (hput : putRaw state t l u w₂ = some (.ok ⟨⟩, w₃)) :
    convertEntry state depth t e σ w = some (.ok (⟨⟩, σ₂), w₃) := by
  simp only [convertEntry, hskip, Bool.not_false, if_true]
  rw [seen_bind_ok hv, seen_bind_ok hk, lift_ok hput]

/-- The entries of a container, from tables met and a world grown so far, go into its table. -/
theorem converted_entries (hs : w.Opens state s encoding)
    (ih : ∀ v τ σ g seen, w.Convertible state s.charset encoding v → (w.after state g).Matches state τ σ →
      (τ.map Prod.fst).Nodup → w.visit depth (τ.map Prod.fst) v = some seen →
      Converted w state s encoding depth v τ σ g seen)
    {all : List (Value × Value)} (hall : w.entries? (.obj id) = some all)
    (hc : w.Convertible state s.charset encoding (.obj id)) :
    ∀ {es : List (Value × Value)} {τ : Numbering} {σ : Seen} {g : Growth} {T : Lua.Table} {seen : List Nat},
      es ⊆ all → (w.after state g).Matches state τ σ → (τ.map Prod.fst).Nodup →
      (w.after state g).objects[o]? = some (.guest ⟨state, .table t, false⟩) → g.tables[t]? = some T →
      w.visitEntries depth (τ.map Prod.fst) es = some seen →
      ∃ τ' σ' g', (es.forM (convertEntry state depth (.obj o))) σ (w.after state g) =
          some (.ok (⟨⟩, σ'), w.after state g') ∧
        τ'.map Prod.fst = seen ∧ (w.after state g').Matches state τ' σ' ∧
        Grows w (w.assigned state s.charset encoding) (some t) τ τ' g g' ∧
        ∀ ρ : Numbering, ρ.Extends τ' →
          g'.tables[t]? = some (es.foldl (assign (w.image state s.charset encoding ρ)) T) := by
  intro es
  induction es with
  | nil =>
    intro τ σ g T seen _ hσ _ _ hT hseen
    obtain rfl := Option.some.inj hseen
    exact ⟨τ, σ, g, rfl, rfl, hσ, .refl, fun ρ _ => hT⟩
  | cons e es ihe =>
    intro τ σ g T seen hsub hσ hnodup ho hT hseen
    have hmem : e ∈ all := hsub (List.mem_cons_self ..)
    have ht : t < g.tables.size := (Array.getElem?_eq_some_iff.mp hT).1
    obtain ⟨s₁, s₂, h₁, h₂, h₃⟩ := visitEntries_cons.mp hseen
    obtain ⟨u, τ₁, σ₁, g₁, hrun₁, rfl, hσ₁, hg₁, y, hy, hv⟩ :=
      ih _ _ _ _ _ (hc.part ⟨all, hall, e, hmem, .inr rfl⟩) hσ hnodup h₁
    obtain ⟨l, τ₂, σ₂, g₂, hrun₂, rfl, hσ₂, hg₂, x, hx, hk⟩ :=
      ih _ _ _ _ _ (hc.part ⟨all, hall, e, hmem, .inl rfl⟩) hσ₁ ((walked_of_visit h₁).nodup hnodup) h₂
    have hnodup₂ : (τ₂.map Prod.fst).Nodup := (walked_of_visit h₂).nodup ((walked_of_visit h₁).nodup hnodup)
    obtain ⟨κ, hκ⟩ : ∃ κ, x.key? = .ok κ := by
      rw [← hk τ₂ ⟨List.suffix_refl _, hnodup₂⟩]
      refine (hc _ .refl).key hall hmem fun c hce hcont => ?_
      exact Numbering.lookup_of_mem ((walked_of_visit h₂).root c (by simp [hce]) (hce ▸ hcont))
    have hput := putRaw_after hs (hg₂.object (hg₁.object ho)) hx hκ (pushed?_of_objects hy fun _ _ => hg₂.object)
    -- The table under way has been left alone so far, and now takes the entry.
    have hT₂ : g₂.tables[t]? = some T := by
      rw [hg₂.kept t (ht.trans_le hg₁.size_le) (by simp), hg₁.kept t ht (by simp), hT]
    have hT₃ : (g₂.tables.modify t (·.set κ y))[t]? = some (T.set κ y) := by simp [Array.getElem?_modify, hT₂]
    obtain ⟨τ', σ', g', hrun, hseen', hσ', hg', hT'⟩ := ihe (fun a ha => hsub (List.mem_cons_of_mem _ ha))
      (g := { g₂ with tables := g₂.tables.modify t (·.set κ y) }) hσ₂ hnodup₂ (hg₂.object (hg₁.object ho)) hT₃ h₃
    have hlt : ∀ i, some t = some i → i < g.tables.size := fun i hi => Option.some.inj hi ▸ ht
    refine ⟨τ', σ', g', ?_, hseen', hσ', ?_, fun ρ hρ => ?_⟩
    · rw [convertEntries_cons, seen_bind_ok (convertEntry_ok (skipsKey_of_mem hall hmem) hrun₁ hrun₂ hput), hrun]
    · exact ((hg₁.weaken.trans hg₂.weaken hlt).trans .put hlt).trans hg' hlt
    · have hρ₂ := hρ.trans hg'.suffix
      rw [hT' ρ hρ, List.foldl_cons, assign, hk ρ hρ₂, hκ, hv ρ (hρ₂.trans hg₂.suffix)]

theorem converted_fresh (hs : w.Opens state s encoding)
    (ih : ∀ v τ σ g seen, w.Convertible state s.charset encoding v → (w.after state g).Matches state τ σ →
      (τ.map Prod.fst).Nodup → w.visit depth (τ.map Prod.fst) v = some seen →
      Converted w state s encoding depth v τ σ g seen)
    {es : List (Value × Value)} (hes : w.entries? (.obj id) = some es)
    (hc : w.Convertible state s.charset encoding (.obj id)) (hid : id ∉ τ.map Prod.fst)
    (hσ : (w.after state g).Matches state τ σ) (hnodup : (τ.map Prod.fst).Nodup) {seen : List Nat}
    (hseen : w.visitEntries depth (id :: τ.map Prod.fst) es = some seen) :
    Converted w state s encoding (depth + 1) (.obj id) τ σ g seen := by
  have hobj := w.object_newTable state g
  obtain ⟨τ', σ', g', hrun, hseen', hσ', hg', hT⟩ := converted_entries hs ih hes hc (List.Subset.refl es)
    (hσ.newTable id) (List.nodup_cons.mpr ⟨hid, hnodup⟩) hobj Array.getElem?_push_size hseen
  obtain ⟨c, items, hcid, hi, hitems⟩ := exists_items hes
  refine ⟨.obj (w.objects.size + g.objects.size), τ', σ', g', ?_, hseen', hσ', hg'.close hes hT,
    .table g.tables.size, ?_, fun ρ hρ => ?_⟩
  · have hfresh := hσ.lookup_none (Numbering.lookup_of_not_mem hid)
    rw [toGuestAt_fresh (object_after hcid) hi hfresh (newTable_after hs)]
    rw [seen_bind_apply, convertEntries_filter, ← hitems, hrun]
    rfl
  · simp [pushed?, hg'.object hobj]
  · have hn : ρ.lookup id = some g.tables.size := (hρ.trans hg'.suffix).lookup List.lookup_cons_self
    rw [image_container (Option.isSome_of_eq_some hes), hn]
    rfl

/-- A conversion goes the way of the walk through its value. -/
theorem converted (hs : w.Opens state s encoding) (hw : state ∈ w.heldStates) :
    ∀ depth v τ σ g seen, w.Convertible state s.charset encoding v → (w.after state g).Matches state τ σ →
      (τ.map Prod.fst).Nodup → w.visit depth (τ.map Prod.fst) v = some seen →
      Converted w state s encoding depth v τ σ g seen := by
  intro depth
  induction depth with
  | zero => simp [visit]
  | succ depth ih =>
    intro v τ σ g seen hc hσ hnodup hseen
    cases hes : w.entries? v with
    | none =>
      obtain rfl := Option.some.inj ((visit_leaf hes).symm.trans hseen)
      exact converted_leaf hs hw hes (hc v .refl) hσ
    | some es =>
      obtain ⟨id, rfl⟩ := exists_obj_of_entries? hes
      by_cases hid : id ∈ τ.map Prod.fst
      · obtain rfl := Option.some.inj ((visit_seen hid).symm.trans hseen)
        exact converted_seen hes hid hσ
      · rw [visit_fresh hes hid] at hseen
        exact converted_fresh hs ih hes hc hid hσ hnodup hseen

end HostedLua.Bridge
