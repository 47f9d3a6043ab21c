import HostedLua.Host.Run
import HostedLua.Proofs.Container.Reading
import HostedLua.Proofs.Container.Shape
import HostedLua.Proofs.Lua.Table
import Mathlib.Data.List.Perm.Basic

/-! Deep copies through Lua. A value made up of scalars, sequences and mappings goes to Lua as tables; the
tables come back behind handles, and their mappings, opened all the way down, are the value's norm. -/

namespace HostedLua.Bridge

open Host World

variable {w : World} {state : Nat} {s : LuaState} {encoding v : Value} {y : Lua.Value} {depth t o : Nat}

/-- A value with every table handle in it replaced by the mapping that it stands for. -/
def readBack (E : Engine) : (depth : Nat) → Value → Bridge Reading
  | 0, _ => failNesting
  | depth + 1, v => do
    match ← handle? v with
    | some (_, h) =>
      if h.kind = .table then
        let entries ← toMapping E h
        return .dict (← entries.mapM fun (k, x) => do return (k, ← readBack E depth x))
      else return .scalar v
    | none => return .scalar v

/-- A value goes to Lua, which gives it back as it is. -/
def roundTrip (E : Engine) (state : Nat) (v : Value) : Bridge Value := do
  let y ← push state (← toGuest state v)
  toHost E state (← fetch state y)

/-- A value that has gone to Lua and come back is read all the way down. -/
def deepCopy (E : Engine) (state : Nat) (v : Value) : Bridge Reading :=
  holding [v] state do
    let depth := (← get).limits.nesting + 1
    readBack E depth (← roundTrip E state v)

/-! ### One mapping -/

theorem requireState_ok {h : Handle} {what : Text} (hs : w.Serves state s encoding) (hw : state ∈ w.heldStates)
    (hstate : h.state = state) (hguest : h.guest = .obj o) : requireState h what w = some (.ok (some s), w) := by
  subst hstate
  rw [requireState, bind_ok (valid_apply _ w), hs.valid_eq hw, Handle.stands, hguest]
  simp [hs.found]

/-- The mapping of a table handle has the entries of the table. -/
theorem toMapping_ok (E : Engine) (hs : w.Serves state s encoding) (hw : state ∈ w.heldStates)
    (ho : w.objects[o]? = some (.guest ⟨state, .table t, false⟩))
    (hl : ∀ p ∈ (s.machine.heap.table t).toList, (∃ k, fetched s state p.1.value = .inl k ∧ k.IsCovered s.charset) ∧
      Readable state s p.2)
    (hdistinct : (s.machine.heap.table t).toList.Pairwise fun p q => ∀ k l, fetched s state p.1.value = .inl k →
      fetched s state q.1.value = .inl l → k.scalarEq l = false) :
    ∃ rs os, toMapping E { kind := .table, state, guest := .obj o } w = some (.ok rs, w.more os) ∧
      List.Forall₂ (ShownEntry (w.more os) state s) (s.machine.heap.table t).toList rs := by
  let held : World := { w with held := [.obj o] ++ w.held, heldStates := state :: w.heldStates }
  have hheld : held.Serves state s encoding := hs.mono rfl rfl
  obtain ⟨items, os, hitems, hfetched⟩ := tableItems_ok hheld hl
  have hwalk : walk (.obj o) held = some (.ok (items, none), held.more os) := by
    rw [walk, bind_ok (object_apply o held), show held.objects[o]? = _ from ho, Option.getD_some]
    exact bind_ok hitems
  have hkeys : items.Pairwise fun q r => q.1.scalarEq r.1 = false :=
    pairwise_of_forall₂ (fun hp hq hne => hne _ _ hp.1 hq.1) hfetched hdistinct
  obtain ⟨rs, os', hrs, hshown⟩ := foldlM_collect_ok E hheld.more hfetched hkeys
    (fun a (ha : a ∈ []) => absurd ha List.not_mem_nil)
  refine ⟨rs, os ++ os', ?_, ?_⟩
  · rw [toMapping, bind_ok (requireState_ok hs hw rfl rfl)]
    refine holding_more (a := rs) ?_
    refine (bind_ok hwalk).trans ?_
    rw [← more_more]
    exact hrs
  · rw [more_more] at hshown
    exact hshown

/-! ### Tables that mirror entries -/

theorem exists_map_of_perm {α β : Type} {f : α → β} {l : List β} {m : List α} (h : l.Perm (m.map f)) :
    ∃ m' : List α, l = m'.map f ∧ m'.Perm m := by
  have hcomp : Relation.Comp (· = List.map f ·) List.Perm l m := by
    rw [List.eq_map_comp_perm]
    exact h
  exact hcomp

def luaKey (y : Lua.Value) : Lua.Key := (y.key?.toOption).getD .stdout

def luaEntry (f : Value → Lua.Value) (e : Value × Value) : Lua.Key × Lua.Value := (luaKey (f e.1), f e.2)

/-- Entries as they are assigned: their keys are keys in Lua and are fetched as the keys that come back, and
only none becomes nil. -/
structure Assigns (state : Nat) (s : LuaState) (f : Value → Lua.Value) (es : List (Value × Value)) : Prop where
  covered : ∀ e ∈ es, e.1.IsCovered s.charset ∧ skipsKey e.1 = false
  key : ∀ e ∈ es, (f e.1).key? = .ok (luaKey (f e.1))
  fetched : ∀ e ∈ es, World.fetched s state (luaKey (f e.1)).value = .inl e.1.keyBack
  isNil : ∀ e ∈ es, (f e.2).isNil = e.2.isNone
  distinct : es.Pairwise fun a b => a.1.scalarEq b.1 = false

theorem Assigns.back_ne {f : Value → Lua.Value} {es : List (Value × Value)} (h : Assigns state s f es) :
    es.Pairwise fun a b => a.1.keyBack.scalarEq b.1.keyBack = false := by
  refine h.distinct.imp_of_mem fun {a b} ha hb hne => ?_
  by_contra hback
  have heq := scalarEq_of_keyBack (h.covered a ha).1 (h.covered b hb).1 (by simpa using hback)
  rw [hne] at heq
  contradiction

/-- Keys that come back differ whatever the order of their entries. -/
theorem Assigns.back_ne_perm {f : Value → Lua.Value} {es es' : List (Value × Value)} (h : Assigns state s f es)
    (hsub : List.Sublist es' es) {es'' : List (Value × Value)} (hperm : es''.Perm es') :
    es''.Pairwise fun a b => a.1.keyBack.scalarEq b.1.keyBack = false := by
  have hmem : ∀ a ∈ es'', a ∈ es := fun a ha => hsub.subset (hperm.subset ha)
  have hboth : es''.Pairwise fun a b => a.1.keyBack.scalarEq b.1.keyBack = false ∧
      b.1.keyBack.scalarEq a.1.keyBack = false := by
    refine (hperm.pairwise_iff fun hab => ⟨hab.2, hab.1⟩).mpr ?_
    refine (h.back_ne.sublist hsub).imp_of_mem fun {a b} ha hb hne => ⟨hne, ?_⟩
    by_contra hback
    have ha := isCovered_keyBack (h.covered a (hsub.subset ha)).1
    have hb := isCovered_keyBack (h.covered b (hsub.subset hb)).1
    rw [scalarEq_symm hb ha (by simpa using hback)] at hne
    contradiction
  exact hboth.imp And.left

theorem Assigns.nodup {f : Value → Lua.Value} {es : List (Value × Value)} (h : Assigns state s f es) :
    ((es.map (luaEntry f)).map Prod.fst).Nodup := by
  rw [List.map_map, List.Nodup, List.pairwise_map]
  refine h.back_ne.imp_of_mem fun {a b} ha hb hne heq => ?_
  have hkey : luaKey (f a.1) = luaKey (f b.1) := heq
  have hback : a.1.keyBack = b.1.keyBack := by
    have ha' := h.fetched a ha
    rw [hkey, h.fetched b hb] at ha'
    exact (Sum.inl.inj ha').symm
  rw [hback, scalarEq_keyBack_self (h.covered b hb).1 (h.covered b hb).2] at hne
  contradiction

theorem Assigns.toList {f : Value → Lua.Value} {es : List (Value × Value)} (h : Assigns state s f es) :
    (es.foldl (assign f) {}).toList.Perm ((es.filter fun e => !e.2.isNone).map (luaEntry f)) := by
  have hput : es.foldl (assign f) {} = Lua.Table.putAll {} (es.map (luaEntry f)) := by
    rw [Lua.Table.putAll, List.foldl_map]
    refine List.foldl_ext _ _ _ fun T e he => ?_
    rw [assign, h.key e he]
    rfl
  have hfilter : (es.map (luaEntry f)).filter (fun p => !p.2.isNil) =
      (es.filter fun e => !e.2.isNone).map (luaEntry f) := by
    rw [List.filter_map]
    refine congrArg _ (List.filter_congr fun e he => ?_)
    show (!(f e.2).isNil) = !e.2.isNone
    rw [h.isNil e he]
  rw [hput, ← hfilter]
  exact Lua.Table.toList_putAll h.nodup

/-! ### All the way down -/

variable {w₀ : World} {v₀ : Value} {τ : Numbering}

/-- The tables of the containers that occur in a value hold what their entries assign. -/
def Filled (w₀ : World) (state : Nat) (s : LuaState) (encoding : Value) (τ : Numbering) (v₀ : Value) : Prop :=
  ∀ id es, w₀.entries? (.obj id) = some es → w₀.Occurs v₀ (.obj id) → ∃ t, τ.lookup id = some t ∧
    s.machine.heap.table t = es.foldl (assign (w₀.image state s.charset encoding τ)) {}

theorem image_isNil (he : encoding ≠ .none) (hfull : Filled w₀ state s encoding τ v₀)
    (hv : w₀.Covered s.charset depth v) (hocc : w₀.Occurs v₀ v) :
    (w₀.image state s.charset encoding τ v).isNil = v.isNone ∧
      Readable state s (w₀.image state s.charset encoding τ v) := by
  rcases hv.cases with hs | ⟨d, es, rfl, hentries⟩
  · obtain ⟨y, hy, hback, hnil⟩ := leaf?_of_isCovered w₀ state he hs
    rw [image_leaf (entries?_of_isCovered hs), hy]
    exact ⟨hnil, .inl ⟨v, hback, hs⟩⟩
  · obtain ⟨id, rfl⟩ := exists_obj_of_entries? hentries.entries
    obtain ⟨t, ht, _⟩ := hfull id es hentries.entries hocc
    rw [image_container (Option.isSome_of_eq_some hentries.entries), ht]
    exact ⟨rfl, .inr ⟨t, rfl⟩⟩

theorem assigns (he : encoding ≠ .none) (hfull : Filled w₀ state s encoding τ v₀) {es : List (Value × Value)}
    (hentries : w₀.Entries s.charset depth v es) (hocc : w₀.Occurs v₀ v) :
    Assigns state s (w₀.image state s.charset encoding τ) es := by
  have hkey : ∀ e ∈ es, (w₀.image state s.charset encoding τ e.1).key? =
      .ok (luaKey (w₀.image state s.charset encoding τ e.1)) ∧
      World.fetched s state (luaKey (w₀.image state s.charset encoding τ e.1)).value = .inl e.1.keyBack := by
    intro e hmem
    obtain ⟨hk, hskip, _⟩ := hentries.covered e hmem
    obtain ⟨y, κ, hy, hκ, hback⟩ := key_of_isCovered w₀ state he hk hskip
    have hy' : w₀.image state s.charset encoding τ e.1 = y := by
      rw [image_leaf (entries?_of_isCovered hk), hy]
      rfl
    have hluaKey : luaKey y = κ := by
      rw [luaKey, hκ]
      rfl
    rw [hy', hluaKey]
    exact ⟨hκ, hback⟩
  exact {
    covered := fun e hmem => ⟨(hentries.covered e hmem).1, (hentries.covered e hmem).2.1⟩
    key := fun e hmem => (hkey e hmem).1
    fetched := fun e hmem => (hkey e hmem).2
    isNil := fun e hmem => (image_isNil he hfull (hentries.covered e hmem).2.2
      (hocc.tail ⟨es, hentries.entries, e, hmem, .inr rfl⟩)).1
    distinct := hentries.distinct }

theorem handle?_scalar {cs : Charset} (h : v.IsCovered cs) : handle? v w = some (.ok none, w) := by
  cases v <;> first | rfl | exact h.elim

theorem readBack_entries (E : Engine)
    (ih : ∀ {v h : Value} {w : World}, w₀.Covered s.charset depth v → w₀.Occurs v₀ v → w.Serves state s encoding →
      state ∈ w.heldStates → Shows w state s (w₀.image state s.charset encoding τ v) h →
      ∃ r os, readBack E depth h w = some (.ok r, w.more os) ∧ (w₀.norm depth v).Same r)
    (hs : w.Serves state s encoding) (hw : state ∈ w.heldStates) {f : Value → Lua.Value}
    (hf : f = w₀.image state s.charset encoding τ) {es rs : List (Value × Value)}
    (hes : ∀ e ∈ es, (e.1.IsCovered s.charset ∧ skipsKey e.1 = false) ∧
      World.fetched s state (luaKey (f e.1)).value = .inl e.1.keyBack ∧ w₀.Covered s.charset depth e.2 ∧
      w₀.Occurs v₀ e.2)
    (hrs : List.Forall₂ (fun e r => ShownEntry w state s (luaEntry f e) r) es rs) :
    ∃ (bs : List (Value × Reading)) (os : Array Object),
      (rs.mapM (fun (k, x) => do return (k, ← readBack E depth x)) : Bridge _) w = some (.ok bs, w.more os) ∧
      List.Forall₂ (fun e b => e.1.scalarEq b.1 = true ∧ (w₀.norm depth e.2).Same b.2) es bs := by
  subst hf
  refine mapM_more (P := fun _ (e : Value × Value) (b : Value × Reading) =>
    e.1.scalarEq b.1 = true ∧ (w₀.norm depth e.2).Same b.2) (fun h => h) ?_
  refine ((List.forall₂_and_left _ _).mpr ⟨hes, hrs⟩).imp ?_
  rintro e ⟨k, h⟩ ⟨⟨⟨hcov, hskip⟩, hback, hv, hocc⟩, hk, _, hshows⟩ os
  obtain ⟨r, os', hr, hsame⟩ := ih hv hocc hs.more hw hshows.more
  obtain rfl : k = e.1.keyBack := (Sum.inl.inj (hback.symm.trans hk)).symm
  refine ⟨(e.1.keyBack, r), os', ?_, scalarEq_keyBack hcov hskip, hsame⟩
  exact (bind_ok hr).trans rfl

/-- A scalar is shown as it is. -/
theorem shows_scalar (he : encoding ≠ .none) (hv : v.IsCovered s.charset) {h : Value}
    (hshows : Shows w state s (w₀.image state s.charset encoding τ v) h) : h = v := by
  obtain ⟨y, hy, hback, _⟩ := leaf?_of_isCovered w₀ state he hv
  have hy' : w₀.image state s.charset encoding τ v = y := by
    rw [image_leaf (entries?_of_isCovered hv), hy]
    rfl
  rw [hy'] at hshows
  rcases hshows with ⟨hh, _⟩ | ⟨t, _, _, rfl, _⟩
  · exact (Sum.inl.inj (hback.symm.trans hh)).symm
  · contradiction

/-- A table is shown behind a handle. -/
theorem shows_table {h : Value} (hshows : Shows w state s (.table t) h) :
    ∃ o hid, h = .obj hid ∧ w.objects[hid]? = some (.handle { kind := .table, state, guest := .obj o }) ∧
      w.objects[o]? = some (.guest ⟨state, .table t, false⟩) := by
  rcases hshows with ⟨hh, _⟩ | ⟨_, o, hid, heq, hh, hobj, ho⟩
  · contradiction
  · obtain rfl := Lua.Value.table.inj heq
    exact ⟨o, hid, hh, hobj, ho⟩

/-- The mapping of a table that holds what entries assign, whatever order the table has them in. -/
theorem toMapping_assigned (E : Engine) (hs : w.Serves state s encoding) (hw : state ∈ w.heldStates)
    (ho : w.objects[o]? = some (.guest ⟨state, .table t, false⟩)) {f : Value → Lua.Value}
    {es es' : List (Value × Value)} (hassigns : Assigns state s f es)
    (hreadable : ∀ e ∈ es, Readable state s (f e.2))
    (hlist : (s.machine.heap.table t).toList = es'.map (luaEntry f))
    (hperm : es'.Perm (es.filter fun e => !e.2.isNone)) :
    ∃ rs os, toMapping E { kind := .table, state, guest := .obj o } w = some (.ok rs, w.more os) ∧
      List.Forall₂ (fun e r => ShownEntry (w.more os) state s (luaEntry f e) r) es' rs := by
  have hmem : ∀ e ∈ es', e ∈ es := fun e hmem => List.mem_of_mem_filter (hperm.subset hmem)
  have hl : ∀ p ∈ (s.machine.heap.table t).toList,
      (∃ k, fetched s state p.1.value = .inl k ∧ k.IsCovered s.charset) ∧ Readable state s p.2 := by
    rw [hlist]
    intro p hp
    obtain ⟨e, he, rfl⟩ := List.mem_map.mp hp
    exact ⟨⟨_, hassigns.fetched e (hmem e he), isCovered_keyBack (hassigns.covered e (hmem e he)).1⟩,
      hreadable e (hmem e he)⟩
  have hdistinct : (s.machine.heap.table t).toList.Pairwise fun p q => ∀ k l,
      fetched s state p.1.value = .inl k → fetched s state q.1.value = .inl l → k.scalarEq l = false := by
    rw [hlist, List.pairwise_map]
    refine (hassigns.back_ne_perm List.filter_sublist hperm).imp_of_mem fun {a b} ha hb hne k l hk hl => ?_
    obtain rfl := Sum.inl.inj ((hassigns.fetched a (hmem a ha)).symm.trans hk)
    obtain rfl := Sum.inl.inj ((hassigns.fetched b (hmem b hb)).symm.trans hl)
    exact hne
  obtain ⟨rs, os, hrun, hrs⟩ := toMapping_ok E hs hw ho hl hdistinct
  rw [hlist, List.forall₂_map_left_iff] at hrs
  exact ⟨rs, os, hrun, hrs⟩

/-- A covered value in its host form is read as its norm. -/
theorem readBack_ok (E : Engine) (he : encoding ≠ .none) (hfull : Filled w₀ state s encoding τ v₀) :
    ∀ {depth : Nat} {v h : Value} {w : World}, w₀.Covered s.charset depth v → w₀.Occurs v₀ v →
      w.Serves state s encoding → state ∈ w.heldStates →
      Shows w state s (w₀.image state s.charset encoding τ v) h →
      ∃ r os, readBack E depth h w = some (.ok r, w.more os) ∧ (w₀.norm depth v).Same r := by
  intro depth
  induction depth with
  | zero =>
    intro v h w hv
    cases hv
  | succ depth ih =>
    intro v h w hv hocc hs hw hshows
    rcases hv.cases with hscalar | ⟨d, es, hd, hentries⟩
    · obtain rfl : h = v := shows_scalar he hscalar hshows
      refine ⟨.scalar h, #[], ?_, norm_scalar hscalar ▸ .scalar⟩
      rw [readBack, bind_ok (handle?_scalar hscalar), more_empty]
      rfl
    · obtain rfl : depth = d := by omega
      obtain ⟨id, rfl⟩ := exists_obj_of_entries? hentries.entries
      obtain ⟨t, ht, htable⟩ := hfull id es hentries.entries hocc
      rw [image_container (Option.isSome_of_eq_some hentries.entries), ht] at hshows
      obtain ⟨o, hid, rfl, hobj, ho⟩ := shows_table hshows
      have hocc' : ∀ e ∈ es, w₀.Occurs v₀ e.2 := fun e hmem => hocc.tail ⟨es, hentries.entries, e, hmem, .inr rfl⟩
      have hassigns := assigns he hfull hentries hocc
      have hreadable : ∀ e ∈ es, Readable state s (w₀.image state s.charset encoding τ e.2) := fun e hmem =>
        (image_isNil he hfull (hentries.covered e hmem).2.2 (hocc' e hmem)).2
      -- The table lists its entries in an order of its own, without those that assign nil.
      obtain ⟨es', hlist, hperm⟩ := exists_map_of_perm (htable ▸ hassigns.toList)
      have hmem : ∀ e ∈ es', e ∈ es := fun e hmem => List.mem_of_mem_filter (hperm.subset hmem)
      obtain ⟨rs, os, hrun, hrs⟩ := toMapping_assigned E hs hw ho hassigns hreadable hlist hperm
      obtain ⟨bs, os', hbs, hread⟩ := readBack_entries E (fun hv hocc => ih hv hocc) (s := s) hs.more hw rfl
        (fun e hmem' => ⟨hassigns.covered e (hmem e hmem'), hassigns.fetched e (hmem e hmem'),
          (hentries.covered e (hmem e hmem')).2.2, hocc' e (hmem e hmem')⟩) hrs
      have hhandle : handle? (.obj hid) w =
          some (.ok (some (hid, { kind := .table, state, guest := .obj o })), w) := by
        rw [handle?, bind_ok (object_apply hid w), hobj]
        rfl
      refine ⟨.dict bs, os ++ os', ?_, ?_⟩
      · rw [readBack, bind_ok hhandle]
        simp only [if_true]
        rw [bind_ok hrun, bind_ok hbs, more_more]
        rfl
      · rw [hentries.norm_eq]
        refine .of_forall₂ (hperm.symm.map _) ?_
        rw [List.forall₂_map_left_iff]
        exact hread

theorem filled_of_mirrors {ts : Array Lua.Table}
    (h : w₀.Mirrors state s.charset encoding v₀ s.machine.heap.tables ts τ) :
    Filled w₀ state (s.withTables ts) encoding τ v₀ := by
  intro id es hes hocc
  have hid : id ∈ τ.map Prod.fst := (h.occurs id).mpr ⟨Option.isSome_of_eq_some hes, hocc⟩
  obtain ⟨t, ht⟩ := Numbering.lookup_of_mem hid
  have hmem : (id, t) ∈ τ := by
    obtain ⟨l₁, l₂, rfl, _⟩ := List.lookup_eq_some_iff.mp ht
    simp
  refine ⟨t, ht, ?_⟩
  show (ts[t]?).getD {} = _
  rw [h.filled (id, t) hmem es hes]
  rfl

/-- The deep copy of a covered value is its norm. -/
theorem deepCopy_norm (E : Engine) (hs : w.Serves state s encoding) (he : encoding ≠ .none)
    (hv : w.Covered s.charset (w.limits.nesting + 1) v) :
    ∃ r w', deepCopy E state v w = some (.ok r, w') ∧ (w.norm (w.limits.nesting + 1) v).Same r := by
  let held : World := { w with held := [v] ++ w.held, heldStates := state :: w.heldStates }
  have ho : held.objects = w.objects := rfl
  have hheld : held.Serves state s encoding := hs.mono rfl rfl
  have hv' : held.Covered s.charset (w.limits.nesting + 1) v := hv.congr ho
  obtain ⟨u, τ, g, hrun, hmirrors, hpushed⟩ :=
    exists_mirrors_of_held hheld.toOpens (List.mem_cons_self ..) (hv'.convertible he) (hv'.visit [])
  -- From here on the tables of the state are those that the conversion has filled.
  let s' := s.withTables g.tables
  have hafter : (held.after state g).Serves state s' encoding :=
    ⟨hheld.toOpens.after, hheld.hasIntegers, hheld.charset⟩
  have hfull : Filled held state s' encoding τ v := filled_of_mirrors hmirrors
  have hpush : push state u (held.after state g) =
      some (.ok (held.image state s'.charset encoding τ v), held.after state g) := push_ok hafter.found hpushed
  obtain ⟨x, os, hx, hfetched⟩ := fetch_readable hafter.found (image_isNil he hfull hv' .refl).2
  obtain ⟨h, os', hh, hshows⟩ := toHost_fetched E hafter.more hfetched
  obtain ⟨r, os'', hr, hsame⟩ :=
    readBack_ok E he hfull (s := s') hv' .refl hafter.more.more (List.mem_cons_self ..) hshows
  have hback : roundTrip E state v held = some (.ok h, ((held.after state g).more os).more os') := by
    rw [roundTrip, bind_ok hrun, bind_ok hpush, bind_ok hx, hh]
  have hcopy : (do readBack E ((← get).limits.nesting + 1) (← roundTrip E state v) : Bridge Reading) held =
      some (.ok r, (((held.after state g).more os).more os').more os'') := by
    rw [bind_ok (get_apply held), bind_ok hback]
    exact hr
  exact ⟨r, _, holding_ok hcopy, norm_congr ho ▸ hsame⟩

/-- A mapping with a hole in a list comes back from a state that never called Lua. -/
theorem deepCopy_norm_hole :
    let s : LuaState := { config := 0, diagnostics := 0, charset := .utf8, machine := { heap := {} }, globals := 0 }
    let w : World := { objects := #[.nothing, .list [.int 7, .none, .bool true],
                         .dict [(.text [97], .obj 1), (.none, .int 2)]],
                       configs := #[{}], diagnostics := #[[]], states := #[s] }
    w.Serves 0 s (.text "UTF-8") ∧ Value.text "UTF-8" ≠ .none ∧ w.Covered .utf8 901 (.obj 2) ∧
      w.norm 901 (.obj 2) =
        .dict [(.text [97], .dict [(.int 1, .scalar (.int 7)), (.int 3, .scalar (.bool true))])] ∧
      ∃ r w', deepCopy (engine 1) 0 (.obj 2) w = some (.ok r, w') ∧ (w.norm 901 (.obj 2)).Same r := by
  intro s w
  have hs : w.Serves 0 s (.text "UTF-8") := ⟨⟨rfl, rfl, rfl⟩, rfl, .inr (by decide +kernel)⟩
  have he : Value.text "UTF-8" ≠ .none := by simp
  have hlist : w.Covered .utf8 900 (.obj 1) := by
    refine .sequence (.inl rfl) (by decide) fun x hx => .scalar ?_
    simp only [List.mem_cons, List.not_mem_nil, or_false] at hx
    rcases hx with rfl | rfl | rfl
    · exact ⟨by decide, by decide⟩
    · trivial
    · trivial
  have hv : w.Covered .utf8 901 (.obj 2) := by
    refine .dict rfl (fun e he => ?_) (fun e he => ?_) (by simp [Value.scalarEq, Value.int?])
    · rcases List.mem_pair.mp he with rfl | rfl
      · exact ⟨by decide, [97], rfl⟩
      · trivial
    · rcases List.mem_pair.mp he with rfl | rfl
      · exact hlist
      · exact .scalar ⟨by decide, by decide⟩
  exact ⟨hs, he, hv, rfl, deepCopy_norm _ hs he hv⟩

end HostedLua.Bridge
