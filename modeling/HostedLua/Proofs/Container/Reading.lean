import HostedLua.Host.Handle
import HostedLua.Proofs.Container.Norm
import HostedLua.Proofs.Crossing.PassThrough

/-! Tables as the host reads them. The entries of a table reach the host one by one, scalars as they are and
tables behind handles; keys that differ on the host stay apart. Reading adds objects and changes nothing. -/

namespace HostedLua.Bridge

open Host World

variable {w : World} {state : Nat} {s : LuaState} {encoding x v : Value} {y : Lua.Value} {os : Array Object}

/-! ### Values -/

/-- A Lua value is a covered scalar or a table. -/
def Readable (state : Nat) (s : LuaState) (y : Lua.Value) : Prop :=
  (∃ x, fetched s state y = .inl x ∧ x.IsCovered s.charset) ∨ ∃ t, y = .table t

def Fetched (w : World) (state : Nat) (s : LuaState) (y : Lua.Value) (x : Value) : Prop :=
  (fetched s state y = .inl x ∧ x.IsCovered s.charset) ∨
    ∃ t o, y = .table t ∧ x = .obj o ∧ w.objects[o]? = some (.guest ⟨state, .table t, false⟩)

def Shows (w : World) (state : Nat) (s : LuaState) (y : Lua.Value) (v : Value) : Prop :=
  (fetched s state y = .inl v ∧ v.IsCovered s.charset) ∨
    ∃ t o id, y = .table t ∧ v = .obj id ∧
      w.objects[id]? = some (.handle { kind := .table, state, guest := .obj o }) ∧
      w.objects[o]? = some (.guest ⟨state, .table t, false⟩)

theorem Fetched.more (h : Fetched w state s y x) : Fetched (w.more os) state s y x := by
  rcases h with h | ⟨t, o, hy, hx, ho⟩
  · exact .inl h
  · exact .inr ⟨t, o, hy, hx, object_more ho⟩

theorem Shows.more (h : Shows w state s y v) : Shows (w.more os) state s y v := by
  rcases h with h | ⟨t, o, id, hy, hx, hid, ho⟩
  · exact .inl h
  · exact .inr ⟨t, o, id, hy, hx, object_more hid, object_more ho⟩

theorem fetch_readable (hs : w.states[state]? = some s) (hy : Readable state s y) :
    ∃ x os, fetch state y w = some (.ok x, w.more os) ∧ Fetched (w.more os) state s y x := by
  rcases hy with ⟨x, hx, hc⟩ | ⟨t, rfl⟩
  · exact ⟨x, #[], by rw [fetch_inl hs hx, more_empty], .inl ⟨hx, hc⟩⟩
  · refine ⟨.obj w.objects.size, #[.guest ⟨state, .table t, false⟩], ?_, ?_⟩
    · rw [fetch_inr hs rfl, World.more, Array.push_eq_append]
    · exact .inr ⟨t, _, rfl, rfl, by simp [World.more]⟩

theorem toHost_scalar (E : Engine) (hs : w.Serves state s encoding) (hx : x.IsCovered s.charset) :
    toHost E state x w = some (.ok x, w) := by
  cases x with
  | none | bool | int => rfl
  | float x =>
    rw [toHost, bind_ok (state?_apply state w), hs.found]
    simp [hs.hasIntegers]
  | text t =>
    rw [toHost, bind_ok (configOf_apply hs.found)]
    unfold hostText
    rw [if_pos hx.1, pure_apply]
  | _ => exact hx.elim

theorem toHost_fetched (E : Engine) (hs : w.Serves state s encoding) (h : Fetched w state s y x) :
    ∃ v os, toHost E state x w = some (.ok v, w.more os) ∧ Shows (w.more os) state s y v := by
  rcases h with ⟨hx, hc⟩ | ⟨t, o, rfl, rfl, ho⟩
  · exact ⟨x, #[], by rw [toHost_scalar E hs hc, more_empty], .inl ⟨hx, hc⟩⟩
  · let h : Handle := { kind := .table, state, guest := .obj o }
    refine ⟨.obj w.objects.size, #[.handle h], ?_, ?_⟩
    · rw [toHost, bind_ok (object_apply o w), ho]
      simp [newHandle, World.more, h]
    · exact .inr ⟨t, o, _, rfl, rfl, by simp [World.more, h], object_more ho⟩

/-! ### Lists of values -/

/-- A computation on each element of a list, which adds objects and keeps a relation that more objects do not
break. The elements stand for those of another list. -/
theorem mapM_more {α β γ : Type} {f : α → Bridge β} {P : World → γ → β → Prop}
    (hP : ∀ {w : World} {os : Array Object} {c : γ} {b : β}, P w c b → P (w.more os) c b) :
    ∀ {cs : List γ} {l : List α} {w : World},
      List.Forall₂ (fun c a => ∀ os, ∃ b os', f a (w.more os) = some (.ok b, (w.more os).more os') ∧
        P ((w.more os).more os') c b) cs l →
      ∃ bs os, l.mapM f w = some (.ok bs, w.more os) ∧ List.Forall₂ (P (w.more os)) cs bs := by
  intro cs
  induction cs with
  | nil =>
    intro l w hf
    cases hf
    exact ⟨[], #[], by rw [more_empty]; rfl, .nil⟩
  | cons c cs ih =>
    intro l w hf
    cases hf with
    | @cons _ a _ l hf hfs =>
    obtain ⟨b, os, hb, hPb⟩ := hf #[]
    rw [more_empty] at hb hPb
    obtain ⟨bs, os', hbs, hPbs⟩ := ih (w := w.more os) (hfs.imp fun c a h os' => by
      simpa only [more_more] using h (os ++ os'))
    refine ⟨b :: bs, os ++ os', ?_, ?_⟩
    · rw [List.mapM_cons, bind_ok hb, bind_ok hbs, more_more]
      rfl
    · rw [more_more] at hPbs
      exact .cons (more_more w os os' ▸ hP hPb) hPbs

theorem pairwise_of_forall₂ {α β : Type} {P : α → β → Prop} {R : α → α → Prop} {S : β → β → Prop}
    (hRS : ∀ {a a' b b'}, P a b → P a' b' → R a a' → S b b') {l : List α} {l' : List β} (h : List.Forall₂ P l l')
    (hl : l.Pairwise R) : l'.Pairwise S := by
  have hget := List.forall₂_iff_get.mp h
  rw [List.pairwise_iff_getElem] at hl ⊢
  intro i j hi hj hij
  exact hRS (hget.2 i (hget.1 ▸ hi) hi) (hget.2 j (hget.1 ▸ hj) hj) (hl i j (hget.1 ▸ hi) (hget.1 ▸ hj) hij)

/-! ### Mappings -/

theorem valueEq_of_isCovered {depth : Nat} {cs : Charset} {k l : Value} (hk : k.IsCovered cs)
    (hl : l.IsCovered cs) : w.valueEq depth k l = k.scalarEq l := by
  have hobj : ∀ v : Value, v.IsCovered cs → w.object? v = none := by
    intro v hv
    cases v <;> first | rfl | exact hv.elim
  cases depth with
  | zero => rfl
  | succ depth =>
    rw [valueEq, hobj k hk, hobj l hl]
    cases k.scalarEq l <;> rfl

theorem hashable_of_isCovered {depth : Nat} {cs : Charset} {k : Value} (hk : k.IsCovered cs) :
    w.hashable depth k = true := by
  cases depth with
  | zero => rfl
  | succ depth => cases k <;> first | rfl | exact hk.elim

theorem putEntry_append {acc : List (Value × Value)} {k : Value} {cs : Charset} (hk : k.IsCovered cs)
    (h : ∀ a ∈ acc, a.1.IsCovered cs ∧ a.1.scalarEq k = false) : w.putEntry acc k v = acc ++ [(k, v)] := by
  induction acc with
  | nil => rfl
  | cons a acc ih =>
    obtain ⟨hcov, hne⟩ := h a (List.mem_cons_self ..)
    rw [putEntry, valueEq_of_isCovered hcov hk, hne, ih fun b hb => h b (List.mem_cons_of_mem _ hb)]
    rfl

def FetchedEntry (w : World) (state : Nat) (s : LuaState) (p : Lua.Key × Lua.Value) (q : Value × Value) : Prop :=
  fetched s state p.1.value = .inl q.1 ∧ q.1.IsCovered s.charset ∧ Fetched w state s p.2 q.2

/-- An entry of a table in host form. -/
def ShownEntry (w : World) (state : Nat) (s : LuaState) (p : Lua.Key × Lua.Value) (q : Value × Value) : Prop :=
  fetched s state p.1.value = .inl q.1 ∧ q.1.IsCovered s.charset ∧ Shows w state s p.2 q.2

theorem FetchedEntry.more {p : Lua.Key × Lua.Value} {q : Value × Value} (h : FetchedEntry w state s p q) :
    FetchedEntry (w.more os) state s p q :=
  ⟨h.1, h.2.1, h.2.2.more⟩

theorem ShownEntry.more {p : Lua.Key × Lua.Value} {q : Value × Value} (h : ShownEntry w state s p q) :
    ShownEntry (w.more os) state s p q :=
  ⟨h.1, h.2.1, h.2.2.more⟩

theorem tableItems_ok {t : Nat} (hs : w.Serves state s encoding)
    (hl : ∀ p ∈ (s.machine.heap.table t).toList, (∃ k, fetched s state p.1.value = .inl k ∧ k.IsCovered s.charset) ∧
      Readable state s p.2) :
    ∃ items os, tableItems ⟨state, .table t, false⟩ w = some (.ok items, w.more os) ∧
      List.Forall₂ (FetchedEntry (w.more os) state s) (s.machine.heap.table t).toList items := by
  rw [tableItems, bind_ok (state?_apply state w), hs.found]
  dsimp only
  refine mapM_more (P := fun w => FetchedEntry w state s) FetchedEntry.more
    (List.forall₂_same.mpr fun p hp os => ?_)
  obtain ⟨⟨k, hk, hcov⟩, hy⟩ := hl p hp
  have hos : (w.more os).Serves state s encoding := hs.more
  obtain ⟨x, os', hx, hfetched⟩ := fetch_readable hos.found hy
  refine ⟨(k, x), os', ?_, hk, hcov, hfetched⟩
  rw [bind_ok (fetch_inl hos.found hk), bind_ok hx, pure_apply]

/-- An entry is added to those collected. -/
def collect (E : Engine) (state : Nat) (entries : List (Value × Value)) (q : Value × Value) :
    Bridge (List (Value × Value)) := do
  let v ← toHost E state q.2
  let k ← toHost E state q.1
  let w ← get
  if w.hashable w.eqDepth k then return w.putEntry entries k v
  else raise "TypeError" ("unhashable type: '" ++ (← typeName k) ++ "'")

theorem collect_ok (E : Engine) (hs : w.Serves state s encoding) {p : Lua.Key × Lua.Value} {q : Value × Value}
    (hq : FetchedEntry w state s p q) {acc : List (Value × Value)}
    (hacc : ∀ a ∈ acc, a.1.IsCovered s.charset ∧ a.1.scalarEq q.1 = false) :
    ∃ r os, collect E state acc q w = some (.ok (acc ++ [r]), w.more os) ∧ r.1 = q.1 ∧
      ShownEntry (w.more os) state s p r := by
  obtain ⟨hk, hcov, hv⟩ := hq
  obtain ⟨v, os, hv, hshows⟩ := toHost_fetched E hs hv
  refine ⟨(q.1, v), os, ?_, rfl, hk, hcov, hshows⟩
  rw [collect, bind_ok hv, bind_ok (toHost_scalar E hs.more hcov), bind_ok (get_apply _),
    if_pos (hashable_of_isCovered hcov), putEntry_append hcov hacc, pure_apply]

theorem foldlM_collect_ok (E : Engine) : ∀ {l : List (Lua.Key × Lua.Value)} {items acc : List (Value × Value)}
    {w : World}, w.Serves state s encoding → List.Forall₂ (FetchedEntry w state s) l items →
    items.Pairwise (fun q r => q.1.scalarEq r.1 = false) →
    (∀ a ∈ acc, a.1.IsCovered s.charset ∧ ∀ q ∈ items, a.1.scalarEq q.1 = false) →
    ∃ rs os, items.foldlM (collect E state) acc w = some (.ok (acc ++ rs), w.more os) ∧
      List.Forall₂ (ShownEntry (w.more os) state s) l rs := by
  intro l
  induction l with
  | nil =>
    intro items acc w _ hitems _ _
    cases hitems
    exact ⟨[], #[], by rw [more_empty, List.append_nil]; rfl, .nil⟩
  | cons p l ih =>
    intro items acc w hs hitems hdistinct hacc
    cases hitems with
    | @cons _ q _ items hq hitems =>
    rw [List.pairwise_cons] at hdistinct
    obtain ⟨r, os, hrun, hr, hshown⟩ := collect_ok E hs hq fun a ha =>
      ⟨(hacc a ha).1, (hacc a ha).2 q (List.mem_cons_self ..)⟩
    have hacc' : ∀ a ∈ acc ++ [r], a.1.IsCovered s.charset ∧ ∀ q ∈ items, a.1.scalarEq q.1 = false := by
      intro a ha
      rcases List.mem_append.mp ha with ha | ha
      · exact ⟨(hacc a ha).1, fun q hq => (hacc a ha).2 q (List.mem_cons_of_mem _ hq)⟩
      · obtain rfl := List.mem_singleton.mp ha
        exact ⟨hshown.2.1, fun q hq => hr ▸ hdistinct.1 q hq⟩
    obtain ⟨rs, os', hruns, hshowns⟩ := ih hs.more (hitems.imp fun _ _ h => h.more) hdistinct.2 hacc'
    refine ⟨r :: rs, os ++ os', ?_, ?_⟩
    · rw [List.foldlM_cons, bind_ok hrun, hruns, more_more, List.append_assoc]
      rfl
    · rw [more_more] at hshowns
      exact .cons (more_more w os os' ▸ hshown.more) hshowns

end HostedLua.Bridge
