import HostedLua.Proofs.Container.Encounter
import HostedLua.Proofs.Container.Image
import HostedLua.Proofs.Crossing.Held
import HostedLua.Proofs.Lua.Table

/-! Handles on their way to a state. A state has no use for a handle that is not valid or belongs to another state:
such a stray is nil in Lua, and where a table would have it for a key, the host's none stands in. All else that a table
gets is a scalar, an object of the host, a table of a container, or what a valid handle of the state stands for. -/

namespace HostedLua

open Host

/-- An object of Lua's own: neither a scalar nor an object of the host. -/
def Lua.Value.isOwn : Lua.Value → Bool
  | .table _ | .closure _ | .builtin _ | .wrapped _ | .thread _ | .stdout => true
  | _ => false

namespace World

variable {w : World} {state : Nat} {cs : Charset} {encoding v : Value} {τ : Numbering} {h : Handle}

/-! ### Strays -/

def stray (w : World) (state : Nat) (h : Handle) : Bool := !(w.valid h && h.state == state)

/-- For a state that is held, its own handles are valid just while it is open. -/
theorem stray_of_held (hw : state ∈ w.heldStates) (h : Handle) :
    w.stray state h = !(h.stands && w.opened state && h.state == state) := by
  by_cases hst : h.state = state
  · subst hst
    rw [stray, valid, stateAlive_of_held hw, Bool.and_true]
  · rw [stray, beq_false_of_ne hst, Bool.and_false, Bool.and_false]

/-- A value that there is: a scalar, or an object that there is; if it is a handle, there is what it stands for. -/
structure Present (w : World) (v : Value) : Prop where
  object : ∀ id, v = .obj id → ∃ o, w.objects[id]? = some o
  guest : ∀ h, w.handleAt v = some h → ∀ id, h.guest = .obj id → ∃ o, w.objects[id]? = some o

/-- A value without a guest in it: a scalar, or an object that there is and that is no guest; if it is a handle, there
is what it stands for. -/
structure Native (w : World) (v : Value) : Prop where
  object : ∀ id, v = .obj id → ∃ o, w.objects[id]? = some o ∧ ∀ g, o ≠ .guest g
  guest : ∀ h, w.handleAt v = some h → ∀ id, h.guest = .obj id → ∃ o, w.objects[id]? = some o

theorem Native.present (hv : w.Native v) : w.Present v where
  object := fun id hid => (hv.object id hid).imp fun _ ho => ho.1
  guest := hv.guest

theorem Native.of_scalar (h : ∀ id, v ≠ .obj id) : w.Native v where
  object := fun id hid => absurd hid (h id)
  guest := fun k hk => by
    cases v with
    | obj id => exact absurd rfl (h id)
    | _ => cases hk

theorem Native.of_object {id : Nat} {o : Object} (ho : w.objects[id]? = some o) (hguest : ∀ g, o ≠ .guest g)
    (hhandle : ∀ h, o = .handle h → ∀ i, h.guest = .obj i → ∃ o, w.objects[i]? = some o) : w.Native (.obj id) where
  object := fun i hi => Value.obj.inj hi ▸ ⟨o, ho, hguest⟩
  guest := fun k hk => by
    rw [handleAt, ho] at hk
    cases o with
    | handle h =>
      obtain rfl := Option.some.inj hk
      exact hhandle h rfl
    | _ => cases hk

/-! ### What values become -/

/-- The form in which a value that is no container is pushed: a stray has none but the host's none. -/
def form? (w : World) (state : Nat) (encoding v : Value) : Option Value :=
  match w.handleAt v with
  | some h => some (if w.stray state h then .none else h.guest)
  | none => w.leafForm? state encoding v

theorem form?_handle (h' : w.handleAt v = some h) :
    w.form? state encoding v = some (if w.stray state h then .none else h.guest) := by
  rw [form?, h']

theorem form?_leaf (h' : w.handleAt v = none) : w.form? state encoding v = w.leafForm? state encoding v := by
  rw [form?, h']

/-- What a value is in Lua once containers have their tables: a stray is nil. -/
def cast (w : World) (state : Nat) (cs : Charset) (encoding : Value) (τ : Numbering) (v : Value) : Lua.Value :=
  match v, w.entries? v with
  | .obj id, some _ => ((τ.lookup id).map .table).getD .nil
  | v, _ => ((w.form? state encoding v).bind (w.pushed? state cs)).getD .nil

theorem cast_leaf (h : w.entries? v = none) :
    w.cast state cs encoding τ v = ((w.form? state encoding v).bind (w.pushed? state cs)).getD .nil := by
  cases v <;> simp [cast, h]

theorem cast_container {id : Nat} (h : (w.entries? (.obj id)).isSome) :
    w.cast state cs encoding τ (.obj id) = ((τ.lookup id).map .table).getD .nil := by
  obtain ⟨es, hes⟩ := Option.isSome_iff_exists.mp h
  simp [cast, hes]

/-- A handle is no container. -/
theorem entries?_handle (h' : w.handleAt v = some h) : w.entries? v = none := by
  cases hes : w.entries? v with
  | none => rfl
  | some es => exact absurd (h'.symm.trans (handleAt_container hes)) (Option.some_ne_none h)

theorem cast_handle (h' : w.handleAt v = some h) : w.cast state cs encoding τ v =
    if w.stray state h then .nil else (w.pushed? state cs h.guest).getD .nil := by
  rw [cast_leaf (entries?_handle h'), form?_handle h']
  split_ifs <;> rfl

/-- The scalars of the host, its objects and its none are no objects of Lua's own; guests of the state are. -/
theorem pushed?_own {u : Value} {y : Lua.Value} (hu : w.pushed? state cs u = some y) (hy : y.isOwn) :
    ∃ id g, u = .obj id ∧ w.objects[id]? = some (.guest g) ∧ g.state = state ∧ g.value = y := by
  cases u with
  | none | bool | float | bytes | member =>
    obtain rfl := Option.some.inj hu
    cases hy
  | int i =>
    simp only [pushed?, Option.ite_none_right_eq_some, Option.some.injEq] at hu
    obtain ⟨-, rfl⟩ := hu
    cases hy
  | text t =>
    obtain ⟨b, -, rfl⟩ := Option.map_eq_some_iff.mp hu
    cases hy
  | obj id =>
    rw [pushed?] at hu
    split at hu
    · next g hg =>
      obtain ⟨hst, hval⟩ := Option.ite_none_right_eq_some.mp hu
      exact ⟨id, g, rfl, hg, hst, Option.some.inj hval⟩
    · obtain rfl := Option.some.inj hu
      cases hy
    · cases hu

/-- A leaf that is no handle is an object in its form only if it is that object. -/
theorem leafForm?_obj {id : Nat} (hh : w.handleAt v = none) (hu : w.leafForm? state encoding v = some (.obj id)) :
    v = .obj id := by
  cases v with
  | obj i =>
    rw [leafForm?] at hu
    split at hu
    · next h ho => simp [handleAt, ho] at hh
    · obtain ⟨-, hi⟩ := Option.ite_none_right_eq_some.mp hu
      exact Option.some.inj hi
    · cases hu
  | text t =>
    cases encoding <;> simp [leafForm?] at hu
  | int i =>
    rw [leafForm?] at hu
    split_ifs at hu <;> simp at hu
  | _ => simp [leafForm?] at hu

/-- The form of a leaf is no object that there is not. -/
theorem Present.form (hv : w.Present v) {id : Nat} (hu : w.form? state encoding v = some (.obj id)) :
    ∃ o, w.objects[id]? = some o := by
  cases hh : w.handleAt v with
  | none =>
    rw [form?_leaf hh] at hu
    exact hv.object id (leafForm?_obj hh hu)
  | some h =>
    rw [form?_handle hh] at hu
    split_ifs at hu
    · cases hu
    · exact hv.guest h hh id (Option.some.inj hu)

/-- An object of Lua's own that a value becomes is the table of a container, or what a handle stands for that the state
has a use for. -/
theorem cast_own (hv : w.Native v) (hy : (w.cast state cs encoding τ v).isOwn) :
    (∃ id t, v = .obj id ∧ τ.lookup id = some t ∧ w.cast state cs encoding τ v = .table t) ∨
      ∃ h id g, w.handleAt v = some h ∧ w.stray state h = false ∧ h.guest = .obj id ∧
        w.objects[id]? = some (.guest g) ∧ g.state = state ∧ g.value = w.cast state cs encoding τ v := by
  cases hes : w.entries? v with
  | some es =>
    obtain ⟨id, rfl⟩ := exists_obj_of_entries? hes
    rw [cast_container (Option.isSome_of_eq_some hes)] at hy ⊢
    cases ht : τ.lookup id with
    | none =>
      rw [ht] at hy
      cases hy
    | some t => exact .inl ⟨id, t, rfl, ht, rfl⟩
  | none =>
    rw [cast_leaf hes] at hy ⊢
    cases hform : w.form? state encoding v with
    | none =>
      rw [hform] at hy
      cases hy
    | some u =>
      cases hpush : w.pushed? state cs u with
      | none =>
        rw [hform, Option.bind_some, hpush] at hy
        cases hy
      | some y =>
        rw [hform, Option.bind_some, hpush, Option.getD_some] at hy
        rw [Option.bind_some, hpush, Option.getD_some]
        obtain ⟨id, g, rfl, hg, hst, hval⟩ := pushed?_own hpush hy
        cases hh : w.handleAt v with
        | none =>
          rw [form?_leaf hh] at hform
          obtain ⟨o, ho, hguest⟩ := hv.object id (leafForm?_obj hh hform)
          exact absurd (Option.some.inj (ho.symm.trans hg)) (hguest g)
        | some h =>
          rw [form?_handle hh] at hform
          cases hs : w.stray state h with
          | true => simp [hs] at hform
          | false =>
            rw [hs, if_neg Bool.false_ne_true] at hform
            exact .inr ⟨h, id, g, rfl, hs, Option.some.inj hform, hg, hst, hval⟩

/-! ### What tables hold -/

/-- The key that a value is for a table: the host's none stands in for nil. -/
def slot (y : Lua.Value) : Except Lua.KeyFault Lua.Key :=
  match y with
  | .nil => .ok (.host Value.nothingId)
  | y => y.key?

/-- An entry is put into a table. -/
def store (f : Value → Lua.Value) (t : Lua.Table) (e : Value × Value) : Lua.Table :=
  match slot (f e.1) with
  | .ok k => t.set k (f e.2)
  | .error _ => t

/-- A table holds what its container's entries become, put into it in order. -/
def stored (w : World) (state : Nat) (cs : Charset) (encoding : Value) : Filling :=
  fun τ es => es.foldl (store (w.cast state cs encoding τ)) {}

/-- What an entry of a table comes from. -/
theorem entry_of_store {f : Value → Lua.Value} {es : List (Value × Value)} {t : Lua.Table} {k : Lua.Key}
    {y : Lua.Value} (h : (es.foldl (store f) t).entries[k]? = some y) :
    t.entries[k]? = some y ∨ ∃ e ∈ es, slot (f e.1) = .ok k ∧ f e.2 = y := by
  induction es generalizing t with
  | nil => exact .inl h
  | cons e es ih =>
    rcases ih h with hput | ⟨e', he', hk, hy⟩
    · rw [store] at hput
      split at hput
      · next l hl =>
        rw [Lua.Table.getElem?_set] at hput
        split_ifs at hput with hkl hnil
        · subst hkl
          exact .inr ⟨e, List.mem_cons_self .., hl, Option.some.inj hput⟩
        · exact .inl hput
      · exact .inl hput
    · exact .inr ⟨e', List.mem_cons_of_mem _ he', hk, hy⟩

/-- An object of Lua's own is a key as it is. -/
theorem value_of_slot {y : Lua.Value} {k : Lua.Key} (h : slot y = .ok k) (hk : k.value.isOwn) : k.value = y := by
  cases y with
  | nil =>
    obtain rfl := Except.ok.inj h
    cases hk
  | float x =>
    simp only [slot, Lua.Value.key?] at h
    split at h
    · obtain rfl := Except.ok.inj h
      cases hk
    · split at h
      · obtain rfl := Except.ok.inj h
        cases hk
      · cases h
  | _ =>
    obtain rfl := Except.ok.inj h
    rfl

/-- An object of Lua's own in a table is what one of the container's values or keys became. -/
theorem own_of_stored {f : Value → Lua.Value} {es : List (Value × Value)} {k : Lua.Key} {x y : Lua.Value}
    (h : (es.foldl (store f) {}).entries[k]? = some y) (hx : x = k.value ∨ x = y) (hown : x.isOwn) :
    ∃ e ∈ es, ∃ v, (v = e.1 ∨ v = e.2) ∧ f v = x := by
  rcases entry_of_store h with h | ⟨e, he, hk, hy⟩
  · simp at h
  · rcases hx with rfl | rfl
    · exact ⟨e, he, e.1, .inl rfl, (value_of_slot hk hown).symm⟩
    · exact ⟨e, he, e.2, .inr rfl, hy⟩

end World

end HostedLua
