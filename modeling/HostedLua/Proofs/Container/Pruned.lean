import HostedLua.Proofs.Container.Fill
import HostedLua.Proofs.Crossing.Stray

/-! Entries under no key. A conversion passes over the entries of a mapping whose key is none or not a number: it does just
what it does where they are not there, whatever their values are. -/

namespace HostedLua

open Host

/-- A mapping without the entries whose key is none or not a number. -/
def Host.Object.pruned : Object → Object
  | .dict es => .dict (es.filter fun e => !Bridge.skipsKey e.1)
  | .proxy es => .proxy (es.filter fun e => !Bridge.skipsKey e.1)
  | o => o

namespace World

variable {w : World} {state : Nat}

/-- A world in which no mapping has an entry whose key is none or not a number. -/
def pruned (w : World) : World := { w with objects := w.objects.map Object.pruned }

/-- Handles are as useful to a state that is held. -/
theorem stray_pruned (hw : state ∈ w.heldStates) (h : Handle) : w.pruned.stray state h = w.stray state h := by
  rw [stray_of_held hw, stray_of_held (w := w.pruned) hw]
  rfl

end World

namespace Bridge

open World

variable {α β : Type} {state depth : Nat} {x y : Bridge α} {f g : α → Bridge β}

/-! ### Computations on a pruned world -/

/-- While a state is held, a computation does on a pruned world what another one does on the whole world. -/
structure Mirrors (state : Nat) (x y : Bridge α) : Prop where
  run : ∀ ⦃w⦄, state ∈ w.heldStates → x w.pruned = (y w).map fun p => (p.1, p.2.pruned)
  held : ∀ ⦃w r w'⦄, y w = some (r, w') → w'.heldStates = w.heldStates

namespace Mirrors

theorem bind (hx : Mirrors state x y) (hf : ∀ a, Mirrors state (f a) (g a)) :
    Mirrors state (x >>= f) (y >>= g) where
  run w hw := by
    rw [bind_apply, bind_apply, hx.run hw]
    rcases hy : y w with _ | ⟨_ | a, w'⟩
    · rfl
    · rfl
    · exact (hf a).run (hx.held hy ▸ hw)
  held w r w' h := by
    rcases bind_some h with ⟨e, he, -⟩ | ⟨a, v, ha, h⟩
    · exact hx.held he
    · exact ((hf a).held h).trans (hx.held ha)

theorem pure (a : α) : Mirrors state (pure a : Bridge α) (pure a) where
  run _ _ := rfl
  held w _ _ h := by
    obtain ⟨-, rfl⟩ := Prod.mk.inj (Option.some.inj h)
    rfl

theorem throw (e : Fault) : Mirrors state (throw e : Bridge α) (throw e) where
  run _ _ := rfl
  held w _ _ h := by
    obtain ⟨-, rfl⟩ := Prod.mk.inj (Option.some.inj h)
    rfl

theorem state? (i : Nat) : Mirrors state (state? i) (Bridge.state? i) where
  run _ _ := rfl
  held w _ _ h := by
    obtain ⟨-, rfl⟩ := Prod.mk.inj (Option.some.inj h)
    rfl

/-- An object is met as it is, but for the entries that a mapping has lost. -/
theorem object {f g : Object → Bridge β} (id : Nat) (hf : ∀ o, Mirrors state (f o.pruned) (g o)) :
    Mirrors state (Bridge.object id >>= f) (Bridge.object id >>= g) where
  run w hw := by
    have ho : (w.pruned.objects[id]?).getD .nothing = ((w.objects[id]?).getD .nothing).pruned := by
      show ((w.objects.map Object.pruned)[id]?).getD .nothing = _
      rw [Array.getElem?_map]
      cases w.objects[id]? <;> rfl
    rw [bind_ok (object_apply id w.pruned), bind_ok (object_apply id w), ho]
    exact (hf _).run hw
  held w r w' h := (hf _).held ((bind_ok (object_apply id w)).symm.trans h)

/-- A change to a world that has nothing to do with its objects. -/
theorem modify {f : World → World} (hf : ∀ w, f w.pruned = (f w).pruned) (hheld : ∀ w, (f w).heldStates = w.heldStates) :
    Mirrors state (modify f : Bridge PUnit) (modify f) where
  run w _ := by
    rw [modify_apply, hf]
    rfl
  held w _ _ h := by
    obtain ⟨-, rfl⟩ := Prod.mk.inj (Option.some.inj h)
    exact hheld w

theorem guest (γ : Guest) : Mirrors state (newObject (.guest γ)) (newObject (.guest γ)) where
  run w _ := by
    simp [World.pruned, Object.pruned]
  held w _ _ h := by
    obtain ⟨-, rfl⟩ := Prod.mk.inj (Option.some.inj h)
    rfl

end Mirrors

theorem mirrors_modifyState (i : Nat) (f : LuaState → LuaState) :
    Mirrors state (modifyState i f) (modifyState i f) := .modify (fun _ => rfl) fun _ => rfl

theorem mirrors_configOf (i : Nat) : Mirrors state (configOf i) (configOf i) := by
  refine (Mirrors.state? i).bind fun s => ?_
  cases s with
  | none => exact .pure _
  | some s =>
    refine ⟨fun w _ => rfl, fun w r w' h => ?_⟩
    obtain ⟨-, rfl⟩ := Prod.mk.inj (Option.some.inj h)
    rfl

theorem mirrors_reportTo (i : Nat) (message : Text) : Mirrors state (reportTo i message) (reportTo i message) := by
  refine (Mirrors.state? i).bind fun s => ?_
  cases s with
  | none => exact .pure _
  | some s => exact .modify (fun _ => rfl) fun _ => rfl

theorem mirrors_push (i : Nat) (v : Value) : Mirrors state (push i v) (push i v) := by
  cases v with
  | int n =>
    rw [push]
    split_ifs
    · exact .pure _
    · exact .throw _
  | text t =>
    refine (Mirrors.state? i).bind fun s => ?_
    cases s with
    | none => exact .pure _
    | some s =>
      dsimp only
      cases s.charset.encodeEscaped t with
      | ok b => exact .pure _
      | error e => exact .throw _
  | obj id =>
    refine .object id fun o => ?_
    cases o with
    | guest γ =>
      dsimp only [Object.pruned]
      split_ifs
      · exact .pure _
      · exact .throw _
    | _ => exact .pure _
  | _ => exact .pure _

theorem mirrors_putRaw (table k v : Value) : Mirrors state (putRaw state table k v) (putRaw state table k v) := by
  cases table with
  | obj id =>
    refine .object id fun o => ?_
    cases o with
    | guest γ =>
      obtain ⟨i, value, unstarted⟩ := γ
      cases value with
      | table t =>
        have hkey : Mirrors state (pushKey state k) (pushKey state k) := by
          unfold pushKey
          split
          · exact .pure _
          · exact mirrors_push state _
        refine hkey.bind fun x => (mirrors_push state v).bind fun y => ?_
        cases x.key? with
        | ok κ => exact mirrors_modifyState _ _
        | error e => exact .throw _
      | _ => exact .throw _
    | _ => exact .throw _
  | _ => exact .throw _

theorem mirrors_newTable : Mirrors state (newTable state) (newTable state) := by
  refine (Mirrors.state? state).bind fun s => ?_
  cases s with
  | none => exact .pure _
  | some s =>
    dsimp only
    split_ifs
    · exact (mirrors_modifyState _ _).bind fun _ => .guest _
    · exact .pure _

/-! ### Conversions on a pruned world -/

section Conversion

variable {a b : StateT Seen Bridge α} {k l : α → StateT Seen Bridge β} {es : List (Value × Value)} {id : Nat} {σ : Seen}

theorem Mirrors.seen_bind (ha : ∀ σ, Mirrors state (a σ) (b σ)) (hk : ∀ r σ, Mirrors state (k r σ) (l r σ)) (σ : Seen) :
    Mirrors state ((a >>= k) σ) ((b >>= l) σ) :=
  (ha σ).bind fun p => hk p.1 p.2

theorem Mirrors.lift (h : Mirrors state x y) (σ : Seen) :
    Mirrors state ((liftM x : StateT Seen Bridge α) σ) ((liftM y : StateT Seen Bridge α) σ) :=
  h.bind fun _ => .pure _

/-- The entries of a container go into its table, as far as its iteration gives them. -/
def convertItems (state depth : Nat) (table : Value) (es : List (Value × Value)) (failure : Option Fault) :
    StateT Seen Bridge Value := do
  es.forM (convertEntry state depth table)
  match failure with
  | some f => throw f
  | none => return table

/-- A container is converted: it has its table already, or it gets one that its entries go into. -/
def convertContainer (state depth id : Nat) (es : List (Value × Value)) (failure : Option Fault) :
    StateT Seen Bridge Value := do
  match (← get).lookup id with
  | some table => return table
  | none =>
    let table ← newTable state
    match table with
    | .none => pure ()
    | _ => modify fun seen => (id, table) :: seen
    convertItems state depth table es failure

/-- An object is converted: a handle to what it stands for, a container to a table, anything else to itself. -/
def convertObject (state depth id : Nat) (o : Object) : StateT Seen Bridge Value :=
  match o with
  | .handle h => do
    if (← isValid h) && h.state = state then return h.guest
    else
      reportTo state ("InvalidState: " ++ h.kind.name ++ " does not belong to an open Lua state")
      return .none
  | o =>
    match items? o with
    | none => return .obj id
    | some (es, failure) => convertContainer state depth id es failure

theorem toGuestAt_obj :
    toGuestAt state (depth + 1) (.obj id) σ = object id >>= fun o => convertObject state depth id o σ := by
  funext w
  rw [toGuestAt, seen_bind_ok (lift_ok (object_apply id w)), bind_ok (object_apply id w)]
  cases (w.objects[id]?).getD .nothing <;> rfl

theorem convertObject_items {o : Object} {p : List (Value × Value) × Option Fault} (hi : items? o = some p) :
    convertObject state depth id o = convertContainer state depth id p.1 p.2 := by
  obtain ⟨es, failure⟩ := p
  unfold convertObject
  split
  · cases hi
  · rw [hi]

theorem items?_pruned {o : Object} {p : List (Value × Value) × Option Fault} (hi : items? o = some p) :
    ∃ es', items? o.pruned = some (es', p.2) ∧ (es' = p.1 ∨ es' = p.1.filter fun e => !skipsKey e.1) := by
  cases o with
  | dict es | proxy es =>
    obtain rfl := Option.some.inj hi
    exact ⟨_, rfl, .inr rfl⟩
  | _ => exact ⟨p.1, hi, .inl rfl⟩

theorem mirrors_handle (h : Handle) (σ : Seen) :
    Mirrors state (convertObject state depth id (.handle h) σ) (convertObject state depth id (.handle h) σ) := by
  let refusal : Bridge (Value × Seen) := do
    reportTo state ("InvalidState: " ++ h.kind.name ++ " does not belong to an open Lua state")
    return (.none, σ)
  have hrefusal : Mirrors state refusal refusal := (mirrors_reportTo state _).bind fun _ => .pure _
  have hrun (w : World) : convertObject state depth id (.handle h) σ w =
      (if w.stray state h then refusal else pure (h.guest, σ)) w := by
    have hstray : (!(w.valid h && decide (h.state = state))) = w.stray state h := rfl
    rw [convertObject, seen_bind_ok (lift_ok (valid_apply h w)), ← hstray]
    cases w.valid h && decide (h.state = state) with
    | true => rfl
    | false =>
      obtain ⟨w', hreport⟩ :=
        reportTo_total state ("InvalidState: " ++ h.kind.name ++ " does not belong to an open Lua state") w
      rw [if_neg Bool.false_ne_true, seen_bind_ok (lift_ok hreport), Bool.not_false, if_pos rfl]
      exact (bind_ok (f := fun _ => pure (Value.none, σ)) hreport).symm
  refine ⟨fun w hw => ?_, fun w r w' hr => ?_⟩
  · rw [hrun, hrun, stray_pruned hw]
    cases w.stray state h with
    | true => exact hrefusal.run hw
    | false => rfl
  · rw [hrun] at hr
    cases hstray : w.stray state h with
    | true =>
      rw [hstray, if_pos rfl] at hr
      exact hrefusal.held hr
    | false =>
      rw [hstray, if_neg Bool.false_ne_true] at hr
      have hpure : Mirrors state (pure (h.guest, σ)) (pure (h.guest, σ)) := .pure _
      exact hpure.held hr

/-- The entries that are skipped make no difference. -/
theorem mirrors_entries (ih : ∀ v σ, Mirrors state (toGuestAt state depth v σ) (toGuestAt state depth v σ))
    (table : Value) : ∀ σ, Mirrors state (es.forM (convertEntry state depth table) σ)
      (es.forM (convertEntry state depth table) σ) := by
  induction es with
  | nil => exact fun σ => .pure _
  | cons e es ihe =>
    refine Mirrors.seen_bind (fun σ => ?_) fun _ => ihe
    unfold convertEntry
    split_ifs
    · exact Mirrors.seen_bind (ih e.2) (fun v => Mirrors.seen_bind (ih e.1) fun k => .lift (mirrors_putRaw table k v)) σ
    · exact .pure _

theorem filter_entries (table : Value) :
    (es.filter fun e => !skipsKey e.1).forM (convertEntry state depth table) =
      es.forM (convertEntry state depth table) := by
  funext σ w
  exact convertEntries_filter.symm

theorem mirrors_items (ih : ∀ v σ, Mirrors state (toGuestAt state depth v σ) (toGuestAt state depth v σ))
    {es' : List (Value × Value)} (failure : Option Fault)
    (hes : es' = es ∨ es' = es.filter fun e => !skipsKey e.1) (table : Value) (σ : Seen) :
    Mirrors state (convertItems state depth table es' failure σ) (convertItems state depth table es failure σ) := by
  have hes' : convertItems state depth table es' failure = convertItems state depth table es failure := by
    rcases hes with rfl | rfl
    · rfl
    · unfold convertItems
      rw [filter_entries]
  rw [hes']
  refine Mirrors.seen_bind (mirrors_entries ih table) (fun _ σ => ?_) σ
  cases failure with
  | some f => exact .throw _
  | none => exact .pure _

theorem mirrors_container (ih : ∀ v σ, Mirrors state (toGuestAt state depth v σ) (toGuestAt state depth v σ))
    {es' : List (Value × Value)} (failure : Option Fault)
    (hes : es' = es ∨ es' = es.filter fun e => !skipsKey e.1) (σ : Seen) :
    Mirrors state (convertContainer state depth id es' failure σ) (convertContainer state depth id es failure σ) := by
  refine Mirrors.seen_bind (fun σ => .pure _) (fun seen σ => ?_) σ
  cases seen.lookup id with
  | some table => exact .pure _
  | none =>
    refine Mirrors.seen_bind (fun σ => .lift mirrors_newTable σ) (fun table σ => ?_) σ
    cases table with
    | none => exact mirrors_items ih failure hes _ σ
    | _ => exact mirrors_items ih failure hes _ _

/-- A conversion does not see the entries of mappings whose key is none or not a number. -/
theorem mirrors_toGuestAt : ∀ depth v σ, Mirrors state (toGuestAt state depth v σ) (toGuestAt state depth v σ) := by
  intro depth
  induction depth with
  | zero => exact fun v σ => .throw _
  | succ depth ih =>
    intro v σ
    cases v with
    | text t =>
      refine Mirrors.seen_bind (fun σ => .lift (mirrors_configOf state) σ) (fun c σ => ?_) σ
      cases c.encoding with
      | none =>
        dsimp only
        cases Charset.utf8.encodeEscaped t with
        | ok b => exact .pure _
        | error e => exact .throw _
      | _ => exact .pure _
    | int i =>
      rw [toGuestAt]
      split_ifs
      · exact .pure _
      · cases Binary.ofInt? i with
        | some x => exact .pure _
        | none => exact .throw _
    | obj id =>
      rw [toGuestAt_obj]
      refine .object id fun o => ?_
      cases hi : items? o with
      | some p =>
        obtain ⟨es', hi', hes⟩ := items?_pruned hi
        rw [convertObject_items hi, convertObject_items hi']
        exact mirrors_container ih p.2 hes σ
      | none =>
        cases o with
        | handle h => exact mirrors_handle h σ
        | dict | proxy | list | tuple | badItems => cases hi
        | _ => exact .pure _
    | _ => exact .pure _

/-- Entries whose key is none or not a number contribute nothing to a conversion, whatever their values are. -/
theorem toGuest_pruned {w : World} (hw : state ∈ w.heldStates) (v : Value) :
    toGuest state v w.pruned = (toGuest state v w).map fun p => (p.1, p.2.pruned) := by
  rw [toGuest_apply, toGuest_apply]
  exact ((mirrors_toGuestAt (w.limits.nesting + 1) v []).bind fun p => .pure p.1).run hw

end Conversion

end Bridge

end HostedLua
