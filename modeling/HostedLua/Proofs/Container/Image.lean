import HostedLua.Proofs.Container.Visit
import HostedLua.Proofs.Crossing.Leaf

/-! What containers become. A numbering gives each container the number of a table; under it every value has
an image in Lua, and the table of a container is what comes of assigning the images of its entries. -/

namespace HostedLua

open Host

/-- The numbers of the tables that containers become, the last container first. -/
abbrev Numbering := List (Nat × Nat)

namespace Numbering

variable {τ τ' τ'' : Numbering} {id t : Nat}

/-- A numbering that goes on from another one, and has no container twice. -/
def Extends (τ' τ : Numbering) : Prop := τ <:+ τ' ∧ (τ'.map Prod.fst).Nodup

theorem Extends.trans (h : Extends τ'' τ') (h' : τ <:+ τ') : Extends τ'' τ := ⟨h'.trans h.1, h.2⟩

theorem Extends.lookup (h : Extends τ' τ) (hid : τ.lookup id = some t) : τ'.lookup id = some t := by
  obtain ⟨⟨δ, rfl⟩, hnodup⟩ := h
  rw [List.map_append, List.nodup_append] at hnodup
  have hmem : id ∈ τ.map Prod.fst := by
    obtain ⟨l₁, l₂, rfl, _⟩ := List.lookup_eq_some_iff.mp hid
    simp
  have hδ : δ.lookup id = none := by
    refine List.lookup_eq_none_iff.mpr fun p hp => ?_
    have := hnodup.2.2 p.1 (List.mem_map_of_mem hp) id hmem
    simpa using this.symm
  rw [List.lookup_append, hδ, hid, Option.none_or]

theorem lookup_of_mem (h : id ∈ τ.map Prod.fst) : ∃ t, τ.lookup id = some t := by
  rw [← Option.isSome_iff_exists, List.lookup_isSome_iff]
  obtain ⟨p, hp, rfl⟩ := List.mem_map.mp h
  exact ⟨p, hp, by simp⟩

theorem lookup_of_not_mem (h : id ∉ τ.map Prod.fst) : τ.lookup id = none := by
  refine List.lookup_eq_none_iff.mpr fun p hp => ?_
  have : id ≠ p.1 := fun he => h (he ▸ List.mem_map_of_mem hp)
  simpa using this

end Numbering

/-- What the table of a container holds, by the tables of all containers and the entries of this one. -/
abbrev Filling := Numbering → List (Value × Value) → Lua.Table

namespace World

variable (w : World) (state : Nat) (cs : Charset) (encoding : Value)

/-- What a value that is no container is in Lua; none where it is refused. -/
def leaf? (v : Value) : Option Lua.Value := (w.leafForm? state encoding v).bind (w.pushed? state cs)

/-- What a value is in Lua once containers have their tables. -/
def image (τ : Numbering) (v : Value) : Lua.Value :=
  match v, w.entries? v with
  | .obj id, some _ => ((τ.lookup id).map .table).getD .nil
  | v, _ => (w.leaf? state cs encoding v).getD .nil

def assign (f : Value → Lua.Value) (t : Lua.Table) (e : Value × Value) : Lua.Table :=
  match (f e.1).key? with
  | .ok k => t.set k (f e.2)
  | .error _ => t

/-- A table holds the images of its container's entries, assigned in order. -/
def assigned : Filling := fun τ es => es.foldl (assign (w.image state cs encoding τ)) {}

/-- A value converts by itself: it is a container, or it is not refused. A container asks of its keys that
they are keys in Lua too. -/
@[mk_iff]
structure Converts (v : Value) : Prop where
  leaf : w.entries? v = none → (w.leaf? state cs encoding v).isSome
  keys : ∀ es, w.entries? v = some es → ∀ e ∈ es, w.entries? e.1 = none →
    ∃ y k, w.leaf? state cs encoding e.1 = some y ∧ y.key? = .ok k

def Convertible (v : Value) : Prop := ∀ x, w.Occurs v x → w.Converts state cs encoding x

variable {w state cs encoding} {v : Value} {τ : Numbering}

theorem Convertible.part {x : Value} (h : w.Convertible state cs encoding v) (hx : w.HasPart v x) :
    w.Convertible state cs encoding x :=
  fun y hy => h y (.head hx hy)

theorem image_leaf (h : w.entries? v = none) :
    w.image state cs encoding τ v = (w.leaf? state cs encoding v).getD .nil := by
  cases v <;> simp [image, h]

theorem image_container {id : Nat} (h : (w.entries? (.obj id)).isSome) :
    w.image state cs encoding τ (.obj id) = ((τ.lookup id).map .table).getD .nil := by
  obtain ⟨es, hes⟩ := Option.isSome_iff_exists.mp h
  simp [image, hes]

section Same

variable {w' : World} (ho : w'.objects = w.objects)

include ho

theorem leaf?_congr : w'.leaf? state cs encoding v = w.leaf? state cs encoding v := by
  have hform : w'.leafForm? state encoding v = w.leafForm? state encoding v := by
    cases v <;> simp only [leafForm?, ho]
  have hpushed (u : Value) : w'.pushed? state cs u = w.pushed? state cs u := by
    cases u <;> simp only [pushed?, ho]
  simp only [leaf?, hform, hpushed]

theorem image_congr : w'.image state cs encoding τ = w.image state cs encoding τ := by
  funext v
  cases v <;> simp only [image, entries?_congr ho, leaf?_congr ho]

theorem convertible_congr : w'.Convertible state cs encoding v ↔ w.Convertible state cs encoding v := by
  simp only [Convertible, converts_iff, occurs_congr ho, entries?_congr ho, leaf?_congr ho]

end Same

/-- The key of an entry is a key in Lua, once its own container, if it is one, has a table. -/
theorem Converts.key {es : List (Value × Value)} {e : Value × Value} (h : w.Converts state cs encoding v)
    (hes : w.entries? v = some es) (he : e ∈ es)
    (hτ : ∀ id, e.1 = .obj id → (w.entries? e.1).isSome → ∃ t, τ.lookup id = some t) :
    ∃ k, (w.image state cs encoding τ e.1).key? = .ok k := by
  cases hk : w.entries? e.1 with
  | none =>
    obtain ⟨y, k, hy, hyk⟩ := h.keys es hes e he hk
    exact ⟨k, by simp [image_leaf hk, hy, hyk]⟩
  | some _ =>
    obtain ⟨id, hid⟩ := exists_obj_of_entries? hk
    obtain ⟨t, ht⟩ := hτ id hid (by simp [hk])
    refine ⟨.table t, ?_⟩
    rw [hid] at hk ⊢
    simp [image_container (Option.isSome_of_eq_some hk), ht, Lua.Value.key?]

end World

/-! ### What a conversion adds -/

def LuaState.withTables (s : LuaState) (ts : Array Lua.Table) : LuaState :=
  { s with machine := { s.machine with heap := { s.machine.heap with tables := ts } } }

/-- What a conversion adds to a world: objects at the end, reports, and tables of a state. The reports and
the tables are all there are. -/
structure Growth where
  objects : Array Object
  reports : Array (List Effect)
  tables : Array Lua.Table

namespace World

def after (w : World) (state : Nat) (g : Growth) : World :=
  { w with
    objects := w.objects ++ g.objects
    diagnostics := g.reports
    states := w.states.modify state (·.withTables g.tables) }

variable {w : World} {state : Nat} {s : LuaState} {cs : Charset} {encoding v : Value} {g : Growth}

theorem after_self (h : w.states[state]? = some s) :
    w.after state ⟨#[], w.diagnostics, s.machine.heap.tables⟩ = w := by
  have hsame : w.states.modify state (·.withTables s.machine.heap.tables) = w.states := by
    refine modify_self fun s' hs' => ?_
    obtain rfl := Option.some.inj (h.symm.trans hs')
    rfl
  simp [after, hsame]

theorem after_state (h : w.states[state]? = some s) :
    (w.after state g).states[state]? = some (s.withTables g.tables) := by
  simp [after, Array.getElem?_modify, h]

theorem Opens.after (hs : w.Opens state s encoding) :
    (w.after state g).Opens state (s.withTables g.tables) encoding :=
  ⟨after_state hs.found, hs.isOpen, hs.encoding_eq⟩

theorem object_after {id : Nat} {o : Object} (h : w.objects[id]? = some o) :
    (w.after state g).objects[id]? = some o := by
  have hlt : id < w.objects.size := (Array.getElem?_eq_some_iff.mp h).1
  simp [World.after, Array.getElem?_append_left hlt, h]

theorem leafForm?_after {u : Value} (h : w.leafForm? state encoding v = some u) :
    (w.after state g).leafForm? state encoding v = some u := by
  cases v with
  | obj id =>
    cases ho : w.objects[id]? with
    | none => simp [leafForm?, ho] at h
    | some o => simpa only [leafForm?, ho, object_after ho] using h
  | _ => exact h

theorem pushed?_of_objects {w' : World} {y : Lua.Value} (h : w.pushed? state cs v = some y)
    (ho : ∀ (id : Nat) (o : Object), w.objects[id]? = some o → w'.objects[id]? = some o) :
    w'.pushed? state cs v = some y := by
  cases v with
  | obj id =>
    cases hid : w.objects[id]? with
    | none => simp [pushed?, hid] at h
    | some o => simpa only [pushed?, hid, ho id o hid] using h
  | _ => exact h

end World

def Growth.Before (g g' : Growth) : Prop := ∃ os, g'.objects = g.objects ++ os

theorem Growth.Before.refl (g : Growth) : g.Before g := ⟨#[], by simp⟩

theorem Growth.Before.trans {g g' g'' : Growth} (h : g.Before g') (h' : g'.Before g'') : g.Before g'' := by
  obtain ⟨os, hos⟩ := h
  obtain ⟨os', hos'⟩ := h'
  exact ⟨os ++ os', by rw [hos', hos, Array.append_assoc]⟩

theorem Growth.Before.object {w : World} {state id : Nat} {g g' : Growth} {o : Object} (h : g.Before g')
    (ho : (w.after state g).objects[id]? = some o) : (w.after state g').objects[id]? = some o := by
  obtain ⟨os, hos⟩ := h
  have hlt := (Array.getElem?_eq_some_iff.mp ho).1
  rw [World.after, hos, ← Array.append_assoc]
  rw [World.after] at ho hlt
  rw [Array.getElem?_append_left hlt, ho]

/-- One more table is added, which is empty, and a guest of a state that stands for it. -/
def Growth.newTable (g : Growth) (state : Nat) : Growth where
  objects := g.objects.push (.guest ⟨state, .table g.tables.size, false⟩)
  reports := g.reports
  tables := g.tables.push {}

theorem Growth.before_newTable (g : Growth) (state : Nat) : g.Before (g.newTable state) := ⟨_, Array.push_eq_append⟩

/-- The guest that stands for the new table. -/
theorem World.object_newTable (w : World) (state : Nat) (g : Growth) :
    (w.after state (g.newTable state)).objects[w.objects.size + g.objects.size]? =
      some (.guest ⟨state, .table g.tables.size, false⟩) := by
  simp [World.after, Growth.newTable]

end HostedLua
