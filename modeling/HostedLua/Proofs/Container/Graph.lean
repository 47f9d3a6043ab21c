import HostedLua.Proofs.Container.Image

/-! Graphs of containers on their way to Lua. While a conversion is under way the tables of some containers
are still being filled, and a container that is met again gives its table as it is. The invariant is `Grows`:
new containers have new tables, all filled but those under way, and no other table has changed. -/

namespace HostedLua

open Host

namespace World

variable {w : World} {state : Nat} {fill : Filling}
variable {τ τ₁ τ₂ : Numbering} {σ : Bridge.Seen} {g g₁ g₂ : Growth} {id t : Nat}

/-! ### The tables met -/

/-- The tables met so far are those that a numbering gives, as guests. -/
def Matches (w : World) (state : Nat) (τ : Numbering) (σ : Bridge.Seen) : Prop :=
  List.Forall₂ (fun p q => p.1 = q.1 ∧
    ∃ o, q.2 = .obj o ∧ w.objects[o]? = some (.guest ⟨state, .table p.2, false⟩)) τ σ

theorem lookup_cons_of_ne {β : Type} {c : Nat} {b : β} {l : List (Nat × β)} (h : id ≠ c) :
    ((c, b) :: l).lookup id = l.lookup id := by
  rw [List.lookup_cons, beq_false_of_ne h]

theorem Matches.lookup (h : w.Matches state τ σ) (ht : τ.lookup id = some t) :
    ∃ o, σ.lookup id = some (.obj o) ∧ w.objects[o]? = some (.guest ⟨state, .table t, false⟩) := by
  induction h with
  | nil => simp at ht
  | @cons p q _ _ hpq _ ih =>
    obtain ⟨c, n⟩ := p
    obtain ⟨c', u⟩ := q
    obtain ⟨rfl, o, rfl, ho⟩ := hpq
    by_cases hid : id = c
    · subst hid
      rw [List.lookup_cons_self] at ht
      obtain rfl := Option.some.inj ht
      exact ⟨o, List.lookup_cons_self, ho⟩
    · rw [lookup_cons_of_ne hid] at ht ⊢
      exact ih ht

theorem Matches.lookup_none (h : w.Matches state τ σ) (ht : τ.lookup id = none) : σ.lookup id = none := by
  induction h with
  | nil => rfl
  | @cons p q _ _ hpq _ ih =>
    obtain ⟨c, n⟩ := p
    obtain ⟨c', u⟩ := q
    obtain ⟨rfl, _⟩ := hpq
    by_cases hid : id = c
    · subst hid
      rw [List.lookup_cons_self] at ht
      contradiction
    · rw [lookup_cons_of_ne hid] at ht ⊢
      exact ih ht

theorem Matches.mono {w' : World} (h : w.Matches state τ σ)
    (ho : ∀ (id : Nat) (o : Object), w.objects[id]? = some o → w'.objects[id]? = some o) :
    w'.Matches state τ σ :=
  List.Forall₂.imp (fun _ _ ⟨hfst, o, hsnd, hobj⟩ => ⟨hfst, o, hsnd, ho _ _ hobj⟩) h

/-- A container that is met gets the table that is added. -/
theorem Matches.newTable (h : (w.after state g).Matches state τ σ) (id : Nat) :
    (w.after state (g.newTable state)).Matches state ((id, g.tables.size) :: τ)
      ((id, .obj (w.objects.size + g.objects.size)) :: σ) :=
  .cons ⟨rfl, _, rfl, w.object_newTable state g⟩ (h.mono fun _ _ => (g.before_newTable state).object)

/-! ### The invariant -/

/-- New containers have got the next tables, which hold what their entries come to under any numbering that
goes on from here; and the tables there were are as they were, but for one that is being filled. -/
structure Grows (w : World) (fill : Filling) (filling : Option Nat) (τ τ' : Numbering) (g g' : Growth) : Prop where
  objects : ∃ os, g'.objects = g.objects ++ os
  fresh : ∃ δ : Numbering, τ' = δ ++ τ ∧
    δ.map Prod.snd = (List.range' g.tables.size δ.length).reverse ∧
    g'.tables.size = g.tables.size + δ.length ∧
    ∀ ρ : Numbering, ρ.Extends τ' → ∀ p ∈ δ, ∀ es, w.entries? (.obj p.1) = some es →
      g'.tables[p.2]? = some (fill ρ es)
  kept : ∀ i < g.tables.size, filling ≠ some i → g'.tables[i]? = g.tables[i]?

theorem mem_fresh {δ : Numbering} {n : Nat} (h : δ.map Prod.snd = (List.range' n δ.length).reverse)
    {p : Nat × Nat} (hp : p ∈ δ) : n ≤ p.2 ∧ p.2 < n + δ.length := by
  have hmem : p.2 ∈ δ.map Prod.snd := List.mem_map_of_mem hp
  rw [h, List.mem_reverse, List.mem_range'_1] at hmem
  exact hmem

namespace Grows

variable {filling : Option Nat}

theorem refl : Grows w fill filling τ τ g g where
  objects := ⟨#[], by simp⟩
  fresh := ⟨[], rfl, rfl, rfl, by simp⟩
  kept := fun _ _ _ => rfl

theorem of_reports {reports : Array (List Effect)} :
    Grows w fill filling τ τ g { g with reports } where
  objects := ⟨#[], by simp⟩
  fresh := ⟨[], rfl, rfl, rfl, by simp⟩
  kept := fun _ _ _ => rfl

theorem put {k : Lua.Key} {y : Lua.Value} :
    Grows w fill (some t) τ τ g { g with tables := g.tables.modify t (·.set k y) } where
  objects := ⟨#[], by simp⟩
  fresh := ⟨[], rfl, rfl, by simp, by simp⟩
  kept := by
    intro i hi hne
    have : t ≠ i := fun he => hne (he ▸ rfl)
    simp [Array.getElem?_modify, this]

theorem weaken (h : Grows w fill none τ τ₁ g g₁) : Grows w fill filling τ τ₁ g g₁ where
  objects := h.objects
  fresh := h.fresh
  kept := fun i hi _ => h.kept i hi (by simp)

theorem suffix (h : Grows w fill filling τ τ₁ g g₁) : τ <:+ τ₁ := by
  obtain ⟨δ, rfl, _⟩ := h.fresh
  exact List.suffix_append _ _

theorem size_le (h : Grows w fill filling τ τ₁ g g₁) : g.tables.size ≤ g₁.tables.size := by
  obtain ⟨δ, _, _, hsize, _⟩ := h.fresh
  omega

theorem object (h : Grows w fill filling τ τ₁ g g₁) {o : Object}
    (ho : (w.after state g).objects[id]? = some o) : (w.after state g₁).objects[id]? = some o :=
  Growth.Before.object h.objects ho

theorem trans (h : Grows w fill filling τ τ₁ g g₁) (h' : Grows w fill filling τ₁ τ₂ g₁ g₂)
    (hf : ∀ t, filling = some t → t < g.tables.size) : Grows w fill filling τ τ₂ g g₂ := by
  have hle := h.size_le
  have hsuffix := h'.suffix
  obtain ⟨δ, rfl, hδ, hsize, hfull⟩ := h.fresh
  obtain ⟨δ', rfl, hδ', hsize', hfull'⟩ := h'.fresh
  refine ⟨?_, ⟨δ' ++ δ, (List.append_assoc ..).symm, ?_, ?_, ?_⟩, ?_⟩
  · obtain ⟨os, hos⟩ := h.objects
    obtain ⟨os', hos'⟩ := h'.objects
    exact ⟨os ++ os', by rw [hos', hos, Array.append_assoc]⟩
  · rw [List.map_append, hδ, hδ', hsize, List.length_append, Nat.add_comm δ'.length, ← List.range'_append_1,
      List.reverse_append]
  · rw [hsize', hsize, List.length_append, Nat.add_assoc, Nat.add_comm δ'.length]
  · intro ρ hρ p hp es hes
    rcases List.mem_append.mp hp with hp | hp
    · exact hfull' ρ hρ p hp es hes
    · have hmem := mem_fresh hδ hp
      have hne : filling ≠ some p.2 := fun he => by have := hf _ he; omega
      rw [h'.kept p.2 (by omega) hne]
      exact hfull ρ (hρ.trans hsuffix) p hp es hes
  · intro i hi hne
    rw [h'.kept i (by omega) hne, h.kept i hi hne]

/-- A table that has been made and filled is one of the new ones. -/
theorem close {es : List (Value × Value)} (hes : w.entries? (.obj id) = some es)
    (h : Grows w fill (some g.tables.size) ((id, g.tables.size) :: τ) τ₁ (g.newTable state) g₁)
    (hfull : ∀ ρ : Numbering, ρ.Extends τ₁ →
      g₁.tables[g.tables.size]? = some (fill ρ es)) :
    Grows w fill none τ τ₁ g g₁ := by
  obtain ⟨⟨os, hos⟩, ⟨δ, rfl, hδ, hsize, hnew⟩, hkept⟩ := h
  simp only [Growth.newTable, Array.size_push] at hδ hsize hkept
  refine ⟨(g.before_newTable state).trans ⟨os, hos⟩,
    ⟨δ ++ [(id, g.tables.size)], by simp, ?_, by simp; omega, ?_⟩, ?_⟩
  · rw [List.map_append, hδ, List.length_append, List.length_singleton, List.range'_succ, List.reverse_cons]
    rfl
  · intro ρ hρ p hp es' hes'
    rcases List.mem_append.mp hp with hp | hp
    · exact hnew ρ hρ p hp es' hes'
    · obtain rfl := List.mem_singleton.mp hp
      obtain rfl := Option.some.inj (hes.symm.trans hes')
      exact hfull ρ hρ
  · intro i hi _
    rw [hkept i (by omega) (by simp; omega), Array.getElem?_push_lt hi, Array.getElem?_eq_getElem hi]

end Grows

end World

end HostedLua
