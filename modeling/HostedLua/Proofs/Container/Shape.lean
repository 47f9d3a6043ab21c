import HostedLua.Host.Run
import HostedLua.Proofs.Container.Fill

/-! The shape of containers in Lua. Whatever containers share and however they go round in circles, a
conversion gives each that occurs a new table of its own, and the table holds what the entries assign. -/

namespace HostedLua

open Host

/-- Tables mirror the containers that occur in a value. Every container has a number, no two have the same
one, and the numbers are those of the tables that are new; the others have not changed. Each new table holds
the images of its container's entries, assigned in order. -/
structure World.Mirrors (w : World) (state : Nat) (cs : Charset) (encoding v : Value)
    (old new : Array Lua.Table) (τ : Numbering) : Prop where
  occurs : ∀ id, id ∈ τ.map Prod.fst ↔ (w.entries? (.obj id)).isSome ∧ w.Occurs v (.obj id)
  once : (τ.map Prod.fst).Nodup
  numbers : τ.map Prod.snd = (List.range' old.size τ.length).reverse
  size : new.size = old.size + τ.length
  kept : ∀ i < old.size, new[i]? = old[i]?
  filled : ∀ p ∈ τ, ∀ es, w.entries? (.obj p.1) = some es →
    new[p.2]? = some (es.foldl (World.assign (w.image state cs encoding τ)) {})

namespace Bridge

open World

variable {w : World} {state : Nat} {s : LuaState} {encoding v : Value}

/-- A conversion for which its state is held gives tables that mirror the containers of the value. -/
theorem exists_mirrors_of_held (hs : w.Opens state s encoding) (hw : state ∈ w.heldStates)
    (hc : w.Convertible state s.charset encoding v) (hd : (w.visit (w.limits.nesting + 1) [] v).isSome) :
    ∃ u τ g, toGuest state v w = some (.ok u, w.after state g) ∧
      w.Mirrors state s.charset encoding v s.machine.heap.tables g.tables τ ∧
      (w.after state g).pushed? state s.charset u = some (w.image state s.charset encoding τ v) := by
  obtain ⟨seen, hseen⟩ := Option.isSome_iff_exists.mp hd
  obtain ⟨u, τ, σ, g, hrun, rfl, -, hg, y, hpush, hv⟩ :=
    converted hs hw (w.limits.nesting + 1) v [] [] ⟨#[], w.diagnostics, s.machine.heap.tables⟩ seen hc .nil List.nodup_nil hseen
  rw [after_self hs.found] at hrun
  have hτ : τ.Extends τ := ⟨List.suffix_refl _, nodup_visit hseen⟩
  obtain ⟨δ, hδ, hnumbers, hsize, hfull⟩ := hg.fresh
  obtain rfl : τ = δ := by simpa using hδ
  refine ⟨u, τ, g, toGuest_ok hrun, ?_, by rw [hpush, hv τ hτ]⟩
  exact {
    occurs := fun id => mem_visit_iff hseen
    once := hτ.2
    numbers := hnumbers
    size := hsize
    kept := fun i hi => hg.kept i hi (by simp)
    filled := hfull τ hτ }

/-- A conversion keeps the shape of containers: it succeeds where it stays within the limit on nesting, the
tables that it makes mirror the containers that occur, and the value is pushed as its image under them. -/
theorem toGuest_mirrors (hs : w.Opens state s encoding) (hc : w.Convertible state s.charset encoding v)
    (hd : (w.visit (w.limits.nesting + 1) [] v).isSome) :
    ∃ u τ g, holding [v] state (toGuest state v) w = some (.ok u, w.after state g) ∧
      w.Mirrors state s.charset encoding v s.machine.heap.tables g.tables τ ∧
      push state u (w.after state g) = some (.ok (w.image state s.charset encoding τ v), w.after state g) := by
  let held : World := { w with held := [v] ++ w.held, heldStates := state :: w.heldStates }
  have ho : held.objects = w.objects := rfl
  have hheld : held.Opens state s encoding := hs.mono rfl rfl
  obtain ⟨u, τ, g, hrun, hτ, hpush⟩ := exists_mirrors_of_held hheld (List.mem_cons_self ..)
    ((convertible_congr ho).mpr hc) (by rwa [visit_congr ho])
  refine ⟨u, τ, g, holding_ok hrun, ?_, ?_⟩
  · exact {
      occurs := by simpa only [occurs_congr ho, entries?_congr ho] using hτ.occurs
      once := hτ.once
      numbers := hτ.numbers
      size := hτ.size
      kept := hτ.kept
      filled := by simpa only [entries?_congr ho, image_congr ho] using hτ.filled }
  · rw [image_congr ho] at hpush
    exact push_ok (after_state hs.found) (pushed?_of_objects hpush fun _ _ h => h)

/-- However containers go round in circles, the conversion succeeds where no more of them occur than may lie in each
other. -/
theorem toGuest_mirrors_of_card (hs : w.Opens state s encoding) (hc : w.Convertible state s.charset encoding v)
    {ids : Finset Nat} (hids : ∀ id, (w.entries? (.obj id)).isSome → w.Occurs v (.obj id) → id ∈ ids)
    (hcard : ids.card ≤ w.limits.nesting) :
    ∃ u τ g, holding [v] state (toGuest state v) w = some (.ok u, w.after state g) ∧
      w.Mirrors state s.charset encoding v s.machine.heap.tables g.tables τ ∧
      push state u (w.after state g) = some (.ok (w.image state s.charset encoding τ v), w.after state g) := by
  refine toGuest_mirrors hs hc (visit_isSome ids hids ?_)
  exact Nat.lt_succ_of_le ((Finset.card_filter_le ..).trans hcard)

end Bridge

end HostedLua
