import HostedLua.Proofs.Crossing.Intact
import Mathlib.Algebra.BigOperators.Group.Finset.Basic
import Mathlib.Algebra.Order.BigOperators.Group.Finset

/-! What is held stays held. What a world holds is found by marking: from the roots, along the parts of objects. The
marks are the least set with the roots that has the parts of all that is in it, and so nothing is lost where a state
goes on and objects are added. A handle that is valid stays so. -/

namespace HostedLua

open Host

def Host.Value.id? : Value → Option Nat
  | .obj id => some id
  | _ => Option.none

/-- Whether a set has an element that passes a test is told by the list of its elements. -/
theorem any_toList (s : Std.TreeSet Nat) (p : Nat → Bool) : s.any p = s.toList.any p := by
  let next (i : Nat) (_ : Option Bool × Unit) : Id (ForInStep (Option Bool × Unit)) :=
    if p i = true then pure (.done (some true, ())) else pure (.yield (none, ()))
  have hlist (l : List Nat) :
      forIn l (none, ()) next = pure (if l.any p = true then (some true, ()) else (none, ())) := by
    induction l with
    | nil => rfl
    | cons i l ih =>
      rw [List.forIn_cons, List.any_cons]
      cases hp : p i with
      | true => simp [next, hp]
      | false => simpa [next, hp] using ih
  have hnext :
      (forIn s (none, ()) next : Id (Option Bool × Unit)).run.1 =
        if s.toList.any p = true then some true else none := by
    rw [Std.TreeSet.forIn_eq_forIn_toList, hlist]
    split_ifs <;> rfl
  unfold Std.TreeSet.any Std.TreeMap.any Std.DTreeMap.any Std.DTreeMap.Internal.Impl.any
  dsimp only [Id.run_bind]
  split
  · next r h =>
    have hr := hnext.symm.trans h
    split_ifs at hr with hany
    · obtain rfl := Option.some.inj hr
      exact hany.symm
  · next h =>
    have hr := hnext.symm.trans h
    split_ifs at hr with hany
    exact (Bool.eq_false_iff.mpr hany).symm

namespace World

variable {w w' w'' : World} {state fuel i : Nat} {todo : List Nat} {seen : Std.TreeSet Nat}

def partsOf (w : World) (i : Nat) : List Nat := (((w.objects[i]?).map Object.parts).getD []).filterMap Value.id?

theorem mark_seen (hi : i ∈ seen) : w.mark (fuel + 1) (i :: todo) seen = w.mark fuel todo seen := by
  rw [mark, if_pos (Std.TreeSet.contains_iff_mem.mpr hi)]

theorem mark_fresh (hi : i ∉ seen) :
    w.mark (fuel + 1) (i :: todo) seen = w.mark fuel (w.partsOf i ++ todo) (seen.insert i) := by
  rw [mark, if_neg fun h => hi (Std.TreeSet.contains_iff_mem.mp h)]
  unfold partsOf Value.id?
  rfl

/-- Nothing is marked that is not in a set with the parts of all that is in it. -/
theorem mark_least {A : Nat → Prop} (hclosed : ∀ i, A i → ∀ j ∈ w.partsOf i, A j) (htodo : ∀ i ∈ todo, A i)
    (hseen : ∀ i ∈ seen, A i) : ∀ i ∈ w.mark fuel todo seen, A i := by
  induction fuel generalizing todo seen with
  | zero => exact hseen
  | succ fuel ih =>
    cases todo with
    | nil => exact hseen
    | cons i todo =>
      obtain ⟨hi, htodo⟩ := List.forall_mem_cons.mp htodo
      by_cases hmem : i ∈ seen
      · rw [mark_seen hmem]
        exact ih htodo hseen
      · rw [mark_fresh hmem]
        refine ih (fun j hj => ?_) fun j hj => ?_
        · exact (List.mem_append.mp hj).elim (hclosed i hi j) (htodo j)
        · rcases Std.TreeSet.mem_insert.mp hj with heq | hj
          · exact Std.LawfulEqCmp.eq_of_compare heq ▸ hi
          · exact hseen j hj

/-- How many parts there are of objects that have not been marked. -/
def unmarked (w : World) (seen : Std.TreeSet Nat) : Nat :=
  ∑ i ∈ Finset.range w.objects.size with i ∉ seen, (w.partsOf i).length

theorem partsOf_of_size_le (hi : w.objects.size ≤ i) : w.partsOf i = [] := by
  rw [partsOf, Array.getElem?_eq_none hi]
  rfl

theorem unmarked_insert (hi : i ∉ seen) : (w.partsOf i).length + w.unmarked (seen.insert i) = w.unmarked seen := by
  have herase : (Finset.range w.objects.size).filter (· ∉ seen.insert i) =
      ((Finset.range w.objects.size).filter (· ∉ seen)).erase i := by
    ext j
    simp only [Finset.mem_filter, Finset.mem_erase, Std.TreeSet.mem_insert, Std.LawfulEqCmp.compare_eq_iff_eq]
    tauto
  rw [unmarked, herase]
  by_cases hlt : i < w.objects.size
  · exact Finset.add_sum_erase _ (fun i => (w.partsOf i).length) (by simpa [hi] using hlt)
  · rw [partsOf_of_size_le (Nat.le_of_not_lt hlt), Finset.erase_eq_of_notMem (by simp [hlt]), unmarked]
    exact Nat.zero_add _

/-- With time enough for all parts, all that was to be marked is, and the parts of what has been marked. -/
theorem mark_closed (fuel : Nat) (todo : List Nat) (seen : Std.TreeSet Nat)
    (hfuel : todo.length + w.unmarked seen < fuel) :
    (∀ i ∈ seen, i ∈ w.mark fuel todo seen) ∧ (∀ i ∈ todo, i ∈ w.mark fuel todo seen) ∧
      ∀ i ∈ w.mark fuel todo seen, i ∉ seen → ∀ j ∈ w.partsOf i, j ∈ w.mark fuel todo seen := by
  induction fuel generalizing todo seen with
  | zero => contradiction
  | succ fuel ih =>
    cases todo with
    | nil => exact ⟨fun i hi => hi, fun i hi => absurd hi List.not_mem_nil, fun i hi hnot => absurd hi hnot⟩
    | cons i todo =>
      rw [List.length_cons] at hfuel
      by_cases hmem : i ∈ seen
      · rw [mark_seen hmem]
        obtain ⟨hseen, htodo, hparts⟩ := ih todo seen (by omega)
        exact ⟨hseen, List.forall_mem_cons.mpr ⟨hseen i hmem, htodo⟩, hparts⟩
      · rw [mark_fresh hmem]
        have hless := unmarked_insert (w := w) hmem
        obtain ⟨hseen, htodo, hparts⟩ := ih (w.partsOf i ++ todo) (seen.insert i)
          (by rw [List.length_append]; omega)
        have hi := hseen i (Std.TreeSet.mem_insert_self)
        refine ⟨fun j hj => hseen j (Std.TreeSet.mem_insert.mpr (.inr hj)), ?_, fun j hj hnot k hk => ?_⟩
        · exact List.forall_mem_cons.mpr ⟨hi, fun j hj => htodo j (List.mem_append_right _ hj)⟩
        · by_cases heq : j = i
          · exact htodo k (List.mem_append_left _ (heq ▸ hk))
          · refine hparts j hj (fun hins => ?_) k hk
            rcases Std.TreeSet.mem_insert.mp hins with hcmp | hins
            · exact heq (Std.LawfulEqCmp.eq_of_compare hcmp).symm
            · exact hnot hins

/-! ### What is held -/

/-- The objects that are held from outside: by name, by a computation under way, or by Lua. -/
def roots (w : World) : List Nat :=
  (w.bindings ++ w.names).filterMap (fun p => p.2.id?) ++ w.held.filterMap Value.id? ++
    w.states.toList.flatMap fun s => if s.isOpen then heldByLua s.machine.heap else []

theorem length_partsOf_sum (os : List Object) :
    ∑ i ∈ Finset.range os.length, ((((os[i]?).map Object.parts).getD []).filterMap Value.id?).length ≤
      (os.map fun o => o.parts.length).sum := by
  induction os with
  | nil => simp
  | cons o os ih =>
    rw [List.length_cons, Finset.sum_range_succ', List.map_cons, List.sum_cons, Nat.add_comm]
    refine Nat.add_le_add ?_ ?_
    · simpa using List.length_filterMap_le Value.id? o.parts
    · simpa using ih

theorem live_eq : w.live = w.mark (4 * (w.objects.size + w.roots.length + 4) +
    (w.objects.toList.map fun o => o.parts.length).foldl (· + ·) 0) (w.roots ++ w.scriptRoots w.roots) {} := by
  unfold live roots Value.id?
  rfl

/-- There is time enough to mark all that is held: the roots, and the parts of what is held. -/
theorem live_closed : (∀ i ∈ w.roots, i ∈ w.live) ∧ (∀ i ∈ w.scriptRoots w.roots, i ∈ w.live) ∧
    ∀ i ∈ w.live, ∀ j ∈ w.partsOf i, j ∈ w.live := by
  have hscripts : (w.scriptRoots w.roots).length ≤ w.roots.length := List.length_filterMap_le ..
  have hparts : w.unmarked {} ≤ (w.objects.toList.map fun o => o.parts.length).foldl (· + ·) 0 := by
    rw [← List.sum_eq_foldl]
    refine (Finset.sum_le_sum_of_subset (Finset.filter_subset ..)).trans ?_
    simpa [partsOf] using length_partsOf_sum w.objects.toList
  rw [live_eq]
  obtain ⟨-, hroots, hclosed⟩ := mark_closed (w := w) (4 * (w.objects.size + w.roots.length + 4) +
      (w.objects.toList.map fun o => o.parts.length).foldl (· + ·) 0) (w.roots ++ w.scriptRoots w.roots) {}
    (by rw [List.length_append]; omega)
  exact ⟨fun i hi => hroots i (List.mem_append_left _ hi), fun i hi => hroots i (List.mem_append_right _ hi),
    fun i hi => hclosed i hi Std.TreeSet.not_mem_emptyc⟩

/-- Nothing is held that is not in a set with the roots and the parts of all that is in it. -/
theorem live_least {A : Nat → Prop} (hroots : ∀ i ∈ w.roots, A i) (hscripts : ∀ i ∈ w.scriptRoots w.roots, A i)
    (hclosed : ∀ i, A i → ∀ j ∈ w.partsOf i, A j) : ∀ i ∈ w.live, A i := by
  rw [live_eq]
  refine mark_least hclosed (fun i hi => ?_) fun i hi => absurd hi Std.TreeSet.not_mem_emptyc
  exact (List.mem_append.mp hi).elim (hroots i) (hscripts i)

/-! ### What stays held -/

/-- A world in which a state has gone on, and all that was there before is as it was and held by the same
computations. -/
structure Steady (w : World) (state : Nat) (w' : World) : Prop extends w.Intact state w' where
  held : w'.held = w.held
  heldStates : w'.heldStates = w.heldStates

theorem Steady.refl (w : World) (state : Nat) : w.Steady state w := ⟨.refl w state, rfl, rfl⟩

theorem Steady.trans (h : w.Steady state w') (h' : w'.Steady state w'') : w.Steady state w'' :=
  ⟨h.toIntact.trans h'.toIntact, h'.held.trans h.held, h'.heldStates.trans h.heldStates⟩

theorem mem_heldByLua {h h' : Lua.Heap} (hg : h.Grown h') (hi : i ∈ heldByLua h) : i ∈ heldByLua h' := by
  rw [heldByLua, List.mem_append] at hi ⊢
  rw [hg.tables]
  refine hi.imp_left fun hi => ?_
  obtain ⟨v, hv, heq⟩ := List.mem_filterMap.mp hi
  obtain ⟨c, hc⟩ := List.mem_iff_getElem?.mp hv
  rw [Array.getElem?_toList] at hc
  refine List.mem_filterMap.mpr ⟨v, List.mem_iff_getElem?.mpr ⟨c, ?_⟩, heq⟩
  rw [Array.getElem?_toList, hg.cells hc]

theorem Steady.roots (h : w.Steady state w') (hi : i ∈ w.roots) : i ∈ w'.roots := by
  have hbindings : w'.bindings = w.bindings := h.field World.bindings fun _ => rfl
  have hnames : w'.names = w.names := h.field World.names fun _ => rfl
  rw [World.roots, List.mem_append] at hi ⊢
  rw [hbindings, hnames, h.held]
  refine hi.imp_right fun hi => ?_
  obtain ⟨s, hs, hi⟩ := List.mem_flatMap.mp hi
  obtain ⟨j, hj⟩ := List.mem_iff_getElem?.mp hs
  rw [Array.getElem?_toList] at hj
  obtain ⟨s', hs', hopen, hheap⟩ : ∃ s', w'.states[j]? = some s' ∧ s'.isOpen = s.isOpen ∧
      s.machine.heap.Grown s'.machine.heap := by
    by_cases heq : j = state
    · obtain rfl := heq
      obtain ⟨m, hm, hspares⟩ := h.machine hj
      exact ⟨_, hm, rfl, hspares.heap⟩
    · exact ⟨s, (h.others heq).trans hj, rfl, .refl _⟩
  refine List.mem_flatMap.mpr ⟨s', List.mem_iff_getElem?.mpr ⟨j, by rw [Array.getElem?_toList, hs']⟩, ?_⟩
  rw [hopen]
  split_ifs at hi ⊢
  · exact mem_heldByLua hheap hi
  · exact hi

theorem Steady.scriptRoots (h : w.Steady state w') {ids : List Nat} (hi : i ∈ w.scriptRoots ids) {ids' : List Nat}
    (hids : ∀ id ∈ ids, id ∈ ids') : i ∈ w'.scriptRoots ids' := by
  have hscripts : w'.scripts = w.scripts := h.field World.scripts fun _ => rfl
  obtain ⟨id, hid, heq⟩ := List.mem_filterMap.mp hi
  refine List.mem_filterMap.mpr ⟨id, hids id hid, ?_⟩
  cases ho : w.objects[id]? with
  | none => simp [ho] at heq
  | some o =>
    rw [ho] at heq
    rw [h.objects ho, hscripts]
    exact heq

theorem Steady.partsOf (h : w.Steady state w') {j : Nat} (hj : j ∈ w.partsOf i) : j ∈ w'.partsOf i := by
  cases ho : w.objects[i]? with
  | none => simp [World.partsOf, ho] at hj
  | some o =>
    rw [World.partsOf, ho] at hj
    rwa [World.partsOf, h.objects ho]

/-- What is held is held later. -/
theorem Steady.live (h : w.Steady state w') (hi : i ∈ w.live) : i ∈ w'.live := by
  obtain ⟨hroots, hscripts, hclosed⟩ := live_closed (w := w')
  exact live_least (fun j hj => hroots j (h.roots hj))
    (fun j hj => hscripts j (h.scriptRoots hj fun _ => h.roots))
    (fun j hj k hk => hclosed j hj k (h.partsOf hk)) i hi

/-- A state that is held is so later. -/
theorem Steady.stateAlive (h : w.Steady state w') (hi : w.stateAlive i = true) : w'.stateAlive i = true := by
  have hlanguages : w'.languages = w.languages := h.field World.languages fun _ => rfl
  rw [World.stateAlive, Bool.or_eq_true] at hi ⊢
  rw [hlanguages, h.heldStates]
  refine hi.imp_right fun hany => ?_
  rw [any_toList, List.any_eq_true] at hany ⊢
  obtain ⟨id, hid, hstate⟩ := hany
  refine ⟨id, Std.TreeSet.mem_toList.mpr (h.live (Std.TreeSet.mem_toList.mp hid)), ?_⟩
  cases ho : w.objects[id]? with
  | none => simp [ho] at hstate
  | some o =>
    rw [ho] at hstate
    rw [h.objects ho]
    exact hstate

end World

end HostedLua
