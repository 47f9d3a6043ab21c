import HostedLua.Proofs.Lua.HostCall

/-! The threads that are under way. From the current thread control goes back to the main one along those that wait,
each of which is on the way once, except the main one, on which the host calls. A thread that stops is off the way, so
nothing gives a dead thread a turn, and the one that has a turn is not dead. -/

namespace HostedLua.Lua.Machine

variable {b m m' : Machine} {E S : List Frame} {t : Nat} {D : Nat → Prop}

/-- The thread that runs and those that wait for it, the innermost first. -/
def chain (m : Machine) : List Nat := m.current :: m.waiting

/-- The threads under way wait, and each but the main one is under way once. -/
structure Linked (m : Machine) : Prop where
  waits : ∀ u ∈ m.chain, HasRest m.threads u .waiting
  once : (m.chain.filter (· ≠ 0)).Nodup

theorem Linked.not_dead (h : m.Linked) {u : Nat} (hu : u ∈ m.chain) : ¬ HasRest m.threads u .dead := by
  intro hdead
  cases (h.waits u hu).unique hdead

/-- A dead thread shows that it is, since it does not run. -/
theorem Linked.status_dead (h : m.Linked) (hdead : HasRest m.threads t .dead) : m.status t = .dead := by
  have hne : t ≠ m.current := fun heq => h.not_dead (heq ▸ List.mem_cons_self ..) hdead
  obtain ⟨th, hth, hrest⟩ := hdead
  rw [status, if_neg hne, thread, hth, Option.getD_some, hrest]

/-! ### What keeps the way -/

/-- Some of the threads under way are so still, and have gone on waiting. -/
theorem Linked.of_sublist (h : m.Linked) (hs : Stands m.threads m'.threads) (hchain : m'.chain.Sublist m.chain) :
    m'.Linked :=
  ⟨fun u hu => (h.waits u (hchain.subset hu)).of_stands (.inl rfl) hs, h.once.sublist (hchain.filter _)⟩

theorem Linked.of_stands (h : m.Linked) (hs : Stands m.threads m'.threads) (hchain : m'.chain = m.chain) : m'.Linked :=
  h.of_sublist hs (hchain ▸ List.Sublist.refl _)

theorem Linked.kept (h : m.Linked) (hk : m.Kept m') : m'.Linked :=
  h.of_stands hk.stands (by rw [chain, hk.current, hk.waiting, chain])

/-- Where no call by the host is under way and nothing waits for the main thread, that is all there is. -/
theorem linked_main (hm : m.Sound) (hcur : m.current = 0) (hw : m.waiting = []) : m.Linked := by
  obtain ⟨⟨S, hS⟩, -⟩ := hm
  have hchain : m.chain = [0] := by rw [chain, hcur, hw]
  refine ⟨fun u hu => ?_, by simp [hchain]⟩
  rw [hchain, List.mem_singleton] at hu
  exact hu ▸ ⟨_, hS.main, rfl⟩

theorem threads_answer (m : Machine) (a : Except Value (List Value)) : (m.answer a).threads = m.threads := by
  rw [answer]
  split
  · cases a <;> rfl
  · rfl

theorem chain_answer (m : Machine) (a : Except Value (List Value)) : (m.answer a).chain = m.chain := by
  rw [answer]
  split
  · cases a <;> rfl
  · rfl

theorem Linked.answer (h : m.Linked) (a : Except Value (List Value)) : (m.answer a).Linked :=
  h.of_stands (threads_answer m a ▸ .refl) (chain_answer m a)

/-- The main thread, on which the host calls, may be under way more than once. -/
theorem Linked.enter {p : Prog} (h : b.Linked) (hb : b.Sound) : (b.enter p).Linked := by
  obtain ⟨hcur, hwaiting, ⟨S, hS⟩, -⟩ := enter_main (p := p) hb
  have hstands : Stands b.threads (b.enter p).threads := stands_enter
  have hchain : (b.enter p).chain = 0 :: b.behind := by rw [chain, hcur, hwaiting]
  have hbehind : b.behind.Sublist b.chain := by
    rw [behind]
    split_ifs
    · exact List.sublist_cons_self _ _
    · exact .refl _
  refine ⟨fun u hu => ?_, ?_⟩
  · rw [hchain] at hu
    rcases List.mem_cons.mp hu with rfl | hu
    · exact ⟨_, hS.main, rfl⟩
    · exact (h.waits u (hbehind.subset hu)).of_stands (.inl rfl) hstands
  · rw [hchain, List.filter_cons_of_neg (by simp)]
    exact h.once.sublist (hbehind.filter _)

/-- The thread that runs is not one of those that wait for it. -/
theorem Linked.current_not_mem (h : m.Linked) (hcur : m.current ≠ 0) : m.current ∉ m.waiting := by
  have honce := h.once
  rw [chain, List.filter_cons_of_pos (by simpa using hcur)] at honce
  intro hmem
  exact (List.nodup_cons.mp honce).1 (List.mem_filter.mpr ⟨hmem, by simpa using hcur⟩)

/-- A step keeps the threads under way in order, and dead threads dead. -/
theorem Linked.step (h : m.Linked) (hwaiting : m.current ≠ 0 → m.waiting ≠ []) (hdoes : Does E S m (.inl m')) :
    m'.Linked ∧ ∀ t, HasRest m.threads t .dead → HasRest m'.threads t .dead := by
  generalize heq : (Sum.inl m' : Machine ⊕ (Machine × Stop)) = r at hdoes
  cases hdoes with
  | stays current waiting _ stands _ =>
    obtain rfl := Sum.inl.inj heq
    exact ⟨h.of_stands stands (by rw [chain, current, waiting, chain]), fun _ hdead => hdead.of_stands (.inr rfl) stands⟩
  | switches current waiting _ stands loose _ waits =>
    obtain rfl := Sum.inl.inj heq
    have hchain : m'.chain = m'.current :: m.chain := by rw [chain, waiting, chain]
    have hnew : m'.current ∉ m.chain := by
      intro hmem
      obtain ⟨th, hth, hrest⟩ := h.waits _ hmem
      exact loose th hth (.inl hrest)
    refine ⟨⟨fun u hu => ?_, ?_⟩, fun _ hdead => hdead.of_stands (.inr rfl) stands⟩
    · rw [hchain] at hu
      rcases List.mem_cons.mp hu with rfl | hu
      · exact waits
      · exact (h.waits u hu).of_stands (.inl rfl) stands
    · rw [hchain, List.filter_cons_of_pos (by simpa using current)]
      exact List.nodup_cons.mpr ⟨fun hmem => hnew (List.mem_filter.mp hmem).1, h.once⟩
  | @goesBack m₁ th r current waiting _ left _ =>
    obtain rfl := Sum.inl.inj heq
    -- the thread that stops is off the way, and no other one has changed
    have hother {u : Nat} (hne : u ≠ m.current) : m₁.threads[u]? = m.threads[u]? := by
      rw [left, Array.getElem?_modify, if_neg hne.symm]
    have hchain : (m₁.switchBack r).chain = m.waiting := by
      rw [chain, switchBack_waiting (by rw [waiting]; exact hwaiting current), waiting]
    refine ⟨⟨fun u hu => ?_, ?_⟩, fun t hdead => ?_⟩
    · rw [hchain] at hu
      have hne : u ≠ m.current := fun heq => h.current_not_mem current (heq ▸ hu)
      obtain ⟨th₀, hth₀, hrest⟩ := h.waits u (List.mem_cons_of_mem _ hu)
      have hwaits : HasRest m₁.threads u .waiting := ⟨th₀, (hother hne).trans hth₀, hrest⟩
      exact hwaits.of_stands (.inl rfl) stands_switchBack
    · rw [hchain]
      exact h.once.sublist ((List.sublist_cons_self ..).filter _)
    · have hne : t ≠ m.current := fun heq => h.not_dead (heq ▸ List.mem_cons_self ..) hdead
      obtain ⟨th₀, hth₀, hrest⟩ := hdead
      have hdead₁ : HasRest m₁.threads t .dead := ⟨th₀, (hother hne).trans hth₀, hrest⟩
      exact hdead₁.of_stands (.inr rfl) stands_switchBack
  | asks => cases heq
  | ends => cases heq

/-! ### Calls by the host -/

/-- While another thread runs for the host, the main thread waits. -/
theorem Running.waiting_ne_nil (h : Running b m) (hcur : m.current ≠ 0) : m.waiting ≠ [] := by
  cases h with
  | main current => exact absurd current hcur
  | away away _ =>
    obtain ⟨us, -, hw⟩ := away.waiting
    simp [hw]

/-- The host's call ends on the main thread, and the threads that were under way when it began are so again. -/
theorem Running.chain_sublist {r : Except Thrown (List Value)} (h : Running b m) (hs : m.step = .inr (m', .done r)) :
    b.chain.Sublist m.chain := by
  cases h with
  | away away _ => exact absurd hs away.not_done
  | main current waiting =>
    rw [chain, chain, current, waiting, behind]
    split_ifs with hcur
    · exact hcur ▸ .refl _
    · exact List.sublist_cons_self _ _

/-- A call by the host is under way, along threads that wait, and certain threads are dead. -/
structure InLine (b : Machine) (D : Nat → Prop) (m : Machine) : Prop where
  underWay : UnderWay b m
  linked : m.Linked
  dead : ∀ t, D t → HasRest m.threads t .dead

theorem UnderWay.sound_of_stops {stop : Stop} (h : UnderWay b m) (hs : m.step = .inr (m', stop)) : m'.Sound := by
  cases stop with
  | asks q => exact (h.running.asks hs).sound
  | done r => exact ((lasts_underWay b).done h hs).1

/-- Where a call by the host stops, the threads under way are in order, and the dead ones are dead still. -/
theorem InLine.stops {stop : Stop} (h : InLine b D m) (hs : m.step = .inr (m', stop)) :
    m'.Sound ∧ m'.Linked ∧ ∀ t, D t → HasRest m'.threads t .dead := by
  have hsound := h.underWay.sound_of_stops hs
  obtain ⟨E, S, hdoes⟩ := h.underWay.running.does
  rw [hs] at hdoes
  cases stop with
  | asks q =>
    cases hdoes
    exact ⟨hsound, h.linked.of_stands .refl rfl, h.dead⟩
  | done r =>
    obtain ⟨-, hkept⟩ := (lasts_underWay b).done h.underWay hs
    cases hdoes with
    | @ends c B _ stack =>
      have hstands : Stands m.threads (m.leave c B).threads := stands_leave
      refine ⟨hsound, h.linked.of_sublist hstands ?_, fun t ht => (h.dead t ht).of_stands (.inr rfl) hstands⟩
      rw [chain, hkept.current, hkept.waiting]
      exact h.underWay.running.chain_sublist hs

theorem lasts_inLine (b : Machine) (D : Nat → Prop) :
    Lasts (InLine b D) fun m _ => m.Sound ∧ m.Linked ∧ ∀ t, D t → HasRest m.threads t .dead where
  step h hs := by
    obtain ⟨E, S, hdoes⟩ := h.underWay.running.does
    obtain ⟨hlinked, hdead⟩ := h.linked.step h.underWay.running.waiting_ne_nil (hs ▸ hdoes)
    exact ⟨(lasts_underWay b).step h.underWay hs, hlinked, fun t ht => hdead t (h.dead t ht)⟩
  asks h hs := by
    obtain ⟨hsound, hanswer⟩ := (lasts_underWay b).asks h.underWay hs
    obtain ⟨-, hlinked, hdead⟩ := h.stops hs
    refine ⟨hsound, fun a hk hs' => ⟨hanswer a hk hs', (hlinked.kept hk).answer a, fun t ht => ?_⟩⟩
    rw [threads_answer]
    exact (hdead t ht).of_stands (.inr rfl) hk.stands
  done h hs := h.stops hs

end HostedLua.Lua.Machine
