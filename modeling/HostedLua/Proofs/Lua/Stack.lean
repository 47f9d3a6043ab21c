import HostedLua.Lua.Machine
import Mathlib.Tactic.SplitIfs

/-! The stacks of a machine. The host calls on the main thread alone, so the mark of a call by the host lies on
no other stack. What one step does to threads and stacks is said once, by `Does`; a step never reaches below
the mark of the host's latest call, and no thread but the current one suspends itself or ends, or is resumed
while it waits or once it is dead. -/

namespace HostedLua.Lua

/-- A thread does nothing of its own accord: it waits for another one, or is dead. -/
def Rest.Settled (r : Rest) : Prop := r = .waiting ∨ r = .dead

namespace Machine

variable {m m' : Machine} {E B S stack : List Frame} {ts : Array Thread}

/-! ### Frames above a mark -/

/-- No call by the host is among frames. -/
def NoEntry (stack : List Frame) : Prop := ∀ c, .entry c ∉ stack

/-- A stack is some other with frames on top, of which none is a call by the host. -/
def Above (E stack : List Frame) : Prop := ∃ P, NoEntry P ∧ stack = P ++ E

/-- A stack is empty, or its top is a call by the host. -/
def Marked (E : List Frame) : Prop := E = [] ∨ ∃ c B, E = .entry c :: B

theorem noEntry_nil : NoEntry [] := fun _ => List.not_mem_nil

theorem NoEntry.cons {f : Frame} (h : NoEntry stack) (hf : ∀ c, f ≠ .entry c) : NoEntry (f :: stack) := by
  intro c hc
  rcases List.mem_cons.mp hc with hc | hc
  · exact hf c hc.symm
  · exact h c hc

theorem NoEntry.tail {f : Frame} (h : NoEntry (f :: stack)) : NoEntry stack :=
  fun c hc => h c (List.mem_cons_of_mem _ hc)

theorem above_nil : Above [] stack ↔ NoEntry stack := by
  simp [Above]

theorem Above.refl : Above E E := ⟨[], noEntry_nil, rfl⟩

theorem Above.cons {f : Frame} (h : Above E stack) (hf : ∀ c, f ≠ .entry c) : Above E (f :: stack) := by
  obtain ⟨P, hP, rfl⟩ := h
  exact ⟨f :: P, hP.cons hf, rfl⟩

/-- A frame on top can be taken off, unless the mark itself is reached. -/
theorem Above.tail {f : Frame} (hE : Marked E) (h : Above E (f :: stack)) (hf : ∀ c, f ≠ .entry c) :
    Above E stack := by
  obtain ⟨P, hP, heq⟩ := h
  cases P with
  | nil =>
    rcases hE with rfl | ⟨c, B, rfl⟩
    · contradiction
    · exact absurd (List.cons.inj heq).1 (hf c)
  | cons g P => exact ⟨P, hP.tail, (List.cons.inj heq).2⟩

/-- A call by the host on top is the mark. -/
theorem Above.eq_of_entry {c : Nat} (h : Above E (.entry c :: stack)) : E = .entry c :: stack := by
  obtain ⟨P, hP, heq⟩ := h
  cases P with
  | nil => exact heq.symm
  | cons g P => exact absurd (List.mem_cons.mpr (.inl (List.cons.inj heq).1)) (hP c)

theorem Above.noteLine {l : Nat} (hE : Marked E) (h : Above E stack) : Above E (noteLine l stack) := by
  obtain ⟨P, hP, rfl⟩ := h
  induction P with
  | nil =>
    rcases hE with rfl | ⟨c, B, rfl⟩
    · exact .refl
    · simpa only [List.nil_append, Machine.noteLine] using Above.refl
  | cons f P ih =>
    cases f with
    | call a d n k =>
      exact ⟨_ :: P, hP.tail.cons (by simp), rfl⟩
    | entry c => exact absurd (List.mem_cons_self ..) (hP c)
    | _ => exact (ih hP.tail).cons (by simp)

theorem Above.noted (site : Site) (hE : Marked E) (h : Above E stack) : Above E (noted site stack) := by
  rw [Machine.noted]
  cases site.line with
  | none => exact h
  | some l => exact h.noteLine hE

/-- What is thrown above the mark of a call by the host is taken. -/
theorem Above.isCaught {c : Nat} (h : Above (.entry c :: B) stack) : isCaught stack = true := by
  obtain ⟨P, hP, rfl⟩ := h
  induction P with
  | nil => rfl
  | cons f P ih =>
    cases f with
    | guard | entry => rfl
    | _ => exact ih hP.tail

theorem NoEntry.heldOnly (h : NoEntry stack) : NoEntry (heldOnly stack) :=
  fun c hc => h c (List.mem_filter.mp hc).1

/-! ### Threads -/

/-- The main thread only waits, over a stack, and the host has called on no other thread. -/
structure Threads (ts : Array Thread) (S : List Frame) : Prop where
  main : ts[0]? = some { rest := .waiting, stack := S }
  others : ∀ {t th}, t ≠ 0 → ts[t]? = some th → NoEntry th.stack

theorem Threads.push {th : Thread} (h : Threads ts S) (hth : NoEntry th.stack) : Threads (ts.push th) S := by
  have hlt : 0 < ts.size := (Array.getElem?_eq_some_iff.mp h.main).1
  refine ⟨by rw [Array.getElem?_push_lt hlt, ← Array.getElem?_eq_getElem hlt, h.main], fun {t th'} ht hth' => ?_⟩
  rw [Array.getElem?_push] at hth'
  split at hth'
  · exact Option.some.inj hth' ▸ hth
  · exact h.others ht hth'

/-- Another thread is changed. -/
theorem Threads.modify {t : Nat} {f : Thread → Thread} (h : Threads ts S) (ht : t ≠ 0)
    (hf : ∀ th, NoEntry th.stack → NoEntry (f th).stack) : Threads (ts.modify t f) S := by
  refine ⟨by rw [Array.getElem?_modify, if_neg ht, h.main], fun {u th} hu hth => ?_⟩
  rw [Array.getElem?_modify] at hth
  split at hth
  · obtain ⟨th', hth', rfl⟩ := Option.map_eq_some_iff.mp hth
    exact hf th' (h.others hu hth')
  · exact h.others hu hth

/-- The main thread waits over another stack. -/
theorem Threads.modify_main {S' : List Frame} (h : Threads ts S) :
    Threads (ts.modify 0 ({ · with stack := S' })) S' := by
  refine ⟨by rw [Array.getElem?_modify, if_pos rfl, h.main]; rfl, fun {u th} hu hth => ?_⟩
  rw [Array.getElem?_modify, if_neg hu.symm] at hth
  exact h.others hu hth

theorem Threads.thread_main (h : Threads m.threads S) : m.thread 0 = { rest := .waiting, stack := S } := by
  rw [thread, h.main, Option.getD_some]

theorem Threads.noEntry_thread {t : Nat} (h : Threads m.threads S) (ht : t ≠ 0) : NoEntry (m.thread t).stack := by
  rw [thread]
  cases hth : m.threads[t]? with
  | none => exact noEntry_nil
  | some th => exact h.others ht hth

/-! ### What threads will do -/

/-- Threads that do nothing of their own accord go on so. -/
def Stands (ts ts' : Array Thread) : Prop :=
  ∀ ⦃t : Nat⦄ ⦃th : Thread⦄, ts[t]? = some th → th.rest.Settled → ∃ th', ts'[t]? = some th' ∧ th'.rest = th.rest

/-- What a thread will do when it is resumed. -/
def HasRest (ts : Array Thread) (t : Nat) (rest : Rest) : Prop := ∃ th, ts[t]? = some th ∧ th.rest = rest

/-- There is no thread of some number that does nothing of its own accord. -/
def Loose (ts : Array Thread) (t : Nat) : Prop := ∀ th, ts[t]? = some th → ¬ th.rest.Settled

theorem Stands.refl : Stands ts ts := fun _ th hth _ => ⟨th, hth, rfl⟩

theorem Stands.trans {ts' ts'' : Array Thread} (h : Stands ts ts') (h' : Stands ts' ts'') : Stands ts ts'' := by
  intro t th hth hsettled
  obtain ⟨th', hth', hrest⟩ := h hth hsettled
  obtain ⟨th'', hth'', hrest'⟩ := h' hth' (hrest ▸ hsettled)
  exact ⟨th'', hth'', hrest'.trans hrest⟩

theorem HasRest.of_stands {ts' : Array Thread} {t : Nat} {rest : Rest} (h : HasRest ts t rest) (hsettled : rest.Settled)
    (hs : Stands ts ts') : HasRest ts' t rest := by
  obtain ⟨th, hth, rfl⟩ := h
  exact hs hth hsettled

theorem HasRest.unique {t : Nat} {rest rest' : Rest} (h : HasRest ts t rest) (h' : HasRest ts t rest') :
    rest = rest' := by
  obtain ⟨th, hth, rfl⟩ := h
  obtain ⟨th', hth', rfl⟩ := h'
  rw [Option.some.inj (hth.symm.trans hth')]

/-- Another stack changes nothing in what threads will do. -/
theorem HasRest.restack {t u : Nat} {rest : Rest} (h : HasRest ts t rest) :
    HasRest (ts.modify u ({ · with stack })) t rest := by
  obtain ⟨th, hth, hrest⟩ := h
  rw [HasRest, Array.getElem?_modify, hth]
  split_ifs <;> exact ⟨_, rfl, hrest⟩

theorem Stands.push {th : Thread} : Stands ts (ts.push th) := by
  intro t th' hth' _
  have hlt : t < ts.size := (Array.getElem?_eq_some_iff.mp hth').1
  exact ⟨th', by rw [Array.getElem?_push_lt hlt, ← Array.getElem?_eq_getElem hlt, hth'], rfl⟩

/-- A thread is changed, and if it is one that does nothing, goes on so. -/
theorem Stands.modify {t : Nat} {f : Thread → Thread}
    (hf : ∀ th, ts[t]? = some th → th.rest.Settled → (f th).rest = th.rest) : Stands ts (ts.modify t f) := by
  intro u th hth hsettled
  rw [Array.getElem?_modify]
  split_ifs with hu
  · subst hu
    exact ⟨f th, by rw [hth]; rfl, hf th hth hsettled⟩
  · exact ⟨th, hth, rfl⟩

/-- A thread gets another stack. -/
theorem Stands.restack {t : Nat} : Stands ts (ts.modify t ({ · with stack })) := .modify fun _ _ _ => rfl

/-- What has come to do something did so before. -/
theorem Loose.of_stands {ts' : Array Thread} {t : Nat} (h : Loose ts' t) (hs : Stands ts ts') : Loose ts t := by
  intro th hth hsettled
  obtain ⟨th', hth', hrest⟩ := hs hth hsettled
  exact h th' hth' (hrest ▸ hsettled)

theorem loose_of_rest {t : Nat} (h : ¬ (m.thread t).rest.Settled) : Loose m.threads t := by
  intro th hth
  rwa [thread, hth] at h

/-- There is a thread that will do something. -/
theorem exists_of_rest {t : Nat} (h : ¬ (m.thread t).rest.Settled) : ∃ th, m.threads[t]? = some th := by
  rw [thread] at h
  cases hth : m.threads[t]? with
  | none =>
    rw [hth] at h
    exact absurd (.inr rfl) h
  | some th => exact ⟨th, rfl⟩

/-- Control goes from one thread to another by way of their stacks. -/
theorem stands_switchBack {r : Except Thrown (List Value)} : Stands m.threads (m.switchBack r).threads := by
  rw [switchBack]
  split
  · exact .refl
  · dsimp only
    split <;> exact .restack

theorem stands_leave {c : Nat} {B : List Frame} : Stands m.threads (m.leave c B).threads := by
  rw [leave]
  split_ifs
  · exact .refl
  · exact Stands.restack.trans .restack

theorem HasRest.enter {t : Nat} {rest : Rest} {p : Prog} (h : HasRest m.threads t rest) :
    HasRest (m.enter p).threads t rest := by
  rw [Machine.enter]
  split_ifs
  · exact h
  · exact h.restack.restack

theorem HasRest.leave {t c : Nat} {rest : Rest} {B : List Frame} (h : HasRest m.threads t rest) :
    HasRest (m.leave c B).threads t rest := by
  rw [Machine.leave]
  split_ifs
  · exact h
  · exact h.restack.restack

theorem stands_enter {p : Prog} : Stands m.threads (m.enter p).threads := by
  rw [enter]
  split_ifs
  · exact .refl
  · exact Stands.restack.trans .restack

/-- The thread that has waited is the current one, and the others wait on. -/
theorem switchBack_waiting {r : Except Thrown (List Value)} (h : m.waiting ≠ []) :
    (m.switchBack r).current :: (m.switchBack r).waiting = m.waiting := by
  rw [switchBack]
  split
  · contradiction
  · dsimp only
    split <;> simp_all

/-! ### One step -/

/-- The current thread suspends itself or ends: how it is left, and what the thread that waits for it gets. -/
inductive Halts (m : Machine) : Thread → Except Thrown (List Value) → Prop where
  | yields {vs : List Value} {k : List Value → Prog} (prog : m.prog = .yield vs k) :
    Halts m { rest := .yielded k, stack := m.stack } (.ok vs)
  | returns {vs : List Value} (prog : m.prog = .ret vs) (stack : m.stack = []) : Halts m { rest := .dead } (.ok vs)
  | fails {t : Thrown} (prog : m.prog = .unwind t) (uncaught : isCaught m.stack = false) :
    Halts m { rest := .dead, stack := heldOnly m.stack, failure := some t } (.error t)

/-- What a step of a machine does: it goes on with the current thread, resumes another one, gives the thread
that waits something back, asks the host, or ends the host's call. -/
inductive Does (E S : List Frame) (m : Machine) : Machine ⊕ (Machine × Stop) → Prop where
  | stays {m' : Machine} (current : m'.current = m.current) (waiting : m'.waiting = m.waiting)
    (threads : Threads m'.threads S) (stands : Stands m.threads m'.threads) (stack : Above E m'.stack) :
    Does E S m (.inl m')
  | switches {m' : Machine} {k : Except Thrown (List Value) → Prog} (current : m'.current ≠ 0)
    (waiting : m'.waiting = m.current :: m.waiting)
    (threads : Threads m'.threads (if m.current = 0 then .resumed k :: m.stack else S))
    (stands : Stands m.threads m'.threads) (loose : Loose m.threads m'.current)
    (stack : NoEntry m'.stack) (waits : HasRest m'.threads m'.current .waiting) : Does E S m (.inl m')
  | goesBack {m' : Machine} {th : Thread} {r : Except Thrown (List Value)} (current : m.current ≠ 0)
    (waiting : m'.waiting = m.waiting) (halts : Halts m th r)
    (left : m'.threads = m.threads.modify m.current fun _ => th) (threads : Threads m'.threads S) :
    Does E S m (.inl (m'.switchBack r))
  | asks {k : List Value → Prog} {q : Request} :
    Does E S m (.inr ({ m with stack := .asked k :: m.stack, prog := .ret [] }, .asks q))
  | ends {c : Nat} {B : List Frame} {r : Except Thrown (List Value)} (stack : m.stack = .entry c :: B) :
    Does E S m (.inr (m.leave c B, .done r))

/-- The current thread goes on, or another one gets something from it: frames go on and off the stack above
the mark, which only the main thread has. -/
theorem does_call {site : Site} {f : Value} {args : List Value} {k : List Value → Prog} (hE : Marked E)
    (ht : Threads m.threads S) (h : Above E m.stack) : Does E S m (.inl (m.call site f args k)) := by
  have hnoted := h.noted site hE
  rw [call]
  cases resolve m.heap 8 f args 0 with
  | none => exact .stays rfl rfl ht .refl hnoted
  | some r =>
    dsimp only
    split_ifs
    · exact .stays rfl rfl ht .refl hnoted
    · exact .stays rfl rfl ht .refl hnoted
    · exact .stays rfl rfl ht .refl (hnoted.cons (by simp))

theorem does_tailCall {site : Site} {f : Value} {args : List Value} (hE : Marked E) (ht : Threads m.threads S)
    (h : Above E m.stack) : Does E S m (.inl (m.tailCall site f args)) := by
  rw [tailCall]
  split
  · next hstack =>
    rw [hstack] at h
    exact .stays rfl rfl ht .refl ((h.tail hE (by simp)).cons (by simp))
  · exact does_call hE ht h

theorem does_return {vs : List Value} (hprog : m.prog = .ret vs) (hE : Marked E) (ht : Threads m.threads S)
    (h : Above E m.stack) (hmain : E = [] → m.current ≠ 0) : Does E S m (m.return_ vs) := by
  rw [return_]
  cases hstack : m.stack with
  | nil =>
    have hne : m.current ≠ 0 := by
      obtain ⟨P, -, hP⟩ := h
      exact hmain (List.append_eq_nil_iff.mp (hP.symm.trans hstack)).2
    refine .goesBack hne rfl (.returns hprog hstack) rfl ?_
    dsimp only
    exact ht.modify hne fun _ _ => noEntry_nil
  | cons f stack =>
    rw [hstack] at h
    cases f with
    | entry c => exact .ends hstack
    | _ => exact .stays rfl rfl ht .refl (h.tail hE (by simp))

theorem does_unwind {t : Thrown} (hprog : m.prog = .unwind t) (hE : Marked E) (ht : Threads m.threads S)
    (h : Above E m.stack) (hmain : m.current ≠ 0 ↔ E = []) : Does E S m (m.unwind t) := by
  rw [unwind]
  split_ifs with hcaught
  · have hnil : E = [] := by
      rcases hE with hE | ⟨c, B, rfl⟩
      · exact hE
      · simp [h.isCaught] at hcaught
    have hne : m.current ≠ 0 := hmain.mpr hnil
    refine .goesBack hne rfl (.fails hprog (by simpa using hcaught)) rfl ?_
    dsimp only
    exact ht.modify hne fun _ _ => (above_nil.mp (hnil ▸ h)).heldOnly
  · cases hstack : m.stack with
    | nil =>
      rw [hstack] at hcaught
      exact absurd rfl hcaught
    | cons f stack =>
      rw [hstack] at h
      cases f with
      | entry c => exact .ends hstack
      | _ => exact .stays rfl rfl ht .refl (h.tail hE (by simp))

/-- A thread is not resumed, or it becomes current over its stack and the current one waits for it. -/
theorem resume_cases (m : Machine) (t : Nat) (args : List Value) (k : Except Thrown (List Value) → Prog) :
    (∃ r, m.resume t args k = { m with prog := k r }) ∨
      ¬ (m.thread t).rest.Settled ∧ ∃ prog, m.resume t args k =
        { m with threads := (m.threads.modify m.current ({ · with stack := .resumed k :: m.stack })).modify t
                   fun _ => { rest := .waiting }
                 current := t, stack := (m.thread t).stack, waiting := m.current :: m.waiting, prog } := by
  rw [resume]
  dsimp only
  split_ifs
  · exact .inl ⟨_, rfl⟩
  · split
    · next hrest => exact .inr ⟨by simp [Rest.Settled, hrest], _, rfl⟩
    · next hrest => exact .inr ⟨by simp [Rest.Settled, hrest], _, rfl⟩
    · exact .inl ⟨_, rfl⟩
    · exact .inl ⟨_, rfl⟩

/-- The main thread cannot be resumed, since it only waits. -/
theorem Threads.ne_main {t : Nat} (h : Threads m.threads S) (hrest : ¬ (m.thread t).rest.Settled) : t ≠ 0 := by
  rintro rfl
  rw [h.thread_main] at hrest
  exact hrest (.inl rfl)

theorem does_resume {t : Nat} {args : List Value} {k : Except Thrown (List Value) → Prog}
    (ht : Threads m.threads S) (h : Above E m.stack) (hmain : m.current ≠ 0 ↔ E = []) :
    Does E S m (.inl (m.resume t args k)) := by
  rcases resume_cases m t args k with ⟨r, heq⟩ | ⟨hrest, prog, heq⟩
  · rw [heq]
    exact .stays rfl rfl ht .refl h
  · rw [heq]
    have hne := ht.ne_main hrest
    have hloose := loose_of_rest hrest
    have hsaved : Threads (m.threads.modify m.current ({ · with stack := .resumed k :: m.stack }))
        (if m.current = 0 then .resumed k :: m.stack else S) := by
      split_ifs with hcur
      · rw [hcur]
        exact ht.modify_main
      · exact ht.modify hcur fun _ _ => (above_nil.mp (hmain.mp hcur ▸ h)).cons (by simp)
    refine .switches (k := k) hne rfl ?_ ?_ hloose (ht.noEntry_thread hne) ?_
    · dsimp only
      exact hsaved.modify hne fun _ _ => noEntry_nil
    · refine Stands.restack.trans (.modify fun th hth hsettled => ?_)
      rw [Array.getElem?_modify] at hth
      split_ifs at hth
      · obtain ⟨th', hth', rfl⟩ := Option.map_eq_some_iff.mp hth
        exact absurd hsettled (hloose th' hth')
      · exact absurd hsettled (hloose th hth)
    · obtain ⟨th, hth⟩ := exists_of_rest hrest
      refine ⟨{ rest := .waiting }, ?_, rfl⟩
      dsimp only
      rw [Array.getElem?_modify, if_pos rfl, Array.getElem?_modify, hth]
      split_ifs <;> rfl

theorem does_close {t : Nat} {k : Except Thrown Unit → Prog} (ht : Threads m.threads S) (h : Above E m.stack)
    (hmain : m.current ≠ 0 ↔ E = []) (hne : t ≠ 0) : Does E S m (.inl (m.close t k)) := by
  rw [close]
  split_ifs with hcur
  · have hnil : E = [] := hmain.mp (hcur ▸ hne)
    exact .stays rfl rfl ht .refl (hnil ▸ .refl)
  · dsimp only
    split
    · exact .stays rfl rfl ht .refl h
    · next hrest =>
      refine .stays rfl rfl ?_ (.modify fun th hth hsettled => ?_) h
      · dsimp only
        exact ht.modify hne fun _ _ => noEntry_nil
      · rw [thread, hth] at hrest
        exact (hsettled.resolve_left hrest).symm

/-- What a step does, while the mark of the host's latest call is on the main thread's stack if that is the
current one, and on no other. -/
theorem does_step (hE : Marked E) (ht : Threads m.threads S) (h : Above E m.stack)
    (hmain : m.current ≠ 0 ↔ E = []) : Does E S m m.step := by
  obtain ⟨heap, threads, current, stack, waiting, prog⟩ := m
  cases prog with
  | ret vs => exact does_return rfl hE ht h hmain.mpr
  | upd f => exact .stays rfl rfl ht .refl h
  | raise v => exact .stays rfl rfl ht .refl h
  | unwind t => exact does_unwind rfl hE ht h hmain
  | call site f args k => exact does_call hE ht h
  | tailCall site f args => exact does_tailCall hE ht h
  | run t k => exact .stays rfl rfl ht .refl h
  | attempt f args k => exact .stays rfl rfl ht .refl (h.cons (by simp))
  | hold v k => exact .stays rfl rfl ht .refl (h.cons (by simp))
  | release k =>
    simp only [step]
    split
    · exact .stays rfl rfl ht .refl (h.tail hE (by simp))
    · exact .stays rfl rfl ht .refl h
  | look k => exact .stays rfl rfl ht .refl h
  | spawn f k => exact .stays rfl rfl (ht.push noEntry_nil) .push h
  | resume t args k => exact does_resume ht h hmain
  | yield vs k =>
    simp only [step]
    split_ifs with hcur
    · exact .stays rfl rfl ht .refl h
    · refine .goesBack hcur rfl (.yields rfl) rfl ?_
      dsimp only
      exact ht.modify hcur fun _ _ => above_nil.mp (hmain.mp hcur ▸ h)
  | close t k =>
    simp only [step]
    split_ifs with hne
    · exact .stays rfl rfl ht .refl h
    · exact does_close ht h hmain hne
  | ask q k => exact .asks

end Machine

end HostedLua.Lua
