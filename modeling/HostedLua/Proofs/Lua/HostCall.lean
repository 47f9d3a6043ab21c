import HostedLua.Proofs.Lua.Stack

/-! Calls by the host. While one runs, the main thread's stack stands above the mark of the call, whether the
main thread is current or waits for another. So the call leaves the main thread as it found it, whatever runs
in between and however often the host is asked and calls again; and the threads that did nothing of their own
accord when it began, since they wait or are dead, still do nothing. -/

namespace HostedLua.Lua.Machine

variable {b m m' : Machine} {B : List Frame} {W : List Nat} {k : Except Thrown (List Value) → Prog}

/-! ### What the host finds and leaves -/

def mainStack (m : Machine) : List Frame := if m.current = 0 then m.stack else (m.thread 0).stack

/-- A machine as the host finds it: the main thread only waits, and no other stack bears the mark of a call by
the host. -/
structure Sound (m : Machine) : Prop where
  threads : ∃ S, Threads m.threads S
  stack : m.current ≠ 0 → NoEntry m.stack

/-- What the host may do to a machine: the current thread and the main thread's stack stay as they are, and
threads that wait or are dead do so still. -/
structure Kept (m m' : Machine) : Prop where
  current : m'.current = m.current
  waiting : m'.waiting = m.waiting
  mainStack : m'.mainStack = m.mainStack
  stands : Stands m.threads m'.threads

theorem Kept.refl (m : Machine) : m.Kept m := ⟨rfl, rfl, rfl, .refl⟩

theorem Kept.trans {m'' : Machine} (h : m.Kept m') (h' : m'.Kept m'') : m.Kept m'' :=
  ⟨h'.current.trans h.current, h'.waiting.trans h.waiting, h'.mainStack.trans h.mainStack, h.stands.trans h'.stands⟩

theorem mainStack_main (h : m.current = 0) : m.mainStack = m.stack := if_pos h

theorem mainStack_away {S : List Frame} (h : m.current ≠ 0) (ht : Threads m.threads S) : m.mainStack = S := by
  rw [mainStack, if_neg h, ht.thread_main]

theorem Sound.new (h : Heap) : Sound { heap := h } := by
  refine ⟨⟨[], rfl, fun {t th} ht hth => ?_⟩, fun hne => absurd rfl hne⟩
  have hlt := (Array.getElem?_eq_some_iff.mp hth).1
  simp only [Array.size_singleton] at hlt
  omega

/-- A thread that is new does not matter to the others. -/
theorem Sound.push {th : Thread} (h : m.Sound) (hth : NoEntry th.stack) :
    Sound { m with threads := m.threads.push th } := by
  obtain ⟨⟨S, hS⟩, hstack⟩ := h
  exact ⟨⟨S, hS.push hth⟩, hstack⟩

theorem Kept.push {th : Thread} (h : m.Sound) (hth : NoEntry th.stack) :
    m.Kept { m with threads := m.threads.push th } := by
  obtain ⟨⟨S, hS⟩, -⟩ := h
  refine ⟨rfl, rfl, ?_, .push⟩
  by_cases hcur : m.current = 0
  · rw [mainStack_main hcur, mainStack_main (by exact hcur)]
  · rw [mainStack_away hcur hS]
    exact mainStack_away hcur (hS.push hth)

/-! ### The main thread waits -/

/-- Another thread runs, and the main thread, over a stack, waits for what comes of it. -/
structure Away (k : Except Thrown (List Value) → Prog) (B : List Frame) (W : List Nat) (m : Machine) : Prop where
  current : m.current ≠ 0
  waiting : ∃ us, 0 ∉ us ∧ m.waiting = us ++ 0 :: W
  threads : Threads m.threads (.resumed k :: B)
  stack : NoEntry m.stack

/-- The main thread has got what it waited for. -/
structure Back (k : Except Thrown (List Value) → Prog) (B : List Frame) (W : List Nat) (m : Machine) : Prop where
  current : m.current = 0
  waiting : m.waiting = W
  threads : ∃ S, Threads m.threads S
  stack : m.stack = B
  prog : ∃ r, m.prog = k r

theorem Away.does (h : Away k B W m) : Does [] (.resumed k :: B) m m.step :=
  does_step (.inl rfl) h.threads (above_nil.mpr h.stack) (by simp [h.current])

/-- The main thread gets what it waits for. -/
theorem switchBack_main {r : Except Thrown (List Value)} (hw : m.waiting = 0 :: W)
    (ht : Threads m.threads (.resumed k :: B)) :
    m.switchBack r = { m with threads := m.threads.modify 0 ({ · with stack := [] }), current := 0
                              stack := B, waiting := W, prog := k r } := by
  rw [switchBack, hw]
  dsimp only
  rw [ht.thread_main]

/-- A thread that ends or is suspended gives control to another one that waits, or to the main thread. -/
theorem away_switchBack {r : Except Thrown (List Value)} (hw : ∃ us, 0 ∉ us ∧ m.waiting = us ++ 0 :: W)
    (ht : Threads m.threads (.resumed k :: B)) : Away k B W (m.switchBack r) ∨ Back k B W (m.switchBack r) := by
  obtain ⟨us, hus, hw⟩ := hw
  cases us with
  | nil =>
    right
    rw [switchBack_main hw ht]
    exact ⟨rfl, rfl, ⟨[], ht.modify_main⟩, rfl, r, rfl⟩
  | cons u us =>
    left
    have hu : u ≠ 0 := fun hu => hus (hu ▸ List.mem_cons_self ..)
    have hstack : NoEntry (m.thread u).stack := ht.noEntry_thread hu
    rw [switchBack, hw]
    dsimp only [List.cons_append]
    have hthreads := ht.modify hu (f := ({ · with stack := [] })) fun _ _ => noEntry_nil
    split
    · next hs => exact ⟨hu, ⟨us, fun h => hus (List.mem_cons_of_mem _ h), rfl⟩, hthreads, (hs ▸ hstack).tail⟩
    · exact ⟨hu, ⟨us, fun h => hus (List.mem_cons_of_mem _ h), rfl⟩, hthreads, hstack⟩

theorem Away.step (h : Away k B W m) (hs : m.step = .inl m') : Away k B W m' ∨ Back k B W m' := by
  have hdoes := h.does
  rw [hs] at hdoes
  cases hdoes with
  | stays current waiting threads _ stack =>
    exact .inl ⟨current ▸ h.current, waiting ▸ h.waiting, threads, above_nil.mp stack⟩
  | switches current waiting threads _ _ stack =>
    obtain ⟨us, hus, hw⟩ := h.waiting
    rw [if_neg h.current] at threads
    refine .inl ⟨current, ⟨m.current :: us, ?_, by rw [waiting, hw]; rfl⟩, threads, stack⟩
    exact fun hmem => (List.mem_cons.mp hmem).elim (fun h0 => h.current h0.symm) hus
  | goesBack _ waiting _ _ threads => exact away_switchBack (waiting ▸ h.waiting) threads

theorem Away.asks {q : Request} (h : Away k B W m) (hs : m.step = .inr (m', .asks q)) : Away k B W m' := by
  have hdoes := h.does
  rw [hs] at hdoes
  cases hdoes
  exact ⟨h.current, h.waiting, h.threads, h.stack.cons (by simp)⟩

theorem Away.not_done {r : Except Thrown (List Value)} (h : Away k B W m) : m.step ≠ .inr (m', .done r) := by
  intro hs
  have hdoes := h.does
  rw [hs] at hdoes
  cases hdoes with
  | ends stack => exact h.stack _ (stack ▸ List.mem_cons_self ..)

theorem Away.sound (h : Away k B W m) : m.Sound := ⟨⟨_, h.threads⟩, fun _ => h.stack⟩

theorem Away.kept (h : Away k B W m) (hk : m.Kept m') (hs : m'.Sound) : Away k B W m' := by
  obtain ⟨S, hS⟩ := hs.threads
  have hne : m'.current ≠ 0 := hk.current ▸ h.current
  have hmain := hk.mainStack
  rw [mainStack_away hne hS, mainStack_away h.current h.threads] at hmain
  exact ⟨hne, hk.waiting ▸ h.waiting, hmain ▸ hS, hs.stack hne⟩

theorem Away.answer {a : Except Value (List Value)} (h : Away k B W m) : Away k B W (m.answer a) := by
  rw [Machine.answer]
  split
  · next hstack =>
    have hno := (hstack ▸ h.stack).tail
    cases a <;> exact ⟨h.current, h.waiting, h.threads, hno⟩
  · exact h

/-! ### The whole call -/

/-- The mark of a call that the host makes on a machine. -/
def mark (b : Machine) : List Frame := .entry b.current :: b.mainStack

/-- The threads that wait for the main thread during a call by the host, and those behind them. -/
def behind (b : Machine) : List Nat := if b.current = 0 then b.waiting else b.current :: b.waiting

/-- A call that the host made on a machine runs, on the main thread or on one that it waits for. -/
inductive Running (b m : Machine) : Prop where
  | main (current : m.current = 0) (waiting : m.waiting = b.behind) (threads : ∃ S, Threads m.threads S)
    (stack : Above b.mark m.stack)
  | away {k : Except Thrown (List Value) → Prog} {B : List Frame} (away : Away k B b.behind m)
    (stack : Above b.mark B)

theorem marked_mark : Marked b.mark := .inr ⟨_, _, rfl⟩

/-- A call by the host begins on the main thread, with its mark on top of the stack. -/
theorem enter_main {p : Prog} (hb : b.Sound) : (b.enter p).current = 0 ∧ (b.enter p).waiting = b.behind ∧
    (∃ S, Threads (b.enter p).threads S) ∧ (b.enter p).stack = b.mark := by
  obtain ⟨S, hS⟩ := hb.threads
  rw [enter]
  split_ifs with hcur
  · exact ⟨hcur, by simp [behind, hcur], ⟨S, hS⟩, by rw [mark, hcur, mainStack_main hcur]⟩
  · refine ⟨rfl, by simp [behind, hcur], ⟨[], ?_⟩, by rw [mark, mainStack, if_neg hcur]⟩
    exact (hS.modify hcur (f := ({ · with stack := b.stack })) fun _ _ => hb.stack hcur).modify_main

theorem running_enter {p : Prog} (hb : b.Sound) : Running b (b.enter p) := by
  obtain ⟨current, waiting, threads, stack⟩ := enter_main (p := p) hb
  exact .main current waiting threads (stack ▸ .refl)

theorem Running.step (h : Running b m) (hs : m.step = .inl m') : Running b m' := by
  cases h with
  | main current waiting threads stack =>
    obtain ⟨S, hS⟩ := threads
    have hdoes := does_step marked_mark hS stack (by simp [current, mark])
    rw [hs] at hdoes
    cases hdoes with
    | stays current' waiting' threads' _ stack' =>
      exact .main (current'.trans current) (waiting'.trans waiting) ⟨S, threads'⟩ stack'
    | switches current' waiting' threads' _ _ stack' =>
      rw [if_pos current] at threads'
      rw [current] at waiting'
      exact .away ⟨current', ⟨[], List.not_mem_nil, waiting'.trans (waiting ▸ rfl)⟩, threads', stack'⟩ stack
    | goesBack current' => exact absurd current current'
  | away away stack =>
    rcases away.step hs with away' | back
    · exact .away away' stack
    · exact .main back.current back.waiting back.threads (back.stack ▸ stack)

theorem Running.asks {q : Request} (h : Running b m) (hs : m.step = .inr (m', .asks q)) : Running b m' := by
  cases h with
  | main current waiting threads stack =>
    obtain ⟨S, hS⟩ := threads
    have hdoes := does_step marked_mark hS stack (by simp [current, mark])
    rw [hs] at hdoes
    cases hdoes
    exact .main current waiting ⟨S, hS⟩ (stack.cons (by simp))
  | away away stack => exact .away (away.asks hs) stack

theorem Running.sound (h : Running b m) : m.Sound := by
  cases h with
  | main current _ threads _ => exact ⟨threads, fun hne => absurd current hne⟩
  | away away _ => exact away.sound

theorem Running.kept (h : Running b m) (hk : m.Kept m') (hs : m'.Sound) : Running b m' := by
  cases h with
  | main current waiting _ stack =>
    have current' := hk.current.trans current
    have hstack := hk.mainStack
    rw [mainStack_main current', mainStack_main current] at hstack
    exact .main current' (hk.waiting.trans waiting) hs.threads (hstack ▸ stack)
  | away away stack => exact .away (away.kept hk hs) stack

theorem Running.answer {a : Except Value (List Value)} (h : Running b m) : Running b (m.answer a) := by
  cases h with
  | main current waiting threads stack =>
    rw [Machine.answer]
    split
    · next hstack =>
      have hrest := (hstack ▸ stack).tail marked_mark (by simp)
      cases a <;> exact .main current waiting threads hrest
    · exact .main current waiting threads stack
  | away away stack => exact .away away.answer stack

/-- The call ends with the machine as the host found it. -/
theorem Running.done {r : Except Thrown (List Value)} (h : Running b m) (hb : Stands b.threads m.threads)
    (hs : m.step = .inr (m', .done r)) : m'.Sound ∧ b.Kept m' := by
  cases h with
  | away away _ => exact absurd hs away.not_done
  | main current waiting threads stack =>
    obtain ⟨S, hS⟩ := threads
    have hdoes := does_step marked_mark hS stack (by simp [current, mark])
    rw [hs] at hdoes
    cases hdoes with
    | @ends c B _ hstack =>
      obtain ⟨rfl, rfl⟩ : b.current = c ∧ b.mainStack = B := by
        have := Above.eq_of_entry (hstack ▸ stack)
        simpa [mark] using this
      have hstands := hb.trans (stands_leave (m := m) (c := b.current) (B := b.mainStack))
      rw [leave] at hstands ⊢
      split_ifs at hstands ⊢ with hcur
      · refine ⟨⟨⟨S, hS⟩, fun hne => absurd current hne⟩, current.trans hcur.symm, ?_, ?_, hstands⟩
        · simpa [behind, hcur] using waiting
        · exact mainStack_main current
      · have hthreads : Threads ((m.threads.modify 0 ({ · with stack := b.mainStack })).modify b.current
            ({ · with stack := [] })) b.mainStack := hS.modify_main.modify hcur fun _ _ => noEntry_nil
        refine ⟨⟨⟨_, hthreads⟩, fun _ => hS.noEntry_thread hcur⟩, rfl, ?_, mainStack_away hcur hthreads, hstands⟩
        simp [waiting, behind, hcur]

/-! ### The threads beneath -/

/-- Threads that did nothing of their own accord still do nothing, and those on the way from the main thread to
the current one did something. -/
structure Rises (ts : Array Thread) (W : List Nat) (m : Machine) : Prop where
  stands : Stands ts m.threads
  loose : ∃ us, m.current :: m.waiting = us ++ 0 :: W ∧ ∀ u ∈ us, u ≠ 0 ∧ Loose ts u

theorem Rises.main (hcur : m.current = 0) (hw : m.waiting = W) : Rises m.threads W m :=
  ⟨.refl, [], by rw [hcur, hw]; rfl, fun _ hu => absurd hu List.not_mem_nil⟩

theorem Rises.step {ts : Array Thread} {E S : List Frame} (h : Rises ts W m) (hdoes : Does E S m (.inl m')) :
    Rises ts W m' := by
  obtain ⟨us, hus, hloose⟩ := h.loose
  generalize heq : (Sum.inl m' : Machine ⊕ (Machine × Stop)) = r at hdoes
  cases hdoes with
  | stays current waiting _ stands _ =>
    obtain rfl := Sum.inl.inj heq
    exact ⟨h.stands.trans stands, us, by rw [current, waiting, hus], hloose⟩
  | switches current waiting _ stands loose _ =>
    obtain rfl := Sum.inl.inj heq
    refine ⟨h.stands.trans stands, m'.current :: us, by rw [waiting, hus]; rfl, fun u hu => ?_⟩
    rcases List.mem_cons.mp hu with rfl | hu
    · exact ⟨current, loose.of_stands h.stands⟩
    · exact hloose u hu
  | @goesBack m₁ th r hcur waiting _ left _ =>
    obtain rfl := Sum.inl.inj heq
    cases us with
    | nil => exact absurd (List.cons.inj hus).1 hcur
    | cons u us =>
      obtain ⟨rfl, hw⟩ := List.cons.inj hus
      have hleft : Stands ts m₁.threads := by
        refine fun t th' hth' hsettled => ?_
        have hne : m.current ≠ t := by
          rintro rfl
          exact (hloose _ (List.mem_cons_self ..)).2 th' hth' hsettled
        rw [left, Array.getElem?_modify, if_neg hne]
        exact h.stands hth' hsettled
      refine ⟨hleft.trans stands_switchBack, us, ?_, fun u hu => hloose u (List.mem_cons_of_mem _ hu)⟩
      rw [switchBack_waiting (by rw [waiting, hw]; simp), waiting, hw]
      rfl
  | asks => cases heq
  | ends => cases heq

theorem Rises.kept {ts : Array Thread} (h : Rises ts W m) (hk : m.Kept m') : Rises ts W m' := by
  obtain ⟨us, hus, hloose⟩ := h.loose
  exact ⟨h.stands.trans hk.stands, us, by rw [hk.current, hk.waiting, hus], hloose⟩

/-- Only the stack and the program of the current thread matter otherwise. -/
theorem Rises.of_eq {ts : Array Thread} (h : Rises ts W m) (ht : m'.threads = m.threads)
    (hcur : m'.current = m.current) (hw : m'.waiting = m.waiting) : Rises ts W m' := by
  obtain ⟨us, hus, hloose⟩ := h.loose
  exact ⟨ht ▸ h.stands, us, by rw [hcur, hw, hus], hloose⟩

theorem Rises.asks {ts : Array Thread} {E S : List Frame} {q : Request} (h : Rises ts W m)
    (hdoes : Does E S m (.inr (m', .asks q))) : Rises ts W m' := by
  cases hdoes
  exact h.of_eq rfl rfl rfl

theorem Rises.answer {ts : Array Thread} {a : Except Value (List Value)} (h : Rises ts W m) :
    Rises ts W (m.answer a) := by
  rw [Machine.answer]
  split
  · cases a <;> exact h.of_eq rfl rfl rfl
  · exact h

/-- A call that the host made on a machine runs, over the threads that there were. -/
structure UnderWay (b m : Machine) : Prop where
  running : Running b m
  rises : Rises b.threads b.behind m

theorem underWay_enter {p : Prog} (hb : b.Sound) : UnderWay b (b.enter p) := by
  obtain ⟨current, waiting, -, -⟩ := enter_main (p := p) hb
  obtain ⟨-, hus⟩ := Rises.main current waiting
  refine ⟨running_enter hb, stands_enter, [], by rw [current, waiting]; rfl, ?_⟩
  exact fun _ hu => absurd hu List.not_mem_nil

/-- What the step of a call by the host does. -/
theorem Running.does (h : Running b m) : ∃ E S, Does E S m m.step := by
  cases h with
  | main current _ threads stack =>
    obtain ⟨S, hS⟩ := threads
    exact ⟨_, S, does_step marked_mark hS stack (by simp [current, mark])⟩
  | away away _ => exact ⟨_, _, away.does⟩

/-! ### Runs -/

/-- A property of machines that a call by the host keeps while it runs, and one of its end. -/
structure Lasts (I : Machine → Prop) (Q : Machine → Except Thrown (List Value) → Prop) : Prop where
  step : ∀ {m m'}, I m → m.step = .inl m' → I m'
  asks : ∀ {m m' q}, I m → m.step = .inr (m', .asks q) →
    m'.Sound ∧ ∀ {m''} a, m'.Kept m'' → m''.Sound → I (m''.answer a)
  done : ∀ {m m' r}, I m → m.step = .inr (m', .done r) → Q m' r

variable {I : Machine → Prop} {Q : Machine → Except Thrown (List Value) → Prop}

theorem Lasts.and {J : Machine → Prop} {R : Machine → Except Thrown (List Value) → Prop} (h : Lasts I Q)
    (h' : Lasts J R) : Lasts (fun m => I m ∧ J m) fun m r => Q m r ∧ R m r where
  step hm hs := ⟨h.step hm.1 hs, h'.step hm.2 hs⟩
  asks hm hs := ⟨(h.asks hm.1 hs).1, fun a hk hm' => ⟨(h.asks hm.1 hs).2 a hk hm', (h'.asks hm.2 hs).2 a hk hm'⟩⟩
  done hm hs := ⟨h.done hm.1 hs, h'.done hm.2 hs⟩

section Rises

variable {ts : Array Thread} (h : Running b m) (hr : Rises ts b.behind m)

include h hr

theorem Running.rises_step (hs : m.step = .inl m') : Running b m' ∧ Rises ts b.behind m' := by
  obtain ⟨E, S, hdoes⟩ := h.does
  exact ⟨h.step hs, hr.step (hs ▸ hdoes)⟩

theorem Running.rises_asks {q : Request} (hs : m.step = .inr (m', .asks q)) : m'.Sound ∧
    ∀ {m''} a, m'.Kept m'' → m''.Sound → Running b (m''.answer a) ∧ Rises ts b.behind (m''.answer a) := by
  obtain ⟨E, S, hdoes⟩ := h.does
  have hrunning := h.asks hs
  have hrises := hr.asks (hs ▸ hdoes)
  exact ⟨hrunning.sound, fun _ hk hs' => ⟨(hrunning.kept hk hs').answer, (hrises.kept hk).answer⟩⟩

end Rises

theorem lasts_underWay (b : Machine) : Lasts (UnderWay b) fun m _ => m.Sound ∧ b.Kept m where
  step h hs := by
    obtain ⟨hrunning, hrises⟩ := h.running.rises_step h.rises hs
    exact ⟨hrunning, hrises⟩
  asks h hs := by
    obtain ⟨hsound, hanswer⟩ := h.running.rises_asks h.rises hs
    exact ⟨hsound, fun a hk hs' => ⟨(hanswer a hk hs').1, (hanswer a hk hs').2⟩⟩
  done h hs := h.running.done h.rises.stands hs

/-- What threads did nothing of their own accord at some point of a call by the host do nothing at its end. -/
theorem lasts_stands (b : Machine) (ts : Array Thread) :
    Lasts (fun m => Running b m ∧ Rises ts b.behind m) fun m _ => Stands ts m.threads where
  step h hs := h.1.rises_step h.2 hs
  asks h hs := h.1.rises_asks h.2 hs
  done h hs := by
    obtain ⟨E, S, hdoes⟩ := h.1.does
    rw [hs] at hdoes
    cases hdoes
    exact h.2.stands.trans stands_leave

end HostedLua.Lua.Machine
