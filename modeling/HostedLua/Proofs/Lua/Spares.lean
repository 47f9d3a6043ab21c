import HostedLua.Proofs.Lua.Brief
import HostedLua.Proofs.Lua.Chain

/-! What a call by the host spares. It parks the stack of the current thread while it runs and puts it back when it is
over, so a thread is told by the stack that it has wherever it lies. A thread that nothing but its first call lies
before can be closed without any code being run, and that changes no other thread. And a thread that is not under way
changes only where a program resumes or closes it by its own number, whatever else runs. -/

namespace HostedLua.Lua

/-- A thread has not begun, or is dead with nothing left of it. -/
structure Thread.Bare (th : Thread) : Prop where
  rest : th.rest = .dead ∨ ∃ f, th.rest = .fresh f
  stack : th.stack = []
  failure : th.failure = none

namespace Machine

variable {b m m' : Machine} {t u : Nat} {T T' : Nat → Prop} {th : Thread}

/-- A thread with its stack, which the machine has while the thread is current. -/
def shown (m : Machine) (t : Nat) : Option Thread :=
  (m.threads[t]?).map fun th => if t = m.current then { th with stack := m.stack } else th

/-- A machine has gone on, and some of its threads are as they were: what they will do, their stacks, what they died of.
All tables, variables and functions are as they were, and the same threads are under way. -/
structure Spares (T : Nat → Prop) (b m : Machine) : Prop where
  heap : b.heap.Grown m.heap
  current : m.current = b.current
  waiting : m.waiting = b.waiting
  threads : ∀ {t}, T t → m.shown t = b.shown t

theorem Spares.refl (b : Machine) : b.Spares T b := ⟨.refl _, rfl, rfl, fun _ => rfl⟩

theorem Spares.trans {m'' : Machine} (h : m.Spares T m') (h' : m'.Spares T' m'') (hT : ∀ t, T t → T' t) :
    m.Spares T m'' :=
  ⟨h.heap.trans h'.heap, h'.current.trans h.current, h'.waiting.trans h.waiting,
    fun ht => (h'.threads (hT _ ht)).trans (h.threads ht)⟩

theorem Spares.mono (h : m.Spares T' m') (hT : ∀ t, T t → T' t) : m.Spares T m' :=
  ⟨h.heap, h.current, h.waiting, fun ht => h.threads (hT _ ht)⟩

theorem shown_of_ne (ht : t ≠ m.current) : m.shown t = m.threads[t]? := by
  simp [shown, ht]

theorem rest_shown (m : Machine) (t : Nat) : (m.shown t).map Thread.rest = m.threads[t]?.map Thread.rest := by
  rw [shown, Option.map_map]
  refine Option.map_congr fun th _ => ?_
  dsimp only [Function.comp]
  split_ifs <;> rfl

/-- A thread that is spared shows the state that it has shown. -/
theorem Spares.status_eq (h : b.Spares T m) (ht : T t) : m.status t = b.status t := by
  have hrest : m.threads[t]?.map Thread.rest = b.threads[t]?.map Thread.rest := by
    rw [← rest_shown, h.threads ht, rest_shown]
  have hthread (m : Machine) : (m.thread t).rest = (m.threads[t]?.map Thread.rest).getD .dead := by
    rw [thread]
    cases m.threads[t]? <;> rfl
  rw [status, status, h.current, hthread, hthread, hrest]

/-- The threads that there are stay as they are where one is made. -/
theorem Spares.push (b : Machine) (th : Thread) :
    b.Spares (· < b.threads.size) { b with threads := b.threads.push th } := by
  refine ⟨.refl _, rfl, rfl, fun {t} ht => ?_⟩
  rw [shown, shown]
  dsimp only
  rw [Array.getElem?_push_lt ht, Array.getElem?_eq_getElem ht]

/-- No thread is gone. -/
theorem Spares.size_le (h : b.Spares (· < b.threads.size) m) : b.threads.size ≤ m.threads.size := by
  by_contra hlt
  have hb : m.threads.size < b.threads.size := Nat.lt_of_not_le hlt
  have hshown := h.threads hb
  rw [shown, shown, Array.getElem?_eq_none (Nat.le_refl _), Array.getElem?_eq_getElem hb] at hshown
  contradiction

/-- A machine that has spared all its threads has grown. -/
theorem Spares.grown (h : b.Spares (· < b.threads.size) m) : b.Grown m := by
  refine ⟨h.heap.tables, h.heap.closures, fun {t rest} hrest => ?_⟩
  obtain ⟨th, hth, rfl⟩ := hrest
  have hrests : m.threads[t]?.map Thread.rest = some th.rest := by
    rw [← rest_shown, h.threads (Array.getElem?_eq_some_iff.mp hth).1, rest_shown, hth, Option.map_some]
  exact Option.map_eq_some_iff.mp hrests

/-! ### Calls by the host -/

/-- A call that ran on the main thread alone leaves the threads that it left alone, the current one among them, as it
found them. -/
theorem Alone.spares {p : Prog} (h : Alone T b p m) (hcur : b.current < b.threads.size) (hcurrent : T b.current) :
    b.Spares T (m.leave b.current b.mainStack) := by
  have hheap : (m.leave b.current b.mainStack).heap = m.heap := heap_leave m _ _
  have hthreads := h.threads
  have hwaits := h.waiting
  by_cases hzero : b.current = 0
  · have hleave : m.leave b.current b.mainStack = { m with stack := b.stack, prog := .ret [] } := by
      rw [leave, if_pos hzero, mainStack_main hzero]
    have henter : b.enter p = { b with stack := .entry 0 :: b.stack, prog := p } := by rw [enter, if_pos hzero]
    have hsame : m.current = b.current := h.current.trans (by rw [henter])
    rw [henter] at hthreads hwaits
    refine ⟨hheap ▸ h.heap, ?_, ?_, fun {t} ht => ?_⟩
    · rw [hleave, ← hsame]
    · rw [hleave, hwaits]
    · rw [hleave, shown, shown, ← hsame]
      dsimp only
      rw [hthreads t ht]
  · have henter : b.enter p =
        { b with
          threads := (b.threads.modify b.current ({ · with stack := b.stack })).modify 0 ({ · with stack := [] })
          current := 0, stack := .entry b.current :: (b.thread 0).stack
          waiting := b.current :: b.waiting, prog := p } := by rw [enter, if_neg hzero]
    have hstack : b.mainStack = (b.thread 0).stack := if_neg hzero
    rw [henter] at hthreads hwaits
    dsimp only at hthreads hwaits
    have hparked : (m.thread b.current).stack = b.stack := by
      have hth := hthreads b.current hcurrent
      rw [Array.getElem?_modify, if_neg (Ne.symm hzero), Array.getElem?_modify, if_pos rfl,
        Array.getElem?_eq_getElem hcur] at hth
      rw [thread, hth]
      rfl
    have hleave : m.leave b.current b.mainStack =
        { m with
          threads := (m.threads.modify 0 ({ · with stack := (b.thread 0).stack })).modify b.current
            ({ · with stack := [] })
          current := b.current, stack := b.stack, waiting := b.waiting, prog := .ret [] } := by
      rw [leave, if_neg hzero, hparked, hwaits, hstack]
      rfl
    refine ⟨hheap ▸ h.heap, by rw [hleave], by rw [hleave], fun {t} ht => ?_⟩
    rw [hleave, shown, shown]
    dsimp only
    rw [Array.getElem?_modify, Array.getElem?_modify, hthreads t ht, Array.getElem?_modify, Array.getElem?_modify]
    -- the stack of the main thread has been put back, and that of the current one has been in its place
    cases hth : b.threads[t]? with
    | none =>
      split_ifs <;> rfl
    | some th =>
      by_cases hc : t = b.current
      · have ht0 : t ≠ 0 := hc ▸ hzero
        simp [hc, Ne.symm hzero]
      · by_cases ht0 : t = 0
        · have hrecord : b.thread 0 = th := by rw [thread, ← ht0, hth, Option.getD_some]
          simp [ht0, hzero, Ne.symm hzero, hrecord]
        · simp [hc, Ne.symm hc, Ne.symm ht0]

/-! ### Closing a thread that has not begun -/

/-- A thread that is not under way has not begun, or is dead with nothing left of it. -/
structure Bare (m : Machine) (t : Nat) : Prop where
  ne_main : t ≠ 0
  ne_current : t ≠ m.current
  thread : ∃ th, m.threads[t]? = some th ∧ th.Bare

theorem Bare.spares (h : b.Bare t) (hs : b.Spares T m) (ht : T t) : m.Bare t := by
  obtain ⟨th, hth, hbare⟩ := h.thread
  have hne : t ≠ m.current := hs.current ▸ h.ne_current
  refine ⟨h.ne_main, hne, th, ?_, hbare⟩
  rw [← shown_of_ne hne, hs.threads ht, shown_of_ne h.ne_current, hth]

/-- No code runs where a bare thread is closed. -/
theorem step_close_bare {k : Except Thrown Unit → Prog} (hprog : m.prog = .close t k) (hbare : m.Bare t) :
    m.step = .inl { m with threads := m.threads.modify t fun _ => { rest := .dead }, prog := k (.ok ()) } := by
  obtain ⟨th, hth, hrest, hstack, hfailure⟩ := hbare.thread
  obtain ⟨heap, threads, current, stack, waiting, prog⟩ := m
  obtain rfl := hprog
  have hthread (p : Prog) : (⟨heap, threads, current, stack, waiting, p⟩ : Machine).thread t = th := by
    rw [thread, hth, Option.getD_some]
  rw [step]
  dsimp only
  rw [if_neg hbare.ne_main, close]
  dsimp only
  rw [if_neg hbare.ne_current, hthread, hstack, hfailure]
  rcases hrest with hrest | ⟨f, hrest⟩ <;> rw [hrest] <;> rfl

/-- `coroutine.close` goes on to close a bare thread. -/
theorem step_coClose_bare (hprog : m.prog = Builtin.coClose.enter [.thread t]) (hbare : m.Bare t) :
    ∃ k, m.step = .inl { m with prog := .close t k } ∧ k (.ok ()) = .ret [.bool true] := by
  obtain ⟨th, hth, hrest, -⟩ := hbare.thread
  have hstatus : m.status t = .suspended ∨ m.status t = .dead := by
    rw [status, if_neg hbare.ne_current, thread, hth, Option.getD_some]
    rcases hrest with hrest | ⟨f, hrest⟩ <;> simp [hrest]
  obtain ⟨g, hlook, hclose⟩ : ∃ g, Builtin.coClose.enter [.thread t] = .look g ∧
      ∀ v : View, v.status t = .suspended ∨ v.status t = .dead →
        ∃ k, g v = .close t k ∧ k (.ok ()) = .ret [.bool true] := by
    refine ⟨_, rfl, fun v hv => ?_⟩
    rcases hv with hv | hv <;> rw [hv] <;> exact ⟨_, rfl, rfl⟩
  obtain ⟨k, hk, hret⟩ := hclose { m with prog := .ret [] }.view hstatus
  exact ⟨k, by rw [step_look (hprog.trans hlook), hk], hret⟩

theorem current_enter (b : Machine) (p : Prog) : (b.enter p).current = 0 := by
  rw [enter]
  split_ifs with hzero
  · exact hzero
  · rfl

theorem threads_leave (m : Machine) (B : List Frame) {c : Nat} (hmain : t ≠ 0) (hc : t ≠ c) :
    (m.leave c B).threads[t]? = m.threads[t]? := by
  rw [leave]
  split_ifs
  · rfl
  · simp [Array.getElem?_modify, Ne.symm hmain, Ne.symm hc]

theorem Bare.enter (h : b.Bare t) (p : Prog) : (b.enter p).Bare t := by
  obtain ⟨th, hth, hbare⟩ := h.thread
  refine ⟨h.ne_main, current_enter b p ▸ h.ne_main, th, ?_, hbare⟩
  rw [Machine.enter]
  split_ifs
  · exact hth
  · simp [Array.getElem?_modify, Ne.symm h.ne_main, Ne.symm h.ne_current, hth]

/-- The host's call of `coroutine.close` on a bare thread leaves it dead and all other threads as they were; or calls
nest too deep for it. -/
theorem run_coClose_bare (hbare : b.Bare t) (hcur : b.current < b.threads.size) (n : Nat) :
    ∃ m r, (b.calling .coClose [.thread t]).run (n + 5) = some (m, .done r) ∧ b.Spares (· ≠ t) m ∧ m.Bare t ∧
      (r = .ok [.bool true] ∨ ∃ e : Thrown, r = .error e ∧ e.IsText) := by
  let p : Prog := .call ⟨none, none⟩ (.builtin .coClose) [.thread t] .ret
  rcases step_call (fun _ => rfl) (prog_enter b p) with ⟨line, message, hstep⟩ | ⟨a, d, l, hstep⟩
  · obtain ⟨m, e, hrun, halone, he⟩ := run_refused hstep (n + 2)
    have hspares := halone.spares hcur trivial
    exact ⟨_, _, hrun, hspares.mono fun _ _ => trivial, hbare.spares hspares trivial, .inr ⟨e, rfl, he⟩⟩
  · let called : Machine :=
      { b.enter p with
        stack := .call a d l .ret :: (b.enter p).stack, prog := body (b.enter p).heap (.builtin .coClose) [.thread t] }
    have hcalled : called.Bare t := ⟨(hbare.enter p).ne_main, (hbare.enter p).ne_current, (hbare.enter p).thread⟩
    obtain ⟨k, hlook, hret⟩ :
        ∃ k, called.step = .inl { called with prog := .close t k } ∧ k (.ok ()) = .ret [.bool true] :=
      step_coClose_bare rfl hcalled
    let m : Machine :=
      { called with threads := called.threads.modify t fun _ => { rest := .dead }, prog := .ret [.bool true] }
    let closing : Machine := { called with prog := .close t k }
    have hclosing : closing.Bare t := ⟨hcalled.ne_main, hcalled.ne_current, hcalled.thread⟩
    have hclose : closing.step = .inl m := by rw [step_close_bare rfl hclosing, hret]
    have hstack : m.stack = .call a d l .ret :: b.mark := congrArg _ (stack_enter b p)
    let ended : Machine := { m with stack := b.mark }
    have hrun : (b.calling .coClose [.thread t]).run (n + 5) =
        some (ended.leave b.current b.mainStack, .done (.ok [.bool true])) := by
      rw [calling, run_inl hstep, run_inl hlook, run_inl hclose, run_inl (step_returns rfl hstack), run,
        step_leaves (m := ended) rfl rfl]
    have halone : Alone (· ≠ t) b p ended := by
      refine ⟨(heap_enter b p).symm ▸ .refl _, rfl, rfl, fun u hu => ?_⟩
      show (called.threads.modify t _)[u]? = _
      rw [Array.getElem?_modify, if_neg (Ne.symm hu)]
    have hspares := halone.spares hcur (Ne.symm hbare.ne_current)
    obtain ⟨th, hth, -⟩ := hcalled.thread
    refine ⟨_, _, hrun, hspares, ⟨hbare.ne_main, ?_, { rest := .dead }, ?_, ?_⟩, .inl rfl⟩
    · rw [hspares.current]
      exact hbare.ne_current
    · rw [threads_leave _ _ hbare.ne_main hbare.ne_current]
      show (called.threads.modify t _)[t]? = _
      rw [Array.getElem?_modify, if_pos rfl, hth]
      rfl
    · exact ⟨.inl rfl, rfl, rfl⟩

end Machine

/-! ### Threads that are not under way -/

/-- A program is about to resume or close a thread. -/
def Prog.Names (t : Nat) : Prog → Prop
  | .resume u _ _ => u = t
  | .close u _ => u = t
  | _ => False

namespace Machine

variable {b m m' : Machine} {t u : Nat} {th : Thread}

/-- A thread is not under way: it does not run, and it does not wait for one that does. -/
structure Off (m : Machine) (t : Nat) (th : Thread) : Prop where
  chain : t ∉ m.chain
  thread : m.threads[t]? = some th

/-- A thread that has not run is not under way. -/
theorem Linked.off (hm : m.Linked) {f : Value} (hth : m.threads[t]? = some th) (hfresh : th.rest = .fresh f) :
    m.Off t th := by
  refine ⟨fun hmem => ?_, hth⟩
  cases (hm.waits t hmem).unique ⟨th, hth, hfresh⟩

theorem Off.same (h : m.Off t th) (hchain : m'.chain = m.chain) (hthreads : m'.threads = m.threads) : m'.Off t th :=
  ⟨hchain ▸ h.chain, hthreads ▸ h.thread⟩

/-- Another thread is changed. -/
theorem Off.modify (h : m.Off t th) (f : Thread → Thread) (hu : u ≠ t) (hchain : m'.chain = m.chain)
    (hthreads : m'.threads = m.threads.modify u f) : m'.Off t th := by
  refine ⟨hchain ▸ h.chain, ?_⟩
  rw [hthreads, Array.getElem?_modify, if_neg hu, h.thread]

theorem Off.ne_current (h : m.Off t th) : m.current ≠ t := fun heq => h.chain (heq ▸ List.mem_cons_self ..)

/-- Control goes back to a thread that waits. -/
theorem Off.switchBack {r : Except Thrown (List Value)} (h : m.Off t th) : (m.switchBack r).Off t th := by
  rw [Machine.switchBack]
  cases hw : m.waiting with
  | nil => exact h.same (by rw [Machine.chain, Machine.chain, hw]) rfl
  | cons u rest =>
    have hu : u ≠ t := fun heq => h.chain (by simp [Machine.chain, hw, heq])
    have hrest : t ∉ rest := fun hmem => h.chain (by simp [Machine.chain, hw, hmem])
    have hoff (stack : List Frame) (prog : Prog) : Off { m with
        current := u, waiting := rest, threads := m.threads.modify u ({ · with stack := [] }), stack, prog } t th := by
      refine ⟨fun hmem => ?_, ?_⟩
      · exact (List.mem_cons.mp hmem).elim (fun heq => hu heq.symm) hrest
      · rw [Array.getElem?_modify, if_neg hu, h.thread]
    dsimp only
    split
    · exact hoff _ _
    · exact hoff _ _

theorem Off.finishThread {held : List Frame} {failure : Option Thrown} {r : Except Thrown (List Value)}
    (h : m.Off t th) : (m.finishThread held failure r).Off t th := by
  have hmodify : Off { m with threads := m.threads.modify m.current fun _ => { rest := .dead, stack := held, failure } }
      t th := h.modify (fun _ => _) h.ne_current rfl rfl
  exact hmodify.switchBack

theorem Off.call {site : Site} {f : Value} {args : List Value} {k : List Value → Prog} (h : m.Off t th) :
    (m.call site f args k).Off t th := by
  rw [Machine.call]
  cases resolve m.heap 8 f args 0 with
  | none => exact h.same rfl rfl
  | some r =>
    dsimp only
    split_ifs <;> exact h.same rfl rfl

theorem Off.tailCall {site : Site} {f : Value} {args : List Value} (h : m.Off t th) :
    (m.tailCall site f args).Off t th := by
  rw [Machine.tailCall]
  split
  · exact h.same rfl rfl
  · exact h.call

theorem Off.return_ {vs : List Value} (h : m.Off t th) (hs : m.return_ vs = .inl m') : m'.Off t th := by
  rw [Machine.return_] at hs
  cases hstack : m.stack with
  | nil =>
    rw [hstack] at hs
    exact Sum.inl.inj hs ▸ h.finishThread
  | cons f stack =>
    rw [hstack] at hs
    cases f with
    | entry c => cases hs
    | _ => exact Sum.inl.inj hs ▸ h.same rfl rfl

theorem Off.unwind {e : Thrown} (h : m.Off t th) (hs : m.unwind e = .inl m') : m'.Off t th := by
  rw [Machine.unwind] at hs
  split_ifs at hs
  · exact Sum.inl.inj hs ▸ h.finishThread
  · cases hstack : m.stack with
    | nil =>
      rw [hstack] at hs
      exact Sum.inl.inj hs ▸ h
    | cons f stack =>
      rw [hstack] at hs
      cases f with
      | entry c => cases hs
      | _ => exact Sum.inl.inj hs ▸ h.same rfl rfl

/-- Another thread is resumed, if it can be. -/
theorem Off.resume {args : List Value} {k : Except Thrown (List Value) → Prog} (h : m.Off t th) (hu : u ≠ t) :
    (m.resume u args k).Off t th := by
  rcases resume_cases m u args k with ⟨r, heq⟩ | ⟨-, prog, heq⟩
  · exact heq ▸ h.same rfl rfl
  · rw [heq]
    refine ⟨fun hmem => ?_, ?_⟩
    · exact (List.mem_cons.mp hmem).elim (fun heq => hu heq.symm) h.chain
    · simp [Array.getElem?_modify, hu, h.ne_current, h.thread]

/-- Another thread is closed, if it can be. -/
theorem Off.close {k : Except Thrown Unit → Prog} (h : m.Off t th) (hu : u ≠ t) : (m.close u k).Off t th := by
  rw [Machine.close]
  split_ifs
  · exact h.same rfl rfl
  · dsimp only
    split
    · exact h.same rfl rfl
    · exact h.modify (fun _ => { rest := .dead }) hu rfl rfl

/-- A thread that is not under way stays as it is and off the way, unless a program names it. -/
theorem Off.step (h : m.Off t th) (hnames : ¬ m.prog.Names t) (hs : m.step = .inl m') : m'.Off t th := by
  obtain ⟨heap, threads, current, stack, waiting, prog⟩ := m
  have hoff (heap : Heap) (stack : List Frame) (prog : Prog) :
      Off ⟨heap, threads, current, stack, waiting, prog⟩ t th :=
    h.same rfl rfl
  cases prog with
  | ret vs => exact h.return_ hs
  | unwind e => exact h.unwind hs
  | call site f args k => exact Sum.inl.inj hs ▸ (hoff _ _ _).call
  | tailCall site f args => exact Sum.inl.inj hs ▸ (hoff _ _ _).tailCall
  | resume u args k => exact Sum.inl.inj hs ▸ (hoff _ _ _).resume hnames
  | close u k =>
    rw [Machine.step] at hs
    dsimp only at hs
    split_ifs at hs
    · exact Sum.inl.inj hs ▸ hoff _ _ _
    · exact Sum.inl.inj hs ▸ (hoff _ _ _).close hnames
  | release k =>
    cases stack with
    | nil => exact Sum.inl.inj hs ▸ hoff _ _ _
    | cons f stack => cases f <;> exact Sum.inl.inj hs ▸ hoff _ _ _
  | spawn f k =>
    exact Sum.inl.inj hs ▸ ⟨h.chain, getElem?_push_some h.thread _⟩
  | yield vs k =>
    rw [Machine.step] at hs
    dsimp only at hs
    split_ifs at hs
    · exact Sum.inl.inj hs ▸ hoff _ _ _
    · refine Sum.inl.inj hs ▸ Off.switchBack ?_
      exact h.modify (fun _ => { rest := .yielded k, stack }) h.ne_current rfl rfl
  | ask r k => cases hs
  | _ => exact Sum.inl.inj hs ▸ hoff _ _ _

/-- What the host answers goes on. -/
theorem Off.answers {r : Request} {m₁ : Machine} (h : m.Off t th) (hs : m.step = .inr (m₁, .asks r))
    (a : Except Value (List Value)) : (m₁.answer a).Off t th := by
  obtain ⟨heap, threads, current, stack, waiting, prog⟩ := m
  obtain ⟨k, rfl⟩ : ∃ k, m₁ = ⟨heap, threads, current, .asked k :: stack, waiting, .ret []⟩ := by
    cases prog with
    | ask q k => exact ⟨k, (Prod.mk.inj (Sum.inr.inj hs)).1.symm⟩
    | ret vs =>
      rw [Machine.step, Machine.return_] at hs
      cases stack with
      | nil => cases hs
      | cons f stack => cases f <;> cases hs
    | unwind e =>
      rw [Machine.step, Machine.unwind] at hs
      split_ifs at hs
      cases stack with
      | nil => cases hs
      | cons f stack => cases f <;> cases hs
    | release k =>
      cases stack with
      | nil => cases hs
      | cons f stack => cases f <;> cases hs
    | yield vs k =>
      rw [Machine.step] at hs
      dsimp only at hs
      split_ifs at hs
    | close u k =>
      rw [Machine.step] at hs
      dsimp only at hs
      split_ifs at hs
    | _ => cases hs
  exact h.same (chain_answer _ a) (threads_answer _ a)

/-- The host's own call puts the current thread aside and goes to the main one. -/
theorem Off.enter (h : m.Off t th) (hmain : t ≠ 0) (p : Prog) : (m.enter p).Off t th := by
  rw [Machine.enter]
  split_ifs
  · exact h.same rfl rfl
  · refine ⟨fun hmem => (List.mem_cons.mp hmem).elim hmain h.chain, ?_⟩
    simp [Array.getElem?_modify, Ne.symm hmain, h.ne_current, h.thread]

inductive Advances (m : Machine) : Machine → Prop where
  | step {m' : Machine} (step : m.step = .inl m') : Advances m m'
  | answers {m' : Machine} {r : Request} (step : m.step = .inr (m', .asks r)) (a : Except Value (List Value)) :
    Advances m (m'.answer a)

/-- However a machine goes on, a thread stays as it is and off the way, up to where a program names it. -/
def Leaves (m : Machine) (t : Nat) (th : Thread) : Prop :=
  ∀ {m' : Machine}, Relation.ReflTransGen Advances m m' → m'.Off t th ∨
    ∃ m₁, Relation.ReflTransGen Advances m m₁ ∧ Relation.ReflTransGen Advances m₁ m' ∧ m₁.Off t th ∧ m₁.prog.Names t

theorem Off.leaves (h : m.Off t th) : m.Leaves t th := by
  intro m' hs
  induction hs using Relation.ReflTransGen.head_induction_on with
  | refl => exact .inl h
  | @head m m₂ hadv hrest ih =>
    by_cases hnames : m.prog.Names t
    · exact .inr ⟨m, .refl, .head hadv hrest, h, hnames⟩
    · have hoff : m₂.Off t th := by
        cases hadv with
        | step hs => exact h.step hnames hs
        | answers hs a => exact h.answers hs a
      rcases ih hoff with hoff | ⟨m₁, hm₁, hm', hoff, hnamed⟩
      · exact .inl hoff
      · exact .inr ⟨m₁, .head hadv hm₁, hm', hoff, hnamed⟩

/-- A thread that has not run is not under way on a machine that has spared it, either. -/
theorem Linked.off_spared (hb : b.Linked) {f : Value} (hth : b.threads[t]? = some th) (hfresh : th.rest = .fresh f)
    (hs : b.Spares T m) (ht : T t) : m.Off t th := by
  have hoff : b.Off t th := hb.off hth hfresh
  have hchain : m.chain = b.chain := by rw [chain, chain, hs.current, hs.waiting]
  refine ⟨hchain ▸ hoff.chain, ?_⟩
  have hne : t ≠ m.current := fun heq => hoff.ne_current (hs.current ▸ heq.symm)
  rw [← shown_of_ne hne, hs.threads ht, shown_of_ne (Ne.symm hoff.ne_current), hth]

end Machine

end HostedLua.Lua
