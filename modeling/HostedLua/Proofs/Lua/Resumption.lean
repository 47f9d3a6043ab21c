import HostedLua.Proofs.Lua.Ends

/-! Resuming a thread from outside. While no call by the host is under way, the library functions on threads run
from their first step to their last over nothing but the mark of the host's call. `coroutine.resume` gives a
suspended thread its turn: other threads and the host may get theirs in between, but control comes back only when
that thread stops, by suspending itself, returning or failing, and it is left as it stopped. -/

namespace HostedLua.Lua

/-- The state that a thread shows while it is not current. -/
def Rest.shown : Rest → ThreadStatus
  | .fresh _ | .yielded _ => .suspended
  | .waiting => .normal
  | .dead => .dead

namespace Machine

variable {b m m' : Machine} {B S : List Frame} {W : List Nat} {k : Except Thrown (List Value) → Prog} {t : Nat}
  {f : Builtin} {args us vs : List Value}

/-! ### Calls over nothing else -/

/-- No call by the host is under way. -/
structure Idle (m : Machine) : Prop where
  current : m.current = 0
  stack : m.stack = []

theorem Idle.kept (h : m.Idle) (hk : m.Kept m') : m'.Idle := by
  have hcur := hk.current.trans h.current
  have hstack := hk.mainStack
  rw [mainStack_main hcur, mainStack_main h.current] at hstack
  exact ⟨hcur, hstack.trans h.stack⟩

theorem Idle.mark (h : m.Idle) : m.mark = [.entry 0] := by
  rw [Machine.mark, mainStack_main h.current, h.current, h.stack]

/-- The stack of the main thread during the host's call of a library function. -/
def callOf (f : Builtin) : List Frame :=
  [.call { function := .builtin f, naming := none, line := none } 1 1 .ret, .entry 0]

theorem step_calling (hb : b.Idle) :
    (b.calling f args).step = .inl { b with stack := callOf f, prog := f.enter args } := by
  obtain ⟨heap, threads, current, stack, waiting, prog⟩ := b
  obtain ⟨rfl, rfl⟩ := hb
  rfl

theorem step_look {k : View → Prog} (hprog : m.prog = .look k) :
    m.step = .inl { m with prog := k { m with prog := .ret [] }.view } := by
  obtain ⟨heap, threads, current, stack, waiting, prog⟩ := m
  obtain rfl := hprog
  rfl

theorem step_returns {a : Activation} {d l : Nat} (hprog : m.prog = .ret vs) (hstack : m.stack = .call a d l .ret :: B) :
    m.step = .inl { m with stack := B } := by
  obtain ⟨heap, threads, current, stack, waiting, prog⟩ := m
  obtain rfl := hprog
  obtain rfl := hstack
  rfl

theorem step_leaves {c : Nat} (hprog : m.prog = .ret vs) (hstack : m.stack = .entry c :: B) :
    m.step = .inr (m.leave c B, .done (.ok vs)) := by
  obtain ⟨heap, threads, current, stack, waiting, prog⟩ := m
  obtain rfl := hprog
  obtain rfl := hstack
  rfl

theorem step_done (hprog : m.prog = .ret vs) (hstack : m.stack = [.entry 0]) :
    m.step = .inr ({ m with stack := [], prog := .ret [] }, .done (.ok vs)) :=
  step_leaves hprog hstack

theorem run_inl (h : m.step = .inl m') (n : Nat) : m.run (n + 1) = m'.run n := by
  rw [run, h]

/-- A library function that only looks at the machine gives its values back and changes nothing. -/
theorem run_look {k : View → Prog} (hb : b.Idle) (henter : f.enter args = .look k)
    (hret : k { b with stack := callOf f, prog := .ret [] }.view = .ret vs) (n : Nat) :
    (b.calling f args).run (n + 4) = some ({ b with prog := .ret [] }, .done (.ok vs)) := by
  rw [run_inl (step_calling hb), run_inl (step_look henter), run_inl (step_returns hret rfl), run, step_done hret rfl,
    ← hb.stack]

theorem run_coStatus (hb : b.Idle) (n : Nat) : (b.calling .coStatus [.thread t]).run (n + 4) =
    some ({ b with prog := .ret [] }, .done (.ok [.ofString (Library.statusName (b.status t))])) :=
  run_look hb rfl rfl n

/-- What `coroutine.resume` gives back. -/
def reported : Except Thrown (List Value) → List Value
  | .ok vs => .bool true :: vs
  | .error e => [.bool false, e.seen]

/-- Why `coroutine.resume` refuses a thread that is dead. -/
def deadMessage : Bytes := .ofString "cannot resume dead coroutine"

theorem run_coResume_dead (us : List Value) (hb : b.Idle) (hdead : b.status t = .dead) (n : Nat) :
    (b.calling .coResume (.thread t :: us)).run (n + 4) =
      some ({ b with prog := .ret [] }, .done (.ok [.bool false, .str deadMessage])) := by
  refine run_look hb rfl ?_ n
  have hview : { b with stack := callOf .coResume, prog := .ret [] }.view.status t = .dead := hdead
  dsimp only
  rw [hview]
  rfl

/-! ### The turn of a thread -/

/-- A thread has its turn: it runs, or waits for others that run, and the main thread waits for it. -/
structure Turn (t : Nat) (k : Except Thrown (List Value) → Prog) (B : List Frame) (W : List Nat) (m : Machine) :
    Prop where
  ne_main : t ≠ 0
  away : Away k B W m
  chain : ∃ us, t ∉ us ∧ m.current :: m.waiting = us ++ t :: 0 :: W
  waits : HasRest m.threads t .waiting

/-- The turn of a thread is over: the thread is as it stopped, and the main thread has got what it left. -/
structure Over (t : Nat) (th : Thread) (r : Except Thrown (List Value)) (k : Except Thrown (List Value) → Prog)
    (B : List Frame) (W : List Nat) (m : Machine) : Prop where
  current : m.current = 0
  waiting : m.waiting = W
  stack : m.stack = B
  prog : m.prog = k r
  thread : m.threads[t]? = some th

/-- The thread that runs when the one that has its turn is the innermost of those that are on their way. -/
theorem chain_cases {cur t : Nat} {us W waiting : List Nat} (h : cur :: waiting = us ++ t :: W) :
    (us = [] ∧ cur = t ∧ waiting = W) ∨ ∃ us', us = cur :: us' ∧ waiting = us' ++ t :: W := by
  cases us with
  | nil => exact .inl ⟨rfl, (List.cons.inj h).1, (List.cons.inj h).2⟩
  | cons u us => exact .inr ⟨us, by rw [(List.cons.inj h).1], (List.cons.inj h).2⟩

/-- A turn goes on, or it is over since its thread stops. -/
theorem Turn.step (h : Turn t k B W m) (hs : m.step = .inl m') :
    Turn t k B W m' ∨ m.current = t ∧ ∃ th r, Halts m th r ∧ Over t th r k B W m' := by
  obtain ⟨us, hus, hchain⟩ := h.chain
  have hdoes := h.away.does
  rw [hs] at hdoes
  have haway := h.away.step hs
  cases hdoes with
  | stays current waiting threads stands stack =>
    have haway : Away k B W m' := ⟨current ▸ h.away.current, waiting ▸ h.away.waiting, threads, above_nil.mp stack⟩
    exact .inl ⟨h.ne_main, haway, ⟨us, hus, by rw [current, waiting, hchain]⟩, h.waits.of_stands (.inl rfl) stands⟩
  | switches current waiting threads stands loose stack =>
    have haway : Away k B W m' := haway.resolve_right fun hback => current hback.current
    obtain ⟨th, hth, hrest⟩ := h.waits
    have hne : m'.current ≠ t := by
      rintro rfl
      exact loose th hth (.inl hrest)
    refine .inl ⟨h.ne_main, haway, ⟨m'.current :: us, ?_, by rw [waiting, hchain]; rfl⟩, h.waits.of_stands (.inl rfl) stands⟩
    exact fun hmem => (List.mem_cons.mp hmem).elim (fun heq => hne heq.symm) hus
  | @goesBack m₁ th r current waiting halts left threads =>
    rcases chain_cases hchain with ⟨-, hcur, hw⟩ | ⟨us', rfl, hw⟩
    · refine .inr ⟨hcur, th, r, halts, ?_⟩
      rw [switchBack_main (waiting.trans hw) threads]
      refine ⟨rfl, rfl, rfl, rfl, ?_⟩
      obtain ⟨th₀, hth₀, -⟩ := h.waits
      dsimp only
      rw [Array.getElem?_modify, if_neg h.ne_main.symm, left, hcur, Array.getElem?_modify, if_pos rfl, hth₀]
      rfl
    · have hne : m.current ≠ t := fun heq => hus (heq ▸ List.mem_cons_self ..)
      have hchain' : (m₁.switchBack r).current :: (m₁.switchBack r).waiting = us' ++ t :: 0 :: W := by
        rw [switchBack_waiting (by rw [waiting, hw]; simp), waiting, hw]
      have hwaits : HasRest m₁.threads t .waiting := by
        obtain ⟨th₀, hth₀, hrest⟩ := h.waits
        exact ⟨th₀, by rw [left, Array.getElem?_modify, if_neg hne, hth₀], hrest⟩
      have haway : Away k B W (m₁.switchBack r) := by
        refine haway.resolve_right fun hback => ?_
        rw [hback.current, hback.waiting] at hchain'
        have := congrArg List.length hchain'
        simp only [List.length_append, List.length_cons] at this
        omega
      have hus' : t ∉ us' := fun hmem => hus (List.mem_cons_of_mem _ hmem)
      exact .inl ⟨h.ne_main, haway, ⟨us', hus', hchain'⟩, hwaits.of_stands (.inl rfl) stands_switchBack⟩

theorem Turn.asks {q : Request} (h : Turn t k B W m) (hs : m.step = .inr (m', .asks q)) : Turn t k B W m' := by
  have haway := h.away.asks hs
  have hdoes := h.away.does
  rw [hs] at hdoes
  cases hdoes
  exact ⟨h.ne_main, haway, h.chain, h.waits⟩

theorem Turn.kept (h : Turn t k B W m) (hk : m.Kept m') (hs : m'.Sound) : Turn t k B W m' := by
  obtain ⟨us, hus, hchain⟩ := h.chain
  exact ⟨h.ne_main, h.away.kept hk hs, ⟨us, hus, by rw [hk.current, hk.waiting, hchain]⟩,
    h.waits.of_stands (.inl rfl) hk.stands⟩

theorem Turn.answer {a : Except Value (List Value)} (h : Turn t k B W m) : Turn t k B W (m.answer a) := by
  have haway := h.away.answer (a := a)
  rw [Machine.answer] at haway ⊢
  split at haway
  · cases a <;> exact ⟨h.ne_main, haway, h.chain, h.waits⟩
  · exact ⟨h.ne_main, haway, h.chain, h.waits⟩

/-- A thread that is suspended is there, and neither waits nor is dead. -/
theorem suspended_thread (h : m.status t = .suspended) :
    ∃ th, m.threads[t]? = some th ∧ ¬ th.rest.Settled ∧ m.thread t = th := by
  rw [status] at h
  split_ifs at h
  cases hth : m.threads[t]? with
  | none =>
    rw [thread, hth] at h
    contradiction
  | some th =>
    have hthread : m.thread t = th := by rw [thread, hth, Option.getD_some]
    refine ⟨th, rfl, fun hsettled => ?_, hthread⟩
    rw [hthread] at h
    rcases hsettled with hrest | hrest <;> rw [hrest] at h <;> contradiction

theorem status_of_thread {th : Thread} (hne : t ≠ m.current) (hth : m.threads[t]? = some th) :
    m.status t = th.rest.shown := by
  rw [status, if_neg hne, thread, hth, Option.getD_some]
  cases th.rest <;> rfl

/-- A suspended thread that is resumed becomes current over its stack, unless calls nest too deep. -/
theorem resume_suspended (us : List Value) (k : Except Thrown (List Value) → Prog)
    (hsuspended : m.status t = .suspended) (hdepth : (depths m.stack).2 + 1 < maxNested) : ∃ prog, m.resume t us k =
      { m with threads := (m.threads.modify m.current ({ · with stack := .resumed k :: m.stack })).modify t
                 fun _ => { rest := .waiting }
               current := t, stack := (m.thread t).stack, waiting := m.current :: m.waiting, prog } := by
  obtain ⟨th, -, hrest, hthread⟩ := suspended_thread hsuspended
  rw [resume]
  dsimp only
  rw [if_neg (Nat.not_le.mpr hdepth), hthread]
  cases hth : th.rest with
  | fresh f => exact ⟨_, rfl⟩
  | yielded k => exact ⟨_, rfl⟩
  | waiting => exact absurd (.inl hth) hrest
  | dead => exact absurd (.inr hth) hrest

/-- The main thread resumes a suspended thread, which gets its turn. -/
theorem turn_resume (hcur : m.current = 0) (ht : Threads m.threads S) (hsuspended : m.status t = .suspended)
    (hdepth : (depths m.stack).2 + 1 < maxNested) : Turn t k m.stack m.waiting (m.resume t us k) := by
  obtain ⟨th, hth, hrest, hthread⟩ := suspended_thread hsuspended
  have hne : t ≠ 0 := ht.ne_main (hthread ▸ hrest)
  obtain ⟨prog, heq⟩ := resume_suspended us k hsuspended hdepth
  rw [heq, hcur]
  refine ⟨hne, ⟨hne, ⟨[], List.not_mem_nil, rfl⟩, ?_, ht.noEntry_thread hne⟩, ⟨[], List.not_mem_nil, rfl⟩, ?_⟩
  · dsimp only
    exact ht.modify_main.modify hne fun _ _ => noEntry_nil
  · refine ⟨{ rest := .waiting }, ?_, rfl⟩
    dsimp only
    rw [Array.getElem?_modify, if_pos rfl, Array.getElem?_modify, if_neg hne.symm, hth]
    rfl

theorem resumeThread_suspended (us : List Value) (k : Except Thrown (List Value) → Prog) {v : View}
    (h : v.status t = .suspended) : ∃ g, Library.resumeThread t us k = .look g ∧ g v = .resume t us k := by
  refine ⟨_, rfl, ?_⟩
  dsimp only
  rw [h]

/-- The host's call of `coroutine.resume` on a suspended thread gives it its turn, and reports what it leaves. -/
theorem turn_coResume (us : List Value) (hb : b.Idle) (hs : b.Sound) (hsuspended : b.status t = .suspended) :
    ∃ m₁ m₂ m₃ k, (b.calling .coResume (.thread t :: us)).step = .inl m₁ ∧ m₁.step = .inl m₂ ∧ m₂.step = .inl m₃ ∧
      Turn t k (callOf .coResume) b.waiting m₃ ∧ ∀ r, k r = .ret (reported r) := by
  obtain ⟨S, hS⟩ := hs.threads
  let m : Machine := { b with stack := callOf .coResume, prog := .ret [] }
  have hview : m.view.status t = .suspended := hsuspended
  obtain ⟨k, henter, hk⟩ : ∃ k, Builtin.coResume.enter (.thread t :: us) = Library.resumeThread t us k ∧
      ∀ r, k r = .ret (reported r) := ⟨_, rfl, by rintro (e | vs) <;> rfl⟩
  obtain ⟨g, hlook, hresumes⟩ := resumeThread_suspended us k hview
  refine ⟨_, { m with prog := .resume t us k }, m.resume t us k, k, step_calling hb, ?_, ?_, ?_, hk⟩
  · rw [step_look (henter.trans hlook), ← hresumes]
  · rfl
  · exact turn_resume (m := m) hb.current hS hsuspended (show 1 + 1 < maxNested by decide)

/-- The host's call of a library function is over once the function has its values. -/
theorem step_reported (hprog : m.prog = .ret vs) (hstack : m.stack = callOf f) :
    m.step = .inl { m with stack := [.entry 0] } ∧ { m with stack := [.entry 0] }.step =
      .inr ({ m with stack := [], prog := .ret [] }, .done (.ok vs)) :=
  ⟨step_returns hprog hstack, step_done hprog rfl⟩

/-! ### Calls over others -/

/-- A machine on which a library function has begun to run for the host. -/
def begun (b : Machine) (f : Builtin) (args : List Value) : Machine :=
  { b.calling f args with
    stack := .call { function := .builtin f, naming := none, line := none } ((depths b.mark).1 + 1)
      (nestedAt ⟨none, none⟩ b.mark) .ret :: b.mark
    prog := f.enter args }

theorem Idle.fits (h : b.Idle) : Fits b := by
  rw [Fits, h.mark]
  decide

theorem step_begins (hb : b.Sound) (hfits : Fits b) : (b.calling f args).step = .inl (b.begun f args) := by
  obtain ⟨-, -, -, hstack⟩ := enter_main (p := .call ⟨none, none⟩ (.builtin f) args .ret) hb
  have hresolve : resolve (b.calling f args).heap 8 (.builtin f) args 0 = some (.builtin f, args, 0) := rfl
  rw [step_calls, call, hresolve]
  dsimp only [noted]
  rw [calling, hstack, if_neg (Nat.not_le.mpr hfits.1), if_neg (Nat.not_le.mpr hfits.2)]
  rfl

/-- A library function that only looks at the machine gives its values back. -/
theorem run_looks {k : View → Prog} (hb : b.Sound) (hfits : Fits b) (henter : f.enter args = .look k)
    (hret : k { b.begun f args with prog := .ret [] }.view = .ret vs) (n : Nat) :
    ∃ m', (b.calling f args).run (n + 4) = some (m', .done (.ok vs)) := by
  rw [run_inl (step_begins hb hfits), run_inl (step_look henter), run_inl (step_returns hret rfl), run,
    step_leaves hret rfl]
  exact ⟨_, rfl⟩

/-- The host's call of `coroutine.resume` on a dead thread is refused with a message. -/
theorem run_coResume_refused (us : List Value) (hb : b.Sound) (hfits : Fits b)
    (hdead : (b.begun .coResume (.thread t :: us)).status t = .dead) (n : Nat) :
    ∃ m', (b.calling .coResume (.thread t :: us)).run (n + 4) =
      some (m', .done (.ok [.bool false, .str deadMessage])) := by
  refine run_looks hb hfits rfl ?_ n
  have hview : { b.begun .coResume (.thread t :: us) with prog := .ret [] }.view.status t = .dead := hdead
  dsimp only
  rw [hview]
  rfl

theorem step_raise {v : Value} (hprog : m.prog = .raise v) : ∃ e, m.step = .inl { m with prog := .unwind e } := by
  obtain ⟨heap, threads, current, stack, waiting, prog⟩ := m
  obtain rfl := hprog
  exact ⟨_, rfl⟩

theorem step_thrown {e : Thrown} {c : Nat} (hprog : m.prog = .unwind e) (hstack : m.stack = .entry c :: B) :
    m.step = .inr (m.leave c B, .done (.error e)) := by
  obtain ⟨heap, threads, current, stack, waiting, prog⟩ := m
  obtain rfl := hprog
  obtain rfl := hstack
  rfl

/-- The host's call of a library function that is refused for its depth fails, and threads will do what they would. -/
theorem run_deep (hb : b.Sound) (hdeep : ¬ Fits b) (n : Nat) :
    ∃ m' e, (b.calling f args).run (n + 3) = some (m', .done (.error e)) ∧
      ∀ {t rest}, HasRest b.threads t rest → HasRest m'.threads t rest := by
  obtain ⟨-, -, -, hstack⟩ := enter_main (p := .call ⟨none, none⟩ (.builtin f) args .ret) hb
  replace hstack : (b.calling f args).stack = b.mark := hstack
  have hresolve : resolve (b.calling f args).heap 8 (.builtin f) args 0 = some (.builtin f, args, 0) := rfl
  have hraises (line : Option Nat) (message : Bytes) : ∃ v, Prog.fail line message = .raise v := by
    cases line <;> exact ⟨_, rfl⟩
  obtain ⟨v, hstep⟩ : ∃ v, (b.calling f args).step = .inl { b.calling f args with stack := b.mark, prog := .raise v } := by
    rw [step_calls, call, hresolve]
    dsimp only [noted]
    rw [hstack]
    split_ifs with hdepth hnested
    · obtain ⟨v, hv⟩ := hraises (lineOf b.mark) (.ofString "stack overflow")
      exact ⟨v, by rw [hv]⟩
    · obtain ⟨v, hv⟩ := hraises (lineOf b.mark) (.ofString "C stack overflow")
      exact ⟨v, by rw [hv]⟩
    · exact absurd ⟨Nat.not_le.mp hdepth, Nat.not_le.mp hnested⟩ hdeep
  let m : Machine := { b.calling f args with stack := b.mark, prog := .raise v }
  obtain ⟨e, hraise⟩ : ∃ e, m.step = .inl { m with prog := .unwind e } := step_raise rfl
  have hrest {t : Nat} {rest : Rest} (h : HasRest b.threads t rest) : HasRest m.threads t rest := h.enter
  refine ⟨{ m with prog := .unwind e }.leave b.current b.mainStack, e, ?_, fun h => (hrest h).leave⟩
  rw [run_inl hstep, run_inl hraise, run, step_thrown rfl rfl]

/-! ### Closing a thread -/

/-- The host's call of `coroutine.close` on a suspended thread leaves it dead before any other code runs. -/
theorem closes_coClose {th : Thread} (hb : b.Sound) (hfits : Fits b) (hth : b.threads[t]? = some th)
    (hrest : ¬ th.rest.Settled) : ∃ m₁ m₂ m₃, (b.calling .coClose [.thread t]).step = .inl m₁ ∧
      m₁.step = .inl m₂ ∧ m₂.step = .inl m₃ ∧ Running b m₃ ∧ Rises m₃.threads b.behind m₃ ∧
      m₃.threads[t]? = some { rest := .dead } := by
  let m : Machine := { b.begun .coClose [.thread t] with prog := .ret [] }
  obtain ⟨hcur, hwaiting, ⟨S, hS⟩, -⟩ := enter_main (p := .call ⟨none, none⟩ (.builtin .coClose) [.thread t] .ret) hb
  replace hcur : m.current = 0 := hcur
  replace hS : Threads m.threads S := hS
  obtain ⟨th', hth', hrest'⟩ : HasRest m.threads t th.rest := HasRest.enter ⟨th, hth, rfl⟩
  have hthread : m.thread t = th' := by rw [thread, hth', Option.getD_some]
  have hloose : ¬ (m.thread t).rest.Settled := by rwa [hthread, hrest']
  have hne : t ≠ 0 := hS.ne_main hloose
  have hview : m.view.status t = .suspended := by
    have hstatus := status_of_thread (by rwa [hcur] : t ≠ m.current) hth'
    rw [← hthread] at hstatus
    refine hstatus.trans ?_
    cases hr : (m.thread t).rest with
    | fresh | yielded => rfl
    | waiting => exact absurd (.inl hr) hloose
    | dead => exact absurd (.inr hr) hloose
  obtain ⟨g, hlook, k, hcloses⟩ : ∃ g, Builtin.coClose.enter [.thread t] = .look g ∧ ∃ k, g m.view = .close t k := by
    refine ⟨_, rfl, ?_⟩
    rw [hview]
    exact ⟨_, rfl⟩
  obtain ⟨prog, hclose⟩ : ∃ prog, m.close t k =
      { m with threads := m.threads.modify t fun _ => { rest := .dead }, prog } := by
    rw [close, if_neg (by rwa [hcur])]
    dsimp only
    split
    · next hr => exact absurd (.inl hr) hloose
    · exact ⟨_, rfl⟩
  refine ⟨_, { m with prog := .close t k }, m.close t k, step_begins hb hfits, ?_, ?_, ?_⟩
  · rw [step_look hlook, ← hcloses]
  · show (if t = 0 then _ else _) = _
    rw [if_neg hne]
  · rw [hclose]
    refine ⟨.main hcur hwaiting ⟨S, ?_⟩ ⟨[_], noEntry_nil.cons (by simp), rfl⟩, .main hcur hwaiting, ?_⟩
    · dsimp only
      exact hS.modify hne fun _ _ => noEntry_nil
    · dsimp only
      rw [Array.getElem?_modify, if_pos rfl, hth']
      rfl

end Machine

end HostedLua.Lua
