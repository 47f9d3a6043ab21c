import HostedLua.Proofs.Lua.HostCall

/-! Library functions that the host calls and that resume at most another thread. Whatever that thread does,
such a call ends in values of which a property holds, or raises if it may. So `coroutine.resume` reports with
a truth value in front, and where it does, `coroutine.status` gives a string. -/

namespace HostedLua.Lua

/-- A program that calls nothing ends: it returns values with a property, or raises if it may. -/
inductive Prog.Ends (P : List Value → Prop) (R : Prop) : Prog → Prop where
  | ret {vs : List Value} : P vs → Ends P R (.ret vs)
  | raise {v : Value} : R → Ends P R (.raise v)
  | unwind {t : Thrown} : R → Ends P R (.unwind t)
  | upd {f : Heap → Heap × Prog} : (∀ h, Ends P R (f h).2) → Ends P R (.upd f)
  | look {k : View → Prog} : (∀ v, Ends P R (k v)) → Ends P R (.look k)
  | resume {t : Nat} {args : List Value} {k : Except Thrown (List Value) → Prog} :
    (∀ r, Ends P R (k r)) → Ends P R (.resume t args k)

namespace Machine

variable {b m m' : Machine} {F S : List Frame} {P : List Value → Prop} {R : Prop}

/-- Functions on a stack that return what they get. -/
def Passes (stack : List Frame) : Prop := ∀ f ∈ stack, ∃ a d n, f = .call a d n .ret

/-- The main thread resumes another one, which becomes current, or goes on at once. -/
theorem resume_main {t : Nat} {args : List Value} {k : Except Thrown (List Value) → Prog} (hcur : m.current = 0)
    (ht : Threads m.threads S) :
    (∃ r, m.resume t args k = { m with prog := k r }) ∨ Away k m.stack m.waiting (m.resume t args k) := by
  rcases resume_cases m t args k with h | ⟨hrest, prog, heq⟩
  · exact .inl h
  · have hne := ht.ne_main hrest
    rw [heq, hcur]
    refine .inr ⟨hne, ⟨[], List.not_mem_nil, rfl⟩, ?_, ht.noEntry_thread hne⟩
    dsimp only
    exact ht.modify_main.modify hne fun _ _ => noEntry_nil

/-- The main thread runs over the mark of a call by the host, with functions between them that return what they
get. -/
structure OverMark (b : Machine) (F : List Frame) (m : Machine) : Prop where
  current : m.current = 0
  waiting : m.waiting = b.behind
  threads : ∃ S, Threads m.threads S
  passes : Passes F
  stack : m.stack = F ++ b.mark

/-- A call by the host is about to end: what is left to do ends, at once or when the main thread gets what it
waits for. -/
inductive Ending (P : List Value → Prop) (R : Prop) (b m : Machine) : Prop where
  | main {F : List Frame} (above : OverMark b F m) (prog : m.prog.Ends P R)
  | away {k : Except Thrown (List Value) → Prog} {F : List Frame} (away : Away k (F ++ b.mark) b.behind m)
    (passes : Passes F) (prog : ∀ r, (k r).Ends P R)

/-- What a call comes to that ends. -/
def Outcome (P : List Value → Prop) (R : Prop) : Except Thrown (List Value) → Prop
  | .ok vs => P vs
  | .error _ => R

theorem Passes.tail {f : Frame} (h : Passes (f :: F)) : Passes F := fun g hg => h g (List.mem_cons_of_mem _ hg)

theorem Passes.above (h : Passes F) : Above b.mark (F ++ b.mark) := by
  refine ⟨F, fun c hc => ?_, rfl⟩
  obtain ⟨a, d, n, hf⟩ := h _ hc
  contradiction

/-- A call by the host begins right over its mark. -/
theorem overMark_enter {p : Prog} (hb : b.Sound) : OverMark b [] (b.enter p) := by
  obtain ⟨current, waiting, threads, stack⟩ := enter_main (p := p) hb
  exact ⟨current, waiting, threads, fun _ hf => absurd hf List.not_mem_nil, stack⟩

/-- A value that is returned passes the functions over the mark, and ends the call there. -/
theorem ending_return {vs : List Value} (h : OverMark b F m) (hvs : P vs) :
    (∃ m', m.return_ vs = .inl m' ∧ Ending P R b m') ∨ ∃ m', m.return_ vs = .inr (m', .done (.ok vs)) := by
  rw [return_, h.stack]
  cases F with
  | nil => exact .inr ⟨_, rfl⟩
  | cons f F =>
    obtain ⟨a, d, n, rfl⟩ := h.passes f (List.mem_cons_self ..)
    exact .inl ⟨_, rfl, .main ⟨h.current, h.waiting, h.threads, h.passes.tail, rfl⟩ (.ret hvs)⟩

/-- What is thrown passes the functions over the mark, and ends the call there. -/
theorem ending_unwind {t : Thrown} (h : OverMark b F m) (prog : m.prog.Ends P R) :
    (∃ m', m.unwind t = .inl m' ∧ Ending P R b m') ∨ ∃ m', m.unwind t = .inr (m', .done (.error t)) := by
  have hcaught : isCaught m.stack = true := by
    rw [h.stack]
    exact h.passes.above.isCaught
  rw [unwind, hcaught, h.stack]
  cases F with
  | nil => exact .inr ⟨_, rfl⟩
  | cons f F =>
    obtain ⟨a, d, n, rfl⟩ := h.passes f (List.mem_cons_self ..)
    exact .inl ⟨_, rfl, .main ⟨h.current, h.waiting, h.threads, h.passes.tail, rfl⟩ prog⟩

/-- A call that is about to end goes on so, or ends; it asks nothing itself. -/
theorem OverMark.next (h : OverMark b F m) (prog : m.prog.Ends P R) :
    (∃ m', m.step = .inl m' ∧ Ending P R b m') ∨ ∃ m' r, m.step = .inr (m', .done r) ∧ Outcome P R r := by
  obtain ⟨heap, ts, cur, st, wt, pr⟩ := m
  have hover (heap : Heap) (p : Prog) : OverMark b F ⟨heap, ts, cur, st, wt, p⟩ :=
    ⟨h.current, h.waiting, h.threads, h.passes, h.stack⟩
  cases prog with
  | @ret vs hvs =>
    rcases ending_return (R := R) h hvs with hgoes | ⟨m', hends⟩
    · exact .inl hgoes
    · exact .inr ⟨m', _, hends, hvs⟩
  | @unwind t hR =>
    rcases ending_unwind (t := t) h (.unwind hR) with hgoes | ⟨m', hends⟩
    · exact .inl hgoes
    · exact .inr ⟨m', _, hends, hR⟩
  | raise hR => exact .inl ⟨_, rfl, .main (hover _ _) (.unwind hR)⟩
  | upd hf => exact .inl ⟨_, rfl, .main (hover _ _) (hf heap)⟩
  | look hk => exact .inl ⟨_, rfl, .main (hover _ _) (hk _)⟩
  | @resume t args k hk =>
    obtain ⟨S, hS⟩ := h.threads
    let m : Machine := ⟨heap, ts, cur, st, wt, .ret []⟩
    have hresume : (∃ r, m.resume t args k = { m with prog := k r }) ∨
        Away k m.stack m.waiting (m.resume t args k) := resume_main h.current hS
    refine .inl ⟨_, rfl, ?_⟩
    rcases hresume with ⟨r, heq⟩ | haway
    · rw [heq]
      exact .main (hover _ _) (hk r)
    · rw [show m.stack = F ++ b.mark from h.stack, show m.waiting = b.behind from h.waiting] at haway
      exact .away haway h.passes hk

theorem lasts_ending : Lasts (Ending P R b) fun _ r => Outcome P R r where
  step h hs := by
    cases h with
    | main above prog =>
      rcases above.next prog with ⟨m₁, hm₁, hend⟩ | ⟨m₁, r, hm₁, -⟩
      · rw [hm₁] at hs
        exact Sum.inl.inj hs ▸ hend
      · rw [hm₁] at hs
        contradiction
    | away away passes prog =>
      rcases away.step hs with away' | back
      · exact .away away' passes prog
      · obtain ⟨r, hr⟩ := back.prog
        exact .main ⟨back.current, back.waiting, back.threads, passes, back.stack⟩ (hr ▸ prog r)
  asks h hs := by
    cases h with
    | main above prog =>
      rcases above.next prog with ⟨m₁, hm₁, -⟩ | ⟨m₁, r, hm₁, -⟩
      · rw [hm₁] at hs
        contradiction
      · rw [hm₁] at hs
        cases hs
    | away away passes prog =>
      have haway := away.asks hs
      exact ⟨haway.sound, fun a hk hs' => .away (haway.kept hk hs').answer passes prog⟩
  done h hs := by
    cases h with
    | main above prog =>
      rcases above.next prog with ⟨m₁, hm₁, -⟩ | ⟨m₁, r, hm₁, hr⟩
      · rw [hm₁] at hs
        contradiction
      · obtain ⟨-, hstop⟩ := Prod.mk.inj (Sum.inr.inj (hm₁.symm.trans hs))
        obtain rfl := Stop.done.inj hstop
        exact hr
    | away away _ _ => exact absurd hs away.not_done

/-! ### Calls of library functions -/

/-- A machine on which the host calls a library function. -/
def calling (b : Machine) (f : Builtin) (args : List Value) : Machine :=
  b.enter (.call ⟨none, none⟩ (.builtin f) args .ret)

/-- The host's call of a library function on a machine is not refused for its depth. -/
def Fits (b : Machine) : Prop := (depths b.mark).1 < maxDepth ∧ nestedAt ⟨none, none⟩ b.mark < maxNested

theorem ending_call {f : Builtin} {args : List Value} (h : OverMark b [] m)
    (hfits : Fits b → (f.enter args).Ends P R) (hdeep : ¬ Fits b → R) :
    Ending P R b (m.call ⟨none, none⟩ (.builtin f) args .ret) := by
  have hfail (hR : R) (line : Option Nat) (message : Bytes) : (Prog.fail line message).Ends P R := by
    cases line <;> exact .raise hR
  have hresolve : resolve m.heap 8 (.builtin f) args 0 = some (.builtin f, args, 0) := rfl
  rw [call, hresolve, show m.stack = b.mark from h.stack]
  dsimp only [noted]
  split_ifs with hdepth hnested
  · have hR := hdeep fun hfit => Nat.not_lt.mpr hdepth hfit.1
    exact .main ⟨h.current, h.waiting, h.threads, h.passes, rfl⟩ (hfail hR _ _)
  · have hR := hdeep fun hfit => Nat.not_lt.mpr hnested hfit.2
    exact .main ⟨h.current, h.waiting, h.threads, h.passes, rfl⟩ (hfail hR _ _)
  · have hpasses (a : Activation) (d n : Nat) : Passes [.call a d n .ret] := by simp [Passes]
    refine .main ⟨h.current, h.waiting, h.threads, hpasses _ _ _, rfl⟩ (hfits ?_)
    exact ⟨Nat.not_le.mp hdepth, Nat.not_le.mp hnested⟩

theorem step_calls {f : Builtin} {args : List Value} : (b.calling f args).step =
    .inl ({ b.calling f args with prog := .ret [] }.call ⟨none, none⟩ (.builtin f) args .ret) := by
  rw [calling, enter]
  split_ifs <;> rfl

/-- The host calls a library function that ends, unless its call is refused for its depth. -/
theorem lasts_builtin {f : Builtin} {args : List Value} (hb : b.Sound) (hfits : Fits b → (f.enter args).Ends P R)
    (hdeep : ¬ Fits b → R) :
    Lasts (fun m => m = b.calling f args ∨ Ending P R b m) fun _ r => Outcome P R r := by
  have hover : OverMark b [] (b.calling f args) := overMark_enter hb
  have hcalled : OverMark b [] { b.calling f args with prog := .ret [] } :=
    ⟨hover.current, hover.waiting, hover.threads, hover.passes, hover.stack⟩
  refine ⟨fun hm hs => ?_, fun hm hs => ?_, fun hm hs => ?_⟩
  · rcases hm with rfl | hm
    · rw [step_calls] at hs
      exact .inr (Sum.inl.inj hs ▸ ending_call hcalled hfits hdeep)
    · exact .inr (lasts_ending.step hm hs)
  · rcases hm with rfl | hm
    · rw [step_calls] at hs
      contradiction
    · obtain ⟨hsound, hanswer⟩ := lasts_ending.asks hm hs
      exact ⟨hsound, fun a hk hs' => .inr (hanswer a hk hs')⟩
  · rcases hm with rfl | hm
    · rw [step_calls] at hs
      contradiction
    · exact lasts_ending.done hm hs

end Machine

/-! ### The functions on threads -/

variable {P : List Value → Prop} {R : Prop}

theorem ends_thread {args : Library.Args} {n : Nat} {k : Nat → Prog}
    (hk : ∀ t, args.get? n = some (.thread t) → (k t).Ends P R) (hR : (∀ t, args.get? n ≠ some (.thread t)) → R) :
    (args.thread n k).Ends P R := by
  rw [Library.Args.thread]
  split
  · next t ht => exact hk t ht
  · next v hv =>
    have hR := hR fun t ht => hv t ht
    refine .upd fun h => .look fun v => ?_
    dsimp only
    split
    · exact .raise hR
    · split_ifs <;> exact .raise hR

theorem ends_coResume {args : List Value}
    (hP : ∀ {t rest}, args = .thread t :: rest → ∀ ok values, P (.bool ok :: values)) (hR : R) :
    (Builtin.coResume.enter args).Ends P R := by
  refine ends_thread (fun t ht => ?_) fun _ => hR
  obtain ⟨rest, rfl⟩ : ∃ rest, args = .thread t :: rest := by
    cases args with
    | nil => contradiction
    | cons v rest => exact ⟨rest, by rw [Option.some.inj ht]⟩
  have hend (r : Except Thrown (List Value)) : Prog.Ends P R (match r with
      | .ok vs => .ret (.bool true :: vs)
      | .error e => .ret [.bool false, e.seen]) := by
    cases r <;> exact .ret (hP rfl _ _)
  refine .look fun v => ?_
  dsimp only
  split
  · exact .resume hend
  · exact hend (.error _)
  · exact hend (.error _)
  · exact hend (.error _)

theorem ends_coStatus {t : Nat} (hP : ∀ s, P [.str s]) : (Builtin.coStatus.enter [.thread t]).Ends P R :=
  .look fun _ => .ret (hP _)

end HostedLua.Lua
