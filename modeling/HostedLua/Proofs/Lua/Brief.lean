import HostedLua.Proofs.Evolution.Language
import HostedLua.Proofs.Lua.Resumption
import HostedLua.Proofs.Lua.Table

/-! Calls by the host that are over after a few steps, whatever else is under way: a table is read where no metamethod
has a say in it, and a function is made of another one. They leave every table as it was, and every thread will do what
it would have done. -/

namespace HostedLua.Lua

/-- What a table gives for a value as its key, metamethods apart. -/
def Heap.rawGet (h : Heap) (t : Nat) (key : Value) : Value :=
  match key.key? with
  | .ok k => h.get t k
  | .error _ => .nil

theorem Heap.rawGet_value (h : Heap) (t : Nat) (k : Key) : h.rawGet t k.value = h.get t k := by
  rw [rawGet, k.key?_value]

/-- A memory that has only been added to, and no table was. -/
structure Heap.Grown (h h' : Heap) : Prop where
  tables : h'.tables = h.tables
  globals : h'.globals = h.globals
  strings : h'.strings = h.strings
  cells : ∀ {c : Nat} {v : Value}, h.cells[c]? = some v → h'.cells[c]? = some v
  closures : ∀ {id : Nat} {c : Closure}, h.closures[id]? = some c → h'.closures[id]? = some c

theorem Heap.Grown.refl (h : Heap) : h.Grown h := ⟨rfl, rfl, rfl, id, id⟩

theorem Heap.Grown.trans {h h' h'' : Heap} (hg : h.Grown h') (hg' : h'.Grown h'') : h.Grown h'' :=
  ⟨hg'.tables.trans hg.tables, hg'.globals.trans hg.globals, hg'.strings.trans hg.strings, hg'.cells ∘ hg.cells,
    hg'.closures ∘ hg.closures⟩

def Thrown.IsText (e : Thrown) : Prop := e = .memory ∨ ∃ s, e = .value (.str s)

/-- The function that a thread will run, if that is all it is to do. -/
def Rest.body? : Rest → Option Value
  | .fresh f => some f
  | _ => none

namespace Machine

variable {b m m' : Machine} {t id : Nat} {f key v : Value} {cells : List Nat} {T : Nat → Prop}

/-- A machine that has gone on without a change to what there was: new functions and threads may be there. -/
structure Grown (b m : Machine) : Prop where
  tables : m.heap.tables = b.heap.tables
  closures : ∀ {id : Nat} {c : Closure}, b.heap.closures[id]? = some c → m.heap.closures[id]? = some c
  rests : ∀ {t rest}, HasRest b.threads t rest → HasRest m.threads t rest

theorem Grown.refl (b : Machine) : b.Grown b := ⟨rfl, id, id⟩

theorem Grown.trans (h : b.Grown m) (h' : m.Grown m') : b.Grown m' :=
  ⟨h'.tables.trans h.tables, h'.closures ∘ h.closures, h'.rests ∘ h.rests⟩

theorem unstarted?_eq_some : m.unstarted? t = some f ↔ HasRest m.threads t (.fresh f) := by
  rw [unstarted?, thread, HasRest]
  cases hth : m.threads[t]? with
  | none => simp
  | some th =>
    rw [Option.getD_some]
    cases hrest : th.rest <;> simp [hrest]

theorem Grown.unstarted (h : b.Grown m) (ht : b.unstarted? t = some f) : m.unstarted? t = some f :=
  unstarted?_eq_some.mpr (h.rests (unstarted?_eq_some.mp ht))

theorem Grown.size_le (h : b.Grown m) : b.threads.size ≤ m.threads.size := by
  by_contra hlt
  have hb : m.threads.size < b.threads.size := Nat.lt_of_not_le hlt
  obtain ⟨th, hth, -⟩ := h.rests ⟨_, Array.getElem?_eq_getElem hb, rfl⟩
  rw [Array.getElem?_eq_none (Nat.le_refl _)] at hth
  contradiction

/-- A thread is made. -/
theorem Grown.push (b : Machine) (th : Thread) : b.Grown { b with threads := b.threads.push th } := by
  refine ⟨rfl, id, fun h => ?_⟩
  obtain ⟨th', hth', hrest⟩ := h
  exact ⟨th', getElem?_push_some hth' th, hrest⟩

/-! ### The host's call -/

theorem unstarted?_of_rest {t : Nat} (h : m'.threads[t]?.map Thread.rest = m.threads[t]?.map Thread.rest) :
    m'.unstarted? t = m.unstarted? t := by
  have hrest (b : Machine) : b.unstarted? t = (b.threads[t]?.map Thread.rest).bind Rest.body? := by
    rw [unstarted?, thread]
    cases b.threads[t]? with
    | none => rfl
    | some th =>
      rw [Option.getD_some, Option.map_some, Option.bind_some]
      cases th.rest <;> rfl
  rw [hrest, hrest, h]

/-- What a thread is to do does not change where threads get other stacks. -/
theorem rest_restack (ts : Array Thread) (u t : Nat) (stack : List Frame) :
    (ts.modify u ({ · with stack }))[t]?.map Thread.rest = ts[t]?.map Thread.rest := by
  rw [Array.getElem?_modify]
  split_ifs
  · cases ts[t]? <;> rfl
  · rfl

theorem unstarted?_enter (b : Machine) (p : Prog) (t : Nat) : (b.enter p).unstarted? t = b.unstarted? t := by
  refine unstarted?_of_rest ?_
  rw [enter]
  split_ifs
  · rfl
  · exact (rest_restack ..).trans (rest_restack ..)

theorem unstarted?_leave (m : Machine) (c : Nat) (B : List Frame) (t : Nat) :
    (m.leave c B).unstarted? t = m.unstarted? t := by
  refine unstarted?_of_rest ?_
  rw [leave]
  split_ifs
  · rfl
  · exact (rest_restack ..).trans (rest_restack ..)

theorem stack_enter (b : Machine) (p : Prog) : (b.enter p).stack = b.mark := by
  rw [enter, mark, mainStack]
  split_ifs with h
  · rw [h]
  · rfl

theorem heap_enter (b : Machine) (p : Prog) : (b.enter p).heap = b.heap := by
  rw [enter]
  split_ifs <;> rfl

theorem prog_enter (b : Machine) (p : Prog) : (b.enter p).prog = p := by
  rw [enter]
  split_ifs <;> rfl

theorem heap_leave (m : Machine) (c : Nat) (B : List Frame) : (m.leave c B).heap = m.heap := by
  rw [leave]
  split_ifs <;> rfl

/-- A call by the host is about to end that has run on the main thread alone: memory has only been added to, and some
threads are as they were when it began. -/
structure Alone (T : Nat → Prop) (b : Machine) (p : Prog) (m : Machine) : Prop where
  heap : b.heap.Grown m.heap
  current : m.current = (b.enter p).current
  waiting : m.waiting = (b.enter p).waiting
  threads : ∀ t, T t → m.threads[t]? = (b.enter p).threads[t]?

/-- A call that has left all threads alone leaves all there was. -/
theorem Alone.grown {p : Prog} (h : Alone (fun _ => True) b p m) : b.Grown (m.leave b.current b.mainStack) := by
  refine ⟨heap_leave m _ _ ▸ h.heap.tables, fun hid => heap_leave m _ _ ▸ h.heap.closures hid, fun hrest => ?_⟩
  obtain ⟨th, hth, hrest⟩ := hrest.enter (p := p)
  exact HasRest.leave ⟨th, (h.threads _ trivial).trans hth, hrest⟩

theorem step_upd {g : Heap → Heap × Prog} (hprog : m.prog = .upd g) :
    m.step = .inl { m with heap := (g m.heap).1, prog := (g m.heap).2 } := by
  obtain ⟨heap, threads, current, stack, waiting, prog⟩ := m
  obtain rfl := hprog
  rfl

/-! ### Reading a table -/

/-- A table is read where no metamethod stands in for what is not there. -/
theorem run_index (hv : b.heap.rawGet t key = v)
    (hmeta : v = .nil → b.heap.metamethod (.table t) "__index" = .nil) (n : Nat) :
    ∃ m, (b.enter (Operate.index none ⟨.table t, none⟩ key fun v => .ret [v])).run (n + 2) =
      some (m, .done (.ok [v])) ∧ b.Grown m ∧ ∀ u, m.unstarted? u = b.unstarted? u := by
  obtain ⟨r, hr, hret⟩ : ∃ r : Heap → Prog, Operate.index none ⟨.table t, none⟩ key (fun v => .ret [v]) =
      .upd (fun h => (h, r h)) ∧ r b.heap = .ret [v] := by
    refine ⟨_, Operate.index.go.eq_2 _ _ _ _ _, ?_⟩
    rw [Heap.rawGet] at hv
    dsimp only
    cases hk : key.key? with
    | ok k =>
      rw [hk] at hv
      dsimp only at hv ⊢
      rw [hv]
      cases v with
      | nil => rw [hmeta rfl]
      | _ => rfl
    | error e =>
      rw [hk] at hv
      obtain rfl := hv
      dsimp only
      rw [hmeta rfl]
  rw [hr]
  let m : Machine := { b.enter (.upd fun h => (h, r h)) with prog := .ret [v] }
  have hstep : (b.enter (.upd fun h => (h, r h))).step = .inl m := by
    rw [step_upd (prog_enter _ _), heap_enter, hret]
    simp only [m]
    rw [← heap_enter b (.upd fun h => (h, r h))]
  have hstack : m.stack = b.mark := stack_enter _ _
  rw [run_inl hstep, run, step_leaves rfl hstack]
  have hheap : m.heap = b.heap := heap_enter _ _
  have halone : Alone (fun _ => True) b (.upd fun h => (h, r h)) m := ⟨hheap ▸ .refl _, rfl, rfl, fun _ _ => rfl⟩
  refine ⟨_, rfl, halone.grown, fun u => ?_⟩
  exact (unstarted?_leave m _ _ u).trans (unstarted?_enter b _ u)

/-! ### Making a function of another one -/

def around : Func := .mk 1 0 .kept [.retCall (.call 1 (.var .outer 0 (.ofString "f")) [.varargs])]

theorem enter_wrapping (cells : List Nat) (f : Value) : Closure.enter ⟨Bridge.wrapping, cells⟩ [f] =
    .upd fun h => ((h.newCell f).1, .upd fun g =>
      ((g.newClosure ⟨around, h.cells.size :: cells⟩).1, .ret [.closure g.closures.size])) := by
  simp only [Bridge.wrapping, Closure.enter, Env.bind, adjust, execBlock, Stat.exec, evalList, Expr.isOpen, Expr.eval,
    Bool.and_false, Bool.false_eq_true, if_false, Heap.newCells, Heap.newCell, Heap.newClosure, afterStat, around]

/-- A call from outside of Lua code enters a function, or is refused. -/
theorem step_call {args : List Value} {k : List Value → Prog} (hresolve : ∀ h, resolve h 8 f args 0 = some (f, args, 0))
    (hprog : m.prog = .call ⟨none, none⟩ f args k) :
    (∃ line message, m.step = .inl { m with prog := .fail line message }) ∨ ∃ a d l,
      m.step = .inl { m with stack := .call a d l k :: m.stack, prog := body m.heap f args } := by
  obtain ⟨heap, threads, current, stack, waiting, prog⟩ := m
  obtain rfl := hprog
  rw [step, call]
  dsimp only [noted]
  rw [hresolve]
  dsimp only
  split_ifs
  · exact .inl ⟨_, _, rfl⟩
  · exact .inl ⟨_, _, rfl⟩
  · exact .inr ⟨_, _, _, rfl⟩

/-- A text that is thrown stays one, or tells of memory. -/
theorem step_raise_text {x : Bytes} (hprog : m.prog = .raise (.str x)) :
    ∃ e : Thrown, e.IsText ∧ m.step = .inl { m with prog := .unwind e } := by
  obtain ⟨heap, threads, current, stack, waiting, prog⟩ := m
  obtain rfl := hprog
  refine ⟨_, ?_, rfl⟩
  split_ifs
  · unfold traced
    dsimp only [Value.toBytes?]
    split_ifs
    · exact .inl rfl
    · exact .inr ⟨_, rfl⟩
  · exact .inr ⟨x, rfl⟩

/-- A call that is refused is over. -/
theorem run_refused {p : Prog} {line : Option Nat} {message : Bytes}
    (hstep : (b.enter p).step = .inl { b.enter p with prog := .fail line message }) (n : Nat) :
    ∃ m e, (b.enter p).run (n + 3) = some (m.leave b.current b.mainStack, .done (.error e)) ∧
      Alone (fun _ => True) b p m ∧ e.IsText := by
  obtain ⟨x, hfail⟩ : ∃ x, Prog.fail line message = .raise (.str x) := by
    cases line <;> exact ⟨_, rfl⟩
  rw [hfail] at hstep
  let m : Machine := { b.enter p with prog := .raise (.str x) }
  obtain ⟨e, he, hraise⟩ : ∃ e : Thrown, e.IsText ∧ m.step = .inl { m with prog := .unwind e } := step_raise_text rfl
  have hstack : m.stack = b.mark := stack_enter _ _
  have hheap : m.heap = b.heap := heap_enter _ _
  let thrown : Machine := { m with prog := .unwind e }
  refine ⟨thrown, e, ?_, ⟨?_, rfl, rfl, fun _ _ => rfl⟩, he⟩
  · rw [run_inl hstep, run_inl hraise, run, step_thrown (m := thrown) rfl hstack]
  · exact hheap.symm ▸ .refl _

/-- The body of the wrapping function adds a variable and a function. -/
theorem run_wrapping_body {a : Activation} {d l c : Nat} {B : List Frame}
    (hid : m.heap.closures[id]? = some ⟨Bridge.wrapping, cells⟩) (hprog : m.prog = body m.heap (.closure id) [f])
    (hstack : m.stack = .call a d l .ret :: .entry c :: B) (n : Nat) : ∃ (m' : Machine) (g : Nat), m.run (n + 4) =
      some (m'.leave c B, .done (.ok [.closure g])) ∧ m.heap.Grown m'.heap ∧ m'.current = m.current ∧
        m'.waiting = m.waiting ∧ m'.threads = m.threads := by
  rw [body, hid] at hprog
  dsimp only at hprog
  rw [enter_wrapping] at hprog
  obtain ⟨heap, threads, current, stack, waiting, prog⟩ := m
  obtain rfl : prog = _ := hprog
  obtain rfl : stack = _ := hstack
  exact ⟨_, _, rfl, ⟨rfl, rfl, rfl, fun h => getElem?_push_some h _, fun h => getElem?_push_some h _⟩, rfl, rfl, rfl⟩

/-- The wrapping function makes a function of any value, unless calls nest too deep. -/
theorem run_wrapping (hid : b.heap.closures[id]? = some ⟨Bridge.wrapping, cells⟩) (f : Value) (n : Nat) :
    ∃ m r, (b.enter (.call ⟨none, none⟩ (.closure id) [f] .ret)).run (n + 5) =
        some (m.leave b.current b.mainStack, .done r) ∧
      Alone (fun _ => True) b (.call ⟨none, none⟩ (.closure id) [f] .ret) m ∧
      ((∃ c, r = .ok [.closure c]) ∨ ∃ e : Thrown, r = .error e ∧ e.IsText) := by
  let p : Prog := .call ⟨none, none⟩ (.closure id) [f] .ret
  have hheap : (b.enter p).heap = b.heap := heap_enter b p
  rcases step_call (fun _ => rfl) (prog_enter b p) with ⟨line, message, hstep⟩ | ⟨a, d, l, hstep⟩
  · obtain ⟨m, e, hrun, halone, he⟩ := run_refused hstep (n + 2)
    exact ⟨m, _, hrun, halone, .inr ⟨e, rfl, he⟩⟩
  · let m : Machine :=
      { b.enter p with stack := .call a d l .ret :: (b.enter p).stack, prog := body (b.enter p).heap (.closure id) [f] }
    have hstack : m.stack = .call a d l .ret :: b.mark := congrArg _ (stack_enter b p)
    have hclosure : m.heap.closures[id]? = some ⟨Bridge.wrapping, cells⟩ := by
      show (b.enter p).heap.closures[id]? = _
      rw [hheap, hid]
    obtain ⟨m', g, hrun, hgrown, hcurrent, hwaiting, hthreads⟩ := run_wrapping_body hclosure rfl hstack n
    refine ⟨m', _, (run_inl hstep _).trans hrun, ⟨?_, hcurrent, hwaiting, fun t _ => ?_⟩, .inl ⟨g, rfl⟩⟩
    · exact hheap ▸ hgrown
    · rw [hthreads]

/-! ### Naming a value -/

/-- A value that can have no metatable has a name, whatever is in memory. -/
theorem enter_tostring (hmeta : ∀ h : Heap, h.metatable? v = none) (hhost : ∀ id, v ≠ .host id) :
    ∃ name : Heap → Bytes, Builtin.tostring.enter [v] = .upd fun h => (h, .ret [.str (name h)]) := by
  have hnil (h : Heap) : h.metamethod v "__tostring" = .nil := by rw [Heap.metamethod, hmeta]
  cases v with
  | host id => exact absurd rfl (hhost id)
  | _ => exact ⟨_, congrArg Prog.upd (funext fun h => by dsimp only; rw [hnil])⟩

/-- The host gets the name of such a value, unless calls nest too deep. -/
theorem run_tostring (hmeta : ∀ h : Heap, h.metatable? v = none) (hhost : ∀ id, v ≠ .host id) (n : Nat) :
    ∃ m r, (b.enter (.call ⟨none, none⟩ (.builtin .tostring) [v] .ret)).run (n + 4) =
        some (m.leave b.current b.mainStack, .done r) ∧
      Alone (fun _ => True) b (.call ⟨none, none⟩ (.builtin .tostring) [v] .ret) m ∧
      ((∃ x, r = .ok [.str x]) ∨ ∃ e : Thrown, r = .error e ∧ e.IsText) := by
  let p : Prog := .call ⟨none, none⟩ (.builtin .tostring) [v] .ret
  obtain ⟨name, hname⟩ := enter_tostring hmeta hhost
  rcases step_call (fun _ => rfl) (prog_enter b p) with ⟨line, message, hstep⟩ | ⟨a, d, l, hstep⟩
  · obtain ⟨m, e, hrun, halone, he⟩ := run_refused hstep (n + 1)
    exact ⟨m, _, hrun, halone, .inr ⟨e, rfl, he⟩⟩
  · let called : Machine :=
      { b.enter p with stack := .call a d l .ret :: (b.enter p).stack, prog := Builtin.tostring.enter [v] }
    let named : Machine := { called with prog := .ret [.str (name (b.enter p).heap)] }
    let ended : Machine := { named with stack := b.mark }
    have hname' : called.step = .inl named := by rw [step_upd hname]
    have hstack : named.stack = .call a d l .ret :: b.mark := congrArg _ (stack_enter b p)
    have hheap : (b.enter p).heap = b.heap := heap_enter b p
    refine ⟨ended, .ok [.str (name (b.enter p).heap)], ?_, ⟨hheap.symm ▸ .refl _, rfl, rfl, fun _ _ => rfl⟩,
      .inl ⟨_, rfl⟩⟩
    rw [run_inl hstep]
    show called.run (n + 3) = _
    rw [run_inl hname', run_inl (step_returns rfl hstack), run, step_leaves (m := ended) rfl rfl]

end Machine

end HostedLua.Lua
