import HostedLua.Proofs.Lua.Resumption

/-! Throwing a host object. What Lua code throws leaves the host's call as it is if no protected call takes it and no
value is to be closed on its way, on the main thread; a thread that was resumed fails with it, and `coroutine.resume`
reports it. -/

namespace HostedLua.Lua.Machine

variable {m : Machine} {stack B : List Frame} {W : List Nat} {k : Except Thrown (List Value) → Prog} {t o : Nat}
  {e : Thrown}

/-- Code throws a value, or goes on throwing it. -/
def Throws (v : Value) (m : Machine) : Prop := m.prog = .raise v ∨ m.prog = .unwind (.value v)

/-- What is thrown over a stack comes to the mark of a call by the host: no protected call takes it before, and there is
no value to be closed. -/
def isClear : List Frame → Bool
  | .entry _ :: _ => true
  | .call .. :: stack | .resumed _ :: stack | .asked _ :: stack => isClear stack
  | _ => false

/-- A host object is thrown as it is, with no trace. -/
theorem step_raise_host (hprog : m.prog = .raise (.host o)) :
    m.step = .inl { m with prog := .unwind (.value (.host o)) } := by
  obtain ⟨heap, threads, current, stack, waiting, prog⟩ := m
  obtain rfl := hprog
  simp only [step]
  split_ifs <;> rfl

theorem step_unwind (hprog : m.prog = .unwind e) : m.step = m.unwind e := by
  obtain ⟨heap, threads, current, stack, waiting, prog⟩ := m
  obtain rfl := hprog
  rfl

theorem isCaught_of_isClear (h : isClear stack = true) : isCaught stack = true := by
  induction stack with
  | nil => cases h
  | cons f stack ih =>
    cases f with
    | entry => rfl
    | guard | held => cases h
    | _ => exact ih h

/-- What is thrown over a clear stack ends the host's call. -/
theorem run_unwind (hprog : m.prog = .unwind e) (hclear : isClear m.stack = true) :
    ∃ n m', m.run n = some (m', .done (.error e)) := by
  generalize hstack : m.stack = stack at hclear
  induction stack generalizing m with
  | nil => cases hclear
  | cons f stack ih =>
    have hcaught : isCaught m.stack = true := hstack ▸ isCaught_of_isClear hclear
    have hunwind := step_unwind hprog
    rw [unwind, hcaught, hstack] at hunwind
    have hpasses (h : m.step = .inl { m with stack }) (hrest : isClear stack = true) :
        ∃ n m', m.run n = some (m', .done (.error e)) := by
      obtain ⟨n, m', hrun⟩ := ih (m := { m with stack }) hprog rfl hrest
      exact ⟨n + 1, m', (run_inl h n).trans hrun⟩
    cases f with
    | entry c => exact ⟨1, m.leave c stack, by rw [run, hunwind]; rfl⟩
    | guard | held => cases hclear
    | call | resumed | asked => exact hpasses hunwind hclear

/-- A host object that is thrown over a clear stack ends the host's call. -/
theorem Throws.run (h : Throws (.host o) m) (hclear : isClear m.stack = true) :
    ∃ n m', m.run n = some (m', .done (.error (.value (.host o)))) := by
  rcases h with hraise | hunwind
  · obtain ⟨n, m', hrun⟩ := run_unwind (m := { m with prog := .unwind (.value (.host o)) }) rfl hclear
    exact ⟨n + 1, m', (run_inl (step_raise_host hraise) n).trans hrun⟩
  · exact run_unwind hunwind hclear

/-! ### Threads -/

/-- A thread that throws what nothing takes is over with it, and the main thread has got it. -/
theorem Turn.unwind (h : Turn t k B W m) (hcur : m.current = t) (hprog : m.prog = .unwind e)
    (huncaught : isCaught m.stack = false) :
    ∃ m', m.step = .inl m' ∧ ∃ th, Over t th (.error e) k B W m' := by
  have hstep : m.step = .inl (m.finishThread (heldOnly m.stack) (some e) (.error e)) := by
    rw [step_unwind hprog, Machine.unwind, huncaught]
    rfl
  refine ⟨_, hstep, ?_⟩
  rcases h.step hstep with hturn | ⟨-, th, r, halts, hover⟩
  · -- the thread would wait, but it is dead
    let dead : Thread := { rest := .dead, stack := heldOnly m.stack, failure := some e }
    obtain ⟨th, hth, -⟩ := h.waits
    have hdead : HasRest (m.threads.modify m.current fun _ => dead) t .dead := by
      refine ⟨dead, ?_, rfl⟩
      rw [Array.getElem?_modify, if_pos hcur, hth]
      rfl
    let left : Machine := { m with threads := m.threads.modify m.current fun _ => dead }
    have hstands : Stands left.threads (left.switchBack (.error e)).threads := stands_switchBack
    cases hturn.waits.unique (hdead.of_stands (.inr rfl) hstands)
  · have hr : r = .error e := by
      cases halts with
      | yields prog => cases hprog.symm.trans prog
      | returns prog => cases hprog.symm.trans prog
      | fails prog =>
        obtain rfl := Prog.unwind.inj (hprog.symm.trans prog)
        rfl
    exact ⟨th, hr ▸ hover⟩

/-- A step by which a host object that is thrown goes on being thrown leaves a thread its turn. -/
theorem Turn.raise (h : Turn t k B W m) : Turn t k B W { m with prog := .unwind e } :=
  ⟨h.ne_main, ⟨h.away.current, h.away.waiting, h.away.threads, h.away.stack⟩, h.chain, h.waits⟩

end HostedLua.Lua.Machine
