import HostedLua.Proofs.Coroutine.Handle
import HostedLua.Proofs.Coroutine.Outcome

/-! The life of a coroutine. From when it is made its handle is resumed and closed, and in between other things
happen that leave it alone. The statuses that resumptions note form a run of yields, one end if the body comes to one,
and refusals from then on; once the thread is dead it stays so. -/

namespace HostedLua

open Host

/-- The outcome that a message tells of is a failure. -/
theorem ErrorStatus.ofStatus_ofMessage (message : Text) :
    CoroutineStatus.ofStatus (.ofMessage message) ≠ .yield ∧ CoroutineStatus.ofStatus (.ofMessage message) ≠ .ok := by
  rw [ErrorStatus.ofMessage]
  split_ifs <;> decide

namespace Bridge

open World Lua.Machine

variable {E : Engine} {n id state t : Nat} {h : Handle} {w w' w₀ w₁ v : World} {args guests : List Value}
  {us : List Lua.Value} {r : Except Fault Value} {status : CoroutineStatus} {ss : List CoroutineStatus}
  {last : Option Fault}

/-- What becomes of the coroutine of a handle from some world on, with the statuses noted by resumptions whose arguments
cross, and the fault of the last refusal of an argument that was pushed, if none has crossed since. The coroutine is
resumed and closed through its handle alone, other things that happen in between leave it alone, and its state stays
open. -/
inductive Life (E : Engine) (id state t : Nat) (w₀ : World) : List CoroutineStatus → Option Fault → World → Prop where
  | start : Life E id state t w₀ [] none w₀
  | resumed {w v w' : World} {ss : List CoroutineStatus} {last : Option Fault} {h : Handle} {args guests : List Value}
    {us : List Lua.Value} {r : Except Fault Value} {status : CoroutineStatus} (life : Life E id state t w₀ ss last w)
    (found : w.objects[id]? = some (.handle h)) (crosses : Crosses id h args guests us w v)
    (run : resume E id h args w = some (r, w')) (opened : isOpen state w' = some (.ok true, w'))
    (alone : ∀ u, Noted E id h guests v u → u.Leaves w' id state t) (noted : w'.Notes id status) :
    Life E id state t w₀ (ss ++ [status]) none w'
  | refused {w v w' : World} {ss : List CoroutineStatus} {last : Option Fault} {h : Handle} {args guests : List Value}
    {f : Fault} {r : Except Fault Value} (life : Life E id state t w₀ ss last w)
    (found : w.objects[id]? = some (.handle h)) (refused : Refused id h args guests f w v)
    (run : resume E id h args w = some (r, w')) (opened : isOpen state w' = some (.ok true, w')) :
    Life E id state t w₀ ss (some f) w'
  | closed {w w' : World} {ss : List CoroutineStatus} {last : Option Fault} {r : Except Fault Unit}
    (life : Life E id state t w₀ ss last w) (run : closeCoroutine E id w = some (r, w'))
    (opened : isOpen state w' = some (.ok true, w')) : Life E id state t w₀ ss last w'
  | apart {w w' : World} {ss : List CoroutineStatus} {last : Option Fault} (life : Life E id state t w₀ ss last w)
    (sound : w'.Sound) (kept : w.Kept w') (alone : w.Leaves w' id state t)
    (opened : isOpen state w' = some (.ok true, w')) : Life E id state t w₀ ss last w'

/-- Yields, then at most one status of another kind, then refusals. -/
def Course (ss : List CoroutineStatus) : Prop :=
  ∃ a x c, ss = List.replicate a .yield ++ Option.toList x ++ List.replicate c .runtime ∧ ∀ y ∈ x, y ≠ .yield

/-- Yields alone. -/
theorem Course.yields (hss : ∀ x ∈ ss, x = .yield) : Course ss := by
  refine ⟨ss.length, none, 0, ?_, by simp⟩
  rw [← List.eq_replicate_of_mem hss]
  simp

/-- One status more after yields alone. -/
theorem Course.append (hss : ∀ x ∈ ss, x = .yield) (status : CoroutineStatus) : Course (ss ++ [status]) := by
  by_cases hs : status = .yield
  · exact .yields (by simpa [or_imp, forall_and, hs] using hss)
  · refine ⟨ss.length, some status, 0, ?_, by simpa using hs⟩
    rw [← List.eq_replicate_of_mem hss]
    simp

/-- One refusal more. -/
theorem Course.refusal (h : Course ss) : Course (ss ++ [.runtime]) := by
  obtain ⟨a, x, c, rfl, hx⟩ := h
  exact ⟨a, x, c + 1, by rw [List.replicate_succ', List.append_assoc], hx⟩

/-- The status on the handle of a suspended thread: that of a yield, or of the last refusal of an argument. -/
def standing (last : Option Fault) : CoroutineStatus := last.elim .yield fun f => .ofStatus f.status

/-- How a coroutine stands after a part of its life: the thread is suspended, having done nothing but yield, or it is
dead and the statuses have run their course. -/
inductive Stands (id state t : Nat) (ss : List CoroutineStatus) (last : Option Fault) (w : World) : Prop where
  | ready (ready : w.Ready id state t) (notes : w.Notes id (standing last)) (yields : ∀ x ∈ ss, x = .yield) :
    Stands id state t ss last w
  | spent (spent : w.Spent id state t) (course : Course ss) : Stands id state t ss last w

/-! ### Steps of a life -/

theorem Stands.hosts (h : Stands id state t ss last w) : w.Hosts id state t := by
  cases h with
  | ready ready => exact ready.hosts
  | spent spent => exact spent.hosts

/-- Things that leave a coroutine alone leave it as it stands. -/
theorem Stands.leaves (h : Stands id state t ss last w) (hw' : w'.Sound) (hk : w.Kept w')
    (hopen : isOpen state w' = some (.ok true, w')) (hl : w.Leaves w' id state t) : Stands id state t ss last w' := by
  cases h with
  | ready ready notes yields => exact .ready (Ready.leaves ready hw' hk hopen hl) (hl.notes notes) yields
  | spent spent course => exact .spent (spent.kept hw' hk hopen) course

/-- A thread that has stopped is suspended again, and the handle says so, if it has suspended itself; else it is
dead. -/
theorem Stops.next {m : Lua.Machine} (hstops : Stops E id h t m w₁ r w') (hosts : w'.Hosts id h.state t) :
    (∃ vs k, m.prog = .yield vs k) ∧ w'.Ready id h.state t ∧ w'.Notes id .yield ∨
      (∀ vs k, m.prog ≠ .yield vs k) ∧ w'.Spent id h.state t := by
  cases hstops with
  | yields prog _ _ _ _ noted left =>
    exact .inl ⟨⟨_, _, prog⟩, ⟨hosts, _, left, by simp [Lua.Rest.Settled]⟩, noted⟩
  | returns prog _ _ _ _ _ _ left => exact .inr ⟨by simp [prog], hosts, left⟩
  | fails prog _ _ _ _ _ _ left => exact .inr ⟨by simp [prog], hosts, left⟩
  | textless prog _ _ _ _ left => exact .inr ⟨by simp [prog], hosts, left⟩

/-- A suspended thread is resumed with arguments that cross, while its state stays open and nothing else resumes or
closes it. -/
theorem Ready.resumed (hready : w.Ready id state t) (found : w.objects[id]? = some (.handle h))
    (crosses : Crosses id h args guests us w v) (run : resume (engine (n + 1)) id h args w = some (r, w'))
    (opened : isOpen state w' = some (.ok true, w'))
    (alone : ∀ u, Noted (engine (n + 1)) id h guests v u → u.Leaves w' id state t) :
    ∃ s u m m', v.states[state]? = some s ∧
      Reaches (engine n) state (v, s.machine.calling .coResume (.thread t :: us)) (u, m) ∧ m.current = t ∧
      Stops (engine (n + 1)) id h t m (u.withMachine state m') r w' ∧
      ((∃ vs k, m.prog = .yield vs k) ∧ w'.Ready id state t ∧ w'.Notes id .yield ∨
        (∀ vs k, m.prog ≠ .yield vs k) ∧ w'.Spent id state t) := by
  obtain ⟨h', hid', rfl, -⟩ := hready.hosts.handle
  obtain rfl := Object.handle.inj (Option.some.inj (found.symm.trans hid'))
  obtain ⟨hw', hk⟩ := keeps_resume (engine_keeps (n + 1)) id h args hready.hosts.sound run
  obtain ⟨s, u, m, m', hs, hreaches, hcur, hstops⟩ := resume_ready hready found crosses run opened alone
  exact ⟨s, u, m, m', hs, hreaches, hcur, hstops, hstops.next (hready.hosts.kept hw' hk opened)⟩

/-- A dead thread is refused with arguments that cross. -/
theorem Spent.resumed (hspent : w.Spent id state t) (found : w.objects[id]? = some (.handle h))
    (crosses : Crosses id h args guests us w v) (run : resume (engine (n + 1)) id h args w = some (r, w'))
    (noted : w'.Notes id status) : status = .runtime := by
  obtain ⟨o, w₁, s, hrun, -, hnotes, -⟩ := resume_spent n hspent found crosses
  obtain ⟨-, rfl⟩ := Prod.mk.inj (Option.some.inj (hrun.symm.trans run))
  exact noted.unique hnotes

/-- A resumption with arguments that cross is one more status. -/
theorem Stands.resumed (hstands : Stands id state t ss last w) (found : w.objects[id]? = some (.handle h))
    (crosses : Crosses id h args guests us w v) (run : resume (engine (n + 1)) id h args w = some (r, w'))
    (opened : isOpen state w' = some (.ok true, w'))
    (alone : ∀ u, Noted (engine (n + 1)) id h guests v u → u.Leaves w' id state t) (noted : w'.Notes id status) :
    Stands id state t (ss ++ [status]) none w' := by
  obtain ⟨hw', hk⟩ := keeps_resume (engine_keeps (n + 1)) id h args hstands.hosts.sound run
  cases hstands with
  | ready ready notes yields =>
    obtain ⟨s, u, m, m', -, -, -, -, ⟨-, hready, hnotes⟩ | ⟨-, hspent⟩⟩ :=
      Ready.resumed ready found crosses run opened alone
    · refine .ready hready hnotes ?_
      simpa [or_imp, forall_and, noted.unique hnotes] using yields
    · exact .spent hspent (.append yields status)
  | spent spent course =>
    obtain rfl := Spent.resumed spent found crosses run noted
    exact .spent (spent.kept hw' hk opened) course.refusal

/-- A refusal of an argument that is pushed leaves the thread alone and is noted. -/
theorem Stands.refused {f : Fault} (hstands : Stands id state t ss last w) (found : w.objects[id]? = some (.handle h))
    (refused : Refused id h args guests f w v) (run : resume (engine (n + 1)) id h args w = some (r, w'))
    (opened : isOpen state w' = some (.ok true, w')) : Stands id state t ss (some f) w' := by
  obtain ⟨hw', hk⟩ := keeps_resume (engine_keeps (n + 1)) id h args hstands.hosts.sound run
  cases hstands with
  | ready ready notes yields =>
    obtain ⟨h', hid', rfl, ht⟩ := ready.hosts.handle
    obtain rfl := Object.handle.inj (Option.some.inj (found.symm.trans hid'))
    obtain ⟨o, w₁, hrun, -, hnotes, hstates⟩ := resume_unpushed (engine (n + 1)) ready.hosts.sound found ht refused
    obtain ⟨-, rfl⟩ := Prod.mk.inj (Option.some.inj (hrun.symm.trans run))
    obtain ⟨-, rest, hrests, hsettled⟩ := Ready.converted ready refused.converted
    exact .ready ⟨ready.hosts.kept hw' hk opened, rest, hrests.of_states hstates, hsettled⟩ hnotes yields
  | spent spent course => exact .spent (spent.kept hw' hk opened) course

/-- Closing leaves a suspended thread dead or alone. -/
theorem Stands.closed {r : Except Fault Unit} (hstands : Stands id state t ss last w)
    (run : closeCoroutine (engine (n + 1)) id w = some (r, w')) (opened : isOpen state w' = some (.ok true, w')) :
    Stands id state t ss last w' := by
  obtain ⟨hw', hk⟩ := keeps_closeCoroutine (engine_keeps (n + 1)) id hstands.hosts.sound run
  cases hstands with
  | ready ready notes yields =>
    obtain ⟨h, hid, -, -⟩ := ready.hosts.handle
    obtain ⟨s, hs, -, -⟩ := ready.hosts.found
    rcases closeCoroutine_ready ready hid hs run opened with ⟨-, hspent⟩ | ⟨-, hl⟩
    · exact .spent hspent (.yields yields)
    · exact .ready (Ready.leaves ready hw' hk opened hl) (hl.notes notes) yields
  | spent spent course => exact .spent (spent.kept hw' hk opened) course

/-! ### A whole life -/

theorem Life.stands (life : Life (engine (n + 1)) id state t w₀ ss last w) (hready : w₀.Ready id state t)
    (hnotes : w₀.Notes id .yield) : Stands id state t ss last w := by
  induction life with
  | start => exact .ready hready hnotes (by simp)
  | resumed life found crosses run opened alone noted ih => exact ih.resumed found crosses run opened alone noted
  | refused life found refused run opened ih => exact ih.refused found refused run opened
  | closed life run opened ih => exact ih.closed run opened
  | apart life sound kept alone opened ih => exact ih.leaves sound kept opened alone

/-- A dead thread stays dead, and refuses arguments that cross. -/
theorem Life.spent (life : Life (engine (n + 1)) id state t w₀ ss last w) (hspent : w₀.Spent id state t) :
    w.Spent id state t ∧ ∀ x ∈ ss, x = .runtime := by
  induction life with
  | start => exact ⟨hspent, by simp⟩
  | resumed life found crosses run opened alone noted ih =>
    obtain ⟨hspent, hss⟩ := ih
    obtain ⟨hw', hk⟩ := keeps_resume (engine_keeps (n + 1)) id _ _ hspent.hosts.sound run
    obtain rfl := Spent.resumed hspent found crosses run noted
    exact ⟨hspent.kept hw' hk opened, by simpa [or_imp, forall_and] using hss⟩
  | refused life found refused run opened ih =>
    obtain ⟨hw', hk⟩ := keeps_resume (engine_keeps (n + 1)) id _ _ ih.1.hosts.sound run
    exact ⟨ih.1.kept hw' hk opened, ih.2⟩
  | closed life run opened ih =>
    obtain ⟨hw', hk⟩ := keeps_closeCoroutine (engine_keeps (n + 1)) id ih.1.hosts.sound run
    exact ⟨ih.1.kept hw' hk opened, ih.2⟩
  | apart life sound kept alone opened ih => exact ⟨ih.1.kept sound kept opened, ih.2⟩

/-! ### What comes next -/

/-- However a handle is resumed next with arguments that cross, if its state stays open and nothing else resumes or
closes its thread, the body runs until it stops, and that is what the handle notes and gives. The thread is suspended
again if it has suspended itself, and dead else. Where the handle gives anything, the status tells how the body has
stopped. -/
def StopsNext (n id state t : Nat) (w : World) : Prop :=
  ∀ {h : Handle} {args guests : List Value} {us : List Lua.Value} {v w' : World} {r : Except Fault Value},
    w.objects[id]? = some (.handle h) → Crosses id h args guests us w v →
    resume (engine (n + 1)) id h args w = some (r, w') → isOpen state w' = some (.ok true, w') →
    (∀ u, Noted (engine (n + 1)) id h guests v u → u.Leaves w' id state t) →
    ∃ s u m m', v.states[state]? = some s ∧
      Reaches (engine n) state (v, s.machine.calling .coResume (.thread t :: us)) (u, m) ∧ m.current = t ∧
      Stops (engine (n + 1)) id h t m (u.withMachine state m') r w' ∧
      ((∃ vs k, m.prog = .yield vs k) ∧ w'.Ready id state t ∨
        (∀ vs k, m.prog ≠ .yield vs k) ∧ w'.Spent id state t) ∧
      ∀ status x, w'.Notes id status → r = .ok x →
        (status = .yield ↔ ∃ vs k, m.prog = .yield vs k) ∧ (status = .ok ↔ ∃ vs, m.prog = .ret vs)

/-- Closing a handle leaves its thread dead if the handle can be closed, and alone else. -/
def ClosesNext (n id state t : Nat) (w : World) : Prop :=
  ∀ {h : Handle} {s : LuaState} {w' : World} {r : Except Fault Unit},
    w.objects[id]? = some (.handle h) → w.states[state]? = some s →
    closeCoroutine (engine (n + 1)) id w = some (r, w') → isOpen state w' = some (.ok true, w') →
    Closable w h s ∧ w'.Spent id state t ∨ ¬ Closable w h s ∧ w.Leaves w' id state t

/-- However a handle is resumed next with arguments that cross, it gives an error value that says that its thread is
dead, and notes it, and nothing runs on the machine. -/
def RefusesNext (n id state : Nat) (w : World) : Prop :=
  ∀ {h : Handle} {args guests : List Value} {us : List Lua.Value} {v : World},
    w.objects[id]? = some (.handle h) → Crosses id h args guests us w v →
    ∃ o w' s, resume (engine (n + 1)) id h args w = some (.ok (.obj o), w') ∧
      w'.objects[o]? = some (.error ⟨.runtime, deadText⟩ false) ∧ w'.Notes id .runtime ∧
      v.states[state]? = some s ∧ w'.states = (v.rested state s).states

/-- The outcome of an error value is that of a message. -/
theorem errorValue_status {text : Value → Bridge Text} {e : Value} {f : Failure}
    (h : errorValue text e w = some (.ok f, w')) :
    CoroutineStatus.ofStatus f.status ≠ .yield ∧ CoroutineStatus.ofStatus f.status ≠ .ok := by
  rcases bind_some h with ⟨e, -, hr⟩ | ⟨message, w₁, -, h⟩
  · cases hr
  rcases bind_some h with ⟨e, -, hr⟩ | ⟨message', w₂, -, h⟩
  · cases hr
  obtain ⟨hf, -⟩ := Prod.mk.inj (Option.some.inj h)
  obtain rfl := Except.ok.inj hf
  exact ErrorStatus.ofStatus_ofMessage message

/-- Where a resumption gives anything, the status tells how the body has stopped. -/
theorem Stops.noted_iff {m : Lua.Machine} {x : Value} (hstops : Stops E id h t m w r w') (hnotes : w'.Notes id status)
    (hr : r = .ok x) :
    (status = .yield ↔ ∃ vs k, m.prog = .yield vs k) ∧ (status = .ok ↔ ∃ vs, m.prog = .ret vs) := by
  cases hstops with
  | yields prog _ _ _ _ noted => simp [hnotes.unique noted, prog]
  | returns prog _ _ _ _ _ noted => simp [hnotes.unique noted, prog]
  | fails prog _ _ error noted =>
    obtain ⟨hyield, hok⟩ := errorValue_status error
    simp [hnotes.unique noted, prog, hyield, hok]
  | textless _ _ _ _ result =>
    rw [hr] at result
    cases result

theorem stopsNext (hready : w.Ready id state t) : StopsNext n id state t w := by
  intro h args guests us v w' r found crosses run opened alone
  obtain ⟨s, u, m, m', hs, hreaches, hcur, hstops, hnext⟩ := Ready.resumed hready found crosses run opened alone
  refine ⟨s, u, m, m', hs, hreaches, hcur, hstops, ?_, fun _ _ hnotes hr => hstops.noted_iff hnotes hr⟩
  exact hnext.imp_left fun ⟨hyields, hready', _⟩ => ⟨hyields, hready'⟩

/-- A coroutine is made, and later, when no other call by the host is under way on its state and nothing has happened
to it, lives on. It is suspended and all that resumptions have noted is yields, it runs on when it is resumed, and it
is dead once it has been closed; or it is dead, and refuses to be resumed from then on. -/
theorem coroutine_life {f : Value} {k : Handle} (created : createCoroutine E f w = some (.ok (.obj id), w'))
    (made : w'.objects[id]? = some (.handle k)) (thread : w'.IsThread k.state k.guest t)
    (alone : w'.Leaves w₀ id k.state t) (hosts : w₀.Hosts id k.state t)
    (life : Life (engine (n + 1)) id k.state t w₀ ss last w₁) :
    (w₁.Ready id k.state t ∧ (∀ x ∈ ss, x = .yield) ∧ StopsNext n id k.state t w₁ ∧ ClosesNext n id k.state t w₁) ∨
      w₁.Spent id k.state t ∧ Course ss ∧ RefusesNext n id k.state w₁ ∧
        ∀ ss' last' w₂, Life (engine (n + 1)) id k.state t w₁ ss' last' w₂ →
          w₂.Spent id k.state t ∧ ∀ x ∈ ss', x = .runtime := by
  obtain ⟨hready, hnotes⟩ := created_ready created made thread alone hosts
  cases life.stands hready hnotes with
  | ready ready notes yields => exact .inl ⟨ready, yields, stopsNext ready, closeCoroutine_ready ready⟩
  | spent spent course =>
    exact .inr ⟨spent, course, resume_spent n spent, fun _ _ _ later => later.spent spent⟩

namespace Faltering

/-! A function whose coroutines yield a number and then fail, in a state that is opened for it. -/

def source : Text := "return function() coroutine.yield(1) error('x') end"

/-- A handle stands for the second thread of the first state. -/
def isSecond (w : World) (h : Handle) : Bool :=
  match h.guest with
  | .obj g =>
    match w.objects[g]? with
    | some (.guest ⟨0, .thread 1, false⟩) => h.state = 0
    | _ => false
  | _ => false

/-- The first state is open, and no call by the host is under way on it. -/
def isIdle (w : World) : Bool :=
  (w.states[0]?).any fun s => s.isOpen && decide (s.machine.current = 0) && s.machine.stack.isEmpty

theorem isThread_of_isSecond {k : Handle} (h : isSecond w k = true) : k.state = 0 ∧ w.IsThread 0 k.guest 1 := by
  unfold isSecond at h
  split at h
  · next g hg =>
    split at h
    · next hguest => exact ⟨of_decide_eq_true h, g, hg, hguest⟩
    · contradiction
  · contradiction

theorem hosts {k : Handle} (sound : w.Sound) (found : w.objects[id]? = some (.handle k)) (second : isSecond w k = true)
    (idle : isIdle w = true) : w.Hosts id 0 1 := by
  obtain ⟨hstate, thread⟩ := isThread_of_isSecond second
  obtain ⟨s, hs, htest⟩ := (Option.any_eq_true _ _).mp idle
  simp only [Bool.and_eq_true, decide_eq_true_eq, List.isEmpty_iff] at htest
  exact ⟨sound, ⟨k, found, hstate, thread⟩, s, hs, htest.1.1, htest.1.2, htest.2⟩

def isDead (w : World) : Bool :=
  (w.states[0]?).any fun s => (s.machine.threads[1]?).any fun th =>
    match th.rest with
    | .dead => true
    | _ => false

theorem not_ready_of_isDead (h : isDead w = true) : ¬ w.Ready id 0 1 := by
  rintro ⟨-, rest, ⟨s, th, hs, hth, rfl⟩, hsettled⟩
  rw [isDead, hs, Option.any_some, hth, Option.any_some] at h
  split at h
  · next hdead =>
    rw [hdead] at hsettled
    exact hsettled (by simp [Lua.Rest.Settled])
  · contradiction

/-- Goes on with the handle that an object is. -/
def onHandle {α : Type} (id : Nat) (f : Handle → Bridge α) : Bridge α := do
  match ← object id with
  | .handle k => f k
  | _ => diverge

theorem onHandle_ok {α : Type} {f : Handle → Bridge α} {a : α} (run : onHandle id f w = some (.ok a, w')) :
    ∃ k, w.objects[id]? = some (.handle k) ∧ f k w = some (.ok a, w') := by
  rw [onHandle, bind_ok (object_apply id w)] at run
  cases hid : w.objects[id]? with
  | none =>
    rw [hid] at run
    cases run
  | some o =>
    rw [hid, Option.getD_some] at run
    cases o with
    | handle k => exact ⟨k, rfl, run⟩
    | _ => cases run

/-- Makes a coroutine of the function. -/
def make : Bridge Nat := do
  match ← createCoroutine (engine 1) (← runIn (engine 1) 0 (.text source)) with
  | .obj id => onHandle id fun k => do
    assure fun w => isSecond w k && isIdle w
    return id
  | _ => diverge

/-- A resumption gives the host a number, nothing or an error value. -/
def isPlain (r : Resumption) : Bool :=
  match r.result with
  | .ok [] | .ok [.int _] | .error _ => true
  | _ => false

/-- Giving the host what such a resumption came to leaves all threads alone. -/
theorem toHostResult_plain {r : Resumption} (plain : isPlain r = true) (E : Engine) (state : Nat) (u : World) :
    ∃ x v, toHostResult E state r.result u = some (.ok x, v) ∧ ∀ id i t, u.Leaves v id i t := by
  unfold isPlain at plain
  split at plain
  · next hr => exact ⟨.none, u, by rw [hr]; rfl, .refl u⟩
  · next i hr => exact ⟨.int i, u, by rw [hr]; rfl, .refl u⟩
  · next e hr =>
    let v : World := { u with objects := u.objects.push (.error ⟨e.status, e.message⟩ false) }
    have hl (id i t : Nat) : u.Leaves v id i t := ⟨fun hnotes => hnotes.of_push rfl, fun hrests => hrests.of_states rfl⟩
    exact ⟨.obj u.objects.size, v, by rw [hr]; rfl, hl⟩
  · contradiction

/-- Resumes the coroutine without arguments, which is noted as a status. -/
def turn (id : Nat) (status : CoroutineStatus) : Bridge Unit := onHandle id fun k => do
  assure fun w => decide (k.state = 0) && w.valid k
  holding [.obj id, k.guest] k.state do
    let r ← resumeThread (engine 1) (errorMessage (engine 1)) k.state k.guest []
    assure fun _ => isPlain r && decide (.ofStatus r.status = status)
    discard (settle (engine 1) id k r.status r.result)
  assure (·.opened 0)

def shut (id : Nat) : Bridge Unit := do
  closeCoroutine (engine 1) id
  assure fun w => w.opened 0 && isDead w

/-- A turn is a part of the life of the coroutine. -/
theorem life_turn (life : Life (engine 1) id 0 t w₀ ss last w) (sound : w.Sound)
    (run : turn id status w = some (.ok ⟨⟩, w')) : Life (engine 1) id 0 t w₀ (ss ++ [status]) none w' := by
  obtain ⟨k, hid, run⟩ := onHandle_ok run
  obtain ⟨⟨⟩, _, hchecked, hrest⟩ := bind_some_ok run
  obtain ⟨checked, rfl⟩ := assure_ok hchecked
  rw [Bool.and_eq_true, decide_eq_true_iff] at checked
  obtain ⟨hstate, valid⟩ := checked
  obtain ⟨⟨⟩, _, hheld, hopened⟩ := bind_some_ok hrest
  obtain ⟨opened, rfl⟩ := assure_ok hopened
  obtain ⟨v, hturn, rfl⟩ := holding_some hheld
  obtain ⟨r, u, hr, hturn⟩ := bind_some_ok hturn
  obtain ⟨⟨⟩, _, htold, hsettle⟩ := bind_some_ok hturn
  obtain ⟨told, rfl⟩ := assure_ok htold
  rw [Bool.and_eq_true, decide_eq_true_iff] at told
  obtain ⟨plain, rfl⟩ := told
  have crosses : Crosses id k [] [] [] _ _ := ⟨valid ▸ valid_apply k _, rfl, rfl⟩
  obtain ⟨-, hk⟩ := keeps_resumeThread (engine_keeps 1) (keeps_errorMessage (engine_keeps 1)) _ _ _
    (sound.hold [.obj id, k.guest] k.state) hr
  obtain ⟨k', hid', -⟩ := hk.handles hid
  have hnoted := modifyHandle_apply (f := ({ · with status := .ofStatus r.status })) hid'
  obtain ⟨x, v, hgives, hleaves⟩ := toHostResult_plain plain (engine 1) k.state
    (u.withHandle id { k' with status := .ofStatus r.status })
  have hl := hleaves id 0 t
  have hsettled : settle (engine 1) id k r.status r.result u = some (.ok x, v) := (bind_ok hnoted).trans hgives
  rw [discard_apply, hsettled] at hsettle
  obtain ⟨-, rfl⟩ := ok_inj hsettle
  have resumed : resume (engine 1) id k [] w = some (.ok x, v.release w) := by
    rw [resume_eq crosses.valid crosses.converted, bind_ok hr, hsettled]
    rfl
  refine .resumed life hid crosses resumed (opened ▸ opened_apply _ _) (fun x hx => ?_) ?_
  · rw [hx.unique hr hnoted]
    exact ⟨hl.notes, hl.rests⟩
  · exact hl.notes ⟨_, (withHandle_objects hid' id).trans (if_pos rfl), rfl⟩

/-- It yields, fails and is closed. -/
def failing : Bridge Unit := do
  let id ← make
  turn id .yield
  turn id .runtime
  shut id

def yielding : Bridge Unit := do
  let id ← make
  turn id .yield
  shut id

theorem make_ok (run : make (.unopened {}) = some (.ok id, w)) : ∃ f v k,
    runIn (engine 1) 0 (.text source) (.unopened {}) = some (.ok f, v) ∧
      createCoroutine (engine 1) f v = some (.ok (.obj id), w) ∧ w.objects[id]? = some (.handle k) ∧ k.state = 0 ∧
      w.IsThread 0 k.guest 1 ∧ w.Hosts id 0 1 := by
  obtain ⟨f, v, hf, run⟩ := bind_some_ok run
  obtain ⟨c, u, hc, run⟩ := bind_some_ok run
  cases c with
  | obj id' =>
    obtain ⟨k, hid, run⟩ := onHandle_ok run
    obtain ⟨⟨⟩, _, hassured, hpure⟩ := bind_some_ok run
    obtain ⟨assured, rfl⟩ := assure_ok hassured
    obtain ⟨rfl, rfl⟩ := ok_inj hpure
    rw [Bool.and_eq_true] at assured
    obtain ⟨hstate, thread⟩ := isThread_of_isSecond assured.1
    obtain ⟨sound, -⟩ := keeps_runIn (engine_keeps 1) 0 _ (sound_unopened {}) hf
    obtain ⟨sound, -⟩ := keeps_createCoroutine (engine_keeps 1) _ sound hc
    exact ⟨f, v, k, hf, hc, hid, hstate, thread, hosts sound hid assured.1 assured.2⟩
  | _ => cases run

theorem life_shut (life : Life (engine 1) id 0 t w₀ ss last w) (run : shut id w = some (.ok ⟨⟩, w')) :
    Life (engine 1) id 0 t w₀ ss last w' ∧ isDead w' = true := by
  obtain ⟨⟨⟩, v, hclose, hassured⟩ := bind_some_ok run
  obtain ⟨assured, rfl⟩ := assure_ok hassured
  rw [Bool.and_eq_true] at assured
  exact ⟨.closed life hclose (assured.1 ▸ opened_apply 0 v), assured.2⟩

theorem failing_ok : succeedsWith (fun _ _ => true) (failing (.unopened {})) = true := by decide +kernel

theorem yielding_ok : succeedsWith (fun _ _ => true) (yielding (.unopened {})) = true := by decide +kernel

end Faltering

/-- A language opens a state and runs a chunk that gives a function. A coroutine of it is resumed, which yields a number, and
again, which fails, and then it is closed; or it is closed while it is suspended. Either way it is dead from then on. -/
theorem coroutine_life_faltering : ∃ f v id w, runIn (engine 1) 0 (.text Faltering.source) (.unopened {}) = some (.ok f, v) ∧
    createCoroutine (engine 1) f v = some (.ok (.obj id), w) ∧ w.Hosts id 0 1 ∧
    (∃ w', Life (engine 1) id 0 1 w [.yield, .runtime] none w' ∧ w'.Spent id 0 1 ∧ RefusesNext 0 id 0 w') ∧
    ∃ w', Life (engine 1) id 0 1 w [.yield] none w' ∧ w'.Spent id 0 1 ∧ RefusesNext 0 id 0 w' := by
  obtain ⟨⟨⟩, w₃, hfailing, -⟩ := eq_ok_of_succeedsWith Faltering.failing_ok
  obtain ⟨⟨⟩, w₃', hyielding, -⟩ := eq_ok_of_succeedsWith Faltering.yielding_ok
  obtain ⟨id, w, hmake, hfailing⟩ := bind_some_ok hfailing
  obtain ⟨id', w', hmake', hyielding⟩ := bind_some_ok hyielding
  obtain ⟨rfl, rfl⟩ := ok_inj (hmake.symm.trans hmake')
  obtain ⟨f, v, k, hf, hc, hid, hstate, thread, hosts⟩ := Faltering.make_ok hmake
  obtain ⟨⟨⟩, w₁, hfirst, hfailing⟩ := bind_some_ok hfailing
  obtain ⟨⟨⟩, w₁', hfirst', hyielding⟩ := bind_some_ok hyielding
  obtain ⟨-, rfl⟩ := ok_inj (hfirst.symm.trans hfirst')
  obtain ⟨⟨⟩, w₂, hsecond, hshut⟩ := bind_some_ok hfailing
  obtain ⟨kind, state, guest⟩ := k
  obtain rfl : state = 0 := hstate
  have ended {ss : List CoroutineStatus} {w₃ : World} (life : Life (engine 1) id 0 1 w ss none w₃)
      (dead : Faltering.isDead w₃ = true) : w₃.Spent id 0 1 ∧ RefusesNext 0 id 0 w₃ := by
    rcases coroutine_life hc hid thread (.refl w id 0 1) hosts life with ⟨ready, -⟩ | ⟨spent, -, refuses, -⟩
    · exact absurd ready (Faltering.not_ready_of_isDead dead)
    · exact ⟨spent, refuses⟩
  obtain ⟨ready, notes⟩ := created_ready hc hid thread (.refl w id 0 1) hosts
  have life₁ := Faltering.life_turn (t := 1) .start hosts.sound hfirst
  have life₂ := Faltering.life_turn life₁ (life₁.stands ready notes).hosts.sound hsecond
  obtain ⟨life₃, dead⟩ := Faltering.life_shut life₂ hshut
  obtain ⟨life₃', dead'⟩ := Faltering.life_shut life₁ hyielding
  exact ⟨f, v, id, w, hf, hc, hosts, ⟨w₃, life₃, ended life₃ dead⟩, w₃', life₃', ended life₃' dead'⟩

end Bridge

end HostedLua
