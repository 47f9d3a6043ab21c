import HostedLua.Proofs.Coroutine.Life

/-! How the status on a coroutine handle agrees with its thread, whatever the handle is resumed with. As long as the
thread is suspended, the status is that of a yield, unless an argument was refused where it was pushed: that is noted
like the failure of the thread, although the thread has not been reached. Arguments that cannot be converted, which are
refused before, change nothing. -/

namespace HostedLua

open Host

/-- The outcome of a fault is a failure. -/
theorem Fault.ofStatus_status (f : Fault) :
    CoroutineStatus.ofStatus f.status ≠ .yield ∧ CoroutineStatus.ofStatus f.status ≠ .ok := by
  rw [Fault.status]
  split_ifs
  · decide
  · decide
  · exact ErrorStatus.ofStatus_ofMessage _
  · decide

/-- Text that cannot be encoded is a runtime error. -/
theorem Fault.status_ofEncoding (e : EncodeError) : (Fault.ofEncoding e).status = .runtime := by
  have hkind : (FaultKind.ofString "UnicodeEncodeError").isA "LuaSyntaxError" = false ∧
      (FaultKind.ofString "UnicodeEncodeError").isA "MemoryError" = false ∧
      (FaultKind.ofString "UnicodeEncodeError").isA "LuaError" = false := by decide +kernel
  obtain ⟨hbad, hmemory, hlua⟩ := hkind
  simp [Fault.status, Fault.isLua, Fault.ofEncoding, Fault.of, hbad, hmemory, hlua]

namespace Bridge

open World

variable {E : Engine} {n id state t : Nat} {h : Handle} {w w' w₀ w₁ v : World} {args guests : List Value}
  {r : Except Fault Value} {ss : List CoroutineStatus} {last last' : Option Fault}

/-- What resuming a handle with some arguments comes to: how far they get, and what becomes of the last refusal. -/
inductive Arrives (id state t : Nat) (h : Handle) (args : List Value) (last : Option Fault) (w w' : World) :
    Option Fault → Prop where
  /-- The handle is not valid. -/
  | invalid (invalid : isValid h w = some (.ok false, w)) (left : w.Leaves w' id state t) :
    Arrives id state t h args last w w' last
  /-- An argument cannot be converted. -/
  | unconverted {e : Failure} {v : World} (valid : isValid h w = some (.ok true, w))
    (fails : toGuestValues h.state args (w.hold (.obj id :: h.guest :: args) h.state) = some (.ok (.error e), v))
    (left : w.Leaves w' id state t) : Arrives id state t h args last w w' last
  /-- An argument is refused where it is pushed. -/
  | refused {guests : List Value} {f : Fault} {v : World} (refused : Refused id h args guests f w v)
    (left : ∀ rest, w.Rests state t rest → w'.Rests state t rest) (noted : w'.Notes id (.ofStatus f.status)) :
    Arrives id state t h args last w w' (some f)
  /-- The thread is resumed with the arguments. -/
  | crosses {guests : List Value} {us : List Lua.Value} {v : World} (crosses : Crosses id h args guests us w v) :
    Arrives id state t h args last w w' none

/-- Text that the set of a state cannot write is refused. -/
theorem push_text_error {s : LuaState} {x : Text} {e : EncodeError} (hs : w.states[state]? = some s)
    (he : s.charset.encodeEscaped x = .error e) : push state (.text x) w = some (.error (.ofEncoding e), w) := by
  rw [push, bind_ok (state?_apply state w), hs]
  dsimp only
  rw [he]
  rfl

/-- A handle that is not valid is reported, and nothing happens to its thread. -/
theorem resume_invalid (hv : isValid h w = some (.ok false, w)) (hr : resume E id h args w = some (r, w')) :
    w.Leaves w' id state t := by
  rw [resume, bind_ok (requireState_invalid "thread" hv)] at hr
  obtain ⟨-, rfl⟩ := Prod.mk.inj (Option.some.inj hr)
  rw [complained]
  split_ifs
  · cases w.states[h.state]? <;> exact ⟨fun hnotes => hnotes, fun hrests => hrests⟩
  · exact ⟨fun hnotes => hnotes, fun hrests => hrests⟩

/-- Whatever a handle is resumed with, its life goes on. -/
theorem Life.goes (life : Life (engine (n + 1)) id state t w₀ ss last w) (hosts : w.Hosts id state t)
    (found : w.objects[id]? = some (.handle h)) (run : resume (engine (n + 1)) id h args w = some (r, w'))
    (opened : isOpen state w' = some (.ok true, w'))
    (alone : ∀ guests v u,
      toGuestValues h.state args (w.hold (.obj id :: h.guest :: args) h.state) = some (.ok (.ok guests), v) →
      Noted (engine (n + 1)) id h guests v u → u.Leaves w' id state t) :
    ∃ ss' last', Arrives id state t h args last w w' last' ∧ Life (engine (n + 1)) id state t w₀ ss' last' w' := by
  obtain ⟨h', hid', rfl, ht⟩ := hosts.handle
  obtain rfl := Object.handle.inj (Option.some.inj (found.symm.trans hid'))
  obtain ⟨hw', hk⟩ := keeps_resume (engine_keeps (n + 1)) id h args hosts.sound run
  obtain ⟨valid, hv⟩ := isValid_total h w
  cases valid with
  | false =>
    have hl : w.Leaves w' id h.state t := resume_invalid hv run
    exact ⟨ss, last, .invalid hv hl, .apart life hw' hk hl opened⟩
  | true =>
    obtain ⟨g, -, ⟨guests, -, hargs⟩ | ⟨f, -, hargs⟩⟩ :=
      toGuestValues_adds h.state args (w.hold (.obj id :: h.guest :: args) h.state)
    · rcases push_total h.state guests _ with ⟨us, hus⟩ | ⟨f, hf, -⟩
      · obtain ⟨k, hk', -⟩ := hk.handles found
        have hnotes : w'.Notes id k.status := ⟨k, hk', rfl⟩
        have hcrosses : Crosses id h args guests us w _ := ⟨hv, hargs, hus⟩
        exact ⟨_, none, .crosses hcrosses,
          .resumed life found hcrosses run opened (fun u hu => alone _ _ _ hargs hu) hnotes⟩
      · have hrefused : Refused id h args guests f w _ := ⟨hv, hargs, hf⟩
        obtain ⟨o, w₁, hrun, -, hnotes, hstates⟩ := resume_unpushed (engine (n + 1)) hosts.sound found ht hrefused
        obtain ⟨-, rfl⟩ := Prod.mk.inj (Option.some.inj (hrun.symm.trans run))
        obtain ⟨-, -, -, hl⟩ := Hosts.converted hosts hargs
        exact ⟨ss, some f, .refused hrefused (fun rest hrests => (hl.rests hrests).of_states hstates) hnotes,
          .refused life found hrefused run opened⟩
    · have hl : w.Leaves w' id h.state t := resume_unconverted hv hargs run
      exact ⟨ss, last, .unconverted hv hargs hl, .apart life hw' hk hl opened⟩

/-- After any part of the life of a coroutine its thread is suspended, and the status is that of a yield just where no
argument has been refused since the thread was last reached; or the thread is dead. Whatever the handle is resumed with
next is a further part of the life. -/
theorem status_agrees {f : Value} {k : Handle} (created : createCoroutine E f w = some (.ok (.obj id), w'))
    (made : w'.objects[id]? = some (.handle k)) (thread : w'.IsThread k.state k.guest t)
    (alone : w'.Leaves w₀ id k.state t) (hosts : w₀.Hosts id k.state t)
    (life : Life (engine (n + 1)) id k.state t w₀ ss last w₁) :
    (w₁.Ready id k.state t ∧ w₁.Notes id (standing last) ∧ (w₁.Notes id .yield ↔ last = none) ∨
      w₁.Spent id k.state t) ∧
    ∀ h args r w₂, w₁.objects[id]? = some (.handle h) → resume (engine (n + 1)) id h args w₁ = some (r, w₂) →
      isOpen k.state w₂ = some (.ok true, w₂) →
      (∀ guests v u,
        toGuestValues h.state args (w₁.hold (.obj id :: h.guest :: args) h.state) = some (.ok (.ok guests), v) →
        Noted (engine (n + 1)) id h guests v u → u.Leaves w₂ id k.state t) →
      ∃ ss' last', Arrives id k.state t h args last w₁ w₂ last' ∧
        Life (engine (n + 1)) id k.state t w₀ ss' last' w₂ := by
  obtain ⟨hready, hnotes⟩ := created_ready created made thread alone hosts
  have hstands := life.stands hready hnotes
  refine ⟨?_, fun h args r w₂ found run opened alone => life.goes hstands.hosts found run opened alone⟩
  cases hstands with
  | ready ready notes =>
    refine .inl ⟨ready, notes, ?_⟩
    cases last with
    | none => exact iff_of_true notes rfl
    | some f => exact iff_of_false (fun hyield => f.ofStatus_status.1 (notes.unique hyield)) (by simp)
  | spent spent => exact .inr spent

/-- Text that the set of a state cannot write is refused where it is pushed: the handle notes a runtime error, and its
thread is still suspended. -/
theorem status_agrees_refused :
    let w := Lone.made .ascii { encoding := .text "ascii" }
    createCoroutine (engine 1) (.obj 2) (Lone.world .ascii { encoding := .text "ascii" }) = some (.ok (.obj 4), w) ∧
      w.Hosts 4 0 1 ∧
      ∃ f o w₁, resume (engine 1) 4 Lone.coroutine [.text [0xE9]] w = some (.ok (.obj o), w₁) ∧
        Life (engine 1) 4 0 1 w [] (some f) w₁ ∧ w₁.Ready 4 0 1 ∧ w₁.Notes 4 .runtime := by
  intro w
  have hosts : w.Hosts 4 0 1 := Lone.hosts _ _
  have thread : w.IsThread 0 (.obj 3) 1 := Lone.isThread _ _
  have created : createCoroutine (engine 1) (.obj 2) _ = some (.ok (.obj 4), w) := Lone.createCoroutine_world _ _
  let v : World := w.hold [.obj 4, .obj 3, .text [0xE9]] 0
  have hconverted : toGuestValues 0 [.text [0xE9]] v = some (.ok (.ok [.text [0xE9]]), v) := by cbv
  obtain ⟨f, hf, hstatus⟩ : ∃ f, [Value.text [0xE9]].mapM (push 0) v = some (.error f, v) ∧ f.status = .runtime := by
    cases he : Charset.ascii.encodeEscaped [0xE9] with
    | ok b => cases he
    | error e =>
      refine ⟨.ofEncoding e, ?_, Fault.status_ofEncoding e⟩
      have hpush : push 0 (.text [0xE9]) v = some (.error (.ofEncoding e), v) := push_text_error rfl he
      rw [List.mapM_cons]
      exact bind_error hpush
  have refused : Refused 4 Lone.coroutine [.text [0xE9]] [.text [0xE9]] f w v := ⟨Lone.valid _ _, hconverted, hf⟩
  obtain ⟨o, w₁, run, -, hnotes, hstates⟩ := resume_unpushed (engine 1) hosts.sound rfl thread refused
  have opened : isOpen 0 w₁ = some (.ok true, w₁) := by
    rw [opened_apply, World.opened, hstates]
    rfl
  have life : Life (engine 1) 4 0 1 w [] (some f) w₁ := .refused .start rfl refused run opened
  rcases (status_agrees created rfl thread (.refl w 4 0 1) hosts life).1 with ⟨hready, -⟩ | hspent
  · refine ⟨created, hosts, f, o, w₁, run, life, hready, ?_⟩
    rwa [hstatus] at hnotes
  · obtain ⟨s', th, hs', hth, hrest⟩ := hspent.rests
    rw [hstates] at hs'
    obtain rfl := Option.some.inj hs'
    obtain rfl := Option.some.inj hth
    cases hrest

end Bridge

end HostedLua
