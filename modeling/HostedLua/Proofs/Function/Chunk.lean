import HostedLua.Proofs.Excerpt.Refusal
import HostedLua.Proofs.Function.Calling

/-! What running a text in a language comes to. Where the text is a chunk, its function is called once, whatever the
engine is (`runIn_compiled`); and where it is none, the language gives an error, and nothing is run (`runIn_refused`). -/

namespace HostedLua

open Host

/-- The function that a text in a set is a chunk of, or the error that the text is refused with. -/
def Charset.compile (cs : Charset) (t : Text) : Except LuaError Lua.Func :=
  match cs.encodeEscaped t with
  | .error e => .error ⟨(Fault.ofEncoding e).status, (Fault.ofEncoding e).message⟩
  | .ok b =>
    match Lua.Chunk.parse b with
    | .error e => .error ⟨.badSource, e.told cs⟩
    | .ok f => .ok f

/-- A chunk is a text that can be written and is read as one. -/
theorem Charset.compile_eq_ok {cs : Charset} {t : Text} {f : Lua.Func} :
    cs.compile t = .ok f ↔ ∃ b, cs.encodeEscaped t = .ok b ∧ Lua.Chunk.parse b = .ok f := by
  rw [compile]
  constructor
  · intro h
    cases written : cs.encodeEscaped t with
    | error e =>
      rw [written] at h
      cases h
    | ok b =>
      rw [written] at h
      dsimp only at h
      cases parsed : Lua.Chunk.parse b with
      | error e =>
        rw [parsed] at h
        cases h
      | ok f' =>
        rw [parsed] at h
        obtain rfl := Except.ok.inj h
        exact ⟨b, rfl, parsed⟩
  · rintro ⟨b, written, parsed⟩
    rw [written]
    dsimp only
    rw [parsed]

/-- A text that can be written can be written as an expression to be returned. -/
theorem Charset.encodeEscaped_return {cs : Charset} {t : Text} {b : Bytes} (h : cs.encodeEscaped t = .ok b) :
    cs.encodeEscaped ("return " ++ t) = .ok (.ofString "return " ++ b) := by
  have hascii : ∀ c ∈ ("return " : String).toList, c.toNat < 0x80 := by simp
  rw [← Bytes.widen_ofString hascii]
  exact encodeEscaped_ascii_append (Bytes.lt_of_mem_ofString hascii) h

/-- The program that calls the function that is put into a state next. -/
def LuaState.chunkProg (s : LuaState) : Lua.Prog := Bridge.callProg (.closure s.machine.heap.closures.size) []

/-- A world in which a text is held and the function that it is a chunk of has been put into a state. -/
def World.loaded (w : World) (state : Nat) (s : LuaState) (f : Lua.Func) (t : Text) : World :=
  (w.hold [.text t] state).withChunk state ⟨f, [s.globals]⟩

def World.withError (w : World) (e : LuaError) : World := { w with objects := w.objects.push (.error e false) }

namespace Bridge

open World

variable {E : Engine} {n l state : Nat} {p : Lua.Prog} {w w' : World} {s : LuaState} {t : Text} {e : LuaError}

/-! ### Running a text -/

/-- The call of the function of a chunk, which has been put into the state for it. -/
def called (E : Engine) (state : Nat) (s : LuaState) (f : Lua.Func) (t : Text) : Bridge Value := fun w =>
  (outcome E state s.chunkProg (w.loaded state s f t)).map fun r => (r.1, r.2.release w)

/-- A text that is a chunk is run by a call of its function. -/
theorem runIn_compiled {f : Lua.Func} (entered : (w.languageOf l).state = some state) (found : w.states[state]? = some s)
    (opened : s.isOpen = true) (compiled : s.charset.compile t = .ok f) (E : Engine) :
    runIn E l (.text t) w = called E state s f t w := by
  obtain ⟨b, written, parsed⟩ := Charset.compile_eq_ok.mp compiled
  have hload := load_parsed (w := w.hold [.text t] state) found parsed
  have hcalling := Calling.chunk (E := E) found opened (.inr ⟨t, rfl, written⟩) hload
  rw [runIn, bind_ok (languageState_opened entered ((opened_eq found).trans opened)), hcalling.eq]
  rfl

/-- A text that is no chunk is refused with a fault that has the outcome and the message of its error. -/
theorem execute_refused (found : w.states[state]? = some s) (refused : s.charset.compile t = .error e) (E : Engine) :
    ∃ f : Fault, execute E state (.text t) w = some (.error f, w) ∧ f.isOrdinary = true ∧ e = ⟨f.status, f.message⟩ := by
  rw [Charset.compile] at refused
  rw [execute, bind_ok (state?_apply state w), found]
  dsimp only
  cases written : s.charset.encodeEscaped t with
  | error e' =>
    rw [written] at refused
    exact ⟨_, rfl, isOrdinary_ofEncoding e', (Except.error.inj refused).symm⟩
  | ok b =>
    rw [written] at refused
    dsimp only at refused ⊢
    cases parsed : Lua.Chunk.parse b with
    | ok f =>
      rw [parsed] at refused
      cases refused
    | error e' =>
      rw [parsed] at refused
      have hload : load state b w = some (.error (.of "LuaSyntaxError" (e'.told s.charset)), w) := by
        rw [load, parsed]
        dsimp only
        rw [bind_ok (state?_apply state w), found]
        rfl
      have hkinds : ∀ kind ∈ ["Exception", "LuaError", "LuaSyntaxError"],
          (FaultKind.ofString "LuaSyntaxError").isA kind = true := by decide +kernel
      let f : Fault := .of "LuaSyntaxError" (e'.told s.charset)
      have hstatus : f.status = .badSource := if_pos (hkinds "LuaSyntaxError" (by simp))
      have hmessage : f.message = e'.told s.charset := if_pos (hkinds "LuaError" (by simp))
      refine ⟨f, bind_error (f := fun fn => do group (← runProg E state (callProg fn []))) hload, hkinds _ (by simp), ?_⟩
      rw [hstatus, hmessage]
      exact (Except.error.inj refused).symm

/-- A text that is no chunk gives its error, and nothing is run. -/
theorem runIn_refused (entered : (w.languageOf l).state = some state) (found : w.states[state]? = some s)
    (opened : s.isOpen = true) (refused : s.charset.compile t = .error e) (E : Engine) :
    runIn E l (.text t) w = some (.ok (.obj w.objects.size), w.withError e) := by
  have hfound : (w.hold [.text t] state).states[state]? = some s := found
  obtain ⟨f, hexecute, hordinary, rfl⟩ := execute_refused hfound refused E
  rw [runIn, bind_ok (languageState_opened entered ((opened_eq found).trans opened)), doString,
    bind_ok (isOpen_apply found), opened]
  have hfails := bind_ok (f := toHostResult E state) (protectedCall_error hordinary hexecute)
  exact holding_of (hfails.trans (newObject_apply _ _))

end Bridge

end HostedLua
