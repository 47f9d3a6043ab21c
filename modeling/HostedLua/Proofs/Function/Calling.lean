import HostedLua.Proofs.Function.Invoke

/-! The calls of the host that run code: a function is called with what its arguments are pushed as, and a chunk with
nothing. Either way one program runs on a state, and the call comes to the values of the program or its failure, in host
form. -/

namespace HostedLua

open Host

namespace World

def withChunk (w : World) (state : Nat) (c : Lua.Closure) : World :=
  { w with states := w.states.modify state fun s =>
      { s with machine := { s.machine with heap := (s.machine.heap.newClosure c).1 } } }

theorem withChunk_states {w : World} {state : Nat} {s : LuaState} (hs : w.states[state]? = some s) (c : Lua.Closure) :
    (w.withChunk state c).states[state]? =
      some { s with machine := { s.machine with heap := (s.machine.heap.newClosure c).1 } } :=
  (getElem?_modify_some hs state _).trans (by rw [if_pos rfl])

end World

namespace Bridge

variable {α β : Type} {E : Engine} {state : Nat} {p : Lua.Prog} {w w' w₀ : World} {x y : Bridge α}

/-- Only what a computation comes to matters to what is done next. -/
theorem bind_congr_left {f : α → Bridge β} (h : x w = y w') : (x >>= f) w = (y >>= f) w' := by
  rw [bind_apply, bind_apply, h]

theorem protectedCall_congr (h : x w = y w') : protectedCall x w = protectedCall y w' :=
  bind_congr_left (by rw [attempt_apply, attempt_apply, h])

/-- The values of a program as a group, or its failure, in host form. -/
def outcome (E : Engine) (state : Nat) (p : Lua.Prog) : Bridge Value := do
  toHostResult E state (← protectedCall do group (← runProg E state p))

theorem outcome_returns {results values : List Value} (hrun : runProg E state p w = some (.ok results, w'))
    (hgroup : group results w' = some (.ok values, w')) :
    outcome E state p w = toHostValues E state values w' :=
  bind_ok (protectedCall_ok ((bind_ok hrun).trans hgroup))

/-- A call by the host runs a program: that of a Lua function that is called with arguments, or of a chunk. -/
inductive Calling (E : Engine) (w : World) : Bridge Value → (state : Nat) → Lua.Prog → World → Prop where
  | invoke {h : Handle} {args guests : List Value} {fn : Lua.Value} {us : List Lua.Value} {w₀ : World}
    (valid : isValid h w = some (.ok true, w))
    (converted : args.mapM (toGuest h.state) (w.hold (h.guest :: args) h.state) = some (.ok guests, w₀))
    (guest : ∃ id, h.guest = .obj id ∧ w₀.objects[id]? = some (.guest ⟨h.state, fn, false⟩))
    (pushed : guests.mapM (push h.state) w₀ = some (.ok us, w₀)) :
    Calling E w (invoke E h args) h.state (callProg fn us) w₀
  | chunk {state : Nat} {source : Value} {s : LuaState} {b : Bytes} {fn : Lua.Value} {w₀ : World}
    (found : w.states[state]? = some s) (opened : s.isOpen = true)
    (written : source = .bytes b ∨ ∃ t, source = .text t ∧ s.charset.encodeEscaped t = .ok b)
    (loaded : load state b (w.hold [source] state) = some (.ok fn, w₀)) :
    Calling E w (doString E state source) state (callProg fn []) w₀

theorem callValue_runs {h : Handle} {guests : List Value} {fn : Lua.Value} {us : List Lua.Value}
    (guest : ∃ id, h.guest = .obj id ∧ w.objects[id]? = some (.guest ⟨h.state, fn, false⟩))
    (pushed : guests.mapM (push h.state) w = some (.ok us, w)) :
    callValue E h.guest guests w = runProg E h.state (callProg fn us) w := by
  obtain ⟨id, hguest, hid⟩ := guest
  rw [hguest, callValue, bind_ok (object_apply id w), hid, Option.getD_some]
  dsimp only
  rw [if_neg Bool.false_ne_true, callLua, bind_ok pushed]

theorem execute_runs {source : Value} {s : LuaState} {b : Bytes} {fn : Lua.Value} (found : w.states[state]? = some s)
    (written : source = .bytes b ∨ ∃ t, source = .text t ∧ s.charset.encodeEscaped t = .ok b)
    (loaded : load state b w = some (.ok fn, w₀)) :
    execute E state source w = (runProg E state (callProg fn []) >>= group) w₀ := by
  rw [execute, bind_ok (state?_apply state w), found]
  rcases written with rfl | ⟨t, rfl, ht⟩
  · exact bind_ok loaded
  · dsimp only
    rw [ht]
    exact bind_ok loaded

/-- A chunk is loaded as a function in the globals of the state. -/
theorem load_parsed {s : LuaState} {b : Bytes} {f : Lua.Func} (found : w.states[state]? = some s)
    (parsed : Lua.Chunk.parse b = .ok f) : load state b w =
      some (.ok (.closure s.machine.heap.closures.size), w.withChunk state ⟨f, [s.globals]⟩) := by
  rw [load, parsed]
  dsimp only
  rw [chunkClosure, bind_ok (state?_apply state w), found]
  rfl

/-- A call comes to what its program does. -/
theorem Calling.eq {x : Bridge Value} (h : Calling E w x state p w₀) :
    x w = (outcome E state p w₀).map fun r => (r.1, r.2.release w) := by
  cases h with
  | invoke valid converted guest pushed =>
    rw [invoke_answered valid converted]
    exact congrArg _ (bind_congr_left (protectedCall_congr (bind_congr_left (callValue_runs guest pushed))))
  | @chunk state source s b fn w₀ found opened written loaded =>
    have hfound : (w.hold [source] state).states[state]? = some s := found
    rw [doString, bind_ok (isOpen_apply found), opened]
    refine holding_eq.trans (congrArg _ ?_)
    exact bind_congr_left (protectedCall_congr (execute_runs hfound written loaded))

/-- What a call does before its program runs keeps all there was. -/
theorem Calling.keeps {x : Bridge Value} (h : Calling E w x state p w₀) (hw : w.Sound) :
    w₀.Sound ∧ ∃ s, w₀.states[state]? = some s := by
  cases h with
  | invoke valid converted guest pushed =>
    obtain ⟨hw₀, hk⟩ := converted_keeps hw converted
    obtain ⟨s, hs⟩ := state_of_isValid valid
    obtain ⟨s₀, hs₀, -⟩ := hk.states hs
    exact ⟨hw₀, s₀, hs₀⟩
  | @chunk state source s b fn w₀ found opened written loaded =>
    have hfound : (w.hold [source] state).states[state]? = some s := found
    obtain ⟨hw₀, hk⟩ := keeps_load state b (hw.hold [source] state) loaded
    obtain ⟨s₀, hs₀, -⟩ := hk.states hfound
    exact ⟨hw₀, s₀, hs₀⟩

end Bridge

end HostedLua
