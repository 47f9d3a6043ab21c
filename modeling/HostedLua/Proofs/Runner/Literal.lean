import HostedLua.Proofs.Coroutine.Turn
import HostedLua.Proofs.Function.Calling
import HostedLua.Proofs.Language.Validity
import HostedLua.Proofs.Lua.Brief
import HostedLua.Proofs.Lua.Literal
import HostedLua.Proofs.Runner.Binding

/-! What the printer writes for a string reads back. A chunk that returns quoted text is loaded as the function
that returns its bytes (`parse_returning`); it runs in a few steps, without a question to the host, and the
host reads the bytes as the text. So a run of the chunk succeeds with the text, in an open state of the
language or in one that is opened for it (`handleScript_quoted`). -/

namespace HostedLua

open Host

namespace Lua.Machine

variable {b : Machine} {id : Nat} {x : Bytes} {cells : List Nat}

/-- The function of a chunk that returns a string is over in four steps. -/
theorem run_returning (hid : b.heap.closures[id]? = some ⟨returning x, cells⟩) (hfits : b.Fits) (n : Nat) :
    ∃ m, (b.enter (Bridge.callProg (.closure id) [])).run (n + 4) = some (m, .done (.ok [.str x])) := by
  let p : Prog := Bridge.callProg (.closure id) []
  have hbody : body b.heap (.closure id) [] = .upd fun h => (h, .ret [.str x]) := by
    rw [body, hid]
    simp only [returning, Closure.enter, Env.bind, adjust, execBlock, Stat.exec, evalList, Expr.isOpen, Expr.eval,
      Bool.and_false, Bool.false_eq_true, if_false, Heap.newCells, afterStat]
  obtain ⟨a, d, l, hcall⟩ : ∃ a d l, (b.enter p).step =
      .inl { b.enter p with stack := .call a d l .ret :: b.mark, prog := body b.heap (.closure id) [] } := by
    have hresolve : resolve b.heap 8 (.closure id) [] 0 = some (.closure id, [], 0) := rfl
    have hstep : (b.enter p).step = .inl ({ b.enter p with prog := .ret [] }.call ⟨none, none⟩ (.closure id) [] .ret) := by
      rw [enter]
      split_ifs <;> rfl
    rw [hstep, call]
    dsimp only [noted]
    rw [heap_enter, stack_enter, hresolve]
    dsimp only
    rw [if_neg (Nat.not_le.mpr hfits.1), if_neg (Nat.not_le.mpr hfits.2)]
    exact ⟨_, _, _, rfl⟩
  rw [run_inl hcall, hbody, run_inl (step_upd rfl), run_inl (step_returns rfl rfl), run, step_leaves rfl rfl]
  exact ⟨_, rfl⟩

end Lua.Machine

namespace Bridge

theorem fits_freshMachine (limit : Option Nat) (bridge : List (String × Lua.Value)) :
    (freshMachine limit bridge).1.Fits := by
  obtain ⟨h, cell, id, cells, hfresh, -⟩ := freshMachine_eq limit bridge
  rw [hfresh]
  exact Lua.Machine.Idle.fits ⟨rfl, rfl⟩

end Bridge

namespace World

variable {w : World} {l state : Nat} {s : LuaState}

/-- A language has an open state, whose strings are UTF-8 and in which the calls of the host do not nest too deep. -/
structure Speaks (w : World) (l state : Nat) (s : LuaState) : Prop where
  entered : (w.languageOf l).state = some state
  found : w.states[state]? = some s
  isOpen : s.isOpen = true
  charset : s.charset = .utf8
  fits : s.machine.Fits

/-- A language with such a state, or with none and usable options that name UTF-8. -/
inductive SpeaksUtf8 (w : World) (l : Nat) : Prop where
  | opened {state : Nat} {s : LuaState} (speaks : w.Speaks l state s)
  | vacant {k : Language} (found : w.languages[l]? = some k) (vacant : w.Vacant l) (usable : w.Usable k.config)
    (charset : Bridge.charset? ((w.configs[k.config]?).getD {}).encoding = some .utf8)

theorem Speaks.languageState (h : w.Speaks l state s) : Bridge.languageState l w = some (.ok state, w) :=
  Bridge.languageState_opened h.entered ((opened_eq h.found).trans h.isOpen)

end World

namespace Bridge

open World

variable {w : World} {id l n : Nat} {t : Text} {r : Runner}

/-- A language of this kind gives such a state when it is asked for its state. -/
theorem languageState_speaks (h : w.SpeaksUtf8 l) : ∃ state s v, languageState l w = some (.ok state, v) ∧
    v.Speaks l state s ∧ v.diagnostics = w.diagnostics ∧ v.runners = w.runners := by
  cases h with
  | opened speaks => exact ⟨_, _, w, speaks.languageState, speaks, rfl, rfl⟩
  | @vacant k found vacant usable charset =>
    rw [← languageOf_eq found] at usable charset
    obtain ⟨objects, s, hopen, hs⟩ := openState_fresh usable (w.languageOf l).diagnostics
    obtain ⟨limit, bridge, hmachine⟩ := hs.machine
    let v : World := { w with objects, states := w.states.push s }
    refine ⟨w.states.size, s, v.enter l (some w.states.size), ?_, ⟨?_, Array.getElem?_push_size, hs.isOpen, ?_, ?_⟩, rfl,
      rfl⟩
    · rw [languageState_vacant vacant, bind_ok hopen, bind_ok (enter_apply l _ _)]
      rfl
    · rw [languageOf_eq (getElem?_modify_some found l _), if_pos rfl]
    · exact Option.some.inj (hs.charset.symm.trans charset)
    · rw [show s.machine = (freshMachine limit bridge).1 from congrArg Prod.fst hmachine]
      exact fits_freshMachine limit bridge

/-- Taking over `print` leaves the language with such a state. -/
theorem bindPrint_speaks (hr : w.runners[id]? = some r) (h : w.SpeaksUtf8 r.language) :
    ∃ state s v, bindPrint id w = some (.ok ⟨⟩, v) ∧ v.Speaks r.language state s ∧ v.diagnostics = w.diagnostics := by
  obtain ⟨state, s, v, hstate, hv, hdiagnostics, hrunners⟩ := languageState_speaks h
  rw [bindPrint, bind_ok (runner_apply hr), bind_ok (language_apply _ w), bind_ok hstate]
  split_ifs
  · exact ⟨state, s, v, rfl, hv, hdiagnostics⟩
  · let u : World := { v with objects := v.objects.push (.callback (.capture (w.languageOf r.language).diagnostics)) }
    have hset := setGlobal_print (w := u) hv.found hv.isOpen Array.getElem?_push_size
    rw [bind_ok (newObject_apply _ v), bind_ok hset]
    refine ⟨state, s.withPrint (.host v.objects.size), _, rfl, ⟨hv.entered, ?_, hv.isOpen, hv.charset, hv.fits⟩,
      hdiagnostics⟩
    exact (getElem?_modify_some hv.found state _).trans (by rw [if_pos rfl])

theorem hostText_clean (ht : t.isClean) (encoding : Value) : hostText t encoding w = some (.ok (.text t), w) := by
  unfold hostText
  rw [if_pos ht]
  rfl

/-- A function that returns the bytes of a text gives the host the text. -/
theorem outcome_returning {state id : Nat} {s : LuaState} {cells : List Nat} (hs : w.states[state]? = some s)
    (hid : s.machine.heap.closures[id]? = some ⟨Lua.returning (t.flatMap Utf8.unit), cells⟩) (hfits : s.machine.Fits)
    (hcharset : s.charset = .utf8) (ht : t.isClean) (n : Nat) :
    ∃ m, outcome (engine (n + 1)) state (callProg (.closure id) []) w = some (.ok (.text t), w.withMachine state m) := by
  obtain ⟨m, hrun⟩ := Lua.Machine.run_returning hid hfits (maxSteps - 4)
  have hengine := engineRun_over (n := n) hs hrun
  have hs' := withMachine_states (m := m) hs
  have hfetch : fetch state (.str (t.flatMap Utf8.unit)) (w.withMachine state m) =
      some (.ok (.text t), w.withMachine state m) := by
    refine fetch_inl hs' (congrArg (Sum.inl ∘ Value.text) ?_)
    exact hcharset.symm ▸ Charset.decodeEscaped_units ht
  have hprog : runProg (engine (n + 1)) state (callProg (.closure id) []) w =
      some (.ok [.text t], w.withMachine state m) := by
    rw [runProg, bind_ok hengine]
    dsimp only
    rw [fetchAll, List.mapM_cons, bind_ok hfetch]
    rfl
  refine ⟨m, (outcome_returns hprog rfl).trans ?_⟩
  rw [toHostValues, toHost, bind_ok (configOf_apply hs'), hostText_clean ht]

/-- A chunk that returns quoted text gives the text. -/
theorem runIn_quoted {state : Nat} {s : LuaState} (h : w.Speaks l state s) (ht : t.isClean) (n : Nat) :
    ∃ v, runIn (engine (n + 1)) l (.text ("return " ++ Printer.quoted t)) w = some (.ok (.text t), v) ∧
      v.diagnostics = w.diagnostics := by
  let u : World := w.hold [.text ("return " ++ Printer.quoted t)] state
  let closure : Lua.Closure := ⟨Lua.returning (t.flatMap Utf8.unit), [s.globals]⟩
  have hwritten : s.charset.encodeEscaped ("return " ++ Printer.quoted t) =
      .ok ((("return " : Text) ++ Printer.quoted t).flatMap Utf8.unit) := by
    refine h.charset ▸ Charset.encodeFrom_utf8 ?_ 0 []
    rw [Text.isClean_append, Printer.isClean_quoted ht]
    decide +kernel
  have hload := load_parsed (w := u) h.found (Lua.Chunk.parse_returning t)
  have hcalling := Calling.chunk (E := engine (n + 1)) h.found h.isOpen (.inr ⟨_, rfl, hwritten⟩) hload
  have hs := withChunk_states (w := u) h.found closure
  obtain ⟨m, houtcome⟩ := outcome_returning hs Array.getElem?_push_size h.fits h.charset ht n
  refine ⟨((u.withChunk state closure).withMachine state m).release w, ?_, rfl⟩
  rw [runIn, bind_ok h.languageState, hcalling.eq, houtcome]
  rfl

/-- The printer writes a string in quotes at every level, and a run of the chunk that returns what it has written succeeds
with the string; and it writes no other string so. -/
theorem handleScript_quoted (hr : w.runners[id]? = some r) (h : w.SpeaksUtf8 r.language) (ht : t.isClean) (n : Nat) :
    (∀ (p : Printer) E level v, p.format E (.text t) level v = some (.ok (Printer.quoted t), v)) ∧
      (∃ v, handleScript (engine (n + 1)) id (.text ("return " ++ Printer.quoted t)) w =
        some (.ok { success := true, value := .text t, effects := [] }, v)) ∧
      ∀ t' : Text, t'.isClean → t' ≠ t → Printer.quoted t' ≠ Printer.quoted t := by
  refine ⟨fun p E level v => rfl, ?_, fun t' ht' hne heq => hne (Printer.quoted_injective ht' ht heq)⟩
  let d := (w.languageOf r.language).diagnostics
  let w₀ : World := { w with diagnostics := w.diagnostics.set! d [] }
  have hcleared : w₀.SpeaksUtf8 r.language := by
    cases h with
    | opened speaks => exact .opened ⟨speaks.entered, speaks.found, speaks.isOpen, speaks.charset, speaks.fits⟩
    | vacant found vacant usable charset => exact .vacant found vacant (usable_congr usable rfl rfl rfl) charset
  obtain ⟨state, s, u, hbind, hspeaks, hrecords⟩ := bindPrint_speaks (w := w₀) hr hcleared
  obtain ⟨v, hrun, hkept⟩ := runIn_quoted hspeaks ht n
  have hclear : clearEffects d w = some (.ok ⟨⟩, w₀) := rfl
  have hempty : (v.diagnostics[d]?).getD [] = [] := by
    have hrecord : (w.diagnostics.set! d [])[d]?.getD [] = [] := by
      rw [Array.set!_eq_setIfInBounds, Array.getElem?_setIfInBounds, if_pos rfl]
      split_ifs <;> rfl
    rwa [hkept, hrecords]
  refine ⟨v, ?_⟩
  rw [handleScript, bind_ok (runner_apply hr), bind_ok (language_apply _ w), bind_ok hclear, bind_ok hbind, bind_ok hrun]
  dsimp only
  rw [← hempty]
  rfl

/-- A text of a quote, a backslash, a line feed and a zero comes back, from a language that has not opened a state yet. -/
theorem handleScript_quoted_marks :
    let w : World :=
      { configs := #[{}], diagnostics := #[[]], languages := #[{ config := 0, diagnostics := 0 }]
        runners := #[{ language := 0 }] }
    let t : Text := "\"\\\n\x00"
    w.runners[0]? = some { language := 0 } ∧ w.SpeaksUtf8 0 ∧ t.isClean = true ∧
      Printer.quoted t = "\"\\\"\\\\\\n\x00\"" ∧
      ∃ v, handleScript (engine 1) 0 (.text ("return " ++ Printer.quoted t)) w =
        some (.ok { success := true, value := .text t, effects := [] }, v) := by
  intro w t
  have ht : t.isClean = true := by decide +kernel
  have hspeaks : w.SpeaksUtf8 0 := by
    refine .vacant (k := { config := 0, diagnostics := 0 }) rfl (fun h => nomatch h) (usable_default rfl) ?_
    cbv
  exact ⟨rfl, hspeaks, ht, by decide +kernel, (handleScript_quoted rfl hspeaks ht 0).2.1⟩

end Bridge

end HostedLua
