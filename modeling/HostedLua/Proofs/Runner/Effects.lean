import HostedLua.Proofs.Runner.Binding

/-! The side effects that a run comes with. A run clears the record, takes over `print` where that is due, runs the chunk,
and packages what is on the record then. So its outcome has what the chunk has told, and the error that it has ended in,
if it has; and however runs follow one another and the language is ended in between, none has to do with another. -/

namespace HostedLua

open Host

namespace World

def error? (w : World) (v : Value) : Option LuaError :=
  match v with
  | .obj id =>
    match w.objects[id]? with
    | some (.error e _) => some e
    | _ => none
  | _ => none

theorem error?_eq_some {w : World} {v : Value} {e : LuaError} (h : w.error? v = some e) :
    ∃ id isSub, v = .obj id ∧ w.objects[id]? = some (.error e isSub) := by
  cases v with
  | obj id =>
    rw [error?] at h
    cases ho : w.objects[id]? with
    | none =>
      rw [ho] at h
      cases h
    | some o =>
      rw [ho] at h
      cases o with
      | error e' isSub =>
        obtain rfl := Option.some.inj h
        exact ⟨id, isSub, rfl, ho⟩
      | _ => cases h
  | _ => cases h

end World

namespace Bridge

open World

variable {w w' w₁ : World} {id l d n state : Nat} {source : Value}

/-! ### What lasts while a chunk runs -/

theorem leads_engine (I : World → Prop) [OfObjects I] (n : Nat) : EngineKeeps I Leads (engine n) :=
  engineOf_runCallback n ▸ preserves_engineOf preserves_runCallback n

theorem runners_engine (rs : Array Runner) (n : Nat) : EngineKeeps (HasRunners rs) Anyhow (engine n) :=
  engine_keeps_of (fun _ _ _ hw => ⟨hw, trivial⟩) n

theorem runnerOf_engine (id l d n : Nat) : EngineKeeps (RunnerOf id l d) Anyhow (engine n) :=
  engine_keeps_of (fun _ _ _ hw => ⟨hw.of_eq rfl rfl rfl, trivial⟩) n

/-- What `print` leads to stays so while a chunk runs that does not assign to `print`. -/
theorem captures_runIn {r : Except Fault Value} (hc : w.Captures d state)
    (h : runIn (engine n) l source w = some (r, w')) (spares : w.Spares w') : w'.Captures d state := by
  obtain ⟨s, p, hs, hprint, hp⟩ := hc
  have hpw : HasCallback p (.capture d) w := hp
  obtain ⟨hp', es, htrail⟩ := keeps_runIn (leads_engine _ n) l source hpw h
  obtain ⟨s', hs', -, -⟩ := htrail.follows.states hs
  exact ⟨s', p, hs', (spares.kept hs hs').trans hprint, hp'⟩

/-- A runner stays one whatever a chunk does. -/
theorem runnerOf_runIn {k : Nat} {r : Except Fault Value} (hw : w.RunnerOf id l d)
    (h : runIn (engine n) k source w = some (r, w')) : w'.RunnerOf id l d :=
  (keeps_runIn (runnerOf_engine id l d n) k source hw h).1

/-- A runner can go on after a chunk that does not assign to `print`. -/
theorem hasRunner_runIn {k : Nat} {r : Except Fault Value} (hw : w.HasRunner id l d)
    (h : runIn (engine n) k source w = some (r, w')) (spares : w.Spares w') : w'.HasRunner id l d := by
  obtain ⟨hrunners, -⟩ := keeps_runIn (runners_engine w.runners n) _ source rfl h
  have hrunners : w'.runners = w.runners := hrunners
  refine ⟨runnerOf_runIn hw.toRunnerOf h, fun r i hr hb => ?_, spares.prints hw.prints⟩
  exact captures_runIn (hw.captures (hrunners ▸ hr) hb) h spares

/-! ### Running a chunk -/

/-- What comes before the chunk: the record is cleared, and `print` is taken over where that is due. -/
def prepare (id : Nat) : Bridge Unit := do
  let r ← runner id
  clearEffects (← language r.language).diagnostics
  bindPrint id

/-- Packages what a chunk has given. -/
def package (d : Nat) (source result : Value) : Bridge Outcome := do
  let success : Bridge Outcome := do
    return { success := true, value := result, effects := ← effects d }
  match result with
  | .obj v =>
    match ← object v with
    | .error e _ =>
      let (message, line) ← formatLuaError e source
      report d message
      return { success := false, message := .text message, line, effects := ← effects d }
    | _ => success
  | _ => success

/-- A run prepares, runs the chunk, and packages what that gives. -/
theorem handleScript_eq (hw : w.RunnerOf id l d) (E : Engine) (source : Value) : handleScript E id source w = (do
    prepare id
    let result ← runIn E l source
    package d source result : Bridge Outcome) w := by
  obtain ⟨bound, hr⟩ := hw.runner
  have hprepare : prepare id w = (do
      clearEffects d
      bindPrint id : Bridge Unit) w := by
    rw [prepare, bind_ok (runner_apply hr), bind_ok (language_apply l w), hw.diagnostics]
  rw [handleScript, bind_ok (runner_apply hr), bind_ok (language_apply l w), hw.diagnostics, bind_apply (prepare id),
    hprepare, ← bind_apply, bind_assoc]
  rfl

/-- A run ends where it prepares, where the chunk runs, or where what the chunk gives is packaged. -/
theorem handleScript_some {E : Engine} {r : Except Fault Outcome} (hw : w.RunnerOf id l d)
    (h : handleScript E id source w = some (r, w')) : (∃ f, prepare id w = some (.error f, w') ∧ r = .error f) ∨
      ∃ w₁, prepare id w = some (.ok ⟨⟩, w₁) ∧ ((∃ f, runIn E l source w₁ = some (.error f, w') ∧ r = .error f) ∨
        ∃ result v, runIn E l source w₁ = some (.ok result, v) ∧ package d source result v = some (r, w')) := by
  rw [handleScript_eq hw] at h
  rcases bind_some h with hfails | ⟨⟨⟩, w₁, hprepare, hrest⟩
  · exact .inl hfails
  · exact .inr ⟨w₁, hprepare, bind_some hrest⟩

/-! ### Before the chunk -/

def cleared (w : World) (d : Nat) : World := { w with diagnostics := w.diagnostics.set! d [] }

theorem size_cleared (w : World) (d : Nat) : (cleared w d).diagnostics.size = w.diagnostics.size := by
  simp [cleared]

theorem prepare_eq (hw : w.RunnerOf id l d) : prepare id w = bindPrint id (cleared w d) := by
  obtain ⟨bound, hr⟩ := hw.runner
  rw [prepare, bind_ok (runner_apply hr), bind_ok (language_apply l w), hw.diagnostics]
  rfl

/-- What comes before the chunk leaves the record empty, and a state whose `print` leads to it, if nobody has assigned
to `print` before. -/
theorem prepare_ok (hw : w.RunnerOf id l d) (h : prepare id w = some (.ok ⟨⟩, w₁)) : ∃ state, Bound id l state w₁ ∧
    w₁.RunnerOf id l d ∧ w₁.diagnostics[d]? = some [] ∧
      (w.HasRunner id l d → w₁.HasRunner id l d ∧ w₁.Captures d state) := by
  have hv : (cleared w d).RunnerOf id l d := hw.of_eq rfl rfl (size_cleared w d)
  obtain ⟨state, hbound, hw₁, hsame, hcaptures⟩ := bindPrint_ok hv (prepare_eq hw ▸ h)
  refine ⟨state, hbound, hw₁, ?_, fun hw => hcaptures (hw.of_diagnostics (size_cleared w d))⟩
  rw [hsame, cleared, Array.set!_eq_setIfInBounds]
  exact Array.getElem?_setIfInBounds_self_of_lt hw.record

theorem prepare_error {f : Fault} (hw : w.RunnerOf id l d) (h : prepare id w = some (.error f, w')) :
    w'.RunnerOf id l d ∧ (w.HasRunner id l d → w'.HasRunner id l d) := by
  have hv : (cleared w d).RunnerOf id l d := hw.of_eq rfl rfl (size_cleared w d)
  obtain ⟨hw', hcaptures⟩ := bindPrint_error hv (prepare_eq hw ▸ h)
  exact ⟨hw', fun hw => hcaptures (hw.of_diagnostics (size_cleared w d))⟩

/-! ### After the chunk -/

/-- What becomes of what a chunk gives. An error is formatted and reported; all else is a success. -/
inductive Packaged (d : Nat) (source result : Value) (v : World) : Except Fault Outcome → World → Prop where
  | success (plain : v.error? result = none) : Packaged d source result v
    (.ok { success := true, value := result, effects := (v.diagnostics[d]?).getD [] }) v
  | failure {e : LuaError} {message : Text} {line : Option Int} (error : v.error? result = some e)
    (formatted : formatLuaError e source v = some (.ok (message, line), v)) : Packaged d source result v
    (.ok { success := false, message := .text message, line,
           effects := ((v.withEffect d (.report message)).diagnostics[d]?).getD [] })
    (v.withEffect d (.report message))
  | raises {e : LuaError} {f : Fault} (error : v.error? result = some e)
    (raised : formatLuaError e source v = some (.error f, v)) : Packaged d source result v (.error f) v

theorem reads_formatLuaError (e : LuaError) (source : Value) : Reads (formatLuaError e source) := by
  unfold formatLuaError
  dsimp only
  split
  · exact .pure _
  · split
    · exact .raise _ _
    · exact .pure _

/-- An error is packaged as it is told. -/
theorem package_error {v : World} {result : Value} {e : LuaError} (he : v.error? result = some e) :
    package d source result v = (do
      let told ← formatLuaError e source
      report d told.1
      return { success := false, message := .text told.1, line := told.2, effects := ← effects d } : Bridge Outcome) v := by
  obtain ⟨id, isSub, rfl, ho⟩ := error?_eq_some he
  rw [package, bind_ok (object_apply id v), ho]
  rfl

/-- All else is packaged as it is. -/
theorem package_plain {v : World} {result : Value} (plain : v.error? result = none) : package d source result v =
    some (.ok { success := true, value := result, effects := (v.diagnostics[d]?).getD [] }, v) := by
  cases result with
  | obj id =>
    rw [package, bind_ok (object_apply id v)]
    rw [error?] at plain
    cases ho : v.objects[id]? with
    | none => rfl
    | some o =>
      rw [ho] at plain
      cases o with
      | error e isSub => cases plain
      | _ => rfl
  | _ => rfl

theorem package_some {v : World} {result : Value} {r : Except Fault Outcome}
    (h : package d source result v = some (r, w')) : Packaged d source result v r w' := by
  cases he : v.error? result with
  | none =>
    rw [package_plain he] at h
    obtain ⟨rfl, rfl⟩ := Prod.mk.inj (Option.some.inj h)
    exact .success he
  | some e =>
    rw [package_error he] at h
    obtain ⟨f | ⟨message, line⟩, hformat⟩ := (reads_formatLuaError e source).total v
    · rw [bind_error hformat] at h
      obtain ⟨rfl, rfl⟩ := Prod.mk.inj (Option.some.inj h)
      exact .raises he hformat
    · rw [bind_ok hformat] at h
      obtain ⟨rfl, rfl⟩ := Prod.mk.inj (Option.some.inj h)
      exact .failure he hformat

theorem Packaged.states {v : World} {result : Value} {r : Except Fault Outcome}
    (h : Packaged d source result v r w') : w'.states = v.states := by
  cases h <;> rfl

theorem Packaged.runnerOf {v : World} {result : Value} {r : Except Fault Outcome}
    (h : Packaged d source result v r w') (hv : v.RunnerOf id l d) : w'.RunnerOf id l d := by
  cases h with
  | success => exact hv
  | failure => exact hv.of_eq rfl rfl Array.size_modify
  | raises => exact hv

theorem Packaged.hasRunner {v : World} {result : Value} {r : Except Fault Outcome}
    (h : Packaged d source result v r w') (hv : v.HasRunner id l d) : w'.HasRunner id l d := by
  cases h with
  | success => exact hv
  | failure => exact hv.of_diagnostics Array.size_modify
  | raises => exact hv

/-! ### Ending a language -/

/-- Ending a language, whichever it is, leaves what runners have taken over as it is. -/
theorem hasRunner_finish {k : Nat} {r : Except Fault Unit} (hw : w.HasRunner id l d)
    (h : finish k w = some (r, w')) : w'.HasRunner id l d := by
  have hsingleton {v : World} (hv : v.HasRunner id l d) :
      World.HasRunner (if v.singleton = some k then { v with singleton := none } else v) id l d := by
    split_ifs
    · exact ⟨hv.toRunnerOf.of_eq rfl rfl rfl, hv.captures, hv.prints⟩
    · exact hv
  rw [finish_apply] at h
  obtain ⟨-, rfl⟩ := Prod.mk.inj (Option.some.inj h)
  dsimp only
  split
  · exact hsingleton ((hw.closed _).enter k none)
  · exact hsingleton hw

/-! ### What an outcome comes with -/

/-- The outcome of a run whose chunk has given something and has told certain side effects: they come with it, and after
them, if it is an error that the chunk has given, the report of the error. -/
inductive Comprises (source result : Value) (v : World) (es : List Effect) : Outcome → Prop where
  | success (plain : v.error? result = none) :
    Comprises source result v es { success := true, value := result, effects := es }
  | failure {e : LuaError} {message : Text} {line : Option Int} (error : v.error? result = some e)
    (formatted : formatLuaError e source v = some (.ok (message, line), v)) : Comprises source result v es
    { success := false, message := .text message, line, effects := es ++ [.report message] }

/-- The outcome of a run in which the chunk has started in a world comes with all that the chunk has told and with nothing
else. The record is empty at the start, and the `print` of the state that the chunk runs in leads to it. -/
structure Whole (n l d : Nat) (source : Value) (start : World) (o : Outcome) : Prop where
  cleared : start.diagnostics[d]? = some []
  captures : ∃ state, (start.languageOf l).state = some state ∧ start.opened state = true ∧ start.Captures d state
  told : ∃ result v es, runIn (engine n) l source start = some (.ok result, v) ∧
    Transcript d (heard d n) (fun E => runIn E l source) start es (.ok result) v ∧ Comprises source result v es o

/-- What a chunk tells is on the record when it has run, if nothing was there before. -/
theorem runIn_told {r : Except Fault Value} (hw : w.HasRecord d) (hcleared : w.diagnostics[d]? = some [])
    (h : runIn (engine n) l source w = some (r, w')) : ∃ es,
      Transcript d (heard d n) (fun E => runIn E l source) w es r w' ∧ w'.diagnostics[d]? = some es := by
  obtain ⟨-, es, htells⟩ := told_runIn l source (heard_knows d n) hw h
  have hgains := htells.gains (heard_gains d n)
  rw [Gains, hcleared] at hgains
  exact ⟨es, htells, hgains⟩

theorem Packaged.comprises {v : World} {result : Value} {o : Outcome} {es : List Effect}
    (h : Packaged d source result v (.ok o) w') (hes : v.diagnostics[d]? = some es) :
    Comprises source result v es o := by
  cases h with
  | success plain =>
    rw [hes]
    exact .success plain
  | @failure _ message _ error formatted =>
    have hgains := Gains.effect v d (.report message)
    rw [Gains, hes] at hgains
    rw [hgains]
    exact .failure error formatted

/-- The outcome of a run is whole. -/
theorem handleScript_whole {o : Outcome} (hw : w.HasRunner id l d) (prepared : prepare id w = some (.ok ⟨⟩, w₁))
    (h : handleScript (engine n) id source w = some (.ok o, w')) : Whole n l d source w₁ o := by
  obtain ⟨state, hbound, hw₁, hcleared, hrunner⟩ := prepare_ok hw.toRunnerOf prepared
  have hcaptures := (hrunner hw).2
  rcases handleScript_some hw.toRunnerOf h with ⟨f, -, hf⟩ | ⟨w₂, hprepare, ⟨f, -, hf⟩ | ⟨result, v, hrun, hpackage⟩⟩
  · cases hf
  · cases hf
  · obtain ⟨-, rfl⟩ := ok_inj (prepared.symm.trans hprepare)
    obtain ⟨es, htells, hes⟩ := runIn_told hw₁.record hcleared hrun
    exact ⟨hcleared, ⟨state, hbound.entered, hbound.opened, hcaptures⟩, result, v, es, hrun, htells,
      (package_some hpackage).comprises hes⟩

/-- However a run ends, the runner can go on, if the chunk does not assign to `print`. -/
theorem hasRunner_handleScript {r : Except Fault Outcome} (hw : w.HasRunner id l d)
    (h : handleScript (engine n) id source w = some (r, w'))
    (spares : ∀ w₁, prepare id w = some (.ok ⟨⟩, w₁) → w₁.Spares w') : w'.HasRunner id l d := by
  have hprepared {w₁ : World} (h : prepare id w = some (.ok ⟨⟩, w₁)) : w₁.HasRunner id l d := by
    obtain ⟨_, -, -, -, hcaptures⟩ := prepare_ok hw.toRunnerOf h
    exact (hcaptures hw).1
  rcases handleScript_some hw.toRunnerOf h with ⟨f, hf, -⟩ | ⟨w₁, hprepare, ⟨f, hf, -⟩ | ⟨result, v, hrun, hpackage⟩⟩
  · exact (prepare_error hw.toRunnerOf hf).2 hw
  · exact hasRunner_runIn (hprepared hprepare) hf (spares w₁ hprepare)
  · have hpackaged := package_some hpackage
    have hspares : w₁.Spares v := (spares w₁ hprepare).of_states hpackaged.states
    exact hpackaged.hasRunner (hasRunner_runIn (hprepared hprepare) hrun hspares)

/-! ### One run after the other -/

/-- A run that has had an outcome: its source, the world in which its chunk started, and the outcome. -/
structure Episode where
  source : Value
  start : World
  outcome : Outcome

/-- What a runner and its language are used for: chunks are run one after the other, with an outcome or with a fault, and
languages are ended in between. No chunk assigns to the global `print`. -/
inductive Sitting (E : Engine) (id : Nat) (w₀ : World) : List Episode → World → Prop where
  | start : Sitting E id w₀ [] w₀
  | runs {w w₁ w' : World} {xs : List Episode} {source : Value} {o : Outcome} (before : Sitting E id w₀ xs w)
    (prepared : prepare id w = some (.ok ⟨⟩, w₁)) (run : handleScript E id source w = some (.ok o, w'))
    (spares : w₁.Spares w') : Sitting E id w₀ (xs ++ [⟨source, w₁, o⟩]) w'
  | fails {w w' : World} {xs : List Episode} {source : Value} {f : Fault} (before : Sitting E id w₀ xs w)
    (run : handleScript E id source w = some (.error f, w'))
    (spares : ∀ w₁, prepare id w = some (.ok ⟨⟩, w₁) → w₁.Spares w') : Sitting E id w₀ xs w'
  | ends {w w' : World} {xs : List Episode} {k : Nat} {r : Except Fault Unit} (before : Sitting E id w₀ xs w)
    (run : finish k w = some (r, w')) : Sitting E id w₀ xs w'

theorem Sitting.hasRunner {w₀ : World} {xs : List Episode} (hw₀ : w₀.HasRunner id l d)
    (h : Sitting (engine n) id w₀ xs w) : w.HasRunner id l d := by
  induction h with
  | start => exact hw₀
  | runs _ prepared run spares ih =>
    refine hasRunner_handleScript ih run fun w₂ hprepare => ?_
    obtain ⟨-, rfl⟩ := ok_inj (prepared.symm.trans hprepare)
    exact spares
  | fails _ run spares ih => exact hasRunner_handleScript ih run spares
  | ends _ run ih => exact hasRunner_finish ih run

/-- However runs follow one another, and wherever languages are ended and opened again in between, every outcome comes with
exactly what its own chunk has told, in order, and last with the error that its chunk has ended in, if it has. -/
theorem effects_whole {w₀ : World} {xs : List Episode} (hw₀ : w₀.HasRunner id l d)
    (h : Sitting (engine n) id w₀ xs w) : ∀ x ∈ xs, Whole n l d x.source x.start x.outcome := by
  induction h with
  | start => simp
  | runs before prepared run _ ih =>
    intro x hx
    rcases List.mem_append.mp hx with hx | hx
    · exact ih x hx
    · obtain rfl := List.mem_singleton.mp hx
      exact handleScript_whole (before.hasRunner hw₀) prepared run
  | fails _ _ _ ih => exact ih
  | ends _ _ ih => exact ih

namespace Printing

/-! A state with nothing but `print`, and a chunk that calls it. -/

def machine : Lua.Machine :=
  { heap := { tables := #[Lua.Table.set {} printKey (.builtin .print)], cells := #[.table 0] } }

def world : World :=
  { configs := #[{}], diagnostics := #[[]], runners := #[{ language := 0 }]
    states := #[{ config := 0, diagnostics := 0, charset := .utf8, machine, globals := 0 }]
    languages := #[{ config := 0, diagnostics := 0, state := some 0 }] }

def chunk : Value := .text "return print(1)"

/-- There is one state, and the host has taken over its `print`. -/
def isTaken (w : World) : Bool :=
  decide (w.states.size = 1) && (w.states[0]?).any fun s => match s.print with
    | .host 1 => true
    | _ => false

theorem print_of_isTaken (h : isTaken w = true) : w.states.size = 1 ∧ ∀ s, w.states[0]? = some s → s.print = .host 1 := by
  rw [isTaken, Bool.and_eq_true, Option.any_eq_true] at h
  obtain ⟨hsize, s, hs, hprint⟩ := h
  refine ⟨of_decide_eq_true hsize, fun s' hs' => ?_⟩
  obtain rfl := Option.some.inj (hs.symm.trans hs')
  split at hprint
  · assumption
  · contradiction

theorem spares (h : isTaken w = true) (h' : isTaken w' = true) : w.Spares w' := by
  obtain ⟨hsize, hprint⟩ := print_of_isTaken h
  obtain ⟨hsize', hprint'⟩ := print_of_isTaken h'
  refine ⟨fun i s s' hs hs' => ?_, fun i s' hs hs' => ?_⟩
  · have hlt : i < w.states.size := (Array.getElem?_eq_some_iff.mp hs).1
    obtain rfl : i = 0 := by omega
    rw [hprint s hs, hprint' s' hs']
  · have hlt : i < w'.states.size := (Array.getElem?_eq_some_iff.mp hs').1
    have hge : w.states.size ≤ i := Array.getElem?_eq_none_iff.mp hs
    omega

theorem hasRunner : world.HasRunner 0 0 0 := by
  have hbound (r : Runner) (state : Nat) (hr : world.runners[0]? = some r) : r.bound ≠ some state := by
    obtain rfl : r = { language := 0 } := Option.some.inj hr.symm
    exact fun h => nomatch h
  refine ⟨⟨⟨none, rfl⟩, ⟨_, rfl, rfl⟩, Nat.zero_lt_one⟩, fun r state hr hb => absurd hb (hbound r state hr),
    fun i s hs => ?_⟩
  have hmem : s ∈ world.states := Array.mem_of_getElem? hs
  obtain rfl : s = _ := by simpa [world] using hmem
  have hprint : (Lua.Table.set {} printKey (.builtin .print)).get printKey = .builtin .print := Lua.Table.get_set_self
  exact fun h => Lua.Value.noConfusion (hprint.symm.trans h)

theorem prepared : ∃ w, prepare 0 world = some (.ok ⟨⟩, w) ∧ isTaken w = true := by
  have hsucceeds : succeedsWith (fun _ w => isTaken w) (prepare 0 world) = true := by cbv
  obtain ⟨⟨⟩, w, h, htest⟩ := eq_ok_of_succeedsWith hsucceeds
  exact ⟨w, h, htest⟩

set_option maxRecDepth 10000 in
theorem run : ∃ o w, handleScript (engine 2) 0 chunk world = some (.ok o, w) ∧ isTaken w = true ∧
    o.effects.map Effect.message = [("1" : Text)] := by
  have hsucceeds : succeedsWith (fun o w => isTaken w && decide (o.effects.map Effect.message = [("1" : Text)]))
      (handleScript (engine 2) 0 chunk world) = true := by cbv
  obtain ⟨o, w, h, htest⟩ := eq_ok_of_succeedsWith hsucceeds
  rw [Bool.and_eq_true] at htest
  exact ⟨o, w, h, htest.1, of_decide_eq_true htest.2⟩

end Printing

/-- A chunk prints once, and then the language is ended. -/
theorem effects_whole_once : ∃ w₁ o w, Printing.world.HasRunner 0 0 0 ∧
    Sitting (engine 2) 0 Printing.world [⟨Printing.chunk, w₁, o⟩] w ∧ Whole 2 0 0 Printing.chunk w₁ o ∧
      o.effects.map Effect.message = [("1" : Text)] := by
  obtain ⟨w₁, prepared, htaken⟩ := Printing.prepared
  obtain ⟨o, w, run, htaken', hmessages⟩ := Printing.run
  have sitting := (Sitting.start.runs prepared run (Printing.spares htaken htaken')).ends (finish_apply 0 w)
  have whole := effects_whole Printing.hasRunner sitting
  exact ⟨w₁, o, _, Printing.hasRunner, sitting, whole _ (List.mem_singleton_self _), hmessages⟩

end Bridge

end HostedLua
