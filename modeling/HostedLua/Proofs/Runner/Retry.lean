import HostedLua.Proofs.Function.Chunk
import HostedLua.Proofs.Runner.CommandLine
import HostedLua.Proofs.Runner.Mimicry

/-! How often a line is run. A line that is an expression is run as one, and not again unless the run comes to the outcome
of a text that is no chunk. A line that is no expression leaves no trace where it is tried as one, and is run once as
statements if it is a chunk (`evaluate_once`). -/

namespace HostedLua

open Host

namespace Repl

open Bridge World

variable {n id l d state : Nat} {w w' w₁ : World} {s : LuaState} {t : Text} {e : LuaError}

/-! ### What is malformed -/

/-- What is told of an error starts with the status of a text that is no chunk just where the error has this status. -/
theorem isPrefixOf_told (status : ErrorStatus) (rest : Text) :
    (ErrorStatus.badSource.name : Text).isPrefixOf (status.name ++ ": " ++ rest) = decide (status = .badSource) := by
  cases status <;> rfl

/-- An outcome is malformed just where what has been run has given an error of this status. -/
theorem isMalformed_packaged {source result : Value} {o : Outcome} (h : Packaged d source result w (.ok o) w') :
    isMalformed o = true ↔ ∃ e, w.error? result = some e ∧ e.status = .badSource := by
  cases h with
  | success plain =>
    refine ⟨(nomatch ·), fun h => ?_⟩
    obtain ⟨e, he, -⟩ := h
    cases plain.symm.trans he
  | @failure e message line error formatted =>
    obtain ⟨rest, rfl⟩ := formatLuaError_starts formatted
    show (!false && (ErrorStatus.badSource.name : Text).isPrefixOf (e.status.name ++ ": " ++ rest)) = true ↔ _
    rw [isPrefixOf_told, Bool.not_false, Bool.true_and, decide_eq_true_iff]
    refine ⟨fun h => ⟨e, error, h⟩, fun h => ?_⟩
    obtain ⟨e', he', hstatus⟩ := h
    obtain rfl := Option.some.inj (error.symm.trans he')
    exact hstatus

/-! ### Runs of a chunk -/

/-- One run of a chunk from a world in which a runner has prepared: its function is called once, and what that gives is
packaged. -/
def runOnce (E : Engine) (d state : Nat) (s : LuaState) (f : Lua.Func) (t : Text) : Bridge Outcome := do
  package d (.text t) (← called E state s f t)

/-- A world in which a runner has prepared: the record of its language is empty, and the language has an open state. -/
structure Ready (id l d state : Nat) (s : LuaState) (w : World) : Prop extends Bound id l state w where
  runnerOf : w.RunnerOf id l d
  record : w.diagnostics[d]? = some []
  found : w.states[state]? = some s

theorem Ready.isOpen (h : Ready id l d state s w) : s.isOpen = true := (opened_eq h.found).symm.trans h.opened

theorem Ready.withError (h : Ready id l d state s w) (e : LuaError) : Ready id l d state s (w.withError e) :=
  ⟨⟨h.runner, h.entered, h.opened⟩, h.runnerOf.of_eq rfl rfl rfl, h.record, h.found⟩

/-- A runner that prepares leaves such a world. -/
theorem prepare_ready (hw : w.RunnerOf id l d) (prepared : prepare id w = some (.ok ⟨⟩, w₁))
    (entered : (w₁.languageOf l).state = some state) (found : w₁.states[state]? = some s) : Ready id l d state s w₁ := by
  obtain ⟨state', hbound, hw₁, hrecord, -⟩ := prepare_ok hw prepared
  obtain rfl := Option.some.inj (entered.symm.trans hbound.entered)
  exact ⟨hbound, hw₁, hrecord, found⟩

/-- What a record holds does not matter to what prepares. -/
theorem prepare_withEffect (hw : w.RunnerOf id l d) (x : Effect) : prepare id (w.withEffect d x) = prepare id w := by
  have hcleared : Bridge.cleared (w.withEffect d x) d = Bridge.cleared w d := by
    have hrecords : (w.diagnostics.modify d (· ++ [x])).set! d [] = w.diagnostics.set! d [] := by
      refine Array.ext_getElem? fun i => ?_
      rw [Array.set!_eq_setIfInBounds, Array.set!_eq_setIfInBounds, Array.getElem?_setIfInBounds,
        Array.getElem?_setIfInBounds, Array.size_modify, Array.getElem?_modify]
      split_ifs <;> rfl
    exact congrArg (fun ds => ({ w with diagnostics := ds } : World)) hrecords
  have hreported : (w.withEffect d x).RunnerOf id l d := hw.of_eq rfl rfl Array.size_modify
  rw [prepare_eq hreported, hcleared, prepare_eq hw]

/-- A runner that has prepared is prepared. -/
theorem Ready.prepare (h : Ready id l d state s w) : prepare id w = some (.ok ⟨⟩, w) := by
  have hcleared : Bridge.cleared w d = w := by
    have hrecords : w.diagnostics.set! d [] = w.diagnostics := by
      refine Array.ext_getElem? fun i => ?_
      rw [Array.set!_eq_setIfInBounds, Array.getElem?_setIfInBounds]
      split_ifs with hi hlt
      · rw [← hi, h.record]
      · exact absurd h.runnerOf.record (hi ▸ hlt)
      · rfl
    exact congrArg (fun ds => ({ w with diagnostics := ds } : World)) hrecords
  rw [prepare_eq h.runnerOf, hcleared, bindPrint_bound h.toBound]

/-- A chunk is run once. -/
theorem handleScript_compiled {f : Lua.Func} (hw : w.RunnerOf id l d) (prepared : prepare id w = some (.ok ⟨⟩, w₁))
    (ready : Ready id l d state s w₁) (compiled : s.charset.compile t = .ok f) (E : Engine) :
    handleScript E id (.text t) w = runOnce E d state s f t w₁ := by
  rw [handleScript_eq hw, bind_ok prepared]
  exact bind_congr_left (runIn_compiled ready.entered ready.found ready.isOpen compiled E)

/-- What is run of a text that is no chunk is nothing. -/
theorem handleScript_refused (hw : w.RunnerOf id l d) (prepared : prepare id w = some (.ok ⟨⟩, w₁))
    (ready : Ready id l d state s w₁) (refused : s.charset.compile t = .error e) (E : Engine) :
    handleScript E id (.text t) w = package d (.text t) (.obj w₁.objects.size) (w₁.withError e) := by
  rw [handleScript_eq hw, bind_ok prepared]
  exact bind_ok (runIn_refused ready.entered ready.found ready.isOpen refused E)

theorem error?_withError (w : World) (e : LuaError) : (w.withError e).error? (.obj w.objects.size) = some e := by
  rw [error?, World.withError, Array.getElem?_push_size]

theorem package_told {source v : Value} {told : Text × Option Int} (he : w.error? v = some e)
    (formatted : formatLuaError e source w = some (.ok told, w)) :
    ∃ o, package d source v w = some (.ok o, w.withEffect d (.report told.1)) :=
  ⟨_, (package_error he).trans (bind_ok formatted)⟩

/-- However a refusal is told, no state changes. -/
theorem package_refused (d : Nat) (source : Value) (w : World) (e : LuaError) :
    ∃ r w', package d source (.obj w.objects.size) (w.withError e) = some (r, w') ∧ w'.states = w.states := by
  obtain ⟨f | told, hformat⟩ := (reads_formatLuaError e source).total (w.withError e)
  · exact ⟨.error f, _, (package_error (error?_withError w e)).trans (bind_error hformat), rfl⟩
  · obtain ⟨o, h⟩ := package_told (d := d) (error?_withError w e) hformat
    exact ⟨_, _, h, rfl⟩

/-! ### Running a line -/

variable {line : Text} {E : Engine} {o : Outcome}

/-- A line is run as statements where the attempt to run it as an expression is malformed. -/
theorem evaluate_malformed (first : handleScript E id (.text ("return " ++ line)) w = some (.ok o, w'))
    (h : isMalformed o = true) : evaluate E id line w = handleScript E id (.text line) w' := by
  rw [evaluate_eq, bind_ok first, if_pos h]

theorem evaluate_sound (first : handleScript E id (.text ("return " ++ line)) w = some (.ok o, w'))
    (h : ¬ isMalformed o = true) : evaluate E id line w = some (.ok o, w') := by
  rw [evaluate_eq, bind_ok first, if_neg h]
  rfl

/-- A line that is an expression is run as one, and not as statements, unless its code comes to the outcome of a text that
is no chunk. -/
theorem evaluate_expression {f : Lua.Func} (hw : w.RunnerOf id l d) (prepared : prepare id w = some (.ok ⟨⟩, w₁))
    (ready : Ready id l d state s w₁) (compiled : s.charset.compile ("return " ++ line) = .ok f)
    (h : ¬ Mimics (engine (n + 1)) state s.chunkProg (w₁.loaded state s f ("return " ++ line))) :
    evaluate (engine (n + 1)) id line w = runOnce (engine (n + 1)) d state s f ("return " ++ line) w₁ := by
  have hrun := handleScript_compiled hw prepared ready compiled (engine (n + 1))
  cases honce : runOnce (engine (n + 1)) d state s f ("return " ++ line) w₁ with
  | none => rw [evaluate_eq, bind_none (hrun.trans honce)]
  | some p =>
    obtain ⟨f | o, v⟩ := p
    · rw [evaluate_eq, bind_error (hrun.trans honce)]
    · refine evaluate_sound (hrun.trans honce) ?_
      obtain ⟨result, u, hcalled, hpackage⟩ := bind_some_ok honce
      rw [isMalformed_packaged (package_some hpackage)]
      rintro ⟨e, he, hstatus⟩
      obtain ⟨⟨r, u₁⟩, houtcome, heq⟩ := Option.map_eq_some_iff.mp hcalled
      obtain ⟨rfl, rfl⟩ := Prod.mk.inj heq
      exact h (outcome_badSource houtcome he hstatus)

/-- Where the code of a line that is an expression comes to this outcome, and it can be told, the line is run again. -/
theorem evaluate_again {f : Lua.Func} {v : World} (hw : w.RunnerOf id l d) (prepared : prepare id w = some (.ok ⟨⟩, w₁))
    (ready : Ready id l d state s w₁) (compiled : s.charset.compile ("return " ++ line) = .ok f)
    (h : Mimics E state s.chunkProg (w₁.loaded state s f ("return " ++ line)))
    (first : runOnce E d state s f ("return " ++ line) w₁ = some (.ok o, v)) :
    evaluate E id line w = handleScript E id (.text line) v := by
  refine evaluate_malformed ((handleScript_compiled hw prepared ready compiled E).trans first) ?_
  obtain ⟨e, result, u, houtcome, he, hstatus⟩ := h.outcome
  obtain ⟨result', u', hcalled, hpackage⟩ := bind_some_ok first
  have hcalled' : called E state s f ("return " ++ line) w₁ = some (.ok result, u.release w₁) := by
    rw [called, houtcome]
    rfl
  obtain ⟨rfl, rfl⟩ := ok_inj (hcalled'.symm.trans hcalled)
  exact (isMalformed_packaged (package_some hpackage)).mpr ⟨e, he, hstatus⟩

/-- Where a line that can be written is no expression, the error says so and can be told. -/
theorem refusal_told {cs : Charset} {b : Bytes} (refused : cs.compile ("return " ++ line) = .error e)
    (written : cs.encodeEscaped line = .ok b) (few : line.chunkLines.length < 10 ^ Integer.maxDigits) (source : Value)
    (w : World) : e.status = .badSource ∧ ∃ told, formatLuaError e source w = some (.ok told, w) := by
  have hinner : ∀ x ∈ Bytes.ofString "return ", Lua.Lexeme.Inner x := by simp [Bytes.ofString, Lua.Lexeme.Inner]
  rw [Charset.compile, Charset.encodeEscaped_return written] at refused
  dsimp only at refused
  cases parsed : Lua.Chunk.parse (.ofString "return " ++ b) with
  | ok f =>
    rw [parsed] at refused
    cases refused
  | error m =>
    rw [parsed] at refused
    obtain rfl := Except.error.inj refused
    have hnames := Lua.Chunk.parse_names parsed
    rw [Lua.Lexeme.breaks_append hinner, Nat.add_comm, ← Charset.length_chunkLines written] at hnames
    exact ⟨rfl, formatLuaError_refusal hnames few cs .badSource source w⟩

/-- A line that is no expression but a chunk is run once as statements. Nothing is left of the attempt to run it as an
expression but an error that nothing leads to. -/
theorem evaluate_statements {f : Lua.Func} (hw : w.RunnerOf id l d) (prepared : prepare id w = some (.ok ⟨⟩, w₁))
    (ready : Ready id l d state s w₁) (few : line.chunkLines.length < 10 ^ Integer.maxDigits)
    (refused : s.charset.compile ("return " ++ line) = .error e) (compiled : s.charset.compile line = .ok f) (E : Engine) :
    evaluate E id line w = runOnce E d state s f line (w₁.withError e) := by
  obtain ⟨b, written, -⟩ := Charset.compile_eq_ok.mp compiled
  obtain ⟨hstatus, told, formatted⟩ := refusal_told refused written few (.text ("return " ++ line)) (w₁.withError e)
  obtain ⟨o, hpackage⟩ := package_told (d := d) (error?_withError w₁ e) formatted
  have hmalformed := (isMalformed_packaged (package_some hpackage)).mpr ⟨e, error?_withError w₁ e, hstatus⟩
  have hfirst := (handleScript_refused hw prepared ready refused E).trans hpackage
  have hready := ready.withError e
  have hreported := (package_some hpackage).runnerOf hready.runnerOf
  have hagain := handleScript_compiled hreported ((prepare_withEffect hready.runnerOf _).trans hready.prepare) hready
    compiled E
  exact (evaluate_malformed hfirst hmalformed).trans hagain

/-- A line that is no chunk comes to the same whatever the engine is, and no state changes. -/
theorem evaluate_refused {e' : LuaError} (hw : w.RunnerOf id l d) (prepared : prepare id w = some (.ok ⟨⟩, w₁))
    (ready : Ready id l d state s w₁) (refused : s.charset.compile ("return " ++ line) = .error e)
    (refused' : s.charset.compile line = .error e') :
    ∃ r w', w'.states = w₁.states ∧ ∀ E, evaluate E id line w = some (r, w') := by
  obtain ⟨r, v, hpackage, hstates⟩ := package_refused d (.text ("return " ++ line)) w₁ e
  have hfirst (E : Engine) := (handleScript_refused hw prepared ready refused E).trans hpackage
  cases r with
  | error f => exact ⟨.error f, v, hstates, fun E => by rw [evaluate_eq, bind_error (hfirst E)]⟩
  | ok o =>
    by_cases hmalformed : isMalformed o = true
    · cases package_some hpackage with
      | success plain => cases hmalformed
      | @failure _ message _ error formatted =>
        have hready := ready.withError e
        have hreported := (package_some hpackage).runnerOf hready.runnerOf
        obtain ⟨r, v, hpackage', hstates⟩ := package_refused d (.text line) (w₁.withError e) e'
        have hprepared := (prepare_withEffect hready.runnerOf (.report message)).trans hready.prepare
        exact ⟨r, v, hstates, fun E => (evaluate_malformed (hfirst E) hmalformed).trans
          ((handleScript_refused hreported hprepared hready refused' E).trans hpackage')⟩
    · exact ⟨.ok o, v, hstates, fun E => evaluate_sound (hfirst E) hmalformed⟩

namespace Counting

/-! A line that calls a function that counts its calls, tells how many there have been, and gives an error of the status of
a text that is no chunk: the class of errors is found where the captured `print` was made. -/

def text : Text := "f()"

def global (name : String) : Lua.Expr := .index 1 (.var .outer 0 (.ofString "_ENV")) (.str (.ofString name))

def field (e : Lua.Expr) (name : String) : Lua.Expr := .index 1 e (.str (.ofString name))

def counter : Lua.Func := .mk 1 0 .dropped
  [.assign 1 [global "n"] [.binary 1 .add (.paren (.or (global "n") (.num (.int 0)))) (.num (.int 1))],
    .call (.call 1 (global "print") [global "n"]),
    .retCall (.call 1 (field (field (global "print") "__globals__") "LuaError") [.num (.int 3)])]

def machine : Lua.Machine :=
  { heap :=
      { tables := #[(Lua.Table.set {} printKey (.builtin .print)).set (.str (.ofString "f")) (.closure 0)]
        cells := #[.table 0], closures := #[⟨counter, [0]⟩] } }

def world : World :=
  { Bridge.Printing.world with states := #[{ config := 0, diagnostics := 0, charset := .utf8, machine, globals := 0 }] }

/-- The line as an expression, and as a statement. -/
def expression : Lua.Func := .mk 0 0 .kept [.retCall (.call 1 (global "f") [])]

def statement : Lua.Func := .mk 0 0 .kept [.call (.call 1 (global "f") [])]

theorem compile_expression : Charset.utf8.compile ("return " ++ text) = .ok expression := by
  have written : Charset.utf8.encodeEscaped ("return " ++ text) = .ok (.ofString "return f()") := by decide +kernel
  have parsed : Lua.Chunk.parse (.ofString "return f()") = .ok expression := by with_unfolding_all rfl
  exact Charset.compile_eq_ok.mpr ⟨_, written, parsed⟩

theorem compile_statement : Charset.utf8.compile text = .ok statement := by
  have written : Charset.utf8.encodeEscaped text = .ok (.ofString "f()") := by decide +kernel
  have parsed : Lua.Chunk.parse (.ofString "f()") = .ok statement := by with_unfolding_all rfl
  exact Charset.compile_eq_ok.mpr ⟨_, written, parsed⟩

/-- The call of the function of a chunk in the state of the language, whose strings are UTF-8. -/
def runs (f : Lua.Func) (t : Text) : Bridge Value := do
  match (← language 0).state with
  | some i =>
    match ← state? i with
    | some s => if s.charset = .utf8 then called (engine 2) i s f t else diverge
    | none => diverge
  | none => diverge

theorem runs_some {f : Lua.Func} {t : Text} {v : Value} (h : runs f t w = some (.ok v, w')) : ∃ state s,
    (w.languageOf 0).state = some state ∧ w.states[state]? = some s ∧ s.charset = .utf8 ∧
      called (engine 2) state s f t w = some (.ok v, w') := by
  rw [runs, bind_ok (language_apply 0 w)] at h
  cases hstate : (w.languageOf 0).state with
  | none =>
    rw [hstate] at h
    cases h
  | some i =>
    rw [hstate] at h
    dsimp only at h
    rw [bind_ok (state?_apply i w)] at h
    cases hs : w.states[i]? with
    | none =>
      rw [hs] at h
      cases h
    | some s =>
      rw [hs] at h
      dsimp only at h
      split_ifs at h with hcharset
      · exact ⟨i, s, rfl, hs, hcharset, h⟩
      · cases h

/-- The runner prepares, and the call is made. -/
def afresh (f : Lua.Func) (t : Text) : Bridge Value := do
  prepare 0
  runs f t

/-- The line is run as an expression and as a statement. -/
def both : Bridge (Option LuaError × Value) := do
  let v ← afresh expression ("return " ++ text)
  let w ← get
  let u ← afresh statement text
  return (w.error? v, u)

set_option maxRecDepth 10000 in
theorem both_run : ∃ r w, both world = some (.ok r, w) ∧ r.1 = some ⟨.badSource, []⟩ ∧ w.error? r.2 = none ∧
    ((w.diagnostics[0]?).getD []).map Effect.message = [("2" : Text)] := by
  have hsucceeds : succeedsWith (fun (r : Option LuaError × Value) w => decide (r.1 = some ⟨.badSource, []⟩) &&
      decide (w.error? r.2 = none) && decide (((w.diagnostics[0]?).getD []).map Effect.message = [("2" : Text)]))
      (both world) = true := by cbv
  obtain ⟨r, w, h, htest⟩ := eq_ok_of_succeedsWith hsucceeds
  rw [Bool.and_eq_true, Bool.and_eq_true, decide_eq_true_iff, decide_eq_true_iff, decide_eq_true_iff] at htest
  exact ⟨r, w, h, htest.1.1, htest.1.2, htest.2⟩

/-- Another line, which is only a statement. -/
theorem compile_assignment : (∃ e, Charset.utf8.compile ("return " ++ "n=1") = .error e) ∧
    ∃ f, Charset.utf8.compile "n=1" = .ok f := by
  have written : Charset.utf8.encodeEscaped "n=1" = .ok (.ofString "n=1") := by decide +kernel
  have parsed : Lua.Chunk.parse (.ofString "n=1") = .ok (.mk 0 0 .kept [.assign 1 [global "n"] [.num (.int 1)]]) := by
    with_unfolding_all rfl
  have written' : Charset.utf8.encodeEscaped ("return " ++ "n=1") = .ok (.ofString "return n=1") := by decide +kernel
  have refused : Lua.Chunk.parse (.ofString "return n=1") =
      .error ⟨1, .ofString "<eof> expected", some (.ofString "'='")⟩ := by with_unfolding_all rfl
  refine ⟨?_, _, Charset.compile_eq_ok.mpr ⟨_, written, parsed⟩⟩
  rw [Charset.compile, written']
  dsimp only
  rw [refused]
  exact ⟨_, rfl⟩

def number : Lua.Func := .mk 0 0 .kept [.ret [.num (.int 1)]]

theorem compile_number : Charset.utf8.compile ("return " ++ "1") = .ok number := by
  have written : Charset.utf8.encodeEscaped ("return " ++ "1") = .ok (.ofString "return 1") := by decide +kernel
  have parsed : Lua.Chunk.parse (.ofString "return 1") = .ok number := by with_unfolding_all rfl
  exact Charset.compile_eq_ok.mpr ⟨_, written, parsed⟩

theorem number_run : ∃ v w, afresh number ("return " ++ "1") world = some (.ok v, w) ∧ w.error? v = none := by
  have hsucceeds : succeedsWith (fun v w => decide (w.error? v = none)) (afresh number ("return " ++ "1") world) = true := by
    cbv
  obtain ⟨v, w, h, hplain⟩ := eq_ok_of_succeedsWith hsucceeds
  exact ⟨v, w, h, of_decide_eq_true hplain⟩

theorem number_not_mimics (prepared : prepare 0 world = some (.ok ⟨⟩, w₁)) (entered : (w₁.languageOf 0).state = some state)
    (found : w₁.states[state]? = some s) :
    ¬ Mimics (engine 2) state s.chunkProg (w₁.loaded state s number ("return " ++ "1")) := by
  intro h
  obtain ⟨e, result, u, houtcome, he, -⟩ := h.outcome
  obtain ⟨v, w', hrun, hplain⟩ := number_run
  rw [afresh, bind_ok prepared] at hrun
  obtain ⟨state', s', entered', found', -, hcalled⟩ := runs_some hrun
  obtain rfl := Option.some.inj (entered.symm.trans entered')
  obtain rfl := Option.some.inj (found.symm.trans found')
  have hcalled' : called (engine 2) state s number ("return " ++ "1") w₁ = some (.ok result, u.release w₁) := by
    rw [called, houtcome]
    rfl
  obtain ⟨rfl, rfl⟩ := ok_inj (hcalled'.symm.trans hcalled)
  cases hplain.symm.trans he

theorem runnerOf : world.RunnerOf 0 0 0 := ⟨⟨none, rfl⟩, ⟨_, rfl, rfl⟩, Nat.zero_lt_one⟩

theorem prepared : ∃ w₁ state s, prepare 0 world = some (.ok ⟨⟩, w₁) ∧ (w₁.languageOf 0).state = some state ∧
    w₁.states[state]? = some s ∧ s.charset = .utf8 := by
  obtain ⟨r, w', hboth, -⟩ := both_run
  obtain ⟨v, u₁, hfirst, -⟩ := bind_some_ok hboth
  obtain ⟨⟨⟩, w₁, prepared, hfirst⟩ := bind_some_ok hfirst
  obtain ⟨state, s, entered, found, hcharset, -⟩ := runs_some hfirst
  exact ⟨w₁, state, s, prepared, entered, found, hcharset⟩

end Counting

end Repl

end HostedLua
