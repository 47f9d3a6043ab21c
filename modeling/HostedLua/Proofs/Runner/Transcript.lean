import HostedLua.Proofs.Evolution.Engine

/-! What a record of side effects is told. A computation of the host runs on an engine, which it asks to run Lua code and
to call callbacks. What it does on its own comes to the same whatever the engine is, so that a run is taken apart into
what the engine is asked and stretches in which it is not. What a program tells is put together of what the host is asked
on the way, and what a call of `print` tells is the printed text. -/

namespace HostedLua

open Host

inductive Ask : Type → Type where
  | run (state : Nat) (p : Lua.Prog) : Ask (Except Lua.Thrown (List Lua.Value))
  | callback (c : Callback) (args : List Value) : Ask Value

def Engine.serve (E : Engine) {β : Type} : Ask β → Bridge β
  | .run state p => E.run state p
  | .callback c args => E.callback c args

namespace World

variable {w w' w'' : World} {d : Nat} {es es' : List Effect}

def HasRecord (d : Nat) (w : World) : Prop := d < w.diagnostics.size

/-- Side effects are added to a record. -/
def Gains (w : World) (d : Nat) (es : List Effect) (w' : World) : Prop :=
  w'.diagnostics[d]? = (w.diagnostics[d]?).map (· ++ es)

theorem Gains.of_eq (h : w'.diagnostics = w.diagnostics) : w.Gains d [] w' := by
  rw [Gains, h]
  cases w.diagnostics[d]? <;> simp

theorem Gains.refl (w : World) : w.Gains d [] w := .of_eq rfl

theorem Gains.trans (h : w.Gains d es w') (h' : w'.Gains d es' w'') : w.Gains d (es ++ es') w'' := by
  rw [Gains, h', h]
  cases w.diagnostics[d]? <;> simp

theorem Gains.effect (w : World) (d : Nat) (e : Effect) : w.Gains d [e] (w.withEffect d e) := by
  rw [Gains, withEffect, Array.getElem?_modify, if_pos rfl]

/-- Nothing is added to a record by what is added to another one. -/
theorem Gains.other {c : Nat} (h : c ≠ d) (w : World) (e : Effect) : w.Gains d [] (w.withEffect c e) := by
  rw [Gains, withEffect, Array.getElem?_modify, if_neg h]
  cases w.diagnostics[d]? <;> simp

theorem Gains.withMachine (w : World) (state : Nat) (m : Lua.Machine) : w.Gains d [] (w.withMachine state m) :=
  .of_eq rfl

end World

/-- An account of what a record is told by what an engine does: when it is asked something in a world, what is told, what
comes of it, and the world that it comes to. -/
abbrev Account := (β : Type) → Ask β → World → List Effect → Except Fault β → World → Prop

/-- What a record is told while a computation runs on an engine. -/
inductive Transcript (d : Nat) (A : Account) {α : Type} :
    (Engine → Bridge α) → World → List Effect → Except Fault α → World → Prop where
  /-- The engine is not asked any more: the computation comes to its end whatever the engine is. Only reports are made. -/
  | ends {x : Engine → Bridge α} {w w' : World} {r : Except Fault α} {m : List Text}
    (same : ∀ E, x E w = some (r, w')) (gains : w.Gains d (m.map .report) w') :
    Transcript d A x w (m.map .report) r w'
  /-- The engine is asked, whatever it is, and the computation goes on with what comes of that. Until then only reports
  are made. -/
  | asks {x : Engine → Bridge α} {β : Type} {q : Ask β} {k : Except Fault β → Engine → Bridge α} {w u v w' : World}
    {a : Except Fault β} {r : Except Fault α} {m : List Text} {es es' : List Effect}
    (same : ∀ E, x E w = (E.serve q u).bind fun z => k z.1 E z.2) (gains : w.Gains d (m.map .report) u)
    (asked : A β q u es a v) (rest : Transcript d A (k a) v es' r w') :
    Transcript d A x w (m.map .report ++ es ++ es') r w'

/-- What a record is told while a machine of a state goes on: only the answers of the host tell something. -/
inductive Said (d : Nat) (A : Account) (state : Nat) :
    World × Lua.Machine → List Effect → World × Lua.Machine → Prop where
  | refl (p : World × Lua.Machine) : Said d A state p [] p
  | steps {w : World} {m m' : Lua.Machine} {p : World × Lua.Machine} {es : List Effect} (step : m.step = .inl m')
    (rest : Said d A state (w, m') es p) : Said d A state (w, m) es p
  | answered {w v : World} {m m' : Lua.Machine} {q : Lua.Request} {a : Except Lua.Value (List Lua.Value)}
    {s : LuaState} {p : World × Lua.Machine} {es es' : List Effect} (step : m.step = .inr (m', .asks q))
    (reply : Transcript d A (fun E => Bridge.reply E state q) (w.withMachine state m') es (.ok a) v)
    (found : v.states[state]? = some s) (rest : Said d A state (v, s.machine.answer a) es' p) :
    Said d A state (w, m) (es ++ es') p

/-- What a record is told by what an engine does, by an account of what the engine does that it runs on. A call of what
`print` has been made for the record tells, after all that is told while the texts of the arguments are made, what is
printed; if a text cannot be made, nothing is printed. -/
inductive Heard (d : Nat) (A : Account) : Account where
  | run {state : Nat} {p : Lua.Prog} {w v : World} {s : LuaState} {m m' : Lua.Machine} {es : List Effect}
    {a : Except Lua.Thrown (List Lua.Value)} (found : w.states[state]? = some s)
    (said : Said d A state (w, s.machine.enter p) es (v, m)) (done : m.step = .inr (m', .done a)) :
    Heard d A _ (.run state p) w es (.ok a) (v.withMachine state m')
  | prints {args : List Value} {w v : World} {es : List Effect} {parts : List Text}
    (texts : Transcript d A (fun E => args.mapM (Bridge.printText E)) w es (.ok parts) v) :
    Heard d A _ (.callback (.capture d) args) w (es ++ [.printed parts]) (.ok .none) (v.withEffect d (.printed parts))
  | fails {args : List Value} {w v : World} {es : List Effect} {f : Fault}
    (texts : Transcript d A (fun E => args.mapM (Bridge.printText E)) w es (.error f) v) :
    Heard d A _ (.callback (.capture d) args) w es (.error f) v
  | calls {c : Callback} {args : List Value} {w w' : World} {es : List Effect} {r : Except Fault Value}
    (other : c ≠ .capture d) (told : Transcript d A (fun E => Bridge.runCallback E c args) w es r w') :
    Heard d A _ (.callback c args) w es r w'

/-- What the engine tells that lets calls nest to a depth. Nothing is told where calls nest too deep. -/
def heard (d : Nat) : (depth : Nat) → Account
  | 0 => fun _ q w es r w' => es = [] ∧ w' = w ∧ (Bridge.engine 0).serve q w = some (r, w)
  | depth + 1 => Heard d (heard d depth)

namespace Account

/-- An account of what a record is told says what is added to it. -/
def Gains (A : Account) (d : Nat) : Prop :=
  ∀ ⦃β : Type⦄ ⦃q : Ask β⦄ ⦃w : World⦄ ⦃es : List Effect⦄ ⦃r : Except Fault β⦄ ⦃w' : World⦄,
    A β q w es r w' → w.Gains d es w'

/-- An account knows what a record is told, whatever an engine is asked. -/
def Knows (A : Account) (d : Nat) (E : Engine) : Prop :=
  ∀ ⦃β : Type⦄ (q : Ask β) ⦃w : World⦄ ⦃r : Except Fault β⦄ ⦃w' : World⦄, w.HasRecord d →
    E.serve q w = some (r, w') → w'.HasRecord d ∧ ∃ es, A β q w es r w'

end Account

variable {d state : Nat} {A : Account} {α β : Type} {w u v w' : World} {es es' : List Effect}

/-! ### What is told is added to the record -/

theorem Transcript.gains {x : Engine → Bridge α} {r : Except Fault α} (hA : A.Gains d)
    (h : Transcript d A x w es r w') : w.Gains d es w' := by
  induction h with
  | ends _ gains => exact gains
  | asks _ gains asked _ ih => exact (gains.trans (hA asked)).trans ih

theorem Said.gains {p q : World × Lua.Machine} (hA : A.Gains d) (h : Said d A state p es q) : p.1.Gains d es q.1 := by
  induction h with
  | refl p => exact .refl p.1
  | steps _ _ ih => exact ih
  | @answered w v m m' q a s p es es' _ reply _ _ ih =>
    have hw := World.Gains.withMachine (d := d) w state m'
    exact (hw.trans (reply.gains hA)).trans ih

theorem Heard.gains (hA : A.Gains d) : (Account.Gains (Heard d A) d) := by
  intro β q w es r w' h
  cases h with
  | @run state _ _ v _ _ m' es _ _ said _ =>
    have h := (said.gains hA).trans (.withMachine v state m')
    rwa [List.append_nil] at h
  | prints texts => exact (texts.gains hA).trans (.effect _ _ _)
  | fails texts => exact texts.gains hA
  | calls _ told => exact told.gains hA

theorem heard_gains (d depth : Nat) : (heard d depth).Gains d := by
  induction depth with
  | zero =>
    rintro β q w es r w' ⟨rfl, rfl, -⟩
    exact .refl w'
  | succ depth ih => exact Heard.gains ih

/-! ### Putting together what is told -/

theorem Transcript.silent {x : Engine → Bridge α} {r : Except Fault α} (same : ∀ E, x E w = some (r, w'))
    (gains : w.Gains d [] w') : Transcript d A x w [] r w' :=
  .ends (m := []) same gains

/-- Reports come before what is told. -/
theorem Transcript.after {x y : Engine → Bridge α} {r : Except Fault α} {m : List Text}
    (same : ∀ E, y E w = x E v) (gains : w.Gains d (m.map .report) v) (h : Transcript d A x v es r w') :
    Transcript d A y w (m.map .report ++ es) r w' := by
  cases h with
  | ends same' gains' =>
    rw [← List.map_append]
    refine .ends (fun E => (same E).trans (same' E)) ?_
    rw [List.map_append]
    exact gains.trans gains'
  | asks same' gains' asked rest =>
    rw [← List.append_assoc, ← List.append_assoc, ← List.map_append]
    refine .asks (fun E => (same E).trans (same' E)) ?_ asked rest
    rw [List.map_append]
    exact gains.trans gains'

/-- What a computation tells comes before what is told by how it goes on. -/
theorem Transcript.seq {x : Engine → Bridge α} {y : Engine → Bridge β} {k : Except Fault α → Engine → Bridge β}
    {r : Except Fault α} {r' : Except Fault β} (same : ∀ E, y E w = (x E w).bind fun z => k z.1 E z.2)
    (h : Transcript d A x w es r v) (rest : Transcript d A (k r) v es' r' w') :
    Transcript d A y w (es ++ es') r' w' := by
  induction h generalizing y with
  | ends same' gains =>
    refine rest.after (fun E => ?_) gains
    rw [same, same', Option.bind_some]
  | @asks _ _ _ k' _ _ _ _ _ _ _ _ _ same' gains asked _ ih =>
    rw [List.append_assoc]
    refine .asks (k := fun a E v => (k' a E v).bind fun z => k z.1 E z.2) (fun E => ?_) gains asked
      (ih (fun E => rfl) rest)
    rw [same, same', Option.bind_assoc]

end HostedLua
