import HostedLua.Repl
import HostedLua.Proofs.Runner.Effects

/-! What the command line writes to the output. A file is run once, and what Lua has printed is written whatever the
outcome. A line that is read is tried as an expression and, where it is none, as statements; what Lua has printed is
written where the last of these runs succeeds, and before the next prompt. Where it fails, only the complaint is written,
so that what has been printed by then is lost. -/

namespace HostedLua

open Host

namespace Bridge

variable {I : World → Prop} {R : World → World → Prop} [Admits I R] {E : Engine}

/-- What follows an attempt goes on with whatever has come of it. -/
theorem bind_attempt {α β : Type} {x : Bridge α} {f : Except Fault α → Bridge β} {r : Except Fault β} {w w' : World}
    (h : (attempt x >>= f) w = some (r, w')) : ∃ a v, x w = some (a, v) ∧ f a v = some (r, w') := by
  rcases bind_some h with ⟨e, he, -⟩ | ⟨a, v, ha, hrest⟩
  · obtain ⟨a, he, -⟩ := attempt_some he
    cases he
  · obtain ⟨a', ha', hx⟩ := attempt_some ha
    obtain rfl := Except.ok.inj ha'
    exact ⟨a, v, hx, hrest⟩

/-! ### What showing a value keeps -/

def entryText (shownKey shownValue : Value → Bridge Text) (k v : Value) : Bridge Text := do
  let bracketed : Bridge Text := do return "[" ++ (← shownKey k) ++ "]"
  let key ← match k with
    | .text t => if Printer.isName t then pure t else bracketed
    | _ => bracketed
  return key ++ " = " ++ (← shownValue v)

theorem keeps_entryText {shownKey shownValue : Value → Bridge Text} (hkey : ∀ k, Keeps I R (shownKey k))
    (hvalue : ∀ v, Keeps I R (shownValue v)) (k v : Value) : Keeps I R (entryText shownKey shownValue k v) := by
  have hbracketed := (hkey k).bind fun t => Keeps.pure ("[" ++ t ++ "]" : Text)
  have hentry (key : Text) := (hvalue v).bind fun t => Keeps.pure (key ++ " = " ++ t)
  cases k with
  | text t =>
    dsimp only [entryText]
    split
    · exact hentry t
    · exact hbracketed.bind hentry
  | _ => exact hbracketed.bind hentry

theorem keeps_entriesWithin (hE : EngineKeeps I R E) (room : Room) (h : Handle) :
    Keeps I R (Printer.entriesWithin E room h) := by
  unfold Printer.entriesWithin
  split
  · exact (keeps_reportTo _ _).bind fun _ => .pure _
  · exact keeps_toMapping hE h

theorem keeps_formatAt (hE : EngineKeeps I R E) (p : Printer) (l : Limits) (fuel : Nat) (path : Path) (level : Int)
    (v : Value) : Keeps I R (p.formatAt l E fuel path level v) := by
  induction fuel generalizing path level v with
  | zero => exact .raise _ _
  | succ fuel ih =>
    have hparts (link : Link) (level : Int) (vs : List Value) :
        Keeps I R (vs.zipIdx.mapM fun q => p.formatAt l E fuel ((link, q.2) :: path) level q.1) :=
      .mapM (fun q : Value × Nat => ih _ level q.1) _
    have hentries (inTable : Bool) (ps : List (Value × Value)) :
        Keeps I R (ps.zipIdx.mapM fun q => entryText (p.formatAt l E fuel ((.key inTable, q.2) :: path) (level + 1))
          (p.formatAt l E fuel ((.value inTable, q.2) :: path) (level + 1)) q.1.1 q.1.2) :=
      .mapM (fun q : (Value × Value) × Nat => keeps_entryText (ih _ (level + 1)) (ih _ (level + 1)) q.1.1 q.1.2) _
    unfold Printer.formatAt
    extract_lets parts entries room
    split
    · exact .raise _ _
    cases v with
    | obj id =>
      refine (keeps_object id).bind fun o => ?_
      cases o with
      | tuple vs => exact (hparts .part level vs).bind fun ts => .pure _
      | list vs => exact (hparts .item (level + 1) vs).bind fun ts => .pure _
      | dict ps => exact (hentries false ps).bind fun ts => .pure _
      | proxy ps => exact (hentries false ps).bind fun ts => .pure _
      | badItems text => exact .raise _ _
      | error e isSub => exact .pure _
      | handle h =>
        dsimp only
        split
        · refine (keeps_isValid h).bind fun valid => ?_
          split
          · exact keeps_handleText hE id h
          · split
            · exact .pure _
            · exact (keeps_entriesWithin hE room h).bind fun ps => (hentries true ps).bind fun ts => .pure _
        · exact keeps_handleText hE id h
      | _ => exact keeps_repr hE _
    | member m => exact keeps_repr hE _
    | int i => exact keeps_intText i
    | _ => exact .pure _

theorem keeps_format (hE : EngineKeeps I R E) (p : Printer) (v : Value) (level : Int) :
    Keeps I R (p.format E v level) :=
  Keeps.get.bind fun _ => keeps_formatAt hE p _ _ _ level v

end Bridge

namespace Repl

open Bridge World

variable {n id l d : Nat} {w w' v start : World} {es : List Effect} {t : Text}

/-! ### Runs of chunks -/

/-- What is to be written of what has been told: a line for each call of `print`. -/
def written (es : List Effect) : Text := es.flatMap fun e =>
  match e.topics with
  | [.text t] => if t = ("stdout" : Text) then e.message ++ "\n" else []
  | _ => []

/-- A run of a chunk for a runner: the source, the world that it was given in, what it told while it ran, how the run
ended, and the world that it left. -/
structure Run where
  source : Text
  before : World
  told : List Effect
  result : Except Fault Outcome
  after : World

def Run.printed (x : Run) : Text := written x.told

def Run.Succeeds (x : Run) : Prop := ∃ o, x.result = .ok o ∧ o.success = true

/-- How a chunk starts: the runner has prepared. The record is empty and, unless somebody has assigned to `print` before,
the `print` of the state that the chunk is to run in leads to it. -/
structure Starts (id l d : Nat) (w start : World) : Prop where
  prepared : prepare id w = some (.ok ⟨⟩, start)
  cleared : start.diagnostics[d]? = some []
  captures : w.HasRunner id l d → ∃ state, Bound id l state start ∧ start.Captures d state

/-- What a chunk tells while it runs. It does not run where the runner cannot prepare. -/
inductive Tells (n id l d : Nat) (source : Text) (w : World) : List Effect → Prop where
  | unprepared {f : Fault} {w' : World} (fails : prepare id w = some (.error f, w')) : Tells n id l d source w []
  | runs {start v : World} {es : List Effect} {r : Except Fault Value} (starts : Starts id l d w start)
    (run : runIn (engine n) l (.text source) start = some (r, v))
    (told : Transcript d (heard d n) (fun E => runIn E l (.text source)) start es r v) : Tells n id l d source w es

/-- A run that a runner has made. -/
structure Run.Made (n id l d : Nat) (x : Run) : Prop where
  runnerOf : x.before.RunnerOf id l d
  run : handleScript (engine n) id (.text x.source) x.before = some (x.result, x.after)
  told : Tells n id l d x.source x.before x.told

theorem starts (hw : w.RunnerOf id l d) (h : prepare id w = some (.ok ⟨⟩, start)) : Starts id l d w start := by
  obtain ⟨state, hbound, -, hcleared, hcaptures⟩ := prepare_ok hw h
  exact ⟨h, hcleared, fun hw => ⟨state, hbound, (hcaptures hw).2⟩⟩

/-- Whenever a runner has run a chunk, the chunk has told something, and the runner can go on. -/
theorem made {r : Except Fault Outcome} (hw : w.RunnerOf id l d)
    (h : handleScript (engine n) id (.text t) w = some (r, w')) :
    w'.RunnerOf id l d ∧ ∃ es, Run.Made n id l d ⟨t, w, es, r, w'⟩ := by
  have hran {r : Except Fault Value} {w₁ v : World} (hprepare : prepare id w = some (.ok ⟨⟩, w₁))
      (hrun : runIn (engine n) l (.text t) w₁ = some (r, v)) : v.RunnerOf id l d ∧ ∃ es, Tells n id l d t w es := by
    obtain ⟨-, -, hw₁, hcleared, -⟩ := prepare_ok hw hprepare
    obtain ⟨es, told, -⟩ := runIn_told hw₁.record hcleared hrun
    exact ⟨runnerOf_runIn hw₁ hrun, es, .runs (starts hw hprepare) hrun told⟩
  rcases handleScript_some hw h with ⟨f, hf, -⟩ | ⟨w₁, hprepare, ⟨f, hf, -⟩ | ⟨result, v, hrun, hpackage⟩⟩
  · exact ⟨(prepare_error hw hf).1, [], hw, h, .unprepared hf⟩
  · obtain ⟨hw', es, tells⟩ := hran hprepare hf
    exact ⟨hw', es, hw, h, tells⟩
  · obtain ⟨hv, es, tells⟩ := hran hprepare hrun
    exact ⟨(package_some hpackage).runnerOf hv, es, hw, h, tells⟩

/-! ### What an outcome shows -/

theorem written_append (es es' : List Effect) : written (es ++ es') = written es ++ written es' := List.flatMap_append

theorem written_report (message : Text) : written [.report message] = [] := rfl

theorem out_append (a b : Console) : (a ++ b).out = a.out ++ b.out := rfl

/-- What is shown of side effects is a line for each call of `print`. -/
theorem out_printed (es : List Effect) : (printed es).out = written es := by
  have hfold (c : Console) : ((es.filter (·.isOnly "stdout")).foldl (fun c e => c ++ .line e.message) c).out =
      c.out ++ written es := by
    induction es generalizing c with
    | nil => exact (List.append_nil _).symm
    | cons e es ih =>
      have hline : written [e] = if e.isOnly "stdout" then e.message ++ "\n" else [] := by
        obtain ⟨_ | ⟨v, _ | ⟨v', vs⟩⟩, message⟩ := e
        · rfl
        · cases v with
          | text t => simp [written, Effect.isOnly]
          | _ => rfl
        · cases v <;> rfl
      rw [List.filter_cons, show e :: es = [e] ++ es from rfl, written_append, hline]
      split
      · rw [List.foldl_cons, ih, out_append, List.append_assoc]
        rfl
      · rw [ih]
        rfl
  exact (hfold {}).trans (List.nil_append _)

/-- What is shown of the outcome of a run is what has been printed in it. -/
theorem Run.Made.out_printed {x : Run} {o : Outcome} (hx : x.Made n id l d) (ho : x.result = .ok o) :
    (Repl.printed o.effects).out = x.printed := by
  obtain ⟨source, before, told, result, after⟩ := x
  obtain ⟨runnerOf, hrun, htold⟩ := hx
  dsimp only at ho runnerOf hrun htold
  subst ho
  rw [Repl.out_printed, Run.printed]
  rcases handleScript_some runnerOf hrun with ⟨f, -, hf⟩ | ⟨w₁, hprepare, ⟨f, -, hf⟩ | ⟨result, v, hrun, hpackage⟩⟩
  · cases hf
  · cases hf
  · cases htold with
    | unprepared fails => cases hprepare.symm.trans fails
    | @runs start v' es r starts run told =>
      obtain ⟨-, rfl⟩ := ok_inj (hprepare.symm.trans starts.prepared)
      obtain ⟨rfl, rfl⟩ := Prod.mk.inj (Option.some.inj (hrun.symm.trans run))
      have hgains := told.gains (heard_gains d n)
      rw [Gains, starts.cleared] at hgains
      cases (package_some hpackage).comprises hgains with
      | success => rfl
      | failure => rw [written_append, written_report, List.append_nil]; rfl

/-! ### Lines -/

/-- The outcome of a text that is no program, going by its message. -/
def isMalformed (o : Outcome) : Bool :=
  match o.message with
  | .text t => !o.success && (ErrorStatus.badSource.name : Text).isPrefixOf t
  | _ => false

theorem evaluate_eq (E : Engine) (id : Nat) (line : Text) : evaluate E id line = (do
    let o ← handleScript E id (.text ("return " ++ line))
    if isMalformed o then handleScript E id (.text line) else return o) := rfl

/-- The runs that are made for a line: it is tried as an expression, and run as statements if it is none. -/
inductive Tried (n id l d : Nat) (line : Text) (w : World) : List Run → Run → Prop where
  | expression {x : Run} (made : x.Made n id l d) (source : x.source = "return " ++ line) (before : x.before = w)
    (sound : ∀ o, x.result = .ok o → isMalformed o = false) : Tried n id l d line w [] x
  | statements {x y : Run} {o : Outcome} (made : x.Made n id l d) (source : x.source = "return " ++ line)
    (before : x.before = w) (result : x.result = .ok o) (malformed : isMalformed o = true) (again : y.Made n id l d)
    (same : y.source = line) (after : y.before = x.after) : Tried n id l d line w [x] y

theorem Tried.made {line : Text} {xs : List Run} {x : Run} (h : Tried n id l d line w xs x) : x.Made n id l d := by
  cases h with
  | expression made => exact made
  | statements _ _ _ _ _ again => exact again

/-- What a line evaluates to is what the last of its runs comes to. -/
theorem tried {line : Text} {r : Except Fault Outcome} (hw : w.RunnerOf id l d)
    (h : evaluate (engine n) id line w = some (r, w')) :
    w'.RunnerOf id l d ∧ ∃ xs x, Tried n id l d line w xs x ∧ x.result = r ∧ x.after = w' := by
  rw [evaluate_eq] at h
  rcases bind_some h with ⟨f, hf, rfl⟩ | ⟨o, v, ho, hrest⟩
  · obtain ⟨hw', es, hx⟩ := made hw hf
    exact ⟨hw', [], _, .expression hx rfl rfl (fun o ho => nomatch ho), rfl, rfl⟩
  · obtain ⟨hv, es, hx⟩ := made hw ho
    by_cases hmalformed : isMalformed o = true
    · rw [if_pos hmalformed] at hrest
      obtain ⟨hw', es', hy⟩ := made hv hrest
      exact ⟨hw', [_], _, .statements hx rfl rfl rfl hmalformed hy rfl rfl, rfl, rfl⟩
    · rw [if_neg hmalformed] at hrest
      obtain ⟨rfl, rfl⟩ := Prod.mk.inj (Option.some.inj hrest)
      refine ⟨hv, [], _, .expression hx rfl rfl fun o' ho' => ?_, rfl, rfl⟩
      obtain rfl := Except.ok.inj ho'
      exact Bool.eq_false_iff.mpr hmalformed

/-- What is written of a value; nothing where it cannot be shown. -/
def valueText (E : Engine) (o : Outcome) (w : World) : Text :=
  match shownValue E o w with
  | some (.ok t, _) => t
  | _ => []

theorem valueText_ok {E : Engine} {o : Outcome} (h : shownValue E o w = some (.ok t, w')) : valueText E o w = t := by
  rw [valueText, h]

theorem valueText_error {E : Engine} {o : Outcome} {f : Fault} (h : shownValue E o w = some (.error f, w')) :
    valueText E o w = [] := by
  rw [valueText, h]

/-- Nothing, or the farewell. -/
def Idle (out : Text) : Prop := out = [] ∨ out = farewell.out

/-- What is written to the output for the runs that are made for a reading. Where the last run succeeds, that is what has
been printed in it and the value. Where it fails, nothing is written of it. -/
inductive Shows (n : Nat) : List Run → Text → Prop where
  | idle {out : Text} (idle : Idle out) : Shows n [] out
  | succeeds {xs : List Run} {x : Run} {o : Outcome} {rest : Text} (result : x.result = .ok o)
    (success : o.success = true) (idle : Idle rest) :
    Shows n (xs ++ [x]) (x.printed ++ (valueText (engine n) o x.after ++ rest))
  | fails {xs : List Run} {x : Run} {out : Text} (fails : ¬ x.Succeeds) (idle : Idle out) : Shows n (xs ++ [x]) out

theorem idle_recover (f : Fault) : Idle (recover f).1.out := by
  rw [recover]
  split_ifs
  · exact .inr rfl
  · exact .inl rfl
  · exact .inl rfl

theorem runnerOf_shownValue {o : Outcome} {r : Except Fault Text} (hw : w.RunnerOf id l d)
    (h : shownValue (engine n) o w = some (r, w')) : w'.RunnerOf id l d := by
  have hkeeps : Keeps (RunnerOf id l d) Anyhow (shownValue (engine n) o) := by
    rw [shownValue]
    split
    · exact .pure _
    · exact (keeps_format (runnerOf_engine id l d n) _ _ _).bind fun t => .pure _
  exact (hkeeps hw h).1

theorem runnerOf_formatError {o : Outcome} {r : Except Fault Text} (hw : w.RunnerOf id l d)
    (h : formatError (engine n) o w = some (r, w')) : w'.RunnerOf id l d := by
  have hkeeps : Keeps (RunnerOf id l d) Anyhow (formatError (engine n) o) := by
    rw [formatError]
    split
    · exact .pure _
    · refine Keeps.bind ?_ fun t => .pure _
      refine (keeps_truthy _).bind fun b => ?_
      split
      · exact keeps_str (runnerOf_engine id l d n) _
      · exact .pure _
  exact (hkeeps hw h).1

/-- What a line that is run shows. -/
theorem answer_shows {line : Text} {r : Except Fault (Console × Next)} (hw : w.RunnerOf id l d)
    (h : answer (engine n) id line w = some (r, w')) : ∃ c next, r = .ok (c, next) ∧ w'.RunnerOf id l d ∧
      ∃ xs x, Tried n id l d line w xs x ∧ Shows n (xs ++ [x]) c.out := by
  obtain ⟨a, v, hevaluate, hrest⟩ := bind_attempt h
  obtain ⟨hv, xs, x, htried, rfl, rfl⟩ := tried hw hevaluate
  cases hresult : x.result with
  | error f =>
    rw [hresult] at hrest
    obtain ⟨rfl, rfl⟩ := Prod.mk.inj (Option.some.inj hrest)
    have hfails : ¬ x.Succeeds := fun ⟨o, ho, _⟩ => nomatch hresult.symm.trans ho
    exact ⟨_, _, rfl, hv, xs, x, htried, .fails hfails (idle_recover f)⟩
  | ok o =>
    rw [hresult] at hrest
    dsimp only at hrest
    cases hsuccess : o.success with
    | true =>
      rw [hsuccess, if_pos rfl] at hrest
      obtain ⟨a, u, hshown, hrest⟩ := bind_attempt hrest
      have hu := runnerOf_shownValue hv hshown
      have hshows {rest : Text} (hrest : Idle rest) :
          Shows n (xs ++ [x]) (x.printed ++ (valueText (engine n) o x.after ++ rest)) := .succeeds hresult hsuccess hrest
      rw [← htried.made.out_printed hresult] at hshows
      cases a with
      | ok t =>
        obtain ⟨rfl, rfl⟩ := Prod.mk.inj (Option.some.inj hrest)
        have h := hshows (.inl rfl)
        rw [valueText_ok hshown, List.append_nil] at h
        exact ⟨_, _, rfl, hu, xs, x, htried, h⟩
      | error f =>
        obtain ⟨rfl, rfl⟩ := Prod.mk.inj (Option.some.inj hrest)
        have h := hshows (idle_recover f)
        rw [valueText_error hshown, List.nil_append] at h
        exact ⟨_, _, rfl, hu, xs, x, htried, h⟩
    | false =>
      have hfails : ¬ x.Succeeds := fun ⟨o', ho, hs⟩ => by
        obtain rfl := Except.ok.inj (hresult.symm.trans ho)
        exact Bool.false_ne_true (hsuccess.symm.trans hs)
      rw [hsuccess, if_neg Bool.false_ne_true] at hrest
      obtain ⟨a, u, hformat, hrest⟩ := bind_attempt hrest
      have hu := runnerOf_formatError hv hformat
      cases a with
      | ok t =>
        obtain ⟨rfl, rfl⟩ := Prod.mk.inj (Option.some.inj hrest)
        exact ⟨_, _, rfl, hu, xs, x, htried, .fails hfails (.inl rfl)⟩
      | error f =>
        obtain ⟨rfl, rfl⟩ := Prod.mk.inj (Option.some.inj hrest)
        exact ⟨_, _, rfl, hu, xs, x, htried, .fails hfails (idle_recover f)⟩

/-! ### Readings -/

/-- Nothing is run for a reading: it has failed, or it is blank, or it is the word that ends a conversation. -/
def Read.Blank : Read → Prop
  | .line t => t.strip = [] ∨ t.strip = ("exit" : Text)
  | .failed _ => True

inductive RunsFor (n id l d : Nat) (w : World) : Read → List Run → Prop where
  | none {r : Read} (blank : r.Blank) : RunsFor n id l d w r []
  | line {t : Text} {xs : List Run} {x : Run} (runs : ¬ Read.Blank (.line t)) (tried : Tried n id l d t.strip w xs x) :
    RunsFor n id l d w (.line t) (xs ++ [x])

/-- Every response shows what it should of the runs that it makes, and no fault comes of it. -/
theorem respond_shows {a : Read} {r : Except Fault (Console × Next)} (hw : w.RunnerOf id l d)
    (h : respond (engine n) id a w = some (r, w')) : ∃ c next, r = .ok (c, next) ∧ w'.RunnerOf id l d ∧
      ∃ xs, RunsFor n id l d w a xs ∧ Shows n xs c.out := by
  cases a with
  | failed f =>
    obtain ⟨rfl, rfl⟩ := Prod.mk.inj (Option.some.inj h)
    exact ⟨_, _, rfl, hw, [], .none trivial, .idle (idle_recover f)⟩
  | line t =>
    cases t with
    | nil =>
      obtain ⟨rfl, rfl⟩ := Prod.mk.inj (Option.some.inj h)
      exact ⟨_, _, rfl, hw, [], .none (.inl rfl), .idle (.inr rfl)⟩
    | cons c t =>
      by_cases hempty : (Text.strip (c :: t)).isEmpty = true
      · rw [respond, if_pos hempty] at h
        · obtain ⟨rfl, rfl⟩ := Prod.mk.inj (Option.some.inj h)
          exact ⟨_, _, rfl, hw, [], .none (.inl (List.isEmpty_iff.mp hempty)), .idle (.inl rfl)⟩
        · exact List.cons_ne_nil c t
      by_cases hexit : (Text.strip (c :: t) == ("exit" : Text)) = true
      · rw [respond, if_neg hempty, if_pos hexit] at h
        · obtain ⟨rfl, rfl⟩ := Prod.mk.inj (Option.some.inj h)
          exact ⟨_, _, rfl, hw, [], .none (.inr (beq_iff_eq.mp hexit)), .idle (.inl rfl)⟩
        · exact List.cons_ne_nil c t
      rw [respond, if_neg hempty, if_neg hexit] at h
      · obtain ⟨shown, next, rfl, hw', xs, x, htried, hshows⟩ := answer_shows hw h
        have hruns : ¬ Read.Blank (.line (c :: t)) := by
          rintro (hblank | hblank)
          · exact hempty (List.isEmpty_iff.mpr hblank)
          · exact hexit (beq_iff_eq.mpr hblank)
        exact ⟨shown, next, rfl, hw', _, .line hruns htried, hshows⟩
      · exact List.cons_ne_nil c t

/-! ### Conversations -/

/-- A turn of a conversation: the runs that are made for a reading, and what is written to the output after the prompt
and before the next one. -/
structure Turn where
  runs : List Run
  out : Text

/-- What is written to the output in turns, each after a prompt. -/
def prompted (ts : List Turn) : Text := ts.flatMap fun t => prompt.out ++ t.out

inductive Course (n id l d : Nat) : World → List Read → List Turn → Prop where
  | closes {w : World} : Course n id l d w [] [⟨[], farewell.out⟩]
  | ends {w w' : World} {r : Read} {rs : List Read} {xs : List Run} {c : Console} {next : Next}
    (responds : respond (engine n) id r w = some (.ok (c, next), w')) (ends : next ≠ .goOn)
    (runs : RunsFor n id l d w r xs) : Course n id l d w (r :: rs) [⟨xs, c.out⟩]
  | goesOn {w w' : World} {r : Read} {rs : List Read} {xs : List Run} {c : Console} {ts : List Turn}
    (responds : respond (engine n) id r w = some (.ok (c, .goOn), w')) (runs : RunsFor n id l d w r xs)
    (rest : Course n id l d w' rs ts) : Course n id l d w (r :: rs) (⟨xs, c.out⟩ :: ts)

/-- A conversation writes a prompt and what is shown of the runs that are made, turn by turn, and no fault comes of it. -/
theorem converse_course {rs : List Read} {r : Except Fault (Console × Option Fault)} (hw : w.RunnerOf id l d)
    (h : converse (engine n) id rs w = some (r, w')) : ∃ c f ts, r = .ok (c, f) ∧ Course n id l d w rs ts ∧
      c.out = prompted ts ∧ ∀ t ∈ ts, Shows n t.runs t.out := by
  induction rs generalizing w r w' with
  | nil =>
    obtain ⟨rfl, rfl⟩ := Prod.mk.inj (Option.some.inj h)
    refine ⟨_, _, _, rfl, .closes, (List.append_nil _).symm, fun t ht => ?_⟩
    obtain rfl := List.mem_singleton.mp ht
    exact .idle (.inr rfl)
  | cons a rs ih =>
    rw [converse] at h
    rcases bind_some h with ⟨f, hf, -⟩ | ⟨⟨c, next⟩, v, hrespond, hrest⟩
    · obtain ⟨c, next, hr, -⟩ := respond_shows hw hf
      cases hr
    · obtain ⟨c', next', hr, hv, xs, hruns, hshows⟩ := respond_shows hw hrespond
      obtain ⟨rfl, rfl⟩ := Prod.mk.inj (Except.ok.inj hr)
      have hends (c' : Console) (hc' : c' = prompt ++ c) (hne : next ≠ .goOn) : ∃ ts, Course n id l d w (a :: rs) ts ∧
          c'.out = prompted ts ∧ ∀ t ∈ ts, Shows n t.runs t.out := by
        refine ⟨_, .ends hrespond hne hruns, ?_, fun t ht => ?_⟩
        · rw [hc']
          exact (List.append_nil _).symm
        · obtain rfl := List.mem_singleton.mp ht
          exact hshows
      cases next with
      | goOn =>
        rcases bind_some hrest with ⟨f, hf, -⟩ | ⟨⟨c', f⟩, u, hconverse, hpure⟩
        · obtain ⟨c', f', ts, hr, -⟩ := ih hv hf
          cases hr
        · obtain ⟨c'', f', ts, hr, hcourse, hout, hall⟩ := ih hv hconverse
          obtain ⟨rfl, rfl⟩ := Prod.mk.inj (Except.ok.inj hr)
          obtain ⟨rfl, rfl⟩ := Prod.mk.inj (Option.some.inj hpure)
          refine ⟨_, _, _, rfl, .goesOn hrespond hruns hcourse, ?_, fun t ht => ?_⟩
          · rw [out_append, out_append, hout]
            rfl
          · rcases List.mem_cons.mp ht with rfl | ht
            · exact hshows
            · exact hall t ht
      | stop =>
        obtain ⟨rfl, rfl⟩ := Prod.mk.inj (Option.some.inj hrest)
        obtain ⟨ts, h⟩ := hends _ rfl Next.noConfusion
        exact ⟨_, _, ts, rfl, h⟩
      | raises f =>
        obtain ⟨rfl, rfl⟩ := Prod.mk.inj (Option.some.inj hrest)
        obtain ⟨ts, h⟩ := hends _ rfl Next.noConfusion
        exact ⟨_, _, ts, rfl, h⟩

/-! ### Files -/

/-- What is written to the output for a file. Where running it has an outcome, that is what has been printed, whatever the
outcome is, and the value of a success. Where the file cannot be read, or a fault is raised, nothing is written. -/
inductive FileWrites (n id l d : Nat) (w : World) (content : Content) : Text → Prop where
  | unread {f : Fault} {v : World} (fails : textOfFile content w = some (.error f, v)) : FileWrites n id l d w content []
  | outcome {x : Run} {o : Outcome} (read : textOfFile content w = some (.ok x.source, x.before))
    (made : x.Made n id l d) (result : x.result = .ok o) : FileWrites n id l d w content
      (x.printed ++ if o.success then valueText (engine n) o x.after else [])
  | raises {x : Run} {f : Fault} (read : textOfFile content w = some (.ok x.source, x.before))
    (made : x.Made n id l d) (result : x.result = .error f) : FileWrites n id l d w content []

theorem textOfFile_some (c : Content) (w : World) : ∃ r, textOfFile c w = some (r, w) := by
  cases c with
  | error f => exact ⟨_, rfl⟩
  | ok b =>
    cases h : Utf8.decodeFrom 0 b with
    | ok t => exact ⟨.ok t.withLineFeeds, by rw [textOfFile, h]; rfl⟩
    | error e => exact ⟨.error (.ofDecoding e), by rw [textOfFile, h]; rfl⟩

theorem runFile_ok (E : Engine) (id : Nat) (path : Text) (b : Bytes) : runFile E id path (.ok b) = (do
    let source ← textOfFile (.ok b)
    showRun E (← handleScript E id (.text source))) := rfl

/-- The outcome of a file shows what has been printed. -/
theorem showRun_some {o : Outcome} {r : Except Fault (Console × Except Fault Nat)}
    (h : showRun (engine n) o w = some (r, w')) : ∃ c e, r = .ok (c, e) ∧
      c.out = (printed o.effects).out ++ if o.success then valueText (engine n) o w else [] := by
  rw [showRun] at h
  cases hsuccess : o.success with
  | true =>
    rw [hsuccess, if_pos rfl] at h
    obtain ⟨a, v, hshown, hrest⟩ := bind_attempt h
    rw [if_pos rfl]
    cases a with
    | ok t =>
      obtain ⟨rfl, rfl⟩ := Prod.mk.inj (Option.some.inj hrest)
      exact ⟨_, _, rfl, by rw [valueText_ok hshown]; rfl⟩
    | error f =>
      obtain ⟨rfl, rfl⟩ := Prod.mk.inj (Option.some.inj hrest)
      exact ⟨_, _, rfl, by rw [valueText_error hshown, List.append_nil]⟩
  | false =>
    rw [hsuccess, if_neg Bool.false_ne_true] at h
    obtain ⟨a, v, -, hrest⟩ := bind_attempt h
    rw [if_neg Bool.false_ne_true]
    cases a with
    | ok t =>
      obtain ⟨rfl, rfl⟩ := Prod.mk.inj (Option.some.inj hrest)
      exact ⟨_, _, rfl, rfl⟩
    | error f =>
      obtain ⟨rfl, rfl⟩ := Prod.mk.inj (Option.some.inj hrest)
      exact ⟨_, _, rfl, (List.append_nil _).symm⟩

/-- What has been written to the output; nothing if a fault has come instead. -/
def outOf : Except Fault (Console × Except Fault Nat) → Text
  | .ok (c, _) => c.out
  | .error _ => []

theorem runFile_writes {path : Text} {content : Content} {r : Except Fault (Console × Except Fault Nat)}
    (hw : w.RunnerOf id l d) (h : runFile (engine n) id path content w = some (r, w')) :
    FileWrites n id l d w content (outOf r) := by
  cases content with
  | error f =>
    have hunread : FileWrites n id l d w (.error f) [] := .unread (v := w) rfl
    rw [runFile] at h
    split_ifs at h <;> obtain ⟨rfl, rfl⟩ := Prod.mk.inj (Option.some.inj h) <;> exact hunread
  | ok b =>
    obtain ⟨f | source, hread⟩ := textOfFile_some (.ok b) w
    · rw [runFile_ok, bind_error hread] at h
      obtain ⟨rfl, rfl⟩ := Prod.mk.inj (Option.some.inj h)
      exact .unread hread
    · rw [runFile_ok, bind_ok hread] at h
      rcases bind_some h with ⟨f, hf, rfl⟩ | ⟨o, v, ho, hshow⟩
      · obtain ⟨-, es, hx⟩ := made hw hf
        exact .raises hread hx rfl
      · obtain ⟨-, es, hx⟩ := made hw ho
        obtain ⟨c, e, rfl, hout⟩ := showRun_some hshow
        have hwrites : FileWrites n id l d w (.ok b) _ := .outcome hread hx rfl
        rw [← hx.out_printed rfl, ← hout] at hwrites
        exact hwrites

/-! ### The program -/

/-- A runner in a language of its own has been made. -/
structure Opens (config : Bridge Config) (w : World) (id l d : Nat) (v : World) : Prop where
  opened : openRunner config w = some (.ok id, v)
  runnerOf : v.RunnerOf id l d
  captures : v.Prints → v.HasRunner id l d

/-- A world in which a language with certain options has been made, and a runner in it. -/
def withRunner (w : World) (c : Config) : World :=
  { w with
    configs := w.configs.push c
    diagnostics := w.diagnostics.push []
    languages := w.languages.push { config := w.configs.size, diagnostics := w.diagnostics.size }
    runners := w.runners.push { language := w.languages.size }
    singleton := some w.languages.size }

theorem runnerOf_withRunner (w : World) (c : Config) :
    (withRunner w c).RunnerOf w.runners.size w.languages.size w.diagnostics.size :=
  ⟨⟨none, Array.getElem?_push_size⟩, ⟨_, Array.getElem?_push_size, rfl⟩,
    Nat.lt_of_lt_of_eq (Nat.lt_succ_self _) (Array.size_push _).symm⟩

theorem openRunner_opens {config : Bridge Config} (h : openRunner config w = some (.ok id, v)) :
    ∃ l d, Opens config w id l d v := by
  obtain ⟨c, u, -, hrest⟩ := bind_some_ok h
  obtain ⟨rfl, rfl⟩ : u.runners.size = id ∧ withRunner u c = v := ok_inj hrest
  refine ⟨_, _, h, runnerOf_withRunner u c, fun hprints => ⟨runnerOf_withRunner u c, fun r state hr hb => ?_, hprints⟩⟩
  obtain rfl := Option.some.inj (Array.getElem?_push_size.symm.trans hr)
  cases hb

/-- What is written to the output over a whole run, of a file or of lines. -/
inductive Writes (n : Nat) (args : List Text) (content : Text → Content) (config : Bridge Config) (reads : List Read)
    (w : World) : Text → Prop where
  | unopened {f : Fault} {v : World} (fails : openRunner config w = some (.error f, v)) :
    Writes n args content config reads w (if (fileOf args).isSome then [] else greeting.out)
  | file {path out : Text} {id l d : Nat} {v : World} (named : fileOf args = some path) (opens : Opens config w id l d v)
    (writes : FileWrites n id l d v (content path) out) : Writes n args content config reads w out
  | lines {id l d : Nat} {v : World} {ts : List Turn} (unnamed : fileOf args = none) (opens : Opens config w id l d v)
    (course : Course n id l d v reads ts) (shows : ∀ t ∈ ts, Shows n t.runs t.out) :
    Writes n args content config reads w (greeting.out ++ prompted ts)

/-- Whatever is run, no fault comes of it but as its end. -/
theorem main_writes {args : List Text} {content : Text → Content} {config : Bridge Config} {reads : List Read}
    {r : Except Fault (Console × Except Fault Nat)} (h : main (engine n) args content config reads w = some (r, w')) :
    ∃ c e, r = .ok (c, e) ∧ Writes n args content config reads w c.out := by
  rw [main] at h
  cases hfile : fileOf args with
  | some path =>
    rw [hfile] at h
    obtain ⟨a, v, hrun, hrest⟩ := bind_attempt h
    have hwrites : Writes n args content config reads w (outOf a) := by
      rcases bind_some hrun with ⟨f, hf, rfl⟩ | ⟨id, u, hopen, hrun⟩
      · have hwrites : Writes n args content config reads w _ := .unopened hf
        rwa [hfile] at hwrites
      · obtain ⟨l, d, hopens⟩ := openRunner_opens hopen
        exact .file hfile hopens (runFile_writes hopens.runnerOf hrun)
    cases a with
    | ok c =>
      obtain ⟨rfl, rfl⟩ := Prod.mk.inj (Option.some.inj hrest)
      exact ⟨_, _, rfl, hwrites⟩
    | error f =>
      obtain ⟨rfl, rfl⟩ := Prod.mk.inj (Option.some.inj hrest)
      exact ⟨_, _, rfl, hwrites⟩
  | none =>
    rw [hfile] at h
    obtain ⟨a, v, hopen, hrest⟩ := bind_attempt h
    cases a with
    | error f =>
      obtain ⟨rfl, rfl⟩ := Prod.mk.inj (Option.some.inj hrest)
      have hwrites : Writes n args content config reads w _ := .unopened hopen
      rw [hfile] at hwrites
      exact ⟨_, _, rfl, hwrites⟩
    | ok id =>
      obtain ⟨l, d, hopens⟩ := openRunner_opens hopen
      rcases bind_some hrest with ⟨f, hf, -⟩ | ⟨⟨c, f⟩, u, hconverse, hpure⟩
      · obtain ⟨c, f', ts, hr, -⟩ := converse_course hopens.runnerOf hf
        cases hr
      · obtain ⟨c', f', ts, hr, hcourse, hout, hall⟩ := converse_course hopens.runnerOf hconverse
        obtain ⟨rfl, rfl⟩ := Prod.mk.inj (Except.ok.inj hr)
        obtain ⟨rfl, rfl⟩ := Prod.mk.inj (Option.some.inj hpure)
        refine ⟨_, _, rfl, ?_⟩
        rw [out_append, hout]
        exact .lines hfile hopens hcourse hall

/-- What a runner has printed is written to the output in order. A conversation writes, before the next prompt, what has
been printed for a line if the last of its runs succeeds, and only then; the run of a file writes it whatever its outcome
is. The program does one or the other, with a runner that is made for it. -/
theorem output_written (hw : w.RunnerOf id l d) :
    (∀ ⦃reads : List Read⦄ ⦃r : Except Fault (Console × Option Fault)⦄ ⦃w' : World⦄,
      converse (engine n) id reads w = some (r, w') → ∃ c f ts, r = .ok (c, f) ∧ Course n id l d w reads ts ∧
        c.out = prompted ts ∧ ∀ t ∈ ts, Shows n t.runs t.out) ∧
    (∀ ⦃path : Text⦄ ⦃content : Content⦄ ⦃r : Except Fault (Console × Except Fault Nat)⦄ ⦃w' : World⦄,
      runFile (engine n) id path content w = some (r, w') → FileWrites n id l d w content (outOf r)) ∧
    ∀ ⦃args : List Text⦄ ⦃content : Text → Content⦄ ⦃config : Bridge Config⦄ ⦃reads : List Read⦄
      ⦃r : Except Fault (Console × Except Fault Nat)⦄ ⦃v w' : World⦄,
      main (engine n) args content config reads v = some (r, w') →
        ∃ c e, r = .ok (c, e) ∧ Writes n args content config reads v c.out :=
  ⟨fun _ _ _ h => converse_course hw h, fun _ _ _ _ h => runFile_writes hw h, fun _ _ _ _ _ _ _ h => main_writes h⟩

namespace Printing

/-- A line that prints, and the one that ends a conversation. -/
def reads : List Read := [.line "print(1)\n", .line "exit\n"]

/-- A file that prints. -/
def content : Content := .ok (.ofString "return print(1)")

set_option maxRecDepth 10000 in
theorem lines : ∃ r w, converse (engine 2) 0 reads Printing.world = some (.ok r, w) ∧ r.1.out = "> 1\n> " := by
  have hsucceeds : succeedsWith (fun (r : Console × Option Fault) _ => decide (r.1.out = "> 1\n> "))
      (converse (engine 2) 0 reads Printing.world) = true := by cbv
  obtain ⟨r, w, h, htest⟩ := eq_ok_of_succeedsWith hsucceeds
  exact ⟨r, w, h, of_decide_eq_true htest⟩

set_option maxRecDepth 10000 in
theorem file : ∃ r w, runFile (engine 2) 0 "f" content Printing.world = some (.ok r, w) ∧ r.1.out = "1\n" := by
  have hsucceeds : succeedsWith (fun (r : Console × Except Fault Nat) _ => decide (r.1.out = "1\n"))
      (runFile (engine 2) 0 "f" content Printing.world) = true := by
    rw [content, runFile_ok]
    cbv
  obtain ⟨r, w, h, htest⟩ := eq_ok_of_succeedsWith hsucceeds
  exact ⟨r, w, h, of_decide_eq_true htest⟩

end Printing

/-- A chunk that prints, as a line and as a file. -/
theorem output_written_once : Printing.world.RunnerOf 0 0 0 ∧
    (∃ c f w ts, converse (engine 2) 0 Printing.reads Printing.world = some (.ok (c, f), w) ∧ c.out = "> 1\n> " ∧
      Course 2 0 0 0 Printing.world Printing.reads ts ∧ ∀ t ∈ ts, Shows 2 t.runs t.out) ∧
    ∃ c e w, runFile (engine 2) 0 "f" Printing.content Printing.world = some (.ok (c, e), w) ∧ c.out = "1\n" ∧
      FileWrites 2 0 0 0 Printing.world Printing.content c.out := by
  obtain ⟨hlines, hfile, -⟩ := output_written (n := 2) Printing.hasRunner.toRunnerOf
  obtain ⟨⟨c, f⟩, w, hconverse, hout⟩ := Printing.lines
  obtain ⟨c', f', ts, hr, hcourse, -, hshows⟩ := hlines hconverse
  obtain ⟨⟨c₁, e⟩, w₁, hrun, hout₁⟩ := Printing.file
  exact ⟨Printing.hasRunner.toRunnerOf, ⟨c, f, w, ts, hconverse, hout, hcourse, hshows⟩, c₁, e, w₁, hrun, hout₁, hfile hrun⟩

end Repl

end HostedLua
