import HostedLua.Proofs.Crossing.PassThrough
import HostedLua.Proofs.Runner.Transcript

/-! Whatever the host computes, there is an account of what a record is told. What is computed without the engine makes
reports only. All else is taken apart along the computations of the host, down to what the engine is asked. -/

namespace HostedLua

open Host

namespace World

variable {d : Nat}

/-- Only reports are added to a record. -/
def Reports (d : Nat) (w w' : World) : Prop := ∃ ms : List Text, w.Gains d (ms.map .report) w'

theorem Reports.of_gains {w w' : World} (h : w.Gains d [] w') : w.Reports d w' := ⟨[], h⟩

end World

open World

namespace Bridge

variable {α β : Type} {d : Nat}

/-- Whatever an engine does, an account that knows what it tells tells what a computation on it tells. -/
def Told (d : Nat) (x : Engine → Bridge α) : Prop :=
  ∀ ⦃A : Account⦄ ⦃E : Engine⦄, A.Knows d E → ∀ ⦃w : World⦄ ⦃r : Except Fault α⦄ ⦃w' : World⦄, w.HasRecord d →
    x E w = some (r, w') → w'.HasRecord d ∧ ∃ es, Transcript d A x w es r w'

instance : Admits (HasRecord d) (Reports d) where
  refl w := .of_gains (.refl w)
  trans := by
    rintro w w' w'' ⟨ms, h⟩ ⟨ms', h'⟩
    exact ⟨ms ++ ms', by rw [List.map_append]; exact h.trans h'⟩
  beside hw h := ⟨by rwa [HasRecord, h.diagnostics], .of_gains (.of_eq h.diagnostics)⟩
  report {w} c message hw := by
    refine ⟨by rwa [HasRecord, withEffect, Array.size_modify], ?_⟩
    by_cases hc : c = d
    · exact hc ▸ ⟨[message], .effect w c _⟩
    · exact .of_gains (.other hc w _)
  object _ hw := ⟨hw, .of_gains (.of_eq rfl)⟩
  handle hw _ _ _ := ⟨hw, .of_gains (.of_eq rfl)⟩
  state hw _ _ := ⟨hw, .of_gains (.of_eq rfl)⟩
  opens hw _ := ⟨hw, .of_gains (.of_eq rfl)⟩
  enter hw _ := ⟨hw, .of_gains (.of_eq rfl)⟩

/-! ### Steps -/

/-- What is computed without the engine makes reports only. -/
theorem Told.const {x : Bridge α} (hx : Keeps (HasRecord d) (Reports d) x) : Told d fun _ => x := by
  intro A E _ w r w' hw h
  obtain ⟨hw', ms, gains⟩ := hx hw h
  exact ⟨hw', _, .ends (fun _ => h) gains⟩

theorem Told.pure (a : α) : Told d fun _ => (Pure.pure a : Bridge α) := .const (.pure a)

theorem Told.raise (kind : String) (text : Text) : Told d fun _ => (raise kind text : Bridge α) :=
  .const (.raise kind text)

/-- What the engine is asked is in the account. -/
theorem Told.serve (q : Ask β) : Told d fun E => E.serve q := by
  intro A E hA w r w' hw h
  obtain ⟨hw', es, asked⟩ := hA q hw h
  have hends : Transcript d A (fun _ v => some (r, v)) w' [] r w' := .silent (fun _ => rfl) (.refl w')
  refine ⟨hw', _, .asks (m := []) (k := fun a _ v => some (a, v)) (fun E => ?_) (.refl w) asked hends⟩
  cases E.serve q w <;> rfl

theorem Told.run (state : Nat) (p : Lua.Prog) : Told d fun E => E.run state p := .serve (.run state p)

theorem Told.callback (c : Callback) (args : List Value) : Told d fun E => E.callback c args := .serve (.callback c args)

/-- What a computation comes to is known, and so is how it goes on from there. -/
theorem Told.seq {x : Engine → Bridge α} {y : Engine → Bridge β} (k : Except Fault α → Engine → Bridge β)
    (same : ∀ E w, y E w = (x E w).bind fun z => k z.1 E z.2) (hx : Told d x) (hk : ∀ a, Told d (k a)) : Told d y := by
  intro A E hA w r w' hw h
  rw [same] at h
  obtain ⟨⟨a, v⟩, ha, hrest⟩ := Option.bind_eq_some_iff.mp h
  obtain ⟨hv, es, htells⟩ := hx hA hw ha
  obtain ⟨hw', es', htells'⟩ := hk a hA hv hrest
  exact ⟨hw', _, htells.seq (fun E => same E w) htells'⟩

/-- A computation goes on with what has come of the first step, unless that is a fault. -/
def onward (f : α → Engine → Bridge β) : Except Fault α → Engine → Bridge β
  | .ok a => f a
  | .error e => fun _ => throw e

theorem Told.bind {x : Engine → Bridge α} {f : α → Engine → Bridge β} (hx : Told d x) (hf : ∀ a, Told d (f a)) :
    Told d fun E => x E >>= fun a => f a E := by
  refine hx.seq (onward f) (fun E w => ?_) fun a => ?_
  · rw [bind_apply]
    rcases x E w with _ | ⟨_ | _, _⟩ <;> rfl
  · cases a with
    | ok a => exact hf a
    | error e => exact .const (.throw e)

/-- A step without the engine comes first. -/
theorem Told.after {x : Bridge α} {f : α → Engine → Bridge β} (hx : Keeps (HasRecord d) (Reports d) x)
    (hf : ∀ a, Told d (f a)) : Told d fun E => x >>= fun a => f a E :=
  (Told.const hx).bind hf

theorem Told.map {x : Engine → Bridge α} (g : α → β) (hx : Told d x) : Told d fun E => g <$> x E := by
  simp only [map_eq_pure_bind]
  exact hx.bind fun a => .pure _

theorem Told.attempt {x : Engine → Bridge α} (hx : Told d x) : Told d fun E => attempt (x E) := by
  refine hx.seq (fun a _ => Pure.pure a) (fun E w => ?_) fun a => .pure a
  rw [attempt_apply]
  cases x E w <;> rfl

theorem Told.protectedCall {x : Engine → Bridge α} (hx : Told d x) : Told d fun E => protectedCall (x E) := by
  refine hx.attempt.bind fun a => ?_
  cases a with
  | ok a => exact .pure _
  | error f =>
    dsimp only
    split
    · exact .pure _
    · exact .const (.throw f)

theorem Told.mapM {f : α → Engine → Bridge β} (hf : ∀ a, Told d (f a)) (l : List α) :
    Told d fun E => l.mapM fun a => f a E := by
  induction l with
  | nil => exact .pure _
  | cons a l ih =>
    simp only [List.mapM_cons]
    exact (hf a).bind fun b => ih.bind fun bs => .pure _

theorem Told.foldlM {f : β → α → Engine → Bridge β} (hf : ∀ b a, Told d (f b a)) (l : List α) (b : β) :
    Told d fun E => l.foldlM (fun b a => f b a E) b := by
  induction l generalizing b with
  | nil => exact .pure _
  | cons a l ih =>
    simp only [List.foldlM_cons]
    exact (hf b a).bind fun b => ih b

/-- What the world holds meanwhile tells nothing. -/
theorem Told.holding {vs : List Value} {state : Nat} {x : Engine → Bridge α} (hx : Told d x) :
    Told d fun E => holding vs state (x E) := by
  intro A E hA w r w' hw h
  let held : World := { w with held := vs ++ w.held, heldStates := state :: w.heldStates }
  let back (a : Except Fault α) (_ : Engine) (v : World) : Option (Except Fault α × World) :=
    some (a, { v with held := w.held, heldStates := w.heldStates })
  have hsame (E : Engine) : Bridge.holding vs state (x E) w = (x E held).bind fun z => back z.1 E z.2 := by
    rw [holding_apply]
    cases x E held <;> rfl
  obtain ⟨⟨a, v⟩, ha, hback⟩ := Option.bind_eq_some_iff.mp ((hsame E).symm.trans h)
  obtain ⟨rfl, rfl⟩ := Prod.mk.inj (Option.some.inj hback)
  obtain ⟨hv, es, htells⟩ := hx hA (w := held) hw ha
  have hends : Transcript d A (back a) v [] a { v with held := w.held, heldStates := w.heldStates } :=
    .silent (fun _ => rfl) (.of_eq rfl)
  have hrest : Transcript d A (fun E v => (x E v).bind fun z => back z.1 E z.2) held (es ++ []) a _ :=
    htells.seq (fun E => rfl) hends
  have hstart : w.Gains d [] held := .of_eq rfl
  exact ⟨hv, _, Transcript.after (y := fun E => Bridge.holding vs state (x E)) (m := []) hsame hstart hrest⟩

/-! ### Values crossing -/

theorem told_runProg (state : Nat) (p : Lua.Prog) : Told d fun E => runProg E state p := by
  refine (Told.run state p).bind fun a => ?_
  cases a with
  | ok vs => exact .const (keeps_fetchAll state vs)
  | error t => exact .const (keeps_raiseThrown state t)

theorem told_callLua (state : Nat) (f : Lua.Value) (args : List Value) : Told d fun E => callLua E state f args :=
  .after (.mapM (keeps_push state) args) fun args => told_runProg state (callProg f args)

theorem told_newThread (state : Nat) (f : Value) : Told d fun E => newThread E state f := by
  cases f with
  | obj id =>
    refine .after (keeps_object id) fun o => ?_
    cases o with
    | guest g =>
      dsimp only
      split
      · exact .const (keeps_threadOf _ _)
      · refine .after (keeps_state? state) fun s => ?_
        cases s with
        | none => exact .pure _
        | some s =>
          refine (told_callLua _ _ _).bind fun vs => ?_
          split
          · refine .after (keeps_object _) fun o => ?_
            split
            · exact .const (keeps_threadOf _ _)
            · exact .pure _
          · exact .pure _
    | _ => exact .raise _ _
  | _ => exact .after (keeps_typeName _) fun _ => .raise _ _

theorem told_createThread (state : Nat) (f : Value) : Told d fun E => createThread E state f := by
  refine .after (keeps_isOpen state) fun isOpen => ?_
  cases isOpen with
  | false => exact .after (keeps_reportTo _ _) fun _ => .pure _
  | true =>
    refine (told_newThread state f).protectedCall.bind fun r => ?_
    cases r with
    | ok v => exact .pure _
    | error e => exact .after (keeps_reportTo _ _) fun _ => .pure _

theorem told_addressOf (state : Nat) (v : Value) : Told d fun E => addressOf E state v := by
  refine .after (keeps_isOpen state) fun isOpen => ?_
  cases isOpen with
  | false => exact .pure _
  | true =>
    refine (told_callLua state _ [v]).protectedCall.bind fun r => ?_
    split <;> exact .pure _

/-! ### Texts -/

theorem told_handleText (id : Nat) (h : Handle) : Told d fun E => handleText E id h := by
  refine .after (keeps_isValid h) fun valid => ?_
  cases valid with
  | false => exact .pure _
  | true => exact (told_addressOf _ _).bind fun address => .pure _

theorem told_guestText (id : Nat) (g : Guest) (useMeta : Bool) : Told d fun E => guestText E id g useMeta := by
  refine .after (keeps_state? _) fun s => ?_
  cases s with
  | none => exact .pure _
  | some s =>
    dsimp only
    split
    · exact .pure _
    · exact .pure _
    · refine (Told.run _ _).bind fun r => ?_
      split
      · split <;> exact .pure _
      · exact .pure _

theorem told_reprWith {script : Nat → Bridge Text} (hscript : ∀ s, Keeps (HasRecord d) (Reports d) (script s))
    (depth : Nat) (around : List Nat) (v : Value) : Told d fun E => reprWith E script depth around v := by
  induction depth generalizing around v with
  | zero => exact .const keeps_failNesting
  | succ depth ih =>
    have hinner (around : List Nat) (vs : List Value) : Told d fun E => vs.mapM (reprWith E script depth around) :=
      .mapM (ih around) vs
    have hpairs (around : List Nat) (ps : List (Value × Value)) : Told d fun E => ps.mapM fun p => do
        let k ← reprWith E script depth around p.1
        return k ++ ": " ++ (← reprWith E script depth around p.2) :=
      .mapM (fun p => (ih around p.1).bind fun k => (ih around p.2).bind fun v => .pure _) ps
    cases v with
    | obj id =>
      refine .after (keeps_object id) fun o => ?_
      cases o with
      | list vs =>
        dsimp only
        split
        · exact .pure _
        · exact (hinner _ vs).bind fun _ => .pure _
      | tuple vs =>
        dsimp only
        split
        · exact .pure _
        · exact (hinner _ vs).bind fun _ => .pure _
      | dict ps =>
        dsimp only
        split
        · exact .pure _
        · exact (hpairs _ ps).bind fun _ => .pure _
      | proxy ps =>
        dsimp only
        split
        · exact .pure _
        · exact (hpairs _ ps).bind fun _ => .pure _
      | fault f =>
        dsimp only
        split
        · exact .pure _
        · split <;> exact .pure _
      | handle h => exact told_handleText id h
      | guest g => exact told_guestText id g false
      | script s => exact .const (hscript s)
      | mute typeName f => exact .const (.throw f)
      | _ => exact .pure _
    | int i => exact .const (keeps_intText i)
    | _ => exact .pure _

theorem told_quotedText {script : Nat → Bridge Text} (hscript : ∀ s, Keeps (HasRecord d) (Reports d) (script s))
    (v : Value) : Told d fun E => quotedText E script v :=
  .after .get fun w => told_reprWith hscript (w.limits.textNesting + 1) [] v

theorem told_strWith {script : Nat → Bridge Text} (hscript : ∀ s, Keeps (HasRecord d) (Reports d) (script s))
    (v : Value) : Told d fun E => strWith E script v := by
  have hrepr (v : Value) : Told d fun E => quotedText E script v := told_quotedText hscript v
  cases v with
  | text t => exact .pure t
  | member m => exact .pure _
  | obj id =>
    refine .after (keeps_object id) fun o => ?_
    cases o with
    | error e _ => exact .pure _
    | fault f => exact .pure _
    | guest g => exact told_guestText id g true
    | _ => exact hrepr (.obj id)
  | none => exact hrepr .none
  | bool b => exact hrepr (.bool b)
  | int i => exact hrepr (.int i)
  | float x => exact hrepr (.float x)
  | bytes b => exact hrepr (.bytes b)

theorem told_str (v : Value) : Told d fun E => str E v := told_strWith keeps_plainScript v

theorem told_repr (v : Value) : Told d fun E => repr E v := told_quotedText keeps_plainScript v

theorem told_errorMessage (v : Value) : Told d fun E => errorMessage E v := by
  cases v with
  | none => exact .pure _
  | bytes b => exact .pure _
  | obj id =>
    refine .after (keeps_object id) fun o => ?_
    cases o with
    | byteArray b => exact .pure _
    | fault f => exact .pure _
    | _ => exact told_str (.obj id)
  | _ => exact told_str _

theorem told_printText (v : Value) : Told d fun E => printText E v := by
  cases v with
  | none => exact .pure _
  | bool b => exact .pure _
  | bytes b => exact .pure _
  | text t =>
    dsimp only [printText]
    split
    · exact .pure _
    · exact .const (.throw _)
  | _ => exact told_str _

theorem told_printTexts (args : List Value) : Told d fun E => args.mapM (printText E) := .mapM told_printText args

/-! ### Conversions -/

theorem told_toHost (state : Nat) (v : Value) : Told d fun E => toHost E state v := by
  cases v with
  | obj id =>
    refine .after (keeps_object id) fun o => ?_
    cases o with
    | guest g =>
      dsimp only
      split
      · exact (told_createThread state _).bind fun _ => .const (keeps_newObject _)
      · split
        · exact .const (keeps_newObject _)
        · exact .const (keeps_newObject _)
        · exact .const (keeps_newObject _)
        · exact .const (keeps_newObject _)
        · exact .const (keeps_newObject _)
        · exact .pure _
    | _ => exact .pure _
  | text t => exact .after (keeps_configOf state) fun c => .const (keeps_hostText t c.encoding)
  | float x =>
    refine .after (keeps_state? state) fun s => ?_
    cases s <;> exact .pure _
  | _ => exact .pure _

theorem told_toHostValues (state : Nat) (vs : List Value) : Told d fun E => toHostValues E state vs := by
  match vs with
  | [] => exact .pure _
  | [v] => exact told_toHost state v
  | v :: u :: vs => exact (Told.mapM (told_toHost state) _).bind fun us => .const (keeps_newObject _)

theorem told_toHostResult (state : Nat) (r : Except Failure (List Value)) : Told d fun E => toHostResult E state r := by
  cases r with
  | ok vs => exact told_toHostValues state vs
  | error e => exact .const (keeps_newError e.status e.message)

/-! ### Handles -/

theorem told_callValue (f : Value) (args : List Value) : Told d fun E => callValue E f args := by
  cases f with
  | obj id =>
    refine .after (keeps_object id) fun o => ?_
    cases o with
    | guest g =>
      dsimp only
      split
      · exact .after (keeps_threadOf _ _) fun _ => .pure _
      · exact told_callLua _ _ _
    | callback c => exact (Told.callback c args).bind fun _ => .pure _
    | _ => exact .raise _ _
  | _ => exact .after (keeps_typeName _) fun _ => .raise _ _

theorem told_invoke (h : Handle) (args : List Value) : Told d fun E => invoke E h args := by
  refine .after (keeps_requireState _ _) fun s => ?_
  cases s with
  | none => exact .pure _
  | some s =>
    refine Told.holding (.after (keeps_toGuestValues _ _) fun r => ?_)
    cases r with
    | error e => exact .const (keeps_newError _ _)
    | ok args =>
      have hcall : Told d fun E => callValue E h.guest args >>= group :=
        (told_callValue h.guest args).bind fun vs => .const (keeps_group vs)
      exact hcall.protectedCall.bind fun r => told_toHostResult h.state r

theorem told_toMapping (h : Handle) : Told d fun E => toMapping E h := by
  refine .after (keeps_requireState _ _) fun s => ?_
  cases s with
  | none => exact .pure _
  | some s =>
    refine Told.holding (.after (keeps_walk _) fun p => ?_)
    obtain ⟨items, failure⟩ := p
    cases failure with
    | some f => exact .after (keeps_report _ _) fun _ => .pure _
    | none =>
      refine .foldlM (fun entries p => ?_) items []
      refine (told_toHost h.state p.2).bind fun v => (told_toHost h.state p.1).bind fun k => ?_
      refine .after .get fun w => ?_
      split
      · exact .pure _
      · exact .after (keeps_typeName k) fun _ => .raise _ _

/-- The item of a sequence at a key, which has to be a whole number. -/
def indexed (key : Value) (items : List Value) : Bridge (List Value) := do
  match key.int? with
  | some i =>
    match itemAt items i with
    | some v => return [v]
    | none => raise "IndexError" "index out of range"
  | none => raise "TypeError" "indices must be integers or slices"

def entryAt (E : Engine) (key : Value) (ps : List (Value × Value)) : Bridge (List Value) := do
  match (← get).findEntry ps key with
  | some v => return [v]
  | none => throw (.of "KeyError" (← repr E key))

theorem told_getItem (v key : Value) : Told d fun E => getItem E v key := by
  have hindexed (items : List Value) : Told d fun _ => indexed key items := by
    unfold indexed
    split
    · split
      · exact .pure _
      · exact .raise _ _
    · exact .raise _ _
  have hentry (ps : List (Value × Value)) : Told d fun E => entryAt E key ps := by
    refine .after .get fun w => ?_
    split
    · exact .pure _
    · exact (told_repr key).bind fun _ => .const (.throw _)
  cases v with
  | text t => exact hindexed _
  | bytes b => exact hindexed _
  | obj id =>
    refine .after (keeps_object id) fun o => ?_
    cases o with
    | guest g =>
      dsimp only
      split
      · exact .after (keeps_pushKey _ key) fun k => told_runProg g.state _
      · exact .raise _ _
    | list vs => exact hindexed vs
    | tuple vs => exact hindexed vs
    | byteArray b => exact hindexed _
    | dict ps => exact hentry ps
    | proxy ps => exact hentry ps
    | _ => exact .raise _ _
  | _ => exact .after (keeps_typeName _) fun _ => .raise _ _

theorem told_errorValue {text : Engine → Value → Bridge Text} (htext : ∀ v, Told d fun E => text E v) (v : Value) :
    Told d fun E => errorValue (text E) v :=
  (htext v).bind fun _ => (htext v).bind fun _ => .pure _

theorem told_resumeThread (state : Nat) (thread : Value) (args : List Value) :
    Told d fun E => resumeThread E (errorMessage E) state thread args := by
  refine (told_callLua _ _ _).protectedCall.bind fun r => ?_
  cases r with
  | error e => exact .pure _
  | ok results =>
    refine .after (keeps_group results) fun rs => ?_
    cases rs with
    | nil => exact .pure _
    | cons ok values =>
      refine .after (keeps_truthy ok) fun b => ?_
      cases b with
      | false => exact (told_errorValue told_errorMessage _).map _
      | true =>
        refine .after (keeps_isOpen state) fun isOpen => ?_
        cases isOpen with
        | false => exact .raise _ _
        | true =>
          refine (told_callLua _ _ _).bind fun st => ?_
          split
          · split <;> exact .pure _
          · exact .pure _

theorem told_settle (id : Nat) (h : Handle) (status : ErrorStatus) (r : Except Failure (List Value)) :
    Told d fun E => settle E id h status r :=
  .after (keeps_noteStatus _ _) fun _ => told_toHostResult h.state r

theorem told_resume (id : Nat) (h : Handle) (args : List Value) : Told d fun E => resume E id h args := by
  refine .after (keeps_requireState _ _) fun s => ?_
  cases s with
  | none => exact .pure _
  | some s =>
    refine Told.holding (.after (keeps_toGuestValues _ _) fun r => ?_)
    cases r with
    | error e => exact .const (keeps_newError _ _)
    | ok args =>
      refine (told_resumeThread _ _ _).bind fun r => ?_
      cases r with
      | ended vs => exact told_settle id h _ _
      | yielded vs => exact told_settle id h _ _
      | failed e => exact told_settle id h _ _

theorem told_closeThread (state : Nat) (thread : Value) :
    Told d fun E => closeThread E (errorMessage E) state thread := by
  refine .after (keeps_state? state) fun s => ?_
  cases s with
  | none => exact .pure _
  | some s =>
    have hcall : Told d fun E => closingCall E (errorMessage E) state thread := by
      refine (told_callLua _ _ _).protectedCall.bind fun r => ?_
      cases r with
      | error e => exact .const (keeps_logWarning _)
      | ok results =>
        refine .after (keeps_group results) fun vs => ?_
        split
        · exact (told_errorMessage _).map _
        · exact .pure _
    dsimp only
    cases s.closing with
    | refused => exact .raise _ _
    | spared => exact .pure _
    | byHand =>
      dsimp only
      split
      · exact .pure _
      · exact hcall

theorem told_closeCoroutine (id : Nat) : Told d fun E => closeCoroutine E id := by
  refine .after (keeps_object id) fun o => ?_
  cases o with
  | handle h =>
    dsimp only
    split
    · exact .pure _
    · refine .after (fun w r w' hw hset => ?_) fun _ => .after (keeps_isValid h) fun valid => ?_
      · obtain ⟨-, rfl⟩ := Prod.mk.inj (Option.some.inj hset)
        exact ⟨hw, .of_gains (.of_eq rfl)⟩
      · split
        · exact .pure _
        · refine .after (keeps_state? _) fun s => ?_
          cases s with
          | none => exact .pure _
          | some s =>
            dsimp only
            split
            · exact (told_closeThread _ _).holding
            · exact .pure _
  | _ => exact .pure _

theorem told_lookAt (fuel deep : Nat) (v : Value) : Told d fun E => lookAt E fuel deep v := by
  induction fuel generalizing deep v with
  | zero => exact .const keeps_failNesting
  | succ fuel ih =>
    have hall (vs : List Value) : Told d fun E => vs.mapM (lookAt E fuel deep) := .mapM (ih deep) vs
    have hpairs (deep : Nat) (ps : List (Value × Value)) : Told d fun E => ps.mapM fun p => do
        let k ← lookAt E fuel 0 p.1
        return (k, ← lookAt E fuel deep p.2) :=
      .mapM (fun p => (ih 0 p.1).bind fun k => (ih deep p.2).bind fun v => .pure _) ps
    cases v with
    | obj id =>
      refine .after (keeps_object id) fun o => ?_
      cases o with
      | list vs => exact (hall vs).bind fun _ => .pure _
      | tuple vs => exact (hall vs).bind fun _ => .pure _
      | dict ps => exact (hpairs deep ps).bind fun _ => .pure _
      | proxy ps => exact (hpairs deep ps).bind fun _ => .pure _
      | handle h =>
        refine .after (keeps_isValid h) fun valid => ?_
        split
        · exact .pure _
        · split
          · exact (told_toMapping h).bind fun ps => (hpairs _ ps).bind fun _ => .pure _
          · exact .pure _
        · exact .pure _
      | _ => exact .pure _
    | _ => exact .pure _

/-! ### Callbacks and what Lua code asks -/

theorem told_getMember (id : Nat) (key : Value) : Told d fun E => getMember E id key := by
  refine .after (keeps_object id) fun o => ?_
  split_ifs
  · exact told_getItem _ key
  · split
    · exact .after (keeps_attributeOf o _) fun _ => .pure _
    · exact .after (keeps_typeName _) fun _ => .raise _ _

theorem told_makeError (args : List Value) : Told d fun E => makeError E args := by
  have hstatus (v : Value) : Told d fun E => statusOf E v := by
    refine .after .get fun w => ?_
    split
    · exact .pure _
    · exact (told_repr v).bind fun _ => .raise _ _
  unfold makeError
  split
  · exact .pure _
  · exact (hstatus _).bind fun _ => .pure _
  · exact (hstatus _).bind fun _ => (told_str _).bind fun _ => .pure _
  · exact .raise _ _

theorem told_runCallback (c : Callback) (args : List Value) (hc : c ≠ .capture d) :
    Told d fun E => runCallback E c args := by
  cases c with
  | capture diagnostics =>
    have hne : diagnostics ≠ d := fun h => hc (h ▸ rfl)
    refine (told_printTexts args).bind fun parts => .after (fun w r w' hw hadd => ?_) fun _ => .pure _
    obtain ⟨-, rfl⟩ := Prod.mk.inj (Option.some.inj hadd)
    exact ⟨by rwa [HasRecord, Array.size_modify], .of_gains (.other hne w _)⟩
  | errorClass => exact (told_makeError args).bind fun _ => .const (keeps_newObject _)
  | action a language =>
    refine .after (keeps_languageState language) fun state => ?_
    refine (Told.mapM (told_toHost state) args).bind fun hosted => ?_
    refine (Told.mapM (told_lookAt maxLook 0) hosted).bind fun views => .after (keeps_noteCall views) fun _ => ?_
    cases a with
    | args => exact .const (keeps_newObject _)
    | const v => exact .pure v
    | raise f => exact .const (.throw f)
    | invoke var =>
      refine .after (keeps_target var) fun t => ?_
      cases t with
      | some p => exact told_invoke p.2 hosted
      | none => exact .raise _ _
    | resume var =>
      refine .after (keeps_target var) fun t => ?_
      cases t with
      | some p => exact told_resume p.1 p.2 hosted
      | none => exact .raise _ _
    | close var =>
      refine .after (keeps_target var) fun t => ?_
      cases t with
      | some p => exact (told_closeCoroutine p.1).bind fun _ => .pure _
      | none => exact .raise _ _
    | finish => exact .after (keeps_finish language) fun _ => .pure _

theorem told_callObject (state id : Nat) (args : List Lua.Value) : Told d fun E => callObject E state id args := by
  refine .after (keeps_object id) fun o => ?_
  cases o with
  | callback c =>
    exact .after (keeps_fetchAll state args) fun vs => (Told.callback c vs).bind fun r => .const (keeps_pushResult state r)
  | handle h =>
    dsimp only
    split
    · exact .after (keeps_fetchAll state args) fun vs => (told_invoke h vs).bind fun r => .const (keeps_pushResult state r)
    · exact .raise _ _
  | _ => exact .raise _ _

theorem told_answer (state : Nat) (q : Lua.Request) : Told d fun E => answer E state q := by
  cases q with
  | call id args => exact told_callObject state id args
  | text id => exact (told_str _).bind fun t => .after (keeps_push _ _) fun _ => .pure _
  | get id key =>
    refine .after (keeps_fetch state key) fun k => (told_getMember id k).bind fun vs => ?_
    split
    · exact .after (keeps_pushKey _ _) fun _ => .pure _
    · exact .pure _
  | write b =>
    exact .after (keeps_modify fun _ => ⟨rfl, rfl, rfl, rfl, rfl, rfl, rfl⟩) fun _ => .pure _

theorem told_reply (state : Nat) (q : Lua.Request) : Told d fun E => reply E state q := by
  refine (told_answer state q).attempt.bind fun a => ?_
  cases a with
  | ok vs => exact .pure _
  | error f =>
    refine .after (keeps_setPending state (some f)) fun _ => .after (keeps_newObject _) fun o => ?_
    cases o <;> exact .pure _

/-! ### Chunks -/

theorem told_execute (state : Nat) (source : Value) : Told d fun E => execute E state source := by
  have hrun (bytes : Bytes) : Told d fun E => (do
      let f ← load state bytes
      group (← runProg E state (callProg f []))) :=
    .after (keeps_load state bytes) fun f => (told_runProg state _).bind fun vs => .const (keeps_group vs)
  refine .after (keeps_state? state) fun s => ?_
  cases s with
  | none => exact .pure _
  | some s =>
    cases source with
    | text t =>
      dsimp only
      cases s.charset.encodeEscaped t with
      | ok b => exact hrun b
      | error e => exact .const (.throw _)
    | bytes b => exact hrun b
    | _ => exact .after (keeps_classText _) fun _ => .raise _ _

theorem told_doString (state : Nat) (source : Value) : Told d fun E => doString E state source := by
  refine .after (keeps_isOpen state) fun isOpen => ?_
  cases isOpen with
  | false => exact .after (keeps_reportTo _ _) fun _ => .pure _
  | true =>
    exact Told.holding ((told_execute state source).protectedCall.bind fun r => told_toHostResult state r)

theorem told_runIn (language : Nat) (source : Value) : Told d fun E => runIn E language source :=
  .after (keeps_languageState language) fun state => told_doString state source

/-! ### Engines -/

variable {A : Account} {E : Engine} {w w' : World}

/-- What a machine tells on its way is told by what the host answers. -/
theorem said_reaches {state : Nat} {p q : World × Lua.Machine} (hA : A.Knows d E) (h : Reaches E state p q)
    (hp : p.1.HasRecord d) : q.1.HasRecord d ∧ ∃ es, Said d A state p es q := by
  induction h using Relation.ReflTransGen.head_induction_on with
  | refl => exact ⟨hp, [], .refl q⟩
  | head goes _ ih =>
    cases goes with
    | steps step =>
      obtain ⟨hq, es, said⟩ := ih hp
      exact ⟨hq, es, .steps step said⟩
    | answered step reply found =>
      obtain ⟨hv, es, htells⟩ := told_reply state _ hA (w := World.withMachine _ state _) hp reply
      obtain ⟨hq, es', said⟩ := ih hv
      exact ⟨hq, _, .answered step htells found said⟩

/-- A call of what `print` has been made for a record puts one entry on it, after the texts have been made. -/
theorem heard_capture {args : List Value} {r : Except Fault Value} (hA : A.Knows d E) (hw : w.HasRecord d)
    (h : runCallback E (.capture d) args w = some (r, w')) :
    w'.HasRecord d ∧ ∃ es, Heard d A _ (.callback (.capture d) args) w es r w' := by
  rcases bind_some h with ⟨f, hf, rfl⟩ | ⟨parts, v, hparts, hadd⟩
  · obtain ⟨hw', es, texts⟩ := told_printTexts args hA hw hf
    exact ⟨hw', es, .fails texts⟩
  · obtain ⟨hv, es, texts⟩ := told_printTexts args hA hw hparts
    obtain ⟨rfl, rfl⟩ := Prod.mk.inj (Option.some.inj hadd)
    exact ⟨by rwa [HasRecord, Array.size_modify], _, .prints texts⟩

/-- Everything that is told while calls nest to a depth is known. -/
theorem heard_knows (d n : Nat) : (heard d n).Knows d (engine n) := by
  induction n with
  | zero =>
    intro β q w r w' hw h
    cases q with
    | run state p =>
      obtain ⟨rfl, rfl⟩ := Prod.mk.inj (Option.some.inj h)
      exact ⟨hw, [], rfl, rfl, rfl⟩
    | callback c args =>
      obtain ⟨rfl, rfl⟩ := Prod.mk.inj (Option.some.inj h)
      exact ⟨hw, [], rfl, rfl, rfl⟩
  | succ n ih =>
    intro β q w r w' hw h
    cases q with
    | run state p =>
      obtain ⟨s, hs, hdrive⟩ := engineRun_some h
      obtain ⟨a, v, m, m', rfl, hreaches, hdone, rfl⟩ := reaches_drive hdrive
      obtain ⟨hv, es, said⟩ := said_reaches ih hreaches hw
      exact ⟨hv, es, .run hs said hdone⟩
    | callback c args =>
      by_cases hc : c = .capture d
      · subst hc
        exact heard_capture ih hw h
      · obtain ⟨hw', es, told⟩ := told_runCallback c args hc ih hw h
        exact ⟨hw', es, .calls hc told⟩

end Bridge

end HostedLua
