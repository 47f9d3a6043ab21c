import HostedLua.Proofs.Evolution.Keeps

namespace HostedLua.Bridge

open Host

variable {α β : Type} {I : World → Prop} {R : World → World → Prop}

/-- Lua code and callbacks keep an invariant, and the world goes on along a relation. -/
structure EngineKeeps (I : World → Prop) (R : World → World → Prop) (E : Engine) : Prop where
  run : ∀ state p, Keeps I R (E.run state p)
  callback : ∀ c args, Keeps I R (E.callback c args)

attribute [grind ←] EngineKeeps.run EngineKeeps.callback

variable [Admits I R]

/-! ### Values crossing -/

@[grind ←] theorem keeps_fetch (state : Nat) (v : Lua.Value) : Keeps I R (fetch state v) := by
  grind [fetch]

@[grind ←] theorem keeps_fetchAll (state : Nat) (vs : List Lua.Value) : Keeps I R (fetchAll state vs) :=
  .mapM (keeps_fetch state) vs

@[grind ←] theorem keeps_push (state : Nat) (v : Value) : Keeps I R (push state v) := by
  cases v <;> grind [push]

@[grind ←] theorem keeps_pushKey (state : Nat) (v : Value) : Keeps I R (pushKey state v) := by
  grind [pushKey.eq_def]

theorem keeps_setPending (state : Nat) (f : Option Fault) : Keeps I R (modifyState state ({ · with pending := f })) :=
  keeps_modifyState (fun _ h => ⟨h, rfl, rfl, id, .refl _⟩) fun _ => ⟨rfl, id⟩

@[grind ←] theorem keeps_raiseThrown (state : Nat) (t : Lua.Thrown) : Keeps I R (raiseThrown state t : Bridge α) := by
  unfold raiseThrown
  split
  · exact .raise _ _
  · grind
  · refine (keeps_object _).bind fun o => (keeps_state? state).bind fun s => ?_
    split
    · split
      · exact (keeps_setPending state none).bind fun _ => .throw _
      · exact .raise _ _
    · exact .raise _ _
  · exact .raise _ _

@[grind ←] theorem keeps_group (vs : List Value) : Keeps I R (group vs) := by
  grind [group.eq_def]

@[grind ←] theorem keeps_typeName (v : Value) : Keeps I R (typeName v) := by
  grind [typeName.eq_def]

@[grind ←] theorem keeps_chunkClosure (state : Nat) (f : Lua.Func) : Keeps I R (chunkClosure state f) := by
  grind [chunkClosure]

@[grind ←] theorem keeps_load (state : Nat) (source : Bytes) : Keeps I R (load state source) := by
  grind [load]

/-! ### States -/

@[grind ←] theorem keeps_truthy (v : Value) : Keeps I R (truthy v) := by
  grind [truthy.eq_def]

@[grind ←] theorem keeps_config (id : Nat) : Keeps I R (config id) := by
  grind [config]

@[grind ←] theorem keeps_configOf (state : Nat) : Keeps I R (configOf state) := by
  grind [configOf]

@[grind ←] theorem keeps_isOpen (id : Nat) : Keeps I R (isOpen id) := by
  grind [isOpen]

@[grind ←] theorem keeps_closeState (id : Nat) : Keeps I R (closeState id) :=
  keeps_modifyState (fun _ h => ⟨h, rfl, rfl, fun hopen => absurd hopen Bool.false_ne_true, .refl _⟩)
    fun _ => ⟨rfl, fun hopen => absurd hopen Bool.false_ne_true⟩

@[grind ←] theorem keeps_reportTo (state : Nat) (message : Text) : Keeps I R (reportTo state message) := by
  grind [reportTo]

@[grind ←] theorem Keeps.protectedCall {x : Bridge α} (hx : Keeps I R x) : Keeps I R (protectedCall x) := by
  grind [Bridge.protectedCall]

@[grind ←] theorem keeps_logError (text : Text) : Keeps I R (logError text) := keeps_log _

@[grind ←] theorem keeps_logWarning (text : Text) : Keeps I R (logWarning text) := keeps_log _

@[grind ←] theorem keeps_openState? (id : Nat) : Keeps I R (openState? id) := by
  grind [openState?]

@[grind ←] theorem keeps_isAlive (id : Nat) : Keeps I R (isAlive id) := by
  grind [isAlive]

@[grind ←] theorem keeps_isValid (h : Handle) : Keeps I R (isValid h) := by
  grind [isValid]

@[grind ←] theorem keeps_hostText (t : Text) (encoding : Value) : Keeps I R (hostText t encoding) := by
  unfold hostText
  split
  · exact .pure _
  · grind

@[grind ←] theorem keeps_threadOf (state : Nat) (f : Lua.Value) : Keeps I R (threadOf state f) := by
  refine (keeps_state? state).bind fun s => ?_
  split
  · exact .pure _
  · refine Keeps.bind (keeps_modifyState (fun s hs => ?_) fun _ => ⟨rfl, id⟩) fun _ => keeps_newObject _
    exact ⟨hs.push Lua.Machine.noEntry_nil, rfl, rfl, id, .push hs Lua.Machine.noEntry_nil⟩

theorem keeps_newError (status : ErrorStatus) (message : Text) : Keeps I R (newError status message) :=
  keeps_newObject _

theorem keeps_failNesting : Keeps I R (failNesting : Bridge α) := .raise _ _

theorem keeps_plainScript (id : Nat) : Keeps I R (plainScript id) := .pure _

@[grind ←] theorem keeps_intText (i : Int) : Keeps I R (intText i) := by
  unfold intText
  split
  · exact .pure _
  · exact .raise _ _

section Engine

variable {E : Engine} (hE : EngineKeeps I R E)

include hE

@[grind ←] theorem keeps_runProg (state : Nat) (p : Lua.Prog) : Keeps I R (runProg E state p) := by
  grind [runProg]

@[grind ←] theorem keeps_callLua (state : Nat) (f : Lua.Value) (args : List Value) :
    Keeps I R (callLua E state f args) := by
  grind [callLua, Keeps.mapM]

@[grind ←] theorem keeps_newThread (state : Nat) (f : Value) : Keeps I R (newThread E state f) := by
  unfold newThread
  split
  · refine (keeps_object _).bind fun o => ?_
    split
    · split
      · grind
      · refine (keeps_state? _).bind fun s => ?_
        split
        · grind
        · grind
    · grind
  · grind

@[grind ←] theorem keeps_createThread (state : Nat) (f : Value) : Keeps I R (createThread E state f) := by
  grind [createThread]

@[grind ←] theorem keeps_addressOf (state : Nat) (v : Value) : Keeps I R (addressOf E state v) := by
  grind [addressOf]

/-! ### Texts -/

@[grind ←] theorem keeps_handleText (id : Nat) (h : Handle) : Keeps I R (handleText E id h) := by
  grind [handleText]

@[grind ←] theorem keeps_guestText (id : Nat) (g : Guest) (useMeta : Bool) : Keeps I R (guestText E id g useMeta) := by
  refine (keeps_state? _).bind fun s => ?_
  split
  · exact .pure _
  · split
    · exact .pure _
    · exact .pure _
    · grind

theorem keeps_reprWith {script : Nat → Bridge Text} (hscript : ∀ s, Keeps I R (script s)) (depth : Nat)
    (around : List Nat) (v : Value) : Keeps I R (reprWith E script depth around v) := by
  induction depth generalizing around v with
  | zero => exact keeps_failNesting
  | succ depth ih =>
    have hinner (around : List Nat) (vs : List Value) : Keeps I R (vs.mapM (reprWith E script depth around)) :=
      .mapM (ih around) vs
    have hpair (around : List Nat) (p : Value × Value) : Keeps I R (do
        let k ← reprWith E script depth around p.1
        return k ++ ": " ++ (← reprWith E script depth around p.2)) :=
      (ih around p.1).bind fun k => (ih around p.2).bind fun v => .pure _
    have hpairs (around : List Nat) (ps : List (Value × Value)) := Keeps.mapM (hpair around) ps
    unfold reprWith
    split <;> try exact .pure _
    · exact keeps_intText _
    refine (keeps_object _).bind fun o => ?_
    split <;> try grind
    · split
      · exact .pure _
      · exact (hpairs _ _).bind fun _ => .pure _
    · split
      · exact .pure _
      · exact (hpairs _ _).bind fun _ => .pure _

theorem keeps_quotedText {script : Nat → Bridge Text} (hscript : ∀ s, Keeps I R (script s)) (v : Value) :
    Keeps I R (quotedText E script v) :=
  Keeps.get.bind fun _ => keeps_reprWith hE hscript _ [] v

theorem keeps_strWith {script : Nat → Bridge Text} (hscript : ∀ s, Keeps I R (script s)) (v : Value) :
    Keeps I R (strWith E script v) := by
  have hrepr := keeps_quotedText hE hscript
  unfold strWith
  split <;> grind

@[grind ←] theorem keeps_str (v : Value) : Keeps I R (str E v) := keeps_strWith hE keeps_plainScript v

@[grind ←] theorem keeps_repr (v : Value) : Keeps I R (repr E v) := keeps_quotedText hE keeps_plainScript v

@[grind ←] theorem keeps_errorMessage (v : Value) : Keeps I R (errorMessage E v) := by
  unfold errorMessage
  split <;> grind

@[grind ←] theorem keeps_printText (v : Value) : Keeps I R (printText E v) := by
  unfold printText
  split <;> grind

/-! ### Conversions -/

@[grind ←] theorem keeps_toHost (state : Nat) (v : Value) : Keeps I R (toHost E state v) := by
  unfold toHost
  split
  · grind
  · grind
  · refine (keeps_object _).bind fun o => ?_
    split
    · split
      · grind [newHandle]
      · grind [newHandle]
    · grind
  · grind

@[grind ←] theorem keeps_toHostValues (state : Nat) (vs : List Value) : Keeps I R (toHostValues E state vs) := by
  unfold toHostValues
  split
  · exact .pure _
  · grind
  · exact (Keeps.mapM (keeps_toHost hE state) _).bind fun _ => keeps_newObject _

@[grind ←] theorem keeps_toHostResult (state : Nat) (r : Except Failure (List Value)) :
    Keeps I R (toHostResult E state r) := by
  cases r with
  | ok vs => exact keeps_toHostValues hE state vs
  | error e => exact keeps_newError e.status e.message

end Engine

@[grind ←] theorem keeps_newTable (state : Nat) : Keeps I R (newTable state) := by
  grind [newTable]

@[grind ←] theorem keeps_putRaw (state : Nat) (table key value : Value) :
    Keeps I R (putRaw state table key value) := by
  unfold putRaw
  split
  · refine (keeps_object _).bind fun o => ?_
    split
    · refine (keeps_pushKey _ _).bind fun k => (keeps_push _ _).bind fun v => ?_
      split
      · exact keeps_modifyHeap _ _
      · exact .raise _ _
    · exact .raise _ _
  · exact .raise _ _

/-- A conversion under way keeps what a computation keeps, whatever tables it has met. -/
def KeepsSeen (I : World → Prop) (R : World → World → Prop) (x : StateT Seen Bridge α) : Prop := ∀ σ, Keeps I R (x σ)

theorem KeepsSeen.bind {x : StateT Seen Bridge α} {f : α → StateT Seen Bridge β} (hx : KeepsSeen I R x)
    (hf : ∀ a, KeepsSeen I R (f a)) : KeepsSeen I R (x >>= f) :=
  fun σ => (hx σ).bind fun p => hf p.1 p.2

theorem KeepsSeen.pure (a : α) : KeepsSeen I R (pure a) := fun _ => Keeps.pure _

theorem KeepsSeen.lift {x : Bridge α} (hx : Keeps I R x) : KeepsSeen I R (liftM x) := fun _ => hx.bind fun _ => .pure _

theorem KeepsSeen.get : KeepsSeen I R get := fun _ => Keeps.pure _

theorem KeepsSeen.modify (f : Seen → Seen) : KeepsSeen I R (modify f) := fun _ => Keeps.pure _

theorem KeepsSeen.forM {f : α → StateT Seen Bridge PUnit} (hf : ∀ a, KeepsSeen I R (f a)) (l : List α) :
    KeepsSeen I R (l.forM f) := by
  induction l with
  | nil => exact .pure _
  | cons a l ih => exact (hf a).bind fun _ => ih

/-- Entries go into a table as their values and keys are converted. -/
theorem keeps_entries {convert : Value → StateT Seen Bridge Value} (h : ∀ v, KeepsSeen I R (convert v)) (state : Nat)
    (table : Value) (items : List (Value × Value)) :
    KeepsSeen I R (items.forM fun (k, v) => do
      if !skipsKey k then
        let v ← convert v
        let k ← convert k
        putRaw state table k v) := by
  refine KeepsSeen.forM (fun e => ?_) items
  dsimp only
  split
  · exact (h _).bind fun v => (h _).bind fun k => .lift (keeps_putRaw _ _ _ _)
  · exact .pure _

theorem keeps_toGuestAt (state depth : Nat) (v : Value) : KeepsSeen I R (toGuestAt state depth v) := by
  induction depth generalizing v with
  | zero => exact fun _ => keeps_failNesting
  | succ depth ih =>
    unfold toGuestAt
    split
    · refine (KeepsSeen.lift (keeps_configOf state)).bind fun c => ?_
      split
      · split
        · exact .pure _
        · exact .lift (.throw _)
      · exact .pure _
    · split
      · exact .pure _
      · split
        · exact .pure _
        · exact fun _ => .raise _ _
    · refine (KeepsSeen.lift (keeps_object _)).bind fun o => ?_
      split
      · refine (KeepsSeen.lift (keeps_isValid _)).bind fun valid => ?_
        split
        · exact .pure _
        · exact (KeepsSeen.lift (keeps_reportTo _ _)).bind fun _ => .pure _
      · split
        · exact .pure _
        · next items failure _ =>
          refine KeepsSeen.get.bind fun seen => ?_
          split
          · exact .pure _
          · refine (KeepsSeen.lift (keeps_newTable state)).bind fun table => ?_
            have hentries := keeps_entries ih state table items
            cases failure with
            | none =>
              dsimp only
              split
              · exact hentries.bind fun _ => .pure _
              · exact (KeepsSeen.modify _).bind fun _ => hentries.bind fun _ => .pure _
            | some f =>
              dsimp only
              split
              · exact hentries.bind fun _ => .lift (.throw f)
              · exact (KeepsSeen.modify _).bind fun _ => hentries.bind fun _ => .lift (.throw f)
    · exact .pure _

@[grind ←] theorem keeps_toGuest (state : Nat) (v : Value) : Keeps I R (toGuest state v) :=
  Keeps.get.bind fun _ => (keeps_toGuestAt state _ v []).bind fun _ => .pure _

@[grind ←] theorem keeps_toGuestValues (state : Nat) (vs : List Value) : Keeps I R (toGuestValues state vs) :=
  (Keeps.mapM (keeps_toGuest state) vs).protectedCall

end HostedLua.Bridge
