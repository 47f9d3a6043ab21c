import HostedLua.Proofs.Evolution.Host

/-! What operations on handles keep. They call Lua and convert what comes of it; only the notes that a handle
carries are replaced. -/

namespace HostedLua.Bridge

open Host

variable {α : Type} {I : World → Prop} {R : World → World → Prop} [Admits I R]

@[grind ←] theorem keeps_requireState (h : Handle) (what : Text) : Keeps I R (requireState h what) := by
  grind [requireState]

@[grind ←] theorem keeps_handle? (v : Value) : Keeps I R (handle? v) := by
  grind [handle?.eq_def]

@[grind ←] theorem keeps_tableItems (g : Guest) : Keeps I R (tableItems g) := by
  refine (keeps_state? _).bind fun s => ?_
  split
  · exact .mapM (fun p => (keeps_fetch _ _).bind fun k => (keeps_fetch _ _).bind fun v => .pure _) _
  · exact .pure _

@[grind ←] theorem keeps_walk (v : Value) : Keeps I R (walk v) := by
  unfold walk
  split
  · refine (keeps_object _).bind fun o => ?_
    split <;> grind
  · grind

theorem keeps_modifyHandle {id : Nat} {f : Handle → Handle}
    (hf : ∀ g : Handle, g.Kept (f g) ∧ (g.closed = true → (f g).closed = true)) : Keeps I R (modifyHandle id f) := by
  intro w r w' hw h
  rw [modifyHandle, bind_ok (object_apply id w)] at h
  cases hid : w.objects[id]? with
  | none =>
    rw [hid] at h
    exact Keeps.pure _ hw h
  | some o =>
    rw [hid] at h
    cases o with
    | handle g => exact keeps_setHandle hw hid (hf g).1 (hf g).2 h
    | _ => exact Keeps.pure _ hw h

theorem keeps_noteStatus (id : Nat) (status : ErrorStatus) :
    Keeps I R (modifyHandle id ({ · with status := .ofStatus status })) :=
  keeps_modifyHandle fun _ => ⟨⟨rfl, rfl, rfl, rfl⟩, fun hclosed => hclosed⟩

theorem keeps_errorValue {text : Value → Bridge Text} (htext : ∀ v, Keeps I R (text v)) (v : Value) :
    Keeps I R (errorValue text v) := by
  grind [errorValue]

theorem keeps_classText (v : Value) : Keeps I R (classText v) := (keeps_typeName v).bind fun _ => .pure _

section Engine

variable {E : Engine} (hE : EngineKeeps I R E)

include hE

@[grind ←] theorem keeps_callValue (f : Value) (args : List Value) : Keeps I R (callValue E f args) := by
  unfold callValue
  split
  · refine (keeps_object _).bind fun o => ?_
    split <;> grind
  · grind

@[grind ←] theorem keeps_invoke (h : Handle) (args : List Value) : Keeps I R (invoke E h args) := by
  refine (keeps_requireState _ _).bind fun s => ?_
  split
  · exact .pure _
  · refine Keeps.holding ((keeps_toGuestValues _ _).bind fun r => ?_)
    split
    · exact keeps_newError _ _
    · refine Keeps.bind ?_ fun r => keeps_toHostResult hE _ r
      exact ((keeps_callValue hE _ _).bind fun vs => keeps_group vs).protectedCall

@[grind ←] theorem keeps_toMapping (h : Handle) : Keeps I R (toMapping E h) := by
  refine (keeps_requireState _ _).bind fun s => ?_
  split
  · exact .pure _
  · refine Keeps.holding ((keeps_walk _).bind fun p => ?_)
    obtain ⟨items, failure⟩ := p
    cases failure with
    | some f => exact (keeps_report _ _).bind fun _ => .pure _
    | none =>
      refine .foldlM (fun entries q => ?_) _ _
      grind

@[grind ←] theorem keeps_getItem (v key : Value) : Keeps I R (getItem E v key) := by
  cases v with
  | obj id =>
    refine (keeps_object id).bind fun o => ?_
    cases o with
    | guest g =>
      dsimp only
      split <;> grind
    | _ => grind
  | _ => grind [getItem]

theorem keeps_resumeThread {text : Value → Bridge Text} (htext : ∀ v, Keeps I R (text v)) (state : Nat)
    (thread : Value) (args : List Value) : Keeps I R (resumeThread E text state thread args) := by
  refine (keeps_callLua hE _ _ _).protectedCall.bind fun r => ?_
  split
  · exact .pure _
  · refine (keeps_group _).bind fun rs => ?_
    split
    · exact .pure _
    · refine (keeps_truthy _).bind fun ok => ?_
      split
      · exact (keeps_errorValue htext _).map
      · refine (keeps_isOpen _).bind fun isOpen => ?_
        split
        · exact .raise _ _
        · refine (keeps_callLua hE _ _ _).bind fun st => ?_
          split
          · split <;> exact .pure _
          · exact .pure _

theorem keeps_settle (id : Nat) (h : Handle) (status : ErrorStatus) (r : Except Failure (List Value)) :
    Keeps I R (settle E id h status r) :=
  (keeps_noteStatus _ _).bind fun _ => keeps_toHostResult hE _ r

theorem keeps_resumeValid (id : Nat) (h : Handle) (args : List Value) : Keeps I R (resumeValid E id h args) := by
  refine (keeps_toGuestValues _ _).bind fun r => ?_
  split
  · exact keeps_newError _ _
  · refine (keeps_resumeThread hE (keeps_errorMessage hE) _ _ _).bind fun r => ?_
    split
    · exact keeps_settle hE _ _ _ _
    · exact keeps_settle hE _ _ _ _
    · exact keeps_settle hE _ _ _ _

theorem keeps_resume (id : Nat) (h : Handle) (args : List Value) : Keeps I R (resume E id h args) := by
  refine (keeps_requireState _ _).bind fun s => ?_
  split
  · exact .pure _
  · exact (keeps_resumeValid hE id h args).holding

/-- The call that closes a thread, and what becomes of its results. -/
def closingCall (E : Engine) (text : Value → Bridge Text) (state : Nat) (thread : Value) : Bridge Unit := do
  match ← protectedCall (callLua E state (.builtin .coClose) [thread]) with
  | .error e => logWarning ("coroutine.close failed: " ++ e.message)
  | .ok results =>
    match ← group results with
    | .bool false :: values => discard (text (values.headD .none))
    | _ => return

theorem keeps_closingCall {text : Value → Bridge Text} (htext : ∀ v, Keeps I R (text v)) (state : Nat)
    (thread : Value) : Keeps I R (closingCall E text state thread) := by
  refine (keeps_callLua hE _ _ _).protectedCall.bind fun r => ?_
  split
  · exact keeps_logWarning _
  · refine (keeps_group _).bind fun vs => ?_
    split
    · exact (htext _).map
    · exact .pure _

theorem keeps_closeThread {text : Value → Bridge Text} (htext : ∀ v, Keeps I R (text v)) (state : Nat)
    (thread : Value) : Keeps I R (closeThread E text state thread) := by
  refine (keeps_state? state).bind fun s => ?_
  cases s with
  | none => exact .pure _
  | some s =>
    dsimp only
    split
    · exact .raise _ _
    · exact .pure _
    · split
      · exact .pure _
      · exact keeps_closingCall hE htext state thread

theorem keeps_closeCoroutine (id : Nat) : Keeps I R (closeCoroutine E id) := by
  intro w r w' hw h
  rw [closeCoroutine, bind_ok (object_apply id w)] at h
  cases hid : w.objects[id]? with
  | none =>
    rw [hid] at h
    exact Keeps.pure _ hw h
  | some o =>
    rw [hid] at h
    cases o with
    | handle g =>
      dsimp only [Option.getD_some] at h
      split at h
      · exact Keeps.pure _ hw h
      · have hclosed : g.Kept { g with closed := true } := ⟨rfl, rfl, rfl, rfl⟩
        refine keeps_after (keeps_setHandle hw hid hclosed fun _ => rfl) (fun _ => ?_) h
        refine (keeps_isValid g).bind fun valid => ?_
        split
        · exact .pure _
        · refine (keeps_state? _).bind fun s => ?_
          split
          · split
            · exact (keeps_closeThread hE (keeps_errorMessage hE) _ _).holding
            · exact .pure _
          · exact .pure _
    | _ => exact Keeps.pure _ hw h

theorem keeps_getValue (h : Handle) (key default : Value) : Keeps I R (getValue E h key default) := by
  refine (keeps_isValid h).bind fun valid => ?_
  split
  · exact .pure _
  · refine Keeps.holding ((keeps_toGuest _ _).bind fun key => ?_)
    refine ((keeps_getItem hE _ _).bind fun vs => keeps_group vs).protectedCall.bind fun r => ?_
    split
    · split
      · exact .pure _
      · exact keeps_toHost hE _ _
    · exact .pure _

theorem keeps_createCoroutine (f : Value) : Keeps I R (createCoroutine E f) := by
  refine (keeps_handle? f).bind fun found => ?_
  split
  · split
    · refine (keeps_requireState _ _).bind fun s => ?_
      split
      · exact .pure _
      · refine (keeps_createThread hE _ _).holding.bind fun thread => ?_
        split
        · exact .pure _
        · exact keeps_newObject _
    · refine (keeps_isAlive _).bind fun alive => ?_
      split
      · exact (keeps_reportTo _ _).bind fun _ => .pure _
      · exact (keeps_logError _).bind fun _ => .pure _
  · exact (keeps_logError _).bind fun _ => .pure _

theorem keeps_execute (state : Nat) (source : Value) : Keeps I R (execute E state source) := by
  refine (keeps_state? state).bind fun s => ?_
  have hrun (bytes : Bytes) : Keeps I R (do
      let f ← load state bytes
      group (← runProg E state (callProg f []))) :=
    (keeps_load _ _).bind fun f => (keeps_runProg hE _ _).bind fun vs => keeps_group vs
  cases s with
  | none => exact .pure _
  | some s =>
    cases source with
    | text t =>
      dsimp only
      cases s.charset.encodeEscaped t with
      | ok b => exact (Keeps.pure b).bind hrun
      | error e => exact (Keeps.throw _).bind hrun
    | bytes b => exact (Keeps.pure b).bind hrun
    | _ => exact (keeps_classText _).bind fun _ => (Keeps.raise _ _).bind hrun

end Engine

end HostedLua.Bridge
