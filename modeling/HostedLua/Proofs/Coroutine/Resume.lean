import HostedLua.Proofs.Coroutine.Calls
import HostedLua.Proofs.Crossing.Held
import HostedLua.Proofs.Crossing.PassThrough
import HostedLua.Proofs.Faults.Raises
import Mathlib

/-! Resuming a coroutine handle. What a resumption comes to is a host value or an error value, whatever the
handle, the arguments, and what the coroutine and the callbacks that it calls do, up to what happens once
`coroutine.resume` has given its values back: the thread's state is asked for although the state may have been
closed meanwhile, an error value may have no text, and text may not fit options that were changed. -/

namespace HostedLua

open Host

namespace Bridge

variable {n state id : Nat} {h : Handle} {w w' : World} {thread : Value} {args values : List Value} {f : Fault}
  {text : Value → Bridge Text}

/-! ### Resuming a thread -/

def closedFault : Fault := .of "TypeError" "'NoneType' object is not callable"

/-- What comes of resuming a thread: it is refused; it fails, with an error value that has a text or has none; its
state is closed meanwhile; or it has returned or is suspended, as `coroutine.status` tells. -/
inductive Comes (E : Engine) (text : Value → Bridge Text) (state : Nat) (thread : Value) (args : List Value)
    (w : World) : Except Fault Resumption → World → Prop where
  | refused {e : Failure} {w' : World} : Comes E text state thread args w (.ok (.failed e)) w'
  | failed {values : List Value} {w₁ w' : World} {r : Except Fault Failure}
    (resumed : callLua E state (.builtin .coResume) (thread :: args) w = some (.ok (.bool false :: values), w₁))
    (error : errorValue text (values.headD .none) w₁ = some (r, w')) :
    Comes E text state thread args w (r.map .failed) w'
  | closed {values : List Value} {w' : World}
    (resumed : callLua E state (.builtin .coResume) (thread :: args) w = some (.ok (.bool true :: values), w'))
    (closed : isOpen state w' = some (.ok false, w')) :
    Comes E text state thread args w (.error closedFault) w'
  | stopped {values : List Value} {t : Text} {w₁ w' : World}
    (resumed : callLua E state (.builtin .coResume) (thread :: args) w = some (.ok (.bool true :: values), w₁))
    (opened : isOpen state w₁ = some (.ok true, w₁))
    (status : callLua E state (.builtin .coStatus) [thread] w₁ = some (.ok [.text t], w')) :
    Comes E text state thread args w (.ok (if t == ("dead" : Text) then .ended values else .yielded values)) w'
  | extraordinary {f : Fault} {w' : World} (h : f.isOrdinary = false) :
    Comes E text state thread args w (.error f) w'

theorem isOpen_total (state : Nat) (w : World) : ∃ b, isOpen state w = some (.ok b, w) := by
  rw [isOpen, bind_ok (state?_apply state w)]
  cases w.states[state]? <;> exact ⟨_, rfl⟩

/-- What is done with the values of `coroutine.resume`. -/
theorem resumeThread_eq {E : Engine} {ok : Bool} {w₁ : World}
    (hc : callLua E state (.builtin .coResume) (thread :: args) w = some (.ok (.bool ok :: values), w₁)) :
    resumeThread E text state thread args w = (if !ok then .failed <$> errorValue text (values.headD .none) else do
      if !(← isOpen state) then throw closedFault
      else
        match ← callLua E state (.builtin .coStatus) [thread] with
        | [.text t] => if t == ("dead" : Text) then return .ended values else return .yielded values
        | _ => return .yielded values) w₁ := by
  have hgroup : group (.bool ok :: values) w₁ = some (.ok (.bool ok :: values), w₁) := by
    cases values <;> rfl
  have htruthy : truthy (.bool ok) w₁ = some (.ok ok, w₁) := rfl
  rw [resumeThread, bind_ok (protectedCall_ok hc)]
  dsimp only
  rw [bind_ok hgroup]
  dsimp only
  rw [bind_ok htruthy]
  rfl

/-- Once a thread was resumed, it can be asked for its state, unless its own state is closed. -/
theorem comes_of_resumed {m : Nat} {ok : Bool} {v : World} {r : Except Fault Resumption} (hv : v.Sound)
    (hthread : v.HasThread state thread)
    (hc : callLua (engine (m + 1)) state (.builtin .coResume) (thread :: args) w =
      some (.ok (.bool ok :: values), v))
    (h : resumeThread (engine (m + 1)) text state thread args w = some (r, w')) :
    Comes (engine (m + 1)) text state thread args w r w' := by
  rw [resumeThread_eq hc] at h
  cases ok with
  | false =>
    replace h : (.failed <$> errorValue text (values.headD .none)) v = some (r, w') := h
    rw [map_apply] at h
    obtain ⟨⟨r₁, w₁⟩, herror, heq⟩ := Option.map_eq_some_iff.mp h
    obtain ⟨rfl, rfl⟩ := Prod.mk.inj heq
    exact .failed hc herror
  | true =>
    obtain ⟨opened, ho⟩ := isOpen_total state v
    rw [if_neg (by decide), bind_ok ho] at h
    cases opened with
    | false =>
      obtain ⟨rfl, rfl⟩ := Prod.mk.inj (Option.some.inj h)
      exact .closed hc ho
    | true =>
      rw [if_neg (by decide)] at h
      rcases bind_some h with ⟨e, he, rfl⟩ | ⟨rs, v', hs, h⟩
      · obtain ⟨t, ht⟩ := callLua_coStatus hv hthread he
        cases ht
      · obtain ⟨t, ht⟩ := callLua_coStatus hv hthread hs
        obtain rfl := Except.ok.inj ht
        have hend : some (Except.ok (if t == ("dead" : Text) then .ended values else .yielded values), v') =
            some (r, w') := by
          rw [← h]
          dsimp only
          split <;> rfl
        obtain ⟨rfl, rfl⟩ := Prod.mk.inj (Option.some.inj hend)
        exact .stopped hc ho hs

theorem resumeThread_comes {r : Except Fault Resumption} (hw : w.Sound)
    (h : resumeThread (engine n) text state thread args w = some (r, w')) :
    Comes (engine n) text state thread args w r w' := by
  rcases bind_some h with ⟨e, he, rfl⟩ | ⟨a, v, ha, hrest⟩
  · rcases protectedCall_some he with ⟨_, -, hr⟩ | ⟨_, hr⟩ | ⟨f, hf, hr⟩
    · cases hr
    · cases hr
    · obtain rfl := Except.error.inj hr
      exact .extraordinary hf
  · rcases protectedCall_some ha with ⟨results, hc, hr⟩ | ⟨e, hr⟩ | ⟨f, -, hr⟩
    · obtain ⟨ok, values, rfl, hthread, hv, ⟨m, rfl⟩, -⟩ := callLua_coResume hw hc
      exact comes_of_resumed hv hthread hc h
    · obtain rfl := Except.ok.inj hr
      obtain ⟨rfl, rfl⟩ := Prod.mk.inj (Option.some.inj hrest)
      exact .refused
    · cases hr

/-! ### What a resumption came to -/

theorem modifyHandle_total (id : Nat) (g : Handle → Handle) (w : World) :
    ∃ w', modifyHandle id g w = some (.ok ⟨⟩, w') := by
  rw [modifyHandle, bind_ok (object_apply id w)]
  cases (w.objects[id]?).getD .nothing <;> exact ⟨_, rfl⟩

/-- A failure is noted and becomes an error value. -/
theorem quiet_settle_error (status : ErrorStatus) (e : Failure) :
    Quiet (settle (engine n) id h status (.error e)) := by
  have hmodify : Quiet (modifyHandle id ({ · with status := .ofStatus status })) :=
    .of_ok fun w => ⟨⟨⟩, modifyHandle_total id _ w⟩
  exact .bind (keeps_noteStatus _ _) hmodify fun _ => quiet_newError _ _

/-- Values are noted and take their host form, unless one is text that is refused. -/
theorem settle_ok_error {s : LuaState} {status : ErrorStatus} (hw : w.Sound) (hs : w.states[h.state]? = some s)
    (hf : f.isOrdinary = true) (hsettle : settle (engine n) id h status (.ok values) w = some (.error f, w')) :
    ∃ t, .text t ∈ values ∧ Refuses (w.encoding h.state) t f := by
  obtain ⟨w₁, hw₁⟩ := modifyHandle_total id ({ · with status := .ofStatus status }) w
  obtain ⟨hsound, hk⟩ := keeps_noteStatus _ _ hw hw₁
  obtain ⟨s₁, hs₁, -⟩ := hk.states hs
  rw [settle, bind_ok hw₁] at hsettle
  obtain ⟨t, ht, hrefuses⟩ := toHostValues_error hsound hs₁ hf hsettle
  exact ⟨t, ht, hk.encoding hs ▸ hrefuses⟩

/-! ### Resuming a handle -/

/-- A handle is resumed and `coroutine.resume` says how that went, with some values: the handle is valid, and the
arguments have a form that is pushed. -/
def Resumed (E : Engine) (id : Nat) (h : Handle) (args : List Value) (w : World) (ok : Bool) (values : List Value)
    (w' : World) : Prop :=
  isValid h w = some (.ok true, w) ∧ ∃ guests w₀,
    toGuestValues h.state args (w.hold (.obj id :: h.guest :: args) h.state) = some (.ok (.ok guests), w₀) ∧
      callLua E h.state (.builtin .coResume) (h.guest :: guests) w₀ = some (.ok (.bool ok :: values), w')

inductive Escapes (E : Engine) (id : Nat) (h : Handle) (w : World) : Bool → List Value → Fault → Prop where
  /-- The state was closed meanwhile, and the thread's own state is asked for all the same. -/
  | closed {values : List Value} (closed : isOpen h.state w = some (.ok false, w)) :
    Escapes E id h w true values closedFault
  /-- The text of an error value cannot be had. -/
  | textless {values : List Value} {f : Fault} {w' : World}
    (error : errorValue (errorMessage E) (values.headD .none) w = some (.error f, w')) (cause : Textless w' f) :
    Escapes E id h w false values f
  /-- A string with undecodable bytes does not fit the options, which have been changed since the state was
  opened. -/
  | refused {values : List Value} {f : Fault} {s : LuaState} {b : Bytes} {t : Text} {w₁ w₂ : World}
    (opened : isOpen h.state w = some (.ok true, w))
    (status : callLua E h.state (.builtin .coStatus) [h.guest] w = some (.ok [.text t], w₁))
    (settled : settle E id h (if t == ("dead" : Text) then .ok else .yielded) (.ok values) w₁ =
      some (.error f, w₂))
    (found : w.states[h.state]? = some s) (mem : .text (s.charset.decodeEscaped b) ∈ values)
    (changed : charset? (w.encoding h.state) ≠ some s.charset)
    (refuses : Refuses (w.encoding h.state) (s.charset.decodeEscaped b) f) : Escapes E id h w true values f

/-- A valid handle is resumed while it is held; any other is reported, and nothing is raised. -/
theorem resume_error_iff {E : Engine} :
    (∃ w', resume E id h args w = some (.error f, w')) ↔ isValid h w = some (.ok true, w) ∧
      ∃ w', resumeValid E id h args (w.hold (.obj id :: h.guest :: args) h.state) = some (.error f, w') := by
  obtain ⟨valid, hv⟩ := isValid_total h w
  cases valid with
  | false =>
    rw [resume, bind_ok (requireState_invalid "thread" hv)]
    simp [hv]
  | true =>
    obtain ⟨s, -, hrequire⟩ := requireState_valid "thread" hv
    rw [resume, bind_ok hrequire]
    simp only [hv, true_and]
    constructor
    · rintro ⟨w', hr⟩
      obtain ⟨v, hr, -⟩ := holding_some hr
      exact ⟨v, hr⟩
    · rintro ⟨v, hr⟩
      exact ⟨_, holding_of hr⟩

/-- What escapes from what is done with the values of `coroutine.resume` escapes. -/
theorem Escapes.resumeValid {E : Engine} {ok : Bool} {guests : List Value} {w₀ w₁ : World}
    (hescapes : Escapes E id h w₁ ok values f)
    (hguests : toGuestValues h.state args w = some (.ok (.ok guests), w₀))
    (hc : callLua E h.state (.builtin .coResume) (h.guest :: guests) w₀ = some (.ok (.bool ok :: values), w₁)) :
    ∃ w', Bridge.resumeValid E id h args w = some (.error f, w') := by
  have hthread : resumeThread E (errorMessage E) h.state h.guest guests w₀ = _ := resumeThread_eq hc
  rw [Bridge.resumeValid, bind_ok hguests]
  dsimp only
  cases hescapes with
  | closed closed =>
    rw [if_neg (by decide), bind_ok closed] at hthread
    exact ⟨w₁, bind_error hthread⟩
  | @textless _ _ w' error =>
    rw [if_pos (by decide), map_apply, error] at hthread
    exact ⟨w', bind_error hthread⟩
  | refused opened status settled =>
    rw [if_neg (by decide), bind_ok opened, if_neg (by decide), bind_ok status] at hthread
    dsimp only at hthread
    split_ifs at hthread settled
    · exact ⟨_, (bind_ok hthread).trans settled⟩
    · exact ⟨_, (bind_ok hthread).trans settled⟩

section Escapes

variable {guests : List Value} {r : Resumption} (hw : w.Sound) (hf : f.isOrdinary = true)

include hw hf

/-- A fault that resuming a thread raises escapes. -/
theorem escapes_of_error (hc : Comes (engine n) (errorMessage (engine n)) h.state h.guest guests w (.error f) w') :
    ∃ ok values w₁,
      callLua (engine n) h.state (.builtin .coResume) (h.guest :: guests) w = some (.ok (.bool ok :: values), w₁) ∧
        Escapes (engine n) id h w₁ ok values f := by
  generalize hr : (Except.error f : Except Fault Resumption) = r at hc
  cases hc with
  | refused => cases hr
  | @failed values w₁ _ r resumed error =>
    cases r with
    | ok e => cases hr
    | error e =>
      obtain rfl := Except.error.inj hr
      obtain ⟨_, _, -, -, hw₁, ⟨m, rfl⟩, -⟩ := callLua_coResume hw resumed
      exact ⟨false, values, w₁, resumed, .textless error (spells_errorValue _ hw₁ error hf)⟩
  | @closed values _ resumed closed =>
    obtain rfl := Except.error.inj hr
    exact ⟨true, values, w', resumed, .closed closed⟩
  | stopped => cases hr
  | extraordinary hne =>
    obtain rfl := Except.error.inj hr
    exact absurd hf (ne_true_of_eq_false hne)

/-- A fault in giving what a resumption came to its host form escapes. -/
theorem escapes_of_settle {w'' : World}
    (hc : Comes (engine n) (errorMessage (engine n)) h.state h.guest guests w (.ok r) w') (hw' : w'.Sound)
    (hsettle : (match r with
      | .ended vs => settle (engine n) id h .ok (.ok vs)
      | .yielded vs => settle (engine n) id h .yielded (.ok vs)
      | .failed e => settle (engine n) id h e.status (.error e)) w' = some (.error f, w'')) :
    ∃ ok values w₁,
      callLua (engine n) h.state (.builtin .coResume) (h.guest :: guests) w = some (.ok (.bool ok :: values), w₁) ∧
        Escapes (engine n) id h w₁ ok values f := by
  generalize hr : (Except.ok r : Except Fault Resumption) = r' at hc
  cases hc with
  | refused =>
    obtain rfl := Except.ok.inj hr
    exact (quiet_settle_error _ _ hw' hsettle hf).elim
  | @failed values w₁ _ r' resumed error =>
    cases r' with
    | ok e =>
      obtain rfl := Except.ok.inj hr
      exact (quiet_settle_error _ _ hw' hsettle hf).elim
    | error e => cases hr
  | closed => cases hr
  | @stopped values t w₁ _ resumed opened status =>
    obtain rfl := Except.ok.inj hr
    obtain ⟨_, _, heq, ⟨_, _, _, s, -, -, -, -, hs, -⟩, hw₁, -, htexts⟩ := callLua_coResume hw resumed
    obtain ⟨-, rfl⟩ := List.cons.inj heq
    obtain ⟨-, hk⟩ := keeps_callLua (engine_keeps n) _ _ _ hw₁ status
    obtain ⟨s', hs', -⟩ := hk.states hs
    have hsettled : settle (engine n) id h (if t == ("dead" : Text) then .ok else .yielded) (.ok values) w' =
        some (.error f, w'') := by
      split_ifs at hsettle ⊢ <;> exact hsettle
    obtain ⟨u, hmem, hrefuses⟩ := settle_ok_error hw' hs' hf hsettled
    rw [hk.encoding hs] at hrefuses
    obtain ⟨s₁, b, hs₁, rfl⟩ := htexts u hmem
    refine ⟨true, values, w₁, resumed, .refused opened status hsettled hs₁ hmem (fun hcharset => ?_) hrefuses⟩
    have hfits := hostText_decodeEscaped (w := w₁) hcharset b
    rw [hrefuses w₁] at hfits
    cases hfits
  | extraordinary => cases hr

end Escapes

/-- What escapes from resuming a valid handle escapes from what is done with the values of `coroutine.resume`. -/
theorem resumeValid_error (hw : w.Sound) (hf : f.isOrdinary = true)
    (hresume : resumeValid (engine n) id h args w = some (.error f, w')) :
    ∃ guests w₀ ok values w₁, toGuestValues h.state args w = some (.ok (.ok guests), w₀) ∧
      callLua (engine n) h.state (.builtin .coResume) (h.guest :: guests) w₀ = some (.ok (.bool ok :: values), w₁) ∧
      Escapes (engine n) id h w₁ ok values f := by
  rcases bind_some hresume with ⟨e, he, hr⟩ | ⟨a, w₀, ha, hrest⟩
  · obtain rfl := Except.error.inj hr
    exact (quiet_protectedCall _ hw he hf).elim
  obtain ⟨hw₀, -⟩ := keeps_toGuestValues _ _ hw ha
  cases a with
  | error e => cases hrest
  | ok guests =>
    refine ⟨guests, w₀, ?_⟩
    have hescapes : ∃ ok values w₁,
        callLua (engine n) h.state (.builtin .coResume) (h.guest :: guests) w₀ =
            some (.ok (.bool ok :: values), w₁) ∧
          Escapes (engine n) id h w₁ ok values f := by
      rcases bind_some hrest with ⟨e, he, hr⟩ | ⟨r, w₂, hr, hsettle⟩
      · obtain rfl := Except.error.inj hr
        exact escapes_of_error hw₀ hf (resumeThread_comes hw₀ he)
      · obtain ⟨hw₂, -⟩ :=
          keeps_resumeThread (engine_keeps n) (keeps_errorMessage (engine_keeps n)) _ _ _ hw₀ hr
        exact escapes_of_settle hw₀ hf (resumeThread_comes hw₀ hr) hw₂ hsettle
    obtain ⟨ok, values, w₁, hc, hescapes⟩ := hescapes
    exact ⟨ok, values, w₁, ha, hc, hescapes⟩

end Bridge

end HostedLua
