import HostedLua.Proofs.Coroutine.Calls
import HostedLua.Proofs.Crossing.PassThrough
import HostedLua.Proofs.Crossing.Refusal
import Mathlib

/-! Calling a function handle. Every call comes to exactly one of these: the handle is invalid, its arguments are
refused, the call fails, or its values are given in host form; and an ordinary fault gets out only by way of a text that
the options' encoding cannot write. -/

namespace HostedLua

open Host

namespace Bridge

variable {E : Engine} {n state : Nat} {h : Handle} {w w' w₀ w₁ w₂ : World} {args guests values : List Value}
  {s : LuaState} {f : Fault}

/-! ### What a call gives back -/

/-- Every Lua value can be fetched, and one that is no object of the host's own is no group of values. -/
theorem fetch_total (hs : w.states[state]? = some s) {v : Lua.Value} (hv : ∀ id, v ≠ .host id) :
    ∃ u os, fetch state v w = some (.ok u, w.more os) ∧
      ∀ id, u = .obj id → ∃ g, (w.more os).objects[id]? = some (.guest g) := by
  cases hf : World.fetched s state v with
  | inl u =>
    refine ⟨u, #[], by rw [World.more_empty]; exact fetch_inl hs hf, fun id hid => ?_⟩
    cases v with
    | host id' => exact absurd rfl (hv id')
    | thread t =>
      simp only [World.fetched] at hf
      split at hf <;> cases hf
    | _ => simp_all [World.fetched]
  | inr g =>
    refine ⟨.obj w.objects.size, #[.guest g], ?_, fun id hid => ⟨g, ?_⟩⟩
    · rw [fetch_inr hs hf]
      simp [World.more]
    · obtain rfl := Value.obj.inj hid
      simp [World.more]

theorem fetchAll_total (hs : w.states[state]? = some s) {vs : List Lua.Value} (hvs : ∀ id, .host id ∉ vs) :
    ∃ values os, fetchAll state vs w = some (.ok values, w.more os) ∧ values.length = vs.length ∧
      ∀ id, .obj id ∈ values → ∃ g, (w.more os).objects[id]? = some (.guest g) := by
  induction vs generalizing w with
  | nil => exact ⟨[], #[], by rw [World.more_empty]; rfl, rfl, fun id hid => absurd hid List.not_mem_nil⟩
  | cons v vs ih =>
    obtain ⟨u, os, hu, hguest⟩ := fetch_total hs fun id hv => hvs id (hv ▸ List.mem_cons_self ..)
    obtain ⟨us, os', hus, hlen, hguests⟩ := ih (w := w.more os) hs fun id hid => hvs id (List.mem_cons_of_mem _ hid)
    refine ⟨u :: us, os ++ os', ?_, by rw [List.length_cons, hlen, List.length_cons], fun id hid => ?_⟩
    · rw [← World.more_more, fetchAll, List.mapM_cons, bind_ok hu]
      exact (bind_ok hus).trans rfl
    · rw [← World.more_more]
      rcases List.mem_cons.mp hid with hid | hid
      · obtain ⟨g, hg⟩ := hguest id hid.symm
        exact ⟨g, World.object_more hg⟩
      · exact hguests id hid

/-- Values of Lua's own are taken one by one, and no value at all stands for a lone nil. -/
theorem group_toHostValues (E : Engine) (state : Nat)
    (hvalues : ∀ id, .obj id ∈ values → ∃ g, w.objects[id]? = some (.guest g)) :
    ∃ vs, group values w = some (.ok vs, w) ∧ vs ⊆ values ∧ toHostValues E state vs = toHostValues E state values := by
  unfold group
  split
  · exact ⟨[], rfl, List.nil_subset _, rfl⟩
  · next id =>
    obtain ⟨g, hg⟩ := hvalues id (List.mem_singleton.mpr rfl)
    refine ⟨[.obj id], ?_, List.Subset.refl _, rfl⟩
    rw [bind_ok (object_apply id w), hg]
    rfl
  · exact ⟨values, rfl, List.Subset.refl _, rfl⟩

/-! ### Calls -/

/-- What a call with converted arguments comes to, from the world in which they have been converted. -/
structure Calls (n : Nat) (h : Handle) (args guests : List Value) (w w₀ : World) : Prop where
  diverges : callValue (engine n) h.guest guests w₀ = none → invoke (engine n) h args w = none
  fails : ∀ {f w₁}, callValue (engine n) h.guest guests w₀ = some (.error f, w₁) → f.isOrdinary = true →
    invoke (engine n) h args w =
      some (.ok (.obj w₁.objects.size), (w₁.more #[.error ⟨f.status, f.message⟩ false]).release w)
  passes : ∀ {f w₁}, callValue (engine n) h.guest guests w₀ = some (.error f, w₁) → f.isOrdinary = false →
    invoke (engine n) h args w = some (.error f, w₁.release w)
  answers : ∀ {results values w₁}, callValue (engine n) h.guest guests w₀ = some (.ok results, w₁) →
    group results w₁ = some (.ok values, w₁) →
    invoke (engine n) h args w = (toHostValues (engine n) h.state values w₁).map fun p => (p.1, p.2.release w)
  /-- A Lua function gives values of Lua's own back: each gets its host form, in order. -/
  returns : ∀ {id fn us vs w₁ s}, h.guest = .obj id → w₀.objects[id]? = some (.guest ⟨h.state, fn, false⟩) →
    guests.mapM (push h.state) w₀ = some (.ok us, w₀) →
    (engine n).run h.state (callProg fn us) w₀ = some (.ok (.ok vs), w₁) → (∀ id, .host id ∉ vs) →
    w.states[h.state]? = some s → ∃ values os, fetchAll h.state vs w₁ = some (.ok values, w₁.more os) ∧
      invoke (engine n) h args w =
        (toHostValues (engine n) h.state values (w₁.more os)).map (fun p => (p.1, p.2.release w)) ∧
      ∀ {f w₂}, toHostValues (engine n) h.state values (w₁.more os) = some (.error f, w₂) → f.isOrdinary = true →
        charset? (w.encoding h.state) ≠ some s.charset
  /-- An ordinary fault gets out only if a text among the values is refused. -/
  raises : ∀ {f w'}, invoke (engine n) h args w = some (.error f, w') → f.isOrdinary = true →
    ∃ results values w₁ t, callValue (engine n) h.guest guests w₀ = some (.ok results, w₁) ∧
      group results w₁ = some (.ok values, w₁) ∧ .text t ∈ values ∧ Refuses (w.encoding h.state) t f

/-- Values that a call has given are grouped, and get their host form. -/
def answered (E : Engine) (h : Handle) (guests : List Value) : Bridge Value := do
  let r ← protectedCall do group (← callValue E h.guest guests)
  toHostResult E h.state r

section Answered

variable {r : Except Fault Value}

theorem answered_none (hcall : callValue E h.guest guests w₀ = none) : answered E h guests w₀ = none :=
  bind_none (protectedCall_none (bind_none hcall))

theorem answered_fails (hcall : callValue E h.guest guests w₀ = some (.error f, w₁)) (hf : f.isOrdinary = true) :
    answered E h guests w₀ =
      some (.ok (.obj w₁.objects.size), w₁.more #[.error ⟨f.status, f.message⟩ false]) := by
  rw [answered, bind_ok (protectedCall_error hf (bind_error hcall)), World.more]
  exact newObject_apply _ _

theorem answered_passes (hcall : callValue E h.guest guests w₀ = some (.error f, w₁)) (hf : f.isOrdinary = false) :
    answered E h guests w₀ = some (.error f, w₁) :=
  bind_error (protectedCall_extraordinary hf (bind_error hcall))

theorem group_total (results : List Value) (w : World) : ∃ values, group results w = some (.ok values, w) := by
  unfold group
  split
  · exact ⟨[], rfl⟩
  · next id =>
    rw [bind_ok (object_apply id w)]
    cases (w.objects[id]?).getD .nothing <;> exact ⟨_, rfl⟩
  · exact ⟨results, rfl⟩

theorem answered_returns {results : List Value} (hcall : callValue E h.guest guests w₀ = some (.ok results, w₁))
    (hgroup : group results w₁ = some (.ok values, w₁)) :
    answered E h guests w₀ = toHostValues E h.state values w₁ :=
  bind_ok (protectedCall_ok ((bind_ok hcall).trans hgroup))

end Answered

/-- Only a text among the values is refused. -/
theorem answered_error (hw₀ : w₀.Sound) (hk₀ : w.Kept w₀) (hs : w.states[h.state]? = some s) (hf : f.isOrdinary = true)
    (herror : answered (engine n) h guests w₀ = some (.error f, w')) :
    ∃ results values w₁ t, callValue (engine n) h.guest guests w₀ = some (.ok results, w₁) ∧
      group results w₁ = some (.ok values, w₁) ∧ .text t ∈ values ∧ Refuses (w.encoding h.state) t f := by
  cases hcall : callValue (engine n) h.guest guests w₀ with
  | none =>
    rw [answered_none hcall] at herror
    contradiction
  | some p =>
    obtain ⟨r, w₁⟩ := p
    obtain ⟨hw₁, hk₁⟩ := keeps_callValue (engine_keeps n) _ _ hw₀ hcall
    cases r with
    | error f' =>
      cases hf' : f'.isOrdinary with
      | true =>
        rw [answered_fails hcall hf'] at herror
        cases herror
      | false =>
        rw [answered_passes hcall hf'] at herror
        obtain ⟨he, -⟩ := Prod.mk.inj (Option.some.inj herror)
        rw [Except.error.inj he, hf] at hf'
        contradiction
    | ok results =>
      obtain ⟨values, hgroup⟩ := group_total results w₁
      rw [answered_returns hcall hgroup] at herror
      obtain ⟨s₁, hs₁, -⟩ := (hk₀.trans hk₁).states hs
      obtain ⟨t, ht, hrefuses⟩ := toHostValues_error hw₁ hs₁ hf herror
      rw [(hk₀.trans hk₁).encoding hs] at hrefuses
      exact ⟨results, values, w₁, t, rfl, hgroup, ht, hrefuses⟩

/-- A Lua function is called with what the arguments are pushed as, and its values are fetched. -/
theorem callValue_lua {id : Nat} {fn : Lua.Value} {us vs : List Lua.Value} (hguest : h.guest = .obj id)
    (hid : w₀.objects[id]? = some (.guest ⟨state, fn, false⟩))
    (hpush : guests.mapM (push state) w₀ = some (.ok us, w₀))
    (hrun : E.run state (callProg fn us) w₀ = some (.ok (.ok vs), w₁)) :
    callValue E h.guest guests w₀ = fetchAll state vs w₁ := by
  rw [hguest, callValue, bind_ok (object_apply id w₀), hid, Option.getD_some]
  dsimp only
  rw [if_neg Bool.false_ne_true, callLua, bind_ok hpush, runProg, bind_ok hrun]

section Valid

variable (hv : isValid h w = some (.ok true, w))
  (hargs : args.mapM (toGuest h.state) (w.hold (h.guest :: args) h.state) = some (.ok guests, w₀)) (hw : w.Sound)

theorem converted_keeps (hw : w.Sound)
    (hargs : args.mapM (toGuest h.state) (w.hold (h.guest :: args) h.state) = some (.ok guests, w₀)) :
    w₀.Sound ∧ w.Kept w₀ := by
  obtain ⟨hw₀, hk⟩ := Keeps.mapM (keeps_toGuest _) args (hw.hold _ _) hargs
  have hhold : w.Kept (w.hold (h.guest :: args) h.state) := .of_eq rfl rfl rfl
  exact ⟨hw₀, hhold.trans hk⟩

include hv hargs

theorem invoke_answered : invoke E h args w = (answered E h guests w₀).map fun p => (p.1, p.2.release w) := by
  obtain ⟨s, -, hrequire⟩ := requireState_valid "function" hv
  have hvalues : toGuestValues h.state args (w.hold (h.guest :: args) h.state) = some (.ok (.ok guests), w₀) :=
    protectedCall_ok hargs
  rw [invoke, bind_ok hrequire]
  dsimp only
  rw [holding_eq, bind_ok hvalues]
  rfl

include hw

/-- What becomes of a call with converted arguments. -/
theorem calls : Calls n h args guests w w₀ := by
  obtain ⟨hw₀, hk₀⟩ := converted_keeps hw hargs
  refine ⟨fun hcall => ?_, fun hcall hf => ?_, fun hcall hf => ?_, fun hcall hgroup => ?_, ?_, ?_⟩
  · rw [invoke_answered hv hargs, answered_none hcall]
    rfl
  · rw [invoke_answered hv hargs, answered_fails hcall hf]
    rfl
  · rw [invoke_answered hv hargs, answered_passes hcall hf]
    rfl
  · rw [invoke_answered hv hargs, answered_returns hcall hgroup]
  · intro id fn us vs w₁ s hguest hid hpush hrun hvs hs
    obtain ⟨hw₁, hk₁⟩ := (engine_keeps n).run _ _ hw₀ hrun
    obtain ⟨s₁, hs₁, hks⟩ := (hk₀.trans hk₁).states hs
    obtain ⟨values, os, hfetch, -, hguests⟩ := fetchAll_total hs₁ hvs
    obtain ⟨results, hgroup, -, hresults⟩ := group_toHostValues (engine n) h.state hguests
    have hcall : callValue (engine n) h.guest guests w₀ = some (.ok values, w₁.more os) :=
      (callValue_lua hguest hid hpush hrun).trans hfetch
    have hanswered : answered (engine n) h guests w₀ = toHostValues (engine n) h.state values (w₁.more os) := by
      rw [answered_returns hcall hgroup, hresults]
    refine ⟨values, os, hfetch, by rw [invoke_answered hv hargs, hanswered], fun {f v} herror hf hcharset => ?_⟩
    obtain ⟨hw₂, hk₂⟩ := keeps_fetchAll _ _ hw₁ hfetch
    obtain ⟨s₂, hs₂, -⟩ := hk₂.states hs₁
    obtain ⟨t, ht, hrefuses⟩ := toHostValues_error hw₂ hs₂ hf herror
    rw [((hk₀.trans hk₁).trans hk₂).encoding hs] at hrefuses
    obtain ⟨b, rfl⟩ := fetchAll_text hw₁ hs₁ hfetch ht
    have hfits := hostText_decodeEscaped (w := w) hcharset b
    rw [← hks.charset, hrefuses w] at hfits
    cases hfits
  · intro f w' hinvoke hf
    rw [invoke_answered hv hargs] at hinvoke
    obtain ⟨⟨r, v⟩, hanswered, heq⟩ := Option.map_eq_some_iff.mp hinvoke
    obtain ⟨rfl, -⟩ := Prod.mk.inj heq
    obtain ⟨s, hs⟩ := state_of_isValid hv
    exact answered_error hw₀ hk₀ hs hf hanswered

end Valid

/-- Calling a function handle comes to just one of these. The handle is invalid: that is reported or logged, and
nothing else happens. Its arguments are refused: an error value says why, and nothing else happens. Or it is called,
and an error value says how the call failed, or its values are given in host form: none, one, or several in order. -/
theorem invoke_classified (h : Handle) (args : List Value) (hw : w.Sound) :
    (isValid h w = some (.ok false, w) ∧
      ∀ E, invoke E h args w = some (.ok .none, w.complained h "function")) ∨
    isValid h w = some (.ok true, w) ∧ ∃ g v₀, w.Adds h.state g ∧
      v₀ = (w.hold (h.guest :: args) h.state).after h.state g ∧
      ((∃ f, args.mapM (toGuest h.state) (w.hold (h.guest :: args) h.state) = some (.error f, v₀) ∧
          ∀ E, invoke E h args w = some (.ok (.obj (w.objects.size + g.objects.size)), w.refused h.state g f)) ∨
        ∃ guests, args.mapM (toGuest h.state) (w.hold (h.guest :: args) h.state) = some (.ok guests, v₀) ∧
          ∀ n, Calls n h args guests w v₀) := by
  obtain ⟨valid, hv⟩ := isValid_total h w
  cases valid with
  | false => exact .inl ⟨hv, fun E => bind_ok (requireState_invalid "function" hv)⟩
  | true =>
    obtain ⟨g, hg, ⟨guests, hargs, -⟩ | ⟨f, hargs, hvalues⟩⟩ :=
      toGuestValues_adds h.state args (w.hold (h.guest :: args) h.state)
    · exact .inr ⟨hv, g, _, hg.of_hold, rfl, .inr ⟨guests, hargs, fun n => calls hv hargs hw⟩⟩
    · exact .inr ⟨hv, g, _, hg.of_hold, rfl, .inl ⟨f, hargs, invoke_refused hv hvalues⟩⟩

namespace Recoded

/-! A function that gives a string with an undecodable byte. It is made under code page 1252, and the options name
another set afterwards. -/

def source : Text := "return function() return '\\129\\233' end"

def recode (w : World) : World :=
  { w with configs := w.configs.modify 0 ({ · with encoding := .text "ascii" }) }

/-- The value is a valid handle, but a call of it raises. -/
def raises (v : Value) (w : World) : Bool :=
  (w.handleAt v).any fun h => (recode w).valid h &&
    failsWith (·.kind == .ofString "UnicodeEncodeError") (invoke (engine 1) h [] (recode w))

theorem run_raises : succeedsWith raises
    (runIn (engine 1) 0 (.text source) (.unopened { encoding := .text "cp1252" })) = true := by decide +kernel

end Recoded

/-- A language opens a state under code page 1252 and runs a chunk that gives a function. When the options come to name
ASCII, a call of the function raises: the new set has no bytes for the text that the state's own set reads. -/
theorem invoke_classified_recoded : ∃ id h v w,
    runIn (engine 1) 0 (.text Recoded.source) (.unopened { encoding := .text "cp1252" }) = some (.ok (.obj id), v) ∧
    v.objects[id]? = some (.handle h) ∧ w = Recoded.recode v ∧ w.Sound ∧
    (∃ f w', invoke (engine 1) h [] w = some (.error f, w') ∧ f.isOrdinary = true) ∧
    isValid h w = some (.ok true, w) ∧ ∃ g guests, w.Adds h.state g ∧
      Calls 1 h [] guests w ((w.hold [h.guest] h.state).after h.state g) := by
  obtain ⟨x, v, hrun, hraises⟩ := eq_ok_of_succeedsWith Recoded.run_raises
  obtain ⟨h, hx, htest⟩ := (Option.any_eq_true _ _).mp hraises
  obtain ⟨id, rfl, hid⟩ := World.handleAt_some hx
  obtain ⟨valid, hfails⟩ := Bool.and_eq_true_iff.mp htest
  obtain ⟨sound, -⟩ := keeps_runIn (engine_keeps 1) 0 _ (World.sound_unopened _) hrun
  have hw : (Recoded.recode v).Sound := fun i s hs => sound hs
  obtain ⟨f, w', hinvoke, hkind⟩ := eq_error_of_failsWith hfails
  have hf : f.isOrdinary = true := by
    rw [Fault.isOrdinary, eq_of_beq hkind]
    exact ordinary_kinds "UnicodeEncodeError" (by simp)
  refine ⟨id, h, v, _, hrun, hid, rfl, hw, ⟨f, w', hinvoke, hf⟩, ?_⟩
  rcases invoke_classified h [] hw with ⟨hinvalid, -⟩ | ⟨hv, g, _, hg, rfl, ⟨f, hargs, -⟩ | ⟨guests, -, hcalls⟩⟩
  · rw [valid_apply, valid] at hinvalid
    cases hinvalid
  · cases hargs
  · exact ⟨hv, g, guests, hg, hcalls 1⟩

end Bridge

end HostedLua
