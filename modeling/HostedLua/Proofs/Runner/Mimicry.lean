import HostedLua.Proofs.Function.Calling
import HostedLua.Proofs.Runner.Effects

/-! Errors that code comes to. What Lua code throws by itself never has the outcome of a text that is no chunk, whatever
its message is. Code that runs comes to this outcome just where it gives such an error, which the host must have made, as
its value, or where a fault of this kind that the host has raised goes through it (`outcome_badSource`,
`Mimics.outcome`). -/

namespace HostedLua

open Host

/-! ### Outcomes of faults -/

theorem ErrorStatus.ofMessage_ne_badSource (t : Text) : ofMessage t ≠ .badSource := by
  rw [ofMessage]
  split_ifs <;> decide

/-- The outcome of a text that is no chunk is that of one kind of fault, whatever the texts of the others are. -/
theorem Fault.status_eq_badSource {f : Fault} : f.status = .badSource ↔ f.kind.isA "LuaSyntaxError" = true := by
  rw [status]
  split_ifs with hkind
  · exact iff_of_true rfl hkind
  · exact iff_of_false (by decide) hkind
  · exact iff_of_false (ErrorStatus.ofMessage_ne_badSource _) hkind
  · exact iff_of_false (by decide) hkind

/-- No other kind is one of this kind. -/
theorem FaultKind.eq_of_isA_badSource {k : FaultKind} (h : k.isA "LuaSyntaxError" = true) :
    k = ofString "LuaSyntaxError" := by
  have hnone : ∀ p ∈ parents, (p.2.any fun q => isA.go "LuaSyntaxError" 5 (ofString q)) = false := by decide +kernel
  have hunknown : isA.go "LuaSyntaxError" 5 (ofString "Exception") = false := by decide +kernel
  rw [isA, isA.go] at h
  split_ifs at h with hk
  · exact hk
  · cases hp : parents.find? fun p => ofString p.1 = k with
    | none =>
      rw [hp] at h
      cases hunknown.symm.trans h
    | some p =>
      rw [hp] at h
      cases (hnone p (List.mem_of_find?_eq_some hp)).symm.trans h

theorem Fault.isOrdinary_of_badSource {f : Fault} (h : f.kind.isA "LuaSyntaxError" = true) : f.isOrdinary = true := by
  rw [isOrdinary, FaultKind.eq_of_isA_badSource h]
  decide +kernel

namespace Bridge

open World

variable {E : Engine} {n state : Nat} {p : Lua.Prog} {w w' : World} {e : LuaError}

/-! ### Errors that code comes to -/

theorem protectedCall_failed {α : Type} {x : Bridge α} {g : Failure} (h : protectedCall x w = some (.ok (.error g), w')) :
    ∃ f : Fault, x w = some (.error f, w') ∧ g = ⟨f.status, f.message⟩ := by
  obtain ⟨r, v, hattempt, hrest⟩ := bind_some_ok h
  obtain ⟨_, hr, hx⟩ := attempt_some hattempt
  obtain rfl := Except.ok.inj hr
  cases r with
  | ok a =>
    obtain ⟨hg, -⟩ := ok_inj hrest
    cases hg
  | error f =>
    dsimp only at hrest
    split_ifs at hrest
    · obtain ⟨hg, rfl⟩ := ok_inj hrest
      exact ⟨f, hx, (Except.error.inj hg).symm⟩
    · cases hrest

/-- What Lua code throws is a value; running it raises nothing. -/
theorem engineRun_ok {r : Except Fault (Except Lua.Thrown (List Lua.Value))}
    (h : (engine (n + 1)).run state p w = some (r, w')) : ∃ a, r = .ok a := by
  obtain ⟨s, -, hdrive⟩ := engineRun_some h
  obtain ⟨a, _, _, _, hr, -⟩ := reaches_drive hdrive
  exact ⟨a, hr⟩

/-- What is thrown stands for a fault that the host has raised. -/
structure Passes (x : Lua.Thrown) (state : Nat) (f : Fault) (w : World) : Prop where
  object : ∃ id g, x = .value (.host id) ∧ w.objects[id]? = some (.fault g)
  pending : ∃ s, w.states[state]? = some s ∧ s.pending = some f

/-- What is thrown is raised. It is a fault of the kind that a text raises that is no chunk only where it stands for such a
fault of the host. -/
theorem raiseThrown_some {α : Type} {x : Lua.Thrown} {r : Except Fault α} (h : raiseThrown state x w = some (r, w')) :
    ∃ f : Fault, r = .error f ∧ (f.kind.isA "LuaSyntaxError" = true → Passes x state f w) := by
  have hother {k : String} {t : Text} {v : World} (hk : k = "LuaError" ∨ k = "LuaMemoryError")
      (h : (some (.error (.of k t), v) : Option (Except Fault α × World)) = some (r, w')) :
      ∃ f : Fault, r = .error f ∧ (f.kind.isA "LuaSyntaxError" = true → Passes x state f w) := by
    have hkind : ¬ (FaultKind.ofString k).isA "LuaSyntaxError" = true := by
      rcases hk with rfl | rfl <;> decide +kernel
    exact ⟨.of k t, (Prod.mk.inj (Option.some.inj h)).1.symm, fun h => absurd h hkind⟩
  have hlua {t : Text} {v : World} := hother (k := "LuaError") (t := t) (v := v) (.inl rfl)
  cases x with
  | memory => exact hother (.inr rfl) h
  | value v =>
    cases v with
    | host id =>
      rw [raiseThrown, bind_ok (object_apply id w), bind_ok (state?_apply state w)] at h
      cases ho : w.objects[id]? with
      | none =>
        rw [ho] at h
        exact hlua h
      | some o =>
        rw [ho, Option.getD_some] at h
        cases o with
        | fault g =>
          cases hs : w.states[state]? with
          | none =>
            rw [hs] at h
            exact hlua h
          | some s =>
            rw [hs] at h
            dsimp only at h
            cases hpending : s.pending with
            | none =>
              rw [hpending] at h
              exact hlua h
            | some f =>
              rw [hpending] at h
              exact ⟨f, (Prod.mk.inj (Option.some.inj h)).1.symm, fun _ => ⟨⟨id, g, rfl, ho⟩, s, hs, hpending⟩⟩
        | _ => exact hlua h
    | str b =>
      rw [raiseThrown, bind_ok (state?_apply state w)] at h
      cases hs : w.states[state]? <;> rw [hs] at h <;> exact hlua h
    | _ => exact hlua h

theorem raiseThrown_passes {α : Type} {x : Lua.Thrown} {f : Fault} (h : Passes x state f w) :
    ∃ w', raiseThrown (α := α) state x w = some (.error f, w') := by
  obtain ⟨⟨id, g, rfl, ho⟩, s, hs, hpending⟩ := h
  rw [raiseThrown, bind_ok (object_apply id w), bind_ok (state?_apply state w), ho, Option.getD_some, hs]
  dsimp only
  rw [hpending]
  exact ⟨_, rfl⟩

/-! ### Values that are errors -/

/-- What a computation gives is no error. -/
def Plain (x : Bridge Value) : Prop := ∀ ⦃w v w'⦄, x w = some (.ok v, w') → w'.error? v = none

theorem Plain.bind {α : Type} {x : Bridge α} {f : α → Bridge Value} (hf : ∀ a, Plain (f a)) : Plain (x >>= f) := by
  intro w v w' h
  obtain ⟨a, u, -, h⟩ := bind_some_ok h
  exact hf a h

theorem plain_throw (f : Fault) : Plain (throw f) := fun _ _ _ h => nomatch h

theorem plain_pure {v : Value} (hv : ∀ id, v ≠ .obj id) : Plain (pure v) := by
  intro w u w' h
  obtain ⟨rfl, rfl⟩ := ok_inj h
  cases v with
  | obj id => exact absurd rfl (hv id)
  | _ => rfl

theorem plain_newObject {o : Object} (ho : ∀ e isSub, o ≠ .error e isSub) : Plain (newObject o) := by
  intro w v w' h
  obtain ⟨rfl, rfl⟩ := ok_inj h
  rw [error?, Array.getElem?_push_size]
  cases o with
  | error e isSub => exact absurd rfl (ho e isSub)
  | _ => rfl

theorem plain_newHandle (h : Handle) : Plain (newHandle h) := plain_newObject fun _ _ => Object.noConfusion

theorem plain_hostText (t : Text) (encoding : Value) : Plain (hostText t encoding) := by
  unfold hostText
  split
  · exact plain_pure fun _ => Value.noConfusion
  · dsimp only
    split
    · split
      · exact plain_pure fun _ => Value.noConfusion
      · exact plain_throw _
    · split
      · exact plain_throw _
      · exact plain_throw _

theorem plain_wholeFloat (x : Float) : Plain (pure (wholeFloat x)) := by
  rw [wholeFloat]
  split <;> exact plain_pure fun _ => Value.noConfusion

/-- A value whose host form is an error is that error. -/
theorem toHost_error? {u v : Value} (h : toHost E state u w = some (.ok v, w')) (he : w'.error? v = some e) :
    u = v ∧ w' = w := by
  have hplain {x : Bridge Value} {v₁ : World} (hx : Plain x) (h : x v₁ = some (.ok v, w')) : u = v ∧ w' = w := by
    cases (hx h).symm.trans he
  have hsame {u : Value} (h : (pure u : Bridge Value) w = some (.ok v, w')) : u = v ∧ w' = w :=
    (ok_inj h).imp_right Eq.symm
  cases u with
  | obj id =>
    rw [toHost, bind_ok (object_apply id w)] at h
    cases ho : (w.objects[id]?).getD .nothing with
    | guest g =>
      rw [ho] at h
      dsimp only at h
      split_ifs at h
      · exact hplain (.bind fun _ => plain_newHandle _) h
      · cases hg : g.value with
        | table _ | closure _ | builtin _ | wrapped _ | thread _ =>
          rw [hg] at h
          exact hplain (plain_newHandle _) h
        | _ =>
          rw [hg] at h
          exact hsame h
    | _ =>
      rw [ho] at h
      exact hsame h
  | text t => exact hplain (.bind fun c : Config => plain_hostText t c.encoding) h
  | float x =>
    refine hplain (.bind fun s => ?_) h
    cases s with
    | none => exact plain_pure fun _ => Value.noConfusion
    | some s =>
      dsimp only
      split_ifs
      · exact plain_pure fun _ => Value.noConfusion
      · exact plain_wholeFloat x
  | _ => exact hsame h

theorem toHostValues_error? {us : List Value} {v : Value} (h : toHostValues E state us w = some (.ok v, w'))
    (he : w'.error? v = some e) : us = [v] ∧ w' = w := by
  match us with
  | [] => cases ((plain_pure fun _ => Value.noConfusion) h).symm.trans he
  | [u] =>
    obtain ⟨rfl, hw⟩ := toHost_error? h he
    exact ⟨rfl, hw⟩
  | u :: u' :: us =>
    have hplain : Plain (toHostValues E state (u :: u' :: us)) :=
      .bind fun _ => plain_newObject fun _ _ => Object.noConfusion
    cases (hplain h).symm.trans he

/-- An error is its own host form. -/
theorem toHost_of_error {v : Value} (h : w.error? v = some e) : toHost E state v w = some (.ok v, w) := by
  obtain ⟨id, isSub, rfl, ho⟩ := error?_eq_some h
  rw [toHost, bind_ok (object_apply id w), ho]
  rfl

/-! ### Code that comes to the outcome of a text that is no chunk -/

/-- The ways in which code that runs comes to the outcome of a text that is no chunk. It gives an error of this outcome,
or a fault of this kind that the host has raised goes through it. -/
inductive Mimics (E : Engine) (state : Nat) (p : Lua.Prog) (w : World) : Prop where
  | gives {us : List Lua.Value} {u v : World} {x : Value} {e : LuaError}
    (ran : E.run state p w = some (.ok (.ok us), u))
    (given : (do group (← fetchAll state us)) u = some (.ok [x], v)) (error : v.error? x = some e)
    (status : e.status = .badSource) : Mimics E state p w
  | passes {x : Lua.Thrown} {u : World} {f : Fault} (ran : E.run state p w = some (.ok (.error x), u))
    (passes : Passes x state f u) (kind : f.kind.isA "LuaSyntaxError" = true) : Mimics E state p w

/-- Only so does code that runs come to this outcome, whatever it throws. -/
theorem outcome_badSource {v : Value} (h : outcome (engine (n + 1)) state p w = some (.ok v, w'))
    (he : w'.error? v = some e) (status : e.status = .badSource) : Mimics (engine (n + 1)) state p w := by
  obtain ⟨r, u, hcall, hform⟩ := bind_some_ok h
  have hran {a : Except Fault (List Value)} {v : World} (hprog : runProg (engine (n + 1)) state p w = some (a, v)) :
      ∃ b u, (engine (n + 1)).run state p w = some (.ok b, u) ∧
        ((∃ us, b = .ok us ∧ fetchAll state us u = some (a, v)) ∨
          ∃ x, b = .error x ∧ raiseThrown state x u = some (a, v)) := by
    rcases bind_some hprog with ⟨f, hf, -⟩ | ⟨b, u, hrun, hrest⟩
    · obtain ⟨_, hok⟩ := engineRun_ok hf
      cases hok
    · cases b with
      | ok us => exact ⟨_, u, hrun, .inl ⟨us, rfl, hrest⟩⟩
      | error x => exact ⟨_, u, hrun, .inr ⟨x, rfl, hrest⟩⟩
  cases r with
  | ok us =>
    obtain ⟨rfl, rfl⟩ := toHostValues_error? hform he
    rcases protectedCall_some hcall with ⟨us, hgroup, hus⟩ | ⟨g, hg⟩ | ⟨f, -, hf⟩
    · obtain rfl := Except.ok.inj (Except.ok.inj hus)
      obtain ⟨vs, u, hprog, hgroup⟩ := bind_some_ok hgroup
      obtain ⟨b, u', hrun, ⟨us, rfl, hfetch⟩ | ⟨x, rfl, hraise⟩⟩ := hran hprog
      · exact .gives hrun ((bind_ok hfetch).trans hgroup) he status
      · obtain ⟨f, hf, -⟩ := raiseThrown_some hraise
        cases hf
    · cases hg
    · cases hf
  | error g =>
    obtain ⟨f, hfails, rfl⟩ := protectedCall_failed hcall
    obtain ⟨rfl, rfl⟩ := ok_inj hform
    rw [error?, Array.getElem?_push_size] at he
    obtain rfl := Option.some.inj he
    rcases bind_some hfails with ⟨f', hprog, hf⟩ | ⟨vs, v, -, hgroup⟩
    · obtain rfl := Except.error.inj hf
      obtain ⟨b, u', hrun, ⟨us, rfl, hfetch⟩ | ⟨x, rfl, hraise⟩⟩ := hran hprog
      · obtain ⟨_, _, hall⟩ := fetchAll_more state us u'
        cases hall.symm.trans hfetch
      · obtain ⟨f', hf, hpasses⟩ := raiseThrown_some hraise
        obtain rfl := Except.error.inj hf
        have hkind := Fault.status_eq_badSource.mp status
        exact .passes hrun (hpasses hkind) hkind
    · obtain ⟨_, hall⟩ := group_total vs v
      cases hall.symm.trans hgroup

/-- Code that runs so does come to this outcome. -/
theorem Mimics.outcome (h : Mimics E state p w) :
    ∃ e v w', outcome E state p w = some (.ok v, w') ∧ w'.error? v = some e ∧ e.status = .badSource := by
  cases h with
  | @gives us u v x e ran given error status =>
    obtain ⟨vs, u', hfetch, hgroup⟩ := bind_some_ok given
    obtain ⟨_, hall⟩ := group_total vs u'
    obtain ⟨-, rfl⟩ := ok_inj (hall.symm.trans hgroup)
    have hprog : runProg E state p w = some (.ok vs, u') := (bind_ok ran).trans hfetch
    exact ⟨e, x, u', (outcome_returns hprog hgroup).trans (toHost_of_error error), error, status⟩
  | @passes x u f ran passes kind =>
    obtain ⟨w', hraise⟩ := raiseThrown_passes (α := List Value) passes
    have hprog : runProg E state p w = some (.error f, w') := (bind_ok ran).trans hraise
    have hfails := protectedCall_error (Fault.isOrdinary_of_badSource kind) (bind_error (f := group) hprog)
    exact ⟨_, _, _, (bind_ok hfails).trans (newObject_apply _ _), by rw [error?, Array.getElem?_push_size],
      Fault.status_eq_badSource.mpr kind⟩

end Bridge

end HostedLua
