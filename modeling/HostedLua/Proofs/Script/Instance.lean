import HostedLua.Proofs.Language.Validity
import HostedLua.Proofs.Script.Life

/-! Instances of scripts. The adapter gets the table of the last reload that has completed, if that was a success, and
is not called else. Whether the table can still be used is not asked: it is valid just as long as its state is open,
and the script does not notice when that is closed. -/

namespace HostedLua.Bridge

open Host World

variable {E : Engine} {host : Handler} {u w w₀ : World} {id d : Nat} {a : Adapter} {target : Value}
  {s : Script} {l : Language} {c : Option Completion}

/-- What an instance of a script is made of after the last reload of it that has completed, if any: of the table that
its source gave, by the adapter, or of nothing, with a report. -/
inductive MadeOf (E : Engine) (id d : Nat) (a : Adapter) (target : Value) (w : World) : Option Completion → Prop where
  | table {c : Completion} {r : Nat} (status : c.status = .ok) (gives : c.result = .obj r) (table : w.IsTable r)
    (calls : instantiate E id target w = makeInstance E a target (.obj r) w) : MadeOf E id d a target w (some c)
  | nothing {c : Option Completion} (failed : ∀ c', c = some c' → c'.status ≠ .ok)
    (reports : instantiate E id target w = some (.ok .none,
      w.reported d "InvalidState: cannot instantiate a script without a valid class table")) :
    MadeOf E id d a target w c

theorem madeOf_stands (h : s.Stands w c) (hs : w.scripts[id]? = some s) (hl : w.languages[s.language]? = some l)
    (ha : l.adapter = some a) (E : Engine) (target : Value) : MadeOf E id l.diagnostics a target w c := by
  have hscript : script id w = some (.ok s, w) := by rw [script_apply, scriptOf, hs, Option.getD_some]
  have hlanguage : language s.language w = some (.ok l, w) := by rw [language_apply, languageOf_eq hl]
  cases h with
  | unloaded state loaded =>
    refine .nothing (fun _ hc => by cases hc) ?_
    rw [instantiate, bind_ok hscript, bind_ok hlanguage, state]
    rfl
  | valid status gives table state loaded =>
    refine .table status gives table ?_
    rw [instantiate, bind_ok hscript, bind_ok hlanguage, state, loaded]
    dsimp only
    rw [ha]
  | invalid status state loaded =>
    refine .nothing (fun c' hc => ?_) ?_
    · obtain rfl := Option.some.inj hc
      exact status
    · rw [instantiate, bind_ok hscript, bind_ok hlanguage, state]
      rfl

/-- Whatever has been done since a script was made, the adapter of its language gets the table of the last reload of it
that has completed, if that was a success; if not, or if none has completed, that is reported and the adapter is not
called. A table of a language is valid just where its state is still open, and that makes no difference. -/
theorem instantiate_class (hosts : host.Steps) {k : Script} (made : w₀.scripts[id]? = some k)
    (unloaded : k.state = .unloaded) (classless : k.loaded = none) (owned : w₀.languages[k.language]? = some l)
    (adapter : l.adapter = some a) (moment : Moment host w₀ w) :
    (∃ es, w₀.Trail es w) ∧
    (∀ {es : List Completion} (n : Nat) (target : Value), w₀.Trail es w →
      MadeOf (engineOf host n) id l.diagnostics a target w (lastReload id es)) ∧
    ∀ {u : World} {l' r : Nat} {h : Handle}, Moment host u w → w.objects[r]? = some (.handle h) → u.Has l' h.state →
      w.valid h = (h.stands && w.opened h.state) := by
  refine ⟨moment.leads hosts, fun n target htrail => ?_, fun later _ hh => hh.valid_eq (later.follows hosts)⟩
  obtain ⟨s, hs, hstands⟩ := htrail.stands made (.unloaded unloaded classless)
  rw [Option.or_none] at hstands
  have hf := htrail.follows
  obtain ⟨s', hs', hlanguage⟩ := hf.scripts made
  obtain rfl := Option.some.inj (hs.symm.trans hs')
  obtain ⟨l', hl', -, hdiagnostics, hadapter⟩ := hf.languages owned
  rw [← hdiagnostics]
  exact madeOf_stands hstands hs (hlanguage ▸ hl') (hadapter.trans adapter) (engineOf host n) target

/-- Ending a language closes its state and completes no reload. -/
theorem trail_finish {i : Nat} (hi : (w.languageOf id).state = some i) :
    ∃ v, finish id w = some (.ok ⟨⟩, v) ∧ v.opened i = false ∧ w.Trail [] v := by
  let v : World := (w.closed i).enter id none
  have hclosed : (w.closed i).opened i = false := by simp [opened_closed]
  have close : Step w [] (w.closed i) := .state fun s => ⟨rfl, fun hopen => absurd hopen Bool.false_ne_true⟩
  have leave : Step (w.closed i) [] v := .enter fun j hj ho => by
    obtain rfl := Option.some.inj (hi.symm.trans hj)
    cases hclosed.symm.trans ho
  have forget : Step v [] { v with singleton := none } := .beside rfl rfl rfl rfl (Nat.le_refl _)
  have htrail : w.Trail [] v := close.trail.trans leave.trail
  rw [finish_apply, hi]
  dsimp only
  split_ifs
  · exact ⟨_, rfl, hclosed, htrail.trans forget.trail⟩
  · exact ⟨_, rfl, hclosed, htrail⟩

/-- After the language of a script has been ended, the adapter gets a table that is not valid. -/
theorem instantiate_class_ended : ∃ w r h, Moment Sample.reloading Sample.world w ∧ w.objects[r]? = some (.handle h) ∧
    h.kind = .table ∧ w.valid h = false ∧
    instantiate (engineOf Sample.reloading 1) 0 .none w =
      makeInstance (engineOf Sample.reloading 1) .record .none (.obj r) w := by
  obtain ⟨v, h, hreload, hclass, hstate, hl⟩ := Sample.reload_world
  obtain ⟨es, result, htrail⟩ := trail_reload (engineOf_steps Sample.steps 1) hreload
  obtain ⟨w, hended, hclosed, hlater⟩ := trail_finish hl
  have ended : (Act.finish 0).perform (engineOf Sample.reloading 1) v = some (.ok ⟨⟩, w) := hended
  have moment : Moment Sample.reloading Sample.world w := .done (Sample.moment_reload hreload) ended
  have made : Sample.world.scripts[0]? = some { language := 0, source := "return {}" } := rfl
  obtain ⟨-, hmade, -⟩ := instantiate_class Sample.steps made rfl rfl rfl rfl moment
  have hof := hmade 1 .none (htrail.trans hlater)
  rw [List.append_nil, lastReload_append] at hof
  cases hof with
  | nothing failed => exact absurd rfl (failed _ rfl)
  | @table _ r _ gives table calls =>
    obtain ⟨h', hr', hkind⟩ := table
    obtain ⟨s, hs, hstands⟩ := htrail.stands made (.unloaded rfl rfl)
    rw [lastReload_append] at hstands
    cases hstands with
    | invalid status => exact absurd rfl status
    | valid _ gives' _ _ loaded =>
      obtain rfl := Value.obj.inj (gives.symm.trans gives')
      obtain ⟨h'', hr'', hk⟩ := hlater.follows.handles (Sample.object_of_classTable hclass hs loaded)
      obtain rfl := Object.handle.inj (Option.some.inj (hr'.symm.trans hr''))
      refine ⟨w, r, h', moment, hr', hkind, ?_, calls⟩
      rw [World.valid, hk.state, hstate, hclosed, Bool.and_false, Bool.false_and]

end HostedLua.Bridge
