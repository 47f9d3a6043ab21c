import HostedLua.Proofs.History.Moment
import Mathlib

/-! The life of a script. Its class and state are what the last reload of it that has completed has made of them,
whatever else is done meanwhile, also by callbacks while a reload is under way: the table that its source gave, or
none and a state that is invalid for good until another reload completes. -/

namespace HostedLua

open Host

/-- The last reload of a script among some that have completed. -/
def lastReload (id : Nat) (es : List Completion) : Option Completion := (es.filter (·.script = id)).getLast?

theorem lastReload_append (id : Nat) (es es' : List Completion) :
    lastReload id (es ++ es') = (lastReload id es').or (lastReload id es) := by
  rw [lastReload, List.filter_append, List.getLast?_append]
  rfl

/-- How a script stands after the last reload of it, if one has completed: unloaded before the first one, valid with the
table that its source gave, or invalid without one. -/
inductive Script.Stands (s : Script) (w : World) : Option Completion → Prop where
  | unloaded (state : s.state = .unloaded) (loaded : s.loaded = none) : s.Stands w none
  | valid {c : Completion} {r : Nat} (status : c.status = .ok) (gives : c.result = .obj r) (table : w.IsTable r)
    (state : s.state = .valid) (loaded : s.loaded = some r) : s.Stands w (some c)
  | invalid {c : Completion} (status : c.status ≠ .ok) (state : s.state = .invalid) (loaded : s.loaded = none) :
    s.Stands w (some c)

open World Bridge

variable {w w' : World} {es : List Completion} {id : Nat} {s s' : Script} {c : Option Completion}

theorem World.IsTable.follows {r : Nat} (h : w.IsTable r) (hf : w.Follows w') : w'.IsTable r := by
  obtain ⟨g, hg, hkind⟩ := h
  obtain ⟨g', hg', hk⟩ := hf.handles hg
  exact ⟨g', hg', hk.kind.trans hkind⟩

/-- A script with the same class and state stands as it did. -/
theorem Script.Stands.later (h : s.Stands w c) (hf : w.Follows w') (hstate : s'.state = s.state)
    (hloaded : s'.loaded = s.loaded) : s'.Stands w' c := by
  cases h with
  | unloaded state loaded => exact .unloaded (hstate.trans state) (hloaded.trans loaded)
  | valid status gives table state loaded =>
    exact .valid status gives (table.follows hf) (hstate.trans state) (hloaded.trans loaded)
  | invalid status state loaded => exact .invalid status (hstate.trans state) (hloaded.trans loaded)

/-- A script stands as a reload of it has left it, and as before after any other one. -/
theorem Script.Stands.adopts {d id' : Nat} {result : Value} {status : ReloadStatus} (h : s.Stands w c)
    (hs : w.scripts[id]? = some s) (hadopts : Adopts id' d result w status w') :
    ∃ s', w'.scripts[id]? = some s' ∧ s'.Stands w' ((lastReload id [⟨id', status, result⟩]).or c) := by
  have hf : w.Follows w' := .adopts hadopts
  have hclass {v : World} {loaded : Option Nat} {state : ScriptState} (hv : v.scripts = w.scripts) :
      (v.withClass id' loaded state).scripts[id]? = some (if id' = id then { s with loaded, state } else s) := by
    rw [withClass_scripts, hv, hs, Option.map_some]
  by_cases hid : id' = id
  · have hlast : lastReload id [⟨id', status, result⟩] = some ⟨id', status, result⟩ := by simp [lastReload, hid]
    rw [hlast, Option.some_or]
    cases hadopts with
    | table gives table =>
      refine ⟨_, hclass rfl, ?_⟩
      rw [if_pos hid]
      exact .valid rfl gives (table.follows hf) rfl rfl
    | _ =>
      refine ⟨_, hclass rfl, ?_⟩
      rw [if_pos hid]
      exact .invalid (by simp) rfl rfl
  · have hlast : lastReload id [⟨id', status, result⟩] = none := by simp [lastReload, hid]
    rw [hlast, Option.none_or]
    refine ⟨s, ?_, h.later hf rfl rfl⟩
    cases hadopts <;> exact (hclass rfl).trans (by rw [if_neg hid])

/-- A step leaves a script as it stands, unless it completes a reload of it. -/
theorem World.Step.stands (h : Step w es w') (hs : w.scripts[id]? = some s) (hstands : s.Stands w c) :
    ∃ s', w'.scripts[id]? = some s' ∧ s'.Stands w' ((lastReload id es).or c) := by
  have hf := h.follows
  cases h with
  | beside objects states languages scripts diagnostics => exact ⟨s, scripts ▸ hs, hstands.later hf rfl rfl⟩
  | script k => exact ⟨s, getElem?_push_some hs k, hstands.later hf rfl rfl⟩
  | source id' source =>
    refine ⟨_, getElem?_modify_some hs id' _, hstands.later hf ?_ ?_⟩ <;> split_ifs <;> rfl
  | completes run adopts =>
    obtain ⟨status', v, hadopt, hadopts⟩ := adopt_adopts _ _ _ w
    obtain ⟨rfl, rfl⟩ := ok_inj (hadopt.symm.trans adopts)
    exact hstands.adopts hs hadopts
  | _ => exact ⟨s, hs, hstands.later hf rfl rfl⟩

/-- After a trail a script stands as the last reload on it has left it. -/
theorem World.Trail.stands (h : Trail w es w') (hs : w.scripts[id]? = some s) (hstands : s.Stands w c) :
    ∃ s', w'.scripts[id]? = some s' ∧ s'.Stands w' ((lastReload id es).or c) := by
  induction h generalizing s c with
  | nil => exact ⟨s, hs, hstands⟩
  | cons step _ ih =>
    obtain ⟨s₁, hs₁, hstands₁⟩ := step.stands hs hstands
    obtain ⟨s', hs', hstands'⟩ := ih hs₁ hstands₁
    rw [lastReload_append, Option.or_assoc]
    exact ⟨s', hs', hstands'⟩

/-- A script is valid just where it has a table as its class. -/
theorem Script.Stands.valid_iff (h : s.Stands w c) : s.state = .valid ↔ ∃ r, s.loaded = some r ∧ w.IsTable r := by
  cases h with
  | unloaded state loaded => simp [state, loaded]
  | valid _ _ table state loaded => exact iff_of_true state ⟨_, loaded, table⟩
  | invalid _ state loaded => simp [state, loaded]

theorem Script.Stands.classless (h : s.Stands w c) (hstate : s.state ≠ .valid) : s.loaded = none := by
  cases h with
  | unloaded _ loaded => exact loaded
  | valid _ _ _ state _ => contradiction
  | invalid _ _ loaded => exact loaded

/-- A script is unloaded just where no reload of it has completed. -/
theorem Script.Stands.unloaded_iff (h : s.Stands w c) : s.state = .unloaded ↔ c = none := by
  cases h with
  | unloaded state => simp [state]
  | valid _ _ _ state => simp [state]
  | invalid _ state => simp [state]

/-! ### Reloads that complete -/

namespace Bridge

variable {E : Engine} {host : Handler} {w w' w₀ v : World} {id d : Nat} {result : Value} {status : ReloadStatus}

/-- What a reload that completes leaves: its outcome tells whether the table that the source gave is now the class of
the script, which is invalid without one else, and whether one report has been added to what the run itself left. -/
structure Reloaded (id d : Nat) (result : Value) (v : World) (status : ReloadStatus) (w' : World) : Prop where
  adopts : Adopts id d result v status w'
  ok_iff : status = .ok ↔
    ∃ s r, w'.scripts[id]? = some s ∧ s.state = .valid ∧ s.loaded = some r ∧ result = .obj r ∧ w'.IsTable r
  failed : status ≠ .ok → ∃ s, w'.scripts[id]? = some s ∧ s.state = .invalid ∧ s.loaded = none
  reports : ∃ before added, v.diagnostics[d]? = some before ∧
    w'.diagnostics = v.diagnostics.modify d (· ++ added) ∧ (status = .ok → added = []) ∧
    (status ≠ .ok → ∃ message, added = [.report message])

/-- What reloading a script comes to: it completes just where the run of the source does, and is noted on its trail. -/
def ReloadsAs (E : Engine) (id d : Nat) (w : World) : Prop :=
  let run := runIn E (w.scriptOf id).language (.text (w.scriptOf id).source) w
  (run = none → reload E id w = none) ∧
  (∀ f v, run = some (.error f, v) → reload E id w = some (.error f, v)) ∧
  ∀ result v, run = some (.ok result, v) → ∃ status w', reload E id w = some (.ok status, w') ∧
    Reloaded id d result v status w' ∧ ∃ es, w.Trail (es ++ [⟨id, status, result⟩]) w'

/-- Whatever a script takes, its outcome tells. -/
theorem Adopts.reloaded {s : Script} {before : List Effect} (h : Adopts id d result v status w')
    (hs : v.scripts[id]? = some s) (hd : v.diagnostics[d]? = some before) : Reloaded id d result v status w' := by
  have hclass {u : World} {loaded : Option Nat} {state : ScriptState} (hu : u.scripts = v.scripts) :
      (u.withClass id loaded state).scripts[id]? = some { s with loaded, state } := by
    rw [withClass_scripts, hu, hs, Option.map_some, if_pos rfl]
  have hf : v.Follows w' := .adopts h
  have hinvalid (hbad : status ≠ .ok) : ∃ s, w'.scripts[id]? = some s ∧ s.state = .invalid ∧ s.loaded = none := by
    cases h with
    | table => contradiction
    | _ => exact ⟨_, hclass rfl, rfl, rfl⟩
  refine ⟨h, ⟨fun hok => ?_, fun ⟨_, _, hs', hvalid, _⟩ => ?_⟩, hinvalid, ?_⟩
  · cases h with
    | table gives table => exact ⟨_, _, hclass rfl, rfl, rfl, gives, table.follows hf⟩
    | _ => cases hok
  · by_cases hok : status = .ok
    · exact hok
    · obtain ⟨s'', hs'', hstate, -⟩ := hinvalid hok
      obtain rfl := Option.some.inj (hs'.symm.trans hs'')
      cases hvalid.symm.trans hstate
  · cases h with
    | table =>
      refine ⟨before, [], hd, ?_, fun _ => rfl, fun hbad => absurd rfl hbad⟩
      exact (modify_self fun es _ => List.append_nil es).symm
    | _ => exact ⟨before, _, hd, rfl, (fun hok => by cases hok), fun _ => ⟨_, rfl⟩⟩

theorem reloadsAs {s : Script} {l : Language} (hE : EngineKeeps Any Leads E) (hs : w.scripts[id]? = some s)
    (hl : w.languages[s.language]? = some l) (hd : l.diagnostics < w.diagnostics.size) :
    ReloadsAs E id l.diagnostics w := by
  refine ⟨fun hrun => ?_, fun f v hrun => ?_, fun result v hrun => ?_⟩
  · rw [reload_eq, bind_none hrun]
  · rw [reload_eq, bind_error hrun]
  · obtain ⟨status, w', hadopt, hadopts⟩ := adopt_adopts E id result v
    obtain ⟨-, es, htrail⟩ := keeps_runIn hE _ _ trivial hrun
    have hf := htrail.follows
    obtain ⟨s', hs', hlanguage⟩ := hf.scripts hs
    obtain ⟨l', hl', -, hdiagnostics, -⟩ := hf.languages hl
    have hrecord : v.diagnosticsOf id = l.diagnostics := by
      rw [diagnosticsOf, scriptOf, hs', Option.getD_some, hlanguage, languageOf_eq hl', hdiagnostics]
    have hbefore : ∃ before, v.diagnostics[l.diagnostics]? = some before :=
      ⟨_, Array.getElem?_eq_getElem (Nat.lt_of_lt_of_le hd hf.diagnostics)⟩
    obtain ⟨before, hbefore⟩ := hbefore
    rw [hrecord] at hadopts
    refine ⟨status, w', ?_, hadopts.reloaded hs' hbefore, es, htrail.trans (Step.completes hrun hadopt).trail⟩
    rw [reload_eq, bind_ok hrun, hadopt]

/-- Whatever has been done since a script was made, also by callbacks while a reload of it was under way, it stands as
the last reload that has completed has left it: valid with a table as its class or without one, and not unloaded again
once one has completed. The next reload completes just where the run of its source does; it is a success just where
that gives a table, which becomes the class, and is reported once else. Another source alone changes neither. -/
theorem script_life (hosts : host.Steps) {k : Script} {l : Language} (made : w₀.scripts[id]? = some k)
    (unloaded : k.state = .unloaded) (classless : k.loaded = none) (owned : w₀.languages[k.language]? = some l)
    (recorded : l.diagnostics < w₀.diagnostics.size) (moment : Moment host w₀ w) :
    ∃ s, w.scripts[id]? = some s ∧
      (s.state = .valid ↔ ∃ r, s.loaded = some r ∧ w.IsTable r) ∧ (s.state ≠ .valid → s.loaded = none) ∧
      (∃ es, w₀.Trail es w) ∧ (∀ es, w₀.Trail es w → s.Stands w (lastReload id es)) ∧
      (∀ v, Moment host w v → s.state ≠ .unloaded → ∃ t, v.scripts[id]? = some t ∧ t.state ≠ .unloaded) ∧
      (∀ n, ReloadsAs (engineOf host n) id l.diagnostics w) ∧
      ∀ id' source, ∃ v t, setSource id' source w = some (.ok ⟨⟩, v) ∧ v.scripts[id]? = some t ∧
        t.state = s.state ∧ t.loaded = s.loaded := by
  have hstands {es : List Completion} (h : w₀.Trail es w) :
      ∃ s, w.scripts[id]? = some s ∧ s.Stands w (lastReload id es) := by
    obtain ⟨s, hs, hs'⟩ := h.stands made (.unloaded unloaded classless)
    rw [Option.or_none] at hs'
    exact ⟨s, hs, hs'⟩
  obtain ⟨es, htrail⟩ := moment.leads hosts
  obtain ⟨s, hs, hs'⟩ := hstands htrail
  have hf := htrail.follows
  obtain ⟨t, ht, hlanguage⟩ := hf.scripts made
  obtain rfl := Option.some.inj (hs.symm.trans ht)
  obtain ⟨l', hl', -, hdiagnostics, -⟩ := hf.languages owned
  rw [← hdiagnostics] at recorded ⊢
  refine ⟨s, hs, hs'.valid_iff, hs'.classless, ⟨es, htrail⟩, fun es h => ?_, fun v later hloaded => ?_, fun n => ?_,
    fun id' source => ?_⟩
  · obtain ⟨t, ht, hstands⟩ := hstands h
    obtain rfl := Option.some.inj (hs.symm.trans ht)
    exact hstands
  · obtain ⟨es', hlater⟩ := later.leads hosts
    obtain ⟨t, ht, hstands'⟩ := hlater.stands hs hs'
    refine ⟨t, ht, ?_⟩
    rw [Ne, hs'.unloaded_iff] at hloaded
    simp [hstands'.unloaded_iff, Option.or_eq_none_iff, hloaded]
  · exact reloadsAs (engineOf_steps hosts n) hs (hlanguage ▸ hl') (Nat.lt_of_lt_of_le recorded hf.diagnostics)
  · refine ⟨_, _, rfl, getElem?_modify_some hs id' _, ?_⟩
    split_ifs <;> exact ⟨rfl, rfl⟩

namespace Sample

/-! A language with an open state and a script that gives an empty table; callbacks reload the script from no source. -/

def world : World :=
  { configs := #[{}], diagnostics := #[[]]
    states := #[{ config := 0, diagnostics := 0, charset := .utf8, globals := 0
                  machine := { heap := {}, threads := #[{ rest := .waiting }] } }]
    languages := #[{ config := 0, diagnostics := 0, adapter := some .record, state := some 0 }]
    scripts := #[{ language := 0, source := "return {}" }] }

def reloading : Handler := fun E _ _ => do
  setSource 0 []
  discard (reload E 0)
  return .none

theorem steps : reloading.Steps := fun hE _ _ =>
  (leads_setSource 0 []).bind fun _ => Keeps.bind (leads_reload hE 0).map fun _ => .pure _

def classTable? (w : World) : Option Handle :=
  match (w.scripts[0]?).bind fun s => s.loaded.bind fun r => w.objects[r]? with
  | some (Object.handle h) => some h
  | _ => none

theorem object_of_classTable {w : World} {h : Handle} {s : Script} {r : Nat} (hclass : classTable? w = some h)
    (hs : w.scripts[0]? = some s) (hr : s.loaded = some r) : w.objects[r]? = some (.handle h) := by
  rw [classTable?, hs, Option.bind_some, hr, Option.bind_some] at hclass
  split at hclass
  · next h' hh =>
    obtain rfl := Option.some.inj hclass
    exact hh
  · contradiction

set_option maxRecDepth 10000 in
/-- The reload is a success, in the state that the language has. -/
theorem reload_world : ∃ w h, reload (engineOf reloading 1) 0 world = some (.ok .ok, w) ∧ classTable? w = some h ∧
    h.state = 0 ∧ (w.languageOf 0).state = some 0 := by
  have hsucceeds : succeedsWith (fun status w => decide (status = .ok) &&
      ((classTable? w).any (·.state = 0) && decide ((w.languageOf 0).state = some 0)))
      (reload (engineOf reloading 1) 0 world) = true := by cbv
  obtain ⟨status, w, hrun, htest⟩ := eq_ok_of_succeedsWith hsucceeds
  rw [Bool.and_eq_true, Bool.and_eq_true, Option.any_eq_true] at htest
  obtain ⟨hstatus, ⟨h, hh, hstate⟩, hl⟩ := htest
  obtain rfl := of_decide_eq_true hstatus
  exact ⟨w, h, hrun, hh, of_decide_eq_true hstate, of_decide_eq_true hl⟩

/-- The reload is something that the host does. -/
theorem moment_reload {w : World} (h : reload (engineOf reloading 1) 0 world = some (.ok .ok, w)) :
    Moment reloading world w := by
  have run : (Act.reload 0).perform (engineOf reloading 1) world = some (.ok ⟨⟩, w) := by
    rw [Act.perform, discard_apply, h]
    rfl
  exact .done .start run

end Sample

/-- A script whose source gives a table is valid after it has been reloaded. -/
theorem script_life_table : ∃ w s r, reload (engineOf Sample.reloading 1) 0 Sample.world = some (.ok .ok, w) ∧
    Moment Sample.reloading Sample.world w ∧ w.scripts[0]? = some s ∧ s.state = .valid ∧ s.loaded = some r ∧
    w.IsTable r := by
  obtain ⟨w, -, hreload, -, -, -⟩ := Sample.reload_world
  have moment := Sample.moment_reload hreload
  have made : Sample.world.scripts[0]? = some { language := 0, source := "return {}" } := rfl
  obtain ⟨s, hs, hvalid, -, -, hstands, -⟩ := script_life Sample.steps made rfl rfl rfl (by decide) moment
  obtain ⟨es, result, htrail⟩ := trail_reload (engineOf_steps Sample.steps 1) hreload
  have hlast := hstands _ htrail
  rw [lastReload_append] at hlast
  cases hlast with
  | valid _ _ table state loaded => exact ⟨w, s, _, hreload, moment, hs, state, loaded, table⟩
  | invalid status => exact absurd rfl status

end Bridge

end HostedLua
