import HostedLua.Proofs.Evolution.Engine
import HostedLua.Proofs.Script.Adoption

/-! Trails. Whatever is computed, the world goes on in small steps, and the reloads that complete on the way are noted
along the trail: a script gets another class or state in no other way. A state that has been closed is not opened
again, a language keeps its state as long as that is open, and handles stand for what they stood for. -/

namespace HostedLua

open Host

/-- The end of a reload: the script, the outcome, and what the source has given. -/
structure Completion where
  script : Nat
  status : ReloadStatus
  result : Value

namespace World

open Bridge

/-- What changes in the world at a time, with the reload that completes, if it is one. -/
inductive Step : World → List Completion → World → Prop where
  /-- Records, options and variables change. -/
  | beside {w w' : World} (objects : w'.objects = w.objects) (states : w'.states = w.states)
    (languages : w'.languages = w.languages) (scripts : w'.scripts = w.scripts)
    (diagnostics : w.diagnostics.size ≤ w'.diagnostics.size) : Step w [] w'
  | object {w : World} (o : Object) : Step w [] { w with objects := w.objects.push o }
  /-- A handle notes something. -/
  | handle {w : World} {id : Nat} {g g' : Handle} (found : w.objects[id]? = some (.handle g)) (kept : g.Kept g') :
    Step w [] { w with objects := w.objects.set! id (.handle g') }
  /-- A state goes on, or is closed. -/
  | state {w : World} {i : Nat} {f : LuaState → LuaState}
    (same : ∀ s : LuaState, (f s).diagnostics = s.diagnostics ∧ ((f s).isOpen = true → s.isOpen = true)) :
    Step w [] { w with states := w.states.modify i f }
  | opens {w : World} (s : LuaState) : Step w [] { w with states := w.states.push s }
  /-- A language gets another state, unless the one it has is open. -/
  | enter {w : World} {l : Nat} {state : Option Nat}
    (kept : ∀ s, (w.languageOf l).state = some s → w.opened s = true → state = some s) : Step w [] (w.enter l state)
  | language {w : World} (k : Language) : Step w [] { w with languages := w.languages.push k }
  | script {w : World} (s : Script) : Step w [] { w with scripts := w.scripts.push s }
  /-- A script gets another source. -/
  | source {w : World} (id : Nat) (source : Text) :
    Step w [] { w with scripts := w.scripts.modify id ({ · with source }) }
  /-- The source of a script has been run for a reload, and the script takes what it has given. -/
  | completes {E : Engine} {id : Nat} {status : ReloadStatus} {result : Value} {u w w' : World}
    (run : runIn E (u.scriptOf id).language (.text (u.scriptOf id).source) u = some (.ok result, w))
    (adopts : adopt E id result w = some (.ok status, w')) : Step w [⟨id, status, result⟩] w'

/-- A world goes on step by step, with the reloads that complete on the way. -/
inductive Trail : World → List Completion → World → Prop where
  | nil (w : World) : Trail w [] w
  | cons {w w' w'' : World} {es es' : List Completion} (step : Step w es w') (trail : Trail w' es' w'') :
    Trail w (es ++ es') w''

variable {w w' w'' : World} {es es' : List Completion}

theorem Step.trail (h : Step w es w') : Trail w es w' := by
  have := Trail.cons h (.nil w')
  rwa [List.append_nil] at this

theorem Trail.trans (h : Trail w es w') (h' : Trail w' es' w'') : Trail w (es ++ es') w'' := by
  induction h with
  | nil => exact h'
  | cons step _ ih =>
    rw [List.append_assoc]
    exact .cons step (ih h')

/-! ### What lasts -/

/-- A world with what lasts from an earlier one on. -/
structure Follows (w w' : World) : Prop where
  handles : ∀ {id : Nat} {h : Handle}, w.objects[id]? = some (.handle h) →
    ∃ h', w'.objects[id]? = some (.handle h') ∧ h.Kept h'
  states : ∀ {i : Nat} {s : LuaState}, w.states[i]? = some s →
    ∃ s', w'.states[i]? = some s' ∧ s'.diagnostics = s.diagnostics ∧ (s'.isOpen = true → s.isOpen = true)
  /-- A language keeps its state as long as that is open. -/
  entered : ∀ {l i : Nat} {s : LuaState}, (w.languageOf l).state = some i → w.states[i]? = some s →
    w'.opened i = true → (w'.languageOf l).state = some i
  languages : ∀ {l : Nat} {k : Language}, w.languages[l]? = some k →
    ∃ k', w'.languages[l]? = some k' ∧ k'.config = k.config ∧ k'.diagnostics = k.diagnostics ∧ k'.adapter = k.adapter
  scripts : ∀ {id : Nat} {s : Script}, w.scripts[id]? = some s →
    ∃ s', w'.scripts[id]? = some s' ∧ s'.language = s.language
  diagnostics : w.diagnostics.size ≤ w'.diagnostics.size

/-- A state that is open has been open before, if it was there. -/
theorem Follows.opened (h : w.Follows w') {i : Nat} {s : LuaState} (hs : w.states[i]? = some s)
    (ho : w'.opened i = true) : w.opened i = true := by
  obtain ⟨s', hs', -, hopen⟩ := h.states hs
  rw [World.opened, hs'] at ho
  rw [World.opened, hs]
  exact hopen ho

theorem Follows.refl (w : World) : w.Follows w :=
  ⟨fun {_ h} hh => ⟨h, hh, .refl h⟩, fun {_ s} hs => ⟨s, hs, rfl, id⟩, fun h _ _ => h,
    fun {_ k} hk => ⟨k, hk, rfl, rfl, rfl⟩, fun {_ s} hs => ⟨s, hs, rfl⟩, Nat.le_refl _⟩

theorem Follows.trans (h : w.Follows w') (h' : w'.Follows w'') : w.Follows w'' := by
  refine ⟨fun hh => ?_, fun hs => ?_, fun hi hs ho => ?_, fun hk => ?_, fun hs => ?_,
    Nat.le_trans h.diagnostics h'.diagnostics⟩
  · obtain ⟨g, hg, hk⟩ := h.handles hh
    obtain ⟨g', hg', hk'⟩ := h'.handles hg
    exact ⟨g', hg', hk.trans hk'⟩
  · obtain ⟨s', hs', hd, ho⟩ := h.states hs
    obtain ⟨s'', hs'', hd', ho'⟩ := h'.states hs'
    exact ⟨s'', hs'', hd'.trans hd, ho ∘ ho'⟩
  · obtain ⟨s', hs', -, -⟩ := h.states hs
    exact h'.entered (h.entered hi hs (h'.opened hs' ho)) hs' ho
  · obtain ⟨k', hk', hc, hd, ha⟩ := h.languages hk
    obtain ⟨k'', hk'', hc', hd', ha'⟩ := h'.languages hk'
    exact ⟨k'', hk'', hc'.trans hc, hd'.trans hd, ha'.trans ha⟩
  · obtain ⟨s', hs', hl⟩ := h.scripts hs
    obtain ⟨s'', hs'', hl'⟩ := h'.scripts hs'
    exact ⟨s'', hs'', hl'.trans hl⟩

theorem Follows.withClass (w : World) (id : Nat) (loaded : Option Nat) (state : ScriptState) :
    w.Follows (w.withClass id loaded state) :=
  { Follows.refl w with
    scripts := fun {id' s} hs => by
      rw [withClass_scripts, hs, Option.map_some]
      split_ifs
      · exact ⟨_, rfl, rfl⟩
      · exact ⟨s, rfl, rfl⟩ }

theorem Follows.reported (w : World) (d : Nat) (message : Text) : w.Follows (w.reported d message) :=
  { Follows.refl w with diagnostics := Nat.le_of_eq Array.size_modify.symm }

theorem Follows.adopts {id d : Nat} {result : Value} {status : ReloadStatus} (h : Adopts id d result w status w') :
    w.Follows w' := by
  cases h with
  | table => exact .withClass w id _ _
  | exhausted => exact (Follows.reported w d _).trans (.withClass _ id _ _)
  | unparsed => exact (Follows.reported w d _).trans (.withClass _ id _ _)
  | failed => exact (Follows.reported w d _).trans (.withClass _ id _ _)
  | other => exact (Follows.reported w d _).trans (.withClass _ id _ _)

theorem languageOf_eq {l : Nat} {k : Language} (hk : w.languages[l]? = some k) : w.languageOf l = k := by
  rw [languageOf, hk]
  rfl

/-- Only a language that there is has a state. -/
theorem exists_language {l i : Nat} (hi : (w.languageOf l).state = some i) :
    ∃ k, w.languages[l]? = some k ∧ k.state = some i := by
  cases hk : w.languages[l]? with
  | none =>
    rw [languageOf, hk] at hi
    cases hi
  | some k => exact ⟨k, rfl, languageOf_eq hk ▸ hi⟩

theorem Follows.enter {l : Nat} {state : Option Nat}
    (kept : ∀ s, (w.languageOf l).state = some s → w.opened s = true → state = some s) :
    w.Follows (w.enter l state) := by
  have hmodify {l' : Nat} {k : Language} (hk : w.languages[l']? = some k) :
      (w.enter l state).languages[l']? = some (if l = l' then { k with state } else k) :=
    getElem?_modify_some hk l ({ · with state })
  refine { Follows.refl w with entered := fun {l' i s} hi hs ho => ?_, languages := fun {l' k} hk => ?_ }
  · obtain ⟨k, hk, hki⟩ := exists_language hi
    rw [languageOf_eq (hmodify hk)]
    split_ifs with hl
    · subst hl
      exact kept i hi ho
    · exact hki
  · refine ⟨_, hmodify hk, ?_⟩
    split_ifs <;> exact ⟨rfl, rfl, rfl⟩

/-- What lasts survives a step. -/
theorem Step.follows (h : Step w es w') : w.Follows w' := by
  cases h with
  | beside objects states languages scripts diagnostics =>
    refine ⟨fun {_ h} hh => ⟨h, objects ▸ hh, .refl h⟩, fun {_ s} hs => ⟨s, states ▸ hs, rfl, id⟩, fun hi _ _ => ?_,
      fun {_ k} hk => ⟨k, languages ▸ hk, rfl, rfl, rfl⟩, fun {_ s} hs => ⟨s, scripts ▸ hs, rfl⟩, diagnostics⟩
    rwa [languageOf, languages]
  | object o => exact { Follows.refl w with handles := (Kept.push w o).handles }
  | handle found kept => exact { Follows.refl w with handles := (Kept.setHandle found kept).handles }
  | @state _ i f same =>
    refine { Follows.refl w with states := fun {j s} hs => ⟨_, getElem?_modify_some hs i f, ?_⟩,
                                 entered := fun hi _ _ => hi }
    split_ifs
    · exact same s
    · exact ⟨rfl, id⟩
  | opens s =>
    exact { Follows.refl w with states := fun {_ s'} hs => ⟨s', getElem?_push_some hs s, rfl, id⟩,
                                entered := fun hi _ _ => hi }
  | enter kept => exact .enter kept
  | language k =>
    refine { Follows.refl w with entered := fun {l i s} hi _ _ => ?_,
                                 languages := fun {_ k'} hk => ⟨k', getElem?_push_some hk k, rfl, rfl, rfl⟩ }
    obtain ⟨k', hk', hki⟩ := exists_language hi
    rwa [languageOf_eq (getElem?_push_some hk' k)]
  | script s =>
    exact { Follows.refl w with scripts := fun {_ s'} hs => ⟨s', getElem?_push_some hs s, rfl⟩ }
  | source id source =>
    refine { Follows.refl w with scripts := fun {i s} hs => ⟨_, getElem?_modify_some hs id _, ?_⟩ }
    split_ifs <;> rfl
  | @completes E id status result u w w' run adopts =>
    obtain ⟨status', v, hadopt, hadopts⟩ := adopt_adopts E id result w
    obtain ⟨-, rfl⟩ := Prod.mk.inj (Option.some.inj (hadopt.symm.trans adopts))
    exact .adopts hadopts

/-- What lasts survives along a trail. -/
theorem Trail.follows (h : Trail w es w') : w.Follows w' := by
  induction h with
  | nil => exact .refl _
  | cons step _ ih => exact step.follows.trans ih

/-! ### Computations go along trails -/

/-- Every world. -/
def Any (_ : World) : Prop := True

/-- A world from which a trail leads to another one. -/
def Leads (w w' : World) : Prop := ∃ es, Trail w es w'

theorem Step.leads (h : Step w es w') : w.Leads w' := ⟨es, h.trail⟩

theorem Leads.trans (h : w.Leads w') (h' : w'.Leads w'') : w.Leads w'' := by
  obtain ⟨es, ht⟩ := h
  obtain ⟨es', ht'⟩ := h'
  exact ⟨es ++ es', ht.trans ht'⟩

theorem Step.of_beside (h : w.Beside w') : Step w [] w' :=
  .beside h.objects h.states h.languages h.scripts (Nat.le_of_eq (congrArg Array.size h.diagnostics.symm))

/-- A side effect is put on record. -/
theorem Step.effect (d : Nat) (e : Effect) : Step w [] (w.withEffect d e) :=
  .beside rfl rfl rfl rfl (Nat.le_of_eq Array.size_modify.symm)

/-- An invariant that lasts along trails as far as they change objects, and depends on nothing else. -/
class OfObjects (I : World → Prop) : Prop where
  same {w w' : World} : w'.objects = w.objects → I w → I w'
  object {w : World} (o : Object) : I w → I { w with objects := w.objects.push o }
  handle {w : World} {id : Nat} {g g' : Handle} : I w → w.objects[id]? = some (.handle g) → g.Kept g' →
    (g.closed = true → g'.closed = true) → I { w with objects := w.objects.set! id (.handle g') }

instance : OfObjects Any where
  same _ _ := trivial
  object _ _ := trivial
  handle _ _ _ _ := trivial

instance {I : World → Prop} [OfObjects I] : AdmitsPrint I Leads where
  refl w := ⟨[], .nil w⟩
  trans := .trans
  beside hw h := ⟨OfObjects.same h.objects hw, (Step.of_beside h).leads⟩
  report _ _ hw := ⟨OfObjects.same (by rfl) hw, (Step.effect _ _).leads⟩
  print _ _ hv hleads _ := ⟨OfObjects.same (by rfl) hv, hleads.trans (Step.effect _ _).leads⟩
  object o hw := ⟨OfObjects.object o hw, (Step.object o).leads⟩
  handle hw found kept closed := ⟨OfObjects.handle hw found kept closed, (Step.handle found kept).leads⟩
  state hw _ same := ⟨OfObjects.same (by rfl) hw, (Step.state same).leads⟩
  opens hw _ := ⟨OfObjects.same (by rfl) hw, (Step.opens _).leads⟩
  enter hw kept := ⟨OfObjects.same (by rfl) hw, (Step.enter kept).leads⟩

end World

end HostedLua
