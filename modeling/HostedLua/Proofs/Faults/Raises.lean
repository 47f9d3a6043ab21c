import HostedLua.Proofs.Crossing.Leaf
import HostedLua.Proofs.Evolution.Engine

/-! Which faults a computation raises. `Raises` bounds the ordinary ones and is built up along the computation,
as `Keeps` is. Running Lua code raises none by itself, since what it throws is a value; and the text of an error
value cannot be had only where containers nest too deep, a whole number is too long, or an object refuses its text. -/

namespace HostedLua

open Host

namespace Bridge

open Lua.Machine

variable {α β : Type} {Q : World → Fault → Prop}

/-- The ordinary faults that a computation raises have a property in the world that it leaves. -/
def Raises (Q : World → Fault → Prop) (x : Bridge α) : Prop :=
  ∀ ⦃w f w'⦄, World.Sound w → x w = some (.error f, w') → f.isOrdinary = true → Q w' f

/-- A computation raises no ordinary fault. -/
def Quiet (x : Bridge α) : Prop := Raises (fun _ _ => False) x

/-! ### Steps -/

theorem Quiet.raises {x : Bridge α} (hx : Quiet x) : Raises Q x :=
  fun _ _ _ hw h hf => (hx hw h hf).elim

theorem Quiet.of_ok {x : Bridge α} (hx : ∀ w, ∃ a w', x w = some (.ok a, w')) : Quiet x := by
  intro w f w' _ h
  obtain ⟨a, v, ha⟩ := hx w
  rw [ha] at h
  cases h

theorem Raises.bind {x : Bridge α} {f : α → Bridge β} (hk : Keeps World.Sound World.Kept x) (hx : Raises Q x)
    (hf : ∀ a, Raises Q (f a)) : Raises Q (x >>= f) := by
  intro w e w' hw h he
  rcases bind_some h with ⟨e', hx', heq⟩ | ⟨a, v, ha, hf'⟩
  · obtain rfl := Except.error.inj heq
    exact hx hw hx' he
  · exact hf a (hk hw ha).1 hf' he

theorem Raises.mapM {f : α → Bridge β} (hk : ∀ a, Keeps World.Sound World.Kept (f a)) (hf : ∀ a, Raises Q (f a))
    (l : List α) : Raises Q (l.mapM f) := by
  induction l with
  | nil => exact (Quiet.of_ok fun w => ⟨[], w, rfl⟩).raises
  | cons a l ih =>
    rw [List.mapM_cons]
    refine .bind (hk a) (hf a) fun b => .bind (.mapM hk l) ih fun bs => ?_
    exact (Quiet.of_ok fun w => ⟨b :: bs, w, rfl⟩).raises

theorem Raises.pure (a : α) : Raises Q (pure a) := (Quiet.of_ok fun w => ⟨a, w, rfl⟩).raises

theorem protectedCall_none {x : Bridge α} {w : World} (h : x w = none) : protectedCall x w = none := by
  have hattempt : attempt x w = none := by rw [attempt_apply, h]; rfl
  rw [protectedCall, bind_apply, hattempt]

theorem protectedCall_ok {x : Bridge α} {w w' : World} {a : α} (h : x w = some (.ok a, w')) :
    protectedCall x w = some (.ok (.ok a), w') := by
  have hattempt : attempt x w = some (.ok (.ok a), w') := by rw [attempt_apply, h]; rfl
  rw [protectedCall, bind_ok hattempt]
  rfl

theorem protectedCall_error {x : Bridge α} {w w' : World} {f : Fault} (hf : f.isOrdinary = true)
    (h : x w = some (.error f, w')) : protectedCall x w = some (.ok (.error ⟨f.status, f.message⟩), w') := by
  have hattempt : attempt x w = some (.ok (.error f), w') := by rw [attempt_apply, h]; rfl
  rw [protectedCall, bind_ok hattempt]
  dsimp only
  rw [if_pos hf]
  rfl

theorem protectedCall_extraordinary {x : Bridge α} {w w' : World} {f : Fault} (hf : f.isOrdinary = false)
    (h : x w = some (.error f, w')) : protectedCall x w = some (.error f, w') := by
  have hattempt : attempt x w = some (.ok (.error f), w') := by rw [attempt_apply, h]; rfl
  rw [protectedCall, bind_ok hattempt]
  dsimp only
  rw [if_neg (ne_true_of_eq_false hf)]
  rfl

/-- A protected call takes ordinary faults and raises the others on. -/
theorem protectedCall_some {x : Bridge α} {w w' : World} {r : Except Fault (Except Failure α)}
    (h : protectedCall x w = some (r, w')) :
    (∃ a, x w = some (.ok a, w') ∧ r = .ok (.ok a)) ∨ (∃ e, r = .ok (.error e)) ∨
      ∃ f, f.isOrdinary = false ∧ r = .error f := by
  rcases bind_some h with ⟨e, he, -⟩ | ⟨a, v, ha, h⟩
  · obtain ⟨_, hr, -⟩ := attempt_some he
    contradiction
  · obtain ⟨_, hr, hx⟩ := attempt_some ha
    obtain rfl := Except.ok.inj hr
    cases a with
    | ok a =>
      obtain ⟨rfl, rfl⟩ := Prod.mk.inj (Option.some.inj h)
      exact .inl ⟨a, hx, rfl⟩
    | error f =>
      dsimp only at h
      split_ifs at h with hf
      · obtain ⟨rfl, -⟩ := Prod.mk.inj (Option.some.inj h)
        exact .inr (.inl ⟨_, rfl⟩)
      · obtain ⟨rfl, -⟩ := Prod.mk.inj (Option.some.inj h)
        exact .inr (.inr ⟨f, eq_false_of_ne_true hf, rfl⟩)

/-- Ordinary faults are taken by a protected call. -/
theorem quiet_protectedCall (x : Bridge α) : Quiet (protectedCall x) := by
  intro w f w' _ h hf
  rcases protectedCall_some h with ⟨a, -, hr⟩ | ⟨e, hr⟩ | ⟨f', hf', hr⟩
  · cases hr
  · cases hr
  · obtain rfl := Except.error.inj hr
    exact absurd hf (ne_true_of_eq_false hf')

/-! ### The operations of a world -/

theorem quiet_object (id : Nat) : Quiet (object id) := .of_ok fun w => ⟨_, w, rfl⟩

theorem quiet_state? (id : Nat) : Quiet (state? id) := .of_ok fun w => ⟨_, w, rfl⟩

theorem quiet_newObject (o : Object) : Quiet (newObject o) := .of_ok fun _ => ⟨_, _, rfl⟩

theorem quiet_newError (status : ErrorStatus) (message : Text) : Quiet (newError status message) :=
  quiet_newObject _

theorem quiet_isValid (h : Handle) : Quiet (isValid h) := .of_ok fun w => ⟨_, w, valid_apply h w⟩

theorem quiet_isOpen (id : Nat) : Quiet (isOpen id) := by
  refine .bind (keeps_state? id) (quiet_state? id) fun s => ?_
  cases s <;> exact .pure _

theorem quiet_reportTo (state : Nat) (message : Text) : Quiet (reportTo state message) :=
  .of_ok fun w => ⟨⟨⟩, reportTo_total state message w⟩

/-! ### Lua code -/

/-- What Lua code throws is a value: running it raises nothing. -/
theorem quiet_engineRun (n state : Nat) (p : Lua.Prog) : Quiet ((engine (n + 1)).run state p) := by
  intro w f w' hw h _
  obtain ⟨s, hs, -⟩ := engineRun_some h
  obtain ⟨res, m', hr, -⟩ :=
    engineRun_lasts (engine_keeps n) hw hs (lasts_underWay s.machine) (underWay_enter (hw hs)) h
  contradiction

/-! ### Texts -/

inductive Textless (w : World) : Fault → Prop where
  /-- Containers in it nest too deep. -/
  | nested : Textless w tooDeep
  /-- A whole number in it has too many digits. -/
  | long : Textless w (.of "ValueError" Integer.unwritable)
  /-- An object in it, or it itself, refuses its text. -/
  | mute {id : Nat} {typeName : Text} {f : Fault} (found : w.objects[id]? = some (.mute typeName f)) : Textless w f

/-- A computation fails only where a text cannot be had. -/
def Spells (x : Bridge α) : Prop := Raises Textless x

section Texts

variable {n : Nat}

theorem quiet_addressOf (state : Nat) (v : Value) : Quiet (addressOf (engine n) state v) := by
  refine .bind (keeps_isOpen state) (quiet_isOpen state) fun isOpen => ?_
  split
  · exact .pure _
  · refine .bind (keeps_callLua (engine_keeps n) _ _ _).protectedCall (quiet_protectedCall _) fun r => ?_
    split <;> exact .pure _

theorem quiet_handleText (id : Nat) (h : Handle) : Quiet (handleText (engine n) id h) := by
  refine .bind (keeps_isValid h) (quiet_isValid h) fun valid => ?_
  dsimp only
  split
  · exact .bind (keeps_addressOf (engine_keeps n) _ _) (quiet_addressOf _ _) fun address => .pure _
  · exact .pure _

theorem quiet_guestText (id : Nat) (g : Guest) (useMeta : Bool) :
    Quiet (guestText (engine (n + 1)) id g useMeta) := by
  refine .bind (keeps_state? _) (quiet_state? _) fun s => ?_
  split
  · exact .pure _
  · split
    · exact .pure _
    · exact .pure _
    · refine .bind ((engine_keeps (n + 1)).run _ _) (quiet_engineRun n _ _) fun r => ?_
      split
      · split <;> exact .pure _
      · exact .pure _

theorem spells_intText (i : Int) : Spells (intText i) := by
  intro w f w' _ h _
  rw [intText] at h
  cases hi : Integer.write? i with
  | some t => rw [hi] at h; cases h
  | none =>
    rw [hi] at h
    obtain rfl := Except.error.inj (Prod.mk.inj (Option.some.inj h)).1
    exact .long

/-- An object that refuses its text is there to do so. -/
theorem spells_object {id : Nat} {g : Object → Bridge α} (hmute : ∀ typeName f, g (.mute typeName f) = throw f)
    (hg : ∀ o, (∀ typeName f, o ≠ .mute typeName f) → Spells (g o)) : Spells (object id >>= g) := by
  intro w f w' hw h hf
  rw [bind_ok (object_apply id w)] at h
  by_cases ho : ∃ typeName e, (w.objects[id]?).getD .nothing = .mute typeName e
  · obtain ⟨typeName, e, ho⟩ := ho
    rw [ho, hmute] at h
    obtain ⟨he, rfl⟩ := Prod.mk.inj (Option.some.inj h)
    obtain rfl := Except.error.inj he
    cases hid : w.objects[id]? with
    | none => rw [hid] at ho; cases ho
    | some o =>
      rw [hid] at ho
      exact .mute (hid.trans (congrArg some ho))
  · exact hg _ (fun typeName e he => ho ⟨typeName, e, he⟩) hw h hf

theorem spells_reprWith (depth : Nat) (around : List Nat) (v : Value) :
    Spells (reprWith (engine (n + 1)) plainScript depth around v) := by
  have hE := engine_keeps (n + 1)
  induction depth generalizing around v with
  | zero =>
    intro w f w' _ h _
    obtain rfl := Except.error.inj (Prod.mk.inj (Option.some.inj h)).1
    exact .nested
  | succ depth ih =>
    have hkeeps := keeps_reprWith hE keeps_plainScript depth
    have hinner (around : List Nat) (vs : List Value) :
        Spells (vs.mapM (reprWith (engine (n + 1)) plainScript depth around)) :=
      .mapM (hkeeps around) (ih around) vs
    let pair (around : List Nat) (p : Value × Value) : Bridge Text := do
      let k ← reprWith (engine (n + 1)) plainScript depth around p.1
      return k ++ ": " ++ (← reprWith (engine (n + 1)) plainScript depth around p.2)
    have hpair (around : List Nat) (p : Value × Value) : Keeps World.Sound World.Kept (pair around p) :=
      (hkeeps around p.1).bind fun k => (hkeeps around p.2).bind fun v => .pure _
    have hpair' (around : List Nat) (p : Value × Value) : Spells (pair around p) :=
      .bind (hkeeps around p.1) (ih around p.1) fun k => .bind (hkeeps around p.2) (ih around p.2) fun v => .pure _
    have hpairs (around : List Nat) (ps : List (Value × Value)) : Spells (ps.mapM (pair around)) :=
      .mapM (hpair around) (hpair' around) ps
    have henclosed (again : Bool) (plain : Text) (x : Bridge (List Text)) (f : List Text → Text)
        (hk : Keeps World.Sound World.Kept x) (hx : Spells x) : Spells (if again then pure plain else do return f (← x)) := by
      split
      · exact .pure _
      · exact .bind hk hx fun _ => .pure _
    cases v with
    | int i => exact spells_intText i
    | obj id =>
      refine spells_object (fun _ _ => rfl) fun o ho => ?_
      cases o with
      | list vs => exact henclosed _ _ _ _ (.mapM (hkeeps _) vs) (hinner _ vs)
      | tuple vs => exact henclosed _ _ _ _ (.mapM (hkeeps _) vs) (hinner _ vs)
      | dict ps => exact henclosed _ _ _ _ (.mapM (hpair _) ps) (hpairs _ ps)
      | proxy ps => exact henclosed _ _ _ _ (.mapM (hpair _) ps) (hpairs _ ps)
      | handle h => exact (quiet_handleText _ h).raises
      | guest g => exact (quiet_guestText _ g false).raises
      | fault f =>
        dsimp only
        split_ifs <;> exact .pure _
      | mute typeName f => exact absurd rfl (ho typeName f)
      | _ => exact .pure _
    | _ => exact .pure _

theorem spells_str (v : Value) : Spells (str (engine (n + 1)) v) := by
  have hrepr (v : Value) : Spells (quotedText (engine (n + 1)) plainScript v) :=
    .bind Keeps.get (Quiet.of_ok fun w => ⟨w, w, rfl⟩).raises fun w => spells_reprWith (w.limits.textNesting + 1) [] v
  unfold str strWith
  split
  · exact .pure _
  · exact .pure _
  · refine .bind (keeps_object _) (quiet_object _).raises fun o => ?_
    split
    · exact .pure _
    · exact .pure _
    · exact (quiet_guestText _ _ _).raises
    · exact hrepr _
  · exact hrepr _

theorem spells_errorMessage (v : Value) : Spells (errorMessage (engine (n + 1)) v) := by
  unfold errorMessage
  split
  · exact .pure _
  · exact .pure _
  · refine .bind (keeps_object _) (quiet_object _).raises fun o => ?_
    split
    · exact .pure _
    · exact .pure _
    · exact spells_str _
  · exact spells_str _

theorem spells_errorValue (v : Value) : Spells (errorValue (errorMessage (engine (n + 1))) v) := by
  have hkeeps := keeps_errorMessage (engine_keeps (n + 1)) v
  refine .bind hkeeps (spells_errorMessage v) fun status => ?_
  exact .bind hkeeps (spells_errorMessage v) fun text => .pure _

end Texts

end Bridge

/-! ### Conversions -/

namespace World

/-- The encoding of the options that a state was opened under. -/
def encoding (w : World) (state : Nat) : Value :=
  match w.states[state]? with
  | some s => ((w.configs[s.config]?).getD {}).encoding
  | none => ({} : Config).encoding

theorem Kept.encoding {w w' : World} {state : Nat} {s : LuaState} (h : w.Kept w')
    (hs : w.states[state]? = some s) :
    w'.encoding state = w.encoding state := by
  obtain ⟨s', hs', hk⟩ := h.states hs
  simp only [World.encoding, hs, hs', hk.config, h.configs]

end World

namespace Bridge

variable {α : Type} {n state : Nat} {w w' : World} {s : LuaState} {f : Fault}

/-- The text of a string is refused for an encoding, whatever the world. -/
def Refuses (encoding : Value) (t : Text) (f : Fault) : Prop :=
  ∀ w, hostText t encoding w = some (.error f, w)

/-- A computation comes to the same in every world, and leaves it as it is. -/
def Constant (x : Bridge α) : Prop := ∃ r, ∀ w, x w = some (r, w)

/-- What becomes of a text does not depend on the world. -/
theorem constant_hostText (t : Text) (encoding : Value) : Constant (hostText t encoding) := by
  have hpure (v : Value) : Constant (pure v) := ⟨.ok v, fun _ => rfl⟩
  have hthrow (f : Fault) : Constant (throw f : Bridge Value) := ⟨.error f, fun _ => rfl⟩
  unfold hostText
  split
  · exact hpure _
  · dsimp only
    split
    · split
      · exact hpure _
      · exact hthrow _
    · split
      · exact hthrow _
      · exact hthrow _

theorem configOf_encoding (state : Nat) (w : World) :
    ∃ c, configOf state w = some (.ok c, w) ∧ c.encoding = w.encoding state := by
  rw [configOf, bind_ok (state?_apply state w), World.encoding]
  cases w.states[state]? with
  | none => exact ⟨{}, rfl, rfl⟩
  | some s => exact ⟨_, rfl, rfl⟩

theorem quiet_createThread (v : Value) : Quiet (createThread (engine n) state v) := by
  refine .bind (keeps_isOpen state) (quiet_isOpen state) fun isOpen => ?_
  split
  · exact .bind (keeps_reportTo _ _) (quiet_reportTo _ _) fun _ => .pure _
  · refine .bind (keeps_newThread (engine_keeps n) _ _).protectedCall (quiet_protectedCall _) fun r => ?_
    cases r with
    | ok v => exact .pure _
    | error e => exact .bind (keeps_reportTo _ _) (quiet_reportTo _ _) fun _ => .pure _

/-- An object has a host form. -/
theorem quiet_toHost_object (id : Nat) : Quiet (toHost (engine n) state (.obj id)) := by
  refine .bind (keeps_object id) (quiet_object id) fun o => ?_
  split
  · split
    · exact .bind (keeps_createThread (engine_keeps n) _ _) (quiet_createThread _) fun _ => quiet_newObject _
    · split
      · exact quiet_newObject _
      · exact quiet_newObject _
      · exact quiet_newObject _
      · exact quiet_newObject _
      · exact quiet_newObject _
      · exact .pure _
  · exact .pure _

/-- The only values without a host form are texts that are refused. -/
theorem toHost_error {v : Value} (hw : w.Sound) (hf : f.isOrdinary = true)
    (h : toHost (engine n) state v w = some (.error f, w')) :
    ∃ t, v = .text t ∧ Refuses (w.encoding state) t f := by
  cases v with
  | text t =>
    refine ⟨t, rfl, ?_⟩
    obtain ⟨c, hc, hencoding⟩ := configOf_encoding state w
    obtain ⟨r, hr⟩ := constant_hostText t c.encoding
    rw [toHost, bind_ok hc, hr w] at h
    obtain ⟨rfl, -⟩ := Prod.mk.inj (Option.some.inj h)
    rwa [hencoding] at hr
  | float x =>
    rw [toHost, bind_ok (state?_apply state w)] at h
    cases hs : w.states[state]? <;> rw [hs] at h <;> cases h
  | obj id => exact (quiet_toHost_object id hw h hf).elim
  | _ => cases h

/-- So are the only groups of values without one. -/
theorem toHostValues_error {vs : List Value} (hw : w.Sound) (hs : w.states[state]? = some s)
    (hf : f.isOrdinary = true) (h : toHostValues (engine n) state vs w = some (.error f, w')) :
    ∃ t, .text t ∈ vs ∧ Refuses (w.encoding state) t f := by
  have hall {vs : List Value} {w : World} (hw : w.Sound) (hs : ∃ s, w.states[state]? = some s)
      (h : vs.mapM (toHost (engine n) state) w = some (.error f, w')) :
      ∃ t, .text t ∈ vs ∧ Refuses (w.encoding state) t f := by
    induction vs generalizing w with
    | nil => cases h
    | cons v vs ih =>
      rw [List.mapM_cons] at h
      rcases bind_some h with ⟨e, he, hr⟩ | ⟨u, w₁, hu, h⟩
      · obtain rfl := Except.error.inj hr
        obtain ⟨t, rfl, ht⟩ := toHost_error hw hf he
        exact ⟨t, List.mem_cons_self .., ht⟩
      · rcases bind_some h with ⟨e, he, hr⟩ | ⟨us, w₂, -, h⟩
        · obtain rfl := Except.error.inj hr
          obtain ⟨hw₁, hk⟩ := keeps_toHost (engine_keeps n) state v hw hu
          obtain ⟨s, hs⟩ := hs
          obtain ⟨s₁, hs₁, -⟩ := hk.states hs
          obtain ⟨t, hmem, ht⟩ := ih hw₁ ⟨s₁, hs₁⟩ he
          exact ⟨t, List.mem_cons_of_mem _ hmem, hk.encoding hs ▸ ht⟩
        · cases h
  match vs with
  | [] => cases h
  | [v] =>
    obtain ⟨t, rfl, ht⟩ := toHost_error hw hf h
    exact ⟨t, List.mem_singleton.mpr rfl, ht⟩
  | v :: v' :: vs =>
    rcases bind_some h with ⟨e, he, hr⟩ | ⟨us, w₁, -, h⟩
    · obtain rfl := Except.error.inj hr
      exact hall hw ⟨s, hs⟩ he
    · cases h

end Bridge

end HostedLua
