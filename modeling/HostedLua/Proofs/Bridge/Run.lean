import HostedLua.Host.Convert

/-! Running computations: what the operations of a `Bridge` come to in a world. `bind_apply` and `bind_ok`
open a computation step by step, and the other rules say what a single step does. The rules named `seen_`
are those of the conversion to Lua, which keeps the tables met so far. -/

namespace HostedLua

open Host

section Array

variable {α : Type} {xs : Array α} {i : Nat} {a : α}

theorem getElem?_push_some (h : xs[i]? = some a) (b : α) : (xs.push b)[i]? = some a := by
  have hlt : i < xs.size := (Array.getElem?_eq_some_iff.mp h).1
  rw [Array.getElem?_push_lt hlt, ← Array.getElem?_eq_getElem hlt, h]

theorem getElem?_modify_some (h : xs[i]? = some a) (j : Nat) (f : α → α) :
    (xs.modify j f)[i]? = some (if j = i then f a else a) := by
  rw [Array.getElem?_modify, h]
  split <;> rfl

/-- Where an element is what it would become, nothing changes. -/
theorem modify_self {f : α → α} (h : ∀ a, xs[i]? = some a → f a = a) : xs.modify i f = xs := by
  refine Array.ext_getElem? fun j => ?_
  rw [Array.getElem?_modify]
  split
  · next hj =>
    subst hj
    cases hx : xs[i]? with
    | none => rfl
    | some a => exact congrArg some (h a hx)
  · rfl

theorem modify_modify (f g : α → α) : (xs.modify i f).modify i g = xs.modify i fun a => g (f a) := by
  refine Array.ext_getElem? fun j => ?_
  simp only [Array.getElem?_modify]
  split
  · cases xs[j]? <;> rfl
  · rfl

end Array

def Host.Handle.stands (h : Handle) : Bool :=
  match h.guest with
  | .none => false
  | _ => true

namespace World

variable {w : World} {state : Nat}

def opened (w : World) (state : Nat) : Bool := (w.states[state]?).any (·.isOpen)

/-- A handle stands for a value of a state that is open and still held. -/
def valid (w : World) (h : Handle) : Bool := h.stands && w.opened h.state && w.stateAlive h.state

theorem stateAlive_of_held (h : state ∈ w.heldStates) : w.stateAlive state = true := by
  simp [stateAlive, h]

/-- The handles of a state that is held are valid just while it is open. -/
theorem valid_of_held {h : Handle} (hh : h.state ∈ w.heldStates) : w.valid h = (h.stands && w.opened h.state) := by
  rw [valid, stateAlive_of_held hh, Bool.and_true]

theorem opened_eq {s : LuaState} (hs : w.states[state]? = some s) : w.opened state = s.isOpen := by
  rw [opened, hs]
  rfl

def handleAt (w : World) (v : Value) : Option Handle :=
  match v with
  | .obj id =>
    match w.objects[id]? with
    | some (.handle h) => some h
    | _ => none
  | _ => none

theorem handleAt_some {v : Value} {h : Handle} (hv : w.handleAt v = some h) :
    ∃ id, v = .obj id ∧ w.objects[id]? = some (.handle h) := by
  cases v with
  | obj id =>
    rw [handleAt] at hv
    split at hv
    next k hk => exact ⟨id, rfl, Option.some.inj hv ▸ hk⟩
    next => contradiction
  | _ => contradiction

end World

namespace Bridge

variable {α β : Type} {w w' : World}

/-! ### Steps -/

theorem bind_apply (x : Bridge α) (f : α → Bridge β) (w : World) :
    (x >>= f) w = match x w with
      | none => none
      | some (.ok a, w') => f a w'
      | some (.error e, w') => some (.error e, w') := by
  show Option.bind (x w) _ = _
  rcases x w with _ | ⟨_ | a, w'⟩ <;> rfl

theorem bind_ok {x : Bridge α} {f : α → Bridge β} {a : α} (h : x w = some (.ok a, w')) :
    (x >>= f) w = f a w' := by
  rw [bind_apply, h]

theorem bind_none {x : Bridge α} {f : α → Bridge β} (h : x w = none) : (x >>= f) w = none := by
  rw [bind_apply, h]

theorem bind_error {x : Bridge α} {f : α → Bridge β} {e : Fault} (h : x w = some (.error e, w')) :
    (x >>= f) w = some (.error e, w') := by
  rw [bind_apply, h]

/-- A run that succeeds does so with one value, in one world. -/
theorem ok_inj {a b : α} (h : (some (.ok a, w) : Option (Except Fault α × World)) = some (.ok b, w')) :
    a = b ∧ w = w' := by
  obtain ⟨hab, hw⟩ := Prod.mk.inj (Option.some.inj h)
  exact ⟨Except.ok.inj hab, hw⟩

/-- A computation in two steps ends in the first one with a fault, or in the second one. -/
theorem bind_some {x : Bridge α} {f : α → Bridge β} {r : Except Fault β} (h : (x >>= f) w = some (r, w')) :
    (∃ e, x w = some (.error e, w') ∧ r = .error e) ∨ ∃ a v, x w = some (.ok a, v) ∧ f a v = some (r, w') := by
  rw [bind_apply] at h
  cases hx : x w with
  | none =>
    rw [hx] at h
    contradiction
  | some p =>
    obtain ⟨r₁, v⟩ := p
    rw [hx] at h
    cases r₁ with
    | error e =>
      obtain ⟨rfl, rfl⟩ := Prod.mk.inj (Option.some.inj h)
      exact .inl ⟨e, rfl, rfl⟩
    | ok a => exact .inr ⟨a, v, rfl, h⟩

/-- A computation in two steps that succeeds does so in both. -/
theorem bind_some_ok {x : Bridge α} {f : α → Bridge β} {b : β} (h : (x >>= f) w = some (.ok b, w')) :
    ∃ a v, x w = some (.ok a, v) ∧ f a v = some (.ok b, w') := by
  rcases bind_some h with ⟨e, -, he⟩ | hok
  · cases he
  · exact hok

theorem map_apply (g : α → β) (x : Bridge α) (w : World) :
    (g <$> x) w = (x w).map fun p => (p.1.map g, p.2) := by
  rw [map_eq_pure_bind, bind_apply]
  rcases x w with _ | ⟨_ | _, _⟩ <;> rfl

theorem discard_apply (x : Bridge α) (w : World) :
    discard x w = (x w).map fun p => (p.1.map fun _ => ⟨⟩, p.2) := map_apply _ x w

@[simp] theorem pure_apply (a : α) (w : World) : (pure a : Bridge α) w = some (.ok a, w) := rfl

@[simp] theorem throw_apply (f : Fault) (w : World) : (throw f : Bridge α) w = some (.error f, w) := rfl

@[simp] theorem raise_apply (kind : String) (text : Text) (w : World) :
    (raise kind text : Bridge α) w = some (.error (.of kind text), w) := rfl

@[simp] theorem get_apply (w : World) : (get : Bridge World) w = some (.ok w, w) := rfl

@[simp] theorem set_apply (v w : World) : (set v : Bridge PUnit) w = some (.ok ⟨⟩, v) := rfl

@[simp] theorem modify_apply (f : World → World) (w : World) :
    (modify f : Bridge PUnit) w = some (.ok ⟨⟩, f w) := rfl

/-- A run fails with a fault that passes a test. -/
def failsWith (test : Fault → Bool) : Option (Except Fault α × World) → Bool
  | some (.error f, _) => test f
  | _ => false

theorem eq_error_of_failsWith {test : Fault → Bool} {x : Option (Except Fault α × World)}
    (h : failsWith test x = true) : ∃ f w', x = some (.error f, w') ∧ test f = true := by
  rcases x with _ | ⟨f | a, w'⟩
  · contradiction
  · exact ⟨f, w', rfl, h⟩
  · contradiction

/-- A run succeeds with a value and a world that pass a test. -/
def succeedsWith (test : α → World → Bool) : Option (Except Fault α × World) → Bool
  | some (.ok a, w) => test a w
  | _ => false

theorem eq_ok_of_succeedsWith {test : α → World → Bool} {x : Option (Except Fault α × World)}
    (h : succeedsWith test x = true) : ∃ a w', x = some (.ok a, w') ∧ test a w' = true := by
  rcases x with _ | ⟨f | a, w'⟩
  · contradiction
  · contradiction
  · exact ⟨a, w', rfl, h⟩

/-- Goes on only in a world that passes a test. -/
def assure (test : World → Bool) : Bridge Unit := fun w => if test w then some (.ok ⟨⟩, w) else none

theorem assure_ok {test : World → Bool} (h : assure test w = some (.ok ⟨⟩, w')) : test w = true ∧ w = w' := by
  rw [assure] at h
  split at h
  next ht => exact ⟨ht, (ok_inj h).2⟩
  next => contradiction

/-! ### The operations of a world -/

@[simp] theorem object_apply (id : Nat) (w : World) :
    object id w = some (.ok ((w.objects[id]?).getD .nothing), w) := rfl

@[simp] theorem newObject_apply (o : Object) (w : World) :
    newObject o w = some (.ok (.obj w.objects.size), { w with objects := w.objects.push o }) := rfl

@[simp] theorem state?_apply (id : Nat) (w : World) : state? id w = some (.ok w.states[id]?, w) := rfl

@[simp] theorem modifyState_apply (id : Nat) (f : LuaState → LuaState) (w : World) :
    modifyState id f w = some (.ok ⟨⟩, { w with states := w.states.modify id f }) := rfl

@[simp] theorem config_apply (id : Nat) (w : World) :
    config id w = some (.ok ((w.configs[id]?).getD {}), w) := rfl

theorem attempt_apply (x : Bridge α) (w : World) :
    attempt x w = (x w).map fun p => (.ok p.1, p.2) := by
  rw [attempt]
  rcases x w with _ | ⟨_ | _, _⟩ <;> rfl

/-- An attempt raises nothing. -/
theorem attempt_some {x : Bridge α} {r : Except Fault (Except Fault α)} (h : attempt x w = some (r, w')) :
    ∃ a, r = .ok a ∧ x w = some (a, w') := by
  rw [attempt_apply] at h
  obtain ⟨⟨a, v⟩, hx, heq⟩ := Option.map_eq_some_iff.mp h
  obtain ⟨rfl, rfl⟩ := Prod.mk.inj heq
  exact ⟨a, rfl, hx⟩

/-- A computation for which a state is held runs with it, and leaves what the world held before. -/
theorem holding_apply (vs : List Value) (state : Nat) (x : Bridge α) (w : World) :
    holding vs state x w = (x { w with held := vs ++ w.held, heldStates := state :: w.heldStates }).map
      fun p => (p.1, { p.2 with held := w.held, heldStates := w.heldStates }) := by
  rw [holding]
  simp only [bind_apply, get_apply, set_apply, attempt_apply]
  rcases x _ with _ | ⟨_ | _, _⟩ <;> rfl

theorem holding_ok {vs : List Value} {state : Nat} {x : Bridge α} {a : α}
    (h : x { w with held := vs ++ w.held, heldStates := state :: w.heldStates } = some (.ok a, w')) :
    holding vs state x w = some (.ok a, { w' with held := w.held, heldStates := w.heldStates }) := by
  rw [holding_apply, h]
  rfl

theorem configOf_apply {state : Nat} {s : LuaState} (h : w.states[state]? = some s) :
    configOf state w = some (.ok ((w.configs[s.config]?).getD {}), w) := by
  simp [configOf, bind_apply, h]

theorem reportTo_apply {state : Nat} {s : LuaState} {message : Text} (hs : w.states[state]? = some s) :
    reportTo state message w =
      some (.ok ⟨⟩, { w with diagnostics := w.diagnostics.modify s.diagnostics (· ++ [.report message]) }) := by
  rw [reportTo, bind_ok (state?_apply state w), hs]
  rfl

/-- A report is made, if there is a state to make it to. -/
theorem reportTo_total (state : Nat) (message : Text) (w : World) :
    ∃ w', reportTo state message w = some (.ok ⟨⟩, w') := by
  rw [reportTo, bind_ok (state?_apply state w)]
  cases w.states[state]? <;> exact ⟨_, rfl⟩

/-! ### Open states and valid handles -/

theorem opened_apply (state : Nat) (w : World) : isOpen state w = some (.ok (w.opened state), w) := by
  rw [isOpen, bind_ok (state?_apply state w), World.opened]
  cases w.states[state]? <;> rfl

theorem isOpen_apply {state : Nat} {s : LuaState} (hs : w.states[state]? = some s) :
    isOpen state w = some (.ok s.isOpen, w) := by
  rw [opened_apply, World.opened_eq hs]

/-- Asking whether a handle is valid always has an answer and changes nothing. -/
theorem valid_apply (h : Handle) (w : World) : isValid h w = some (.ok (w.valid h), w) := by
  have hopen : openState? h.state w =
      some (.ok ((w.states[h.state]?).filter fun s => s.isOpen && w.stateAlive h.state), w) := by
    rw [openState?, bind_ok (get_apply w)]
    cases w.states[h.state]? with
    | none => rfl
    | some s =>
      rw [Option.filter_some]
      rfl
  rw [isValid, World.valid, Handle.stands]
  cases h.guest with
  | none => rfl
  | _ =>
    refine (bind_ok hopen).trans ?_
    rw [World.opened]
    cases w.states[h.state]? with
    | none => rfl
    | some s => cases hs : s.isOpen <;> cases w.stateAlive h.state <;> simp [hs]

theorem isValid_total (h : Handle) (w : World) : ∃ b, isValid h w = some (.ok b, w) := ⟨_, valid_apply h w⟩

/-! ### Computations that only look -/

/-- A computation ends and changes nothing, and what it comes to depends on the objects and limits alone. -/
def Reads (x : Bridge α) : Prop := ∀ w : World, ∃ r, ∀ v : World, v.objects = w.objects → v.limits = w.limits →
  x v = some (r, v)

theorem Reads.total {x : Bridge α} (hx : Reads x) (w : World) : ∃ r, x w = some (r, w) :=
  (hx w).imp fun _ hr => hr w rfl rfl

theorem Reads.congr {x : Bridge α} {r : Except Fault α} {w v : World} (hx : Reads x) (h : x w = some (r, w))
    (hobjects : v.objects = w.objects) (hlimits : v.limits = w.limits) : x v = some (r, v) := by
  obtain ⟨r', hr'⟩ := hx w
  obtain ⟨rfl, -⟩ := Prod.mk.inj (Option.some.inj (h.symm.trans (hr' w rfl rfl)))
  exact hr' v hobjects hlimits

theorem Reads.pure (a : α) : Reads (pure a) := fun _ => ⟨_, fun _ _ _ => rfl⟩

theorem Reads.raise (kind : String) (text : Text) : Reads (raise kind text : Bridge α) :=
  fun _ => ⟨_, fun _ _ _ => rfl⟩

theorem Reads.bind {x : Bridge α} {f : α → Bridge β} (hx : Reads x) (hf : ∀ a, Reads (f a)) : Reads (x >>= f) := by
  intro w
  obtain ⟨r | a, hr⟩ := hx w
  · exact ⟨_, fun v ho hl => bind_error (hr v ho hl)⟩
  · obtain ⟨r', hr'⟩ := hf a w
    exact ⟨r', fun v ho hl => (bind_ok (hr v ho hl)).trans (hr' v ho hl)⟩

theorem Reads.map {x : Bridge α} (hx : Reads x) (f : α → β) : Reads (f <$> x) := by
  rw [map_eq_pure_bind]
  exact hx.bind fun a => .pure _

theorem reads_object (id : Nat) : Reads (object id) := by
  refine fun w => ⟨.ok ((w.objects[id]?).getD .nothing), fun v ho _ => ?_⟩
  rw [object_apply, ho]

theorem reads_limits {f : Limits → Bridge α} (hf : ∀ l, Reads (f l)) : Reads (do f (← get).limits) := by
  intro w
  obtain ⟨r, hr⟩ := hf w.limits w
  refine ⟨r, fun v ho hl => ?_⟩
  rw [bind_ok (get_apply v), hl, hr v ho hl]

/-! ### Conversions under way -/

section Seen

variable {σ σ' : Seen}

theorem seen_bind_apply (x : StateT Seen Bridge α) (f : α → StateT Seen Bridge β) (σ : Seen) (w : World) :
    (x >>= f) σ w = match x σ w with
      | none => none
      | some (.ok (a, σ'), w') => f a σ' w'
      | some (.error e, w') => some (.error e, w') := by
  show (x σ >>= fun p => f p.1 p.2) w = _
  rw [bind_apply]
  rcases x σ w with _ | ⟨_ | _, _⟩ <;> rfl

theorem seen_bind_ok {x : StateT Seen Bridge α} {f : α → StateT Seen Bridge β} {a : α}
    (h : x σ w = some (.ok (a, σ'), w')) : (x >>= f) σ w = f a σ' w' := by
  rw [seen_bind_apply, h]

theorem seen_ok_inj {a b : α} (h : (some (.ok (a, σ), w) : Option (Except Fault (α × Seen) × World)) =
    some (.ok (b, σ'), w')) : a = b ∧ σ = σ' ∧ w = w' := by
  obtain ⟨hp, hw⟩ := ok_inj h
  obtain ⟨hab, hσ⟩ := Prod.mk.inj hp
  exact ⟨hab, hσ, hw⟩

theorem seen_bind_some_ok {x : StateT Seen Bridge α} {f : α → StateT Seen Bridge β} {b : β}
    (h : (x >>= f) σ w = some (.ok (b, σ'), w')) :
    ∃ a σ₁ w₁, x σ w = some (.ok (a, σ₁), w₁) ∧ f a σ₁ w₁ = some (.ok (b, σ'), w') := by
  obtain ⟨⟨a, σ₁⟩, w₁, hx, hf⟩ := bind_some_ok (x := x σ) (f := fun p => f p.1 p.2) h
  exact ⟨a, σ₁, w₁, hx, hf⟩

@[simp] theorem seen_pure_apply (a : α) (σ : Seen) (w : World) :
    (pure a : StateT Seen Bridge α) σ w = some (.ok (a, σ), w) := rfl

@[simp] theorem seen_get_apply (σ : Seen) (w : World) :
    (get : StateT Seen Bridge Seen) σ w = some (.ok (σ, σ), w) := rfl

@[simp] theorem seen_modify_apply (f : Seen → Seen) (σ : Seen) (w : World) :
    (modify f : StateT Seen Bridge PUnit) σ w = some (.ok (⟨⟩, f σ), w) := rfl

theorem lift_ok {x : Bridge α} {a : α} (h : x w = some (.ok a, w')) :
    (liftM x : StateT Seen Bridge α) σ w = some (.ok (a, σ), w') := by
  show (x >>= fun a => pure (a, σ)) w = _
  rw [bind_ok h]
  rfl

theorem lift_some_ok {x : Bridge α} {a : α} (h : (liftM x : StateT Seen Bridge α) σ w = some (.ok (a, σ'), w')) :
    σ' = σ ∧ x w = some (.ok a, w') := by
  have hx : (x >>= fun a => (pure (a, σ) : Bridge (α × Seen))) w = some (.ok (a, σ'), w') := h
  obtain ⟨b, v, hb, hp⟩ := bind_some_ok hx
  obtain ⟨rfl, rfl, rfl⟩ := seen_ok_inj hp
  exact ⟨rfl, hb⟩

/-- A conversion starts with no table met, and goes as deep as the host has room for. -/
theorem toGuest_apply (state : Nat) (v : Value) (w : World) :
    toGuest state v w = (toGuestAt state (w.limits.nesting + 1) v [] >>= fun r => pure r.1 : Bridge Value) w :=
  bind_ok (get_apply w)

theorem toGuest_ok {state : Nat} {v u : Value}
    (h : toGuestAt state (w.limits.nesting + 1) v [] w = some (.ok (u, σ), w')) : toGuest state v w = some (.ok u, w') := by
  rw [toGuest_apply, bind_ok h]
  rfl

end Seen

end Bridge

end HostedLua
