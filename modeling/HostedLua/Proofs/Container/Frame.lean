import HostedLua.Proofs.Container.Fill
import HostedLua.Proofs.Faults.Raises

/-! What a conversion to Lua leaves alone. Whatever comes of it, it ends, and the world is as it was but for what is
new: tables at the end of the state's memory, guests that stand for these, and reports at the end of the state's
record. Only tables that the conversion has made itself are ever written into. -/

namespace HostedLua

open Host

namespace World

variable {w : World} {state : Nat} {g g' : Growth}

def strayReport (k : HandleKind) : Effect :=
  .report ("InvalidState: " ++ k.name ++ " does not belong to an open Lua state")

def recorded (w : World) (state : Nat) (es : List Effect) : Array (List Effect) :=
  match w.states[state]? with
  | some s => w.diagnostics.modify s.diagnostics (· ++ es)
  | none => w.diagnostics

theorem recorded_nil : w.recorded state [] = w.diagnostics := by
  rw [recorded]
  split
  · exact modify_self fun es _ => List.append_nil es
  · rfl

theorem recorded_append {s : LuaState} (hs : w.states[state]? = some s) (es es' : List Effect) :
    w.recorded state (es ++ es') = (w.recorded state es).modify s.diagnostics (· ++ es') := by
  rw [recorded, recorded, hs]
  simp only [modify_modify, List.append_assoc]

/-- What a conversion may add to a world: the tables there were are the same as before, a new object is a guest that
stands for a new table, and reports are of handles that the state has no use for. -/
structure Adds (w : World) (state : Nat) (g : Growth) : Prop where
  size_le : ∀ {s}, w.states[state]? = some s → s.machine.heap.tables.size ≤ g.tables.size
  kept : ∀ {s}, w.states[state]? = some s → ∀ t < s.machine.heap.tables.size,
    g.tables[t]? = s.machine.heap.tables[t]?
  objects : ∀ o ∈ g.objects, ∃ s t, w.states[state]? = some s ∧ s.machine.heap.tables.size ≤ t ∧
    t < g.tables.size ∧ o = .guest ⟨state, .table t, false⟩
  reports : ∃ kinds : List HandleKind, g.reports = w.recorded state (kinds.map strayReport)

def still (w : World) (state : Nat) : Growth where
  objects := #[]
  reports := w.diagnostics
  tables := match w.states[state]? with
    | some s => s.machine.heap.tables
    | none => #[]

theorem after_still : w.after state (w.still state) = w := by
  cases hs : w.states[state]? with
  | some s =>
    rw [still, hs]
    exact after_self hs
  | none =>
    have hsame : w.states.modify state (·.withTables (w.still state).tables) = w.states := by
      refine modify_self fun s hs' => ?_
      cases hs.symm.trans hs'
    rw [after, hsame]
    simp [still]

theorem adds_still : w.Adds state (w.still state) := by
  refine ⟨fun hs => ?_, fun hs t _ => ?_, fun o ho => absurd ho (Array.not_mem_empty o), [], ?_⟩
  · simp [still, hs]
  · simp [still, hs]
  · rw [List.map_nil, recorded_nil]
    rfl

theorem Adds.report {s : LuaState} (h : w.Adds state g) (hs : w.states[state]? = some s) (k : HandleKind) :
    w.Adds state { g with reports := g.reports.modify s.diagnostics (· ++ [strayReport k]) } := by
  obtain ⟨kinds, hkinds⟩ := h.reports
  refine ⟨h.size_le, h.kept, h.objects, kinds ++ [k], ?_⟩
  dsimp only
  rw [hkinds, List.map_append, recorded_append hs]
  rfl

theorem Adds.newTable {s : LuaState} (h : w.Adds state g) (hs : w.states[state]? = some s) :
    w.Adds state (g.newTable state) := by
  have hsize : (g.newTable state).tables.size = g.tables.size + 1 := by rw [Growth.newTable, Array.size_push]
  refine ⟨fun hs' => ?_, fun hs' t ht => ?_, fun o ho => ?_, h.reports⟩
  · rw [hsize]
    exact (h.size_le hs').trans (Nat.le_succ _)
  · have hlt : t < g.tables.size := ht.trans_le (h.size_le hs')
    rw [Growth.newTable, Array.getElem?_push_lt hlt, ← Array.getElem?_eq_getElem hlt, h.kept hs' t ht]
  · rw [hsize]
    rcases Array.mem_push.mp ho with ho | rfl
    · obtain ⟨s', t, hs', hle, hlt, rfl⟩ := h.objects o ho
      exact ⟨s', t, hs', hle, hlt.trans (Nat.lt_succ_self _), rfl⟩
    · exact ⟨s, _, hs, h.size_le hs, Nat.lt_succ_self _, rfl⟩

/-- A table that is new may be written into. -/
theorem Adds.put {s : LuaState} {t : Nat} {f : Lua.Table → Lua.Table} (h : w.Adds state g)
    (hs : w.states[state]? = some s) (ht : s.machine.heap.tables.size ≤ t) :
    w.Adds state { g with tables := g.tables.modify t f } := by
  refine ⟨fun hs' => ?_, fun hs' i hi => ?_, ?_, h.reports⟩
  · rw [Array.size_modify]
    exact h.size_le hs'
  · obtain rfl := Option.some.inj (hs.symm.trans hs')
    rw [Array.getElem?_modify, if_neg (by omega), h.kept hs i hi]
  · dsimp only
    rw [Array.size_modify]
    exact h.objects

end World

namespace Bridge

open World

variable {α β : Type} {w : World} {state : Nat} {g g₀ : Growth}

/-- After some of it, a conversion goes on in a way that ends, adds no more than it may, and raises ordinary faults
only. -/
def Adding (w : World) (state : Nat) (g₀ : Growth) (x : Bridge α) : Prop :=
  ∀ ⦃g⦄, g₀.Before g → w.Adds state g → ∃ r g', x (w.after state g) = some (r, w.after state g') ∧
    w.Adds state g' ∧ g.Before g' ∧ ∀ f, r = .error f → f.isOrdinary = true

/-! ### Steps -/

/-- A step that looks at the world only. -/
theorem Adding.of_still {x : Bridge α}
    (hx : ∀ v : World, ∃ r, x v = some (r, v) ∧ ∀ f, r = .error f → f.isOrdinary = true) :
    Adding w state g₀ x := by
  intro g _ hg
  obtain ⟨r, hr, hf⟩ := hx (w.after state g)
  exact ⟨r, g, hr, hg, .refl g, hf⟩

theorem Adding.of_ok {x : Bridge α} (hx : ∀ v : World, ∃ a, x v = some (.ok a, v)) : Adding w state g₀ x :=
  .of_still fun v => by
    obtain ⟨a, ha⟩ := hx v
    exact ⟨.ok a, ha, fun f hf => by cases hf⟩

theorem Adding.pure (a : α) : Adding w state g₀ (pure a) := .of_ok fun _ => ⟨a, rfl⟩

theorem Adding.throw {f : Fault} (hf : f.isOrdinary = true) : Adding w state g₀ (throw f : Bridge α) :=
  .of_still fun _ => ⟨.error f, rfl, fun _ h => Except.error.inj h ▸ hf⟩

theorem Adding.raise {kind : String} {text : Text} (h : (FaultKind.ofString kind).isA "Exception" = true) :
    Adding w state g₀ (raise kind text : Bridge α) :=
  .throw h

theorem Adding.bind {x : Bridge α} {f : α → Bridge β} (hx : Adding w state g₀ x)
    (hf : ∀ a, Adding w state g₀ (f a)) : Adding w state g₀ (x >>= f) := by
  intro g hle hg
  obtain ⟨r, g₁, hr, hg₁, hle₁, hord⟩ := hx hle hg
  cases r with
  | error e => exact ⟨.error e, g₁, bind_error hr, hg₁, hle₁, fun f hf => hord f (by rw [Except.error.inj hf])⟩
  | ok a =>
    obtain ⟨r, g₂, hr₂, hg₂, hle₂, hord⟩ := hf a (hle.trans hle₁) hg₁
    exact ⟨r, g₂, (bind_ok hr).trans hr₂, hg₂, hle₁.trans hle₂, hord⟩

theorem Adding.mapM {f : α → Bridge β} (hf : ∀ a, Adding w state g₀ (f a)) (l : List α) :
    Adding w state g₀ (l.mapM f) := by
  induction l with
  | nil => exact .pure _
  | cons a l ih =>
    rw [List.mapM_cons]
    exact (hf a).bind fun b => ih.bind fun bs => .pure _

/-- A step of a conversion that keeps the tables met so far. -/
theorem Adding.seen_bind {x : StateT Seen Bridge α} {f : α → StateT Seen Bridge β} {σ : Seen}
    (hx : Adding w state g₀ (x σ)) (hf : ∀ a σ, Adding w state g₀ (f a σ)) : Adding w state g₀ ((x >>= f) σ) :=
  Adding.bind (f := fun p : α × Seen => f p.1 p.2) hx fun p => hf p.1 p.2

theorem Adding.lift {x : Bridge α} {σ : Seen} (hx : Adding w state g₀ x) :
    Adding w state g₀ ((liftM x : StateT Seen Bridge α) σ) := by
  have hgives (a : α) : Adding w state g₀ (Pure.pure (a, σ) : Bridge (α × Seen)) := .pure _
  exact hx.bind hgives

theorem Adding.seen_pure (a : α) (σ : Seen) : Adding w state g₀ ((Pure.pure a : StateT Seen Bridge α) σ) :=
  Adding.pure (a, σ)

theorem Adding.forM {f : α → StateT Seen Bridge Unit} (hf : ∀ a σ, Adding w state g₀ (f a σ)) (l : List α)
    (σ : Seen) : Adding w state g₀ (l.forM f σ) := by
  induction l generalizing σ with
  | nil => exact .seen_pure () σ
  | cons a l ih => exact .seen_bind (hf a σ) fun _ σ => ih σ

/-! ### The operations of a conversion -/

/-- The kinds of faults that a conversion raises are ordinary. -/
theorem ordinary_kinds : ∀ kind ∈ ["OverflowError", "LuaError", "TypeError", "ValueError", "RecursionError",
    "UnicodeEncodeError"], (FaultKind.ofString kind).isA "Exception" = true := by
  decide +kernel

theorem isOrdinary_ofEncoding (e : EncodeError) : (Fault.ofEncoding e).isOrdinary = true :=
  ordinary_kinds "UnicodeEncodeError" (by simp)

theorem adding_object (id : Nat) : Adding w state g₀ (object id) := .of_ok fun _ => ⟨_, rfl⟩

theorem adding_state? (id : Nat) : Adding w state g₀ (state? id) := .of_ok fun _ => ⟨_, rfl⟩

theorem adding_configOf : Adding w state g₀ (configOf state) := .of_ok fun v => by
  obtain ⟨c, hc, -⟩ := configOf_encoding state v
  exact ⟨c, hc⟩

theorem adding_isValid (h : Handle) : Adding w state g₀ (isValid h) := .of_ok (isValid_total h)

theorem adding_reportTo (k : HandleKind) :
    Adding w state g₀
      (reportTo state ("InvalidState: " ++ k.name ++ " does not belong to an open Lua state")) := by
  intro g _ hg
  cases hs : w.states[state]? with
  | none =>
    have hs' : (w.after state g).states[state]? = none := by simp [after, Array.getElem?_modify, hs]
    refine ⟨.ok ⟨⟩, g, ?_, hg, .refl g, fun f hf => by cases hf⟩
    rw [reportTo, bind_ok (state?_apply _ _), hs']
    rfl
  | some s =>
    exact ⟨.ok ⟨⟩, _, reportTo_apply (after_state hs), hg.report hs k, ⟨#[], by simp⟩, fun f hf => by cases hf⟩

theorem adding_push (v : Value) : Adding w state g₀ (push state v) := by
  cases v with
  | int i =>
    rw [push]
    split_ifs
    · exact .pure _
    · exact .raise (ordinary_kinds _ (by simp))
  | text t =>
    refine .bind (adding_state? state) fun s => ?_
    split
    · exact .pure _
    · split
      · exact .pure _
      · exact .throw (isOrdinary_ofEncoding _)
  | obj id =>
    refine .bind (adding_object id) fun o => ?_
    split
    · split_ifs
      · exact .pure _
      · exact .raise (ordinary_kinds _ (by simp))
    · exact .pure _
  | _ => exact .pure _

theorem adding_pushKey (v : Value) : Adding w state g₀ (pushKey state v) := by
  cases v with
  | none => exact .pure _
  | bool b => exact adding_push (.bool b)
  | int i => exact adding_push (.int i)
  | float x => exact adding_push (.float x)
  | text t => exact adding_push (.text t)
  | bytes b => exact adding_push (.bytes b)
  | member m => exact adding_push (.member m)
  | obj id => exact adding_push (.obj id)

/-- A value is a table that the conversion has made, or no table has been made. -/
def Made (w : World) (state : Nat) (g : Growth) (table : Value) : Prop :=
  table = .none ∨ ∃ s o t, w.states[state]? = some s ∧ s.machine.heap.tables.size ≤ t ∧ table = .obj o ∧
    (w.after state g).objects[o]? = some (.guest ⟨state, .table t, false⟩)

/-- A table is made, unless the state is closed. -/
theorem newTable_made (hg : w.Adds state g) : ∃ table g', newTable state (w.after state g) =
      some (.ok table, w.after state g') ∧ w.Adds state g' ∧ g.Before g' ∧ Made w state g' table := by
  cases hs : w.states[state]? with
  | none =>
    have hs' : (w.after state g).states[state]? = none := by simp [after, Array.getElem?_modify, hs]
    refine ⟨.none, g, ?_, hg, .refl g, .inl rfl⟩
    rw [newTable, bind_ok (state?_apply _ _), hs']
    rfl
  | some s =>
    cases hopen : s.isOpen with
    | false =>
      refine ⟨.none, g, ?_, hg, .refl g, .inl rfl⟩
      rw [newTable, bind_ok (state?_apply _ _), after_state hs]
      simp [LuaState.withTables, hopen]
    | true =>
      refine ⟨_, _, newTable_after ⟨hs, hopen, rfl⟩, hg.newTable hs, g.before_newTable state, .inr ?_⟩
      exact ⟨s, _, _, hs, hg.size_le hs, rfl, w.object_newTable state g⟩

theorem Adding.newTable {f : Value → StateT Seen Bridge β} {σ : Seen}
    (hf : ∀ table g, g₀.Before g → Made w state g table → Adding w state g (f table σ)) :
    Adding w state g₀ ((liftM (newTable state) >>= f) σ) := by
  intro g hle hg
  obtain ⟨table, g₁, hnew, hg₁, hle₁, hmade⟩ := newTable_made hg
  rw [seen_bind_ok (lift_ok hnew)]
  obtain ⟨r, g₂, hr, hg₂, hle₂, hord⟩ := hf table g₁ (hle.trans hle₁) hmade (.refl g₁) hg₁
  exact ⟨r, g₂, hr, hg₂, hle₁.trans hle₂, hord⟩

theorem adding_putRaw {table k v : Value} (h : Made w state g₀ table) :
    Adding w state g₀ (putRaw state table k v) := by
  intro g hle hg
  rcases h with rfl | ⟨s, o, t, hs, ht, rfl, ho⟩
  · have hraise : Adding w state g (putRaw state .none k v) := .raise (ordinary_kinds _ (by simp))
    exact hraise (.refl g) hg
  · have hobject : object o (w.after state g) =
        some (.ok (.guest ⟨state, .table t, false⟩), w.after state g) := by
      rw [object_apply, hle.object ho, Option.getD_some]
    rw [putRaw, bind_ok hobject]
    refine Adding.bind (adding_pushKey k) (fun x => (adding_push v).bind fun y => ?_) (.refl g) hg
    split
    · next κ hκ =>
      intro g₁ _ hg₁
      exact ⟨.ok ⟨⟩, _, modifyHeap_after (·.modify t (·.set κ y)), hg₁.put hs ht, ⟨#[], by simp⟩,
        fun f hf => by cases hf⟩
    · exact .raise (ordinary_kinds _ (by simp))

/-! ### Whole conversions -/

theorem items?_failure {o : Object} {items : List (Value × Value)} {f : Fault} (h : items? o = some (items, some f)) :
    f.isOrdinary = true := by
  cases o with
  | badItems text =>
    obtain ⟨-, hf⟩ := Prod.mk.inj (Option.some.inj h)
    rw [← Option.some.inj hf]
    exact ordinary_kinds "ValueError" (by simp)
  | _ => simp [items?] at h

/-- Entries go into a table that the conversion has made. -/
theorem adding_convertEntry {depth : Nat} {table : Value} (ih : ∀ v σ, Adding w state g₀ (toGuestAt state depth v σ))
    (h : Made w state g₀ table) (e : Value × Value) (σ : Seen) :
    Adding w state g₀ (convertEntry state depth table e σ) := by
  rw [convertEntry]
  split
  · exact .seen_bind (ih e.2 σ) fun v σ => .seen_bind (ih e.1 σ) fun k σ => .lift (adding_putRaw h)
  · exact .seen_pure _ σ

theorem adding_fill {depth : Nat} {table : Value} (items : List (Value × Value)) (failure : Option Fault)
    (ih : ∀ v σ, Adding w state g₀ (toGuestAt state depth v σ)) (h : Made w state g₀ table)
    (hf : ∀ f, failure = some f → f.isOrdinary = true) (σ : Seen) :
    Adding w state g₀ ((do
      items.forM (convertEntry state depth table)
      match failure with
      | some f => throw f
      | none => return table : StateT Seen Bridge Value) σ) := by
  refine .seen_bind (.forM (adding_convertEntry ih h) items σ) fun _ σ => ?_
  cases failure with
  | some f => exact .lift (.throw (hf f rfl))
  | none => exact .seen_pure _ σ

/-- A conversion only adds, whatever the depth and the tables met so far. -/
theorem adding_toGuestAt (depth : Nat) (v : Value) (σ : Seen) :
    Adding w state g₀ (toGuestAt state depth v σ) := by
  induction depth generalizing v σ g₀ with
  | zero => exact .raise (ordinary_kinds _ (by simp))
  | succ depth ih =>
    cases v with
    | text t =>
      rw [toGuestAt]
      refine .seen_bind (.lift adding_configOf) fun c σ => ?_
      cases c.encoding with
      | none =>
        dsimp only
        cases Charset.utf8.encodeEscaped t with
        | ok b => exact .seen_pure _ σ
        | error e => exact .lift (.throw (isOrdinary_ofEncoding e))
      | _ => exact .seen_pure _ σ
    | int i =>
      rw [toGuestAt]
      split_ifs
      · exact .seen_pure _ σ
      · cases Binary.ofInt? i with
        | some x => exact .seen_pure _ σ
        | none => exact .raise (ordinary_kinds _ (by simp))
    | obj id =>
      rw [toGuestAt]
      refine .seen_bind (.lift (adding_object id)) fun o σ => ?_
      split
      · next h =>
        refine .seen_bind (.lift (adding_isValid h)) fun valid σ => ?_
        split_ifs
        · exact .seen_pure _ σ
        · exact .seen_bind (.lift (adding_reportTo h.kind)) fun _ σ => .seen_pure _ σ
      · cases hitems : items? o with
        | none => exact .seen_pure _ σ
        | some p =>
          obtain ⟨items, failure⟩ := p
          refine .seen_bind (.of_ok fun v => ⟨_, seen_get_apply σ v⟩) fun seen σ => ?_
          cases seen.lookup id with
          | some table => exact .seen_pure _ σ
          | none =>
            dsimp only
            refine .newTable fun table g₁ _ hmade => ?_
            have hfailure (f : Fault) (hf : failure = some f) : f.isOrdinary = true := by
              rw [hf] at hitems
              exact items?_failure hitems
            have hfill := adding_fill items failure (fun v σ => ih v σ) hmade hfailure
            cases table with
            | none => exact hfill σ
            | _ => exact .seen_bind (.of_ok fun v => ⟨_, seen_modify_apply _ σ v⟩) fun _ σ => hfill σ
    | _ => exact .seen_pure _ σ

theorem adding_toGuest (v : Value) : Adding w state g₀ (toGuest state v) :=
  Adding.bind (.of_ok fun v => ⟨v, rfl⟩) fun u => Adding.bind (adding_toGuestAt (u.limits.nesting + 1) v []) fun _ => .pure _

/-- What is added by a whole computation, from the world as it is. -/
theorem Adding.run {x : Bridge α} (hx : Adding w state (w.still state) x) :
    ∃ r g, x w = some (r, w.after state g) ∧ w.Adds state g ∧ ∀ f, r = .error f → f.isOrdinary = true := by
  obtain ⟨r, g, hr, hg, -, hord⟩ := hx (.refl _) adds_still
  rw [after_still] at hr
  exact ⟨r, g, hr, hg, hord⟩

/-- Arguments are converted, or the first failure comes back with its outcome and its text; either way the world is
as it was but for what is new. -/
theorem toGuestValues_adds (state : Nat) (vs : List Value) (w : World) :
    ∃ g, w.Adds state g ∧
      ((∃ guests, vs.mapM (toGuest state) w = some (.ok guests, w.after state g) ∧
          toGuestValues state vs w = some (.ok (.ok guests), w.after state g)) ∨
        ∃ f, vs.mapM (toGuest state) w = some (.error f, w.after state g) ∧
          toGuestValues state vs w = some (.ok (.error ⟨f.status, f.message⟩), w.after state g)) := by
  have hadding : Adding w state (w.still state) (vs.mapM (toGuest state)) := .mapM adding_toGuest vs
  obtain ⟨r, g, hr, hg, hord⟩ := hadding.run
  cases r with
  | ok guests => exact ⟨g, hg, .inl ⟨guests, hr, protectedCall_ok hr⟩⟩
  | error f => exact ⟨g, hg, .inr ⟨f, hr, protectedCall_error (hord f rfl) hr⟩⟩

end Bridge

end HostedLua
