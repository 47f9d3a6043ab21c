import HostedLua.Proofs.Crossing.Live
import HostedLua.Proofs.Printer.Expansion
import HostedLua.Proofs.Table.Intact

/-! Printing tables ends, and only depth cuts it short. Whatever tables there are and however they lie in each other,
every level that is printed takes one from those that may be expanded, and so the tree of a table is its expansion: the
tables above the depth of the printer are expanded, all others are cut. A host has limits, and where it has no room for a
place that is come to, printing is refused. -/

namespace HostedLua

open Host

namespace World

variable {w w' : World} {state : Nat} {s s₀ : LuaState} {encoding : Value}

/-- A state serves and is still held, and its tables hold Lua's own values alone. -/
structure Displays (w : World) (state : Nat) (s : LuaState) (encoding : Value) : Prop
    extends w.Serves state s encoding where
  wraps : s.Wraps
  current : s.machine.current < s.machine.threads.size
  alive : w.stateAlive state = true
  own : ∀ t, ∀ p ∈ (s.machine.heap.table t).toList, (∀ id, p.1 ≠ .host id) ∧ ∀ id, p.2 ≠ .host id

theorem Displays.steady (h : w.Displays state s encoding) (hw : w.Steady state w') :
    ∃ s', w'.Displays state s' encoding ∧ s.Grown s' := by
  obtain ⟨s', hs', hg⟩ := h.toServes.grown hw.grown
  obtain ⟨m, hm, hspares⟩ := hw.machine h.found
  obtain rfl := Option.some.inj (hs'.found.symm.trans hm)
  refine ⟨_, ⟨hs', h.wraps.grown hg, ?_, hw.stateAlive h.alive, fun t p hp => h.own t p ?_⟩, hg⟩
  · exact hspares.current ▸ Nat.lt_of_lt_of_le h.current hspares.size_le
  · rw [Lua.Heap.table, hspares.heap.tables] at hp
    exact hp

/-- A table of a machine that stands where one of its threads does is displayed, if none of its tables holds a value of
the host's. -/
theorem TableAt.displays {h : Handle} {t : Nat} (ht : w.TableAt h t s encoding)
    (hcur : s.machine.current < s.machine.threads.size)
    (hown : ∀ t, ∀ p ∈ (s.machine.heap.table t).toList, (∀ id, p.1 ≠ .host id) ∧ ∀ id, p.2 ≠ .host id) :
    w.Displays h.state s encoding := by
  have hvalid := ht.valid
  rw [World.valid, Bool.and_eq_true, Bool.and_eq_true] at hvalid
  exact ⟨ht.toServes, ht.wraps, hcur, hvalid.2, hown⟩

/-- Handles of values of the state are valid. -/
theorem Displays.valid (h : w.Displays state s encoding) {k : Handle} (hk : k.state = state)
    (hguest : k.guest ≠ .none) :
    w.valid k = true := by
  have hstands : k.stands = true := by
    rw [Handle.stands]
    cases hg : k.guest <;> first | rfl | exact absurd hg hguest
  rw [World.valid, hstands, hk, opened_eq h.found, h.isOpen, h.alive]
  rfl

theorem Steady.withMachine {m : Lua.Machine} (hs : w.states[state]? = some s)
    (hm : s.machine.Spares (· < s.machine.threads.size) m) : w.Steady state (w.withMachine state m) :=
  ⟨(Intact.refl w state).withMachine hs hs hm fun _ h => h, rfl, rfl⟩

end World

namespace Bridge

open World Lua.Machine

variable {E : Engine} {n state t o : Nat} {w w' : World} {s s₀ : LuaState} {encoding : Value} {h : Handle}

/-- A table that is displayed is read. -/
theorem toMapping_steady (hw : w.Displays h.state s encoding) (hguest : h.guest = .obj o)
    (ho : w.objects[o]? = some (.guest ⟨h.state, .table t, false⟩)) (n : Nat) :
    ∃ rs w', toMapping (engine (n + 1)) h w = some (.ok rs, w') ∧ w.Steady h.state w' ∧
      List.Forall₂ (w'.PresentsEntry h.state s encoding) (Lua.mergeTwins (s.machine.heap.table t).toList) rs := by
  have hvalid : w.valid h = true := hw.valid rfl (hguest ▸ Value.noConfusion)
  have ht : w.TableAt h t s encoding := ⟨hw.toServes, hw.wraps, hvalid, o, hguest, ho⟩
  have hproper : ∀ p ∈ (s.machine.heap.table t).toList, w.Proper p.1.value ∧ w.Proper p.2 := fun p hp =>
    ⟨fun id hid => absurd hid (Lua.Key.value_ne_host (hw.own t p hp).1 id),
      fun id hid => absurd hid ((hw.own t p hp).2 id)⟩
  obtain ⟨rs, w', hrun, hentries⟩ := toMapping_presents ht hproper (fun p hp => (hw.own t p hp).1) n
  obtain ⟨r, v, hends, hlent, -⟩ := ends_toMapping ht hw.current hproper (runsOwn_engine n h.state)
  obtain ⟨rfl, rfl⟩ := Prod.mk.inj (Option.some.inj (hends.symm.trans hrun))
  rw [toMapping_eq _ ht.found hvalid hguest ho] at hrun
  obtain ⟨⟨r, u⟩, -, heq⟩ := Option.map_eq_some_iff.mp hrun
  obtain ⟨-, rfl⟩ := Prod.mk.inj heq
  exact ⟨rs, _, hends, ⟨hlent.toIntact, rfl, rfl⟩, hentries⟩

/-- The host asks Lua for the name of a value that can have no metatable. -/
theorem callLua_tostring {v : Lua.Value} {unstarted : Bool} (hw : w.Displays state s encoding)
    (ho : w.objects[o]? = some (.guest ⟨state, v, unstarted⟩)) (hmeta : ∀ heap : Lua.Heap, heap.metatable? v = none)
    (hhost : ∀ id, v ≠ .host id) : ∃ w', w.Steady state w' ∧
      ((∃ x, callLua (engine (n + 1)) state (.builtin .tostring) [.obj o] w = some (.ok [.text x], w')) ∨
        ∃ f, callLua (engine (n + 1)) state (.builtin .tostring) [.obj o] w = some (.error f, w') ∧
          f.isOrdinary = true) := by
  have hpush : [Value.obj o].mapM (push state) w = some (.ok [v], w) := by
    rw [List.mapM_cons, bind_ok (push_guest ho rfl)]
    rfl
  obtain ⟨m, r, hrun, halone, hr⟩ := run_tostring (b := s.machine) hmeta hhost 999999999996
  have hspares := halone.spares hw.current trivial
  have hsteady : w.Steady state (w.withMachine state (m.leave s.machine.current s.machine.mainStack)) :=
    .withMachine hw.found (hspares.mono fun _ _ => trivial)
  have hcall := engineRun_builtin (n := n) hw.found hrun
  refine ⟨_, hsteady, ?_⟩
  rw [callLua, bind_ok hpush, runProg, bind_ok hcall]
  rcases hr with ⟨x, rfl⟩ | ⟨e, rfl, he⟩
  · refine .inl ⟨s.charset.decodeEscaped x, ?_⟩
    dsimp only
    rw [fetchAll, List.mapM_cons, bind_ok (fetch_inl (withMachine_states hw.found) rfl)]
    rfl
  · exact .inr (raiseThrown_text he _)

end Bridge

namespace Printer

open World Bridge HostedLua.Printer.Tree

variable {p : Printer} {l : Limits} {n state fuel : Nat} {path : Path} {level : Int} {w w' : World} {s s₀ : LuaState}
  {encoding : Value}

/-- A handle that stands for a value that can have no metatable, or for none, shows an address. -/
theorem addressOf_steady {h : Handle} {v : Lua.Value} {unstarted : Bool} (hw : w.Displays h.state s encoding)
    (hguest : h.guest = .none ∨ ∃ o, h.guest = .obj o ∧ w.objects[o]? = some (.guest ⟨h.state, v, unstarted⟩))
    (hmeta : ∀ heap : Lua.Heap, heap.metatable? v = none) (hhost : ∀ id, v ≠ .host id) (id : Nat) :
    ∃ a w', addressOf (engine (n + 1)) id h w = some (.ok a, w') ∧ w.Steady h.state w' := by
  rcases hguest with hguest | ⟨o, hguest, ho⟩
  · have hinvalid : w.valid h = false := by simp [World.valid, Handle.stands, hguest]
    refine ⟨.ofObject id, w, ?_, .refl _ _⟩
    rw [addressOf, bind_ok (valid_apply h w), hinvalid]
    rfl
  · have hvalid : w.valid h = true := hw.valid rfl (hguest ▸ Value.noConfusion)
    have hopen := isOpen_apply hw.found
    rw [hw.isOpen] at hopen
    obtain ⟨w', hsteady, hcall⟩ := callLua_tostring (n := n) hw ho hmeta hhost
    rw [← hguest] at hcall
    rcases hcall with ⟨x, hcall⟩ | ⟨f, hcall, hf⟩
    · refine ⟨(Address.in? x).getD (.ofObject id), w', ?_, hsteady⟩
      rw [addressOf, bind_ok (valid_apply h w), hvalid]
      exact (bind_ok hopen).trans (bind_ok (protectedCall_ok hcall))
    · refine ⟨.ofObject id, w', ?_, hsteady⟩
      rw [addressOf, bind_ok (valid_apply h w), hvalid]
      exact (bind_ok hopen).trans (bind_ok (protectedCall_error hf hcall))

/-! ### One value -/

/-- The tree of an entry of a table. -/
def entryAt (p : Printer) (l : Limits) (E : Engine) (fuel : Nat) (path : Path) (level : Int)
    (e : (Value × Value) × Nat) : Bridge Tree := do
  let key ← keyTree (p.treeAt l E fuel ((.key true, e.2) :: path) level) e.1.1
  return .entry key (← p.treeAt l E fuel ((.value true, e.2) :: path) level e.1.2)

theorem treeAt_none {E : Engine} (h : l.roomAt path = .none) (x : Value) :
    p.treeAt l E fuel path level x w = some (.error tooDeep, w) := by
  cases fuel with
  | zero => rfl
  | succ fuel =>
    unfold treeAt
    extract_lets parts entries room
    rw [if_pos h]
    rfl

def scalarTree : Value → Option Tree
  | .none => some .nil
  | .bool b => some (.bool b)
  | .int i => (fun _ => .int i) <$> Integer.write? i
  | .float x => some (.float x)
  | .text t => some (.string t)
  | .bytes b => some (.bytes b)
  | _ => none

theorem treeAt_scalar {E : Engine} {x : Value} {d : Tree} (hroom : l.roomAt path ≠ .none) (hd : scalarTree x = some d) :
    p.treeAt l E (fuel + 1) path level x w = some (.ok d, w) := by
  unfold treeAt
  extract_lets parts entries room
  rw [if_neg hroom]
  cases x with
  | int i =>
    obtain ⟨t, ht, rfl⟩ := Option.map_eq_some_iff.mp hd
    dsimp only
    rw [map_apply, intText, ht]
    rfl
  | member | obj => cases hd
  | _ =>
    obtain rfl := Option.some.inj hd
    rfl

theorem treeAt_table (p : Printer) (E : Engine) (fuel : Nat) (level : Int) {id : Nat} {h : Handle}
    (hroom : l.roomAt path ≠ .none) (hid : w.objects[id]? = some (.handle h)) (hkind : h.kind = .table)
    (hvalid : w.valid h = true) :
    p.treeAt l E (fuel + 1) path level (.obj id) w = if p.maxDepth ≤ level then some (.ok .cut, w) else
      ((entriesWithin E (l.roomAt path) h >>= fun es => es.zipIdx.mapM (entryAt p l E fuel path (level + 1))) >>=
        fun ds => pure (.block ds) : Bridge Tree) w := by
  unfold treeAt
  extract_lets parts entries room
  rw [if_neg hroom]
  refine (bind_ok (object_apply id w)).trans ?_
  rw [hid, Option.getD_some]
  dsimp only
  rw [hkind]
  refine (bind_ok (valid_apply h w)).trans ?_
  rw [hvalid, Bool.not_true, if_neg Bool.false_ne_true]
  split_ifs
  · rfl
  · rw [bind_assoc]
    rfl

theorem treeAt_handle {E : Engine} {id : Nat} {h : Handle} (hroom : l.roomAt path ≠ .none)
    (hid : w.objects[id]? = some (.handle h)) (hkind : h.kind ≠ .table) :
    p.treeAt l E (fuel + 1) path level (.obj id) w = (Tree.handle h.kind <$> addressOf E id h : Bridge Tree) w := by
  unfold treeAt
  extract_lets parts entries room
  rw [if_neg hroom]
  refine (bind_ok (object_apply id w)).trans ?_
  rw [hid, Option.getD_some]
  dsimp only
  cases hk : h.kind with
  | table => exact absurd hk hkind
  | _ => rfl

theorem treeAt_guest {E : Engine} {id : Nat} {g : Guest} (hroom : l.roomAt path ≠ .none)
    (hid : w.objects[id]? = some (.guest g)) :
    p.treeAt l E (fuel + 1) path level (.obj id) w = some (.ok (.guest g.value (.ofObject id)), w) := by
  unfold treeAt
  extract_lets parts entries room
  rw [if_neg hroom]
  refine (bind_ok (object_apply id w)).trans ?_
  rw [hid]
  rfl

theorem reportTo_steady (state : Nat) (message : Text) (w : World) :
    ∃ w', reportTo state message w = some (.ok ⟨⟩, w') ∧ w.Steady state w' := by
  rw [reportTo, bind_ok (state?_apply state w)]
  cases w.states[state]? with
  | none => exact ⟨w, rfl, .refl w state⟩
  | some s => exact ⟨_, rfl, ⟨rfl, id, fun _ => rfl, fun {s} hs => ⟨s.machine, hs, .refl _⟩⟩, rfl, rfl⟩

/-! ### As far as the host has room -/

/-- A result is as wanted, and a refusal if none is wanted. -/
inductive Outcome (f : α → β) : Option β → Except Fault α → Prop where
  | granted (a : α) : Outcome f (some (f a)) (.ok a)
  | refused : Outcome f none (.error tooDeep)

/-- A run ends with such an outcome, and leaves the state as it was. -/
def Yields (state : Nat) (f : α → β) (wanted : Option β) (x : Bridge α) (w : World) : Prop :=
  ∃ r w', x w = some (r, w') ∧ w.Steady state w' ∧ Outcome f wanted r

namespace Yields

variable {α β γ δ : Type} {f : α → β} {g : γ → δ} {A : Option β} {B : β → Option δ} {C : Option δ} {x : Bridge α}
  {y : α → Bridge γ} {a : α}

theorem of_ok (hrun : x w = some (.ok a, w')) (hw : w.Steady state w') (ha : A = some (f a)) :
    Yields state f A x w :=
  ⟨_, w', hrun, hw, ha ▸ .granted a⟩

theorem of_refused (hrun : x w = some (.error tooDeep, w)) (hA : A = none) : Yields state f A x w :=
  ⟨_, w, hrun, .refl _ _, hA ▸ .refused⟩

/-- After a run that has ended in any case. -/
theorem after (hrun : x w = some (.ok a, w')) (hw : w.Steady state w') (hy : Yields state g C (y a) w') :
    Yields state g C (x >>= y) w := by
  obtain ⟨r, w'', hrun', hw', hr⟩ := hy
  exact ⟨r, w'', (bind_ok hrun).trans hrun', hw.trans hw', hr⟩

/-- One after the other. -/
theorem bind (hx : Yields state f A x w) (hy : ∀ a w', w.Steady state w' → Yields state g (B (f a)) (y a) w') :
    Yields state g (A >>= B) (x >>= y) w := by
  obtain ⟨r, w₁, hrun, hw₁, hr⟩ := hx
  cases hr with
  | granted a => exact after hrun hw₁ (hy a w₁ hw₁)
  | refused => exact ⟨_, w₁, bind_error hrun, hw₁, .refused⟩

theorem map {h : α → γ} {k : β → δ} (hx : Yields state f A x w) (hk : ∀ a, g (h a) = k (f a)) :
    Yields state g (A >>= fun b => pure (k b)) (x >>= fun a => pure (h a)) w :=
  hx.bind fun a _ _ => of_ok rfl (.refl _ _) (congrArg some (hk a).symm)

end Yields

/-- A tree is got, addresses aside, or printing is refused. -/
def Shows (state : Nat) (D : Option Tree) (x : Bridge Tree) (w : World) : Prop := Yields state blank D x w

/-- Values are printed as their expansions, as far as the host has room. -/
def Expands (p : Printer) (l : Limits) (n state : Nat) (encoding : Value) (fuel : Nat) : Prop :=
  ∀ (path : Path) (level : Int) {w : World} {s s₀ : LuaState} {v : Lua.Value} {x : Value},
    fuel + path.length = l.printNesting + 1 → w.Displays state s encoding → s₀.Grown s →
    w.Presents state s₀ encoding v x → (∀ id, v ≠ .host id) →
    Shows state (expandWithin l s₀ encoding (p.maxDepth - level).toNat path v)
      (p.treeAt l (engine (n + 1)) fuel path level x) w

/-- Text, and nothing else, is printed as a string. -/
theorem expand_string_iff {v : Lua.Value} {x : Value} {t : Text} (hx : w.Presents state s₀ encoding v x)
    (hv : ∀ id, v ≠ .host id) : expand s₀ encoding 0 v = .string t ↔ x = .text t := by
  cases hx with
  | str b =>
    rw [expand]
    rcases s₀.charset.shown_eq encoding b with ⟨u, hu⟩ | ⟨b', hb⟩
    · simp [hu, stringTree]
    · simp [hb, stringTree]
  | object m => exact absurd rfl (hv m)
  | @handle v kind o id kind_eq => cases v <;> first | contradiction | simp [expand]
  | _ => simp [expand]

/-- There is no room where no depth is left. -/
theorem exists_fuel (hfuel : fuel + path.length = l.printNesting + 1) (hroom : l.roomAt path ≠ .none) :
    ∃ m, fuel = m + 1 := by
  cases fuel with
  | succ m => exact ⟨m, rfl⟩
  | zero =>
    refine absurd ?_ hroom
    cases path with
    | nil => simp at hfuel
    | cons link path => exact if_pos (by omega)

/-- The key of an entry is printed as what it is within limits; a name always is. -/
theorem keyTree_shows (ih : Expands p l n state encoding fuel) (level : Int)
    (hfuel : fuel + path.length = l.printNesting + 1) (hw : w.Displays state s encoding) (hs : s₀.Grown s)
    {v : Lua.Value} {x : Value} (hx : w.Presents state s₀ encoding v x) (hv : ∀ id, v ≠ .host id) :
    Shows state (keyWithin (expand s₀ encoding 0 v) (expandWithin l s₀ encoding (p.maxDepth - level).toNat path v))
      (keyTree (p.treeAt l (engine (n + 1)) fuel path level) x) w := by
  have hshown := ih path level hfuel hw hs hx hv
  by_cases hname : ∃ t, x = .text t ∧ isName t = true
  · obtain ⟨t, rfl, hname⟩ := hname
    have hstring := (expand_string_iff hx hv).mpr rfl
    rw [hstring, keyWithin, if_pos hname, keyTree, if_pos hname]
    exact .of_ok rfl (.refl _ _) (by simp [blank])
  · have hkey : keyTree (p.treeAt l (engine (n + 1)) fuel path level) x =
        p.treeAt l (engine (n + 1)) fuel path level x := by
      unfold keyTree
      split
      · next t => exact if_neg fun h => hname ⟨t, rfl, h⟩
      · rfl
    have hwithin (d : Option Tree) : keyWithin (expand s₀ encoding 0 v) d = d := by
      unfold keyWithin
      split
      · next t hstring => exact if_neg fun h => hname ⟨t, (expand_string_iff hx hv).mp hstring, h⟩
      · rfl
    rw [hkey, hwithin]
    exact hshown

theorem entryAt_shows (ih : Expands p l n state encoding fuel) (level : Int) (i : Nat)
    (hfuel : fuel + 1 + path.length = l.printNesting + 1) (hw : w.Displays state s encoding) (hs : s₀.Grown s)
    {e : Lua.Key × Lua.Value} {q : Value × Value} (hq : w.PresentsEntry state s₀ encoding e q)
    (hown : (∀ id, e.1 ≠ .host id) ∧ ∀ id, e.2 ≠ .host id) :
    Shows state (entryWithin l s₀ encoding (p.maxDepth - level).toNat path (e, i))
      (entryAt p l (engine (n + 1)) fuel path level (q, i)) w := by
  have hlink (link : Link × Nat) : fuel + (link :: path).length = l.printNesting + 1 := by
    rw [List.length_cons]
    omega
  have hkey := keyTree_shows ih level (hlink (.key true, i)) hw hs hq.1 (Lua.Key.value_ne_host hown.1)
  refine Yields.bind hkey fun k w₁ hw₁ => ?_
  obtain ⟨s₁, hdisplays, hg⟩ := hw.steady hw₁
  have hvalue := ih _ level (hlink (.value true, i)) hdisplays (hs.trans hg) (hq.2.grown hw₁.grown) hown.2
  exact hvalue.map fun d => by rw [blank]

theorem entries_shows (ih : Expands p l n state encoding fuel) (level : Int)
    (hfuel : fuel + 1 + path.length = l.printNesting + 1) {es : List (Lua.Key × Lua.Value)} {qs : List (Value × Value)}
    (hall : List.Forall₂ (w.PresentsEntry state s₀ encoding) es qs) (hw : w.Displays state s encoding)
    (hs : s₀.Grown s) (hown : ∀ e ∈ es, (∀ id, e.1 ≠ .host id) ∧ ∀ id, e.2 ≠ .host id) (i : Nat) :
    Yields state (List.map blank)
      ((es.zipIdx i).mapM (entryWithin l s₀ encoding (p.maxDepth - level).toNat path))
      ((qs.zipIdx i).mapM (entryAt p l (engine (n + 1)) fuel path level)) w := by
  induction es generalizing qs w s i with
  | nil =>
    cases hall
    exact .of_ok (a := []) rfl (.refl _ _) rfl
  | cons e es ih' =>
    obtain ⟨hown₁, hown⟩ := List.forall_mem_cons.mp hown
    obtain ⟨q, qs, he, hes, rfl⟩ := List.forall₂_cons_left_iff.mp hall
    rw [List.zipIdx_cons, List.zipIdx_cons, List.mapM_cons, List.mapM_cons]
    refine (entryAt_shows ih level i hfuel hw hs he hown₁).bind fun d w₁ hw₁ => ?_
    obtain ⟨s₁, hdisplays, hg⟩ := hw.steady hw₁
    have hrest := ih' (hes.imp fun _ _ h => h.grown hw₁.grown) hdisplays (hs.trans hg) hown (i + 1)
    exact hrest.map fun ds => List.map_cons

/-- Of a table as many levels are expanded as are left above the depth of the printer. -/
theorem table_shows (ih : ∀ m, m < fuel → Expands p l n state encoding m) (level : Int)
    (hfuel : fuel + path.length = l.printNesting + 1) (hw : w.Displays state s encoding)
    {o id t : Nat} {k : Handle} (hid : w.objects[id]? = some (.handle k)) (hkind : k.kind = .table)
    (hstate : k.state = state) (hguest : k.guest = .obj o)
    (ho : w.objects[o]? = some (.guest ⟨state, .table t, false⟩)) :
    Shows state (expandWithin l s encoding (p.maxDepth - level).toNat path (.table t))
      (p.treeAt l (engine (n + 1)) fuel path level (.obj id)) w := by
  subst hstate
  by_cases hroom : l.roomAt path = .none
  · exact .of_refused (treeAt_none hroom _) (expandWithin_none hroom ..)
  obtain ⟨fuel, rfl⟩ := exists_fuel hfuel hroom
  have hvalid : w.valid k = true := hw.valid rfl (hguest ▸ Value.noConfusion)
  have htree := treeAt_table p (engine (n + 1)) fuel level hroom hid hkind hvalid
  by_cases hcut : p.maxDepth ≤ level
  · have hlevels : (p.maxDepth - level).toNat = 0 := by omega
    rw [if_pos hcut] at htree
    rw [hlevels, expandWithin_cut, if_neg hroom]
    exact .of_ok htree (.refl _ _) (by simp [blank])
  · have hlevels : (p.maxDepth - level).toNat = (p.maxDepth - (level + 1)).toNat + 1 := by omega
    rw [if_neg hcut] at htree
    rw [hlevels, expandWithin_table, Shows, Yields, htree]
    cases hr : l.roomAt path with
    | none => exact absurd hr hroom
    | scarce =>
      obtain ⟨w₁, hreport, hw₁⟩ := reportTo_steady k.state ("RUNTIME: " ++ Bridge.tooDeep.message) w
      have hentries : entriesWithin (engine (n + 1)) .scarce k w = some (.ok [], w₁) := by
        rw [entriesWithin, bind_ok hreport]
        rfl
      have hblock : ((entriesWithin (engine (n + 1)) .scarce k >>= fun es =>
          es.zipIdx.mapM (entryAt p l (engine (n + 1)) fuel path (level + 1))) >>= fun ds => pure (Tree.block ds)) w =
            some (.ok (Tree.block []), w₁) := by
        rw [bind_assoc, bind_ok hentries]
        rfl
      exact Yields.of_ok hblock hw₁ (by simp [blank])
    | ample =>
      obtain ⟨qs, w₁, hread, hw₁, hall⟩ := toMapping_steady hw hguest ho n
      obtain ⟨s₁, hdisplays, hg⟩ := hw.steady hw₁
      have hown : ∀ e ∈ Lua.mergeTwins (s.machine.heap.table t).toList,
          (∀ id, e.1 ≠ .host id) ∧ ∀ id, e.2 ≠ .host id := by
        intro e he
        obtain ⟨q, hq, hkey⟩ := Lua.key_of_mem_mergeTwins he
        obtain ⟨v, hv, hvalue⟩ := Lua.value_of_mem_mergeTwins he
        exact ⟨hkey ▸ (hw.own t q hq).1, hvalue ▸ (hw.own t v hv).2⟩
      have hentries := entries_shows (ih fuel (Nat.lt_succ_self fuel)) (level + 1) hfuel hall hdisplays hg hown 0
      have hread : entriesWithin (engine (n + 1)) .ample k w = some (.ok qs, w₁) := hread
      have hread := Yields.after (y := fun es => es.zipIdx.mapM (entryAt p l (engine (n + 1)) fuel path (level + 1)))
        hread hw₁ hentries
      dsimp only
      rw [map_eq_pure_bind]
      exact hread.map (g := blank) (h := Tree.block) fun ds => by rw [blank]

/-- A handle of another kind than that of tables shows an address. -/
theorem handle_shows (hroom : l.roomAt path ≠ .none) (hw : w.Displays state s encoding) {id : Nat} {k : Handle}
    {v : Lua.Value} {unstarted : Bool} (hid : w.objects[id]? = some (.handle k)) (hstate : k.state = state)
    (hkind : k.kind ≠ .table)
    (hguest : k.guest = .none ∨ ∃ o, k.guest = .obj o ∧ w.objects[o]? = some (.guest ⟨state, v, unstarted⟩))
    (hmeta : ∀ heap : Lua.Heap, heap.metatable? v = none) (hhost : ∀ id, v ≠ .host id) :
    Shows state (some (.handle k.kind .blank)) (p.treeAt l (engine (n + 1)) (fuel + 1) path level (.obj id)) w := by
  subst hstate
  obtain ⟨a, w', haddress, hsteady⟩ := addressOf_steady (n := n) hw hguest hmeta hhost id
  have htree : p.treeAt l (engine (n + 1)) (fuel + 1) path level (.obj id) w = some (.ok (.handle k.kind a), w') := by
    rw [treeAt_handle hroom hid hkind, map_apply, haddress]
    rfl
  exact .of_ok htree hsteady (by simp [blank])

/-- Every value of a state that is displayed is printed as its expansion, as far as the host has room. -/
theorem expands (p : Printer) (l : Limits) (n state : Nat) (encoding : Value) (fuel : Nat) :
    Expands p l n state encoding fuel := by
  induction fuel using Nat.strong_induction_on with
  | _ fuel ih =>
  intro path level w s s₀ v x hfuel hw hs hx hv
  by_cases hroom : l.roomAt path = .none
  · exact .of_refused (treeAt_none hroom _) (expandWithin_none hroom ..)
  by_cases htable : ∃ t, v = .table t
  · obtain ⟨t, rfl⟩ := htable
    cases hx with
    | @handle _ kind o id kind_eq started guest handle =>
      obtain rfl := Option.some.inj kind_eq
      have hcs : s.charset = s₀.charset := by rw [hs.same]
      rw [← expandWithin_congr hcs hs.machine.tables]
      exact table_shows ih level hfuel hw handle rfl rfl rfl guest
  · obtain ⟨fuel, rfl⟩ := exists_fuel hfuel hroom
    rw [expandWithin_leaf fun t ht => htable ⟨t, ht⟩, if_neg hroom]
    cases hx with
    | nil | bool | float => exact .of_ok (treeAt_scalar hroom rfl) (.refl _ _) (by simp [expand, blank])
    | int i =>
      have htree : scalarTree (.int i.toInt) = some (.int i.toInt) := by rw [scalarTree, Integer.write?_word]; rfl
      exact .of_ok (treeAt_scalar hroom htree) (.refl _ _) (by simp [expand, blank])
    | str b =>
      rw [expand]
      rcases s₀.charset.shown_eq encoding b with ⟨t, ht⟩ | ⟨b', hb⟩
      · rw [ht]
        exact .of_ok (treeAt_scalar hroom rfl) (.refl _ _) (by simp [stringTree, blank])
      · rw [hb]
        exact .of_ok (treeAt_scalar hroom rfl) (.refl _ _) (by simp [stringTree, blank])
    | stdout guest => exact .of_ok (treeAt_guest hroom guest) (.refl _ _) (by simp [expand, blank])
    | object m => exact absurd rfl (hv m)
    | @handle v kind o id kind_eq started guest handle =>
      cases v with
      | table t => exact absurd ⟨t, rfl⟩ htable
      | closure | builtin | wrapped | thread =>
        obtain rfl := Option.some.inj kind_eq
        rw [expand]
        exact handle_shows hroom hw handle rfl HandleKind.noConfusion (.inr ⟨o, rfl, guest⟩) (fun _ => rfl) hv
      | _ => contradiction
    | @fresh t id f thread unstarted runs handle =>
      rw [expand]
      cases runs with
      | @thread o t s' g guest found new rest body =>
        exact handle_shows hroom hw handle rfl HandleKind.noConfusion (.inr ⟨o, rfl, guest⟩) (fun _ => rfl)
          fun _ => Lua.Value.noConfusion
      | refused library =>
        have hnone : (Value.none : Value) = .none ∨ ∃ o, Value.none = .obj o ∧
            w.objects[o]? = some (.guest ⟨state, .nil, false⟩) := .inl rfl
        exact handle_shows hroom hw handle rfl HandleKind.noConfusion hnone (fun _ => rfl) fun _ => Lua.Value.noConfusion

/-- A table is printed as its expansion, as far as the host has room. -/
theorem format_shows (p : Printer) (n : Nat) (level : Int) (hw : w.Displays state s encoding) {o id t : Nat}
    {k : Handle} (hid : w.objects[id]? = some (.handle k)) (hkind : k.kind = .table) (hstate : k.state = state)
    (hguest : k.guest = .obj o) (ho : w.objects[o]? = some (.guest ⟨state, .table t, false⟩)) :
    ∃ r w', p.format (engine (n + 1)) (.obj id) level w = some (r.map (text p level), w') ∧ w.Steady state w' ∧
      Outcome blank (expandWithin w.limits s encoding (p.maxDepth - level).toNat [] (.table t)) r := by
  have hshown : Shows state (expandWithin w.limits s encoding (p.maxDepth - level).toNat [] (.table t))
      (p.treeAt w.limits (engine (n + 1)) (w.limits.printNesting + 1) [] level (.obj id)) w :=
    table_shows (fun m _ => expands p w.limits n state encoding m) level rfl hw hid hkind hstate hguest ho
  obtain ⟨r, w', hrun, hsteady, houtcome⟩ := hshown
  refine ⟨r, w', ?_, hsteady, houtcome⟩
  rw [format_eq, map_apply, tree, bind_ok (get_apply w), hrun]
  cases r <;> rfl

/-! ### A stack of 1000 calls -/

theorem calls_le (path : Path) : Path.calls path ≤ 4 * path.length := by
  induction path with
  | nil => exact Nat.le_refl 0
  | cons step path ih =>
    have hlink (link : Link) : link.calls ≤ 4 := by rcases link with _ | _ | (_ | _) | (_ | _) <;> decide
    have hcalls : Path.calls (step :: path) = step.1.calls + Path.calls path := rfl
    have hstep := hlink step.1
    rw [hcalls, List.length_cons]
    omega

/-- There is room for what lies in a few containers. -/
theorem roomAt_usual (h : path.length ≤ 247) : ({} : Limits).roomAt path = .ample := by
  have hcalls := calls_le path
  cases path with
  | nil => rfl
  | cons link path =>
    refine (if_neg (by dsimp only; omega)).trans ?_
    exact if_pos (by omega)

theorem roomAt_ne_scarce (path : Path) : ({} : Limits).roomAt path ≠ .scarce := by
  unfold Limits.roomAt
  split
  · decide
  · split_ifs
    · decide
    · show Path.usualRoom path ≠ .scarce
      unfold Path.usualRoom
      split_ifs <;> decide

/-! ### A table within itself -/

namespace Knot

def lua : LuaState :=
  { config := 0, diagnostics := 0, charset := .utf8, globals := 0, wrapper := .closure 0
    machine := { heap := { tables := #[({} : Lua.Table).set (.int 1) (.table 0)], closures := #[⟨wrapping, []⟩] } } }

def handle : Handle := { kind := .table, state := 0, guest := .obj 1 }

def world : World :=
  { objects := #[.nothing, .guest ⟨0, .table 0, false⟩, .handle handle], configs := #[{}], diagnostics := #[[]]
    states := #[lua], languages := #[{ config := 0, diagnostics := 0, state := some 0 }] }

theorem tableAt : world.TableAt handle 0 lua (.text "UTF-8") := by
  have hvalid : world.valid handle = true := by
    simp [World.valid, Handle.stands, World.opened, World.stateAlive, world, lua, handle]
  exact ⟨⟨⟨rfl, rfl, rfl⟩, rfl, .inr (by decide +kernel)⟩, ⟨0, [], rfl, rfl⟩, hvalid, 1, rfl, rfl⟩

theorem current : lua.machine.current < lua.machine.threads.size := by decide

theorem entries : (lua.machine.heap.table 0).toList = [(.int 1, .table 0)] := rfl

theorem own (t : Nat) : ∀ p ∈ (lua.machine.heap.table t).toList, (∀ id, p.1 ≠ .host id) ∧ ∀ id, p.2 ≠ .host id := by
  intro p hp
  cases t with
  | zero =>
    rw [entries] at hp
    obtain rfl := List.mem_singleton.mp hp
    exact ⟨fun _ => Lua.Key.noConfusion, fun _ => Lua.Value.noConfusion⟩
  | succ t => exact absurd hp List.not_mem_nil

theorem expand_succ (levels : Nat) : expand lua encoding (levels + 1) (.table 0) =
    .block [.entry (.int 1) (expand lua encoding levels (.table 0))] := by
  have hmerged : Lua.mergeTwins (lua.machine.heap.table 0).toList = [(.int 1, .table 0)] := rfl
  have hone : expand lua encoding levels (.int 1) = .int 1 := by
    cases levels <;> rfl
  rw [expand, hmerged, List.map_singleton]
  exact congrArg (fun d => Tree.block [.entry d (expand lua encoding levels (.table 0))]) hone

/-- Where there is no room for the table at a place within itself, it is not printed. -/
theorem expandWithin_deep {l : Limits} (hroom : ∀ path, l.roomAt path ≠ .scarce) {k : Nat} {path : Path}
    (h : l.roomAt (List.replicate k (.value true, 0) ++ path) = .none) (levels : Nat) :
    expandWithin l lua encoding (levels + k) path (.table 0) = none := by
  induction k generalizing path with
  | zero => exact expandWithin_none h levels _
  | succ k ih =>
    rw [List.replicate_succ', List.append_assoc] at h
    have hvalue := ih h
    rw [← Nat.add_assoc, expandWithin_table]
    cases hpath : l.roomAt path with
    | none => rfl
    | scarce => exact absurd hpath (hroom path)
    | ample =>
      have hmerged : (Lua.mergeTwins (lua.machine.heap.table 0).toList).zipIdx = [((.int 1, .table 0), 0)] := rfl
      have hentry : entryWithin l lua encoding (levels + k) path ((.int 1, .table 0), 0) = none := by
        rw [entryWithin]
        dsimp only
        rw [show expandWithin l lua encoding (levels + k) ((.value true, 0) :: path) (.table 0) = none from hvalue]
        cases keyWithin _ _ <;> rfl
      dsimp only
      rw [hmerged, List.mapM_cons, hentry]
      rfl

end Knot

end Printer

end HostedLua
