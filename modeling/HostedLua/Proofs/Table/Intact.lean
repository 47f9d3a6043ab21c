import HostedLua.Proofs.Crossing.Intact

/-! Reading a table leaves Lua as it was. The walk over the table is the host's own, so no metamethod has a say in it,
and what has been met comes to the host without a program of the user being run; dropping all that again runs none
either. A thread that has not run comes as a coroutine with a thread of its own: whatever happens to that one, only a
program that names the thread itself resumes or closes it. -/

namespace HostedLua

open Host

namespace World

variable {w : World} {s : LuaState} {t : Nat} {H : Nat → Prop} {acc : List (Value × Value)} {k v : Value}

/-- The objects of the host's that are keys or values of a table. -/
def Within (s : LuaState) (t : Nat) (id : Nat) : Prop :=
  ∃ p ∈ (s.machine.heap.table t).toList, p.1.value = .host id ∨ p.2 = .host id

theorem hostOwned_within
    (hproper : ∀ p ∈ (s.machine.heap.table t).toList, w.Proper p.1.value ∧ w.Proper p.2) :
    w.HostOwned (Within s t) := by
  rintro id ⟨p, hp, hkey | hvalue⟩
  · exact hkey ▸ (hproper p hp).1
  · exact hvalue ▸ (hproper p hp).2

/-- What an entry of a mapping is replaced by is one of its own. -/
theorem newOr_putEntry {w₀ : World} (hacc : ∀ e ∈ acc, w₀.NewOr H e.1 ∧ w₀.NewOr H e.2) (hk : w₀.NewOr H k)
    (hv : w₀.NewOr H v) : ∀ e ∈ w.putEntry acc k v, w₀.NewOr H e.1 ∧ w₀.NewOr H e.2 := by
  induction acc with
  | nil => exact List.forall_mem_cons.mpr ⟨⟨hk, hv⟩, fun e he => absurd he List.not_mem_nil⟩
  | cons e acc ih =>
    obtain ⟨l, u⟩ := e
    obtain ⟨he, hacc⟩ := List.forall_mem_cons.mp hacc
    rw [putEntry]
    by_cases heq : w.valueEq w.eqDepth l k = true
    · rw [if_pos heq]
      exact List.forall_mem_cons.mpr ⟨⟨he.1, hv⟩, hacc⟩
    · rw [if_neg heq]
      exact List.forall_mem_cons.mpr ⟨he, ih hacc⟩

end World

namespace Bridge

open World Lua.Machine

section Lent

variable {E : Engine} {n state : Nat} {w₀ w : World} {s : LuaState} {H : Nat → Prop} {q : Value × Value}
  {acc items : List (Value × Value)} {es : List (Lua.Key × Lua.Value)} (hown : RunsOwn E n state)
  (hs : w₀.states[state]? = some s) (hwraps : s.Wraps) (hcur : s.machine.current < s.machine.threads.size)
  (hH : w₀.HostOwned H)

include hs in
theorem ends_fetchEntries (hw : w₀.Lent state s w)
    (hes : ∀ p ∈ es, ∀ id, p.1.value = .host id ∨ p.2 = .host id → H id) :
    Ends (w₀.Lent state s) (fun items _ => ∀ q ∈ items, w₀.NewOr H q.1 ∧ w₀.NewOr H q.2)
      (es.mapM (fetchEntry state)) w := by
  refine Ends.mapM (S := fun q : Value × Value => w₀.NewOr H q.1 ∧ w₀.NewOr H q.2) es hes hw fun p w hp hw => ?_
  refine (ends_fetch hs hw fun id hid => hp id (.inl hid)).bind fun k w₁ hw₁ hk => ?_
  refine (ends_fetch hs hw₁ fun id hid => hp id (.inr hid)).bind fun v w₂ hw₂ hv => ?_
  exact .pure hw₂ ⟨hk, hv⟩

include hown hs hwraps hcur hH

theorem ends_collect (hw : w₀.Lent state s w) (hacc : ∀ e ∈ acc, w₀.NewOr H e.1 ∧ w₀.NewOr H e.2)
    (hq : w₀.NewOr H q.1 ∧ w₀.NewOr H q.2) :
    Ends (w₀.Lent state s) (fun rs _ => ∀ e ∈ rs, w₀.NewOr H e.1 ∧ w₀.NewOr H e.2) (collect E state acc q) w := by
  refine (ends_toHost hown hs hwraps hcur hH hw hq.2).bind fun v w₁ hw₁ hv => ?_
  refine (ends_toHost hown hs hwraps hcur hH hw₁ hq.1).bind fun k w₂ hw₂ hk => ?_
  refine .step (get_apply w₂) ?_
  obtain ⟨t, ht⟩ := typeName_ok k w₂
  by_cases hhash : w₂.hashable w₂.eqDepth k = true
  · rw [if_pos hhash]
    exact .pure hw₂ (newOr_putEntry hacc hk hv)
  · rw [if_neg hhash]
    exact .step ht (.raise _ _ hw₂)

theorem ends_mapped (hw : w₀.Lent state s w) (hes : ∀ p ∈ es, ∀ id, p.1.value = .host id ∨ p.2 = .host id → H id) :
    Ends (w₀.Lent state s) (fun rs _ => ∀ e ∈ rs, w₀.NewOr H e.1 ∧ w₀.NewOr H e.2) (mapped E state es) w := by
  refine (ends_fetchEntries hs hw hes).bind fun items w₁ hw₁ hitems => ?_
  exact Ends.foldlM (S := fun acc : List (Value × Value) => ∀ e ∈ acc, w₀.NewOr H e.1 ∧ w₀.NewOr H e.2) items
    (fun e he => absurd he List.not_mem_nil) hitems hw₁
    fun acc q w hacc hq hw => ends_collect hown hs hwraps hcur hH hw hacc hq

/-- Whoever runs programs, an entry is collected in the same way. -/
theorem collect_own (hw : w₀.Lent state s w) (hq : w₀.NewOr H q.1 ∧ w₀.NewOr H q.2) (acc : List (Value × Value)) :
    collect E state acc q w = collect (engine (n + 1)) state acc q w := by
  refine bind_agree (toHost_own hown hs hwraps hcur hH hw hq.2) fun v w₁ hv => ?_
  obtain ⟨hw₁, -⟩ := (ends_toHost (runsOwn_engine n state) hs hwraps hcur hH hw hq.2).of_run hv
  exact bind_congr_left (toHost_own hown hs hwraps hcur hH hw₁ hq.1)

theorem foldlM_collect_own (hw : w₀.Lent state s w) (hacc : ∀ e ∈ acc, w₀.NewOr H e.1 ∧ w₀.NewOr H e.2)
    (hitems : ∀ q ∈ items, w₀.NewOr H q.1 ∧ w₀.NewOr H q.2) :
    items.foldlM (collect E state) acc w = items.foldlM (collect (engine (n + 1)) state) acc w := by
  induction items generalizing acc w with
  | nil => rw [List.foldlM_nil, List.foldlM_nil]
  | cons q items ih =>
    have hq := hitems q List.mem_cons_self
    rw [List.foldlM_cons, List.foldlM_cons]
    refine bind_agree (collect_own hown hs hwraps hcur hH hw hq acc) fun acc' w₁ hcollect => ?_
    obtain ⟨hw₁, hacc'⟩ := (ends_collect (runsOwn_engine n state) hs hwraps hcur hH hw hacc hq).of_run hcollect
    exact ih hw₁ hacc' fun r hr => hitems r (List.mem_cons_of_mem _ hr)

theorem mapped_own (hw : w₀.Lent state s w) (hes : ∀ p ∈ es, ∀ id, p.1.value = .host id ∨ p.2 = .host id → H id) :
    mapped E state es w = mapped (engine (n + 1)) state es w := by
  refine bind_agree rfl fun items w₁ hitems => ?_
  obtain ⟨hw₁, hall⟩ := (ends_fetchEntries hs hw hes).of_run hitems
  exact foldlM_collect_own hown hs hwraps hcur hH hw₁ (fun e he => absurd he List.not_mem_nil) hall

end Lent

/-! ### Reading a table -/

/-- Only calls of the wrapping function of a state and of `coroutine.close` are run; nothing comes of any other
program. -/
def ownEngine (n : Nat) : Engine where
  run state p := do
    let some s ← state? state | diverge
    match p, s.wrapper with
    | .call _ (.builtin .coClose) _ _, _ => (engine (n + 1)).run state p
    | .call _ (.closure f) _ _, .closure g => if f = g then (engine (n + 1)).run state p else diverge
    | _, _ => diverge
  callback _ _ := diverge

theorem runsOwn_ownEngine (n state : Nat) : RunsOwn (ownEngine n) n state where
  wraps {w s} g hs hwraps := by
    obtain ⟨id, cells, hwrapper, -⟩ := hwraps
    refine (bind_ok (state?_apply state w)).trans ?_
    rw [hs]
    dsimp only
    rw [hwrapper]
    exact congrFun (if_pos rfl) w
  closes {w s t} hs _ := by
    refine (bind_ok (state?_apply state w)).trans ?_
    rw [hs]
    rfl

section Table

variable {E : Engine} {n t : Nat} {w : World} {h : Handle} {s : LuaState} {encoding : Value}
  (ht : w.TableAt h t s encoding) (hcur : s.machine.current < s.machine.threads.size)
  (hproper : ∀ p ∈ (s.machine.heap.table t).toList, w.Proper p.1.value ∧ w.Proper p.2)
  (hown : RunsOwn E n h.state)

include ht hcur hproper hown

theorem ends_toMapping :
    Ends (w.Lent h.state s) (fun rs _ => ∀ e ∈ rs, w.NewOr (Within s t) e.1 ∧ w.NewOr (Within s t) e.2)
      (toMapping E h) w := by
  obtain ⟨o, hguest, ho⟩ := ht.guest
  have hentries : ∀ p ∈ (s.machine.heap.table t).toList, ∀ id, p.1.value = .host id ∨ p.2 = .host id → Within s t id :=
    fun p hp id hid => ⟨p, hp, hid⟩
  obtain ⟨r, w₁, hrun, hlent, hnew⟩ := ends_mapped hown ht.found ht.wraps hcur (hostOwned_within hproper)
    ((Lent.start w h.state s).hold [h.guest] h.state) hentries
  refine ⟨r, w₁.release w, ?_, hlent.release w, hnew⟩
  rw [toMapping_eq E ht.found ht.valid hguest ho, hrun]
  rfl

theorem toMapping_own : toMapping E h w = toMapping (engine (n + 1)) h w := by
  obtain ⟨o, hguest, ho⟩ := ht.guest
  rw [toMapping_eq E ht.found ht.valid hguest ho, toMapping_eq (engine (n + 1)) ht.found ht.valid hguest ho]
  rw [mapped_own hown ht.found ht.wraps hcur (hostOwned_within hproper)
    ((Lent.start w h.state s).hold [h.guest] h.state) fun p hp id hid => ⟨p, hp, hid⟩]

omit hcur hown in
theorem toMapping_presents (hkeys : ∀ p ∈ (s.machine.heap.table t).toList, ∀ id, p.1 ≠ .host id) (n : Nat) :
    ∃ rs w₁, toMapping (engine (n + 1)) h w = some (.ok rs, w₁) ∧
      List.Forall₂ (w₁.PresentsEntry h.state s encoding) (Lua.mergeTwins (s.machine.heap.table t).toList) rs := by
  obtain ⟨o, hguest, ho⟩ := ht.guest
  have hheld : (w.hold [h.guest] h.state).Serves h.state s encoding := ht.toServes.mono rfl rfl
  obtain ⟨rs, w₁, hrs, -, hentries⟩ := mapped_presents (n := n) hheld ht.wraps hkeys (fun p hp => (hproper p hp).2)
    (Lua.Table.pairwise_toList _)
  have hrelease : w₁.Grown h.state (w₁.release w) := (Grown.refl w₁ h.state).release w
  refine ⟨rs, w₁.release w, ?_, hentries.imp fun _ _ he => he.grown hrelease⟩
  rw [toMapping_eq _ ht.found ht.valid hguest ho, hrs]
  rfl

end Table

/-- Reading a valid table as a mapping, and dropping what has come in any order, leaves all that there was in Lua as it
was: tables, globals, variables, functions, and each thread with its status and with all that it waits for. The program
runs no code for that: whoever runs programs need only run the wrapping function of the state and the closing of threads
that have not begun, and it comes to what it comes to on the machine. What comes is new, but for objects of the host's
own, and presents the entries: a thread that has not run as a coroutine with a new thread that is to run the same
function, any other thread as it is, and not owned. Where a new thread is resumed or closed, or whatever else is called,
the one that has not run stays as it is and is not under way, up to where a program names it. -/
theorem toMapping_intact {E : Engine} {n t : Nat} {w : World} {h : Handle} {s : LuaState} {encoding : Value}
    (ht : w.TableAt h t s encoding) (hcur : s.machine.current < s.machine.threads.size)
    (hproper : ∀ p ∈ (s.machine.heap.table t).toList, w.Proper p.1.value ∧ w.Proper p.2)
    (hown : RunsOwn E n h.state) :
    toMapping E h w = toMapping (engine (n + 1)) h w ∧
    (∃ r w₁, toMapping E h w = some (r, w₁) ∧ w.Intact h.state w₁ ∧
      (∀ rs, r = .ok rs → ∀ e ∈ rs, w.NewOr (Within s t) e.1 ∧ w.NewOr (Within s t) e.2) ∧
      ((∀ p ∈ (s.machine.heap.table t).toList, ∀ id, p.1 ≠ .host id) → ∃ rs, r = .ok rs ∧
        List.Forall₂ (w₁.PresentsEntry h.state s encoding) (Lua.mergeTwins (s.machine.heap.table t).toList) rs) ∧
      ∀ ids, (∀ id ∈ ids, w.objects.size ≤ id) →
        ∃ w₂, dropAll E ids w₁ = some (.ok ⟨⟩, w₂) ∧ w.Intact h.state w₂) ∧
    (∀ {m : Lua.Machine}, s.machine.Spares (· < s.machine.threads.size) m →
      (∀ u < s.machine.threads.size, m.status u = s.machine.status u) ∧
      (s.machine.Linked → ∀ {u : Nat} {th : Lua.Thread} {f : Lua.Value}, s.machine.threads[u]? = some th →
        th.rest = .fresh f →
        (∀ v ≥ s.machine.threads.size, (∀ args k, (m.resume v args k).Leaves u th) ∧
          ∀ k, (m.close v k).Leaves u th) ∧
        (u ≠ 0 → ∀ p, (m.enter p).Leaves u th))) := by
  obtain ⟨r, w₁, hrun, hlent, hnew⟩ := ends_toMapping ht hcur hproper hown
  have hsame := toMapping_own ht hcur hproper hown
  refine ⟨hsame, ⟨r, w₁, hrun, hlent.toIntact, hnew, fun hkeys => ?_, fun ids hids => ?_⟩, fun {m} hm => ⟨?_, ?_⟩⟩
  · obtain ⟨rs, w₁', hrs, hentries⟩ := toMapping_presents ht hproper hkeys n
    obtain ⟨rfl, rfl⟩ := Prod.mk.inj (Option.some.inj ((hrun.symm.trans hsame).trans hrs))
    exact ⟨rs, rfl, hentries⟩
  · obtain ⟨w₂, hdrop, hlent'⟩ := ends_dropAll hown ht.found ht.wraps hcur hlent ids hids
    exact ⟨w₂, hdrop, hlent'.toIntact⟩
  · exact fun u hu => hm.status_eq hu
  · intro hlinked u th f hth hfresh
    have hu : u < s.machine.threads.size := (Array.getElem?_eq_some_iff.mp hth).1
    have hoff : m.Off u th := hlinked.off_spared hth hfresh hm hu
    refine ⟨fun v hv => ?_, fun hmain p => (hoff.enter hmain p).leaves⟩
    have hne : v ≠ u := Ne.symm (Nat.ne_of_lt (Nat.lt_of_lt_of_le hu hv))
    exact ⟨fun args k => (hoff.resume hne).leaves, fun k => (hoff.close hne).leaves⟩

/-- A table with metamethods has a thread that has not run and one that has: both come and are dropped, the one that
has run first. -/
theorem toMapping_intact_threads :
    let metatable : Lua.Table :=
      (({} : Lua.Table).set (.str (.ofString "__pairs")) (.closure 1)).set (.str (.ofString "__index")) (.closure 1)
    let entries : Lua.Table :=
      { (({} : Lua.Table).set (.int 1) (.thread 1)).set (.int 2) (.thread 2) with metatable := some 1 }
    let threads : Array Lua.Thread :=
      #[{ rest := .waiting }, { rest := .fresh (.closure 1) }, { rest := .yielded fun _ => .ret [] }]
    let m : Lua.Machine :=
      { heap := { tables := #[entries, metatable], closures := #[⟨wrapping, []⟩, ⟨wrapping, []⟩] }, threads }
    let s : LuaState :=
      { config := 0, diagnostics := 0, charset := .utf8, machine := m, globals := 0, wrapper := .closure 0 }
    let h : Handle := { kind := .table, state := 0, guest := .obj 1 }
    let w : World :=
      { objects := #[.nothing, .guest ⟨0, .table 0, false⟩], configs := #[{}], diagnostics := #[[]], states := #[s]
        languages := #[{ config := 0, diagnostics := 0, state := some 0 }] }
    w.TableAt h 0 s (.text "UTF-8") ∧ m.current < m.threads.size ∧
      (∀ p ∈ (m.heap.table 0).toList, w.Proper p.1.value ∧ w.Proper p.2) ∧ RunsOwn (ownEngine 0) 0 h.state ∧
      m.Linked ∧ ∃ i j w₁ w₂, toMapping (ownEngine 0) h w = some (.ok [(.int 1, .obj i), (.int 2, .obj j)], w₁) ∧
        dropAll (ownEngine 0) [j, i] w₁ = some (.ok ⟨⟩, w₂) ∧ w.Intact 0 w₂ := by
  intro metatable entries threads m s h w
  have hs : w.Serves 0 s (.text "UTF-8") := ⟨⟨rfl, rfl, rfl⟩, rfl, .inr (by decide +kernel)⟩
  have hvalid : w.valid h = true := by simp [World.valid, Handle.stands, World.opened, World.stateAlive, w, s, h]
  have ht : w.TableAt h 0 s (.text "UTF-8") := ⟨hs, ⟨0, [], rfl, rfl⟩, hvalid, 1, rfl, rfl⟩
  have htable : (m.heap.table 0).toList = [(.int 1, .thread 1), (.int 2, .thread 2)] := rfl
  have hown : ∀ p ∈ (m.heap.table 0).toList, (∃ i, p.1 = .int i) ∧ ∃ t, p.2 = .thread t := by
    intro p hp
    rw [htable] at hp
    rcases List.mem_cons.mp hp with rfl | hp
    · exact ⟨⟨_, rfl⟩, _, rfl⟩
    · obtain rfl := List.mem_singleton.mp hp
      exact ⟨⟨_, rfl⟩, _, rfl⟩
  have hproper : ∀ p ∈ (m.heap.table 0).toList, w.Proper p.1.value ∧ w.Proper p.2 := by
    intro p hp
    obtain ⟨⟨i, hkey⟩, t, hvalue⟩ := hown p hp
    rw [hkey, hvalue]
    exact ⟨fun _ => Lua.Value.noConfusion, fun _ => Lua.Value.noConfusion⟩
  have hcur : m.current < m.threads.size := by decide
  have hlinked : m.Linked := by
    refine ⟨fun u hu => ?_, List.nodup_nil⟩
    obtain rfl := List.mem_singleton.mp hu
    exact ⟨_, rfl, rfl⟩
  refine ⟨ht, hcur, hproper, runsOwn_ownEngine 0 0, hlinked, ?_⟩
  obtain ⟨-, ⟨r, w₁, hrun, -, hnew, hentries, hdrop⟩, -⟩ := toMapping_intact ht hcur hproper (runsOwn_ownEngine 0 0)
  have hkeys : ∀ p ∈ (m.heap.table 0).toList, ∀ id, p.1 ≠ .host id := by
    intro p hp
    obtain ⟨⟨i, hkey⟩, -⟩ := hown p hp
    rw [hkey]
    exact fun _ => Lua.Key.noConfusion
  have hwithin (id : Nat) : ¬ Within s 0 id := by
    rintro ⟨p, hp, hhost⟩
    obtain ⟨⟨i, hkey⟩, t, hvalue⟩ := hown p hp
    rw [hkey, hvalue] at hhost
    exact hhost.elim Lua.Value.noConfusion Lua.Value.noConfusion
  obtain ⟨rs, rfl, hall⟩ := hentries hkeys
  have hmerged : Lua.mergeTwins (m.heap.table 0).toList = [(.int 1, .thread 1), (.int 2, .thread 2)] := rfl
  rw [hmerged] at hall
  obtain ⟨⟨k, v⟩, _, ⟨hk, hv⟩, hrest, rfl⟩ := List.forall₂_cons_left_iff.mp hall
  obtain ⟨⟨k', v'⟩, _, ⟨hk', hv'⟩, hnil, rfl⟩ := List.forall₂_cons_left_iff.mp hrest
  obtain rfl := List.forall₂_nil_left_iff.mp hnil
  have hthread {t : Nat} {x : Value} (hx : w₁.Presents 0 s (.text "UTF-8") (.thread t) x) : ∃ id, x = .obj id := by
    cases hx <;> exact ⟨_, rfl⟩
  obtain ⟨i, rfl⟩ := hthread hv
  obtain ⟨j, rfl⟩ := hthread hv'
  have hi : w.objects.size ≤ i := ((hnew _ rfl _ List.mem_cons_self).2 i rfl).resolve_right (hwithin i)
  have hj : w.objects.size ≤ j :=
    ((hnew _ rfl _ (List.mem_cons_of_mem _ List.mem_cons_self)).2 j rfl).resolve_right (hwithin j)
  obtain ⟨w₂, hdropped, hintact⟩ := hdrop [j, i] (by simp [hi, hj])
  cases hk with
  | handle kind_eq => cases kind_eq
  | int =>
    cases hk' with
    | handle kind_eq => cases kind_eq
    | int => exact ⟨i, j, w₁, w₂, hrun, hdropped, hintact⟩

end Bridge

end HostedLua
