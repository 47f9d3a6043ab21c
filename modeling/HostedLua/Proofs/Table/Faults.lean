import HostedLua.Proofs.Table.Mapping

/-! Faults of reads of tables. Only the read itself is protected: the key that a read is given is converted before it,
and what has been read gets its host form after it. So a key that cannot be converted, a text that is refused and a key
that no mapping can have get out as faults. -/

namespace HostedLua

open Host

namespace World

variable {w w' : World} {state depth : Nat} {x : Value}

/-- What cannot be a key cannot be one in a larger world. -/
theorem hashable_grown (hw : w.Grown state w') (h : w.hashable depth x = false) : w'.hashable depth x = false := by
  induction depth generalizing x with
  | zero => contradiction
  | succ depth ih =>
    rw [hashable] at h ⊢
    cases x with
    | obj id =>
      have hobject : w.object? (.obj id) = w.objects[id]? := rfl
      have hobject' : w'.object? (.obj id) = w'.objects[id]? := rfl
      rw [hobject] at h
      rw [hobject']
      cases ho : w.objects[id]? with
      | none => simp [ho] at h
      | some o =>
        rw [hw.objects ho]
        rw [ho] at h
        cases o with
        | tuple vs =>
          obtain ⟨v, hv, hfalse⟩ := List.all_eq_false.mp h
          exact List.all_eq_false.mpr ⟨v, hv, by simpa using ih (by simpa using hfalse)⟩
        | _ => exact h
    | _ => contradiction

/-- What cannot be a key cannot be one where more is looked at. -/
theorem hashable_deeper {depth' : Nat} (h : w.hashable depth x = false) (hle : depth ≤ depth') :
    w.hashable depth' x = false := by
  induction depth generalizing x depth' with
  | zero => contradiction
  | succ depth ih =>
    obtain ⟨depth', rfl⟩ : ∃ d, depth' = d + 1 := ⟨depth' - 1, by omega⟩
    rw [hashable] at h ⊢
    split at h
    · rfl
    · rfl
    · rfl
    · rfl
    · obtain ⟨v, hv, hfalse⟩ := List.all_eq_false.mp h
      exact List.all_eq_false.mpr ⟨v, hv, by simpa using ih (by simpa using hfalse) (Nat.le_of_succ_le_succ hle)⟩
    · contradiction

theorem eqDepth_grown (hw : w.Grown state w') : w.eqDepth ≤ w'.eqDepth := by
  refine Nat.succ_le_succ (Nat.le_of_not_lt fun hlt => ?_)
  have hlast : w.objects[w'.objects.size]? = some w.objects[w'.objects.size] := Array.getElem?_eq_getElem hlt
  have hnone := hw.objects hlast
  simp at hnone

/-- A key of a table is an object of the host's that no mapping can have as a key. -/
def BadKey (w : World) (k : Lua.Key) : Prop :=
  ∃ m, k = .host m ∧ m ≠ Value.nothingId ∧ w.hashable w.eqDepth (.obj m) = false

theorem BadKey.grown {k : Lua.Key} (h : w.BadKey k) (hw : w.Grown state w') : w'.BadKey k :=
  let ⟨m, hm, hne, hhash⟩ := h
  ⟨m, hm, hne, hashable_deeper (hashable_grown hw hhash) (eqDepth_grown hw)⟩

end World

namespace Bridge

open World

variable {n : Nat} {E : Engine} {w w' w₁ : World} {h : Handle} {f : Fault} {x u d : Value} {s : LuaState}
  {encoding : Value} {state : Nat} {q : Value × Value} {acc items : List (Value × Value)}

/-! ### Reads at a key -/

/-- Why a read at a key raises a fault: the key cannot be converted, or what has been read is a text that is refused. -/
inductive GetRaises (E : Engine) (h : Handle) (x d : Value) (w : World) (f : Fault) : Prop where
  | key {w₁ : World} (refused : toGuest h.state x (w.hold [h.guest, x, d] h.state) = some (.error f, w₁))
  | text {w₁ w₂ : World} {u : Value} {t : Text} {rest : List Value}
    (key : toGuest h.state x (w.hold [h.guest, x, d] h.state) = some (.ok u, w₁))
    (read : (getItem E h.guest u >>= group) w₁ = some (.ok (.text t :: rest), w₂))
    (refuses : Refuses (w.encoding h.state) t f)

/-- A conversion raises ordinary faults only. -/
theorem toGuest_ordinary (hx : toGuest state x w = some (.error f, w')) : f.isOrdinary = true := by
  have hadding : Adding w state (w.still state) (toGuest state x) := adding_toGuest x
  obtain ⟨r, g, hr, -, hord⟩ := hadding.run
  obtain ⟨rfl, -⟩ := Prod.mk.inj (Option.some.inj (hx.symm.trans hr))
  exact hord f rfl

/-- A whole number for which there is no float is refused. -/
theorem toGuest_overflow (state : Nat) {i : Int} (hrange : ¬(minInt ≤ i ∧ i ≤ maxInt)) (hnone : Binary.ofInt? i = none)
    (w : World) :
    toGuest state (.int i) w = some (.error (.of "OverflowError" "int too large to convert to float"), w) := by
  rw [toGuest_apply]
  refine bind_error ?_
  rw [toGuestAt, if_neg hrange, hnone]
  rfl

theorem toHost_refused {t : Text} (E : Engine) (h : Refuses (w.encoding state) t f) :
    toHost E state (.text t) w = some (.error f, w) := by
  obtain ⟨c, hc, hencoding⟩ := configOf_encoding state w
  rw [toHost, bind_ok hc, hencoding, h w]

/-- A read at a converted key raises a fault only if a text is refused. -/
theorem readAt_error (hw : w.Sound) (hs : w.states[h.state]? = some s) (hf : f.isOrdinary = true)
    (hread : readAt (engine n) h u d w = some (.error f, w')) :
    ∃ t rest w₁, (getItem (engine n) h.guest u >>= group) w = some (.ok (.text t :: rest), w₁) ∧
      Refuses (w.encoding h.state) t f := by
  rcases bind_some hread with ⟨e, hcall, heq⟩ | ⟨a, v, hcall, hread⟩
  · obtain rfl := Except.error.inj heq
    rcases protectedCall_some hcall with ⟨_, -, hok⟩ | ⟨_, hok⟩ | ⟨e, he, heq⟩
    · cases hok
    · cases hok
    · rw [Except.error.inj heq, he] at hf
      contradiction
  · rcases protectedCall_some hcall with ⟨vs, hvs, hok⟩ | ⟨e, hok⟩ | ⟨_, -, heq⟩
    · obtain rfl := Except.ok.inj hok
      obtain ⟨hv, hk⟩ := ((keeps_getItem (engine_keeps n) _ _).bind fun vs => keeps_group vs) hw hvs
      cases vs with
      | nil => cases hread
      | cons a rest =>
        have hhost : toHost (engine n) h.state a v = some (.error f, w') := by
          cases a with
          | none => cases hread
          | _ => exact hread
        obtain ⟨t, rfl, hrefuses⟩ := toHost_error hv hf hhost
        exact ⟨t, rest, v, hvs, hk.encoding hs ▸ hrefuses⟩
    · obtain rfl := Except.ok.inj hok
      cases hread
    · cases heq

theorem getValue_refused (hv : w.valid h = true)
    (hx : toGuest h.state x (w.hold [h.guest, x, d] h.state) = some (.error f, w₁)) :
    getValue E h x d w = some (.error f, w₁.release w) := by
  rw [getValue_valid hv, bind_error hx]
  rfl

/-- A read at a key of a valid handle raises a fault just if the key cannot be converted, or a text is refused. -/
theorem getValue_raises_iff (hw : w.Sound) (hv : w.valid h = true) (hf : f.isOrdinary = true) :
    (∃ w', getValue (engine n) h x d w = some (.error f, w')) ↔ GetRaises (engine n) h x d w f := by
  obtain ⟨s, hs⟩ := state_of_isValid (hv ▸ valid_apply h w)
  have hheld : (w.hold [h.guest, x, d] h.state).Sound := hw.hold _ _
  have hhold : w.Kept (w.hold [h.guest, x, d] h.state) := .of_eq rfl rfl rfl
  constructor
  · rintro ⟨w', hget⟩
    rw [getValue_valid hv] at hget
    obtain ⟨⟨r, v⟩, hrun, heq⟩ := Option.map_eq_some_iff.mp hget
    obtain ⟨rfl, -⟩ := Prod.mk.inj heq
    rcases bind_some hrun with ⟨e, hx, hr⟩ | ⟨u, w₁, hx, hread⟩
    · obtain rfl := Except.error.inj hr
      exact .key hx
    · obtain ⟨hw₁, hk⟩ := keeps_toGuest _ _ hheld hx
      obtain ⟨s₁, hs₁, -⟩ := hk.states (i := h.state) hs
      obtain ⟨t, rest, w₂, hitem, hrefuses⟩ := readAt_error hw₁ hs₁ hf hread
      exact .text hx hitem ((hhold.trans hk).encoding hs ▸ hrefuses)
  · intro hraises
    cases hraises with
    | key hx => exact ⟨_, getValue_refused hv hx⟩
    | text hx hitem hrefuses =>
      obtain ⟨hw₁, hk⟩ := keeps_toGuest _ _ hheld hx
      obtain ⟨-, hk'⟩ := ((keeps_getItem (engine_keeps n) _ _).bind fun vs => keeps_group vs) hw₁ hitem
      have hrefuses' := ((hhold.trans hk).trans hk').encoding hs ▸ hrefuses
      exact ⟨_, getValue_of hv hx ((bind_ok (protectedCall_ok hitem)).trans (toHost_refused _ hrefuses'))⟩

/-! ### Mappings -/

/-- Why an entry is not collected: a text of it is refused, or no mapping can have its key. -/
inductive EntryRaises (E : Engine) (state : Nat) (encoding : Value) (q : Value × Value) (f : Fault) : Prop where
  | text {t : Text} (text : q.1 = .text t ∨ q.2 = .text t) (refuses : Refuses encoding t f)
  | key {w w' : World} {k : Value} {message : Text} (form : toHost E state q.1 w = some (.ok k, w'))
    (unhashable : w'.hashable w'.eqDepth k = false) (fault_eq : f = .of "TypeError" message)

/-- Why a mapping of a table is not made: there is no walk over what the handle stands for, or an entry that has been
met is not collected. -/
inductive MapRaises (E : Engine) (h : Handle) (w : World) (f : Fault) : Prop where
  | walk {w₁ : World} (refused : walk h.guest (w.hold [h.guest] h.state) = some (.error f, w₁))
  | entry {w₁ : World} {items : List (Value × Value)} {q : Value × Value}
    (met : Bridge.walk h.guest (w.hold [h.guest] h.state) = some (.ok (items, none), w₁)) (mem : q ∈ items)
    (raises : EntryRaises E h.state (w.encoding h.state) q f)

theorem typeName_ok (v : Value) (w : World) : ∃ t, typeName v w = some (.ok t, w) := by
  cases v <;> exact ⟨_, rfl⟩

theorem collect_unhashable (acc : List (Value × Value)) {v k : Value} {w₂ : World}
    (hv : toHost E state q.2 w = some (.ok v, w₁)) (hk : toHost E state q.1 w₁ = some (.ok k, w₂))
    (hhash : w₂.hashable w₂.eqDepth k = false) :
    ∃ message, collect E state acc q w = some (.error (.of "TypeError" message), w₂) := by
  obtain ⟨t, ht⟩ := typeName_ok k w₂
  refine ⟨"unhashable type: '" ++ t ++ "'", ?_⟩
  rw [collect, bind_ok hv, bind_ok hk, bind_ok (get_apply _), if_neg (by simp [hhash]), bind_ok ht, raise_apply]

theorem keeps_collect (state : Nat) (acc : List (Value × Value)) (q : Value × Value) :
    Keeps World.Sound World.Kept (collect (engine n) state acc q) := by
  refine (keeps_toHost (engine_keeps n) _ _).bind fun v => (keeps_toHost (engine_keeps n) _ _).bind fun k => ?_
  refine Keeps.get.bind fun w => ?_
  split
  · exact .pure _
  · exact (keeps_typeName k).bind fun t => .raise _ _

theorem collect_error (hw : w.Sound) (hs : w.states[state]? = some s) (hf : f.isOrdinary = true)
    (herror : collect (engine n) state acc q w = some (.error f, w')) :
    EntryRaises (engine n) state (w.encoding state) q f := by
  rcases bind_some herror with ⟨e, hv, heq⟩ | ⟨v, w₁, hv, hrest⟩
  · obtain rfl := Except.error.inj heq
    obtain ⟨t, ht, hrefuses⟩ := toHost_error hw hf hv
    exact .text (.inr ht) hrefuses
  · obtain ⟨hw₁, hk₁⟩ := keeps_toHost (engine_keeps n) _ _ hw hv
    rcases bind_some hrest with ⟨e, hk, heq⟩ | ⟨k, w₂, hk, hrest⟩
    · obtain rfl := Except.error.inj heq
      obtain ⟨t, ht, hrefuses⟩ := toHost_error hw₁ hf hk
      exact .text (.inl ht) (hk₁.encoding hs ▸ hrefuses)
    · cases hhash : w₂.hashable w₂.eqDepth k with
      | true =>
        rw [bind_ok (get_apply _), if_pos hhash] at hrest
        cases hrest
      | false =>
        obtain ⟨message, hraise⟩ := collect_unhashable acc hv hk hhash
        obtain ⟨heq, -⟩ := Prod.mk.inj (Option.some.inj (herror.symm.trans hraise))
        exact .key hk hhash (Except.error.inj heq)

theorem foldlM_collect_error (hw : w.Sound) (hs : w.states[state]? = some s) (hf : f.isOrdinary = true)
    (herror : items.foldlM (collect (engine n) state) acc w = some (.error f, w')) :
    ∃ q ∈ items, EntryRaises (engine n) state (w.encoding state) q f := by
  induction items generalizing acc w s with
  | nil => cases herror
  | cons q items ih =>
    rw [List.foldlM_cons] at herror
    rcases bind_some herror with ⟨e, hcollect, heq⟩ | ⟨acc', w₁, hcollect, hrest⟩
    · obtain rfl := Except.error.inj heq
      exact ⟨q, List.mem_cons_self, collect_error hw hs hf hcollect⟩
    · obtain ⟨hw₁, hk⟩ := keeps_collect state acc q hw hcollect
      obtain ⟨s₁, hs₁, -⟩ := hk.states hs
      obtain ⟨r, hr, hwhy⟩ := ih hw₁ hs₁ hrest
      exact ⟨r, List.mem_cons_of_mem _ hr, hk.encoding hs ▸ hwhy⟩

/-- A mapping of a valid handle is not made only for these reasons. -/
theorem toMapping_raises (hw : w.Sound) (hv : w.valid h = true) (hf : f.isOrdinary = true)
    (herror : toMapping (engine n) h w = some (.error f, w')) : MapRaises (engine n) h w f := by
  have hvalid : isValid h w = some (.ok true, w) := hv ▸ valid_apply h w
  obtain ⟨s, hs, hrequire⟩ := requireState_valid "table" hvalid
  have hhold : w.Kept (w.hold [h.guest] h.state) := .of_eq rfl rfl rfl
  rw [toMapping, bind_ok hrequire] at herror
  obtain ⟨v, hrun, -⟩ := holding_some herror
  rcases bind_some hrun with ⟨e, hwalk, heq⟩ | ⟨p, w₁, hwalk, hrest⟩
  · obtain rfl := Except.error.inj heq
    exact .walk hwalk
  · obtain ⟨items, failure⟩ := p
    cases failure with
    | some e => cases hrest
    | none =>
      obtain ⟨hw₁, hk⟩ := keeps_walk h.guest (hw.hold _ _) hwalk
      obtain ⟨s₁, hs₁, -⟩ := (hhold.trans hk).states hs
      obtain ⟨q, hq, hraises⟩ := foldlM_collect_error hw₁ hs₁ hf hrest
      exact .entry hwalk hq ((hhold.trans hk).encoding hs ▸ hraises)

/-- A walk that ends with a fault is reported, and there is an empty mapping. -/
theorem toMapping_reported (hv : w.valid h = true)
    (hwalk : walk h.guest (w.hold [h.guest] h.state) = some (.ok (items, some f), w₁)) :
    ∃ s, w.states[h.state]? = some s ∧ toMapping E h w =
      some (.ok [], (w₁.withEffect s.diagnostics (.report (f.status.name ++ ": " ++ f.message))).release w) := by
  obtain ⟨s, hs, hrequire⟩ := requireState_valid "table" (hv ▸ valid_apply h w)
  refine ⟨s, hs, ?_⟩
  rw [toMapping, bind_ok hrequire]
  exact holding_of (bind_ok hwalk)

/-! ### Mappings of tables -/

theorem presents_host {m : Nat} (hx : w.Presents state s encoding (.host m) x) :
    x = if m = Value.nothingId then .none else .obj m := by
  cases hx with
  | handle kind_eq => contradiction
  | object n => rfl

/-- The host form of a key cannot be a key of a mapping just if it is such an object. -/
theorem hashable_presents {k : Lua.Key} (hx : w.Presents state s encoding k.value x) :
    w.hashable w.eqDepth x = false ↔ w.BadKey k := by
  by_cases hhost : ∃ m, k = .host m
  · obtain ⟨m, rfl⟩ := hhost
    obtain rfl := presents_host hx
    constructor
    · intro hhash
      split_ifs at hhash with hm
      · contradiction
      · exact ⟨m, rfl, hm, hhash⟩
    · rintro ⟨_, ⟨⟩, hm, hhash⟩
      rwa [if_neg hm]
  · rw [hashable_plain (hx.plain (Lua.Key.value_ne_host fun m hm => hhost ⟨m, hm⟩))]
    refine iff_of_false (by decide) ?_
    rintro ⟨m, hm, -⟩
    exact hhost ⟨m, hm⟩

section Served

variable {s' : LuaState} {p : Lua.Key × Lua.Value} {es : List (Lua.Key × Lua.Value)}

/-- An entry is collected, or its key is an object that no mapping can have as a key. -/
theorem collect_outcome (hs : w.Serves state s' encoding) (hg : s.Grown s') (hwraps : s.Wraps)
    (hq : w.CameEntry state s p q) (hkey : w.Proper p.1.value) (hvalue : w.Proper p.2)
    (acc : List (Value × Value)) :
    ∃ w', w.Grown state w' ∧
      ((∃ acc', collect (engine (n + 1)) state acc q w = some (.ok acc', w')) ∧ ¬ w'.BadKey p.1 ∨
        w'.BadKey p.1 ∧ ∃ message, collect (engine (n + 1)) state acc q w =
          some (.error (.of "TypeError" message), w')) := by
  obtain ⟨e, w₁, w', hv, hk, hw₁, hw', he, -⟩ := entry_presents (n := n) hs hg hwraps hq hkey hvalue
  refine ⟨w', hw₁.trans hw', ?_⟩
  cases hhash : w'.hashable w'.eqDepth e.1 with
  | true =>
    refine .inl ⟨⟨w'.putEntry acc e.1 e.2, ?_⟩, fun hbad => ?_⟩
    · rw [collect, bind_ok hv, bind_ok hk, bind_ok (get_apply _), if_pos hhash, pure_apply]
    · rw [(hashable_presents he.1).mpr hbad] at hhash
      contradiction
  | false => exact .inr ⟨(hashable_presents he.1).mp hhash, collect_unhashable acc hv hk hhash⟩

theorem foldlM_collect_outcome (hs : w.Serves state s' encoding) (hg : s.Grown s') (hwraps : s.Wraps)
    (hes : List.Forall₂ (w.CameEntry state s) es items) (hproper : ∀ p ∈ es, w.Proper p.1.value ∧ w.Proper p.2)
    (acc : List (Value × Value)) :
    ∃ w', w.Grown state w' ∧
      ((∃ rs, items.foldlM (collect (engine (n + 1)) state) acc w = some (.ok rs, w')) ∧ (∀ p ∈ es, ¬ w.BadKey p.1) ∨
        (∃ p ∈ es, w'.BadKey p.1) ∧ ∃ message, items.foldlM (collect (engine (n + 1)) state) acc w =
          some (.error (.of "TypeError" message), w')) := by
  induction es generalizing items acc w s' with
  | nil =>
    cases hes
    exact ⟨w, .refl _ _, .inl ⟨⟨acc, rfl⟩, fun p hp => absurd hp List.not_mem_nil⟩⟩
  | cons p es ih =>
    cases hes with
    | @cons _ q _ items hq hes =>
    obtain ⟨hkey, hvalue⟩ := hproper p List.mem_cons_self
    obtain ⟨w₁, hw₁, ⟨⟨acc', hcollect⟩, hgood⟩ | ⟨hbad, message, hcollect⟩⟩ :=
      collect_outcome (n := n) hs hg hwraps hq hkey hvalue acc
    · obtain ⟨s₁, hs₁, hg₁⟩ := hs.grown hw₁
      obtain ⟨w₂, hw₂, hrest⟩ := ih hs₁ (hg.trans hg₁) (hes.imp fun _ _ h => h.grown hw₁)
        (fun r hr => (hproper r (List.mem_cons_of_mem _ hr)).imp (·.grown hw₁) (·.grown hw₁)) acc'
      refine ⟨w₂, hw₁.trans hw₂, ?_⟩
      rw [List.foldlM_cons, bind_ok hcollect]
      rcases hrest with ⟨hrs, hall⟩ | ⟨⟨r, hr, hbad⟩, hrs⟩
      · refine .inl ⟨hrs, fun r hr hbad => ?_⟩
        rcases List.mem_cons.mp hr with rfl | hr
        · exact hgood (hbad.grown hw₁)
        · exact hall r hr (hbad.grown hw₁)
      · exact .inr ⟨⟨r, List.mem_cons_of_mem _ hr, hbad⟩, hrs⟩
    · refine ⟨w₁, hw₁, .inr ⟨⟨p, List.mem_cons_self, hbad⟩, message, ?_⟩⟩
      rw [List.foldlM_cons, bind_error hcollect]

end Served

/-- A table of a state that serves has a mapping, unless a key of its is an object that no mapping can have as a key. -/
theorem toMapping_outcome {t : Nat} (ht : w.TableAt h t s encoding)
    (hproper : ∀ p ∈ (s.machine.heap.table t).toList, w.Proper p.1.value ∧ w.Proper p.2) :
    (∃ rs w', toMapping (engine (n + 1)) h w = some (.ok rs, w') ∧
        ∀ p ∈ (s.machine.heap.table t).toList, ¬ w.BadKey p.1) ∨
      ∃ message w', toMapping (engine (n + 1)) h w = some (.error (.of "TypeError" message), w') ∧
        ∃ p ∈ (s.machine.heap.table t).toList, w'.BadKey p.1 := by
  obtain ⟨o, hguest, ho⟩ := ht.guest
  let held : World := w.hold [h.guest] h.state
  have hheld : held.Serves h.state s encoding := ht.toServes.mono rfl rfl
  obtain ⟨items, os, hitems, hcame⟩ := fetchEntries_came hheld.found (s.machine.heap.table t).toList
  have hw : w.Grown h.state (held.more os) :=
    have hsame : w.Grown h.state held := ⟨rfl, id, fun {s} h => ⟨s, h, .refl s⟩⟩
    hsame.trans (grown_more _ _ _)
  obtain ⟨w₁, hw₁, ⟨⟨rs, hrs⟩, hgood⟩ | ⟨⟨p, hp, hbad⟩, message, hrs⟩⟩ :=
    foldlM_collect_outcome (n := n) hheld.more (.refl s) ht.wraps hcame
      (fun p hp => (hproper p hp).imp (·.grown hw) (·.grown hw)) []
  · refine .inl ⟨rs, w₁.release w, ?_, fun p hp hbad => hgood p hp (hbad.grown hw)⟩
    rw [toMapping_eq _ ht.found ht.valid hguest ho, mapped, bind_ok hitems, hrs]
    rfl
  · refine .inr ⟨message, w₁.release w, ?_, p, hp, hbad.grown ((Grown.refl w₁ h.state).release w)⟩
    rw [toMapping_eq _ ht.found ht.valid hguest ho, mapped, bind_ok hitems, hrs]
    rfl

end Bridge

end HostedLua
