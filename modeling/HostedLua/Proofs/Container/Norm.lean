import HostedLua.Proofs.Container.Key

/-! Values of which a deep copy can go to Lua and come back. `norm` is the copy that comes back: sequences become
mappings from 1 on, and entries without a key or without a value are left out. -/

namespace HostedLua

open Host Bridge

/-- What a value shows when all mappings in it are opened: a scalar or entries. -/
inductive Reading where
  | scalar (v : Value)
  | dict (entries : List (Value × Reading))

namespace Reading

/-- Two readings are equal as mappings are: in some order their entries have equal keys and the same values.
Scalars are the same only if they are of one type. -/
inductive Same : Reading → Reading → Prop where
  | scalar {v : Value} : Same (.scalar v) (.scalar v)
  | dict {es es' fs : List (Value × Reading)} (order : es.Perm es') (length : es'.length = fs.length)
    (keys : ∀ p ∈ es'.zip fs, p.1.1.scalarEq p.2.1 = true) (values : ∀ p ∈ es'.zip fs, Same p.1.2 p.2.2) :
    Same (.dict es) (.dict fs)

theorem Same.of_forall₂ {es es' fs : List (Value × Reading)} (order : es.Perm es')
    (h : List.Forall₂ (fun e f => e.1.scalarEq f.1 = true ∧ Same e.2 f.2) es' fs) : Same (.dict es) (.dict fs) := by
  have hall : ∀ p ∈ es'.zip fs, p.1.1.scalarEq p.2.1 = true ∧ Same p.1.2 p.2.2 :=
    fun p hp => (List.forall₂_iff_zip.mp h).2 hp
  exact .dict order h.length_eq (fun p hp => (hall p hp).1) fun p hp => (hall p hp).2

end Reading

namespace World

variable {w : World} {state : Nat} {cs : Charset} {encoding v : Value} {depth : Nat}

/-- What comes back for a value: a sequence as a mapping from 1 on, a mapping without the entries whose key is
none or not a number; entries whose value is none are left out of both. -/
def norm (w : World) : (depth : Nat) → Value → Reading
  | 0, v => .scalar v
  | depth + 1, v =>
    match w.object? v with
    | some (.list vs) | some (.tuple vs) =>
      .dict (((vs.zipIdx 1).filter fun e => !e.1.isNone).map fun e => (.int e.2, norm w depth e.1))
    | some (.dict ps) =>
      .dict ((ps.filter fun e => !skipsKey e.1 && !e.2.isNone).map fun e => (e.1, norm w depth e.2))
    | _ => .scalar v

/-- A value is made up of covered scalars, lists, tuples and mappings with covered scalars as keys, no two of
them equal, and is nested less deep than a bound. A list is never longer than a signed word can say. -/
inductive Covered (w : World) (cs : Charset) : (depth : Nat) → Value → Prop where
  | scalar {depth : Nat} {v : Value} : v.IsCovered cs → Covered w cs (depth + 1) v
  | sequence {depth id : Nat} {vs : List Value} :
    w.objects[id]? = some (.list vs) ∨ w.objects[id]? = some (.tuple vs) → (vs.length : Int) ≤ maxInt →
    (∀ x ∈ vs, Covered w cs depth x) → Covered w cs (depth + 1) (.obj id)
  | dict {depth id : Nat} {ps : List (Value × Value)} :
    w.objects[id]? = some (.dict ps) → (∀ e ∈ ps, e.1.IsCovered cs) → (∀ e ∈ ps, Covered w cs depth e.2) →
    ps.Pairwise (fun e f => e.1.scalarEq f.1 = false) → Covered w cs (depth + 1) (.obj id)

section Same

variable {w' : World} (ho : w'.objects = w.objects)

include ho

theorem norm_congr : w'.norm depth v = w.norm depth v := by
  induction depth generalizing v with
  | zero => rfl
  | succ depth ih => simp only [norm, World.object?, ho, ih]

theorem Covered.congr (h : w.Covered cs depth v) : w'.Covered cs depth v := by
  induction h with
  | scalar h => exact .scalar h
  | sequence hid hlen _ ih => exact .sequence (by rwa [ho]) hlen ih
  | dict hid hkeys _ hdistinct ih => exact .dict (by rwa [ho]) hkeys ih hdistinct

end Same

/-- A covered value in one form: a scalar, or a container by its entries. -/
structure Entries (w : World) (cs : Charset) (depth : Nat) (v : Value) (es : List (Value × Value)) : Prop where
  entries : w.entries? v = some es
  covered : ∀ e ∈ es, e.1.IsCovered cs ∧ skipsKey e.1 = false ∧ w.Covered cs depth e.2
  distinct : es.Pairwise fun e f => e.1.scalarEq f.1 = false
  norm_eq : w.norm (depth + 1) v = .dict ((es.filter fun e => !e.2.isNone).map fun e => (e.1, w.norm depth e.2))

theorem norm_scalar (h : v.IsCovered cs) : w.norm depth v = .scalar v := by
  cases depth with
  | zero => rfl
  | succ depth => cases v <;> first | rfl | exact h.elim

/-- The entries of a sequence count from one. -/
theorem zipIdx_items (vs : List Value) : vs.zipIdx.map (fun (v, i) => (Value.int (i + 1), v)) =
    (vs.zipIdx 1).map fun e => (Value.int e.2, e.1) := by
  rw [List.zipIdx_succ, List.map_map]
  rfl

theorem entries_sequence {id : Nat} {vs : List Value} (hid : w.objects[id]? = some (.list vs) ∨
    w.objects[id]? = some (.tuple vs)) (hlen : (vs.length : Int) ≤ maxInt) (hvs : ∀ x ∈ vs, w.Covered cs depth x) :
    w.Entries cs depth (.obj id) ((vs.zipIdx 1).map fun e => (.int e.2, e.1)) := by
  have hitems := zipIdx_items vs
  have hskip : ((vs.zipIdx 1).map fun e => (Value.int e.2, e.1)).filter (fun e => !skipsKey e.1) =
      (vs.zipIdx 1).map fun e => (Value.int e.2, e.1) := by
    refine List.filter_eq_self.mpr fun e he => ?_
    obtain ⟨_, _, rfl⟩ := List.mem_map.mp he
    rfl
  refine ⟨?_, ?_, ?_, ?_⟩
  · rcases hid with hid | hid <;> simp [World.entries?, hid, items?, hitems, hskip]
  · intro e he
    obtain ⟨⟨x, i⟩, hx, rfl⟩ := List.mem_map.mp he
    obtain ⟨h1, h2, hx⟩ := List.mem_zipIdx hx
    refine ⟨⟨?_, ?_⟩, rfl, hvs x (hx ▸ List.getElem_mem _)⟩
    · simp only [minInt]; omega
    · show ((i : Nat) : Int) ≤ maxInt
      omega
  · rw [List.pairwise_map, List.pairwise_iff_getElem]
    intro i j hi hj hij
    simp [Value.scalarEq, Value.int?]
    omega
  · have hobj : w.object? (.obj id) = w.objects[id]? := rfl
    rcases hid with hid | hid <;>
      simp [norm, hobj, hid, List.filter_map, Function.comp_def]

theorem entries_dict {id : Nat} {ps : List (Value × Value)} (hid : w.objects[id]? = some (.dict ps))
    (hkeys : ∀ e ∈ ps, e.1.IsCovered cs) (hvalues : ∀ e ∈ ps, w.Covered cs depth e.2)
    (hdistinct : ps.Pairwise fun e f => e.1.scalarEq f.1 = false) :
    w.Entries cs depth (.obj id) (ps.filter fun e => !skipsKey e.1) := by
  refine ⟨by simp [World.entries?, hid, items?], ?_, hdistinct.filter _, ?_⟩
  · intro e he
    obtain ⟨hmem, hskip⟩ := List.mem_filter.mp he
    exact ⟨hkeys e hmem, by simpa using hskip, hvalues e hmem⟩
  · have hobj : w.object? (.obj id) = w.objects[id]? := rfl
    simp [norm, hobj, hid, List.filter_filter, Bool.and_comm]

/-- A covered value is a covered scalar, or has covered entries. -/
theorem Covered.cases (h : w.Covered cs depth v) :
    v.IsCovered cs ∨ ∃ d es, depth = d + 1 ∧ w.Entries cs d v es := by
  cases h with
  | scalar h => exact .inl h
  | sequence hid hlen hvs => exact .inr ⟨_, _, rfl, entries_sequence hid hlen hvs⟩
  | dict hid hkeys hvalues hdistinct => exact .inr ⟨_, _, rfl, entries_dict hid hkeys hvalues hdistinct⟩

/-! ### The conversion of covered values -/

theorem Covered.occurs {x : Value} (h : w.Covered cs depth v) (hx : w.Occurs v x) : ∃ d, w.Covered cs d x := by
  induction hx with
  | refl => exact ⟨depth, h⟩
  | tail _ hpart ih =>
    obtain ⟨d, hd⟩ := ih
    obtain ⟨es, hes, e, he, hxe⟩ := hpart
    rcases hd.cases with hs | ⟨d', es', rfl, hentries⟩
    · rw [entries?_of_isCovered hs] at hes
      contradiction
    · obtain rfl := Option.some.inj (hentries.entries.symm.trans hes)
      obtain ⟨hk, _, hv⟩ := hentries.covered e he
      rcases hxe with rfl | rfl
      · exact ⟨1, .scalar hk⟩
      · exact ⟨d', hv⟩

/-- A covered value converts with all that occurs in it. -/
theorem Covered.convertible {s : LuaState} (he : encoding ≠ .none) (h : w.Covered s.charset depth v) :
    w.Convertible state s.charset encoding v := by
  intro x hx
  obtain ⟨d, hd⟩ := h.occurs hx
  rcases hd.cases with hs | ⟨d', es, rfl, hentries⟩
  · refine ⟨fun _ => ?_, fun es hes => ?_⟩
    · obtain ⟨y, hy, _⟩ := leaf?_of_isCovered w state he hs
      simp [hy]
    · rw [entries?_of_isCovered hs] at hes
      contradiction
  · refine ⟨fun hes => ?_, fun es' hes e hmem _ => ?_⟩
    · rw [hentries.entries] at hes
      contradiction
    · obtain rfl := Option.some.inj (hentries.entries.symm.trans hes)
      obtain ⟨hk, hskip, _⟩ := hentries.covered e hmem
      obtain ⟨y, κ, hy, hκ, _⟩ := key_of_isCovered w state he hk hskip
      exact ⟨y, κ, hy, hκ⟩

theorem visitEntries_isSome {es : List (Value × Value)} (seen : List Nat)
    (ih : ∀ (seen : List Nat) {v : Value}, w.Covered cs depth v → (w.visit depth seen v).isSome)
    (h : ∀ e ∈ es, e.1.IsCovered cs ∧ skipsKey e.1 = false ∧ w.Covered cs depth e.2) :
    (w.visitEntries depth seen es).isSome := by
  induction es generalizing seen with
  | nil => simp [visitEntries_nil]
  | cons e es ihe =>
    obtain ⟨hk, _, hv⟩ := h e (List.mem_cons_self ..)
    -- There is room for the key, since there is for the value.
    have hkey : w.Covered cs depth e.1 := by
      cases depth with
      | zero => cases hv
      | succ depth => exact .scalar hk
    obtain ⟨s₁, h₁⟩ := Option.isSome_iff_exists.mp (ih seen hv)
    obtain ⟨s₂, h₂⟩ := Option.isSome_iff_exists.mp (ih s₁ hkey)
    obtain ⟨s₃, h₃⟩ := Option.isSome_iff_exists.mp (ihe s₂ fun e he => h e (List.mem_cons_of_mem _ he))
    exact Option.isSome_iff_exists.mpr ⟨s₃, visitEntries_cons.mpr ⟨s₁, s₂, h₁, h₂, h₃⟩⟩

/-- The walk through a covered value stays within the bound on its nesting. -/
theorem Covered.visit (seen : List Nat) (h : w.Covered cs depth v) : (w.visit depth seen v).isSome := by
  induction depth generalizing seen v with
  | zero => cases h
  | succ depth ih =>
    rcases h.cases with hs | ⟨d, es, hd, hentries⟩
    · simp [visit_leaf (entries?_of_isCovered hs)]
    · obtain rfl : depth = d := by omega
      obtain ⟨id, rfl⟩ := exists_obj_of_entries? hentries.entries
      by_cases hid : id ∈ seen
      · simp [visit_seen hid]
      · rw [visit_fresh hentries.entries hid]
        exact visitEntries_isSome _ (fun seen _ => ih seen) hentries.covered

end World

end HostedLua
