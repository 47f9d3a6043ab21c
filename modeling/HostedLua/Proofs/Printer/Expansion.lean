import HostedLua.Proofs.Crossing.Strings
import HostedLua.Proofs.Printer.Tree
import HostedLua.Proofs.Table.Twins

/-! How far tables are printed. What a value of Lua's is printed as depends on its tables and on how many levels may
still be expanded: a table has a block while there are levels, and is cut where there are none. A host with limits may
have no room at a place that is come to, and then nothing is printed. More levels change nothing where no table is
cut. -/

namespace HostedLua

open Host

def Address.blank : Address := ⟨[], fun _ h => absurd h List.not_mem_nil⟩

namespace Printer

namespace Tree

/-- A tree, addresses aside. -/
def blank : Tree → Tree
  | handle kind _ => handle kind .blank
  | guest value _ => guest value .blank
  | tuple parts => tuple (parts.map blank)
  | block parts => block (parts.map blank)
  | entry k v => entry k.blank v.blank
  | d => d

/-- Every table is expanded. -/
def whole : Tree → Bool
  | cut => false
  | tuple parts => (parts.map whole).all id
  | block parts => (parts.map whole).all id
  | entry k v => k.whole && v.whole
  | _ => true

/-- A text does not depend on how deep tables are expanded. -/
theorem text_congr {p p' : Printer} (h : p'.indentWidth = p.indentWidth) (level : Int) (d : Tree) :
    text p' level d = text p level d := by
  have hindent (level : Int) : p'.indent level = p.indent level := by rw [indent, indent, h]
  have hblock (es : List Text) (level : Int) : p'.block es level = p.block es level := by
    simp only [Printer.block, hindent]
  fun_induction Tree.text p level d with
  | case10 level parts ih => rw [text, List.map_congr_left ih]
  | case11 level parts ih => rw [text, List.map_congr_left ih, hblock]
  | case12 level k v ihk ihv => rw [text, ihk, ihv]
  | _ => rw [text]

end Tree

open HostedLua.Printer.Tree

variable {s s' : LuaState} {encoding : Value} {n m : Nat} {v : Lua.Value}

/-- The tree of a string, which the host has as text or as bytes. -/
def stringTree : Value → Tree
  | .text t => .string t
  | .bytes b => .bytes b
  | _ => .nil

/-- What a value of Lua's is printed as while some levels of tables may be expanded, addresses aside. -/
def expand (s : LuaState) (encoding : Value) : (levels : Nat) → Lua.Value → Tree
  | _, .nil => .nil
  | _, .bool b => .bool b
  | _, .int i => .int i.toInt
  | _, .float x => .float x
  | _, .str b => stringTree (s.charset.shown encoding b)
  | 0, .table _ => .cut
  | levels + 1, .table t => .block ((Lua.mergeTwins (s.machine.heap.table t).toList).map fun p =>
      .entry (expand s encoding levels p.1.value) (expand s encoding levels p.2))
  | _, .closure _ => .handle .function .blank
  | _, .builtin _ => .handle .function .blank
  | _, .wrapped _ => .handle .function .blank
  | _, .thread _ => .handle .coroutine .blank
  | _, .stdout => .guest .stdout .blank
  | _, .host _ => .other []

def expandEntry (s : LuaState) (encoding : Value) (levels : Nat) (p : Lua.Key × Lua.Value) : Tree :=
  .entry (expand s encoding levels p.1.value) (expand s encoding levels p.2)

theorem expand_table (levels t : Nat) : expand s encoding (levels + 1) (.table t) =
    .block ((Lua.mergeTwins (s.machine.heap.table t).toList).map (expandEntry s encoding levels)) := by
  rw [expand]
  rfl

/-- What a value is printed as depends on the tables and on how strings are read. -/
theorem expand_congr (hcs : s'.charset = s.charset) (htables : s'.machine.heap.tables = s.machine.heap.tables)
    (n : Nat) (v : Lua.Value) : expand s' encoding n v = expand s encoding n v := by
  have htable (t : Nat) : s'.machine.heap.table t = s.machine.heap.table t := by
    rw [Lua.Heap.table, Lua.Heap.table, htables]
  induction n generalizing v with
  | zero => cases v <;> simp only [expand, hcs]
  | succ n ih => cases v <;> simp only [expand, hcs, htable, ih]

/-! ### Within the limits of a host -/

variable {l : Limits} {path : Path}

/-- The tree of a key: a name has one in any case, and any other value where there is one of it. -/
def keyWithin (key : Tree) (shown : Option Tree) : Option Tree :=
  match key with
  | string t => if isName t then some key else shown
  | _ => shown

theorem keyWithin_none {key : Tree} {shown shown' : Option Tree} (h : keyWithin key shown = none)
    (hshown : shown = none → shown' = none) : keyWithin key shown' = none := by
  unfold keyWithin at h ⊢
  split at h
  · split_ifs at h ⊢
    exact hshown h
  · exact hshown h

theorem keyWithin_some {key d : Tree} {shown shown' : Option Tree} (h : keyWithin key shown = some d)
    (hshown : shown = some d → shown' = some d) : keyWithin key shown' = some d := by
  unfold keyWithin at h ⊢
  split at h
  · split_ifs at h ⊢
    · exact h
    · exact hshown h
  · exact hshown h

/-- What a value of Lua's at a place is printed as where a host has its limits, addresses aside: nothing, if there is a
place that the host has no room for. A table that there is little room for has no entries. -/
def expandWithin (l : Limits) (s : LuaState) (encoding : Value) : (levels : Nat) → Path → Lua.Value → Option Tree
  | levels + 1, path, .table t =>
    match l.roomAt path with
    | .none => none
    | .scarce => some (.block [])
    | .ample => .block <$> (Lua.mergeTwins (s.machine.heap.table t).toList).zipIdx.mapM fun (e, i) => do
        let key ← keyWithin (expand s encoding 0 e.1.value)
          (expandWithin l s encoding levels ((.key true, i) :: path) e.1.value)
        return .entry key (← expandWithin l s encoding levels ((.value true, i) :: path) e.2)
  | _, path, v => if l.roomAt path = .none then none else some (expand s encoding 0 v)

/-- The tree of an entry of a table. -/
def entryWithin (l : Limits) (s : LuaState) (encoding : Value) (levels : Nat) (path : Path)
    (e : (Lua.Key × Lua.Value) × Nat) : Option Tree := do
  let key ← keyWithin (expand s encoding 0 e.1.1.value)
    (expandWithin l s encoding levels ((.key true, e.2) :: path) e.1.1.value)
  return .entry key (← expandWithin l s encoding levels ((.value true, e.2) :: path) e.1.2)

theorem expand_leaf (hv : ∀ t, v ≠ .table t) (n : Nat) : expand s encoding n v = expand s encoding 0 v := by
  cases v with
  | table t => exact absurd rfl (hv t)
  | _ => cases n <;> rfl

theorem expandWithin_leaf (hv : ∀ t, v ≠ .table t) (n : Nat) (path : Path) : expandWithin l s encoding n path v =
    if l.roomAt path = .none then none else some (expand s encoding 0 v) := by
  cases v with
  | table t => exact absurd rfl (hv t)
  | _ => cases n <;> rfl

theorem expandWithin_cut (t : Nat) (path : Path) :
    expandWithin l s encoding 0 path (.table t) = if l.roomAt path = .none then none else some .cut := rfl

theorem expandWithin_table (n t : Nat) (path : Path) : expandWithin l s encoding (n + 1) path (.table t) =
    match l.roomAt path with
    | .none => none
    | .scarce => some (.block [])
    | .ample =>
      .block <$> (Lua.mergeTwins (s.machine.heap.table t).toList).zipIdx.mapM (entryWithin l s encoding n path) := rfl

/-- Where there is no room nothing is printed. -/
theorem expandWithin_none (h : l.roomAt path = .none) (n : Nat) (v : Lua.Value) :
    expandWithin l s encoding n path v = none := by
  by_cases hv : ∃ t, v = .table t
  · obtain ⟨t, rfl⟩ := hv
    cases n with
    | zero => rw [expandWithin_cut, if_pos h]
    | succ n => rw [expandWithin_table, h]
  · rw [expandWithin_leaf (fun t ht => hv ⟨t, ht⟩), if_pos h]

/-- What is printed within limits depends on the tables and on how strings are read. -/
theorem expandWithin_congr (hcs : s'.charset = s.charset) (htables : s'.machine.heap.tables = s.machine.heap.tables)
    (n : Nat) (path : Path) (v : Lua.Value) :
    expandWithin l s' encoding n path v = expandWithin l s encoding n path v := by
  have htable (t : Nat) : s'.machine.heap.table t = s.machine.heap.table t := by
    rw [Lua.Heap.table, Lua.Heap.table, htables]
  have hleaf (v : Lua.Value) : expand s' encoding 0 v = expand s encoding 0 v := expand_congr hcs htables 0 v
  induction n generalizing path v with
  | zero => cases v <;> simp only [expandWithin, hleaf]
  | succ n ih => cases v <;> simp only [expandWithin, hleaf, htable, ih]

theorem expand_string {t : Text} (h : expand s encoding 0 v = .string t) (n : Nat) :
    expand s encoding n v = expand s encoding 0 v := by
  refine expand_leaf (fun id hv => ?_) n
  subst hv
  cases h

theorem mapM_zipIdx_some {α β : Type} {f : α × Nat → Option β} {g : α → β} {xs : List α}
    (h : ∀ x ∈ xs, ∀ i, f (x, i) = some (g x)) (k : Nat) : (xs.zipIdx k).mapM f = some (xs.map g) := by
  induction xs generalizing k with
  | nil => rfl
  | cons x xs ih =>
    obtain ⟨hx, hxs⟩ := List.forall_mem_cons.mp h
    rw [List.zipIdx_cons, List.mapM_cons, hx, ih hxs]
    rfl

/-- Where there is room for all that is printed, a value is printed as its expansion. -/
theorem expandWithin_ample (h : ∀ q : Path, q.length ≤ path.length + n → l.roomAt q = .ample) (v : Lua.Value) :
    expandWithin l s encoding n path v = some (expand s encoding n v) := by
  have hpath : l.roomAt path = .ample := h path (Nat.le_add_right ..)
  induction n generalizing path v with
  | zero =>
    by_cases hv : ∃ t, v = .table t
    · obtain ⟨t, rfl⟩ := hv
      rw [expandWithin_cut, hpath, expand]
      rfl
    · rw [expandWithin_leaf fun t ht => hv ⟨t, ht⟩, hpath]
      rfl
  | succ n ih =>
    by_cases hv : ∃ t, v = .table t
    · obtain ⟨t, rfl⟩ := hv
      have hinner (link : Link × Nat) (v : Lua.Value) :
          expandWithin l s encoding n (link :: path) v = some (expand s encoding n v) := by
        have hroom (q : Path) (hq : q.length ≤ (link :: path).length + n) : l.roomAt q = .ample :=
          h q (by rw [List.length_cons] at hq; omega)
        exact ih hroom v (hroom _ (Nat.le_add_right ..))
      have hentry (e : Lua.Key × Lua.Value) (i : Nat) :
          entryWithin l s encoding n path (e, i) = some (expandEntry s encoding n e) := by
        have hkey : keyWithin (expand s encoding 0 e.1.value) (some (expand s encoding n e.1.value)) =
            some (expand s encoding n e.1.value) := by
          unfold keyWithin
          split
          · next hstring => rw [expand_string hstring n, ite_self]
          · rfl
        rw [entryWithin, hinner, hinner, hkey]
        rfl
      rw [expandWithin_table, hpath, expand_table]
      dsimp only
      rw [mapM_zipIdx_some fun e _ i => hentry e i]
      rfl
    · have hv' : ∀ t, v ≠ .table t := fun t ht => hv ⟨t, ht⟩
      rw [expandWithin_leaf hv', hpath, expand_leaf hv' (n + 1)]
      rfl

/-! ### More levels -/

theorem mapM_none {α β : Type} {f g : α → Option β} {xs : List α} (h : xs.mapM f = none)
    (hfg : ∀ x ∈ xs, f x = none → g x = none) : xs.mapM g = none := by
  induction xs with
  | nil => contradiction
  | cons x xs ih =>
    obtain ⟨hx, hxs⟩ := List.forall_mem_cons.mp hfg
    rw [List.mapM_cons] at h ⊢
    cases hgx : g x with
    | none => rfl
    | some y =>
      cases hfx : f x with
      | none => simp [hx hfx] at hgx
      | some z =>
        have hrest : xs.mapM f = none := by
          cases hf : xs.mapM f with
          | none => rfl
          | some zs =>
            rw [hfx, hf] at h
            contradiction
        rw [ih hrest hxs]
        rfl

theorem mapM_some {α β : Type} {f g : α → Option β} {xs : List α} {ys : List β} (h : xs.mapM f = some ys)
    (hfg : ∀ x ∈ xs, ∀ y ∈ ys, f x = some y → g x = some y) : xs.mapM g = some ys := by
  induction xs generalizing ys with
  | nil => exact h
  | cons x xs ih =>
    rw [List.mapM_cons] at h
    obtain ⟨y, hy, h⟩ := Option.bind_eq_some_iff.mp h
    obtain ⟨zs, hzs, h⟩ := Option.bind_eq_some_iff.mp h
    obtain rfl := Option.some.inj h
    have hrest : xs.mapM g = some zs := ih hzs fun x hx z hz =>
      hfg x (List.mem_cons_of_mem _ hx) z (List.mem_cons_of_mem _ hz)
    rw [List.mapM_cons, hfg x (List.mem_cons_self ..) y (List.mem_cons_self ..) hy, hrest]
    rfl

/-- What is refused within some levels is refused within more. -/
theorem expandWithin_refused (h : expandWithin l s encoding n path v = none) (hle : n ≤ m) :
    expandWithin l s encoding m path v = none := by
  induction n generalizing path v m with
  | zero =>
    by_cases hroom : l.roomAt path = .none
    · exact expandWithin_none hroom m v
    · cases v <;> simp [expandWithin, hroom] at h
  | succ n ih =>
    obtain ⟨m, rfl⟩ := Nat.exists_eq_add_of_le' (Nat.le_trans (Nat.succ_pos n) hle)
    have hle : n ≤ m := Nat.le_of_succ_le_succ hle
    by_cases hv : ∃ t, v = .table t
    · obtain ⟨t, rfl⟩ := hv
      rw [expandWithin_table] at h ⊢
      cases hroom : l.roomAt path with
      | none => rfl
      | scarce =>
        rw [hroom] at h
        contradiction
      | ample =>
        rw [hroom] at h
        dsimp only at h ⊢
        rw [Option.map_eq_map, Option.map_eq_none_iff] at h ⊢
        refine mapM_none h fun x _ hx => ?_
        rw [entryWithin] at hx ⊢
        cases hkey : keyWithin (expand s encoding 0 x.1.1.value)
            (expandWithin l s encoding n ((.key true, x.2) :: path) x.1.1.value) with
        | none =>
          have hmore := keyWithin_none hkey fun h => ih h hle
          rw [hmore]
          rfl
        | some key =>
          rw [hkey] at hx
          have hvalue : expandWithin l s encoding n ((.value true, x.2) :: path) x.1.2 = none :=
            Option.eq_none_iff_forall_ne_some.mpr (by simpa using hx)
          rw [ih hvalue hle]
          cases keyWithin _ _ <;> rfl
    · rw [expandWithin_leaf fun t ht => hv ⟨t, ht⟩] at h ⊢
      exact h

theorem whole_block {parts : List Tree} : (Tree.block parts).whole = true ↔ ∀ d ∈ parts, d.whole = true := by
  simp [whole]

theorem whole_entry {k v : Tree} : (entry k v).whole = true ↔ k.whole = true ∧ v.whole = true := by
  simp [whole]

/-- What is printed within some levels is printed within more, if no table is cut in it. -/
theorem expandWithin_more {D : Tree} (h : expandWithin l s encoding n path v = some D) (hwhole : D.whole = true)
    (hle : n ≤ m) : expandWithin l s encoding m path v = some D := by
  induction n generalizing path v m D with
  | zero =>
    by_cases hv : ∃ t, v = .table t
    · obtain ⟨t, rfl⟩ := hv
      rw [expandWithin_cut, Option.ite_none_left_eq_some] at h
      obtain rfl := Option.some.inj h.2
      simp [whole] at hwhole
    · rw [expandWithin_leaf fun t ht => hv ⟨t, ht⟩] at h ⊢
      exact h
  | succ n ih =>
    obtain ⟨m, rfl⟩ := Nat.exists_eq_add_of_le' (Nat.le_trans (Nat.succ_pos n) hle)
    have hle : n ≤ m := Nat.le_of_succ_le_succ hle
    by_cases hv : ∃ t, v = .table t
    · obtain ⟨t, rfl⟩ := hv
      rw [expandWithin_table] at h ⊢
      cases hroom : l.roomAt path with
      | none =>
        rw [hroom] at h
        contradiction
      | scarce =>
        rw [hroom] at h
        exact h
      | ample =>
        rw [hroom] at h
        dsimp only at h ⊢
        rw [Option.map_eq_map, Option.map_eq_some_iff] at h ⊢
        obtain ⟨ds, hds, rfl⟩ := h
        refine ⟨ds, mapM_some hds fun x _ d hd hx => ?_, rfl⟩
        rw [entryWithin] at hx ⊢
        obtain ⟨key, hkey, hx⟩ := Option.bind_eq_some_iff.mp hx
        obtain ⟨value, hvalue, hx⟩ := Option.bind_eq_some_iff.mp hx
        obtain rfl := Option.some.inj hx
        obtain ⟨hkeyWhole, hvalueWhole⟩ := whole_entry.mp (whole_block.mp hwhole _ hd)
        have hkey' := keyWithin_some hkey fun h => ih h hkeyWhole hle
        rw [hkey', ih hvalue hvalueWhole hle]
        rfl
    · rw [expandWithin_leaf fun t ht => hv ⟨t, ht⟩] at h ⊢
      exact h

end Printer

end HostedLua
